import TransportHub.Proofs.Independence
/-!
Settling is confluent: in whatever order the workers take their turns until each of them sleeps or has ended,
they come to the same state, and each of them has called the same listeners and noted the same.

A listener that panics depending on how often it was called panics on the thread of whichever worker comes to
it at that count. Where its panics fall is all that the order decides about it.
-/

set_option autoImplicit false

namespace TransportHub

variable {config : Config} {hooks : List Hook} {past more more' : List Moment} {m m' a b after after' : Machine} {t u w : ThreadId}
  {job : Job} {later : List Job} {id : LaneId} {x y : Moment}

def strikes : List Job → Nat
  | [] => 0
  | .panic :: .panic :: rest => strikes (.panic :: rest)
  | .panic :: rest => 1 + strikes rest
  | .participant (.deliver d) :: rest | .participant (.delivered d) :: rest => d.panics + strikes rest
  | _ :: rest => strikes rest

theorem strikes_cons (quiet : job ≠ .panic) : strikes (job :: later) = job.bruises + strikes later := by
  unfold Job.bruises
  split
  · rfl
  · rfl
  · rw [strikes, Nat.zero_add] <;> simp_all

theorem strikes_append {front : List Job} (quiet : ∀ job ∈ front, job ≠ .panic) :
    strikes (front ++ later) = weight Job.bruises front + strikes later := by
  induction front with
  | nil => simp
  | cons job rest ih =>
      rw [List.cons_append, strikes_cons (quiet job (List.mem_cons_self ..)),
        ih fun j member => quiet j (List.mem_cons_of_mem _ member),
        weight_cons, Nat.add_assoc]

theorem strikes_panics {front : List Job} (panics : ∀ job ∈ front, job = .panic) (d : Delivery) :
    strikes (front ++ .participant (.delivered d) :: later) = (if front.isEmpty then 0 else 1) + (d.panics + strikes later) := by
  induction front with
  | nil => exact (Nat.zero_add _).symm
  | cons job rest ih =>
      obtain rfl := panics job (List.mem_cons_self ..)
      have ih := ih fun j member => panics j (List.mem_cons_of_mem _ member)
      cases rest with
      | nil => rfl
      | cons next rest =>
          obtain rfl := panics next (by simp)
          exact ih

theorem strikes_kept (routine : Each Job.Routine (.panic :: later)) : strikes (kept later) = strikes (.panic :: later) := by
  obtain ⟨front, d, rest, rfl, panics, _⟩ := routine_panics routine
  rw [kept, (caught_panics panics).1, ← List.cons_append, strikes_panics (List.forall_mem_cons.mpr ⟨rfl, panics⟩)]
  show d.panics + 1 + strikes rest = 1 + (d.panics + strikes rest)
  omega

def ListenerSpec.trips (spec : ListenerSpec Op) : List Event → Nat
  | [] => 0
  | event :: before => spec.trips before + if (Rule.opsFor spec.script event (before.count event)).isEmpty then 0 else 1

def Cast.trips (c : Cast) : Nat := (c.listeners.map fun l => l.spec.trips l.past).sum

theorem nested_empty (ops : List Op) : (ops.flatMap Job.nested).isEmpty = ops.isEmpty := by
  cases ops with
  | nil => rfl
  | cons op rest => cases op <;> rfl

theorem hear_trips (m : Machine) (t : ThreadId) (l : ListenerId) (callback : Callback) :
    (Job.exec m t (.participant (.hear l callback))).1.cast.trips =
      m.cast.trips + if (Job.exec m t (.participant (.hear l callback))).2.isEmpty then 0 else 1 := by
  simp only [Job.exec, ParticipantJob.exec, ParticipantJob.callListener]
  split
  · rename_i listener known
    split
    · rfl
    · have counted := sum_set (fun l : Listener => l.spec.trips l.past) known (listener.meet callback.event).2
      simp only [Listener.meet, ListenerSpec.trips, nested_empty, Machine.note, Cast.trips, Cast.setListener] at counted ⊢
      omega
  · rfl

theorem trips_perm (spec : ListenerSpec Op) {first second : List Event} (perm : first.Perm second) :
    spec.trips first = spec.trips second := by
  induction perm with
  | nil => rfl
  | cons event perm ih => rw [ListenerSpec.trips, ListenerSpec.trips, ih, perm.count_eq]
  | swap e e' rest =>
      by_cases same : e = e'
      · rw [same]
      · have other : (e :: rest).count e' = rest.count e' := List.count_cons_of_ne same
        have other' : (e' :: rest).count e = rest.count e := List.count_cons_of_ne (Ne.symm same)
        simp only [ListenerSpec.trips, other, other']
        omega
  | trans _ _ ih ih' => exact ih.trans ih'

def Job.strikesOut : Job → Nat
  | .participant (.deliver d) => if d.called < d.listeners.length then 0 else d.panics
  | _ => 0

theorem panics_adds (m : Machine) (t : ThreadId) (job : Job) :
    (job.exec m t).1.hub.metrics.panics = m.hub.metrics.panics + job.strikesOut := by
  by_cases delivers : ∃ d, job = .participant (.deliver d)
  · obtain ⟨d, rfl⟩ := delivers
    simp only [Job.exec, ParticipantJob.exec, Job.strikesOut]
    split
    · rename_i outside
      rw [if_neg (Nat.not_lt.mpr (List.getElem?_eq_none_iff.mp outside))]
      rfl
    · rename_i more
      rw [if_pos (List.getElem?_eq_some_iff.mp more).1]
      rfl
  · have none : job.strikesOut = 0 := by
      unfold Job.strikesOut
      split
      · exact absurd ⟨_, rfl⟩ delivers
      · rfl
    rw [none]
    rcases metrics_exec m t job with ⟨_, same, _⟩ | ⟨rfl, same⟩ | ⟨rfl, same⟩ | ⟨d, rfl, _⟩
    · rw [same]
      rfl
    · rw [same]
      rfl
    · rw [same]
      rfl
    · exact absurd ⟨d, rfl⟩ delivers

theorem bruises_next (m : Machine) (apart : t ≠ .caller) (routine : job.routine = true) (deaf : job.hears = false)
    (quiet : job ≠ .panic) :
    weight Job.bruises (job.exec m t).2 + job.strikesOut = job.bruises := by
  have even : (∀ j, job ≠ .participant j) → weight Job.bruises (job.exec m t).2 = 0 :=
    fun aside => weight_zero fun j member => (even_next m apart routine quiet aside j member).unhurt
  cases job with
  | participant job =>
      cases job with
      | hear => cases deaf
      | deliver d =>
          simp only [Job.exec, ParticipantJob.exec, Job.strikesOut]
          split
          · rename_i outside
            rw [if_neg (Nat.not_lt.mpr (List.getElem?_eq_none_iff.mp outside))]
            exact Nat.zero_add _
          · rename_i more
            rw [if_pos (List.getElem?_eq_some_iff.mp more).1]
            simp [Job.bruises]
      | delivered d => simp [Job.exec, ParticipantJob.exec, Job.strikesOut, Job.bruises]
      | _ => cases routine
  | _ =>
      rw [even fun _ => Job.noConfusion]
      rfl

theorem Recast.deaf {c c' : Cast} (recast : Recast c job c') (routine : job.routine = true) (deaf : job.hears = false) : c' = c := by
  cases recast with
  | same => rfl
  | hear => cases deaf
  | _ => cases routine

theorem Next.struck {allowed : Moment → Prop} (next : Next allowed past m more x after) (run : Run config hooks past m)
    (passive : m.cast.passive) :
    after.hub.metrics.panics + strikes (after.agenda x.thread) + x.machine.cast.trips =
      x.machine.hub.metrics.panics + strikes (x.machine.agenda x.thread) + after.cast.trips := by
  have worked := next.work.worked run passive
  have apart := ((next.reached run).dispatcher_known (worked.dispatches ▸ next.works)).1
  have routine := next.routine run passive
  rcases step_cases next.agenda next.went with ⟨panics, rfl⟩ | ⟨quiet, _, rfl⟩
  · rw [panics] at routine
    have agenda := next.agenda
    rw [panics] at agenda
    have metrics : (x.machine.unwind x.thread x.later).hub.metrics = x.machine.hub.metrics := by
      rcases hub_unwind x.machine x.thread x.later with hub | hub <;> rw [hub]
    rw [metrics, cast_unwind, agenda_unwind_self agenda, agenda, strikes_kept routine]
  · have metrics : (x.machine.carry x.thread x.job x.later).hub.metrics.panics = x.machine.hub.metrics.panics + x.job.strikesOut :=
      panics_adds x.machine x.thread x.job
    have cast : (x.machine.carry x.thread x.job x.later).cast = (x.job.exec x.machine x.thread).1.cast := rfl
    rw [metrics, cast, agenda_carry_self next.agenda, next.agenda, strikes_cons quiet]
    cases hears : x.job.hears with
    | true =>
        obtain ⟨d, ends⟩ := routine.1.hear hears
        obtain ⟨l, callback, same⟩ : ∃ l callback, x.job = .participant (.hear l callback) := by
          cases job : x.job with
          | participant j => cases j <;> first | exact ⟨_, _, rfl⟩ | (rw [job] at hears; cases hears)
          | _ => rw [job] at hears; cases hears
        obtain ⟨rest, split⟩ : ∃ rest, x.later = .participant (.delivered d) :: rest := by
          cases later : x.later with
          | nil => rw [later] at ends; cases ends
          | cons first rest => rw [later] at ends; cases ends; exact ⟨rest, rfl⟩
        rw [same, split, strikes_panics (heard_panics (worked.passive passive) x.thread l callback), hear_trips,
          strikes_cons Job.noConfusion]
        simp only [Job.strikesOut, Job.bruises]
        omega
    | false =>
        have none := quiet_next x.machine apart routine.1.kind quiet hears
        have counted := bruises_next x.machine apart routine.1.kind hears quiet
        have cast := (recast_exec x.machine x.thread x.job).deaf routine.1.kind hears
        rw [strikes_append none, cast]
        omega

theorem agendas_turned (others : ∀ u, u ≠ t → m'.agenda u = m.agenda u) (length : m'.agendas.length = m.agendas.length) :
    m'.agendas = m.agendas.set t.val (m'.agenda t) := by
  refine List.ext_getElem? fun i => ?_
  have at_ : ∀ (m : Machine) (i : Nat), i < m.agendas.length → m.agendas[i]? = some (m.agenda ⟨i⟩) := fun m i within => by
    rw [agenda_eq]
    simp [within]
  by_cases within : i < m.agendas.length
  · rw [at_ m' i (length ▸ within)]
    by_cases mine : t.val = i
    · subst mine
      rw [List.getElem?_set_self within]
    · rw [List.getElem?_set_ne mine, at_ m i within, others ⟨i⟩ fun same => mine (congrArg ThreadId.val same).symm]
  · rw [List.getElem?_eq_none (by omega), List.getElem?_eq_none (by rw [List.length_set]; omega)]

theorem Next.of (work : Work past m more m') (works : dispatches past t) (agenda : m'.agenda t = job :: later)
    (went : m'.step? t = some after) :
    Next (fun _ => True) past m more ⟨m', t, job, later⟩ after := ⟨work, works, agenda, went, fun _ _ => trivial⟩

def Machine.strikes (m : Machine) : Nat := (m.agendas.map TransportHub.strikes).sum

theorem Work.struck (work : Work past m more m') (run : Run config hooks past m) (passive : m.cast.passive) :
    m'.hub.metrics.panics + m'.strikes + m.cast.trips = m.hub.metrics.panics + m.strikes + m'.cast.trips := by
  induction work with
  | start => rfl
  | @turn more m' m'' t job later work works agenda went ih =>
      have next := Next.of work works agenda went
      have struck := next.struck run passive
      obtain ⟨_, others, length, _⟩ := next.turned run passive
      have counted := sum_set TransportHub.strikes (agenda_known agenda (List.cons_ne_nil _ _)) (m''.agenda t)
      rw [← agenda, ← agendas_turned others length] at counted
      simp only [Machine.strikes] at ih ⊢
      simp only at struck
      omega

theorem Work.accepted (work : Work past m more m') (run : Run config hooks past m) (passive : m.cast.passive) :
    m'.hub.metrics.enqueued = m.hub.metrics.enqueued ∧ m'.hub.metrics.orphaned = m.hub.metrics.orphaned := by
  induction work with
  | start => exact ⟨rfl, rfl⟩
  | @turn more m' m'' t job later work works agenda went ih =>
      have routine := ((Next.of work works agenda went).routine run passive).1.kind
      rcases step_cases agenda went with ⟨rfl, rfl⟩ | ⟨_, _, rfl⟩
      · rcases hub_unwind m' t later with hub | hub <;> rw [hub] <;> exact ih
      · have none : job.enqueuesDevice = 0 ∧ job.accepts m' = 0 ∧ orphaning job = 0 := by
          cases job with
          | deviceLane job | dataLane job => cases job <;> first | exact ⟨rfl, rfl, rfl⟩ | cases routine
          | _ => exact ⟨rfl, rfl, rfl⟩
        have enqueued := enqueued_adds m' t job
        have orphaned := orphaned_adds m' t job
        rw [none.1, none.2.1] at enqueued
        rw [none.2.2] at orphaned
        exact ⟨enqueued.trans ih.1, orphaned.trans ih.2⟩

def heardOf (l : ListenerId) (calls : List (ListenerId × Callback)) : List Event :=
  calls.filterMap fun call => if call.1 = l then some call.2.event else none

theorem Work.listened (work : Work past m more m') (run : Run config hooks past m) (passive : m.cast.passive) {l : ListenerId}
    {known : Listener} (here : m.cast.listener? l = some known) :
    ∃ known', m'.cast.listener? l = some known' ∧ known'.spec = known.spec ∧
      known'.past = (if known.spec.silent then [] else (heardOf l (more.flatMap fun x => x.job.reaches)).reverse) ++ known.past := by
  induction work with
  | start => exact ⟨known, here, rfl, by simp [heardOf]⟩
  | @turn more m' m'' t job later work works agenda went ih =>
      obtain ⟨known', found, spec, heard⟩ := ih
      have next := Next.of work works agenda went
      obtain ⟨⟨_, _, _, effect⟩, _⟩ := next.turned run passive
      by_cases hears : ∃ callback, job = .participant (.hear l callback)
      · obtain ⟨callback, rfl⟩ := hears
        have cast := next.cast Job.noConfusion
        refine ⟨(known'.respond callback).2, ?_, (respond_spec _ _).trans spec, ?_⟩
        · rw [cast, (hear_responds _ _ l callback).2, found]
          rfl
        · simp only [List.flatMap_append, List.flatMap_cons, List.flatMap_nil, Job.reaches, List.append_nil, heardOf,
            List.filterMap_append,
            List.filterMap_cons, List.filterMap_nil, if_true, List.reverse_append, Listener.respond, spec] at heard ⊢
          split
          · rename_i silent
            rw [heard, if_pos silent]
          · rename_i loud
            rw [Listener.meet, heard, if_neg loud]
            rfl
      · have apart : ∀ callback, job ≠ .participant (.hear l callback) := fun callback same => hears ⟨callback, same⟩
        have none : heardOf l job.reaches = [] := by
          cases job with
          | participant job =>
              cases job with
              | hear other callback =>
                  have other : other ≠ l := fun same => apart callback (by rw [same])
                  simp [heardOf, Job.reaches, other]
              | _ => rfl
          | _ => rfl
        refine ⟨known', ?_, spec, ?_⟩
        · rw [effect.joined, effect.cast l apart, found]
        · have split : heardOf l (more.flatMap (fun x => x.job.reaches) ++ job.reaches) = heardOf l
            (more.flatMap fun x => x.job.reaches) := by
            rw [heardOf, List.filterMap_append, ← heardOf, ← heardOf, none, List.append_nil]
          rw [heard, List.flatMap_append, List.flatMap_singleton, split]

theorem turns_perm {β : Type} [DecidableEq β] {counts : Job → Bool} {key : Moment → β}
    (same : ∀ w, (turnsBy counts w more).map key = (turnsBy counts w more').map key) :
    ((more.filter fun x => counts x.job).map key).Perm ((more'.filter fun x => counts x.job).map key) := by
  have count : ∀ (more : List Moment) (w : ThreadId) (k : β),
      ((more.filter fun x => counts x.job).map fun x => (x.thread, key x)).count (w, k) =
      ((turnsBy counts w more).map key).count k := by
    intro more w k
    induction more with
    | nil => rfl
    | cons x rest ih =>
        simp only [turnsBy, List.filter_cons] at ih ⊢
        by_cases counting : counts x.job = true
        · by_cases mine : x.thread = w
          · simp only [counting, mine, if_true, and_self, decide_true, List.map_cons, List.count_cons, ih]
            simp
          · simp only [counting, mine, if_true, false_and, decide_false, List.map_cons, List.count_cons, ih]
            simp [mine]
        · simpa [counting] using ih
  have perm : ((more.filter fun x => counts x.job).map fun x => (x.thread, key x)).Perm
      ((more'.filter fun x => counts x.job).map fun x => (x.thread, key x)) :=
    List.perm_iff_count.mpr fun p => by rw [count more p.1 p.2, same p.1, ← count more' p.1 p.2]
  have keys := perm.map Prod.snd
  rwa [List.map_map, List.map_map] at keys

theorem total_counted {counts : Job → Bool} {g : Moment → Nat} (none : ∀ x, counts x.job = false → g x = 0) (more : List Moment) :
    total g more = ((more.filter fun x => counts x.job).map g).sum := by
  induction more with
  | nil => rfl
  | cons x rest ih =>
      simp only [total] at ih
      simp only [total, List.map_cons, List.sum_cons, List.filter_cons, ih]
      cases counting : counts x.job with
      | true => simp
      | false => simp [none x counting]

theorem yield_aside (aside : x.job.counts = false) : x.yield = (0, 0, 0, []) := by
  rcases counts_cases aside with upset | ⟨d, same⟩
  · unfold Moment.yield
    cases job : x.job with
    | panic | log => rfl
    | _ => rw [job] at upset; cases upset
  · rw [Moment.yield, same]
    rfl

theorem counted_calls (more : List Moment) : more.flatMap (fun x => x.job.reaches) =
    ((more.filter fun x => x.job.counts).map Moment.yield).flatMap fun yield => yield.2.2.2 := by
  induction more with
  | nil => rfl
  | cons x rest ih =>
      rw [List.flatMap_cons, List.filter_cons, ih]
      cases counting : x.job.counts with
      | true => rfl
      | false =>
          have none : x.job.reaches = [] := congrArg (·.2.2.2) (yield_aside counting)
          rw [none]
          rfl

theorem Work.device_untouched (work : Work past m more m') (run : Run config hooks past m) (passive : m.cast.passive)
    (vacant : ∀ w, (seat past m w).device = false) : m'.hub.deviceLane = m.hub.deviceLane := by
  induction work with
  | start => rfl
  | @turn more m' m'' t job later work works agenda went ih =>
      obtain ⟨⟨_, _, _, effect⟩, _⟩ := (Next.of work works agenda went).turned run passive
      obtain ⟨_, hub⟩ := effect.hub
      have away : job ≠ .deviceLane .look := fun looks => by
        have sits := (work.suits run passive agenda).1 looks
        rw [vacant t] at sits
        cases sits
      rw [hub]
      exact (effect.device away).trans ih

theorem Work.lane_untouched (work : Work past m more m') (run : Run config hooks past m) (passive : m.cast.passive)
    (vacant : ∀ w, (seat past m w).lane ≠ some id) : m'.hub.dataLanes.lane? id = m.hub.dataLanes.lane? id := by
  induction work with
  | start => rfl
  | @turn more m' m'' t job later work works agenda went ih =>
      obtain ⟨⟨_, _, _, effect⟩, _⟩ := (Next.of work works agenda went).turned run passive
      obtain ⟨_, hub⟩ := effect.hub
      have away : job ≠ .dataLane (.look id) := fun looks => vacant t ((work.suits run passive agenda).2 id looks)
      rw [hub]
      exact (effect.lanes id away).trans ih

theorem rests_calm (run : Run config hooks past m) (resting : m.rests w = true) : calm (m.agenda w) = m.agenda w := by
  rcases rests_agenda run resting with idle | ⟨job, agenda, looks⟩
  · rw [idle]
    rfl
  · rw [agenda]
    cases job with
    | deviceLane | dataLane => rfl
    | _ => cases looks

def Unshared (m : Machine) (more : List Moment) : Prop :=
  ∀ l, m.cast.tallies l = true → ∀ x ∈ more, ∀ y ∈ more, l ∈ x.job.reaches.map Prod.fst → l ∈ y.job.reaches.map Prod.fst →
    x.thread = y.thread

-- The same state, and for each thread the same notes. Where a listener that counts its calls is called by more than
-- one worker, the notes need not be the same about whose calls it answered with a panic.
structure SameEnd (m : Machine) (more : List Moment) (a b : Machine) : Prop where
  hub : a.hub = b.hub
  agendas : a.agendas = b.agendas
  noted : ∀ w, (a.noted w).filter Entry.calm = (b.noted w).filter Entry.calm
  exact : Unshared m more → ∀ w, a.noted w = b.noted w

theorem Work.calm_settled (first : Work past m more a) (second : Work past m more' b) (run : Run config hooks past m)
    (passive : m.cast.passive) (lone : Lone past m) (resting : AtRest past a) (resting' : AtRest past b) (w : ThreadId) :
    calmView past m w a = calmView past m w b ∧ (turnsBy Job.counts w more).map Moment.yield =
      (turnsBy Job.counts w more').map Moment.yield :=
  first.settled (calm_independent run passive lone) second (fun _ _ => trivial) (fun _ _ => trivial) resting resting' w

theorem settled_agendas (first : Work past m more a) (second : Work past m more' b) (run : Run config hooks past m)
    (passive : m.cast.passive) (lone : Lone past m) (resting : AtRest past a) (resting' : AtRest past b) : a.agendas = b.agendas := by
  have worked := first.worked run passive
  have worked' := second.worked run passive
  refine List.ext_getElem? fun i => ?_
  have same : a.agenda ⟨i⟩ = b.agenda ⟨i⟩ := by
    by_cases works : dispatches past ⟨i⟩
    · have view := congrArg CalmView.agenda (first.calm_settled second run passive lone resting resting' ⟨i⟩).1
      simp only [calmView] at view
      rwa [rests_calm (first.run run) (resting _ works), rests_calm (second.run run) (resting' _ works)] at view
    · rw [worked.others _ works, worked'.others _ works]
  rw [agenda_eq, agenda_eq] at same
  by_cases within : i < m.agendas.length
  · have here : i < a.agendas.length := worked.length ▸ within
    have here' : i < b.agendas.length := worked'.length ▸ within
    simpa [here, here'] using same
  · rw [List.getElem?_eq_none (by rw [worked.length]; omega), List.getElem?_eq_none (by rw [worked'.length]; omega)]

theorem settled_trips (first : Work past m more a) (second : Work past m more' b) (run : Run config hooks past m)
    (passive : m.cast.passive) (calls : (more.flatMap fun x => x.job.reaches).Perm (more'.flatMap fun x => x.job.reaches)) :
    a.cast.trips = b.cast.trips := by
  have worked := first.worked run passive
  have worked' := second.worked run passive
  refine congrArg List.sum (List.ext_getElem? fun i => ?_)
  rw [List.getElem?_map, List.getElem?_map]
  have known : ∀ c : Cast, c.listeners[i]? = c.listener? ⟨i⟩ := fun _ => rfl
  cases here : m.cast.listener? ⟨i⟩ with
  | none =>
      have unknown : ∀ c : Cast, c.specs = m.cast.specs → c.listeners[i]? = none := fun c same => by
        have spec := listener_spec c ⟨i⟩
        rw [same, ← listener_spec, here] at spec
        exact Option.map_eq_none_iff.mp spec
      rw [unknown _ worked.specs, unknown _ worked'.specs]
  | some listener =>
      obtain ⟨one, found, spec, heard⟩ := first.listened run passive here
      obtain ⟨two, found', spec', heard'⟩ := second.listened run passive here
      rw [known, known, found, found', Option.map_some, Option.map_some, spec, spec']
      refine congrArg some (trips_perm _ ?_)
      rw [heard, heard']
      refine List.Perm.append_right _ ?_
      split
      · exact .nil
      · exact (List.reverse_perm _).trans ((calls.filterMap _).trans (List.reverse_perm _).symm)

theorem settled_metrics (first : Work past m more a) (second : Work past m more' b) (run : Run config hooks past m)
    (passive : m.cast.passive) (lone : Lone past m) (resting : AtRest past a) (resting' : AtRest past b) :
    a.hub.metrics = b.hub.metrics := by
  have perm := turns_perm fun w => (first.calm_settled second run passive lone resting resting' w).2
  have agendas := settled_agendas first second run passive lone resting resting'
  have reached := first.run run
  have reached' := second.run run
  have totals : ∀ (f : Nat × Nat × Nat × List (ListenerId × Callback) → Nat), f (0, 0, 0, []) = 0 →
      total (fun x => f x.yield) (past ++ more) = total (fun x => f x.yield) (past ++ more') := fun f none => by
    have zero : ∀ x : Moment, x.job.counts = false → f x.yield = 0 := fun x aside => by rw [yield_aside aside, none]
    have sums := (perm.map f).sum_nat
    rw [List.map_map, List.map_map] at sums
    rw [total_append, total_append, total_counted zero more, total_counted zero more']
    exact congrArg _ sums
  have discarded : a.hub.metrics.discarded = b.hub.metrics.discarded := by
    rw [reached.discarded, reached'.discarded]
    exact totals (·.1) rfl
  have delivered : a.hub.metrics.delivered + a.hub.metrics.panics = b.hub.metrics.delivered + b.hub.metrics.panics := by
    rw [reached.completed, reached'.completed]
    exact totals (·.2.1) rfl
  have mismatches : a.hub.metrics.mismatches = b.hub.metrics.mismatches := by
    have law := totals (·.2.2.1) rfl
    have here : total (fun x => x.job.misaddresses) (past ++ more) = total (fun x => x.job.misaddresses) (past ++ more') := law
    rw [reached.mismatched, reached'.mismatched, Machine.load, Machine.load, agendas] at here
    omega
  have calls : (more.flatMap fun x => x.job.reaches).Perm (more'.flatMap fun x => x.job.reaches) := by
    rw [counted_calls, counted_calls]
    exact perm.flatMap_right _
  have panics : a.hub.metrics.panics = b.hub.metrics.panics := by
    have struck := first.struck run passive
    have struck' := second.struck run passive
    rw [settled_trips first second run passive calls, Machine.strikes, agendas] at struck
    rw [Machine.strikes] at struck'
    omega
  have accepted := first.accepted run passive
  have accepted' := second.accepted run passive
  have enqueued := accepted.1.trans accepted'.1.symm
  have orphaned := accepted.2.trans accepted'.2.symm
  have delivered : a.hub.metrics.delivered = b.hub.metrics.delivered := by omega
  cases here : a.hub.metrics
  cases there : b.hub.metrics
  simp_all

theorem settled_hub (first : Work past m more a) (second : Work past m more' b) (run : Run config hooks past m)
    (passive : m.cast.passive) (lone : Lone past m) (resting : AtRest past a) (resting' : AtRest past b) : a.hub = b.hub := by
  have view := fun w => outlook_agree (congrArg CalmView.outlook (first.calm_settled second run passive lone resting resting' w).1)
  obtain ⟨metrics, device, lanes, _, hub⟩ := (first.worked run passive).hub
  obtain ⟨metrics', device', lanes', _, hub'⟩ := (second.worked run passive).hub
  have counted := settled_metrics first second run passive lone resting resting'
  have front : a.hub.deviceLane = b.hub.deviceLane := by
    by_cases sits : ∃ w, (seat past m w).device = true
    · obtain ⟨w, sits⟩ := sits
      exact (view w).device sits
    · have vacant : ∀ w, (seat past m w).device = false := fun w => Bool.eq_false_iff.mpr fun here => sits ⟨w, here⟩
      rw [first.device_untouched run passive vacant, second.device_untouched run passive vacant]
  have behind : a.hub.dataLanes.lanes = b.hub.dataLanes.lanes := by
    refine List.ext_getElem? fun i => ?_
    by_cases sits : ∃ w, (seat past m w).lane = some ⟨i⟩
    · obtain ⟨w, sits⟩ := sits
      exact (view w).lane ⟨i⟩ sits
    · have vacant : ∀ w, (seat past m w).lane ≠ some ⟨i⟩ := fun w here => sits ⟨w, here⟩
      exact (first.lane_untouched run passive vacant).trans (second.lane_untouched run passive vacant).symm
  rw [hub, hub'] at counted front behind
  simp only at counted front behind
  rw [hub, hub', counted, front, behind]

theorem settled_calls (first : Work past m more a) (second : Work past m more' b) (run : Run config hooks past m)
    (passive : m.cast.passive) (lone : Lone past m) (resting : AtRest past a) (resting' : AtRest past b) {l : ListenerId}
    (member : y ∈ more') (calls : l ∈ y.job.reaches.map Prod.fst) :
    ∃ x ∈ more, x.thread = y.thread ∧ l ∈ x.job.reaches.map Prod.fst := by
  have same := (first.calm_settled second run passive lone resting resting' y.thread).2
  have counting : y.job.counts = true := by
    cases counting : y.job.counts with
    | true => rfl
    | false =>
        have none : y.job.reaches = [] := congrArg (·.2.2.2) (yield_aside counting)
        rw [none] at calls
        cases calls
  have listed : y.yield ∈ (turnsBy Job.counts y.thread more').map Moment.yield :=
    List.mem_map.mpr ⟨y, List.mem_filter.mpr ⟨member, by simp [counting]⟩, rfl⟩
  rw [← same] at listed
  obtain ⟨x, turns, yields⟩ := List.mem_map.mp listed
  obtain ⟨member, mine⟩ := List.mem_filter.mp turns
  have reaches : x.job.reaches = y.job.reaches := congrArg (·.2.2.2) yields
  exact ⟨x, member, (of_decide_eq_true mine).1, reaches ▸ calls⟩

theorem settled_exact (first : Work past m more a) (second : Work past m more' b) (run : Run config hooks past m)
    (passive : m.cast.passive) (lone : Lone past m) (resting : AtRest past a) (resting' : AtRest past b)
    (unshared : Unshared m more) (w : ThreadId) : a.noted w = b.noted w := by
  -- the one worker that calls a listener owns it
  have owners : ∀ l, ∃ owner, ∀ x ∈ more, l ∈ x.job.reaches.map Prod.fst → m.cast.tallies l = true → x.thread = owner := fun l => by
    by_cases called : ∃ x ∈ more, l ∈ x.job.reaches.map Prod.fst
    · obtain ⟨x, member, calls⟩ := called
      exact ⟨x.thread, fun y member' calls' tallies => unshared l tallies y member' x member calls' calls⟩
    · exact ⟨.caller, fun x member calls => absurd ⟨x, member, calls⟩ called⟩
  obtain ⟨owner, owns⟩ := Classical.axiomOfChoice owners
  have reached : ∀ {x : Moment} {l callback}, x.job = .participant (.hear l callback) → l ∈ x.job.reaches.map Prod.fst :=
    fun same => by rw [same]; exact List.mem_singleton.mpr rfl
  have owned : ∀ x ∈ more, Owned m owner x := fun x member l callback same tallies => owns l x member (reached same) tallies
  have owned' : ∀ y ∈ more', Owned m owner y := fun y member l callback same tallies => by
    obtain ⟨x, member', thread, calls⟩ := settled_calls first second run passive lone resting resting' member (reached same)
    exact thread ▸ owns l x member' calls tallies
  exact congrArg ExactView.noted (first.settled (exact_independent run passive lone owner) second owned owned' resting resting' w).1

theorem settling_confluent (run : Run config hooks past m) (passive : m.cast.passive) (lone : Lone past m)
    (first : Work past m more a) (second : Work past m more' b) (resting : AtRest past a) (resting' : AtRest past b) :
    SameEnd m more a b where
  hub := settled_hub first second run passive lone resting resting'
  agendas := settled_agendas first second run passive lone resting resting'
  noted w := congrArg CalmView.noted (first.calm_settled second run passive lone resting resting' w).1
  exact unshared := settled_exact first second run passive lone resting resting' unshared

def jumpyListener : ListenerSpec Op := { name := "l", script := [⟨.frame, some 0, [.panic]⟩] }

-- Two connections have a frame queued each, and their workers have not looked yet.
def twoFrames : List Moment × Machine :=
  act (.report ⟨1⟩ (.received ⟨5⟩ [8])) (rounds [(9, 0)])
    (act (.report ⟨1⟩ (.received ⟨4⟩ [7])) (rounds [(9, 0)])
      (act (.report ⟨1⟩ (.connected {} ⟨5⟩)) (rounds [(24, 0), (2, 2)])
        (act (.report ⟨1⟩ (.connected {} ⟨4⟩)) (rounds [(24, 0), (2, 1)])
          (solo quietConfig [] [.addDataListener (.fresh jumpyListener)]))))

theorem twoFrames_run : Run quietConfig [] twoFrames.1 twoFrames.2 :=
  act_run (act_run (act_run (act_run (solo_run _ _ _) _ _) _ _) _ _) _ _

theorem twoFrames_lone : Lone twoFrames.1 twoFrames.2 := twoFrames_run.lone (by decide +kernel)

def firstThenSecond : List Moment × Machine := twoFrames.2.play (rounds [(11, 1), (10, 2)])

def secondThenFirst : List Moment × Machine := twoFrames.2.play (rounds [(11, 2), (10, 1)])

theorem firstThenSecond_work : Work twoFrames.1 twoFrames.2 firstThenSecond.1 firstThenSecond.2 :=
  Work.start.play (rounds [(11, 1), (10, 2)]) fun t member => .inr (by revert t; decide +kernel)

theorem secondThenFirst_work : Work twoFrames.1 twoFrames.2 secondThenFirst.1 secondThenFirst.2 :=
  Work.start.play (rounds [(11, 2), (10, 1)]) fun t member => .inr (by revert t; decide +kernel)

theorem settled_two_frames : SameEnd twoFrames.2 firstThenSecond.1 firstThenSecond.2 secondThenFirst.2 ∧
    firstThenSecond.2.hub.metrics.panics = 1 ∧ firstThenSecond.2.hub.dataLanes.lanes.map (·.parked) = [true, true] := by
  refine ⟨settling_confluent twoFrames_run (by decide +kernel) twoFrames_lone firstThenSecond_work secondThenFirst_work
    (by decide +kernel) (by decide +kernel), ?_⟩
  decide +kernel

theorem order_shows : Run quietConfig [] twoFrames.1 twoFrames.2 ∧ twoFrames.2.cast.passive ∧ Lone twoFrames.1 twoFrames.2 ∧
    Work twoFrames.1 twoFrames.2 firstThenSecond.1 firstThenSecond.2 ∧
      Work twoFrames.1 twoFrames.2 secondThenFirst.1 secondThenFirst.2 ∧
    AtRest twoFrames.1 firstThenSecond.2 ∧ AtRest twoFrames.1 secondThenFirst.2 ∧
    firstThenSecond.2.noted ⟨1⟩ ≠ secondThenFirst.2.noted ⟨1⟩ := by
  refine ⟨twoFrames_run, by decide +kernel, twoFrames_lone, firstThenSecond_work, secondThenFirst_work, by decide +kernel,
    by decide +kernel,
    fun same => ?_⟩
  have lengths := congrArg List.length same
  revert lengths
  decide +kernel

end TransportHub
