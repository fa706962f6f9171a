import TransportHub.Proofs.Settling
/-!
What a worker sees of a settling. Two views of its own do not depend on the others' turns: one of everything,
where nobody else calls the listeners it shares a count with, and one that leaves out where listeners panic.
-/

set_option autoImplicit false

namespace TransportHub

variable {config : Config} {hooks : List Hook} {past more more' : List Moment} {m m' a b after after' : Machine} {t u w : ThreadId}
  {job : Job} {later : List Job} {id : LaneId} {x y : Moment}

theorem Next.reached {allowed : Moment → Prop} (next : Next allowed past m more x after) (run : Run config hooks past m) :
    Run config hooks (past ++ more) x.machine := next.work.run run

theorem Next.turned {allowed : Moment → Prop} (next : Next allowed past m more x after) (run : Run config hooks past m)
    (passive : m.cast.passive) :
    (∃ device lanes cast, Routine x.job x.thread x.machine after device lanes cast) ∧
      (∀ u, u ≠ x.thread → after.agenda u = x.machine.agenda u) ∧ after.agendas.length = x.machine.agendas.length ∧
      ((x.job = .panic ∧ after.agenda x.thread = kept x.later) ∨
        (x.job ≠ .panic ∧ x.job.enabled x.machine x.thread = true ∧ after.agenda x.thread = (x.job.exec x.machine x.thread).2
          ++ x.later)) := by
  have worked := next.work.worked run passive
  exact (next.reached run).turned (worked.passive passive) (worked.dispatches ▸ next.works) next.agenda next.went

theorem Next.routine {allowed : Moment → Prop} (next : Next allowed past m more x after) (run : Run config hooks past m)
    (passive : m.cast.passive) :
    Each Job.Routine (x.job :: x.later) := by
  have worked := next.work.worked run passive
  exact next.agenda ▸ (next.reached run).routine (worked.passive passive) x.thread (worked.dispatches ▸ next.works)

theorem Next.restless {allowed : Moment → Prop} (next : Next allowed past m more' y after) (first : Work past m more a)
    (run : Run config hooks past m) (passive : m.cast.passive)
    (same : a.outlook (seat past m y.thread) = y.machine.outlook (seat past m y.thread)) (busy : a.agenda y.thread ≠ [])
    (looks : ∀ job later, a.agenda y.thread = job :: later → job.looks = true → y.job = job) : a.rests y.thread = false := by
  have agree := outlook_agree same
  obtain ⟨_, _, _, here⟩ := next.turned run passive
  have enabled : ∀ job, y.job = job → job.looks = true → job.enabled y.machine y.thread = true := by
    rintro job rfl looks
    rcases here with ⟨panics, _⟩ | ⟨_, enabled, _⟩
    · rw [panics] at looks
      cases looks
    · exact enabled
  cases found : a.agenda y.thread with
  | nil => exact absurd found busy
  | cons job later =>
      have suits := first.suits run passive found
      unfold Machine.rests
      rw [found]
      split
      · rename_i none
        cases none
      · rename_i same
        cases same
        have awake := enabled _ (looks _ _ found rfl) rfl
        rw [agree.device (suits.1 rfl)]
        simpa [Job.enabled, Job.needs] using (Bool.and_eq_true_iff.mp awake).2
      · rename_i id _ same
        cases same
        have awake := enabled _ (looks _ _ found rfl) rfl
        rw [agree.lane id (suits.2 id rfl)]
        simpa [Job.enabled, Job.needs] using (Bool.and_eq_true_iff.mp awake).2
      · rfl

def Job.upset : Job → Bool
  | .panic | .log (.lane _ (.panicked ..)) => true
  | _ => false

-- A job without what listeners' panics leave on it.
def Job.calmed : Job → Job
  | .participant (.deliver d) | .participant (.delivered d) => .participant (.deliver { d with panics := 0 })
  | job => job

def calm (agenda : List Job) : List Job := (agenda.filter fun job => !job.upset).map Job.calmed

def Entry.calm : Entry → Bool
  | .logged (.lane _ (.panicked ..)) => false
  | _ => true

def Job.counts : Job → Bool
  | .panic | .log (.lane _ (.panicked ..)) | .participant (.delivered _) => false
  | _ => true

structure CalmView where
  agenda : List Job
  outlook : Outlook
  noted : List Entry

def calmView (past : List Moment) (m : Machine) (w : ThreadId) (a : Machine) : CalmView :=
  ⟨calm (a.agenda w), a.outlook (seat past m w), (a.noted w).filter Entry.calm⟩

def Moment.yield (x : Moment) : Nat × Nat × Nat × List (ListenerId × Callback) :=
  (x.job.throws x.machine, x.job.completes, x.job.misaddresses, x.job.reaches)

theorem calm_append (front back : List Job) : calm (front ++ back) = calm front ++ calm back := by
  simp [calm]

theorem calm_panics {front : List Job} (panics : ∀ job ∈ front, job = .panic) : calm front = [] := by
  refine List.map_eq_nil_iff.mpr (List.filter_eq_nil_iff.mpr fun job member => ?_)
  rw [panics job member]
  decide

theorem calm_counts (counts : job.counts = true) : calm (job :: later) = job.calmed :: calm later := by
  have undisturbed : job.upset = false := by
    unfold Job.counts at counts
    unfold Job.upset
    split <;> simp_all
  simp [calm, undisturbed]

theorem calmed_plain (counts : job.counts = true) (plain : ∀ d, job ≠ .participant (.deliver d)) : job.calmed = job := by
  unfold Job.calmed
  split
  · exact absurd rfl (plain _)
  · cases counts
  · rfl

theorem calmed_same {j : Job} (counts : job.counts = true) (counts' : j.counts = true) (same : job.calmed = j.calmed) :
    job = j ∨ ∃ d n, job = .participant (.deliver d) ∧ j = .participant (.deliver { d with panics := n }) := by
  by_cases delivers : ∃ d, job = .participant (.deliver d)
  · obtain ⟨d, rfl⟩ := delivers
    by_cases delivers' : ∃ d, j = .participant (.deliver d)
    · obtain ⟨d', rfl⟩ := delivers'
      simp only [Job.calmed, Job.participant.injEq, ParticipantJob.deliver.injEq, Delivery.mk.injEq] at same
      obtain ⟨lane, callback, listeners, called, _⟩ := same
      refine .inr ⟨d, d'.panics, rfl, ?_⟩
      rw [lane, callback, listeners, called]
    · rw [calmed_plain counts' fun d' here => delivers' ⟨d', here⟩] at same
      exact absurd ⟨_, same.symm⟩ delivers'
  · have plain := calmed_plain counts fun d here => delivers ⟨d, here⟩
    by_cases delivers' : ∃ d, j = .participant (.deliver d)
    · obtain ⟨d', rfl⟩ := delivers'
      exact absurd ⟨_, plain.symm.trans same⟩ delivers
    · rw [plain, calmed_plain counts' fun d' here => delivers' ⟨d', here⟩] at same
      exact .inl same

theorem calm_exec {s : Seat} (agree : Outlook.Agree s a b) (suits : s.suits job) (apart : t ≠ .caller) (routine : job.routine = true)
    (passive : a.cast.passive) (passive' : b.cast.passive) : calm (job.exec a t).2 = calm (job.exec b t).2 := by
  by_cases hears : ∃ l callback, job = .participant (.hear l callback)
  · obtain ⟨l, callback, rfl⟩ := hears
    rw [calm_panics (heard_panics passive t l callback), calm_panics (heard_panics passive' t l callback)]
  · have deaf : job.hears = false := by
      cases job with
      | participant job => cases job <;> first | rfl | exact absurd ⟨_, _, rfl⟩ hears
      | _ => rfl
    rw [next_exec agree suits apart routine deaf]

theorem calm_deliver (a b : Machine) (t : ThreadId) (d : Delivery) (n : Nat) : calm (Job.exec a t (.participant (.deliver d))).2 =
    calm (Job.exec b t (.participant (.deliver { d with panics := n }))).2 := by
  simp only [Job.exec, ParticipantJob.exec]
  cases d.listeners[d.called]? <;> rfl

theorem calm_kept (routine : Each Job.Routine (.panic :: later)) : calm (kept later) = calm later := by
  induction later with
  | nil => rfl
  | cons next rest ih =>
      rcases routine.1.panic rfl with more | ⟨d, ends⟩
      · cases Option.some.inj more
        exact ih routine.2
      · cases Option.some.inj ends
        rfl

theorem calm_upset (upset : job.upset = true) : calm (job :: later) = calm later := by
  simp [calm, upset]

theorem counts_cases (aside : job.counts = false) : job.upset = true ∨ ∃ d, job = .participant (.delivered d) := by
  unfold Job.counts at aside
  unfold Job.upset
  split at aside <;> simp_all

theorem aside_away (aside : job.counts = false) (s : Seat) :
    (s.device = true → job ≠ .deviceLane .look) ∧ ∀ id, s.lane = some id → job ≠ .dataLane (.look id) :=
  ⟨fun _ same => (by rw [same] at aside; cases aside), fun _ _ same => by rw [same] at aside; cases aside⟩

theorem aside_notes (aside : job.counts = false) : job.notes.filter Entry.calm = [] := by
  rcases counts_cases aside with upset | ⟨d, rfl⟩
  · unfold Job.upset at upset
    split at upset <;> first | rfl | cases upset
  · rfl

theorem Next.aside {allowed : Moment → Prop} (next : Next allowed past m more x after) (run : Run config hooks past m)
    (passive : m.cast.passive) (aside : x.job.counts = false) : calm (after.agenda x.thread) = calm (x.machine.agenda x.thread) := by
  obtain ⟨_, _, _, here⟩ := next.turned run passive
  have routine := next.routine run passive
  have apart := ((next.reached run).dispatcher_known ((next.work.worked run passive).dispatches ▸ next.works)).1
  rw [next.agenda]
  rcases here with ⟨panics, left⟩ | ⟨quiet, _, left⟩
  · rw [left, panics, calm_upset rfl, calm_kept (panics ▸ routine)]
  · rw [left]
    rcases counts_cases aside with upset | ⟨d, same⟩
    · rw [calm_upset upset]
      cases job : x.job with
      | log record => rw [Job.exec, Machine.log, if_neg apart]; rfl
      | panic => exact absurd job quiet
      | _ => rw [job] at upset; cases upset
    · rw [same]
      rfl

theorem Next.alike {allowed : Moment → Prop} (next : Next allowed past m more x after) (next' : Next allowed past m more' y after')
    (run : Run config hooks past m) (passive : m.cast.passive) (thread : y.thread = x.thread) (job : x.job = y.job)
    (quiet : x.job ≠ .panic) (same : x.machine.outlook (seat past m x.thread) = y.machine.outlook (seat past m x.thread)) :
    after.outlook (seat past m x.thread) = after'.outlook (seat past m x.thread) ∧ x.job.throws x.machine = y.job.throws y.machine ∧
      after.agenda x.thread = (x.job.exec x.machine x.thread).2 ++ x.later ∧
      after'.agenda x.thread = (x.job.exec y.machine x.thread).2 ++ y.later := by
  have routine := (next.routine run passive).1.kind
  have suits := next.work.suits run passive next.agenda
  have apart := ((next.reached run).dispatcher_known ((next.work.worked run passive).dispatches ▸ next.works)).1
  have agenda := next'.agenda
  have went := next'.went
  rw [thread, ← job] at agenda
  rw [thread] at went
  rcases step_cases next.agenda next.went with ⟨panics, _⟩ | ⟨_, _, rfl⟩
  · exact absurd panics quiet
  rcases step_cases agenda went with ⟨panics, _⟩ | ⟨_, _, rfl⟩
  · exact absurd panics quiet
  exact ⟨outlook_exec same suits apart routine, job ▸ throws_exec (outlook_agree same) suits routine, agenda_carry_self next.agenda,
    agenda_carry_self agenda⟩

theorem Next.cast {allowed : Moment → Prop} (next : Next allowed past m more x after) (quiet : x.job ≠ .panic) :
    after.cast = (x.job.exec x.machine x.thread).1.cast := by
  rcases step_cases next.agenda next.went with ⟨panics, _⟩ | ⟨_, _, rfl⟩
  · exact absurd panics quiet
  · rfl

theorem counts_quiet (counts : job.counts = true) : job ≠ .panic := fun panics => by rw [panics] at counts; cases counts

theorem calm_independent (run : Run config hooks past m) (passive : m.cast.passive) (lone : Lone past m) :
    Independent (fun _ => True) past m Job.counts (calmView past m) Moment.yield where
  hidden {more x after} next w aside := by
    obtain ⟨⟨_, _, _, effect⟩, others, _⟩ := next.turned run passive
    by_cases mine : x.thread = w
    · subst mine
      have aside := aside.resolve_left fun apart => apart rfl
      simp only [calmView, next.aside run passive aside, effect.outlook (aside_away aside _), effect.noted, if_true,
        List.filter_append, aside_notes aside, List.nil_append]
    · have away := Seat.apart run lone mine (next.work.suits run passive next.agenda)
      simp only [calmView, others w (Ne.symm mine), effect.outlook away, effect.noted, if_neg mine, List.nil_append]
  alike {more more' x y after after'} next next' thread counts counts' same := by
    have outlook := congrArg CalmView.outlook same
    have agenda := congrArg CalmView.agenda same
    have noted := congrArg CalmView.noted same
    have agenda' := next'.agenda
    rw [thread] at agenda'
    simp only [calmView, next.agenda, agenda', calm_counts counts, calm_counts counts', List.cons.injEq] at outlook agenda noted
    obtain ⟨⟨_, _, _, effect⟩, _⟩ := next.turned run passive
    obtain ⟨⟨_, _, _, effect'⟩, _⟩ := next'.turned run passive
    rw [thread] at effect'
    rcases calmed_same counts counts' agenda.1 with job | ⟨d, n, job, job'⟩
    · obtain ⟨seen, throws, left, left'⟩ := next.alike next' run passive thread job (counts_quiet counts) outlook
      have suits := next.work.suits run passive next.agenda
      have known := (next.work.worked run passive).dispatches ▸ next.works
      have going := calm_exec (outlook_agree outlook) suits ((next.reached run).dispatcher_known known).1
        (next.routine run passive).1.kind ((next.work.worked run passive).passive passive)
        ((next'.work.worked run passive).passive passive)
      refine ⟨?_, ?_⟩
      · simp only [calmView, seen, left, left', calm_append, going, agenda.2, effect.noted, effect'.noted, ← job,
          List.filter_append, noted]
      · rw [← job] at throws
        simp only [Moment.yield, throws, ← job]
    · obtain ⟨_, _, _, here⟩ := next.turned run passive
      obtain ⟨_, _, _, here'⟩ := next'.turned run passive
      obtain ⟨_, _, left⟩ := here.resolve_left fun panics => counts_quiet counts panics.1
      obtain ⟨_, _, left'⟩ := here'.resolve_left fun panics => counts_quiet counts' panics.1
      rw [thread] at left'
      rw [job] at effect left
      rw [job'] at effect' left'
      have seen : ∀ {d device lanes cast} {before after : Machine},
          Routine (.participant (.deliver d)) x.thread before after device lanes cast →
          after.outlook (seat past m x.thread) = before.outlook (seat past m x.thread) :=
        fun effect => effect.outlook ⟨fun _ none => (by cases none), fun _ _ none => by cases none⟩
      refine ⟨?_, ?_⟩
      · simp only [calmView, seen effect, seen effect', outlook, left, left', calm_append,
          calm_deliver x.machine y.machine x.thread d n,
          agenda.2, effect.noted, effect'.noted, List.filter_append, noted]
        rfl
      · simp only [Moment.yield, job, job']
        rfl
  rest {more more' a y after} first next counts same := by
    have outlook := congrArg CalmView.outlook same
    have agenda := congrArg CalmView.agenda same
    simp only [calmView, next.agenda, calm_counts counts] at agenda outlook
    refine next.restless first run passive outlook (fun idle => ?_) fun job later found looks => ?_
    · rw [idle] at agenda
      cases agenda
    · have counting : job.counts = true := by
        cases job with
        | deviceLane | dataLane => rfl
        | _ => cases looks
      rw [found, calm_counts counting] at agenda
      rcases calmed_same counting counts (List.cons.inj agenda).1 with same | ⟨d, n, rfl, _⟩
      · exact same.symm
      · cases looks

def Listener.respond (l : Listener) (callback : Callback) : List Op × Listener :=
  if l.spec.silent then ([], l) else l.meet callback.event

theorem respond_spec (l : Listener) (callback : Callback) : (l.respond callback).2.spec = l.spec := by
  unfold Listener.respond
  split <;> rfl

theorem hear_responds (m : Machine) (t : ThreadId) (l : ListenerId) (callback : Callback) :
    (Job.exec m t (.participant (.hear l callback))).2 = (m.cast.listener? l).elim []
      (fun known => (known.respond callback).1.flatMap Job.nested) ∧
      (Job.exec m t (.participant (.hear l callback))).1.cast.listener? l =
        (m.cast.listener? l).map fun known => (known.respond callback).2 := by
  simp only [Job.exec, ParticipantJob.exec, ParticipantJob.callListener]
  split
  · rename_i listener known
    have known : m.cast.listener? l = some listener := known
    have within : l.val < m.cast.listeners.length := (List.getElem?_eq_some_iff.mp known).1
    rw [known]
    split
    · rename_i silent
      exact ⟨by simp [Listener.respond, silent], by simp [Listener.respond, silent, Machine.note, known]⟩
    · rename_i loud
      refine ⟨by simp [Listener.respond, loud], ?_⟩
      simp [Listener.respond, loud, Machine.note, Cast.listener?, Cast.setListener, within]
  · rename_i unknown
    have unknown : m.cast.listener? l = none := unknown
    exact ⟨by rw [unknown]; rfl, by rw [unknown]; exact unknown⟩

def ListenerSpec.tallies (spec : ListenerSpec Op) : Bool := spec.script.any fun r => r.nth.isSome

def Cast.tallies (c : Cast) (l : ListenerId) : Bool := (c.listener? l).any fun known => known.spec.tallies

theorem listener_spec (c : Cast) (l : ListenerId) : (c.listener? l).map (·.spec) = c.specs[l.val]? := by
  simp [Cast.specs, Cast.listener?]

theorem tallies_specs {c c' : Cast} (same : c.specs = c'.specs) (l : ListenerId) : c.tallies l = c'.tallies l := by
  have tallies : ∀ c : Cast, c.tallies l = (c.specs[l.val]?).any ListenerSpec.tallies := fun c => by
    rw [← listener_spec]
    cases found : c.listener? l <;> simp [Cast.tallies, found]
  rw [tallies, tallies, same]

theorem steady_ops {spec : ListenerSpec Op} (steady : spec.tallies = false) (event : Event) (n k : Nat) :
    Rule.opsFor spec.script event n = Rule.opsFor spec.script event k := by
  unfold Rule.opsFor
  congr 1
  refine List.filter_congr fun r member => ?_
  have free : r.nth = none := by
    have here := List.any_eq_false.mp steady r member
    simpa using here
  simp [free]

def Owned (m : Machine) (owner : ListenerId → ThreadId) (x : Moment) : Prop :=
  ∀ l callback, x.job = .participant (.hear l callback) → m.cast.tallies l = true → x.thread = owner l

structure ExactView where
  agenda : List Job
  outlook : Outlook
  noted : List Entry
  listeners : ListenerId → Option Listener

def exactView (past : List Moment) (m : Machine) (owner : ListenerId → ThreadId) (w : ThreadId) (a : Machine) : ExactView :=
  ⟨a.agenda w, a.outlook (seat past m w), a.noted w,
    fun l => if m.cast.tallies l = true ∧ owner l = w then a.cast.listener? l else none⟩

theorem hear_alike {l : ListenerId} {callback : Callback} (specs : a.cast.specs = b.cast.specs)
    (own : a.cast.tallies l = true → a.cast.listener? l = b.cast.listener? l) :
    (Job.exec a t (.participant (.hear l callback))).2 = (Job.exec b t (.participant (.hear l callback))).2 := by
  rw [(hear_responds a t l callback).1, (hear_responds b t l callback).1]
  cases tallies : a.cast.tallies l with
  | true => rw [own tallies]
  | false =>
      have here : (a.cast.listener? l).map (·.spec) = (b.cast.listener? l).map (·.spec) := by
        rw [listener_spec, listener_spec, specs]
      cases known : a.cast.listener? l with
      | none =>
          rw [known] at here
          rw [Option.map_eq_none_iff.mp here.symm]
      | some known' =>
          rw [known] at here
          obtain ⟨other, found, same⟩ := Option.map_eq_some_iff.mp here.symm
          have steady : known'.spec.tallies = false := by simpa [Cast.tallies, known] using tallies
          rw [found]
          simp only [Option.elim_some, Listener.respond, Listener.meet, same]
          split
          · rfl
          · rw [steady_ops steady]

theorem exact_independent (run : Run config hooks past m) (passive : m.cast.passive) (lone : Lone past m)
    (owner : ListenerId → ThreadId) :
    Independent (Owned m owner) past m (fun _ => true) (exactView past m owner) Moment.yield where
  hidden {more x after} next w aside := by
    have apart := aside.resolve_right fun none => by cases none
    obtain ⟨⟨_, _, _, effect⟩, others, _⟩ := next.turned run passive
    have away := Seat.apart run lone apart (next.work.suits run passive next.agenda)
    have owned := next.allowed x (by simp)
    simp only [exactView, others w (Ne.symm apart), effect.outlook away, effect.noted, if_neg apart, List.nil_append, effect.joined]
    congr 1
    funext l
    split
    · rename_i mine
      exact effect.cast l fun callback same => apart ((owned l callback same mine.1).trans mine.2)
    · rfl
  alike {more more' x y after after'} next next' thread _ _ same := by
    have outlook := congrArg ExactView.outlook same
    have agenda := congrArg ExactView.agenda same
    have noted := congrArg ExactView.noted same
    have listeners := congrFun (congrArg ExactView.listeners same)
    have agenda' := next'.agenda
    rw [thread] at agenda'
    simp only [exactView, next.agenda, agenda', List.cons.injEq] at outlook agenda noted listeners
    obtain ⟨job, later⟩ := agenda
    obtain ⟨⟨_, _, _, effect⟩, _, _, here⟩ := next.turned run passive
    obtain ⟨⟨_, _, _, effect'⟩, _, _, here'⟩ := next'.turned run passive
    rw [thread, ← job, ← later] at here'
    rw [thread, ← job] at effect'
    by_cases panics : x.job = .panic
    · have left := (here.resolve_right fun quiet => quiet.1 panics).2
      have left' := (here'.resolve_right fun quiet => quiet.1 panics).2
      have aside : x.job.counts = false := by rw [panics]; rfl
      have away := aside_away aside (seat past m x.thread)
      have apart : ∀ l callback, x.job ≠ .participant (.hear l callback) := fun l callback same => by rw [panics] at same; cases same
      refine ⟨?_, ?_⟩
      · simp only [exactView, left, left', effect.outlook away, effect'.outlook away, outlook, effect.noted, effect'.noted, noted,
          effect.joined, effect'.joined, effect.cast _ (apart _), effect'.cast _ (apart _), listeners]
      · simp only [Moment.yield, ← job, panics]
        rfl
    · obtain ⟨seen, throws, left, left'⟩ := next.alike next' run passive thread job panics outlook
      have worked := next.work.worked run passive
      have routine := (next.routine run passive).1.kind
      have apart := ((next.reached run).dispatcher_known (worked.dispatches ▸ next.works)).1
      have owned := next.allowed x (by simp)
      have agree := outlook_agree outlook
      have suits := next.work.suits run passive next.agenda
      have going : (x.job.exec x.machine x.thread).2 = (x.job.exec y.machine x.thread).2 := by
        by_cases hears : ∃ l callback, x.job = .participant (.hear l callback)
        · obtain ⟨l, callback, hears⟩ := hears
          rw [hears]
          refine hear_alike agree.specs fun tallies => ?_
          rw [tallies_specs worked.specs] at tallies
          have mine := listeners l
          rwa [if_pos ⟨tallies, (owned l callback hears tallies).symm⟩,
            if_pos ⟨tallies, (owned l callback hears tallies).symm⟩] at mine
        · refine next_exec agree suits apart routine ?_
          cases job : x.job with
          | participant j => cases j <;> first | rfl | exact absurd ⟨_, _, job⟩ hears
          | _ => rfl
      have cast := next.cast panics
      have cast' := next'.cast (job ▸ panics)
      rw [thread, ← job] at cast'
      have listening : ∀ l, (if m.cast.tallies l = true ∧ owner l = x.thread then after.cast.listener? l else none) =
          if m.cast.tallies l = true ∧ owner l = x.thread then after'.cast.listener? l else none := fun l => by
        by_cases mine : m.cast.tallies l = true ∧ owner l = x.thread
        · have before := listeners l
          rw [if_pos mine, if_pos mine] at before ⊢
          by_cases hears : ∃ callback, x.job = .participant (.hear l callback)
          · obtain ⟨callback, hears⟩ := hears
            rw [cast, cast', hears, (hear_responds _ _ l callback).2, (hear_responds _ _ l callback).2, before]
          · have apart : ∀ callback, x.job ≠ .participant (.hear l callback) := fun callback same => hears ⟨callback, same⟩
            rw [effect.joined, effect'.joined, effect.cast l apart, effect'.cast l apart, before]
        · rw [if_neg mine, if_neg mine]
      refine ⟨?_, ?_⟩
      · simp only [exactView, left, left', going, ← later, seen, effect.noted, effect'.noted, noted, listening]
      · rw [← job] at throws
        simp only [Moment.yield, throws, ← job]
  rest {more more' a y after} first next _ same := by
    have outlook := congrArg ExactView.outlook same
    have agenda := congrArg ExactView.agenda same
    simp only [exactView, next.agenda] at agenda outlook
    refine next.restless first run passive outlook (fun idle => ?_) fun job later found _ => ?_
    · rw [idle] at agenda
      cases agenda
    · rw [found] at agenda
      exact (List.cons.inj agenda).1.symm

end TransportHub
