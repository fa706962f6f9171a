import TransportHub.Proofs.Connections
/-!
Silence after a shutdown. When it is over, and the workers have come to rest unless it waited for them, every
worker has ended but those whose start is in progress and was refused; no listener is called from then on.
-/

set_option autoImplicit false

namespace TransportHub

open DataLanes (Slot)

variable {config : Config} {hooks : List Hook} {past : List Moment} {m : Machine} {t u w : ThreadId}
  {job : Job} {later : List Job} {x : Moment} {slot : Slot} {id : LaneId} {c : ConnectionHandle}

def Awaits (w : ThreadId) (agenda : List Job) : Prop :=
  [DataLaneJob.joinWorker w, .answer (.done (.error .shuttingDown))] <:+: agenda

def Starting (m : Machine) (w : ThreadId) : Prop :=
  ∃ u, u ≠ w ∧ ((∃ c lane, .dataLane (.publish c ⟨lane, w⟩) ∈ m.agenda u) ∨ Awaits w (m.agenda u))

theorem Awaits.busy {agenda : List Job} (awaits : Awaits w agenda) : agenda ≠ [] := by
  rintro rfl
  cases List.infix_nil.mp awaits

theorem Awaits.cons (awaits : Awaits w (job :: later)) : job = DataLaneJob.joinWorker w ∨ Awaits w later :=
  (List.infix_cons_iff.mp awaits).imp_left fun first => (List.cons_prefix_cons.mp first).1.symm

theorem Awaits.behind (awaits : Awaits w later) (front : List Job) : Awaits w (front ++ later) :=
  awaits.trans (List.suffix_append front later).isInfix

theorem Awaits.after {front : List Job} (awaits : Awaits w (front ++ later)) (outside : DataLaneJob.joinWorker w ∉ front) :
    Awaits w later := by
  induction front with
  | nil => exact awaits
  | cons job rest ih =>
      rcases awaits.cons with same | behind
      · exact absurd (same ▸ List.mem_cons_self ..) outside
      · exact ih behind fun inside => outside (List.mem_cons_of_mem _ inside)

theorem Awaits.kept (awaits : Awaits w later) (outside : DataLaneJob.joinWorker w ∉ cut later) : Awaits w (kept later) := by
  rcases unwound later with ⟨d, rest, split, left⟩ | ⟨split, _⟩
  · rw [split] at awaits
    rw [left]
    have behind := awaits.after outside
    exact (behind.cons.resolve_left fun none => by cases none).behind _
  · rw [split, ← List.append_nil (cut later)] at awaits
    exact absurd rfl (awaits.after outside).busy

theorem Starting.busy (starting : Starting m w) : ∃ u, u ≠ w ∧ m.agenda u ≠ [] := by
  obtain ⟨u, apart, ⟨c, lane, pending⟩ | awaits⟩ := starting
  · exact ⟨u, apart, List.ne_nil_of_mem pending⟩
  · exact ⟨u, apart, awaits.busy⟩

theorem unstarted (alone : ∀ i : Fin m.agendas.length, i.val ≠ w.val → m.agendas[i].isEmpty = true) : ¬ Starting m w := by
  intro starting
  obtain ⟨⟨u⟩, apart, busy⟩ := starting.busy
  rw [agenda_eq] at busy
  cases found : m.agendas[u]? with
  | none => exact busy (by rw [found]; rfl)
  | some agenda =>
      obtain ⟨bound, rfl⟩ := List.getElem?_eq_some_iff.mp found
      refine busy ?_
      rw [found]
      exact List.isEmpty_iff.mp (alone ⟨u, bound⟩ fun same => apart (congrArg ThreadId.mk same))

theorem Starting.moved {m' : Machine} (starting : Starting m w)
    (moves : ∀ u, m'.agenda u = m.agenda u ∨ (m.agenda u = [] ∧ Fresh config u (m'.agenda u))) : Starting m' w := by
  obtain ⟨u, apart, here⟩ := starting
  refine ⟨u, apart, ?_⟩
  rcases moves u with same | ⟨idle, _⟩
  · rwa [same]
  · rw [idle] at here
    rcases here with ⟨_, _, none⟩ | none
    · cases none
    · exact absurd rfl none.busy

theorem Starting.carry (starting : Starting m w) (run : Run config hooks past m) (works : dispatches past w)
    (agenda : m.agenda t = job :: later) (enabled : job.enabled m t = true) :
    (∃ c lane, job = .dataLane (.publish c ⟨lane, w⟩) ∧ m.hub.dataLanes.closed = false) ∨ (m.carry t job later).agenda w = [] ∨
      Starting (m.carry t job later) w := by
  obtain ⟨u, apart, ⟨c, lane, pending⟩ | awaits⟩ := starting
  · rcases mem_agenda_carry run agenda pending with still | ⟨rfl, rfl⟩
    · exact .inr (.inr ⟨u, apart, .inl ⟨c, lane, still⟩⟩)
    · cases closed : m.hub.dataLanes.closed with
      | false => exact .inl ⟨c, lane, rfl, rfl⟩
      | true =>
          refine .inr (.inr ⟨u, apart, .inr ?_⟩)
          rw [agenda_carry_self agenda]
          simp only [Job.exec, DataLaneJob.exec, closed, if_true]
          exact ⟨[.release .laneMap, Job.logDataLane c .closedWhileStarting, .dataLane (.requestStop lane)], later, by simp⟩
  · by_cases mine : u = t
    · subst mine
      rw [agenda] at awaits
      rcases awaits.cons with rfl | behind
      · have exited : m.exited w = true := by
          simp only [DataLaneJob.joinWorker, Job.enabled, Job.needs, Option.all_none, Bool.true_and, Bool.or_eq_true,
            decide_eq_true_eq] at enabled
          exact enabled.resolve_left fun same => apart same.symm
        exact .inr (.inl (run.ended_carry works (exited_idle exited) agenda))
      · refine .inr (.inr ⟨u, apart, .inr ?_⟩)
        rw [agenda_carry_self agenda]
        exact behind.behind _
    · refine .inr (.inr ⟨u, apart, .inr ?_⟩)
      rcases run.carry_fresh job later mine with same | ⟨idle, _⟩
      · rwa [same]
      · exact absurd idle awaits.busy

theorem Starting.unwind (starting : Starting m w) (run : Run config hooks past m) (agenda : m.agenda t = .panic :: later)
    (hooked : Moment.hookSafe ⟨m, t, .panic, later⟩) (adapted : Moment.adapterSafe ⟨m, t, .panic, later⟩) :
    Starting (m.unwind t later) w := by
  obtain ⟨u, apart, ⟨c, lane, pending⟩ | awaits⟩ := starting
  · refine ⟨u, apart, .inl ⟨c, lane, mem_agenda_unwind agenda pending (fun inside => ?_) (fun _ none => by cases none)
      fun none => by cases none⟩⟩
    cases run.queues_stay agenda hooked _ inside
  · refine ⟨u, apart, .inr ?_⟩
    by_cases mine : u = t
    · subst mine
      rw [agenda] at awaits
      rw [agenda_unwind_self agenda]
      refine (awaits.cons.resolve_left fun none => by cases none).kept fun inside => ?_
      cases run.procedures_stay agenda hooked adapted _ inside
    · rwa [agenda_unwind_other mine]

theorem Run.started (run : Run config hooks past m) (safe : ∀ x ∈ past, x.hookSafe ∧ x.adapterSafe) :
    ∀ slot ∈ roster past, slot ∈ landed past ∨ m.agenda slot.worker = [] ∨ Starting m slot.worker := by
  refine Run.induct (G := fun x => x.hookSafe ∧ x.adapterSafe)
    (P := fun past m => ∀ slot ∈ roster past, slot ∈ landed past ∨ m.agenda slot.worker = [] ∨ Starting m slot.worker)
    ?construct ?assemble ?call ?client ?carry ?unwind run safe
  case construct | assemble => exact fun _ none => by cases none
  case call =>
    intro past m op run before idle slot member
    refine (before slot member).imp_right (Or.imp ?_ fun starting => starting.moved (call_fresh config idle op))
    rw [agenda_beginWith_other (run.rostered.apart member)]
    exact fun ended => ended
  case client =>
    intro past m name op run before slot member
    refine (before slot member).imp_right (Or.imp ?_ fun starting => starting.moved (client_fresh config m name op))
    rw [agenda_client_old (run.rostered.known slot member).2.2]
    exact fun ended => ended
  case carry =>
    intro past m t job later run before agenda _ enabled _ slot member
    rcases mem_roster_snoc.mp member with old | opens
    · have works : dispatches past slot.worker := .inr ⟨slot, old, rfl⟩
      rcases before slot old with lands | ended | starting
      · exact .inl (mem_landed_snoc.mpr (.inl lands))
      · exact .inr (.inl (run.ended_carry works ended agenda))
      · refine (starting.carry run works agenda enabled).imp_left fun published => ?_
        obtain ⟨c, lane, rfl, unclosed⟩ := published
        have first := run.enlisted.2 t
        rw [agenda] at first
        have known : slot = ⟨lane, slot.worker⟩ := run.rostered.worker slot old _ first.1 rfl
        refine mem_landed_snoc.mpr (.inr ?_)
        simp only [Moment.lands, unclosed, Bool.false_eq_true, if_false]
        exact congrArg some known.symm
    · obtain ⟨apart, _⟩ := agenda_carry_opened agenda opens
      obtain ⟨c, rfl, began, rfl⟩ := opens_started opens
      refine .inr (.inr ⟨t, apart.symm, .inl ⟨c, ⟨m.hub.dataLanes.lanes.length⟩, ?_⟩⟩)
      have threads : m.agendas.length = m.threads.length := List.length_map ..
      rw [agenda_carry_self agenda, threads]
      simp [Job.exec, DataLaneJob.exec, began, DataLanes.openLane, Machine.spawn]
  case unwind =>
    intro past m t later run before agenda safe slot member
    have old := (mem_roster_snoc.mp member).resolve_right fun none => by cases none
    rcases before slot old with lands | ended | starting
    · exact .inl (mem_landed_snoc.mpr (.inl lands))
    · exact .inr (.inl (ended_unwind ended agenda))
    · exact .inr (.inr (starting.unwind run agenda safe.1 safe.2))

def presents (slot : Slot) : Job → Nat
  | .dataLane (.publish _ new) => if new = slot then 1 else 0
  | _ => 0

theorem inner_presents (slot : Slot) : Inner (presents slot) := ⟨fun _ _ _ fresh => by cases fresh <;> rfl, rfl, fun _ => rfl⟩

theorem presents_exec (m : Machine) (t : ThreadId) (job : Job) (later : List Job) (slot : Slot) :
    weight (presents slot) (job.exec m t).2 = if Moment.opens ⟨m, t, job, later⟩ = some slot then 1 else 0 := by
  by_cases spawns : ∃ c, job = .dataLane (.spawn c)
  · obtain ⟨c, rfl⟩ := spawns
    simp only [Job.exec, DataLaneJob.exec, Moment.opens]
    cases m.system.answer (m.hub.config.dataThread c) <;>
      simp [presents, DataLanes.openLane, Machine.spawn, Job.logDataLane]
  · have none : Moment.opens ⟨m, t, job, later⟩ = none := by
      cases here : Moment.opens ⟨m, t, job, later⟩ with
      | none => rfl
      | some new =>
          obtain ⟨c, same, _⟩ := opens_started here
          exact absurd ⟨c, same⟩ spawns
    rw [none, if_neg (fun same => by cases same)]
    refine weight_next_apart (S := fun job => ∃ c, job = .dataLane (.spawn c)) (fun {job j} leads here => ?_) m t job spawns
    cases j with
    | dataLane j =>
        cases j with
        | publish => exact publish_origin leads
        | _ => exact absurd rfl here
    | _ => exact absurd rfl here

theorem Run.presented (run : Run config hooks past m) (slot : Slot) :
    total (fun x => presents slot x.job) past + m.load (presents slot) ≤ if slot ∈ roster past then 1 else 0 := by
  have inner := inner_presents slot
  refine Run.induct (G := fun _ => True)
    (P := fun past m => total (fun x => presents slot x.job) past + m.load (presents slot) ≤ if slot ∈ roster past then 1 else 0)
    ?construct ?assemble ?call ?client ?carry ?unwind run fun _ _ => trivial
  case construct =>
    intro system
    rw [inner.start config hooks _ .construction]
    exact Nat.zero_le _
  case assemble =>
    intro system
    rw [inner.start config hooks _ .assembly]
    exact Nat.zero_le _
  case call =>
    intro past m op _ before idle
    rwa [inner.beginWith idle]
  case client =>
    intro past m name op _ before
    rwa [inner.client]
  case carry =>
    intro past m t job later run before agenda _ _ _
    have moved := inner.carry agenda
    have next := presents_exec m t job later slot
    rw [total_append, total_single]
    show total _ past + presents slot job + _ ≤ _
    by_cases opens : Moment.opens ⟨m, t, job, later⟩ = some slot
    · have new : slot ∉ roster past := fun old => by
        obtain ⟨c, _, _, same⟩ := opens_started opens
        have known := (run.rostered.known slot old).1
        rw [same] at known
        exact Nat.lt_irrefl _ known
      rw [if_neg new] at before
      rw [if_pos opens] at next
      rw [if_pos (mem_roster_snoc.mpr (.inr opens))]
      omega
    · rw [if_neg opens] at next
      have same : slot ∈ roster (past ++ [⟨m, t, job, later⟩]) ↔ slot ∈ roster past := by simp [mem_roster_snoc, opens]
      simp only [same]
      omega
  case unwind =>
    intro past m t later _ before agenda _
    have moved := inner.unwind agenda
    have same : slot ∈ roster (past ++ [⟨m, t, .panic, later⟩]) ↔ slot ∈ roster past := by simp [mem_roster_snoc, Moment.opens]
    have none : presents slot .panic = 0 := rfl
    rw [total_append, total_single]
    simp only [same, none]
    omega

theorem Run.unpresented (run : Run config hooks past m) (member : slot ∈ landed past) : .dataLane (.publish c slot) ∉ m.agenda u := by
  intro pending
  obtain ⟨⟨machine, thread, job, rest⟩, seen, lands⟩ := List.mem_filterMap.mp member
  obtain ⟨d, rfl, _⟩ := lands_job lands
  have once := run.presented slot
  have one : ∀ k, presents slot (.dataLane (.publish k slot)) = 1 := fun _ => if_pos rfl
  have before := total_mem (g := fun x => presents slot x.job) seen
  have due := Nat.le_trans (weight_mem (f := presents slot) pending) (load_mem u)
  simp only [one] at before due
  split at once <;> omega

def Job.dismisses (past : List Moment) (h : Hub) (job : Job) (rest : List Job) : Prop :=
  ∀ id, job = .dataLane (.requestStop id) →
    (∃ w more, rest = .dataLane (.retire w) :: more) ∨ (h.dataLanes.closed = true ∧ ∀ slot ∈ landed past, slot.lane ≠ id)

theorem Run.dismissed (run : Run config hooks past m) (u : ThreadId) : Each (Job.dismisses past m.hub) (m.agenda u) := by
  have plain : ∀ {past : List Moment} {h : Hub} {j : Job} {rest : List Job}, (∀ id, j ≠ .dataLane (.requestStop id)) →
      j.dismisses past h rest := fun apart id same => absurd same (apart id)
  refine (Run.sustain (G := fun _ => True) (I := fun _ _ => True) (P := fun past h _ => Job.dismisses past h)
    trivial ?fresh ?carry ?panic ?caught run fun _ _ => trivial).2 u
  case fresh =>
    exact fun _ _ => ⟨⟨fun _ none => (by cases none), fun _ none => (by cases none), trivial⟩,
      ⟨fun _ none => (by cases none), trivial⟩,
      fun _ _ => ⟨fun _ none => (by cases none), trivial⟩⟩
  case carry =>
    intro past m t job later run _ _ agenda _ _ _
    have unlanded : m.hub.dataLanes.closed = true → ∀ slot ∈ landed (past ++ [⟨m, t, job, later⟩]), slot ∈ landed past := by
      intro closed slot member
      refine (mem_landed_snoc.mp member).resolve_right fun lands => ?_
      obtain ⟨_, _, unclosed⟩ := lands_job lands
      rw [closed] at unclosed
      cases unclosed
    have stays : m.hub.dataLanes.closed = true → (job.exec m t).1.hub.dataLanes.closed = true := fun closed => by
      rw [closed_exec, closed]
      rfl
    refine ⟨trivial, fun u j rest before id same => ?_, ?_, fun u agenda _ started recruit => ?_⟩
    · exact (before id same).imp_right fun closed =>
        ⟨stays closed.1, fun slot member => closed.2 slot (unlanded closed.1 slot member)⟩
    · by_cases presents : ∃ c slot, job = .dataLane (.publish c slot)
      · obtain ⟨c, slot, rfl⟩ := presents
        simp only [Job.exec, DataLaneJob.exec]
        cases closed : m.hub.dataLanes.closed with
        | true =>
            have apart : ∀ other ∈ landed (past ++ [⟨m, t, .dataLane (.publish c slot), later⟩]), other.lane ≠ slot.lane := by
              intro other member same
              have old := unlanded closed other member
              have first := run.enlisted.2 t
              rw [agenda] at first
              obtain rfl := run.rostered.lane other (run.landed_roster old) slot first.1 same
              exact run.unpresented old (agenda ▸ List.mem_cons_self ..)
            exact ⟨plain fun _ none => (by cases none), plain fun _ none => (by cases none),
              fun id same => .inr ⟨closed, by cases same; exact apart⟩, plain fun _ none => (by cases none),
              plain fun _ none => (by cases none), trivial⟩
        | false =>
            simp only [Bool.false_eq_true, if_false]
            split
            · exact ⟨plain fun _ none => (by cases none), fun _ _ => .inl ⟨_, _, rfl⟩, plain fun _ none => (by cases none),
                plain fun _ none => (by cases none), plain fun _ none => (by cases none), trivial⟩
            · exact ⟨plain fun _ none => (by cases none), plain fun _ none => (by cases none),
                plain fun _ none => (by cases none), trivial⟩
      · by_cases stops : ∃ c, job = .dataLane (.stop c)
        · obtain ⟨c, rfl⟩ := stops
          simp only [Job.exec, DataLaneJob.exec, DataLanes.withdraw]
          cases m.hub.dataLanes.slots.get? c with
          | none =>
              exact ⟨plain fun _ none => (by cases none), plain fun _ none => (by cases none),
                plain fun _ none => (by cases none), trivial⟩
          | some slot =>
              exact ⟨plain fun _ none => (by cases none), fun _ _ => .inl ⟨_, _, rfl⟩, plain fun _ none => (by cases none),
                plain fun _ none => (by cases none), plain fun _ none => (by cases none), trivial⟩
        · refine each_of_forall fun j member _ => plain fun id same => ?_
          subst same
          exact absurd (requestStop_origin (leads_exec m t job _ member)) (not_or.mpr ⟨presents, stops⟩)
    · have fresh : Fresh config u agenda := fresh_recruits started (List.mem_of_getElem? recruit)
      cases fresh with
      | operation | reporter => exact ⟨plain fun _ none => (by cases none), trivial⟩
      | construction | deviceWorker | dataWorker =>
          exact ⟨plain fun _ none => (by cases none), plain fun _ none => (by cases none), trivial⟩
      | assembly => exact ⟨plain fun _ none => (by cases none), trivial⟩
  case panic =>
    intro past m t later h _ _ _ _ hub
    have same : h.dataLanes = m.hub.dataLanes := by rcases hub with rfl | rfl <;> rfl
    refine ⟨trivial, fun u j rest before id here => (before id here).imp_right fun closed => ⟨same ▸ closed.1, fun slot member => ?_⟩⟩
    exact closed.2 slot ((mem_landed_snoc.mp member).resolve_right fun none => by cases none)
  case caught => exact fun _ _ _ _ _ each => ⟨plain fun _ none => (by cases none), plain fun _ none => (by cases none), each.2⟩

theorem retires_none (run : Run config hooks past m) (job : Job) (t : ThreadId) (closed : m.hub.dataLanes.closed = true) :
    weight laneMapGate.guards (job.exec m t).2 = 0 := by
  refine weight_zero fun j member => Classical.byContradiction fun here => ?_
  have leads := leads_exec m t job j member
  cases j with
  | dataLane j =>
      cases j with
      | retire worker =>
          rcases retire_origin leads with ⟨c, slot, rfl⟩ | ⟨c, rfl⟩
          · simp [Job.exec, DataLaneJob.exec, closed, Job.logDataLane, DataLaneJob.joinWorker] at member
          · simp [Job.exec, DataLaneJob.exec, DataLanes.withdraw, run.closed_slots closed, Table.get?_empty,
              Job.logDataLane] at member
      | _ => exact here rfl
  | _ => exact here rfl

theorem Run.unretired (run : Run config hooks past m) (managed : ∀ x ∈ past, x.managed) (closed : m.hub.dataLanes.closed = true)
    (u : ThreadId) :
    weight laneMapGate.guards (m.agenda u) = 0 := by
  refine Run.induct_all (G := Moment.managed)
    (P := fun _ m => m.hub.dataLanes.closed = true → ∀ u, weight laneMapGate.guards (m.agenda u) = 0)
    ?construct ?assemble ?call ?client ?carry ?unwind run managed closed u
  case construct | assemble => exact fun none => by cases none
  case call =>
    exact fun op _ before idle closed u => unguarded_moves laneMapGate_sound (before closed u) (call_fresh config idle op u)
  case client =>
    exact fun name op _ before closed u => unguarded_moves laneMapGate_sound (before closed u) (client_fresh config _ name op u)
  case carry =>
    intro past m t job later run before agenda _ enabled old now closed u
    have idle : (∀ u, weight laneMapGate.guards (m.agenda u) = 0) ∧ weight laneMapGate.guards (job.exec m t).2 = 0 := by
      cases shut : m.hub.dataLanes.closed with
      | true => exact ⟨before shut, retires_none run job t shut⟩
      | false =>
          rw [hub_carry, closed_exec, shut, Bool.false_or] at closed
          cases job with
          | dataLane job =>
              cases job with
              | close join =>
                  have free : m.free .laneMap = true := by simpa [Job.enabled, Job.needs] using enabled
                  refine ⟨(laneMapGate_sound.run run old).open free, weight_zero fun j member => ?_⟩
                  simp only [Job.exec, DataLaneJob.exec, List.mem_append] at member
                  rcases member with wakes | joins
                  · obtain ⟨_, _, rfl⟩ := List.mem_map.mp wakes
                    rfl
                  · split at joins
                    · obtain ⟨_, _, rfl⟩ := List.mem_map.mp joins
                      rfl
                    · cases joins
              | _ => cases closed
          | _ => cases closed
    exact unguarded_carry laneMapGate_sound run agenda idle.1 idle.2 u
  case unwind =>
    intro past m t later run before agenda _ _ closed u
    exact unguarded_unwind laneMapGate_sound run agenda (before (lanes_unwind.closed ▸ closed) u)

-- The thread has ended, or it is a worker that sleeps until it is woken.
def Machine.rests (m : Machine) (w : ThreadId) : Bool :=
  match m.agenda w with
  | [] => true
  | .deviceLane .look :: _ => m.hub.deviceLane.parked
  | .dataLane (.look id) :: _ => (m.hub.dataLanes.lane? id).any (·.parked)
  | _ => false

-- A worker at rest has nothing but a look on its agenda, if anything.
theorem rests_agenda (run : Run config hooks past m) (resting : m.rests w = true) :
    m.agenda w = [] ∨ ∃ job, m.agenda w = [job] ∧ job.looks = true := by
  have last := run.looks_last w
  unfold Machine.rests at resting
  split at resting
  · exact .inl (by assumption)
  · rename_i agenda
    rw [agenda] at last
    exact .inr ⟨_, by rw [agenda, last.1.1 rfl], rfl⟩
  · rename_i agenda
    rw [agenda] at last
    exact .inr ⟨_, by rw [agenda, last.1.1 rfl], rfl⟩
  · cases resting

def Halted (past : List Moment) : Prop := ∃ x ∈ past, x.job = .hub .halt

def AtRest (past : List Moment) (m : Machine) : Prop := ∀ w, dispatches past w → m.rests w = true

-- A shutdown is over that waited for the workers and was called by somebody who is no worker, or one is
-- over, no matter which, and the workers have settled since.
def Complete (config : Config) (past : List Moment) (m : Machine) : Prop :=
  (config.joinWorkers = true ∧ Concluded past) ∨ (Halted past ∧ AtRest past m)

instance (past : List Moment) : Decidable (Halted past) :=
  inferInstanceAs (Decidable (∃ x ∈ past, x.job = .hub .halt))

instance (past : List Moment) (m : Machine) : Decidable (AtRest past m) :=
  decidable_of_iff ((∀ w ∈ deviceCrew past, m.rests w = true) ∧ ∀ slot ∈ roster past, m.rests slot.worker = true) <| by
    simp [AtRest, dispatches, or_imp, forall_and]

instance (config : Config) (past : List Moment) (m : Machine) : Decidable (Complete config past m) :=
  inferInstanceAs (Decidable ((config.joinWorkers = true ∧ Concluded past) ∨ (Halted past ∧ AtRest past m)))

theorem Complete.halted (complete : Complete config past m) : Halted past := by
  rcases complete with ⟨_, x, seen, halts, _⟩ | ⟨halted, _⟩
  · exact ⟨x, seen, halts⟩
  · exact halted

theorem Run.halted_closed (run : Run config hooks past m) (managed : ∀ x ∈ past, x.managed) (halted : Halted past) :
    m.hub.dataLanes.closed = true :=
  run.closed_before managed (halted.imp fun _ here => ⟨here.1, .inr here.2⟩)

theorem Run.roused_all (run : Run config hooks past m) (orderly : ∀ x ∈ past, x.orderly) (closed : m.hub.dataLanes.closed = true)
    (woken : ∀ u, ∀ job ∈ m.agenda u, wakesLane job = false) (member : slot ∈ landed past)
    {lane : DataLane} (known : m.hub.dataLanes.lane? slot.lane = some lane) : lane.parked = false := by
  have managed : ∀ x ∈ past, x.managed := fun x seen => (orderly x seen).1
  rcases run.alert orderly slot.lane lane known with ⟨lane', known', awake, _⟩ | ⟨c, other, found, _⟩ | ⟨u, job, pending, rouses⟩
  · cases known.symm.trans known'
    exact awake
  · rw [run.closed_slots closed, Table.get?_empty] at found
    cases found
  · cases job with
    | dataLane job =>
        cases job with
        | wake => cases woken u _ pending
        | publish c other =>
            obtain ⟨_, _, _, enlisted⟩ := each_mem (run.enlisted.2 u) pending
            obtain rfl := run.rostered.lane other enlisted slot (run.landed_roster member) (of_decide_eq_true rouses)
            exact absurd pending (run.unpresented member)
        | requestStop id =>
            obtain ⟨front, back, split, dismissed⟩ := each_mem (run.dismissed u) pending
            rcases dismissed id rfl with ⟨w, more, rfl⟩ | ⟨_, apart⟩
            · have retires : .dataLane (.retire w) ∈ m.agenda u := by simp [split]
              have none := run.unretired managed closed u
              have one := weight_mem (f := laneMapGate.guards) retires
              rw [none] at one
              cases one
            · exact absurd (of_decide_eq_true rouses).symm (apart slot member)
        | _ => cases rouses
    | _ => cases rouses

theorem Run.roused (run : Run config hooks past m) (orderly : ∀ x ∈ past, x.orderly) (halted : Halted past)
    (member : slot ∈ landed past) {lane : DataLane} (known : m.hub.dataLanes.lane? slot.lane = some lane) : lane.parked = false := by
  have managed : ∀ x ∈ past, x.managed := fun x seen => (orderly x seen).1
  refine run.roused_all orderly (run.halted_closed managed halted) (fun u job pending => ?_) member known
  obtain ⟨x, seen, halts⟩ := halted
  cases wakes : wakesLane job with
  | false => rfl
  | true => exact absurd halts ((run.wakes_ending managed pending wakes).2 x seen)

theorem Run.rest_ended (run : Run config hooks past m) (orderly : ∀ x ∈ past, x.orderly) (halted : Halted past)
    (lands : ∀ slot ∈ roster past, slot.worker = w → slot ∈ landed past) (rests : m.rests w = true) : m.agenda w = [] := by
  have managed : ∀ x ∈ past, x.managed := fun x seen => (orderly x seen).1
  have enlisted := run.enlisted.2 w
  unfold Machine.rests at rests
  split at rests
  · assumption
  · rw [(run.device_awake managed halted).2] at rests
    cases rests
  · rename_i id rest agenda
    rw [agenda] at enlisted
    cases known : m.hub.dataLanes.lane? id with
    | none =>
        rw [known] at rests
        cases rests
    | some lane =>
        rw [known, Option.any_some, run.roused orderly halted (lands _ enlisted.1 rfl) known] at rests
        cases rests
  · cases rests

theorem Run.rest_vacated (run : Run config hooks past m) (orderly : ∀ x ∈ past, x.orderly) (halted : Halted past)
    (resting : AtRest past m) : Vacated past m := by
  constructor
  · intro slot member
    have listed := run.landed_roster member
    refine run.rest_ended orderly halted (fun other listed' same => ?_) (resting slot.worker (.inr ⟨slot, listed, rfl⟩))
    rwa [run.rostered.worker other listed' slot listed same]
  · intro w member
    exact run.rest_ended orderly halted (fun slot listed same => absurd same (run.crews_apart w member slot listed))
      (resting w (.inl member))

theorem Run.complete_vacated (run : Run config hooks past m) (orderly : ∀ x ∈ past, x.orderly) (complete : Complete config past m) :
    Vacated past m := by
  rcases complete with ⟨joins, concluded⟩ | ⟨halted, resting⟩
  · exact run.vacated joins orderly concluded
  · exact run.rest_vacated orderly halted resting

theorem Run.halted_sealed (run : Run config hooks past m) (managed : ∀ x ∈ past, x.managed) (halted : Halted past) : Sealed past := by
  obtain ⟨x, seen, here⟩ := halted
  obtain ⟨y, seen, stops⟩ := run.stopped managed (.inr ⟨x, seen, .inr (by rw [here]; rfl)⟩)
  exact (run.sealed managed).2 ⟨y, seen, by rw [stops]; rfl, by rw [stops]; rfl⟩

theorem Vacated.carry (vacated : Vacated past m) (run : Run config hooks past m) (managed : ∀ x ∈ past, x.managed)
    (halted : Halted past) (agenda : m.agenda t = job :: later) : Vacated (past ++ [⟨m, t, job, later⟩]) (m.carry t job later) := by
  have closed := run.halted_closed managed halted
  constructor
  · intro slot member
    rcases mem_landed_snoc.mp member with old | lands
    · exact run.ended_carry (.inr ⟨slot, run.landed_roster old, rfl⟩) (vacated.lanes slot old) agenda
    · obtain ⟨_, _, unclosed⟩ := lands_job lands
      rw [closed] at unclosed
      cases unclosed
  · intro w member
    rcases mem_deviceCrew_snoc.mp member with old | mans
    · exact run.ended_carry (.inl old) (vacated.device w old) agenda
    · obtain ⟨rfl, _, _⟩ := mans_started mans
      have none := run.sealed_lane managed (run.halted_sealed managed halted) t
      rw [agenda, weight_cons] at none
      have one : lifecycleGate.guards (.deviceLane .spawn) = 1 := rfl
      omega

def Completed (config : Config) (past : List Moment) : Prop :=
  ∃ earlier x rest, past = earlier ++ x :: rest ∧ Complete config earlier x.machine

theorem Run.completed_vacated (run : Run config hooks past m) (orderly : ∀ x ∈ past, x.orderly) :
    Completed config past → Vacated past m := by
  refine Run.induct_all (G := Moment.orderly) (P := fun past m => Completed config past → Vacated past m)
    ?construct ?assemble ?call ?client ?carry ?unwind run orderly
  case construct | assemble =>
    intro system
    rintro ⟨_, _, _, empty, _⟩
    exact absurd empty.symm (List.append_ne_nil_of_right_ne_nil _ (List.cons_ne_nil _ _))
  case call =>
    intro past m op run before idle completed
    have vacated := before completed
    refine ⟨fun slot member => ?_, fun w member => ?_⟩
    · rw [agenda_beginWith_other (run.dispatcher_known (.inr ⟨slot, run.landed_roster member, rfl⟩)).1]
      exact vacated.lanes slot member
    · rw [agenda_beginWith_other (run.dispatcher_known (.inl member)).1]
      exact vacated.device w member
  case client =>
    intro past m name op run before completed
    have vacated := before completed
    refine ⟨fun slot member => ?_, fun w member => ?_⟩
    · rw [agenda_client_old (run.dispatcher_known (.inr ⟨slot, run.landed_roster member, rfl⟩)).2]
      exact vacated.lanes slot member
    · rw [agenda_client_old (run.dispatcher_known (.inl member)).2]
      exact vacated.device w member
  case carry =>
    rintro past m t job later run before agenda _ _ old _ ⟨earlier, x, rest, split, complete⟩
    have managed : ∀ x ∈ past, x.managed := fun x seen => (old x seen).1
    rcases split_snoc split with ⟨rfl, rfl, _⟩ | ⟨front, _, rfl⟩
    · exact (run.complete_vacated old complete).carry run managed complete.halted agenda
    · have halted := complete.halted
      exact (before ⟨earlier, x, front, rfl, complete⟩).carry run managed (seen_before halted) agenda
  case unwind =>
    rintro past m t later run before agenda old _ ⟨earlier, x, rest, split, complete⟩
    have vacated : Vacated past m := by
      rcases split_snoc split with ⟨rfl, rfl, _⟩ | ⟨front, _, rfl⟩
      · exact run.complete_vacated old complete
      · exact before ⟨earlier, x, front, rfl, complete⟩
    refine ⟨fun slot member => ?_, fun w member => ?_⟩
    · exact ended_unwind (vacated.lanes slot ((mem_landed_snoc.mp member).resolve_right fun none => by cases none)) agenda
    · exact ended_unwind (vacated.device w ((mem_deviceCrew_snoc.mp member).resolve_right fun none => by cases none)) agenda

def Job.hears : Job → Bool
  | .participant job => (job matches .hear ..)
  | _ => false

theorem hears_carries (hears : job.hears = true) : job.carries = true := by
  cases job with
  | participant job => cases job <;> first | rfl | cases hears
  | _ => cases hears

theorem Run.hearer (run : Run config hooks past m) (seen : x ∈ past) (hears : x.job.hears = true) :
    x.thread ∈ deviceCrew past ∨ ∃ slot ∈ published past, slot.worker = x.thread := by
  obtain ⟨earlier, start, reached, agenda⟩ := run.reached seen
  have burdened := reached.burdened x.thread
  rw [agenda] at burdened
  obtain ⟨y, old, same, took⟩ := burdened.1 (hears_carries hears)
  exact same ▸ run.taker (start.subset (List.mem_append_left _ old)) took

-- Every worker has ended, but for workers whose start is in progress and who never called a listener.
def Exited (past : List Moment) (m : Machine) : Prop :=
  ∀ w, dispatches past w → m.agenda w = [] ∨ (Starting m w ∧ ∀ x ∈ past, x.thread = w → x.job.hears = false)

theorem Run.exited (run : Run config hooks past m) (safe : ∀ x ∈ past, x.hookSafe ∧ x.adapterSafe) (vacated : Vacated past m) :
    Exited past m := by
  intro w works
  rcases works with device | ⟨slot, member, rfl⟩
  · exact .inl (vacated.device w device)
  by_cases lands : slot ∈ landed past
  · exact .inl (vacated.lanes slot lands)
  refine ((run.started safe slot member).resolve_left lands).imp_right fun starting => ⟨starting, fun x seen same => ?_⟩
  cases hears : x.job.hears with
  | false => rfl
  | true =>
      rcases run.hearer seen hears with device | ⟨other, inside, worker⟩
      · exact absurd same.symm (run.crews_apart x.thread device slot member)
      · obtain rfl := run.rostered.worker other (run.enlisted.1.2 other inside) slot member (worker.trans same)
        exact absurd (published_landed inside) lands

-- After a shutdown there is silence: now, and ever since it was complete.
structure Silenced (config : Config) (past : List Moment) (m : Machine) : Prop where
  now : Complete config past m → Exited past m
  since : ∀ earlier x rest, past = earlier ++ x :: rest → Complete config earlier x.machine →
    Exited past m ∧ ∀ y ∈ x :: rest, y.job.hears = false

theorem shutdown_silences (run : Run config hooks past m) (managed : ∀ x ∈ past, x.managed)
    (safe : ∀ x ∈ past, x.hookSafe ∧ x.adapterSafe) : Silenced config past m := by
  have orderly : ∀ x ∈ past, x.orderly := fun x seen => ⟨managed x seen, (safe x seen).1⟩
  refine ⟨fun complete => run.exited safe (run.complete_vacated orderly complete), fun earlier x rest split complete => ?_⟩
  refine ⟨run.exited safe (run.completed_vacated orderly ⟨earlier, x, rest, split, complete⟩), fun y here => ?_⟩
  obtain ⟨front, back, parts⟩ := List.append_of_mem here
  -- Whoever called a listener would be a worker that has not ended.
  obtain ⟨reached, agenda⟩ : Run config hooks (earlier ++ front) y.machine ∧ y.machine.agenda y.thread = y.job :: y.later :=
    run.before ⟨back, by rw [split, parts]; simp⟩
  have old : ∀ z ∈ earlier ++ front, z.orderly := fun z seen => orderly z <| by
    rw [split, parts, ← List.append_assoc]
    exact List.mem_append_left _ seen
  have vacated : Vacated (earlier ++ front) y.machine := by
    cases front with
    | nil =>
        obtain ⟨rfl, _⟩ := List.cons.inj parts
        rw [List.append_nil] at reached old ⊢
        exact reached.complete_vacated old complete
    | cons first front =>
        obtain ⟨rfl, _⟩ := List.cons.inj parts
        exact reached.completed_vacated old ⟨earlier, x, front, rfl, complete⟩
  cases hears : y.job.hears with
  | false => rfl
  | true =>
      have idle := reached.unburdened vacated (agenda ▸ List.mem_cons_self ..)
      rw [hears_carries hears] at idle
      cases idle

-- A connection is reported and a frame received, of which a listener hears.
def heardSession (config : Config) : List Moment × Machine :=
  act (.report ⟨1⟩ (.received ⟨4⟩ [7])) (rounds [(9, 0), (10, 2)])
    (act (.report ⟨1⟩ (.connected {} ⟨4⟩)) (rounds [(24, 0), (6, 1), (2, 2)])
      (solo config [] [.run, .addDataListener (.fresh { name := "l" })]))

-- The shutdown waits for the workers; a thread is inside the report of another connection meanwhile.
def silentSession : List Moment × Machine :=
  act .shutdown (rounds [(9, 3), (10, 0), (2, 1), (3, 2), (8, 0)])
    (joined "app" (.report ⟨1⟩ (.connected {} ⟨6⟩)) (heardSession quietConfig))

-- The shutdown does not wait for the workers, which settle afterwards.
def hastySession : List Moment × Machine := act .shutdown (rounds [(15, 0), (2, 1), (3, 2)]) (heardSession hastyConfig)

theorem silence_of_two :
    (Silenced quietConfig silentSession.1 silentSession.2 ∧ (∀ x ∈ silentSession.1, x.managed ∧ x.hookSafe ∧ x.adapterSafe) ∧
      Complete quietConfig silentSession.1 silentSession.2 ∧ (silentSession.1.filter (·.job.hears)).length = 1 ∧
      silentSession.2.agendas.map List.isEmpty = [true, true, true, false, false]) ∧
    (Silenced hastyConfig hastySession.1 hastySession.2 ∧ Complete hastyConfig hastySession.1 hastySession.2 ∧
      (hastySession.1.filter (·.job.hears)).length = 1 ∧ hastySession.2.agendas.map List.isEmpty = [true, true, true]) := by
  refine ⟨⟨shutdown_silences (act_run (joined_run (act_run (act_run (solo_run _ _ _) _ _) _ _) _ _) _ _) ?_ ?_, ?_⟩,
    shutdown_silences (act_run (act_run (act_run (solo_run _ _ _) _ _) _ _) _ _) ?_ ?_, ?_⟩
  all_goals decide +kernel

-- A panic comes out of a log hook while a lane is stopped; the shutdown after that does not know its worker.
def leftSession : List Moment × Machine := act .shutdown (rounds [(2, 1), (15, 0)]) halfEnded

theorem worker_left : Run quietConfig [hookAtStop] leftSession.1 leftSession.2 ∧ (∀ x ∈ leftSession.1, x.managed ∧ x.adapterSafe) ∧
    Complete quietConfig leftSession.1 leftSession.2 ∧ ¬ Exited leftSession.1 leftSession.2 := by
  obtain ⟨managed, complete, works, busy, alone⟩ : (∀ x ∈ leftSession.1, x.managed ∧ x.adapterSafe) ∧
      Complete quietConfig leftSession.1 leftSession.2 ∧ dispatches leftSession.1 ⟨1⟩ ∧
      (leftSession.2.agenda ⟨1⟩).isEmpty = false ∧
      ∀ i : Fin leftSession.2.agendas.length, i.val ≠ 1 → leftSession.2.agendas[i].isEmpty = true := by decide +kernel
  refine ⟨act_run (solo_run _ _ _) _ _, managed, complete, fun exited => ?_⟩
  rcases exited ⟨1⟩ works with ended | ⟨starting, _⟩
  · rw [ended] at busy
    cases busy
  · exact unstarted alone starting

end TransportHub
