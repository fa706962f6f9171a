import Mathlib.Data.List.Basic
import Mathlib.Data.List.Induction
import TransportHub.Proofs.Closing
import TransportHub.Proofs.Draining
import TransportHub.Proofs.Wakeups
/-!
Standing lanes: those in the map. Each is there for one connection, and nobody has stopped it or is about to. As long
as it stays there and termination has not begun, whatever is queued for its connection goes to it, and its worker tells
every listener about it.
-/

set_option autoImplicit false

namespace TransportHub

open DataLanes (Slot)

variable {config : Config} {hooks : List Hook} {past before since more : List Moment} {start m m' : Machine} {t u : ThreadId}
  {job : Job} {later : List Job} {x : Moment} {slot : Slot} {id : LaneId} {c : ConnectionHandle} {callback : DataCallback}

def Job.undecided (slot : Slot) : Job → Nat
  | .dataLane (.publish _ other) => if other = slot then 1 else 0
  | .dataLane (.requestStop id) => if id = slot.lane then 1 else 0
  | _ => 0

theorem inner_undecided (slot : Slot) : Inner (Job.undecided slot) where
  fresh := by
    intro config u agenda fresh
    cases fresh <;> rfl
  panic := rfl
  caught := fun d => by simp [ParticipantJob.afterPanic, Job.undecided]

theorem undecided_source {j : Job} (leads : job.leads j = true) (here : j.undecided slot ≠ 0) :
    (∃ c, job = .dataLane (.spawn c)) ∨ (∃ c other, job = .dataLane (.publish c other)) ∨ ∃ c, job = .dataLane (.stop c) := by
  cases j with
  | dataLane j =>
      cases j with
      | publish => exact .inl (publish_origin leads)
      | requestStop => exact .inr (requestStop_origin leads)
      | _ => exact absurd rfl here
  | _ => exact absurd rfl here

theorem Run.undecided_new (run : Run config hooks past m) (enlisted : job.enlisted past u) :
    job.undecided ⟨⟨m.hub.dataLanes.lanes.length⟩, ⟨m.agendas.length⟩⟩ = 0 := by
  have known : ∀ other ∈ roster past, other.lane.val ≠ m.hub.dataLanes.lanes.length := fun other here =>
    Nat.ne_of_lt (run.rostered.known other here).1
  unfold Job.undecided
  split
  · exact if_neg fun same => known _ enlisted (by rw [same])
  · obtain ⟨other, there, same⟩ := enlisted
    exact if_neg fun equal => known other there (by rw [same, equal])
  · rfl

-- A lane is put into the map once, is there for one connection, and is stopped only after it has left the map.
structure Homed (slot : Slot) (past : List Moment) (m : Machine) : Prop where
  once : m.load (Job.undecided slot) ≤ 1
  mapped : ∀ c, m.hub.dataLanes.slots.get? c = some slot → m.load (Job.undecided slot) = 0 ∧
    ∀ d, m.hub.dataLanes.slots.get? d = some slot → d = c
  stopped : wasStopped slot.lane past → m.load (Job.undecided slot) = 0 ∧ ∀ c, m.hub.dataLanes.slots.get? c ≠ some slot

theorem Homed.fewer (homed : Homed slot past m) (less : m'.load (Job.undecided slot) ≤ m.load (Job.undecided slot))
    (old : ∀ d, m'.hub.dataLanes.slots.get? d = some slot → m.hub.dataLanes.slots.get? d = some slot)
    (stops : x.job ≠ .dataLane (.requestStop slot.lane)) : Homed slot (past ++ [x]) m' := by
  refine ⟨Nat.le_trans less homed.once, fun c found => ?_, fun stopped => ?_⟩
  · obtain ⟨none, single⟩ := homed.mapped c (old c found)
    exact ⟨by omega, fun d there => single d (old d there)⟩
  · obtain ⟨none, out⟩ := homed.stopped ((wasStopped_snoc.mp stopped).resolve_right stops)
    exact ⟨by omega, fun d there => out d (old d there)⟩

theorem Homed.still (homed : Homed slot past m) (less : m'.load (Job.undecided slot) ≤ m.load (Job.undecided slot))
    (slots : m'.hub.dataLanes.slots = m.hub.dataLanes.slots) (stops : x.job ≠ .dataLane (.requestStop slot.lane)) :
    Homed slot (past ++ [x]) m' :=
  homed.fewer less (fun _ found => slots ▸ found) stops

theorem Homed.publish {other : Slot} (homed : Homed slot past m) (same : other.lane = slot.lane ↔ other = slot)
    (agenda : m.agenda t = .dataLane (.publish c other) :: later) :
    Homed slot (past ++ [⟨m, t, .dataLane (.publish c other), later⟩]) (m.carry t (.dataLane (.publish c other)) later) := by
  have moved := (inner_undecided slot).carry agenda
  simp only [Job.undecided] at moved
  have stops : (Job.dataLane (.publish c other)) ≠ .dataLane (.requestStop slot.lane) := fun none => by cases none
  cases closed : m.hub.dataLanes.closed with
  | true =>
      have next : weight (Job.undecided slot) ((Job.dataLane (.publish c other)).exec m t).2 = if other = slot then 1 else 0 := by
        simp [Job.exec, DataLaneJob.exec, closed, Job.undecided, Job.logDataLane, DataLaneJob.joinWorker, same]
      exact homed.still (by omega) (by simp [Job.exec, DataLaneJob.exec, closed, hub_carry]) stops
  | false =>
      cases occupied : m.hub.dataLanes.occupied c with
      | true =>
          have next : weight (Job.undecided slot) ((Job.dataLane (.publish c other)).exec m t).2 = if other = slot then 1 else 0 := by
            simp [Job.exec, DataLaneJob.exec, closed, occupied, Job.undecided, Job.logDataLane, same]
          exact homed.still (by omega) (by simp [Job.exec, DataLaneJob.exec, closed, occupied, hub_carry]) stops
      | false =>
          have next : weight (Job.undecided slot) ((Job.dataLane (.publish c other)).exec m t).2 = 0 := by
            simp [Job.exec, DataLaneJob.exec, closed, occupied, Job.undecided, Job.logDataLane]
          have slots : ∀ d, (m.carry t (.dataLane (.publish c other)) later).hub.dataLanes.slots.get? d =
              if d = c then some other else m.hub.dataLanes.slots.get? d := fun d => by
            simp [hub_carry, Job.exec, DataLaneJob.exec, closed, occupied, DataLanes.publish, Table.get?_insert]
          have once := homed.once
          by_cases mine : other = slot
          · subst mine
            rw [if_pos rfl] at moved
            have only : ∀ e, (m.carry t (.dataLane (.publish c other)) later).hub.dataLanes.slots.get? e = some other → e = c := by
              intro e there
              rw [slots] at there
              split at there
              · assumption
              · have none := (homed.mapped e there).1
                omega
            refine ⟨by omega, fun d found => ⟨by omega, fun e there => by rw [only d found, only e there]⟩, fun stopped => ?_⟩
            have none := (homed.stopped ((wasStopped_snoc.mp stopped).resolve_right stops)).1
            omega
          · refine homed.fewer (by omega) (fun d found => ?_) stops
            rw [slots] at found
            split at found
            · exact absurd (Option.some.inj found) mine
            · exact found

theorem Homed.withdraw (homed : Homed slot past m)
    (same : ∀ other, m.hub.dataLanes.slots.get? c = some other → (other.lane = slot.lane ↔ other = slot))
    (agenda : m.agenda t = .dataLane (.stop c) :: later) :
    Homed slot (past ++ [⟨m, t, .dataLane (.stop c), later⟩]) (m.carry t (.dataLane (.stop c)) later) := by
  have moved := (inner_undecided slot).carry agenda
  have still : (Job.dataLane (.stop c)).undecided slot = 0 := rfl
  rw [still, Nat.add_zero] at moved
  have stops : (Job.dataLane (.stop c)) ≠ .dataLane (.requestStop slot.lane) := fun none => by cases none
  cases found : m.hub.dataLanes.slots.get? c with
  | none =>
      have next : weight (Job.undecided slot) ((Job.dataLane (.stop c)).exec m t).2 = 0 := by
        simp [Job.exec, DataLaneJob.exec, DataLanes.withdraw, found, Job.undecided, Job.logDataLane]
      exact homed.still (by omega) (by simp [hub_carry, Job.exec, DataLaneJob.exec, DataLanes.withdraw, found]) stops
  | some other =>
      have next : weight (Job.undecided slot) ((Job.dataLane (.stop c)).exec m t).2 = if other = slot then 1 else 0 := by
        simp [Job.exec, DataLaneJob.exec, DataLanes.withdraw, found, Job.undecided, Job.logDataLane, same other found]
      have old : ∀ d, (m.carry t (.dataLane (.stop c)) later).hub.dataLanes.slots.get? d = some slot →
          d ≠ c ∧ m.hub.dataLanes.slots.get? d = some slot := fun d there => by
        simp only [hub_carry, Job.exec, DataLaneJob.exec, DataLanes.withdraw, found, Machine.setDataLanes, Table.get?_erase] at there
        split at there
        · cases there
        · exact ⟨‹_›, there⟩
      by_cases mine : other = slot
      · subst mine
        obtain ⟨none, single⟩ := homed.mapped c found
        rw [if_pos rfl] at next
        refine ⟨by omega, fun d there => absurd (single d (old d there).2) (old d there).1, fun stopped => ?_⟩
        exact absurd found ((homed.stopped ((wasStopped_snoc.mp stopped).resolve_right stops)).2 c)
      · rw [if_neg mine] at next
        exact homed.fewer (by omega) (fun d there => (old d there).2) stops

theorem Homed.requestStop (homed : Homed slot past m) (agenda : m.agenda t = .dataLane (.requestStop slot.lane) :: later)
    (next : weight (Job.undecided slot) ((Job.dataLane (.requestStop slot.lane)).exec m t).2 = 0) :
    Homed slot (past ++ [⟨m, t, .dataLane (.requestStop slot.lane), later⟩])
      (m.carry t (.dataLane (.requestStop slot.lane)) later) := by
  have moved := (inner_undecided slot).carry agenda
  have decides : (Job.dataLane (.requestStop slot.lane)).undecided slot = 1 := if_pos rfl
  have once := homed.once
  have out : ∀ c, m.hub.dataLanes.slots.get? c ≠ some slot := fun c found => by
    have none := (homed.mapped c found).1
    omega
  exact ⟨by omega, fun c found => absurd found (out c), fun _ => ⟨by omega, out⟩⟩

theorem Homed.carry (homed : Homed slot past m) (run : Run config hooks past m) (member : slot ∈ roster past)
    (agenda : m.agenda t = job :: later) : Homed slot (past ++ [⟨m, t, job, later⟩]) (m.carry t job later) := by
  have moved := (inner_undecided slot).carry agenda
  have first := run.enlisted.2 t
  rw [agenda] at first
  have same : ∀ other ∈ roster past, (other.lane = slot.lane ↔ other = slot) := fun other here =>
    ⟨fun same => run.rostered.lane other here slot member same, fun same => by rw [same]⟩
  have idle (source : ¬ ((∃ c, job = .dataLane (.spawn c)) ∨ (∃ c other, job = .dataLane (.publish c other)) ∨
      ∃ c, job = .dataLane (.stop c))) : weight (Job.undecided slot) (job.exec m t).2 = 0 :=
    weight_next_apart (fun leads here => undecided_source leads here) m t job source
  have plain (weightless : weight (Job.undecided slot) (job.exec m t).2 = 0)
      (slots : (job.exec m t).1.hub.dataLanes.slots = m.hub.dataLanes.slots) (stops : job ≠ .dataLane (.requestStop slot.lane)) :
      Homed slot (past ++ [⟨m, t, job, later⟩]) (m.carry t job later) :=
    homed.still (by omega) slots stops
  rcases dataLane_or job with ⟨j, rfl⟩ | apart
  · cases j with
    | spawn c =>
        refine plain ?_ ?_ fun none => by cases none
        · refine weight_zero fun j inside => ?_
          simp only [Job.exec, DataLaneJob.exec] at inside
          split at inside
          · have threads : m.agendas.length = m.threads.length := List.length_map ..
            simp only [List.mem_cons, List.not_mem_nil, or_false] at inside
            rcases inside with rfl | rfl
            · rfl
            · refine if_neg fun same => ?_
              have known := (run.rostered.known slot member).1
              rw [← same] at known
              exact Nat.lt_irrefl _ known
          · simp only [List.mem_cons, List.not_mem_nil, or_false] at inside
            rcases inside with rfl | rfl <;> rfl
          · rw [List.mem_singleton.mp inside]
            rfl
        · simp only [Job.exec, DataLaneJob.exec]
          split <;> rfl
    | publish c other => exact homed.publish (same other first.1) agenda
    | stop c => exact homed.withdraw (fun other found => same other (run.enlisted.1.2 other (run.enlisted.1.1 c other found))) agenda
    | requestStop id =>
        have next := idle (by rintro (⟨_, none⟩ | ⟨_, _, none⟩ | ⟨_, none⟩) <;> cases none)
        by_cases mine : id = slot.lane
        · subst mine
          exact homed.requestStop agenda next
        · exact plain next rfl fun same => by cases same; exact mine rfl
    | close join =>
        have next := idle (by rintro (⟨_, none⟩ | ⟨_, _, none⟩ | ⟨_, none⟩) <;> cases none)
        refine homed.fewer (by omega) (fun c found => ?_) fun none => by cases none
        simp [hub_carry, Job.exec, DataLaneJob.exec, DataLanes.close, Table.get?_empty] at found
    | push | look =>
        refine plain (idle (by rintro (⟨_, none⟩ | ⟨_, _, none⟩ | ⟨_, none⟩) <;> cases none)) ?_ fun none => by cases none
        simp only [Job.exec, DataLaneJob.exec, DataLaneJob.lookAtLane]
        repeat' split
        all_goals rfl
    | _ => exact plain (idle (by rintro (⟨_, none⟩ | ⟨_, _, none⟩ | ⟨_, none⟩) <;> cases none)) rfl fun none => by cases none
  · refine plain (idle ?_) (dataLanes_exec m t job apart).2.1 (apart _)
    rintro (⟨_, none⟩ | ⟨_, _, none⟩ | ⟨_, none⟩) <;> exact apart _ none

theorem Run.homed (run : Run config hooks past m) : ∀ slot ∈ roster past, Homed slot past m := by
  refine Run.induct (G := fun _ => True) (P := fun past m => ∀ slot ∈ roster past, Homed slot past m)
    ?construct ?assemble ?call ?client ?carry ?unwind run fun _ _ => trivial
  case construct | assemble => exact fun _ none => by cases none
  case call =>
    intro past m op _ before idle slot member
    have homed := before slot member
    have loads := (inner_undecided slot).beginWith idle op
    exact ⟨loads ▸ homed.once, loads ▸ homed.mapped, loads ▸ homed.stopped⟩
  case client =>
    intro past m name op _ before slot member
    have homed := before slot member
    have loads := (inner_undecided slot).client m name op
    exact ⟨loads ▸ homed.once, loads ▸ homed.mapped, loads ▸ homed.stopped⟩
  case carry =>
    intro past m t job later run before agenda _ _ _ slot member
    rcases mem_roster_snoc.mp member with old | opens
    · exact (before slot old).carry run old agenda
    · obtain ⟨c, rfl, started, rfl⟩ := opens_started opens
      have known : ∀ other ∈ roster past, other.lane.val ≠ m.hub.dataLanes.lanes.length := fun other here =>
        Nat.ne_of_lt (run.rostered.known other here).1
      have none : m.load (Job.undecided ⟨⟨m.hub.dataLanes.lanes.length⟩, ⟨m.agendas.length⟩⟩) = 0 :=
        load_zero fun u j inside => by
          obtain ⟨_, _, _, here⟩ := each_mem (run.enlisted.2 u) inside
          exact run.undecided_new here
      have moved := (inner_undecided ⟨⟨m.hub.dataLanes.lanes.length⟩, ⟨m.agendas.length⟩⟩).carry agenda
      have next : weight (Job.undecided ⟨⟨m.hub.dataLanes.lanes.length⟩, ⟨m.agendas.length⟩⟩)
          ((Job.dataLane (.spawn c)).exec m t).2 ≤ 1 := by
        simp only [Job.exec, DataLaneJob.exec, started, weight_cons, weight_nil, Job.undecided]
        split <;> omega
      have out : ∀ d, (m.carry t (.dataLane (.spawn c)) later).hub.dataLanes.slots.get? d ≠ some
          ⟨⟨m.hub.dataLanes.lanes.length⟩, ⟨m.agendas.length⟩⟩ :=
        fun d found => by
          have same : (m.carry t (.dataLane (.spawn c)) later).hub.dataLanes.slots = m.hub.dataLanes.slots := by
            simp [hub_carry, Job.exec, DataLaneJob.exec, started, Machine.setDataLanes, DataLanes.openLane]
          rw [same] at found
          exact known _ (run.enlisted.1.2 _ (run.enlisted.1.1 d _ found)) rfl
      have unknown : m.hub.dataLanes.lane? ⟨m.hub.dataLanes.lanes.length⟩ = .none := List.getElem?_eq_none (Nat.le_refl _)
      have book := run.booked ⟨m.hub.dataLanes.lanes.length⟩
      rw [Booked, unknown] at book
      refine ⟨by omega, fun d found => absurd found (out d), fun stopped => ?_⟩
      exact absurd ((wasStopped_snoc.mp stopped).resolve_right fun none => by cases none) book.unstopped
  case unwind =>
    intro past m t later _ before agenda _ slot member
    have old : slot ∈ roster past := (mem_roster_snoc.mp member).resolve_right fun none => by cases none
    have moved := (inner_undecided slot).unwind agenda
    exact (before slot old).still (by omega) lanes_unwind.slots fun none => by cases none

theorem Run.welcomes (run : Run config hooks past m) (there : m.hub.dataLanes.slots.get? c = some slot)
    (running : m.hub.terminating = false) : (m.hub.dataLanes.lane? slot.lane).any (·.accepts) = true := by
  have member := run.enlisted.1.2 slot (run.enlisted.1.1 c slot there)
  obtain ⟨lane, known, book⟩ := run.booked_roster member
  have open_ : lane.stopping = false := Bool.eq_false_iff.mpr fun stopping =>
    ((run.homed slot member).stopped (book.stopped.mp stopping)).2 c there
  have staffed : lane.exited = false := Bool.eq_false_iff.mpr fun exited => by
    rcases book.left exited with stopping | ⟨x, seen, cuts⟩
    · rw [open_] at stopping
      cases stopping
    · have ending := run.terminating x seen (cuts_ending cuts)
      rw [running] at ending
      cases ending
  simp [known, DataLane.accepts, open_, staffed]

def Moment.spares (c : ConnectionHandle) (x : Moment) : Prop :=
  x.job ≠ .dataLane (.stop c) ∧ ∀ join, x.job ≠ .dataLane (.close join)

theorem maps_spares (spares : x.spares c) (there : x.machine.hub.dataLanes.slots.get? c = some slot) :
    x.maps c (some slot) = some slot := by
  obtain ⟨m, t, job, later⟩ := x
  cases job with
  | dataLane j =>
      cases j with
      | publish other new =>
          by_cases same : other = c
          · subst same
            simp [Moment.maps, Moment.publishes, DataLanes.occupied, Table.contains, show m.hub.dataLanes.slots.get? other
              = some slot from there]
          · simp [Moment.maps, same]
      | stop other =>
          have apart : other ≠ c := fun same => spares.1 (by rw [same])
          simp [Moment.maps, apart]
      | close join => exact absurd rfl (spares.2 join)
      | _ => rfl
  | _ => rfl

theorem Run.stands (run : Run config hooks (past ++ since) m) (there : standing c past = some slot)
    (spared : ∀ x ∈ since, x.spares c) :
    standing c (past ++ since) = some slot := by
  -- Each step before the last leaves the lane standing by the history that leads to it.
  have stages : ∀ front back, since = front ++ back → standing c (past ++ front) = some slot := by
    intro front
    induction front using List.reverseRecOn with
    | nil => exact fun _ _ => by rwa [List.append_nil]
    | append_singleton front x ih =>
        intro back split
        have still := ih (x :: back) (by rw [split, List.append_assoc]; rfl)
        have start : (past ++ front) ++ [x] <+: past ++ since := ⟨back, by rw [split]; simp⟩
        have reached := (run.before start).1
        rw [← List.append_assoc, standing_snoc, still]
        exact maps_spares (spared x (by rw [split]; simp)) ((reached.mapped c).trans still)
  exact stages since [] (List.append_nil _).symm

inductive Placing (slot : Slot) (c : ConnectionHandle) (callback : DataCallback) : Reply → List Moment → List Job → Prop where
  | finds {r : Reply} {own : List Moment} (idle : acceptedOn slot.lane own = []) : Placing slot c callback r own
      [.dataLane (.find c callback)]
  | pushes {r : Reply} {own : List Moment} (idle : acceptedOn slot.lane own = []) :
      Placing slot c callback r own [.dataLane (.push slot.lane c callback)]
  | placed {own : List Moment} (placed : acceptedOn slot.lane own = [callback]) : Placing slot c callback (.flag true) own []

theorem enqueue_placed (calling : Calling t later start (Plan.enqueueData c callback) more m [])
    (all : ∀ x ∈ ownTurns t more, x.unhooked ∧ x.machine.hub.dataLanes.slots.get? c = some slot ∧
      (x.machine.hub.dataLanes.lane? slot.lane).any (·.accepts) = true) :
    m.reply t = .flag true ∧ acceptedOn slot.lane (ownTurns t more) = [callback] := by
  have quiet : ∀ {m : Machine} {job : Job}, job.calm = true → job.accepted m slot.lane = [] := fun {m job} calm => by
    cases job <;> first | rfl | cases calm
  have ending : ∃ front back, [] = front ++ back ∧ (∀ j ∈ front, j.calm = true) ∧
      Placing slot c callback (answerAfter (m.reply t) front) (ownTurns t more) back := by
    refine Calling.decisions (fun _ good => good.1) [] [.dataLane (.find c callback)] rfl
      ⟨fun _ none => (by cases none), .finds rfl⟩ (fun key => by cases key <;> rfl) ?aside ?goes calling all
    case aside =>
      intro r own back x key calm
      have same : acceptedOn slot.lane (own ++ [x]) = acceptedOn slot.lane own := by
        rw [acceptedOn_snoc, quiet calm, List.append_nil]
      cases key with
      | finds idle => exact .finds (same.trans idle)
      | pushes idle => exact .pushes (same.trans idle)
      | placed placed => exact .placed (same.trans placed)
    case goes =>
      rintro m own job rest key _ _ ⟨_, there, accepts⟩
      generalize m.reply t = r at key ⊢
      cases key with
      | finds idle =>
          refine ⟨[], _, by simp [Job.exec, DataLaneJob.exec, show m.hub.dataLanes.slots.get? c = some slot from there],
            fun _ none => (by cases none), .pushes ?_⟩
          rw [acceptedOn_snoc, idle]
          rfl
      | pushes idle =>
          have takes : (m.hub.dataLanes.lane? slot.lane).any (·.accepts) = true := accepts
          refine ⟨[Job.logDataLane c (.queued callback), .answer (.flag true)], [], by simp [Job.exec, DataLaneJob.exec, takes],
            by simp [Job.logDataLane, Job.calm], .placed ?_⟩
          rw [acceptedOn_snoc, idle]
          simp [Job.accepted, takes]
  obtain ⟨front, back, split, _, key⟩ := ending
  obtain ⟨rfl, rfl⟩ := List.append_eq_nil_iff.mp split.symm
  simp only [answerAfter] at key
  generalize m.reply t = reply at key ⊢
  cases key with
  | placed placed => exact ⟨rfl, placed⟩

theorem Run.gathers_data (run : Run config hooks past m) (member : slot ∈ roster past) (agenda : m.agenda slot.worker = job :: later)
    {r : Round} (gathers : job.gathers m = some r) :
    r.calls = r.data.flatMap fun callback => m.hub.dataLanes.listeners.snapshot.map (·, .data callback) := by
  have enlisted := run.enlisted.2 slot.worker
  rw [agenda] at enlisted
  cases job with
  | deviceLane job =>
      cases job with
      | look => exact absurd rfl (run.crews_apart _ enlisted.1 slot member)
      | _ => cases gathers
  | dataLane job =>
      cases job with
      | snapshot d batch =>
          cases gathers
          have data : (batch.map Callback.data).filterMap Callback.data? = batch := by
            rw [List.filterMap_map]
            exact List.filterMap_some
          rw [Round.calls, Round.data, data, List.flatMap_map]
      | _ => cases gathers
  | _ => cases gathers

structure Tending (slot : Slot) (m : Machine) (since : List Moment) (m' : Machine) : Prop where
  taken : (m.hub.dataLanes.lane? slot.lane).elim [] (·.items) ++ acceptedOn slot.lane since =
    takenFrom slot.lane since ++ (m'.hub.dataLanes.lane? slot.lane).elim [] (·.items)
  gathered : (m.agenda slot.worker).flatMap Job.waits ++ takenFrom slot.lane since =
    (roundsOf slot.worker since).flatMap Round.data ++ (m'.agenda slot.worker).flatMap Job.waits
  told : (m.agenda slot.worker).flatMap Job.owes ++ (roundsOf slot.worker since).flatMap Round.calls =
    heardFrom slot.worker since ++ (m'.agenda slot.worker).flatMap Job.owes
  listeners : ∀ ls, (∀ x ∈ since, x.machine.hub.dataLanes.listeners.snapshot = ls) →
    (roundsOf slot.worker since).flatMap Round.calls =
    ((roundsOf slot.worker since).flatMap Round.data).flatMap fun callback => ls.map (·, .data callback)
  awake : m'.agenda slot.worker = [.dataLane (.look slot.lane)] → (m'.hub.dataLanes.lane? slot.lane).any (·.items ≠ []) →
    (m'.step? slot.worker).isSome = true

theorem Run.tending (first : Run config hooks past m) (run : Run config hooks (past ++ since) m') (member : slot ∈ roster past)
    (running : m'.hub.terminating = false) : Tending slot m since m' := by
  have now : slot ∈ roster (past ++ since) := by
    rw [roster, List.filterMap_append]
    exact List.mem_append_left _ member
  obtain ⟨_, gathered, told⟩ := first.conveyed_since run member
  refine ⟨?_, gathered, told, fun ls steady => ?_, fun agenda full => ?_⟩
  · obtain ⟨lane, known, book⟩ := first.booked_roster member
    obtain ⟨lane', known', book'⟩ := run.booked_roster now
    have uncut : ¬ wasCut slot.lane (past ++ since) := by
      rintro ⟨x, seen, cuts⟩
      exact Bool.false_ne_true (running.symm.trans (run.terminating x seen (cuts_ending cuts)))
    have uncut' : ¬ wasCut slot.lane past := by
      rintro ⟨x, seen, cuts⟩
      exact uncut ⟨x, List.mem_append_left _ seen, cuts⟩
    have before := book.balance
    have after := book'.balance
    have thrown := book'.thrown uncut
    have earlier := book.thrown uncut'
    rw [earlier, List.append_nil] at before
    rw [thrown, List.append_nil, acceptedOn, takenFrom, List.flatMap_append, List.flatMap_append, ← acceptedOn, ← takenFrom, before,
      List.append_assoc, List.append_assoc, List.append_cancel_left_eq] at after
    rw [known, known']
    exact after
  · have each : ∀ r ∈ roundsOf slot.worker since, r.calls = r.data.flatMap fun callback => ls.map (·, .data callback) :=
      fun r gathered => by
      obtain ⟨x, inside, here⟩ := List.mem_filterMap.mp gathered
      split at here
      · rename_i mine
        obtain ⟨front, back, rfl⟩ := List.append_of_mem inside
        have start : (past ++ front) ++ [x] <+: past ++ (front ++ x :: back) := ⟨back, by simp⟩
        obtain ⟨reached, agenda⟩ := run.before start
        have member : slot ∈ roster (past ++ front) := by
          rw [roster, List.filterMap_append]
          exact List.mem_append_left _ member
        rw [mine] at agenda
        rw [reached.gathers_data member agenda here, steady x inside]
      · cases here
    rw [List.flatMap_congr each, List.flatMap_assoc]
  · obtain ⟨lane, known⟩ := lane_known (run.rostered.known slot now).1
    obtain ⟨_, path⟩ := run.lane_reached known
    have awake : lane.parked = false := Bool.eq_false_iff.mpr fun parked => by
      have empty : lane.items = [] := ((DataLane.rested path).asleep parked).1
      simp [known, empty] at full
    rw [step_carry agenda (fun none => by cases none) (by simp [Job.enabled, Job.needs, known, awake])]
    rfl

theorem Tending.complete (tending : Tending slot m since m') (idle : m'.agenda slot.worker = [.dataLane (.look slot.lane)])
    (empty : (m'.hub.dataLanes.lane? slot.lane).elim [] (·.items) = []) {ls : List ListenerId}
    (steady : ∀ x ∈ since, x.machine.hub.dataLanes.listeners.snapshot = ls) :
    heardFrom slot.worker since = (m.agenda slot.worker).flatMap Job.owes ++ ((m.agenda slot.worker).flatMap Job.waits ++
      (m.hub.dataLanes.lane? slot.lane).elim [] (·.items) ++ acceptedOn slot.lane since).flatMap fun callback =>
        ls.map (·, .data callback) := by
  obtain ⟨taken, gathered, told, listeners, _⟩ := tending
  have waits : (m'.agenda slot.worker).flatMap Job.waits = [] := by rw [idle]; rfl
  have owes : (m'.agenda slot.worker).flatMap Job.owes = [] := by rw [idle]; rfl
  rw [empty, List.append_nil] at taken
  rw [waits, List.append_nil] at gathered
  rw [owes, List.append_nil, listeners ls steady, ← gathered] at told
  rw [List.append_assoc, taken, told]

end TransportHub
