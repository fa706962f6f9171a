import TransportHub.Proofs.Lanes
import TransportHub.Proofs.Panic
/-!
The roster: which worker serves which lane, and which lanes have been put into the map. Both are read
off the history of a run.
-/

set_option autoImplicit false

namespace TransportHub

open DataLanes (Slot)

def Moment.opens (x : Moment) : Option Slot :=
  match x.job with
  | .dataLane (.spawn c) =>
      if x.machine.system.answer (x.machine.hub.config.dataThread c) = .started then
        some ⟨⟨x.machine.hub.dataLanes.lanes.length⟩, ⟨x.machine.threads.length⟩⟩
      else none
  | _ => none

def Moment.publishes (x : Moment) : Option Slot :=
  match x.job with
  | .dataLane (.publish c slot) =>
      if x.machine.hub.dataLanes.closed || x.machine.hub.dataLanes.occupied c then none else some slot
  | _ => none

def Moment.lands (x : Moment) : Option Slot :=
  match x.job with
  | .dataLane (.publish _ slot) => if x.machine.hub.dataLanes.closed then none else some slot
  | _ => none

def Moment.mans (x : Moment) : Option ThreadId :=
  match x.job with
  | .deviceLane .spawn =>
      if x.machine.system.answer x.machine.hub.config.deviceThread = .started then
        some ⟨x.machine.threads.length⟩
      else none
  | _ => none

def roster (past : List Moment) : List Slot := past.filterMap Moment.opens

def published (past : List Moment) : List Slot := past.filterMap Moment.publishes

def landed (past : List Moment) : List Slot := past.filterMap Moment.lands

def deviceCrew (past : List Moment) : List ThreadId := past.filterMap Moment.mans

def dispatches (past : List Moment) (t : ThreadId) : Prop :=
  t ∈ deviceCrew past ∨ ∃ slot ∈ roster past, slot.worker = t

variable {config : Config} {hooks : List Hook} {past : List Moment} {m : Machine} {t u : ThreadId}
  {job : Job} {later : List Job} {x : Moment} {slot : Slot} {id : LaneId} {c : ConnectionHandle}

theorem mem_filterMap_snoc {α β : Type} {f : α → Option β} {l : List α} {a : α} {b : β} :
    b ∈ (l ++ [a]).filterMap f ↔ b ∈ l.filterMap f ∨ f a = some b := by
  rw [List.filterMap_append, List.mem_append]
  refine or_congr Iff.rfl ?_
  cases here : f a <;> simp [here, eq_comm]

theorem mem_roster_snoc : slot ∈ roster (past ++ [x]) ↔ slot ∈ roster past ∨ x.opens = some slot :=
  mem_filterMap_snoc

theorem mem_published_snoc : slot ∈ published (past ++ [x]) ↔ slot ∈ published past ∨ x.publishes = some slot :=
  mem_filterMap_snoc

theorem mem_landed_snoc : slot ∈ landed (past ++ [x]) ↔ slot ∈ landed past ∨ x.lands = some slot :=
  mem_filterMap_snoc

theorem mem_deviceCrew_snoc : t ∈ deviceCrew (past ++ [x]) ↔ t ∈ deviceCrew past ∨ x.mans = some t :=
  mem_filterMap_snoc

theorem opens_started (opens : Moment.opens ⟨m, t, job, later⟩ = some slot) :
    ∃ c, job = .dataLane (.spawn c) ∧ m.system.answer (m.hub.config.dataThread c) = .started ∧
      slot = ⟨⟨m.hub.dataLanes.lanes.length⟩, ⟨m.agendas.length⟩⟩ := by
  have threads : m.agendas.length = m.threads.length := List.length_map ..
  rw [threads]
  cases job with
  | dataLane job =>
      cases job with
      | spawn c =>
          simp only [Moment.opens] at opens
          split at opens
          · exact ⟨c, rfl, ‹_›, (Option.some.inj opens).symm⟩
          · cases opens
      | _ => cases opens
  | _ => cases opens

theorem lanes_length (m : Machine) (t : ThreadId) (job : Job) : (job.exec m t).1.hub.dataLanes.lanes.length =
    m.hub.dataLanes.lanes.length + (Moment.opens ⟨m, t, job, later⟩).toList.length := by
  rcases dataLane_or job with ⟨j, rfl⟩ | apart
  · cases j with
    | spawn c =>
        simp only [Job.exec, DataLaneJob.exec, Moment.opens]
        split
        · rename_i started
          simp [started, DataLanes.openLane, Machine.spawn]
        · rename_i refused
          simp [refused]
        · rename_i crashed
          simp [crashed]
    | publish | push | look =>
        simp only [Job.exec, DataLaneJob.exec, DataLaneJob.lookAtLane, Moment.opens]
        repeat' split
        all_goals simp [DataLanes.changeLane, DataLanes.publish]
    | stop c =>
        simp only [Job.exec, DataLaneJob.exec, DataLanes.withdraw]
        cases m.hub.dataLanes.slots.get? c <;> simp [Moment.opens]
    | _ =>
        simp [Job.exec, DataLaneJob.exec, DataLanes.changeLane, DataLanes.reap, DataLanes.retire,
          DataLanes.close, Moment.opens]
  · have none : Moment.opens ⟨m, t, job, later⟩ = none := by
      cases job with
      | dataLane j => exact absurd rfl (apart j)
      | _ => rfl
    rw [none, (dataLanes_exec m t job apart).1]
    rfl

structure Rostered (past : List Moment) (lanes threads : Nat) : Prop where
  known : ∀ slot ∈ roster past, slot.lane.val < lanes ∧ 0 < slot.worker.val ∧ slot.worker.val < threads
  every : ∀ id : LaneId, id.val < lanes → ∃ slot ∈ roster past, slot.lane = id
  lane : ∀ a ∈ roster past, ∀ b ∈ roster past, a.lane = b.lane → a = b
  worker : ∀ a ∈ roster past, ∀ b ∈ roster past, a.worker = b.worker → a = b

theorem Rostered.same {lanes threads more : Nat} (rostered : Rostered past lanes threads) (none : x.opens = none)
    (grow : threads ≤ more) : Rostered (past ++ [x]) lanes more := by
  have old : ∀ slot, slot ∈ roster (past ++ [x]) → slot ∈ roster past := by
    intro slot member
    rcases mem_roster_snoc.mp member with old | new
    · exact old
    · rw [none] at new
      cases new
  refine ⟨fun slot member => ?_, fun id within => ?_, fun a one b two => ?_, fun a one b two => ?_⟩
  · obtain ⟨lane, positive, worker⟩ := rostered.known slot (old slot member)
    exact ⟨lane, positive, Nat.lt_of_lt_of_le worker grow⟩
  · obtain ⟨slot, member, same⟩ := rostered.every id within
    exact ⟨slot, mem_roster_snoc.mpr (.inl member), same⟩
  · exact rostered.lane a (old a one) b (old b two)
  · exact rostered.worker a (old a one) b (old b two)

theorem Rostered.more {lanes threads : Nat} (rostered : Rostered past lanes threads) (caller : 0 < threads)
    (new : x.opens = some ⟨⟨lanes⟩, ⟨threads⟩⟩) : Rostered (past ++ [x]) (lanes + 1) (threads + 1) := by
  have cases : ∀ slot, slot ∈ roster (past ++ [x]) → slot ∈ roster past ∨ slot = ⟨⟨lanes⟩, ⟨threads⟩⟩ := by
    intro slot member
    rcases mem_roster_snoc.mp member with old | fresh
    · exact .inl old
    · exact .inr (Option.some.inj (fresh.symm.trans new))
  refine ⟨fun slot member => ?_, fun id within => ?_, fun a one b two same => ?_, fun a one b two same => ?_⟩
  · rcases cases slot member with old | rfl
    · obtain ⟨lane, positive, worker⟩ := rostered.known slot old
      exact ⟨by omega, positive, by omega⟩
    · exact ⟨Nat.lt_succ_self _, caller, Nat.lt_succ_self _⟩
  · by_cases old : id.val < lanes
    · obtain ⟨slot, member, same⟩ := rostered.every id old
      exact ⟨slot, mem_roster_snoc.mpr (.inl member), same⟩
    · refine ⟨_, mem_roster_snoc.mpr (.inr new), ?_⟩
      cases id
      exact congrArg LaneId.mk (by simp only at old within; omega)
  · rcases cases a one with first | rfl <;> rcases cases b two with second | rfl
    · exact rostered.lane a first b second same
    · have bound := (rostered.known a first).1
      rw [same] at bound
      exact absurd bound (Nat.lt_irrefl _)
    · have bound := (rostered.known b second).1
      rw [← same] at bound
      exact absurd bound (Nat.lt_irrefl _)
    · rfl
  · rcases cases a one with first | rfl <;> rcases cases b two with second | rfl
    · exact rostered.worker a first b second same
    · have bound := (rostered.known a first).2.2
      rw [same] at bound
      exact absurd bound (Nat.lt_irrefl _)
    · have bound := (rostered.known b second).2.2
      rw [← same] at bound
      exact absurd bound (Nat.lt_irrefl _)
    · rfl

theorem Rostered.apart {lanes threads : Nat} (rostered : Rostered past lanes threads) (member : slot ∈ roster past) :
    slot.worker ≠ .caller := by
  intro same
  have positive := (rostered.known slot member).2.1
  rw [same] at positive
  cases positive

theorem length_agendas_carry (m : Machine) (t : ThreadId) (job : Job) (later : List Job) :
    (m.carry t job later).agendas.length = m.agendas.length + (job.recruits m).length := by
  rw [agendas_carry, List.length_set, List.length_append]

theorem Run.rostered (run : Run config hooks past m) :
    Rostered past m.hub.dataLanes.lanes.length m.agendas.length := by
  refine Run.induct (G := fun _ => True) (P := fun past m => Rostered past m.hub.dataLanes.lanes.length m.agendas.length)
    ?construct ?assemble ?call ?client ?carry ?unwind run fun _ _ => trivial
  case construct | assemble =>
    exact ⟨fun _ none => (by cases none), fun _ none => (by cases none), fun _ none => (by cases none), fun _ none => (by cases none)⟩
  case call =>
    intro past m op _ before _
    rw [agendas_beginWith, List.length_set]
    exact before
  case client =>
    intro past m name op _ before
    rw [agendas_spawn, List.length_append]
    obtain ⟨known, every, lane, worker⟩ := before
    refine ⟨fun slot member => ?_, every, lane, worker⟩
    obtain ⟨lane, positive, worker⟩ := known slot member
    exact ⟨lane, positive, Nat.lt_add_right _ worker⟩
  case carry =>
    intro past m t job later run before agenda _ _ _
    have lanes : _ = _ + (Moment.opens ⟨m, t, job, later⟩).toList.length := lanes_length m t job
    have threads := length_agendas_carry m t job later
    rw [hub_carry, lanes, threads]
    cases opens : Moment.opens ⟨m, t, job, later⟩ with
    | none => exact before.same opens (Nat.le_add_right _ _)
    | some slot =>
        obtain ⟨c, rfl, started, rfl⟩ := opens_started opens
        have one : ((Job.dataLane (.spawn c)).recruits m).length = 1 := by
          simp [Job.recruits, started]
        rw [one]
        exact before.more run.caller_known opens
  case unwind =>
    intro past m t later _ before agenda _
    rw [agendas_unwind, List.length_set, lanes_unwind.lanes]
    exact before.same rfl (Nat.le_refl _)

theorem slot_exec (m : Machine) (t : ThreadId) (job : Job) (later : List Job)
    (found : (job.exec m t).1.hub.dataLanes.slots.get? c = some slot) :
    m.hub.dataLanes.slots.get? c = some slot ∨
      (job = .dataLane (.publish c slot) ∧ Moment.publishes ⟨m, t, job, later⟩ = some slot) := by
  rcases dataLane_or job with ⟨j, rfl⟩ | apart
  · cases j with
    | publish other new =>
        simp only [Job.exec, DataLaneJob.exec] at found
        by_cases closed : m.hub.dataLanes.closed = true
        · rw [if_pos closed] at found
          exact .inl found
        · by_cases occupied : m.hub.dataLanes.occupied other = true
          · rw [if_neg closed, if_pos occupied] at found
            exact .inl found
          · rw [if_neg closed, if_neg occupied] at found
            simp only [Machine.setDataLanes, DataLanes.publish, Table.get?_insert] at found
            split at found
            · rename_i same
              cases found
              refine .inr ⟨by rw [same], ?_⟩
              simp [Moment.publishes, closed, occupied]
            · exact .inl found
    | stop other =>
        simp only [Job.exec, DataLaneJob.exec, DataLanes.withdraw] at found
        cases known : m.hub.dataLanes.slots.get? other <;> simp [known, Table.get?_erase] at found
        · exact .inl found
        · exact .inl found.2
    | close join => cases found
    | spawn | push | look =>
        simp only [Job.exec, DataLaneJob.exec, DataLaneJob.lookAtLane] at found
        repeat' split at found
        all_goals exact .inl found
    | _ => exact .inl found
  · rw [(dataLanes_exec m t job apart).2.1] at found
    exact .inl found

theorem publishes_job (publishes : Moment.publishes ⟨m, t, job, later⟩ = some slot) :
    ∃ c, job = .dataLane (.publish c slot) ∧ m.hub.dataLanes.closed = false ∧ m.hub.dataLanes.occupied c = false := by
  cases job with
  | dataLane job =>
      cases job with
      | publish c new =>
          simp only [Moment.publishes] at publishes
          split at publishes
          · cases publishes
          · rename_i open_
            simp only [Bool.or_eq_true, not_or, Bool.not_eq_true] at open_
            cases publishes
            exact ⟨c, rfl, open_⟩
      | _ => cases publishes
  | _ => cases publishes

theorem lands_job (lands : Moment.lands ⟨m, t, job, later⟩ = some slot) :
    ∃ c, job = .dataLane (.publish c slot) ∧ m.hub.dataLanes.closed = false := by
  cases job with
  | dataLane job =>
      cases job with
      | publish c new =>
          simp only [Moment.lands] at lands
          split at lands
          · cases lands
          · rename_i unclosed
            cases lands
            exact ⟨c, rfl, Bool.eq_false_iff.mpr unclosed⟩
      | _ => cases lands
  | _ => cases lands

theorem published_landed (member : slot ∈ published past) : slot ∈ landed past := by
  obtain ⟨⟨m, t, job, later⟩, seen, publishes⟩ := List.mem_filterMap.mp member
  obtain ⟨c, rfl, unclosed, _⟩ := publishes_job publishes
  exact List.mem_filterMap.mpr ⟨_, seen, by simp only [Moment.lands, unclosed, Bool.false_eq_true, if_false]⟩

theorem mans_started (mans : Moment.mans ⟨m, t, job, later⟩ = some u) : job = .deviceLane .spawn ∧
    m.system.answer m.hub.config.deviceThread = .started ∧ u = ⟨m.agendas.length⟩ := by
  have threads : m.agendas.length = m.threads.length := List.length_map ..
  rw [threads]
  cases job with
  | deviceLane job =>
      cases job with
      | spawn =>
          simp only [Moment.mans] at mans
          split at mans
          · exact ⟨rfl, ‹_›, (Option.some.inj mans).symm⟩
          · cases mans
      | _ => cases mans
  | _ => cases mans

def Job.enlisted (past : List Moment) (u : ThreadId) : Job → Prop
  | .dataLane (.look id) => ⟨id, u⟩ ∈ roster past
  | .dataLane (.publish _ slot) => slot ∈ roster past
  | .dataLane (.push id _ _) => ∃ slot ∈ published past, slot.lane = id
  | .dataLane (.requestStop id) => ∃ slot ∈ roster past, slot.lane = id
  | .deviceLane .look => u ∈ deviceCrew past
  | job => job.crew = true → dispatches past u

theorem dispatches_new (works : dispatches (past ++ [x]) t) :
    dispatches past t ∨ x.mans = some t ∨ ∃ slot, x.opens = some slot ∧ slot.worker = t := by
  rcases works with device | ⟨slot, member, same⟩
  · exact (mem_deviceCrew_snoc.mp device).imp .inl .inl
  · rcases mem_roster_snoc.mp member with old | opens
    · exact .inl (.inr ⟨slot, old, same⟩)
    · exact .inr (.inr ⟨slot, opens, same⟩)

theorem dispatches_panic {later : List Job} (works : dispatches (past ++ [⟨m, t, .panic, later⟩]) u) : dispatches past u := by
  rcases dispatches_new works with old | none | ⟨_, none, _⟩
  · exact old
  · cases none
  · cases none

theorem dispatches_more (works : dispatches past t) (more : List Moment) : dispatches (past ++ more) t := by
  rcases works with device | ⟨slot, member, same⟩
  · exact .inl (by rw [deviceCrew, List.filterMap_append]; exact List.mem_append_left _ device)
  · exact .inr ⟨slot, by rw [roster, List.filterMap_append]; exact List.mem_append_left _ member, same⟩

theorem dispatches_snoc (here : dispatches past t) : dispatches (past ++ [x]) t := dispatches_more here [x]

theorem enlisted_snoc (enlisted : job.enlisted past u) : job.enlisted (past ++ [x]) u := by
  unfold Job.enlisted at *
  split at enlisted
  · exact mem_roster_snoc.mpr (.inl enlisted)
  · exact mem_roster_snoc.mpr (.inl enlisted)
  · obtain ⟨slot, member, same⟩ := enlisted
    exact ⟨slot, mem_published_snoc.mpr (.inl member), same⟩
  · obtain ⟨slot, member, same⟩ := enlisted
    exact ⟨slot, mem_roster_snoc.mpr (.inl member), same⟩
  · exact mem_deviceCrew_snoc.mpr (.inl enlisted)
  · exact fun crew => dispatches_snoc (enlisted crew)

theorem enlisted_dispatches (enlisted : job.enlisted past u) (crew : job.crew = true) : dispatches past u := by
  unfold Job.enlisted at enlisted
  split at enlisted
  · exact .inr ⟨_, enlisted, rfl⟩
  · cases crew
  · cases crew
  · cases crew
  · exact .inl enlisted
  · exact enlisted crew

theorem look_again (m : Machine) (t : ThreadId) {id other : LaneId}
    (member : .dataLane (.look id) ∈ (Job.exec m t (.dataLane (.look other))).2) : id = other := by
  simp only [Job.exec, DataLaneJob.exec] at member
  cases known : m.hub.dataLanes.lane? other with
  | none =>
      rw [known] at member
      cases member
  | some lane =>
      rw [known] at member
      simp only [DataLaneJob.lookAtLane] at member
      rcases DataLane.look_cases m.hub.terminating lane with
        ⟨_, _, seen⟩ | ⟨_, _, seen⟩ | ⟨_, _, _, seen⟩ | ⟨_, _, seen⟩ <;> rw [seen] at member
      · simp only [List.mem_append] at member
        split at member <;> simp [Job.logDataLane] at member
      · simp [Job.logDataLane] at member
      · simpa using member
      · simpa using member

theorem enlisted_exec (x : Moment) (slots : ∀ c slot, x.machine.hub.dataLanes.slots.get? c = some slot → slot ∈ published past)
    (opened : ∀ slot ∈ published past, slot ∈ roster past)
    (enlisted : x.job.enlisted past x.thread) :
    ∀ j ∈ (x.job.exec x.machine x.thread).2, j.enlisted (past ++ [x]) x.thread := by
  obtain ⟨m, t, job, later⟩ := x
  intro j member
  have leads := leads_exec m t job j member
  have crew : j.crew = true → dispatches (past ++ [⟨m, t, job, later⟩]) t := fun here =>
    dispatches_snoc (enlisted_dispatches enlisted (crew_source leads here))
  cases j with
  | dataLane j =>
      cases j with
      | look id =>
          obtain ⟨other, rfl⟩ := dataLook_origin leads
          rw [look_again m t member]
          exact mem_roster_snoc.mpr (.inl enlisted)
      | publish c slot =>
          obtain ⟨other, rfl⟩ := publish_origin leads
          simp only [Job.exec, DataLaneJob.exec] at member
          split at member
          · rename_i started
            simp only [List.mem_cons, List.not_mem_nil, or_false] at member
            rcases member with none | same
            · cases none
            · cases same
              exact mem_roster_snoc.mpr (.inr (if_pos started))
          · simp [Job.logDataLane] at member
          · simp at member
      | push id c callback =>
          obtain ⟨other, data, rfl⟩ := dataPush_origin leads
          simp only [Job.exec, DataLaneJob.exec] at member
          cases found : m.hub.dataLanes.slots.get? other with
          | none =>
              rw [found] at member
              simp [DataLaneJob.refuse, Job.logDataLane] at member
          | some slot =>
              rw [found] at member
              cases List.mem_singleton.mp member
              exact ⟨slot, mem_published_snoc.mpr (.inl (slots _ slot found)), rfl⟩
      | requestStop id =>
          rcases requestStop_origin leads with ⟨other, slot, rfl⟩ | ⟨other, rfl⟩
          · simp only [Job.exec, DataLaneJob.exec] at member
            have same : slot.lane = id := by
              repeat' split at member
              all_goals simp_all [Job.logDataLane, DataLaneJob.joinWorker]
            exact ⟨slot, mem_roster_snoc.mpr (.inl enlisted), same⟩
          · simp only [Job.exec, DataLaneJob.exec, DataLanes.withdraw] at member
            cases found : m.hub.dataLanes.slots.get? other with
            | none =>
                rw [found] at member
                simp [Job.logDataLane] at member
            | some slot =>
                rw [found] at member
                simp [Job.logDataLane] at member
                have listed := opened slot (slots other slot found)
                exact ⟨slot, mem_roster_snoc.mpr (.inl listed), member.symm⟩
      | _ => exact crew
  | deviceLane j =>
      cases j with
      | look =>
          obtain rfl := deviceLook_origin leads
          exact mem_deviceCrew_snoc.mpr (.inl enlisted)
      | _ => exact crew
  | _ => exact crew

theorem enlisted_recruits (x : Moment) {agenda : List Job} (new : x.machine.agendas.length ≤ u.val)
    (recruit : (x.job.recruits x.machine)[u.val - x.machine.agendas.length]? = some agenda) :
    Each (fun job _ => job.enlisted (past ++ [x]) u) agenda := by
  have threads : x.machine.agendas.length = x.machine.threads.length := List.length_map ..
  have only : ∀ {first : List Job}, [first][u.val - x.machine.agendas.length]? = some agenda →
      agenda = first ∧ u = ⟨x.machine.threads.length⟩ := by
    intro first found
    have inside := (List.getElem?_eq_some_iff.mp found).1
    have member := List.mem_of_getElem? found
    refine ⟨List.mem_singleton.mp member, ?_⟩
    cases u
    simp only [List.length_cons, List.length_nil] at inside
    exact congrArg ThreadId.mk (by simp only at new inside; omega)
  obtain ⟨m, t, job, later⟩ := x
  dsimp only at new recruit only
  unfold Job.recruits at recruit
  split at recruit
  · split at recruit
    · rename_i started
      obtain ⟨rfl, rfl⟩ := only recruit
      exact ⟨fun none => (by cases none), mem_deviceCrew_snoc.mpr (.inr (if_pos started)), trivial⟩
    · cases recruit
  · split at recruit
    · rename_i started
      obtain ⟨rfl, rfl⟩ := only recruit
      exact ⟨fun none => (by cases none), mem_roster_snoc.mpr (.inr (if_pos started)), trivial⟩
    · cases recruit
  · split at recruit
    · cases (List.mem_replicate.mp (List.mem_of_getElem? recruit)).2
      exact ⟨fun none => (by cases none), trivial⟩
    · cases recruit
  · cases recruit

theorem Run.enlisted (run : Run config hooks past m) :
    ((∀ c slot, m.hub.dataLanes.slots.get? c = some slot → slot ∈ published past) ∧
      ∀ slot ∈ published past, slot ∈ roster past) ∧
    ∀ u, Each (fun job _ => job.enlisted past u) (m.agenda u) := by
  refine Run.sustain (G := fun _ => True)
    (I := fun past h => (∀ c slot, h.dataLanes.slots.get? c = some slot → slot ∈ published past) ∧
      ∀ slot ∈ published past, slot ∈ roster past)
    (P := fun past _ u job _ => job.enlisted past u) ?start ?fresh ?carry ?panic ?caught run fun _ _ => trivial
  case start => exact ⟨fun _ _ none => (by cases none), fun _ none => (by cases none)⟩
  case fresh =>
    exact fun _ _ => ⟨⟨fun none => (by cases none), fun none => (by cases none), trivial⟩, ⟨fun none => (by cases none), trivial⟩,
      fun _ _ => ⟨fun none => (by cases none), trivial⟩⟩
  case carry =>
    intro past m t job later run before each agenda _ _ _
    have first := each t
    rw [agenda] at first
    refine ⟨⟨fun c slot found => ?_, fun slot member => ?_⟩, fun _ _ _ here => enlisted_snoc here, ?_, ?_⟩
    · rcases slot_exec m t job later found with old | ⟨_, new⟩
      · exact mem_published_snoc.mpr (.inl (before.1 c slot old))
      · exact mem_published_snoc.mpr (.inr new)
    · rcases mem_published_snoc.mp member with old | new
      · exact mem_roster_snoc.mpr (.inl (before.2 slot old))
      · obtain ⟨c, rfl, _⟩ := publishes_job new
        exact mem_roster_snoc.mpr (.inl first.1)
    · exact each_of_forall fun j member _ => enlisted_exec ⟨m, t, job, later⟩ before.1 before.2 first.1 j member
    · intro u agenda new started recruit
      exact enlisted_recruits ⟨m, t, job, later⟩ new recruit
  case panic =>
    intro past m t later h _ before _ _ hub
    have same : h.dataLanes = m.hub.dataLanes := by rcases hub with rfl | rfl <;> rfl
    rw [same]
    refine ⟨⟨fun c slot found => mem_published_snoc.mpr (.inl (before.1 c slot found)), fun slot member => ?_⟩,
      fun _ _ _ here => enlisted_snoc here⟩
    rcases mem_published_snoc.mp member with old | none
    · exact mem_roster_snoc.mpr (.inl (before.2 slot old))
    · cases none
  case caught =>
    exact fun past h u d rest each => ⟨fun none => (by cases none), each.1, each.2⟩

theorem Run.landed_roster (run : Run config hooks past m) (member : slot ∈ landed past) : slot ∈ roster past := by
  obtain ⟨⟨machine, thread, job, rest⟩, seen, lands⟩ := List.mem_filterMap.mp member
  obtain ⟨earlier, start, reached, agenda⟩ := run.reached seen
  obtain ⟨c, rfl, _⟩ := lands_job lands
  have first := reached.enlisted.2 thread
  rw [agenda] at first
  obtain ⟨y, old, opens⟩ := List.mem_filterMap.mp first.1
  exact List.mem_filterMap.mpr ⟨y, start.subset (List.mem_append_left _ old), opens⟩

theorem agenda_carry_opened (agenda : m.agenda t = job :: later) (opens : Moment.opens ⟨m, t, job, later⟩ = some slot) :
    slot.worker ≠ t ∧ ∃ c, (m.carry t job later).agenda slot.worker = Plan.dataWorker c slot.lane := by
  obtain ⟨c, rfl, started, rfl⟩ := opens_started opens
  have bound := known_lt (agenda_known agenda (List.cons_ne_nil _ _))
  have apart : (⟨m.agendas.length⟩ : ThreadId) ≠ t := fun same => by
    rw [← same] at bound
    exact Nat.lt_irrefl _ bound
  refine ⟨apart, c, ?_⟩
  rw [agenda_eq, agendas_carry, List.getElem?_set_ne (ne_val apart)]
  have recruits : (Job.dataLane (.spawn c)).recruits m = [Plan.dataWorker c ⟨m.hub.dataLanes.lanes.length⟩] := if_pos started
  rw [recruits, List.getElem?_concat_length]
  rfl

-- Induction over a run for what holds of the slot of a lane, the hub and the agenda of the lane's worker, as the
-- slot is opened, its worker takes a turn or panics, and any other thread does. Calls and clients change none of it.
theorem Run.induct_slots {P : List Moment → Hub → List Job → Slot → Prop}
    (opened : ∀ {past m t job later slot} c, Run config hooks past m → Moment.opens ⟨m, t, job, later⟩ = some slot →
      slot.worker ≠ t → P (past ++ [⟨m, t, job, later⟩]) (job.exec m t).1.hub (Plan.dataWorker c slot.lane) slot)
    (turn : ∀ {past m job later slot}, Run config hooks past m → slot ∈ roster past → m.agenda slot.worker = job :: later →
      job ≠ .panic → P past m.hub (job :: later) slot →
      P (past ++ [⟨m, slot.worker, job, later⟩]) (job.exec m slot.worker).1.hub ((job.exec m slot.worker).2 ++ later) slot)
    (aside : ∀ {past m t job later slot}, Run config hooks past m → slot ∈ roster past → m.agenda t = job :: later →
      job ≠ .panic → t ≠ slot.worker → P past m.hub (m.agenda slot.worker) slot →
      P (past ++ [⟨m, t, job, later⟩]) (job.exec m t).1.hub (m.agenda slot.worker) slot)
    (unwind : ∀ {past m later slot}, Run config hooks past m → slot ∈ roster past → m.agenda slot.worker = .panic :: later →
      P past m.hub (.panic :: later) slot →
      P (past ++ [⟨m, slot.worker, .panic, later⟩]) (m.unwind slot.worker later).hub (kept later) slot)
    (apart : ∀ {past m t later slot}, Run config hooks past m → slot ∈ roster past → m.agenda t = .panic :: later →
      t ≠ slot.worker → P past m.hub (m.agenda slot.worker) slot →
      P (past ++ [⟨m, t, .panic, later⟩]) (m.unwind t later).hub (m.agenda slot.worker) slot)
    (run : Run config hooks past m) : ∀ slot ∈ roster past, P past m.hub (m.agenda slot.worker) slot := by
  refine Run.induct (G := fun _ => True) (P := fun past m => ∀ slot ∈ roster past, P past m.hub (m.agenda slot.worker) slot)
    ?construct ?assemble ?call ?client ?carry ?panic run fun _ _ => trivial
  case construct | assemble => exact fun _ none => by cases none
  case call =>
    intro past m op run before _ slot member
    rw [agenda_beginWith_other (run.rostered.apart member)]
    exact before slot member
  case client =>
    intro past m name op run before slot member
    rw [agenda_client_old (run.rostered.known slot member).2.2]
    exact before slot member
  case carry =>
    intro past m t job later run before agenda notPanic _ _ slot member
    rw [hub_carry]
    rcases mem_roster_snoc.mp member with old | opens
    · have held := before slot old
      by_cases mine : t = slot.worker
      · subst mine
        rw [agenda] at held
        rw [agenda_carry_self agenda]
        exact turn run old agenda notPanic held
      · rw [agenda_carry_old (fun same => mine same.symm) (run.rostered.known slot old).2.2]
        exact aside run old agenda notPanic mine held
    · obtain ⟨other, c, fresh⟩ := agenda_carry_opened agenda opens
      rw [fresh]
      exact opened c run opens other
  case panic =>
    intro past m t later run before agenda _ slot member
    have old : slot ∈ roster past := (mem_roster_snoc.mp member).resolve_right fun none => by cases none
    have held := before slot old
    by_cases mine : t = slot.worker
    · subst mine
      rw [agenda] at held
      rw [agenda_unwind_self agenda]
      exact unwind run old agenda held
    · rw [agenda_unwind_other fun same => mine same.symm]
      exact apart run old agenda mine held

end TransportHub
