import TransportHub.Proofs.Settling
import TransportHub.Proofs.Wakeups
import TransportHub.Proofs.Indifference
/-!
Sessions of a dispatcher. Somebody holds the data lanes of a hub by themselves, starts and stops lanes, queues on
them, changes their listeners and ends them; after each operation all threads go on until none of them can. The
workers of the lanes are then at rest: each has ended, or sleeps on an empty lane.
-/

set_option autoImplicit false

namespace TransportHub

open DataLanes (Slot)

variable {config : Config} {hooks : List Hook} {past more : List Moment} {m m' : Machine} {t u w : ThreadId}
  {job : Job} {later : List Job} {slot : Slot} {id : LaneId} {c : ConnectionHandle}

-- Threads take turns, in any order.
inductive Goes (m : Machine) : List Moment → Machine → Prop where
  | start : Goes m [] m
  | turn {more : List Moment} {m' m'' : Machine} {t : ThreadId} {job : Job} {later : List Job} (goes : Goes m more m')
      (agenda : m'.agenda t = job :: later) (went : m'.step? t = some m'') : Goes m (more ++ [⟨m', t, job, later⟩]) m''

theorem Goes.run (goes : Goes m more m') (run : Run config hooks past m) : Run config hooks (past ++ more) m' := by
  induction goes with
  | start => rwa [List.append_nil]
  | turn _ agenda went ih => exact List.append_assoc .. ▸ ih.step agenda went

theorem Goes.play (goes : Goes m more m') (schedule : List ThreadId) :
    Goes m (more ++ (m'.play schedule).1) (m'.play schedule).2 :=
  play_induct goes fun _ goes agenda went => goes.turn agenda went

def Machine.result (m : Machine) : Reply := if m.panicked .caller then .panicked else m.reply .caller

def Op.dispatcher : Op → Bool
  | .dataLanes _ | .addDataListener _ | .removeDataListener _ | .terminate => true
  | _ => false

-- The operations of a session, each with its result.
inductive Dispatched (config : Config) (system : System) : List (Op × Reply) → List Moment → Machine → Prop where
  | assemble {past : List Moment} {m : Machine} (goes : Goes (opening config [] system false) past m) (settled : m.settled) :
      Dispatched config system [] past m
  | call {done : List (Op × Reply)} {past more : List Moment} {m m' : Machine} (op : Op)
      (dispatched : Dispatched config system done past m)
      (kind : op.dispatcher = true) (goes : Goes (m.beginWith [.perform op]) more m') (settled : m'.settled) :
      Dispatched config system (done ++ [(op, m'.result)]) (past ++ more) m'

theorem hooks_spawnReporters (m : Machine) (device : DeviceInfo) (c : ConnectionHandle) (threads : Nat) :
    (m.spawnReporters device c threads).2.hooks = m.hooks := by
  induction threads generalizing m with
  | zero => rfl
  | succ threads ih =>
      simp only [Machine.spawnReporters]
      exact ih _

theorem hooks_perform (m : Machine) (op : Op) : (m.perform op).1.hooks = m.hooks := by
  have owned : (m.performOwned op).1.hooks = m.hooks := by
    cases op with
    | connectAtOnce threads device c => exact hooks_spawnReporters m device c threads
    | registry op | deviceLane op | dataLanes op =>
        cases op <;> simp only [Machine.performOwned, RegistryOp.exec, DeviceLaneOp.exec, DataLanesOp.exec] <;>
          (repeat' split) <;> rfl
    | _ => rfl
  unfold Machine.perform
  split
  · rfl
  · split
    · rename_i query _ _ _
      cases query <;> rfl
    · rfl
  · split <;> rfl
  · rfl
  · split
    · exact owned
    · rfl

theorem hooks_exec (m : Machine) (t : ThreadId) (job : Job) : (job.exec m t).1.hooks.length = m.hooks.length := by
  cases job with
  | log record =>
      simp only [Job.exec, Machine.log]
      split
      · simp [Machine.note]
      · rfl
  | perform op => exact congrArg List.length (hooks_perform m op)
  | participant job =>
      cases job <;> simp only [Job.exec, ParticipantJob.exec, ParticipantJob.callAdapter, ParticipantJob.callListener] <;>
        (repeat' split) <;> rfl
  | registry job => cases job <;> simp only [Job.exec, RegistryJob.exec] <;> (repeat' split) <;> rfl
  | deviceLane job =>
      cases job <;> simp only [Job.exec, DeviceLaneJob.exec, DeviceLaneJob.lookAtQueue] <;> (repeat' split) <;> rfl
  | dataLane job =>
      cases job <;> simp only [Job.exec, DataLaneJob.exec, DataLaneJob.lookAtLane] <;> (repeat' split) <;> rfl
  | hub job => cases job <;> simp only [Job.exec, HubJob.exec] <;> (repeat' split) <;> rfl
  | hold =>
      simp only [Job.exec]
      split <;> rfl
  | _ => rfl

theorem Run.unhooked (run : Run config [] past m) : m.hooks = [] := by
  refine List.length_eq_zero_iff.mp ?_
  refine Run.induct (G := fun _ => True) (P := fun _ m =>
    m.hooks.length = 0) rfl rfl ?call ?client ?carry ?unwind run fun _ _ => trivial
  case call | client => intros; assumption
  case carry => exact fun _ before _ _ _ _ => (hooks_exec _ _ _).trans before
  case unwind =>
    intro past m t later _ before _ _
    have same : (m.unwind t later).hooks = m.hooks := by
      unfold Machine.unwind
      repeat' split
      all_goals rfl
    rw [same, before]

def AtEase (m : Machine) (slot : Slot) : Prop := m.agenda slot.worker = [] ∨
  (m.agenda slot.worker = [.dataLane (.look slot.lane)] ∧ ∃ lane, m.hub.dataLanes.lane? slot.lane = some lane ∧ lane.parked = true)

def Resting (past : List Moment) (m : Machine) : Prop := ∀ slot ∈ roster past, AtEase m slot

theorem Run.looks_home (run : Run config hooks past m) (member : slot ∈ roster past)
    (agenda : m.agenda slot.worker = .dataLane (.look id) :: later) : id = slot.lane ∧ later = [] := by
  have enlisted := run.enlisted.2 slot.worker
  have last := run.looks_last slot.worker
  rw [agenda] at enlisted last
  have same := run.rostered.worker _ enlisted.1 slot member rfl
  exact ⟨congrArg Slot.lane same, last.1.1 rfl⟩

theorem Run.at_ease (run : Run config hooks past m) (passive : m.cast.passive) (member : slot ∈ roster past)
    (stuck : m.step? slot.worker = none) : AtEase m slot := by
  cases agenda : m.agenda slot.worker with
  | nil => exact .inl agenda
  | cons job later =>
      have routine := run.routine passive slot.worker (.inr ⟨slot, member, rfl⟩)
      have enlisted := run.enlisted.2 slot.worker
      rw [agenda] at routine enlisted
      have quiet : job ≠ .panic := fun panics => by
        rw [panics] at agenda
        rw [step_panic agenda] at stuck
        cases stuck
      have disabled : ¬ job.enabled m slot.worker = true := fun enabled => by
        rw [step_carry agenda quiet enabled] at stuck
        cases stuck
      have kind := routine.1.kind
      cases job with
      | dataLane job =>
          cases job with
          | look id =>
              obtain ⟨rfl, rfl⟩ := run.looks_home member agenda
              refine .inr ⟨agenda, ?_⟩
              obtain ⟨lane, known⟩ := lane_known (run.rostered.known slot member).1
              refine ⟨lane, known, Classical.byContradiction fun awake => disabled ?_⟩
              simp only [Job.enabled, Job.needs, known, Option.all_none, Option.any_some, Bool.true_and, Bool.not_eq_true']
              exact Bool.eq_false_iff.mpr awake
          | snapshot | handOver | mismatch => exact absurd rfl disabled
          | _ => cases kind
      | deviceLane job =>
          cases job with
          | look => exact absurd rfl (run.crews_apart _ enlisted.1 slot member)
          | _ => cases kind
      | participant job =>
          cases job with
          | hear | deliver | delivered => exact absurd rfl disabled
          | _ => cases kind
      | log => exact absurd rfl disabled
      | panic => exact absurd rfl quiet
      | _ => cases kind

theorem AtEase.stuck (atEase : AtEase m slot) : m.step? slot.worker = none := by
  unfold Machine.step?
  rcases atEase with ended | ⟨looks, lane, known, parked⟩
  · rw [ended]
  · rw [looks]
    have disabled : Job.enabled m slot.worker (.dataLane (.look slot.lane)) = false := by
      simp [Job.enabled, Job.needs, known, parked]
    simp [disabled]

theorem AtEase.accepts (atEase : AtEase m slot) (run : Run config hooks past m) (member : slot ∈ roster past) {lane : DataLane}
    (known : m.hub.dataLanes.lane? slot.lane = some lane) (accepts : lane.accepts = true) : lane.parked = true := by
  have looks := run.looking slot member lane known (DataLane.accepts_alive accepts)
  rcases atEase with ended | ⟨_, lane', known', parked⟩
  · rw [ended] at looks
    cases looks
  · cases known.symm.trans known'
    exact parked

def Dismissed (past : List Moment) (m : Machine) (w : ThreadId) : Prop :=
  ∃ slot ∈ roster past, slot.worker = w ∧ ∃ lane, m.hub.dataLanes.lane? slot.lane = some lane ∧ lane.stopping = true

-- A hub whose data lanes are all that is used of it. Its threads are the caller and the workers of the lanes.
structure Staffed (config : Config) (past : List Moment) (m : Machine) : Prop where
  run : Run config [] past m
  owned : m.hub.owned = true
  staff : ∀ u, u ≠ .caller → m.agenda u ≠ [] → ∃ slot ∈ roster past, slot.worker = u
  homes : ∀ d slot, m.hub.dataLanes.slots.get? d = some slot → m.hub.serves slot.lane d
  retired : ∀ w ∈ m.hub.dataLanes.retired, Dismissed past m w

-- The lane takes callbacks, and goes on taking them when its worker has looked.
def Machine.ready (m : Machine) (id : LaneId) : Bool :=
  (m.hub.dataLanes.lane? id).any fun lane => lane.accepts && (!m.hub.terminating || lane.parked)

structure Aside (m m' : Machine) : Prop where
  config : m'.hub.config = m.hub.config
  system : m'.system = m.system
  terminating : m'.hub.terminating = m.hub.terminating
  closed : m'.hub.dataLanes.closed = m.hub.dataLanes.closed
  slots : m'.hub.dataLanes.slots = m.hub.dataLanes.slots
  listeners : m'.hub.dataLanes.listeners = m.hub.dataLanes.listeners
  names : m'.cast.dataListenerNames = m.cast.dataListenerNames
  known : m'.cast.listeners.length = m.cast.listeners.length
  ready : ∀ id, m'.ready id = m.ready id
  serves : ∀ id c, m'.hub.serves id c ↔ m.hub.serves id c
  stopping : ∀ id lane, m.hub.dataLanes.lane? id = some lane → lane.stopping = true →
    ∃ lane', m'.hub.dataLanes.lane? id = some lane' ∧ lane'.stopping = true
  awake : m.hub.terminating = true → ∀ id lane, m.hub.dataLanes.lane? id = some lane → lane.parked = false →
    ∃ lane', m'.hub.dataLanes.lane? id = some lane' ∧ lane'.parked = false
  agenda : m'.agenda .caller = m.agenda .caller
  ended : ∀ u, m.agenda u = [] → m'.agenda u = []
  result : m'.result = m.result
  panicked : m'.panicked .caller = m.panicked .caller
  locks : m'.locks = m.locks

theorem Recast.names {c c' : Cast} (recast : Recast c job c') (routine : job.routine = true) :
    c'.dataListenerNames = c.dataListenerNames := by
  cases recast with
  | same | hear => rfl
  | _ => cases routine

theorem look_ready {lane : DataLane} (ending : Bool) (awake : lane.parked = false) :
    ((lane.look ending).2.accepts && (!ending || (lane.look ending).2.parked)) = (lane.accepts && (!ending || lane.parked)) := by
  rcases DataLane.look_cases ending lane with
    ⟨rfl, _, seen⟩ | ⟨_, stopping, seen⟩ | ⟨rfl, _, _, seen⟩ | ⟨_, running | stopping, seen⟩ <;> rw [seen]
  · simp [awake]
  · simp [DataLane.accepts, stopping]
  · simp [DataLane.accepts]
  · rfl
  · rfl

theorem look_awake {lane : DataLane} (awake : lane.parked = false) : (lane.look true).2.parked = false := by
  rcases DataLane.look_cases true lane with ⟨_, _, seen⟩ | ⟨_, _, seen⟩ | ⟨none, _⟩ | ⟨_, _, seen⟩
  · rw [seen]
    exact awake
  · rw [seen]
    exact awake
  · cases none
  · rw [seen]
    exact awake

theorem look_keeps (ending : Bool) (lane : DataLane) :
    (lane.look ending).2.connection = lane.connection ∧ (lane.look ending).2.stopping = lane.stopping := by
  rcases DataLane.look_cases ending lane with ⟨_, _, seen⟩ | ⟨_, _, seen⟩ | ⟨_, _, _, seen⟩ | ⟨_, _, seen⟩ <;>
    rw [seen] <;> exact ⟨rfl, rfl⟩

theorem Run.lane_after (run : Run config hooks past m) (passive : m.cast.passive) (member : slot ∈ roster past)
    (agenda : m.agenda slot.worker = job :: later) (went : m.step? slot.worker = some m') (id : LaneId) :
    m'.hub.dataLanes.lane? id = m.hub.dataLanes.lane? id ∨ ∃ lane, m.hub.dataLanes.lane? id = some lane ∧ lane.parked = false ∧
      m'.hub.dataLanes.lane? id = some (lane.look m.hub.terminating).2 := by
  obtain ⟨⟨device, lanes, cast, effect⟩, -⟩ := run.turned passive (.inr ⟨slot, member, rfl⟩) agenda went
  obtain ⟨metrics, hub⟩ := effect.hub
  by_cases looks : job = .dataLane (.look id)
  · subst looks
    rcases step_cases agenda went with ⟨none, _⟩ | ⟨_, enabled, rfl⟩
    · cases none
    · obtain ⟨rfl, rfl⟩ := run.looks_home member agenda
      obtain ⟨lane, known⟩ := lane_known (run.rostered.known slot member).1
      simp only [Job.enabled, Job.needs, known, Option.all_none, Option.any_some, Bool.true_and, Bool.not_eq_true'] at enabled
      refine .inr ⟨lane, known, enabled, ?_⟩
      rw [hub_carry, lane_exec m slot.worker _ known]
      simp [Job.turn]
  · refine .inl ?_
    rw [hub]
    exact effect.lanes id looks

theorem Run.aside (run : Run config hooks past m) (passive : m.cast.passive) (member : slot ∈ roster past)
    (agenda : m.agenda slot.worker = job :: later) (went : m.step? slot.worker = some m') : Aside m m' := by
  have works : dispatches past slot.worker := .inr ⟨slot, member, rfl⟩
  have apart : ThreadId.caller ≠ slot.worker := fun same => (run.rostered.apart member) same.symm
  obtain ⟨⟨device, lanes, cast, effect⟩, others, -⟩ := run.turned passive works agenda went
  obtain ⟨metrics, hub⟩ := effect.hub
  have routine := run.routine passive slot.worker works
  rw [agenda] at routine
  have kind := routine.1.kind
  have memo : m'.memos[ThreadId.caller.val]? = m.memos[ThreadId.caller.val]? := by
    rcases step_cases agenda went with ⟨rfl, rfl⟩ | ⟨_, _, rfl⟩
    · exact memo_unwind apart
    · exact memo_carry run.caller_known (.inl apart)
  have panicked : m'.panicked .caller = m.panicked .caller := by rw [panicked_eq, panicked_eq, memo]
  have terminating : m'.hub.terminating = m.hub.terminating := by rw [hub]
  exact {
    config := by rw [hub]
    system := by
      rcases step_cases agenda went with ⟨rfl, rfl⟩ | ⟨_, _, rfl⟩
      · exact system_unwind
      · refine (books_exec m slot.worker job later).system.trans ?_
        cases job with
        | dataLane job => cases job <;> first | rfl | cases kind
        | deviceLane job => cases job <;> first | rfl | cases kind
        | _ => rfl
    terminating
    closed := by rw [hub]
    slots := by rw [hub]
    listeners := by rw [hub]
    names := by
      rcases step_cases agenda went with ⟨rfl, rfl⟩ | ⟨_, _, rfl⟩
      · rw [cast_unwind]
      · exact (recast_exec m slot.worker job).names kind
    known := by
      have specs := congrArg List.length effect.specs
      rw [← effect.joined] at specs
      simpa [Cast.specs] using specs
    ready := fun id => by
      unfold Machine.ready
      rcases run.lane_after passive member agenda went id with same | ⟨lane, known, awake, looked⟩
      · rw [same, terminating]
      · rw [known, looked, terminating]
        exact look_ready m.hub.terminating awake
    serves := fun id c => by
      rcases run.lane_after passive member agenda went id with same | ⟨lane, known, _, looked⟩
      · simp only [Hub.serves, same]
      · simp only [Hub.serves, known, looked, Option.some.injEq, exists_eq_left', look_keeps]
    stopping := fun id lane known stopping => by
      rcases run.lane_after passive member agenda went id with same | ⟨lane', known', _, looked⟩
      · exact ⟨lane, same.trans known, stopping⟩
      · cases known.symm.trans known'
        exact ⟨_, looked, (look_keeps ..).2.trans stopping⟩
    awake := fun ending id lane known awake => by
      rcases run.lane_after passive member agenda went id with same | ⟨lane', known', _, looked⟩
      · exact ⟨lane, same.trans known, awake⟩
      · cases known.symm.trans known'
        rw [ending] at looked
        exact ⟨_, looked, look_awake awake⟩
    agenda := others .caller apart
    ended := fun u ended => by
      rw [others u fun same => by rw [← same, ended] at agenda; cases agenda]
      exact ended
    result := by rw [Machine.result, Machine.result, panicked, reply_eq, reply_eq, memo]
    panicked
    locks := by
      rcases step_cases agenda went with ⟨rfl, rfl⟩ | ⟨_, _, rfl⟩
      · rw [Gate.locks_unwind]
        exact List.filter_eq_self.mpr fun p member => decide_eq_true fun same => (run.unlocked passive p member).2 (same ▸ works)
      · exact Gate.locks_exec m slot.worker job fun lock =>
          ⟨fun same => (by rw [same] at kind; cases kind), fun same => by rw [same] at kind; cases kind⟩ }

theorem roster_routine (routine : job.routine = true) : roster (past ++ [⟨m, t, job, later⟩]) = roster past := by
  simp [roster, (@opens_routine m t job later routine).1]

theorem Dismissed.stays {x : Moment} (dismissed : Dismissed past m w)
    (stopping : ∀ id lane, m.hub.dataLanes.lane? id = some lane → lane.stopping = true →
      ∃ lane', m'.hub.dataLanes.lane? id = some lane' ∧ lane'.stopping = true) : Dismissed (past ++ [x]) m' w := by
  obtain ⟨slot, member, same, lane, known, stops⟩ := dismissed
  exact ⟨slot, mem_roster_snoc.mpr (.inl member), same, stopping slot.lane lane known stops⟩

theorem Staffed.turn (staffed : Staffed config past m) (passive : m.cast.passive) (member : slot ∈ roster past)
    (agenda : m.agenda slot.worker = job :: later) (went : m.step? slot.worker = some m') :
    Staffed config (past ++ [⟨m, slot.worker, job, later⟩]) m' := by
  have works : dispatches past slot.worker := .inr ⟨slot, member, rfl⟩
  have routine := staffed.run.routine passive slot.worker works
  rw [agenda] at routine
  have roster := @roster_routine past m slot.worker job later routine.1.kind
  have aside := staffed.run.aside passive member agenda went
  obtain ⟨⟨device, lanes, cast, effect⟩, others, -⟩ := staffed.run.turned passive works agenda went
  obtain ⟨metrics, hub⟩ := effect.hub
  refine ⟨staffed.run.step agenda went, by rw [hub]; exact staffed.owned,
    fun u apart busy => ?_, fun d other found => ?_, fun w retired => ?_⟩
  · rw [roster]
    by_cases mine : u = slot.worker
    · exact ⟨slot, member, mine.symm⟩
    · rw [others u mine] at busy
      exact staffed.staff u apart busy
  · rw [aside.slots] at found
    exact (aside.serves other.lane d).mpr (staffed.homes d other found)
  · have same : m'.hub.dataLanes.retired = m.hub.dataLanes.retired := by rw [hub]
    exact (staffed.retired w (same ▸ retired)).stays aside.stopping

def Job.dispatching (past : List Moment) (m : Machine) : Job → Prop
  | .log _ | .acquire _ | .release _ | .answer _ | .resume | .join .. => True
  | .perform op => op.dispatcher = true
  | .dataLane (.publish d slot) => m.hub.serves slot.lane d
  | .dataLane (.retire w) => Dismissed past m w
  | .dataLane _ => True
  | _ => False

theorem perform_dispatcher {op : Op} (kind : op.dispatcher = true) (owned : m.hub.owned = true) :
    m.perform op = m.performOwned op := by
  cases op <;> first | (cases kind; done) | exact if_pos owned

theorem owned_dispatching (dispatching : job.dispatching past m) (owned : m.hub.owned = true) :
    (job.exec m t).1.hub.owned = true := by
  cases job with
  | log record =>
      simp only [Job.exec, Machine.log]
      split <;> exact owned
  | perform op =>
      rw [Job.exec, perform_dispatcher dispatching owned]
      cases op with
      | dataLanes op =>
          cases op with
          | shutdown join => cases join <;> exact owned
          | _ => exact owned
      | addDataListener | removeDataListener | terminate => exact owned
      | _ => cases dispatching
  | dataLane job =>
      cases job <;> simp only [Job.exec, DataLaneJob.exec, DataLaneJob.lookAtLane] <;> (repeat' split) <;> exact owned
  | acquire | release | answer | resume | join => exact owned
  | _ => cases dispatching

theorem recruits_dispatching (dispatching : job.dispatching past m) {agenda : List Job} {k : Nat}
    (new : (job.recruits m)[k]? = some agenda) :
    Moment.opens ⟨m, t, job, later⟩ = some ⟨⟨m.hub.dataLanes.lanes.length⟩, ⟨m.agendas.length⟩⟩ ∧ k = 0 := by
  cases job with
  | dataLane job =>
      cases job with
      | spawn d =>
          simp only [Job.recruits] at new
          split at new
          · rename_i started
            have threads : m.agendas.length = m.threads.length := List.length_map ..
            cases k with
            | zero => exact ⟨by simp [Moment.opens, started, threads], rfl⟩
            | succ k => cases new
          · cases new
      | _ => cases new
  | perform op => cases op <;> first | cases new | cases dispatching
  | deviceLane job => cases dispatching
  | _ => cases new

theorem turn_stopping {lane : DataLane} (stopping : lane.stopping = true) : (job.turn m id lane).stopping = true := by
  cases job with
  | dataLane job =>
      cases job with
      | look other =>
          simp only [Job.turn]
          split
          · exact (look_keeps ..).2.trans stopping
          · exact stopping
      | push | requestStop | wake =>
          simp only [Job.turn]
          split <;> first | exact stopping | rfl
      | _ => exact stopping
  | _ => exact stopping

theorem Staffed.carry (staffed : Staffed config past m) (agenda : m.agenda .caller = job :: later) (notPanic : job ≠ .panic)
    (enabled : job.enabled m .caller = true) (dispatching : job.dispatching past m) :
    Staffed config (past ++ [⟨m, .caller, job, later⟩]) (m.carry .caller job later) := by
  refine ⟨staffed.run.step agenda (step_carry agenda notPanic enabled), owned_dispatching dispatching staffed.owned,
    fun u apart busy => ?_, fun d slot found => ?_, fun w retired => ?_⟩
  · rcases agenda_carry_other job later apart with same | ⟨beyond, new⟩
    · rw [same] at busy
      obtain ⟨slot, member, works⟩ := staffed.staff u apart busy
      exact ⟨slot, mem_roster_snoc.mpr (.inl member), works⟩
    · obtain ⟨opens, first⟩ := recruits_dispatching dispatching new
      have same : u = ⟨m.agendas.length⟩ := by
        cases u
        exact congrArg ThreadId.mk (Nat.le_antisymm (Nat.le_of_sub_eq_zero first) beyond)
      exact ⟨_, mem_roster_snoc.mpr (.inr opens), same.symm⟩
  · rw [hub_carry] at found ⊢
    refine serves_exec m .caller job ?_
    rcases slot_exec m .caller job later found with old | ⟨rfl, _⟩
    · exact staffed.homes d slot old
    · exact dispatching
  · have dismissed : Dismissed past m w := by
      rcases retired_source m .caller job retired with old | rfl
      · exact staffed.retired w old
      · exact dispatching
    refine dismissed.stays fun id lane known stopping =>
      ⟨_, by rw [hub_carry]; exact lane_exec m .caller job known, turn_stopping stopping⟩

def Job.gentle : Job → Bool
  | .dataLane job => !(job matches .push .. | .requestStop _ | .wake _ | .look _ | .spawn _)
  | _ => true

theorem gentle_turn {lane : DataLane} (gentle : job.gentle = true) : job.turn m id lane = lane := by
  cases job with
  | dataLane job => cases job <;> first | rfl | cases gentle
  | _ => rfl

theorem gentle_opens (gentle : job.gentle = true) : Moment.opens ⟨m, t, job, later⟩ = none := by
  cases job with
  | dataLane job => cases job <;> first | rfl | cases gentle
  | _ => rfl

theorem Resting.carry (resting : Resting past m) (run : Run config hooks past m) (gentle : job.gentle = true) :
    Resting (past ++ [⟨m, .caller, job, later⟩]) (m.carry .caller job later) := by
  intro slot member
  have old : slot ∈ roster past := (mem_roster_snoc.mp member).resolve_right fun opens => by
    rw [gentle_opens gentle] at opens
    cases opens
  have same : (m.carry .caller job later).agenda slot.worker = m.agenda slot.worker :=
    agenda_carry_old (run.rostered.apart old) (run.rostered.known slot old).2.2
  unfold AtEase
  rw [same]
  refine (resting slot old).imp_right fun ⟨looks, lane, known, parked⟩ => ⟨looks, lane, ?_, parked⟩
  rw [hub_carry, lane_exec m .caller job known, gentle_turn gentle]

end TransportHub
