import TransportHub.Proofs.Agenda
/-!
What steps leave unchanged. Only jobs of the lanes and the end of a delivery touch what lanes and
their workers go by.
-/

set_option autoImplicit false

namespace TransportHub

structure Hub.SameLanes (h h' : Hub) : Prop where
  metrics : h'.metrics = h.metrics
  queue : h'.deviceLane.queue = h.deviceLane.queue
  worker : h'.deviceLane.worker = h.deviceLane.worker
  parked : h'.deviceLane.parked = h.deviceLane.parked
  lanes : h'.dataLanes.lanes = h.dataLanes.lanes
  slots : h'.dataLanes.slots = h.dataLanes.slots
  closed : h'.dataLanes.closed = h.dataLanes.closed
  retired : h'.dataLanes.retired = h.dataLanes.retired

def Job.aside : Job → Bool
  | .deviceLane _ | .dataLane _ | .participant (.deliver _) => false
  | _ => true

variable {m : Machine} {t : ThreadId} {job : Job} {later : List Job}

theorem sameLanes_rfl (h : Hub) : h.SameLanes h := ⟨rfl, rfl, rfl, rfl, rfl, rfl, rfl, rfl⟩

theorem hub_log (m : Machine) (t : ThreadId) (record : Log.Record) : (m.log t record).1.hub = m.hub := by
  unfold Machine.log
  by_cases caller : t = .caller <;> simp [caller]

theorem hub_participant (m : Machine) (t : ThreadId) (job : ParticipantJob) (aside : (Job.participant job).aside = true) :
    (job.exec m t).1.hub = m.hub := by
  cases job with
  | deliver => cases aside
  | call =>
    simp only [ParticipantJob.exec, ParticipantJob.callAdapter]
    repeat' split
    all_goals simp_all
  | hear =>
    simp only [ParticipantJob.exec, ParticipantJob.callListener]
    repeat' split
    all_goals simp_all
  | _ => rfl

theorem lanes_registry (m : Machine) (job : RegistryJob) : m.hub.SameLanes (job.exec m).1.hub := by
  cases job with
  | withdraw | replace =>
    simp only [RegistryJob.exec]
    split <;> exact ⟨rfl, rfl, rfl, rfl, rfl, rfl, rfl, rfl⟩
  | _ => exact ⟨rfl, rfl, rfl, rfl, rfl, rfl, rfl, rfl⟩

theorem lanes_hub (m : Machine) (t : ThreadId) (job : HubJob) : m.hub.SameLanes (job.exec m t).1.hub := by
  cases job with
  | raiseTermination | laneStarted =>
    simp only [HubJob.exec]
    repeat' split
    all_goals exact ⟨rfl, rfl, rfl, rfl, rfl, rfl, rfl, rfl⟩
  | _ => exact ⟨rfl, rfl, rfl, rfl, rfl, rfl, rfl, rfl⟩

theorem hub_spawnReporters (m : Machine) (device : DeviceInfo) (c : ConnectionHandle) (threads : Nat) :
   (m.spawnReporters device c threads).2.hub = m.hub := by
  induction threads generalizing m with
  | zero => rfl
  | succ threads ih =>
    simp only [Machine.spawnReporters, ih]
    rfl

theorem lanes_perform (m : Machine) (op : Op) : m.hub.SameLanes (m.perform op).1.hub := by
  cases op with
  | registry op | deviceLane op | dataLanes op =>
    cases op <;> simp only [Machine.perform, Machine.performOwned, RegistryOp.exec, DeviceLaneOp.exec, DataLanesOp.exec] <;>
      (repeat' split) <;> exact ⟨rfl, rfl, rfl, rfl, rfl, rfl, rfl, rfl⟩
  | context name query =>
    simp only [Machine.perform]
    split
    · cases query <;> exact ⟨rfl, rfl, rfl, rfl, rfl, rfl, rfl, rfl⟩
    · exact ⟨rfl, rfl, rfl, rfl, rfl, rfl, rfl, rfl⟩
  | connectAtOnce threads device c =>
    simp only [Machine.perform, Machine.performOwned]
    split
    · simp only [hub_spawnReporters]
      exact sameLanes_rfl _
    · exact sameLanes_rfl _
  | _ =>
    simp only [Machine.perform, Machine.performOwned, ContextQuery.exec]
    (repeat' split) <;> exact ⟨rfl, rfl, rfl, rfl, rfl, rfl, rfl, rfl⟩

theorem lanes_exec (m : Machine) (t : ThreadId) (job : Job) (aside : job.aside = true) :
   m.hub.SameLanes (job.exec m t).1.hub := by
  cases job with
  | log record => simp only [Job.exec, hub_log]; exact sameLanes_rfl _
  | perform op => exact lanes_perform m op
  | registry job => exact lanes_registry m job
  | hub job => exact lanes_hub m t job
  | participant job => simp only [Job.exec, hub_participant m t job aside]; exact sameLanes_rfl _
  | hold =>
    simp only [Job.exec]
    split <;> exact sameLanes_rfl _
  | deviceLane | dataLane => cases aside
  | _ => exact sameLanes_rfl _

theorem hub_carry : (m.carry t job later).hub = (job.exec m t).1.hub := rfl

theorem lanes_unwind : m.hub.SameLanes (m.unwind t later).hub := by
  unfold Machine.unwind
  repeat' split
  all_goals exact ⟨rfl, rfl, rfl, rfl, rfl, rfl, rfl, rfl⟩

theorem dataLanes_deviceLane (m : Machine) (job : DeviceLaneJob) :
    (job.exec m).1.hub.dataLanes = m.hub.dataLanes := by
  cases job with
  | spawn | look =>
      simp only [DeviceLaneJob.exec, DeviceLaneJob.lookAtQueue]
      split <;> rfl
  | _ => rfl

theorem dataLanes_deliver (m : Machine) (t : ThreadId) (d : Delivery) :
    ((Job.participant (.deliver d)).exec m t).1.hub.dataLanes = m.hub.dataLanes := by
  simp only [Job.exec, ParticipantJob.exec]
  split <;> rfl

theorem dataLane_or (job : Job) : (∃ j, job = .dataLane j) ∨ ∀ j, job ≠ .dataLane j := by
  cases job with
  | dataLane j => exact .inl ⟨j, rfl⟩
  | _ => exact .inr fun _ same => by cases same

theorem dataLanes_exec (m : Machine) (t : ThreadId) (job : Job) (apart : ∀ j, job ≠ .dataLane j) :
    (job.exec m t).1.hub.dataLanes.lanes = m.hub.dataLanes.lanes ∧
      (job.exec m t).1.hub.dataLanes.slots = m.hub.dataLanes.slots ∧
      (job.exec m t).1.hub.dataLanes.closed = m.hub.dataLanes.closed ∧
      (job.exec m t).1.hub.dataLanes.retired = m.hub.dataLanes.retired := by
  cases aside : job.aside with
  | true =>
      have same := lanes_exec m t job aside
      exact ⟨same.lanes, same.slots, same.closed, same.retired⟩
  | false =>
      cases job with
      | dataLane j => exact absurd rfl (apart j)
      | deviceLane j =>
          have same := dataLanes_deviceLane m j
          exact ⟨congrArg _ same, congrArg _ same, congrArg _ same, congrArg _ same⟩
      | participant j =>
          cases j with
          | deliver d =>
              have same := dataLanes_deliver m t d
              exact ⟨congrArg _ same, congrArg _ same, congrArg _ same, congrArg _ same⟩
          | _ => cases aside
      | _ => cases aside

def Job.registers : Job → Bool
  | .registry _ => true
  | .hub job => (job matches .claimNew .. | .claimAll | .finishStart .. | .laneStarted | .halt)
  | _ => false

def Job.relinks : Job → Bool
  | .hub job => (job matches .recordConnection .. | .forgetConnection _ | .clearConnections)
  | _ => false

structure Hub.SameState (h h' : Hub) : Prop where
  registry : h'.registry = h.registry
  running : h'.running = h.running
  connections : h'.connections = h.connections
  terminating : h'.terminating = h.terminating

-- The same as far as a job is not about it.
structure Hub.Steady (job : Job) (h h' : Hub) : Prop where
  registry : job.registers = false → h'.registry = h.registry
  running : job.registers = false → h'.running = h.running
  connections : job.relinks = false → h'.connections = h.connections
  terminating : job ≠ .hub .raiseTermination → h'.terminating = h.terminating

theorem Hub.SameState.steady {h h' : Hub} (same : h.SameState h') (job : Job) : h.Steady job h' :=
  ⟨fun _ => same.registry, fun _ => same.running, fun _ => same.connections, fun _ => same.terminating⟩

theorem steady_hub (m : Machine) (t : ThreadId) (job : HubJob) : m.hub.Steady (.hub job) (job.exec m t).1.hub := by
  cases job with
  | claimNew | claimAll | finishStart | halt =>
      exact ⟨fun none => (by cases none), fun none => (by cases none), fun _ => rfl, fun _ => rfl⟩
  | laneStarted =>
      refine ⟨fun none => (by cases none), fun none => (by cases none), fun _ => ?_, fun _ => ?_⟩ <;>
        simp only [HubJob.exec] <;> split <;> rfl
  | recordConnection | forgetConnection | clearConnections =>
      exact ⟨fun _ => rfl, fun _ => rfl, fun none => (by cases none), fun _ => rfl⟩
  | raiseTermination =>
      refine ⟨fun _ => ?_, fun _ => ?_, fun _ => ?_, fun apart => absurd rfl apart⟩ <;> simp only [HubJob.exec] <;>
        (repeat' split) <;> rfl
  | _ => exact ⟨fun _ => rfl, fun _ => rfl, fun _ => rfl, fun _ => rfl⟩

theorem steady_registry (m : Machine) (job : RegistryJob) : m.hub.Steady (.registry job) (job.exec m).1.hub := by
  refine ⟨fun none => (by cases none), fun none => (by cases none), fun _ => ?_, fun _ => ?_⟩ <;> cases job <;>
    simp only [RegistryJob.exec] <;> (try split) <;> rfl

theorem state_perform (m : Machine) (op : Op) (managed : op.managed = true) :
    m.hub.SameState (m.perform op).1.hub := by
  cases op with
  | registry | deviceLane | dataLanes | terminate => cases managed
  | context name query =>
      simp only [Machine.perform]
      split
      · cases query <;> exact ⟨rfl, rfl, rfl, rfl⟩
      · exact ⟨rfl, rfl, rfl, rfl⟩
  | connectAtOnce threads device c =>
      simp only [Machine.perform, Machine.performOwned]
      split
      · simp only [hub_spawnReporters]
        exact ⟨rfl, rfl, rfl, rfl⟩
      · exact ⟨rfl, rfl, rfl, rfl⟩
  | _ =>
      simp only [Machine.perform, Machine.performOwned, ContextQuery.exec]
      repeat' split
      all_goals exact ⟨rfl, rfl, rfl, rfl⟩

theorem state_dataLane (m : Machine) (job : DataLaneJob) : m.hub.SameState (job.exec m).1.hub := by
  cases job with
  | stop c =>
      simp only [DataLaneJob.exec, DataLanes.withdraw]
      cases m.hub.dataLanes.slots.get? c <;> exact ⟨rfl, rfl, rfl, rfl⟩
  | spawn | publish | push | look =>
      simp only [DataLaneJob.exec, DataLaneJob.lookAtLane]
      repeat' split
      all_goals exact ⟨rfl, rfl, rfl, rfl⟩
  | _ => exact ⟨rfl, rfl, rfl, rfl⟩

theorem state_deviceLane (m : Machine) (job : DeviceLaneJob) : m.hub.SameState (job.exec m).1.hub := by
  cases job with
  | spawn | look =>
      simp only [DeviceLaneJob.exec, DeviceLaneJob.lookAtQueue]
      split <;> exact ⟨rfl, rfl, rfl, rfl⟩
  | _ => exact ⟨rfl, rfl, rfl, rfl⟩

theorem steady_exec (m : Machine) (t : ThreadId) (job : Job) (managed : ∀ op, job = .perform op → op.managed = true) :
    m.hub.Steady job (job.exec m t).1.hub := by
  cases job with
  | registry job => exact steady_registry m job
  | hub job => exact steady_hub m t job
  | perform op => exact (state_perform m op (managed op rfl)).steady _
  | dataLane job => exact (state_dataLane m job).steady _
  | deviceLane job => exact (state_deviceLane m job).steady _
  | participant job =>
      refine Hub.SameState.steady ?_ _
      cases job with
      | deliver d =>
          simp only [Job.exec, ParticipantJob.exec]
          split <;> exact ⟨rfl, rfl, rfl, rfl⟩
      | _ =>
          simp only [Job.exec]
          rw [hub_participant _ _ _ rfl]
          exact ⟨rfl, rfl, rfl, rfl⟩
  | log record =>
      refine Hub.SameState.steady ?_ _
      simp only [Job.exec, hub_log]
      exact ⟨rfl, rfl, rfl, rfl⟩
  | hold =>
      refine Hub.SameState.steady ?_ _
      simp only [Job.exec]
      split <;> exact ⟨rfl, rfl, rfl, rfl⟩
  | _ => exact Hub.SameState.steady ⟨rfl, rfl, rfl, rfl⟩ _

structure Hub.Lasting (h h' : Hub) : Prop where
  config : h'.config = h.config
  terminating : h.terminating = true → h'.terminating = true

theorem lasting_rfl (h : Hub) : h.Lasting h := ⟨rfl, id⟩

theorem lasting_perform (m : Machine) (op : Op) : m.hub.Lasting (m.perform op).1.hub := by
  cases op with
  | registry op | deviceLane op | dataLanes op =>
      cases op <;> simp only [Machine.perform, Machine.performOwned, RegistryOp.exec, DeviceLaneOp.exec, DataLanesOp.exec] <;>
        (repeat' split) <;> first | exact ⟨rfl, id⟩ | exact ⟨rfl, fun _ => rfl⟩
  | context name query =>
      simp only [Machine.perform]
      split
      · cases query <;> exact ⟨rfl, id⟩
      · exact lasting_rfl _
  | connectAtOnce threads device c =>
      simp only [Machine.perform, Machine.performOwned]
      split
      · simp only [hub_spawnReporters]
        exact lasting_rfl _
      · exact lasting_rfl _
  | _ =>
      simp only [Machine.perform, Machine.performOwned, ContextQuery.exec]
      (repeat' split) <;> first | exact ⟨rfl, id⟩ | exact ⟨rfl, fun _ => rfl⟩

theorem lasting_exec (m : Machine) (t : ThreadId) (job : Job) : m.hub.Lasting (job.exec m t).1.hub := by
  cases job with
  | registry job =>
      cases job with
      | withdraw | replace =>
          simp only [Job.exec, RegistryJob.exec]
          split <;> exact ⟨rfl, id⟩
      | _ => exact ⟨rfl, id⟩
  | hub job =>
      cases job with
      | raiseTermination | laneStarted =>
          simp only [Job.exec, HubJob.exec]
          repeat' split
          all_goals first | exact ⟨rfl, id⟩ | exact ⟨rfl, fun _ => rfl⟩
      | _ => exact ⟨rfl, id⟩
  | perform op => exact lasting_perform m op
  | dataLane job =>
      cases job with
      | stop c =>
          simp only [Job.exec, DataLaneJob.exec, DataLanes.withdraw]
          cases m.hub.dataLanes.slots.get? c <;> exact ⟨rfl, id⟩
      | spawn | publish | push | look =>
          simp only [Job.exec, DataLaneJob.exec, DataLaneJob.lookAtLane]
          repeat' split
          all_goals exact ⟨rfl, id⟩
      | _ => exact ⟨rfl, id⟩
  | deviceLane job =>
      cases job with
      | spawn | look =>
          simp only [Job.exec, DeviceLaneJob.exec, DeviceLaneJob.lookAtQueue]
          split <;> exact ⟨rfl, id⟩
      | _ => exact ⟨rfl, id⟩
  | participant job =>
      cases job with
      | deliver d =>
          simp only [Job.exec, ParticipantJob.exec]
          split <;> exact ⟨rfl, id⟩
      | _ =>
          simp only [Job.exec]
          rw [hub_participant _ _ _ rfl]
          exact lasting_rfl _
  | log record =>
      simp only [Job.exec, hub_log]
      exact lasting_rfl _
  | hold =>
      simp only [Job.exec]
      split <;> exact ⟨rfl, id⟩
  | _ => exact ⟨rfl, id⟩

theorem terminating_exec (m : Machine) (t : ThreadId) (job : Job) (on : m.hub.terminating = true) :
    (job.exec m t).1.hub.terminating = true := (lasting_exec m t job).terminating on

theorem running_before (running : (m.carry t job later).hub.terminating = false) : m.hub.terminating = false := by
  refine Bool.eq_false_iff.mpr fun ending => ?_
  rw [hub_carry, terminating_exec m t job ending] at running
  cases running

variable {config : Config} {hooks : List Hook} {past : List Moment}

def Job.relocks (t : ThreadId) (locks : List (Lock × ThreadId)) : Job → List (Lock × ThreadId)
  | .acquire lock => (lock, t) :: locks
  | .release lock => locks.filter (·.1 ≠ lock)
  | _ => locks

def Moment.notes (x : Moment) : Option (ThreadId × Entry) :=
  match x.job with
  | .log record => some (x.thread, .logged record)
  | .leave op => some (x.thread, .performed op (x.machine.reply x.thread))
  | .participant (.call id key call) => some (x.thread, .asked key id call)
  | .participant (.hear listener callback) => some (x.thread, .heard listener callback)
  | _ => none

def Job.newThread (h : Hub) : Job → Option String
  | .deviceLane .spawn => some h.config.deviceThread
  | .dataLane (.spawn c) => some (h.config.dataThread c)
  | _ => none

structure Machine.SameBooks (m m' : Machine) : Prop where
  locks : m'.locks = m.locks
  trace : m'.trace = m.trace
  system : m'.system = m.system

structure Moment.Books (x : Moment) (m : Machine) : Prop where
  locks : m.locks = x.job.relocks x.thread x.machine.locks
  trace : m.trace = x.notes.toList ++ x.machine.trace
  system : m.system = (x.job.newThread x.machine.hub).elim x.machine.system x.machine.system.advance

theorem books_spawnReporters (m : Machine) (device : DeviceInfo) (c : ConnectionHandle) (threads : Nat) :
    m.SameBooks (m.spawnReporters device c threads).2 := by
  induction threads generalizing m with
  | zero => exact ⟨rfl, rfl, rfl⟩
  | succ threads ih => exact ⟨(ih _).locks, (ih _).trace, (ih _).system⟩

theorem books_perform (m : Machine) (op : Op) : m.SameBooks (m.perform op).1 := by
  cases op with
  | registry op | deviceLane op | dataLanes op =>
      cases op <;> simp only [Machine.perform, Machine.performOwned, RegistryOp.exec, DeviceLaneOp.exec, DataLanesOp.exec] <;>
        (repeat' split) <;> exact ⟨rfl, rfl, rfl⟩
  | context name query =>
      simp only [Machine.perform]
      split
      · cases query <;> exact ⟨rfl, rfl, rfl⟩
      · exact ⟨rfl, rfl, rfl⟩
  | connectAtOnce threads device c =>
      simp only [Machine.perform, Machine.performOwned]
      split
      · exact books_spawnReporters m device c threads
      · exact ⟨rfl, rfl, rfl⟩
  | _ =>
      simp only [Machine.perform, Machine.performOwned, ContextQuery.exec]
      repeat' split
      all_goals exact ⟨rfl, rfl, rfl⟩

theorem books_exec (m : Machine) (t : ThreadId) (job : Job) (later : List Job) :
    Moment.Books ⟨m, t, job, later⟩ (job.exec m t).1 := by
  cases job with
  | perform op => exact ⟨(books_perform m op).locks, (books_perform m op).trace, (books_perform m op).system⟩
  | log record =>
      simp only [Job.exec, Machine.log]
      split <;> exact ⟨rfl, rfl, rfl⟩
  | hold =>
      simp only [Job.exec]
      split <;> exact ⟨rfl, rfl, rfl⟩
  | registry job =>
      cases job with
      | withdraw | replace =>
          simp only [Job.exec, RegistryJob.exec]
          split <;> exact ⟨rfl, rfl, rfl⟩
      | _ => exact ⟨rfl, rfl, rfl⟩
  | deviceLane job =>
      cases job with
      | spawn | look =>
          simp only [Job.exec, DeviceLaneJob.exec, DeviceLaneJob.lookAtQueue]
          split <;> exact ⟨rfl, rfl, rfl⟩
      | _ => exact ⟨rfl, rfl, rfl⟩
  | dataLane job =>
      cases job with
      | stop c =>
          simp only [Job.exec, DataLaneJob.exec, DataLanes.withdraw]
          cases m.hub.dataLanes.slots.get? c <;> exact ⟨rfl, rfl, rfl⟩
      | spawn | publish | push | look =>
          simp only [Job.exec, DataLaneJob.exec, DataLaneJob.lookAtLane]
          repeat' split
          all_goals exact ⟨rfl, rfl, rfl⟩
      | _ => exact ⟨rfl, rfl, rfl⟩
  | participant job =>
      cases job with
      | call | hear | deliver =>
          simp only [Job.exec, ParticipantJob.exec, ParticipantJob.callAdapter, ParticipantJob.callListener]
          repeat' split
          all_goals exact ⟨rfl, rfl, rfl⟩
      | _ => exact ⟨rfl, rfl, rfl⟩
  | hub job =>
      cases job with
      | raiseTermination | laneStarted =>
          simp only [Job.exec, HubJob.exec]
          repeat' split
          all_goals exact ⟨rfl, rfl, rfl⟩
      | _ => exact ⟨rfl, rfl, rfl⟩
  | _ => exact ⟨rfl, rfl, rfl⟩

theorem system_unwind : (m.unwind t later).system = m.system := by
  unfold Machine.unwind
  repeat' split
  all_goals rfl

theorem Run.stays {Q : Hub → Prop} (exec : ∀ m t job, Q m.hub → Q (Job.exec m t job).1.hub)
    (detach : ∀ h : Hub, Q h → Q { h with attached := false }) (run : Run config hooks past m) :
    ∀ x ∈ past, Q x.machine.hub → Q m.hub := by
  refine Run.induct (G := fun _ => True) (P := fun past m => ∀ x ∈ past, Q x.machine.hub → Q m.hub)
    ?construct ?assemble ?call ?client ?carry ?unwind run fun _ _ => trivial
  case construct | assemble => exact fun _ none => by cases none
  case call => exact fun _ _ before _ => before
  case client => exact fun _ _ _ before => before
  case carry =>
    intro past m t job later _ before _ _ _ _
    refine List.forall_mem_append.mpr ⟨fun x member here => ?_, List.forall_mem_singleton.mpr fun here => ?_⟩
    · exact exec m t job (before x member here)
    · exact exec m t job here
  case unwind =>
    intro past m t later _ before _ _
    have still : Q m.hub → Q (m.unwind t later).hub := fun here => by
      rcases hub_unwind m t later with hub | hub <;> rw [hub]
      · exact here
      · exact detach _ here
    exact List.forall_mem_append.mpr ⟨fun x member here => still (before x member here), List.forall_mem_singleton.mpr still⟩

theorem Run.terminating (run : Run config hooks past m) :
    ∀ x ∈ past, x.machine.hub.terminating = true → m.hub.terminating = true :=
  run.stays (Q := fun h => h.terminating = true) terminating_exec fun _ on => on

theorem Run.configured (run : Run config hooks past m) : m.hub.config = config := by
  refine Run.induct (G := fun _ => True) (P := fun _ m => m.hub.config = config)
    ?construct ?assemble ?call ?client ?carry ?unwind run fun _ _ => trivial
  case construct | assemble => exact rfl
  case call => exact fun _ _ before _ => before
  case client => exact fun _ _ _ before => before
  case carry => exact fun {_ m t job _} _ before _ _ _ _ => (lasting_exec m t job).config.trans before
  case unwind =>
    intro past m t later _ before _ _
    rcases hub_unwind m t later with hub | hub <;> rw [hub] <;> exact before

end TransportHub
