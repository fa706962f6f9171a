import TransportHub.Proofs.Agenda
/-!
The flow of control: for each kind of job, which jobs may leave it on an agenda. Counting jobs of one
kind over a run only has to look at the jobs they come from.
-/

set_option autoImplicit false

namespace TransportHub

def Job.leads (job : Job) : Job → Bool
  | .acquire .lifecycle => (job matches .perform .run | .perform (.addAdapter _) | .hub .raiseTermination)
  | .release .lifecycle =>
      (job matches .hub (.add _) | .hub (.claimNew ..) | .hub .run | .hub .laneStarted | .hub .claimAll
        | .hub .raiseTermination)
  | .acquire .laneMap =>
      (job matches .hub (.connect ..) | .perform (.report ..) | .perform (.contextReport ..)
        | .perform (.dataLanes _) | .dataLane (.spawn _))
  | .release .laneMap => (job matches .dataLane (.start _) | .dataLane (.stop _) | .dataLane (.publish ..))
  | .acquire .deviceQueue =>
      (job matches .hub .publishAggregate | .hub (.connectionStarted ..) | .hub (.disconnected ..)
        | .perform (.deviceLane _))
  | .release .deviceQueue => (job matches .deviceLane (.enqueue _))
  | .acquire .publish => (job matches .perform (.removeAdapter _) | .perform (.report ..) | .perform (.contextReport ..))
  | .release .publish => (job matches .registry (.withdraw ..) | .registry (.replace ..))
  | .acquire .registry =>
      (job matches .hub (.add _) | .hub .stopAdapters | .perform (.register _) | .perform (.removeAdapter _)
        | .perform (.report ..) | .perform (.contextReport ..) | .perform (.registry _))
  | .release .registry => (job matches .registry (.reserve ..) | .registry (.withdraw ..) | .registry (.replace ..))
  | .acquire .deviceWorker => (job matches .hub .run | .perform (.deviceLane _))
  | .release .deviceWorker => (job matches .deviceLane .start | .deviceLane .spawn)
  | .log (.lane _ (.panicked ..)) => false
  | .log _ | .answer _ => true
  | .panic =>
      (job matches .log _ | .participant (.call ..) | .participant (.hear ..) | .await _
        | .deviceLane .spawn | .dataLane (.spawn _))
  | .hold | .enter | .perform _ | .leave _ =>
      (job matches .log _ | .participant (.call ..) | .participant (.hear ..))
  | .held => (job matches .hold)
  | .resume => (job matches .log _)
  | .join .. => (job matches .deviceLane .join | .dataLane (.publish ..) | .dataLane .reap | .dataLane (.close _))
  | .await _ => (job matches .perform (.connectAtOnce ..))
  | .registry (.reserve ..) => (job matches .hub (.add _) | .perform (.register _))
  | .registry (.enrol ..) => (job matches .registry (.reserve ..))
  | .registry (.withdraw ..) =>
      (job matches .hub .stopAdapters | .perform (.removeAdapter _) | .perform (.registry _))
  | .registry (.replace ..) =>
      (job matches .perform (.report ..) | .perform (.contextReport ..) | .perform (.registry _))
  | .registry (.store ..) => (job matches .registry (.replace ..))
  | .deviceLane (.enqueue _) =>
      (job matches .hub .publishAggregate | .hub (.connectionStarted ..) | .hub (.disconnected ..)
        | .perform (.deviceLane _))
  | .deviceLane .discard | .deviceLane (.push _) => (job matches .deviceLane (.enqueue _))
  | .deviceLane .start => (job matches .hub .run | .perform (.deviceLane _))
  | .deviceLane .spawn => (job matches .deviceLane .start)
  | .deviceLane .wake | .deviceLane .join => (job matches .hub .stopAdapters | .perform (.deviceLane _))
  | .deviceLane .look => (job matches .deviceLane .look)
  | .dataLane (.start _) => (job matches .hub (.connect ..) | .perform (.dataLanes _))
  | .dataLane .reap | .dataLane (.spawn _) => (job matches .dataLane (.start _))
  | .dataLane (.publish ..) => (job matches .dataLane (.spawn _))
  | .dataLane (.stop _) =>
      (job matches .perform (.report ..) | .perform (.contextReport ..) | .perform (.dataLanes _))
  | .dataLane (.requestStop _) | .dataLane (.retire _) =>
      (job matches .dataLane (.publish ..) | .dataLane (.stop _))
  | .dataLane (.find ..) =>
      (job matches .perform (.report ..) | .perform (.contextReport ..) | .perform (.dataLanes _)
        | .participant (.complete ..))
  | .dataLane (.push ..) => (job matches .dataLane (.find ..))
  | .dataLane .orphan => (job matches .dataLane (.find ..) | .dataLane (.push ..))
  | .dataLane (.close _) => (job matches .hub .stopAdapters | .perform (.dataLanes _))
  | .dataLane (.wake _) => (job matches .dataLane (.close _))
  | .dataLane (.look _) | .dataLane (.snapshot ..) => (job matches .dataLane (.look _))
  | .dataLane (.handOver ..) => (job matches .dataLane (.snapshot ..))
  | .dataLane .mismatch => (job matches .dataLane (.handOver ..))
  | .participant (.call _ _ call) =>
      match call with
      | .run => (job matches .hub (.claimNew ..) | .hub .claimAll)
      | .stop => (job matches .hub (.finishStart ..) | .registry (.withdraw ..))
      | .scan => (job matches .hub .scan)
      | .request .. => (job matches .hub (.request ..))
      | .send .. => (job matches .hub (.forward ..))
  | .participant (.returned ..) | .participant (.complete ..) => (job matches .participant (.call ..))
  | .participant .reported => (job matches .perform (.contextReport ..) | .participant (.complete ..))
  | .participant (.mention ..) =>
      (job matches .hub (.claimNew ..) | .hub .claimAll | .hub (.ran ..) | .registry (.withdraw ..))
  | .participant (.hear ..) | .participant (.delivered _) => (job matches .participant (.deliver _))
  | .participant (.deliver _) =>
      (job matches .deviceLane .look | .dataLane (.handOver ..) | .participant (.delivered _))
  | .hub (.add _) => (job matches .perform (.addAdapter _))
  | .hub (.claimNew ..) => (job matches .registry (.reserve ..))
  | .hub (.ran ..) | .hub (.finishStart ..) => (job matches .hub (.claimNew ..) | .hub .claimAll)
  | .hub .publishList => (job matches .registry (.withdraw ..) | .registry (.replace ..))
  | .hub .publishAggregate => (job matches .hub .publishList)
  | .hub .run => (job matches .perform .run)
  | .hub .laneStarted => (job matches .hub .run)
  | .hub .claimAll => (job matches .hub .laneStarted)
  | .hub .scan => (job matches .perform .scan)
  | .hub (.request ..) => (job matches .perform (.request ..))
  | .hub (.send ..) => (job matches .perform (.send ..))
  | .hub (.findDevice ..) => (job matches .hub (.send ..))
  | .hub (.findOwners ..) => (job matches .hub (.findDevice ..))
  | .hub (.forward ..) => (job matches .hub (.findOwners ..))
  | .hub (.sent _) => (job matches .hub (.forward ..))
  | .hub (.connect ..) => (job matches .perform (.report ..) | .perform (.contextReport ..))
  | .hub (.recordConnection ..) | .hub (.connectionStarted ..) => (job matches .hub (.connect ..))
  | .hub (.forgetConnection _) =>
      (job matches .perform (.report ..) | .perform (.contextReport ..) | .hub (.connectionStarted ..))
  | .hub (.disconnected ..) => (job matches .perform (.report ..) | .perform (.contextReport ..))
  | .hub .raiseTermination => (job matches .perform .shutdown | .perform .drop)
  | .hub .stopAdapters => (job matches .hub .raiseTermination)
  | .hub .clearConnections | .hub .halt => (job matches .hub .stopAdapters)
  | .hub .establish => false
  | .hub .detach => (job matches .perform .drop)

/-! ### Origins

The flow read backwards: what a thread did when it came to a job of some kind. -/

section Origins

variable {job : Job}

theorem join_origin {lane : String} {w : ThreadId} (leads : job.leads (.join lane w) = true) : job = .deviceLane .join ∨
    (∃ c slot, job = .dataLane (.publish c slot)) ∨ job = .dataLane .reap ∨ ∃ join, job = .dataLane (.close join) := by
  dsimp only [Job.leads] at leads
  split at leads
  · exact .inl rfl
  · exact .inr (.inl ⟨_, _, rfl⟩)
  · exact .inr (.inr (.inl rfl))
  · exact .inr (.inr (.inr ⟨_, rfl⟩))
  · cases leads

theorem await_origin {threads : List ThreadId} (leads : job.leads (.await threads) = true) :
    ∃ n d c, job = .perform (.connectAtOnce n d c) := by
  dsimp only [Job.leads] at leads
  split at leads
  · exact ⟨_, _, _, rfl⟩
  · cases leads

theorem reserve_origin {deviceType : String} {adapter : AdapterKey} {errand : Errand}
    (leads : job.leads (.registry (.reserve deviceType adapter errand)) = true) :
    (∃ adapter, job = .hub (.add adapter)) ∨ ∃ ref, job = .perform (.register ref) := by
  dsimp only [Job.leads] at leads
  split at leads
  · exact .inl ⟨_, rfl⟩
  · exact .inr ⟨_, rfl⟩
  · cases leads

theorem enrol_origin {id : AdapterId} {deviceType : String} {adapter : AdapterKey}
    (leads : job.leads (.registry (.enrol id deviceType adapter)) = true) :
    ∃ deviceType adapter errand, job = .registry (.reserve deviceType adapter errand) := by
  dsimp only [Job.leads] at leads
  split at leads
  · exact ⟨_, _, _, rfl⟩
  · cases leads

theorem store_origin {id : AdapterId} {devices : List DiscoveredDevice}
    (leads : job.leads (.registry (.store id devices)) = true) :
    ∃ id devices errand, job = .registry (.replace id devices errand) := by
  dsimp only [Job.leads] at leads
  split at leads
  · exact ⟨_, _, _, rfl⟩
  · cases leads

theorem enqueue_origin {callback : DeviceCallback} (leads : job.leads (.deviceLane (.enqueue callback)) = true) :
    job = .hub .publishAggregate ∨ (∃ d c, job = .hub (.connectionStarted d c)) ∨ (∃ d c, job = .hub (.disconnected d c)) ∨
      ∃ op, job = .perform (.deviceLane op) := by
  dsimp only [Job.leads] at leads
  split at leads
  · exact .inl rfl
  · exact .inr (.inl ⟨_, _, rfl⟩)
  · exact .inr (.inr (.inl ⟨_, _, rfl⟩))
  · exact .inr (.inr (.inr ⟨_, rfl⟩))
  · cases leads

theorem discard_origin (leads : job.leads (.deviceLane .discard) = true) :
    ∃ callback, job = .deviceLane (.enqueue callback) := by
  dsimp only [Job.leads] at leads
  split at leads
  · exact ⟨_, rfl⟩
  · cases leads

theorem devicePush_origin {callback : DeviceCallback} (leads : job.leads (.deviceLane (.push callback)) = true) :
    ∃ callback, job = .deviceLane (.enqueue callback) := by
  dsimp only [Job.leads] at leads
  split at leads
  · exact ⟨_, rfl⟩
  · cases leads

theorem deviceSpawn_origin (leads : job.leads (.deviceLane .spawn) = true) : job = .deviceLane .start := by
  dsimp only [Job.leads] at leads
  split at leads
  · rfl
  · cases leads

theorem deviceLook_origin (leads : job.leads (.deviceLane .look) = true) : job = .deviceLane .look := by
  dsimp only [Job.leads] at leads
  split at leads
  · rfl
  · cases leads

theorem publish_origin {c : ConnectionHandle} {slot : DataLanes.Slot} (leads : job.leads (.dataLane (.publish c slot)) = true) :
    ∃ c, job = .dataLane (.spawn c) := by
  dsimp only [Job.leads] at leads
  split at leads
  · exact ⟨_, rfl⟩
  · cases leads

theorem requestStop_origin {id : LaneId} (leads : job.leads (.dataLane (.requestStop id)) = true) :
    (∃ c slot, job = .dataLane (.publish c slot)) ∨ ∃ c, job = .dataLane (.stop c) := by
  dsimp only [Job.leads] at leads
  split at leads
  · exact .inl ⟨_, _, rfl⟩
  · exact .inr ⟨_, rfl⟩
  · cases leads

theorem retire_origin {w : ThreadId} (leads : job.leads (.dataLane (.retire w)) = true) :
    (∃ c slot, job = .dataLane (.publish c slot)) ∨ ∃ c, job = .dataLane (.stop c) := by
  dsimp only [Job.leads] at leads
  split at leads
  · exact .inl ⟨_, _, rfl⟩
  · exact .inr ⟨_, rfl⟩
  · cases leads

theorem dataPush_origin {id : LaneId} {c : ConnectionHandle} {callback : DataCallback}
    (leads : job.leads (.dataLane (.push id c callback)) = true) :
    ∃ c callback, job = .dataLane (.find c callback) := by
  dsimp only [Job.leads] at leads
  split at leads
  · exact ⟨_, _, rfl⟩
  · cases leads

theorem wake_origin {id : LaneId} (leads : job.leads (.dataLane (.wake id)) = true) : ∃ join, job = .dataLane (.close join) := by
  dsimp only [Job.leads] at leads
  split at leads
  · exact ⟨_, rfl⟩
  · cases leads

theorem dataLook_origin {id : LaneId} (leads : job.leads (.dataLane (.look id)) = true) : ∃ id, job = .dataLane (.look id) := by
  dsimp only [Job.leads] at leads
  split at leads
  · exact ⟨_, rfl⟩
  · cases leads

theorem snapshot_origin {c : ConnectionHandle} {batch : List DataCallback}
    (leads : job.leads (.dataLane (.snapshot c batch)) = true) :
    ∃ id, job = .dataLane (.look id) := by
  dsimp only [Job.leads] at leads
  split at leads
  · exact ⟨_, rfl⟩
  · cases leads

theorem handOver_origin {c : ConnectionHandle} {callback : DataCallback} {listeners : List ListenerId}
    (leads : job.leads (.dataLane (.handOver c callback listeners)) = true) :
    ∃ c batch, job = .dataLane (.snapshot c batch) := by
  dsimp only [Job.leads] at leads
  split at leads
  · exact ⟨_, _, rfl⟩
  · cases leads

theorem mismatch_origin (leads : job.leads (.dataLane .mismatch) = true) :
    ∃ c callback listeners, job = .dataLane (.handOver c callback listeners) := by
  dsimp only [Job.leads] at leads
  split at leads
  · exact ⟨_, _, _, rfl⟩
  · cases leads

theorem hear_origin {id : ListenerId} {callback : Callback} (leads : job.leads (.participant (.hear id callback)) = true) :
    ∃ d, job = .participant (.deliver d) := by
  dsimp only [Job.leads] at leads
  split at leads
  · exact ⟨_, rfl⟩
  · cases leads

theorem delivered_origin {d : Delivery} (leads : job.leads (.participant (.delivered d)) = true) :
    ∃ d, job = .participant (.deliver d) := by
  dsimp only [Job.leads] at leads
  split at leads
  · exact ⟨_, rfl⟩
  · cases leads

theorem deliver_origin {d : Delivery} (leads : job.leads (.participant (.deliver d)) = true) :
    job = .deviceLane .look ∨ (∃ c callback listeners, job = .dataLane (.handOver c callback listeners)) ∨
      ∃ d, job = .participant (.delivered d) := by
  dsimp only [Job.leads] at leads
  split at leads
  · exact .inl rfl
  · exact .inr (.inl ⟨_, _, _, rfl⟩)
  · exact .inr (.inr ⟨_, rfl⟩)
  · cases leads

theorem laneStarted_origin (leads : job.leads (.hub .laneStarted) = true) : job = .hub .run := by
  dsimp only [Job.leads] at leads
  split at leads
  · rfl
  · cases leads

theorem recordConnection_origin {d : DeviceInfo} {c : ConnectionHandle} (leads : job.leads (.hub (.recordConnection d c)) = true) :
    ∃ d c, job = .hub (.connect d c) := by
  dsimp only [Job.leads] at leads
  split at leads
  · exact ⟨_, _, rfl⟩
  · cases leads

theorem connectionStarted_origin {d : DeviceInfo} {c : ConnectionHandle} (leads : job.leads (.hub (.connectionStarted d c)) = true) :
    ∃ d c, job = .hub (.connect d c) := by
  dsimp only [Job.leads] at leads
  split at leads
  · exact ⟨_, _, rfl⟩
  · cases leads

theorem stopAdapters_origin (leads : job.leads (.hub .stopAdapters) = true) : job = .hub .raiseTermination := by
  dsimp only [Job.leads] at leads
  split at leads
  · rfl
  · cases leads

theorem clearConnections_origin (leads : job.leads (.hub .clearConnections) = true) : job = .hub .stopAdapters := by
  dsimp only [Job.leads] at leads
  split at leads
  · rfl
  · cases leads

theorem halt_origin (leads : job.leads (.hub .halt) = true) : job = .hub .stopAdapters := by
  dsimp only [Job.leads] at leads
  split at leads
  · rfl
  · cases leads

theorem detach_origin (leads : job.leads (.hub .detach) = true) : job = .perform .drop := by
  dsimp only [Job.leads] at leads
  split at leads
  · rfl
  · cases leads

end Origins

def Every (p : Job → Bool) (agenda : List Job) : Prop := ∀ job ∈ agenda, p job = true

@[simp] theorem every_nil (p : Job → Bool) : Every p [] := fun _ member => by cases member

@[simp] theorem every_cons (p : Job → Bool) (job : Job) (rest : List Job) :
    Every p (job :: rest) ↔ p job = true ∧ Every p rest := List.forall_mem_cons

@[simp] theorem every_append (p : Job → Bool) (front back : List Job) :
    Every p (front ++ back) ↔ Every p front ∧ Every p back := List.forall_mem_append

@[simp] theorem every_map {α : Type} (p : Job → Bool) (f : α → Job) (l : List α) :
    Every p (l.map f) ↔ ∀ a ∈ l, p (f a) = true := List.forall_mem_map

@[simp] theorem every_flatMap {α : Type} (p : Job → Bool) (f : α → List Job) (l : List α) :
    Every p (l.flatMap f) ↔ ∀ a ∈ l, Every p (f a) := List.forall_mem_flatMap

theorem every_one {p : Job → Bool} {job : Job} (here : p job = true) : Every p [job] :=
  (every_cons ..).mpr ⟨here, every_nil _⟩

theorem leads_nested {job : Job} (op : Op)
    (source : job matches .log _ | .participant (.call ..) | .participant (.hear ..)) :
    Every job.leads (Job.nested op) := by
  have front : ∀ j, (j matches .hold | .enter | .perform _ | .leave _ | .panic) → job.leads j = true := by
    intro j kind
    cases job with
    | log => cases j <;> first | rfl | cases kind
    | participant p =>
        cases p with
        | call | hear => cases j <;> first | rfl | cases kind
        | _ => cases source
    | _ => cases source
  unfold Job.nested
  split
  · exact every_one (front _ rfl)
  · exact every_one (front _ rfl)
  · simp only [every_cons, every_nil, and_true]
    exact ⟨front _ rfl, front _ rfl, front _ rfl⟩

theorem leads_report {job : Job} (id : AdapterId) (report : Report)
    (source : job matches .perform (.report ..) | .perform (.contextReport ..)) :
    Every job.leads (Plan.report id report) := by
  cases job with
  | perform op =>
      cases op with
      | report | contextReport =>
          cases report <;> simp [Plan.report, Plan.replace, Plan.stopLane, Plan.enqueueData] <;>
            and_intros <;> rfl
      | _ => cases source
  | _ => cases source

theorem leads_registry (m : Machine) (job : RegistryJob) : Every (Job.registry job).leads (job.exec m).2 := by
  cases job with
  | reserve deviceType adapter errand =>
      cases errand <;> simp [RegistryJob.exec] <;> and_intros <;> rfl
  | withdraw id errand =>
      simp only [RegistryJob.exec]
      split <;> cases errand <;> simp only [RegistryJob.afterWithdrawal, Plan.stopWithdrawn] <;>
        (repeat' split) <;> simp <;> and_intros <;> rfl
  | replace id devices errand =>
      simp only [RegistryJob.exec]
      split <;> cases errand <;> simp [RegistryJob.afterReplacement] <;> and_intros <;> rfl
  | _ => exact every_nil _

theorem leads_deviceLane (m : Machine) (job : DeviceLaneJob) :
    Every (Job.deviceLane job).leads (job.exec m).2 := by
  cases job with
  | join =>
      simp only [DeviceLaneJob.exec]
      cases m.hub.deviceLane.worker <;> simp
      rfl
  | _ =>
      simp only [DeviceLaneJob.exec, DeviceLaneJob.lookAtQueue]
      repeat' split
      all_goals simp <;> and_intros <;> intros <;> rfl

theorem leads_dataLane (m : Machine) (job : DataLaneJob) : Every (Job.dataLane job).leads (job.exec m).2 := by
  cases job with
  | close join =>
      cases join <;> simp [DataLaneJob.exec] <;> and_intros <;> intros <;> rfl
  | _ =>
      simp only [DataLaneJob.exec, DataLaneJob.lookAtLane, DataLaneJob.refuse, DataLaneJob.deliverOne]
      repeat' split
      all_goals simp <;> and_intros <;> intros <;> rfl

theorem leads_hub (m : Machine) (t : ThreadId) (job : HubJob) : Every (Job.hub job).leads (job.exec m t).2 := by
  cases job with
  | claimNew id adapter =>
      simp only [HubJob.exec]
      cases (if m.hub.running then m.hub.registry.beginStart id else (none, m.hub.registry)).1 <;>
        simp [Plan.runAdapter] <;> and_intros <;> rfl
  | ran id adapter =>
      simp only [HubJob.exec]
      cases (m.reply t).error? <;> simp
      rfl
  | stopAdapters =>
      simp only [HubJob.exec, HubJob.shutDownAll]
      cases m.hub.config.joinWorkers <;> simp [Plan.withdraw] <;> and_intros <;> intros <;>
        (try and_intros) <;> rfl
  | _ =>
      simp only [HubJob.exec]
      repeat' split
      all_goals simp [Plan.register, Plan.runAdapter, Plan.enqueueDevice, HubJob.refuseSend,
        Plan.startLane, Plan.startDeviceLane] <;> and_intros <;> intros <;> (try and_intros) <;> rfl

theorem leads_participant (m : Machine) (t : ThreadId) (job : ParticipantJob) :
    Every (Job.participant job).leads (job.exec m t).2 := by
  cases job with
  | call id key c =>
      simp only [ParticipantJob.exec, ParticipantJob.callAdapter]
      split
      · cases (ParticipantJob.minimalAnswer? c).filter fun _ => _ with
        | some reply =>
            simp
            exact ⟨rfl, rfl⟩
        | none =>
            simp only [every_append, every_flatMap]
            refine ⟨⟨fun op _ => leads_nested op rfl, ?_⟩, every_one rfl⟩
            unfold ParticipantJob.conclude
            repeat' split
            all_goals (simp; and_intros <;> rfl)
      · exact every_nil _
  | hear id callback =>
      simp only [ParticipantJob.exec, ParticipantJob.callListener]
      repeat' split
      · exact every_nil _
      · exact (every_flatMap ..).mpr fun op _ => leads_nested op rfl
      · exact every_nil _
  | complete | deliver =>
      simp only [ParticipantJob.exec, ParticipantJob.reportThrough, Plan.report, Plan.enqueueData]
      repeat' split
      all_goals simp <;> and_intros <;> rfl
  | mention | delivered => exact every_one rfl
  | returned | reported => exact every_nil _

theorem leads_perform (m : Machine) (op : Op) : Every (Job.perform op).leads (m.perform op).2 := by
  cases op with
  | report source r =>
      simp only [Machine.perform, Machine.performOwned]
      split
      · exact (every_append ..).mpr ⟨leads_report source r rfl, every_one rfl⟩
      · exact every_one rfl
  | contextReport name r =>
      simp only [Machine.perform, ParticipantJob.reportThrough]
      repeat' split
      · simp only [every_append, every_cons, every_nil, and_true]
        exact ⟨⟨leads_report _ r rfl, rfl⟩, rfl⟩
      · exact (every_append ..).mpr ⟨every_one rfl, every_one rfl⟩
      · exact every_one rfl
  | registry op =>
      cases op <;> simp only [Machine.perform, Machine.performOwned, RegistryOp.exec] <;> split <;>
        simp [Plan.withdraw, Plan.replace] <;> and_intros <;> rfl
  | deviceLane op =>
      cases op <;> simp only [Machine.perform, Machine.performOwned, DeviceLaneOp.exec] <;> split <;>
        simp [Plan.startDeviceLane, Plan.enqueueDevice] <;> and_intros <;> rfl
  | dataLanes op =>
      cases op <;> simp only [Machine.perform, Machine.performOwned, DataLanesOp.exec] <;> split <;>
        simp [Plan.startLane, Plan.stopLane, Plan.enqueueData] <;> and_intros <;> rfl
  | context name query =>
      simp only [Machine.perform]
      split
      · cases query <;> exact every_one rfl
      · exact every_one rfl
  | setType | release =>
      simp only [Machine.perform]
      repeat' split
      all_goals exact every_one rfl
  | _ =>
      simp only [Machine.perform, Machine.performOwned, ContextQuery.exec]
      split <;> simp [Plan.addAdapter, Plan.removeAdapter, Plan.run, Plan.register, Plan.withdraw] <;>
        and_intros <;> rfl

theorem leads_exec (m : Machine) (t : ThreadId) (job : Job) : Every job.leads (job.exec m t).2 := by
  cases job with
  | log record =>
      simp only [Job.exec, Machine.log]
      split
      · simp only [every_append, every_flatMap]
        exact ⟨fun op _ => leads_nested op rfl, every_one rfl⟩
      · exact every_nil _
  | hold | await | join =>
      simp only [Job.exec]
      repeat' split
      all_goals first | exact every_nil _ | exact every_one rfl
  | perform op => exact leads_perform m op
  | registry job => exact leads_registry m job
  | deviceLane job => exact leads_deviceLane m job
  | dataLane job => exact leads_dataLane m job
  | participant job => exact leads_participant m t job
  | hub job => exact leads_hub m t job
  | _ => exact every_nil _

end TransportHub
