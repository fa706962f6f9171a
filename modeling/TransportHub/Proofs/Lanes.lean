import TransportHub.Proofs.Flow
import TransportHub.Proofs.Unchanged
/-!
Single data lanes: what a step makes of a lane that is there already, how a lane comes into being, and
that callbacks wait on the lane of the connection they are addressed to.
-/

set_option autoImplicit false

namespace TransportHub

def DataLane.Look.batch : DataLane.Look → List DataCallback
  | .take batch => batch
  | _ => []

def DeviceLane.Look.batch : DeviceLane.Look → List DeviceCallback
  | .take batch _ => batch
  | _ => []

variable {config : Config} {hooks : List Hook} {past : List Moment} {m : Machine} {t u : ThreadId}
  {job : Job} {later : List Job} {id : LaneId} {lane lane' : DataLane} {c : ConnectionHandle}

def Job.turn (m : Machine) (id : LaneId) (lane : DataLane) : Job → DataLane
  | .dataLane (.requestStop other) => if other = id then lane.requestStop else lane
  | .dataLane (.wake other) => if other = id then lane.wake else lane
  | .dataLane (.push other _ callback) => if other = id ∧ lane.accepts then lane.push callback else lane
  | .dataLane (.look other) => if other = id then (lane.look m.hub.terminating).2 else lane
  | _ => lane

theorem lane_change (d : DataLanes) (other id : LaneId) (change : DataLane → DataLane)
    (known : d.lane? id = some lane) :
    (d.changeLane other change).lane? id = some (if other = id then change lane else lane) := by
  unfold DataLanes.lane? DataLanes.changeLane at *
  rw [List.getElem?_modify, known]
  cases other
  cases id
  simp only [LaneId.mk.injEq]
  rfl

theorem lane_dataLane (m : Machine) (job : DataLaneJob) (known : m.hub.dataLanes.lane? id = some lane) :
    (job.exec m).1.hub.dataLanes.lane? id = some ((Job.dataLane job).turn m id lane) := by
  cases job with
  | requestStop other | wake other => exact lane_change m.hub.dataLanes other id _ known
  | push other c callback =>
      simp only [DataLaneJob.exec, Job.turn]
      by_cases same : other = id
      · subst same
        rw [known, Option.any_some]
        cases accepted : lane.accepts with
        | true =>
          have := lane_change m.hub.dataLanes other other (·.push callback) known
          simpa using this
        | false => simpa using known
      · split
        · have := lane_change m.hub.dataLanes other id (·.push callback) known
          simpa [same] using this
        · simpa [same] using known
  | look other =>
      simp only [DataLaneJob.exec, DataLaneJob.lookAtLane, Job.turn]
      by_cases same : other = id
      · subst same
        rw [known]
        have := lane_change m.hub.dataLanes other other (fun _ => (lane.look m.hub.terminating).2) known
        simp only [if_true] at this ⊢
        split <;> simpa using this
      · cases found : m.hub.dataLanes.lane? other with
        | none => simpa [same] using known
        | some seen =>
          have := lane_change m.hub.dataLanes other id (fun _ => (seen.look m.hub.terminating).2) known
          simp only [if_neg same] at this ⊢
          split <;> simpa using this
  | spawn c =>
      simp only [DataLaneJob.exec, Job.turn]
      split
      · simp [DataLanes.openLane, Machine.spawn, DataLanes.lane?] at known ⊢
        exact List.getElem?_append_left (List.getElem?_eq_some_iff.mp known).1 ▸ known
      · exact known
      · exact known
  | publish c slot =>
      simp only [DataLaneJob.exec]
      repeat' split
      all_goals exact known
  | stop c =>
      simp only [DataLaneJob.exec, DataLanes.withdraw]
      cases m.hub.dataLanes.slots.get? c <;> exact known
  | _ => exact known

theorem lane_exec (m : Machine) (t : ThreadId) (job : Job) (known : m.hub.dataLanes.lane? id = some lane) :
    (job.exec m t).1.hub.dataLanes.lane? id = some (job.turn m id lane) := by
  rcases dataLane_or job with ⟨j, rfl⟩ | apart
  · exact lane_dataLane m j known
  · have same := (dataLanes_exec m t job apart).1
    have still : job.turn m id lane = lane := by
      cases job with
      | dataLane j => exact absurd rfl (apart j)
      | _ => rfl
    rw [still]
    unfold DataLanes.lane? at *
    rw [same, known]

theorem lane_new (m : Machine) (t : ThreadId) (job : Job) (unknown : m.hub.dataLanes.lane? id = none)
    (found : (job.exec m t).1.hub.dataLanes.lane? id = some lane') :
    ∃ c, job = .dataLane (.spawn c) ∧ m.system.answer (m.hub.config.dataThread c) = .started ∧
      id.val = m.hub.dataLanes.lanes.length ∧ lane' = { connection := c } := by
  have outside : m.hub.dataLanes.lanes.length ≤ id.val := List.getElem?_eq_none_iff.mp unknown
  have stuck : (job.exec m t).1.hub.dataLanes.lanes.length ≤ m.hub.dataLanes.lanes.length → False := by
    intro short
    have inside := (List.getElem?_eq_some_iff.mp found).1
    omega
  rcases dataLane_or job with ⟨j, rfl⟩ | apart
  · cases j with
    | spawn c =>
        simp only [Job.exec, DataLaneJob.exec] at found
        split at found
        · rename_i started
          simp only [DataLanes.lane?, DataLanes.openLane, Machine.spawn, Machine.setDataLanes] at found
          have here : id.val = m.hub.dataLanes.lanes.length := by
            have inside := (List.getElem?_eq_some_iff.mp found).1
            simp only [List.length_append, List.length_cons, List.length_nil] at inside
            omega
          rw [here, List.getElem?_concat_length] at found
          exact ⟨c, rfl, started, here, (Option.some.inj found).symm⟩
        · exact absurd (unknown.symm.trans found) (fun none => by cases none)
        · exact absurd (unknown.symm.trans found) (fun none => by cases none)
    | publish | push | look =>
        simp only [Job.exec, DataLaneJob.exec, DataLaneJob.lookAtLane] at stuck
        repeat' split at stuck
        all_goals simp [DataLanes.changeLane, DataLanes.publish] at stuck
    | stop c =>
        simp only [Job.exec, DataLaneJob.exec, DataLanes.withdraw] at stuck
        cases known : m.hub.dataLanes.slots.get? c <;> simp [known] at stuck
    | _ =>
        simp [Job.exec, DataLaneJob.exec, DataLanes.changeLane, DataLanes.reap, DataLanes.retire,
          DataLanes.close] at stuck
  · exact absurd (Nat.le_of_eq (congrArg _ (dataLanes_exec m t job apart).1)) stuck

theorem turn_connection (m : Machine) (id : LaneId) (lane : DataLane) (job : Job) :
    (job.turn m id lane).connection = lane.connection := by
  cases job with
  | dataLane job =>
      cases job with
      | requestStop | wake | push =>
          simp only [Job.turn]
          split <;> rfl
      | look other =>
          simp only [Job.turn]
          split
          · rcases DataLane.look_cases m.hub.terminating lane with
              ⟨_, _, seen⟩ | ⟨_, _, seen⟩ | ⟨_, _, _, seen⟩ | ⟨_, _, seen⟩ <;> rw [seen]
          · rfl
      | _ => rfl
  | _ => rfl

-- The lane with this identity belongs to this connection.
def Hub.serves (h : Hub) (id : LaneId) (c : ConnectionHandle) : Prop :=
  ∃ lane, h.dataLanes.lane? id = some lane ∧ lane.connection = c

theorem serves_exec (m : Machine) (t : ThreadId) (job : Job) (serves : m.hub.serves id c) :
    (job.exec m t).1.hub.serves id c := by
  obtain ⟨lane, known, same⟩ := serves
  exact ⟨_, lane_exec m t job known, (turn_connection m id lane job).trans same⟩

structure Hub.Aligned (h : Hub) : Prop where
  slots : ∀ c slot, h.dataLanes.slots.get? c = some slot → h.serves slot.lane c
  items : ∀ id lane, h.dataLanes.lane? id = some lane → ∀ callback ∈ lane.items, callback.connection = lane.connection

def Job.addressed (h : Hub) : Job → Prop
  | .dataLane (.find c callback) | .dataLane (.handOver c callback _) => callback.connection = c
  | .dataLane (.push id c callback) => callback.connection = c ∧ h.serves id c
  | .dataLane (.publish c slot) => h.serves slot.lane c
  | .dataLane (.snapshot c batch) => ∀ callback ∈ batch, callback.connection = c
  | .dataLane .mismatch => False
  | _ => True

theorem addressed_source {h : Hub} {j : Job} (leads : job.leads j = true) (here : ¬ j.addressed h) :
    (∃ k, job = .dataLane k ∧ (k matches .find .. | .spawn _ | .look _ | .snapshot .. | .handOver ..)) ∨
      (∃ source report, job = .perform (.report source report)) ∨
      (∃ name report, job = .perform (.contextReport name report)) ∨
      (∃ op, job = .perform (.dataLanes op)) ∨
      ∃ key c sequence status, job = .participant (.complete key c sequence status) := by
  cases j with
  | dataLane j =>
      cases j with
      | find | push | publish | snapshot | handOver | mismatch =>
          dsimp only [Job.leads] at leads
          split at leads <;> first
            | exact .inl ⟨_, rfl, rfl⟩
            | exact .inr (.inl ⟨_, _, rfl⟩)
            | exact .inr (.inr (.inl ⟨_, _, rfl⟩))
            | exact .inr (.inr (.inr (.inl ⟨_, rfl⟩)))
            | exact .inr (.inr (.inr (.inr ⟨_, _, _, _, rfl⟩)))
            | cases leads
      | _ => exact absurd trivial here
  | _ => exact absurd trivial here

theorem items_turn (aligned : m.hub.Aligned) (addressed : job.addressed m.hub) (known : m.hub.dataLanes.lane? id = some lane) :
    ∀ callback ∈ (job.turn m id lane).items, callback.connection = lane.connection := by
  have before := aligned.items id lane known
  cases job with
  | dataLane job =>
      cases job with
      | requestStop | wake =>
          simp only [Job.turn]
          split <;> exact before
      | push other c callback =>
          simp only [Job.turn]
          split
          · rename_i here
            obtain ⟨same, seen, there, connection⟩ := addressed
            rw [here.1, known] at there
            cases there
            intro cb member
            rcases List.mem_append.mp member with member | member
            · exact before cb member
            · cases List.mem_singleton.mp member
              exact same.trans connection.symm
          · exact before
      | look other =>
          simp only [Job.turn]
          split
          · rcases DataLane.look_cases m.hub.terminating lane with
              ⟨_, _, seen⟩ | ⟨_, _, seen⟩ | ⟨_, _, _, seen⟩ | ⟨_, _, seen⟩ <;> rw [seen] <;>
              first | exact before | exact fun _ none => by cases none
          · exact before
      | _ => exact before
  | _ => exact before

theorem aligned_exec (m : Machine) (t : ThreadId) (job : Job) (aligned : m.hub.Aligned) (addressed : job.addressed m.hub) :
   (job.exec m t).1.hub.Aligned := by
  constructor
  · intro c slot found
    rcases dataLane_or job with ⟨j, rfl⟩ | apart
    · have old : m.hub.dataLanes.slots.get? c = some slot → ((Job.dataLane j).exec m t).1.hub.serves slot.lane c :=
        fun known => serves_exec m t _ (aligned.slots c slot known)
      cases j with
      | publish other new =>
        simp only [Job.exec, DataLaneJob.exec] at found
        repeat' split at found
        · exact old found
        · exact old found
        · simp only [Machine.setDataLanes, DataLanes.publish, Table.get?_insert] at found
          split at found
          · rename_i same
            cases found
            exact serves_exec m t _ (same ▸ addressed)
          · exact old found
      | stop other =>
        simp only [Job.exec, DataLaneJob.exec, DataLanes.withdraw] at found
        cases known : m.hub.dataLanes.slots.get? other <;> simp [known, Table.get?_erase] at found
        · exact old found
        · exact old found.2
      | close join => cases found
      | spawn | push | look =>
        refine old ?_
        simp only [Job.exec, DataLaneJob.exec, DataLaneJob.lookAtLane] at found
        repeat' split at found
        all_goals exact found
      | _ => exact old found
    · rw [(dataLanes_exec m t job apart).2.1] at found
      exact serves_exec m t job (aligned.slots c slot found)
  · intro id lane' found
    cases known : m.hub.dataLanes.lane? id with
    | some lane =>
        rw [lane_exec m t job known] at found
        cases found
        rw [turn_connection]
        exact items_turn aligned addressed known
    | none =>
        obtain ⟨c, _, _, _, rfl⟩ := lane_new m t job known found
        exact fun _ none => by cases none

theorem addressed_report (h : Hub) (source : AdapterId) (report : Report) :
    ∀ j ∈ Plan.report source report, j.addressed h := by
  cases report <;> simp [Plan.report, Plan.replace, Plan.stopLane, Plan.enqueueData, Job.addressed, Job.logHub,
    DataCallback.connection]

theorem addressed_through (m : Machine) (h : Hub) (id : AdapterId) (report : Report) :
    ∀ j ∈ ParticipantJob.reportThrough m id report, j.addressed h := by
  unfold ParticipantJob.reportThrough
  split
  · exact List.forall_mem_append.mpr ⟨addressed_report h id report, List.forall_mem_singleton.mpr trivial⟩
  · exact List.forall_mem_singleton.mpr trivial

theorem addressed_dataLane (m : Machine) (job : DataLaneJob)
    (kind : job matches .find .. | .spawn _ | .look _ | .snapshot .. | .handOver ..)
    (aligned : m.hub.Aligned) (addressed : (Job.dataLane job).addressed m.hub) :
    ∀ j ∈ (job.exec m).2, j.addressed (job.exec m).1.hub := by
  cases job with
  | find c callback =>
      simp only [DataLaneJob.exec]
      cases found : m.hub.dataLanes.slots.get? c with
      | none => simp [DataLaneJob.refuse, Job.addressed, Job.logDataLane]
      | some slot => exact List.forall_mem_singleton.mpr ⟨addressed, aligned.slots c slot found⟩
  | spawn c =>
      simp only [DataLaneJob.exec]
      split
      · simp only [List.forall_mem_cons]
        refine ⟨trivial, ⟨{ connection := c }, ?_, rfl⟩, fun _ none => by cases none⟩
        exact List.getElem?_concat_length
      · simp [Job.addressed, Job.logDataLane]
      · simp [Job.addressed]
  | look id =>
      simp only [DataLaneJob.exec]
      cases known : m.hub.dataLanes.lane? id with
      | none => exact fun _ none => by cases none
      | some lane =>
          have items := aligned.items id lane known
          simp only [DataLaneJob.lookAtLane]
          rcases DataLane.look_cases m.hub.terminating lane with
            ⟨_, _, seen⟩ | ⟨_, _, seen⟩ | ⟨_, _, _, seen⟩ | ⟨_, _, seen⟩ <;> rw [seen]
          · simp only [List.forall_mem_append]
            refine ⟨?_, by simp [Job.addressed, Job.logDataLane]⟩
            split <;> simp [Job.addressed, Job.logDataLane]
          · simp [Job.addressed, Job.logDataLane]
          · simp [Job.addressed]
          · simp only [List.forall_mem_cons]
            exact ⟨items, trivial, fun _ none => by cases none⟩
  | snapshot c batch =>
      simp only [DataLaneJob.exec, List.forall_mem_cons, List.forall_mem_map]
      exact ⟨trivial, addressed⟩
  | handOver c callback listeners =>
      have same : callback.connection = c := addressed
      simp [DataLaneJob.exec, DataLaneJob.deliverOne, same, Job.addressed, Job.deliver]
  | _ => cases kind

theorem addressed_exec (m : Machine) (t : ThreadId) (job : Job) (aligned : m.hub.Aligned)
    (addressed : job.addressed m.hub) (managed : ∀ op, job = .perform op → op.managed = true) :
    ∀ j ∈ (job.exec m t).2, j.addressed (job.exec m t).1.hub := by
  intro j member
  by_cases here : j.addressed (job.exec m t).1.hub
  · exact here
  rcases addressed_source (leads_exec m t job j member) here with
    ⟨k, rfl, kind⟩ | ⟨source, report, rfl⟩ | ⟨name, report, rfl⟩ | ⟨op, rfl⟩ | ⟨key, c, sequence, status, rfl⟩
  · exact addressed_dataLane m k kind aligned addressed j member
  · simp only [Job.exec, Machine.perform, Machine.performOwned] at member
    split at member
    · rcases List.mem_append.mp member with member | member
      · exact addressed_report _ _ _ j member
      · cases List.mem_singleton.mp member
        trivial
    · cases List.mem_singleton.mp member
      trivial
  · simp only [Job.exec, Machine.perform] at member
    split at member
    · rcases List.mem_append.mp member with member | member
      · exact addressed_through _ _ _ _ j member
      · cases List.mem_singleton.mp member
        trivial
    · cases List.mem_singleton.mp member
      trivial
  · cases managed _ rfl
  · simp only [Job.exec, ParticipantJob.exec] at member
    split at member
    · exact addressed_through _ _ _ _ j member
    · cases member

theorem Run.aligned (run : Run config hooks past m) (managed : ∀ x ∈ past, x.managed) :
    m.hub.Aligned ∧ ∀ u, Each (fun job _ => job.addressed m.hub) (m.agenda u) := by
  refine Run.sustain (G := Moment.managed) (I := fun _ h => h.Aligned)
    (P := fun _ h _ job _ => job.addressed h) ?start ?fresh ?carry ?panic ?caught run managed
  case start => exact ⟨fun _ _ none => (by cases none), fun _ _ none => (by cases none)⟩
  case fresh => exact fun _ _ => ⟨⟨trivial, trivial, trivial⟩, ⟨trivial, trivial⟩, fun _ _ => ⟨trivial, trivial⟩⟩
  case carry =>
    intro past m t job later _ aligned each agenda _ _ here
    have first := each t
    rw [agenda] at first
    refine ⟨aligned_exec m t job aligned first.1, ?keep, ?next, ?recruits⟩
    case keep =>
      intro u j rest addressed
      cases j with
      | dataLane j =>
          cases j with
          | push id c callback => exact ⟨addressed.1, serves_exec m t job addressed.2⟩
          | publish c slot => exact serves_exec m t job addressed
          | _ => exact addressed
      | _ => trivial
    case next =>
      exact each_of_forall fun j member _ => addressed_exec m t job aligned first.1 here j member
    case recruits =>
      intro u agenda _ started recruit
      have kind : Fresh config u agenda := fresh_recruits started (List.mem_of_getElem? recruit)
      cases kind <;>
        first | exact ⟨trivial, trivial, trivial⟩ | exact ⟨trivial, trivial⟩
  case panic =>
    intro past m t later h _ aligned _ _ hub
    rcases hub with rfl | rfl
    · exact ⟨aligned, fun _ _ _ addressed => addressed⟩
    · exact ⟨⟨aligned.slots, aligned.items⟩, fun _ _ _ addressed => addressed⟩
  case caught =>
    exact fun _ _ _ _ _ each => ⟨trivial, trivial, each.2⟩

end TransportHub
