import TransportHub.Proofs.Deliveries
/-!
Conservation of the six metrics: every callback that was counted is still waiting, was taken by a
worker or was thrown away, and every delivery that ended was counted once for each listener.
-/

set_option autoImplicit false

namespace TransportHub

def Job.takes (m : Machine) : Job → Nat
  | .deviceLane .look => (m.hub.deviceLane.look m.hub.terminating).1.batch.length
  | .dataLane (.look id) =>
      (m.hub.dataLanes.lane? id).elim 0 fun lane => (lane.look m.hub.terminating).1.batch.length
  | _ => 0

def Hub.waiting (h : Hub) : Nat :=
  h.deviceLane.queue.length + (h.dataLanes.lanes.map (·.items.length)).sum

-- Device callbacks that were counted but neither queued nor thrown away yet.
def underway : Job → Nat
  | .deviceLane (.push _) | .deviceLane .discard => 1
  | _ => 0

theorem sum_modify {α : Type} (g : α → Nat) {l : List α} {i : Nat} {a : α} (known : l[i]? = some a)
    (change : α → α) : ((l.modify i change).map g).sum + g a = (l.map g).sum + g (change a) := by
  have : Inhabited α := ⟨a⟩
  rw [List.modify_eq_set, known, Option.getD_some]
  exact sum_set g known (change a)

theorem sum_modify_same {α : Type} (g : α → Nat) (l : List α) (i : Nat) {change : α → α}
    (same : ∀ a, g (change a) = g a) : ((l.modify i change).map g).sum = (l.map g).sum := by
  cases known : l[i]? with
  | none => rw [List.modify_eq_self (List.getElem?_eq_none_iff.mp known)]
  | some a =>
      have law := sum_modify g known change
      have here := same a
      omega

theorem inner_underway : Inner underway where
  fresh := by
    intro config u agenda fresh
    cases fresh <;> rfl
  panic := rfl
  caught := fun _ => rfl

theorem underway_source {job j : Job} (leads : job.leads j = true) (here : underway j ≠ 0) :
    ∃ callback, job = .deviceLane (.enqueue callback) := by
  cases j with
  | deviceLane j =>
      cases j with
      | discard => exact discard_origin leads
      | push => exact devicePush_origin leads
      | _ => exact absurd rfl here
  | _ => exact absurd rfl here

theorem underway_next (m : Machine) (t : ThreadId) (job : Job)
    (apart : ∀ callback, job ≠ .deviceLane (.enqueue callback)) : weight underway (job.exec m t).2 = 0 :=
  weight_next_apart underway_source m t job (not_exists.mpr apart)

theorem waiting_changeLane (m : Machine) (id : LaneId) (change : DataLane → DataLane)
    (same : ∀ lane, (change lane).items = lane.items) :
    (m.setDataLanes (m.hub.dataLanes.changeLane id change)).hub.waiting = m.hub.waiting := by
  simp only [Hub.waiting, Machine.setDataLanes, DataLanes.changeLane]
  rw [sum_modify_same (fun lane : DataLane => lane.items.length)]
  exact fun lane => congrArg List.length (same lane)

theorem enqueued_deviceLane (m : Machine) (job : DeviceLaneJob) (apart : ∀ callback, job ≠ .enqueue callback) :
    (job.exec m).1.hub.metrics.enqueued + m.hub.waiting + m.hub.metrics.discarded + underway (.deviceLane job) =
      m.hub.metrics.enqueued + (job.exec m).1.hub.waiting + (Job.deviceLane job).takes m +
        (job.exec m).1.hub.metrics.discarded := by
  cases job with
  | enqueue callback => exact absurd rfl (apart callback)
  | push callback =>
      simp [DeviceLaneJob.exec, Hub.waiting, underway, Job.takes, DeviceLane.push]
      omega
  | discard =>
      simp [DeviceLaneJob.exec, Hub.waiting, underway, Job.takes]
      omega
  | look =>
      simp only [DeviceLaneJob.exec, DeviceLaneJob.lookAtQueue, Job.takes]
      rcases DeviceLane.look_cases m.hub.terminating m.hub.deviceLane with
        ⟨_, seen⟩ | ⟨_, empty, seen⟩ | ⟨_, _, seen⟩ <;>
        simp [seen, Hub.waiting, underway, DeviceLane.Look.batch] <;> omega
  | start | wake | join => simp [DeviceLaneJob.exec, Hub.waiting, underway, Job.takes, DeviceLane.wake]
  | spawn =>
      simp only [DeviceLaneJob.exec]
      split <;> simp [Hub.waiting, underway, Job.takes, Machine.spawn]

theorem enqueued_dataLane (m : Machine) (job : DataLaneJob) :
    (job.exec m).1.hub.metrics.enqueued + m.hub.waiting + m.hub.metrics.discarded =
      m.hub.metrics.enqueued + (job.exec m).1.hub.waiting + (Job.dataLane job).takes m +
        (job.exec m).1.hub.metrics.discarded := by
  cases job with
  | push id c callback =>
      simp only [DataLaneJob.exec]
      split
      · rename_i accepted
        cases known : m.hub.dataLanes.lane? id with
        | none => rw [known] at accepted; cases accepted
        | some lane =>
          have law := sum_modify (fun lane : DataLane => lane.items.length) known (·.push callback)
          simp [Hub.waiting, Job.takes, DataLanes.changeLane, DataLane.push] at law ⊢
          omega
      · simp [Job.takes]
  | look id =>
      simp only [DataLaneJob.exec, Job.takes]
      cases known : m.hub.dataLanes.lane? id with
      | none => simp
      | some lane =>
          have law := sum_modify (fun lane : DataLane => lane.items.length) known
            (fun _ => (lane.look m.hub.terminating).2)
          simp only [DataLaneJob.lookAtLane]
          rcases DataLane.look_cases m.hub.terminating lane with
            ⟨_, _, seen⟩ | ⟨empty, _, seen⟩ | ⟨_, empty, _, seen⟩ | ⟨_, _, seen⟩ <;>
            simp [seen, Hub.waiting, DataLanes.changeLane, DataLane.Look.batch] at law ⊢ <;> omega
  | requestStop id =>
      have same := waiting_changeLane m id (·.requestStop) (fun _ => rfl)
      simp only [DataLaneJob.exec, same, Job.takes]
      rfl
  | wake id =>
      have same := waiting_changeLane m id (·.wake) (fun _ => rfl)
      simp only [DataLaneJob.exec, same, Job.takes]
      rfl
  | spawn c =>
      simp only [DataLaneJob.exec]
      split <;> simp [Hub.waiting, Job.takes, Machine.spawn, DataLanes.openLane]
  | publish c slot =>
      simp only [DataLaneJob.exec]
      repeat' split
      all_goals simp [Hub.waiting, Job.takes, DataLanes.publish]
  | stop c =>
      simp only [DataLaneJob.exec, DataLanes.withdraw]
      cases m.hub.dataLanes.slots.get? c <;> simp [Hub.waiting, Job.takes]
  | _ => simp [DataLaneJob.exec, Hub.waiting, Job.takes, DataLanes.reap, DataLanes.retire, DataLanes.close]

theorem enqueued_exec (m : Machine) (t : ThreadId) (job : Job) :
    (job.exec m t).1.hub.metrics.enqueued + m.hub.waiting + m.hub.metrics.discarded + underway job =
      m.hub.metrics.enqueued + (job.exec m t).1.hub.waiting + job.takes m +
        (job.exec m t).1.hub.metrics.discarded + weight underway (job.exec m t).2 := by
  by_cases counted : ∃ callback, job = .deviceLane (.enqueue callback)
  · obtain ⟨callback, rfl⟩ := counted
    simp only [Job.exec, DeviceLaneJob.exec]
    split <;> simp [Hub.waiting, underway, Job.takes, Job.logDeviceLane] <;> omega
  · rw [underway_next m t job fun callback same => counted ⟨callback, same⟩, Nat.add_zero]
    cases aside : job.aside with
    | true =>
        have same := lanes_exec m t job aside
        have none : underway job = 0 ∧ job.takes m = 0 := by
          cases job with
          | deviceLane | dataLane => cases aside
          | _ => exact ⟨rfl, rfl⟩
        simp only [Hub.waiting, same.metrics, same.queue, same.lanes, none]
        omega
    | false =>
        cases job with
        | deviceLane job => exact enqueued_deviceLane m job fun callback same => counted ⟨callback, congrArg _ same⟩
        | dataLane job => exact enqueued_dataLane m job
        | participant job =>
            cases job with
            | deliver d =>
                simp only [Job.exec, ParticipantJob.exec]
                split <;> simp [Hub.waiting, underway, Job.takes, Metrics.countDelivery]
            | _ => cases aside
        | _ => cases aside

def Job.accepts (m : Machine) : Job → Nat
  | .dataLane (.push lane _ _) => if (m.hub.dataLanes.lane? lane).any (·.accepts) then 1 else 0
  | _ => 0

def Job.refuses (m : Machine) : Job → Nat
  | .dataLane (.find c _) => if (m.hub.dataLanes.slots.get? c).isSome then 0 else 1
  | .dataLane (.push lane _ _) => if (m.hub.dataLanes.lane? lane).any (·.accepts) then 0 else 1
  | _ => 0

def Job.enqueuesData : Job → Nat
  | .dataLane (.find ..) => 1
  | _ => 0

def Job.enqueuesDevice : Job → Nat
  | .deviceLane (.enqueue _) => 1
  | _ => 0

-- Data enqueues that found a lane and have not tried it yet.
def pushing : Job → Nat
  | .dataLane (.push ..) => 1
  | _ => 0

-- Data enqueues that were turned down but not counted yet.
def orphaning : Job → Nat
  | .dataLane .orphan => 1
  | _ => 0

def Job.misaddresses : Job → Nat
  | .dataLane (.handOver c callback _) => if callback.connection = c then 0 else 1
  | _ => 0

def mismatching : Job → Nat
  | .dataLane .mismatch => 1
  | _ => 0

def Job.completes : Job → Nat
  | .participant (.deliver d) => if d.called < d.listeners.length then 0 else d.listeners.length
  | _ => 0

theorem metrics_deviceLane (m : Machine) (job : DeviceLaneJob) : ∃ discarded, (job.exec m).1.hub.metrics =
    { m.hub.metrics with enqueued := m.hub.metrics.enqueued + (Job.deviceLane job).enqueuesDevice, discarded } := by
  cases job with
  | spawn =>
      simp only [DeviceLaneJob.exec]
      split <;> exact ⟨_, rfl⟩
  | look =>
      simp only [DeviceLaneJob.exec, DeviceLaneJob.lookAtQueue]
      split <;> exact ⟨_, rfl⟩
  | _ => exact ⟨_, rfl⟩

theorem metrics_dataLane (m : Machine) (job : DataLaneJob) (apart : job ≠ .orphan ∧ job ≠ .mismatch) :
    ∃ discarded, (job.exec m).1.hub.metrics =
      { m.hub.metrics with enqueued := m.hub.metrics.enqueued + (Job.dataLane job).accepts m, discarded } := by
  cases job with
  | orphan => exact absurd rfl apart.1
  | mismatch => exact absurd rfl apart.2
  | stop c =>
      simp only [DataLaneJob.exec, DataLanes.withdraw]
      cases m.hub.dataLanes.slots.get? c <;> exact ⟨_, rfl⟩
  | push lane c callback =>
      simp only [DataLaneJob.exec, Job.accepts]
      split <;> exact ⟨_, rfl⟩
  | spawn | publish | look =>
      simp only [DataLaneJob.exec, DataLaneJob.lookAtLane]
      repeat' split
      all_goals exact ⟨_, rfl⟩
  | _ => exact ⟨_, rfl⟩

theorem metrics_exec (m : Machine) (t : ThreadId) (job : Job) :
    (∃ discarded, (job.exec m t).1.hub.metrics = { m.hub.metrics with
        enqueued := m.hub.metrics.enqueued + job.enqueuesDevice + job.accepts m, discarded } ∧
      orphaning job = 0 ∧ mismatching job = 0 ∧ job.completes = 0) ∨
    (job = .dataLane .orphan ∧ (job.exec m t).1.hub.metrics =
      { m.hub.metrics with orphaned := m.hub.metrics.orphaned + 1 }) ∨
    (job = .dataLane .mismatch ∧ (job.exec m t).1.hub.metrics =
      { m.hub.metrics with mismatches := m.hub.metrics.mismatches + 1 }) ∨
    (∃ d, job = .participant (.deliver d) ∧ d.listeners.length ≤ d.called ∧
      (job.exec m t).1.hub.metrics = m.hub.metrics.countDelivery d.listeners.length d.panics) := by
  cases aside : job.aside with
  | true =>
      refine .inl ⟨m.hub.metrics.discarded, ?_⟩
      rw [(lanes_exec m t job aside).metrics]
      cases job with
      | deviceLane | dataLane => cases aside
      | participant job =>
          cases job with
          | deliver => cases aside
          | _ => exact ⟨rfl, rfl, rfl, rfl⟩
      | _ => exact ⟨rfl, rfl, rfl, rfl⟩
  | false =>
      cases job with
      | deviceLane job =>
          obtain ⟨discarded, same⟩ := metrics_deviceLane m job
          exact .inl ⟨discarded, same, rfl, rfl, rfl⟩
      | dataLane job =>
          by_cases orphan : job = .orphan
          · subst orphan
            exact .inr (.inl ⟨rfl, rfl⟩)
          by_cases mismatch : job = .mismatch
          · subst mismatch
            exact .inr (.inr (.inl ⟨rfl, rfl⟩))
          obtain ⟨discarded, same⟩ := metrics_dataLane m job ⟨orphan, mismatch⟩
          refine .inl ⟨discarded, same, ?_, ?_, rfl⟩
          · cases job <;> first | rfl | exact absurd rfl orphan
          · cases job <;> first | rfl | exact absurd rfl mismatch
      | participant job =>
          cases job with
          | deliver d =>
              simp only [Job.exec, ParticipantJob.exec]
              cases found : d.listeners[d.called]? with
              | none =>
                  exact .inr (.inr (.inr ⟨d, rfl, List.getElem?_eq_none_iff.mp found, rfl⟩))
              | some l =>
                  have within : d.called < d.listeners.length := (List.getElem?_eq_some_iff.mp found).1
                  exact .inl ⟨m.hub.metrics.discarded, rfl, rfl, rfl, if_pos within⟩
          | _ => cases aside
      | _ => cases aside

theorem enqueued_adds (m : Machine) (t : ThreadId) (job : Job) : (job.exec m t).1.hub.metrics.enqueued =
    m.hub.metrics.enqueued + job.enqueuesDevice + job.accepts m := by
  rcases metrics_exec m t job with ⟨_, same, _⟩ | ⟨rfl, same⟩ | ⟨rfl, same⟩ | ⟨d, rfl, _, same⟩ <;> rw [same] <;> rfl

theorem orphaned_adds (m : Machine) (t : ThreadId) (job : Job) :
    (job.exec m t).1.hub.metrics.orphaned = m.hub.metrics.orphaned + orphaning job := by
  rcases metrics_exec m t job with ⟨_, same, none, _⟩ | ⟨rfl, same⟩ | ⟨rfl, same⟩ | ⟨d, rfl, _, same⟩ <;> rw [same]
  · rw [none]
    rfl
  all_goals rfl

theorem mismatches_adds (m : Machine) (t : ThreadId) (job : Job) :
    (job.exec m t).1.hub.metrics.mismatches = m.hub.metrics.mismatches + mismatching job := by
  rcases metrics_exec m t job with ⟨_, same, _, none, _⟩ | ⟨rfl, same⟩ | ⟨rfl, same⟩ | ⟨d, rfl, _, same⟩ <;> rw [same]
  · rw [none]
    rfl
  all_goals rfl

theorem delivered_adds (m : Machine) (t : ThreadId) (job : Job)
    (fair : ∀ d, job = .participant (.deliver d) → d.panics ≤ d.listeners.length) :
    (job.exec m t).1.hub.metrics.delivered + (job.exec m t).1.hub.metrics.panics =
      m.hub.metrics.delivered + m.hub.metrics.panics + job.completes := by
  rcases metrics_exec m t job with ⟨_, same, _, _, none⟩ | ⟨rfl, same⟩ | ⟨rfl, same⟩ | ⟨d, rfl, ended, same⟩ <;> rw [same]
  · rw [none]
    rfl
  · rfl
  · rfl
  · have bound := fair d rfl
    simp only [Metrics.countDelivery, Job.completes, if_neg (Nat.not_lt.mpr ended)]
    omega

theorem inner_orphaning : Inner orphaning := ⟨fun _ _ _ fresh => by cases fresh <;> rfl, rfl, fun _ => rfl⟩

theorem inner_pushing : Inner pushing := ⟨fun _ _ _ fresh => by cases fresh <;> rfl, rfl, fun _ => rfl⟩

theorem inner_mismatching : Inner mismatching := ⟨fun _ _ _ fresh => by cases fresh <;> rfl, rfl, fun _ => rfl⟩

theorem inner_nothing : Inner fun _ => 0 := ⟨fun _ _ _ fresh => by cases fresh <;> rfl, rfl, fun _ => rfl⟩

theorem orphaning_source {job j : Job} (leads : job.leads j = true) (here : orphaning j ≠ 0) :
    (∃ c callback, job = .dataLane (.find c callback)) ∨
      ∃ lane c callback, job = .dataLane (.push lane c callback) := by
  cases j with
  | dataLane j =>
      cases j with
      | orphan =>
          dsimp only [Job.leads] at leads
          split at leads
          · exact .inl ⟨_, _, rfl⟩
          · exact .inr ⟨_, _, _, rfl⟩
          · cases leads
      | _ => exact absurd rfl here
  | _ => exact absurd rfl here

theorem orphaning_next (m : Machine) (t : ThreadId) (job : Job) :
    weight orphaning (job.exec m t).2 = job.refuses m := by
  by_cases found : ∃ c callback, job = .dataLane (.find c callback)
  · obtain ⟨c, callback, rfl⟩ := found
    simp only [Job.exec, DataLaneJob.exec, Job.refuses]
    cases m.hub.dataLanes.slots.get? c <;> rfl
  by_cases pushed : ∃ lane c callback, job = .dataLane (.push lane c callback)
  · obtain ⟨lane, c, callback, rfl⟩ := pushed
    simp only [Job.exec, DataLaneJob.exec, Job.refuses]
    split <;> rfl
  have none : job.refuses m = 0 := by
    cases job with
    | dataLane job =>
        cases job with
        | find => exact absurd ⟨_, _, rfl⟩ found
        | push => exact absurd ⟨_, _, _, rfl⟩ pushed
        | _ => rfl
    | _ => rfl
  rw [none]
  exact weight_next_apart orphaning_source m t job fun source => source.elim found pushed

theorem pushing_source {job j : Job} (leads : job.leads j = true) (here : pushing j ≠ 0) :
    ∃ c callback, job = .dataLane (.find c callback) := by
  cases j with
  | dataLane j =>
      cases j with
      | push => exact dataPush_origin leads
      | _ => exact absurd rfl here
  | _ => exact absurd rfl here

theorem pushing_next (m : Machine) (t : ThreadId) (job : Job) :
    job.enqueuesData + pushing job = job.accepts m + job.refuses m + weight pushing (job.exec m t).2 := by
  by_cases found : ∃ c callback, job = .dataLane (.find c callback)
  · obtain ⟨c, callback, rfl⟩ := found
    simp only [Job.exec, DataLaneJob.exec, Job.refuses]
    cases m.hub.dataLanes.slots.get? c <;> rfl
  rw [weight_next_apart pushing_source m t job found]
  cases job with
  | dataLane job =>
      cases job with
      | find => exact absurd ⟨_, _, rfl⟩ found
      | push lane c callback =>
          simp only [Job.accepts, Job.refuses]
          split <;> rfl
      | _ => rfl
  | _ => rfl

theorem mismatching_source {job j : Job} (leads : job.leads j = true) (here : mismatching j ≠ 0) :
    ∃ c callback listeners, job = .dataLane (.handOver c callback listeners) := by
  cases j with
  | dataLane j =>
      cases j with
      | mismatch => exact mismatch_origin leads
      | _ => exact absurd rfl here
  | _ => exact absurd rfl here

theorem mismatching_next (m : Machine) (t : ThreadId) (job : Job) :
    weight mismatching (job.exec m t).2 = job.misaddresses := by
  by_cases handed : ∃ c callback listeners, job = .dataLane (.handOver c callback listeners)
  · obtain ⟨c, callback, listeners, rfl⟩ := handed
    simp only [Job.exec, DataLaneJob.exec, DataLaneJob.deliverOne, Job.misaddresses]
    split <;> rfl
  have none : job.misaddresses = 0 := by
    cases job with
    | dataLane job =>
        cases job with
        | handOver => exact absurd ⟨_, _, _, rfl⟩ handed
        | _ => rfl
    | _ => rfl
  rw [none]
  exact weight_next_apart mismatching_source m t job handed

variable {config : Config} {hooks : List Hook} {past : List Moment} {m : Machine} {t u : ThreadId} {job : Job}

theorem Run.pushes_first (run : Run config hooks past m) (u : ThreadId) :
    Each (fun _ rest => weight pushing rest = 0) (m.agenda u) := by
  refine Run.each (G := fun _ => True) (P := fun _ _ rest => weight pushing rest = 0) ?fresh ?next ?caught run
    (fun _ _ => trivial) u
  case fresh =>
    intro u agenda fresh
    cases fresh <;> first | exact ⟨rfl, rfl, trivial⟩ | exact ⟨rfl, trivial⟩
  case next =>
    intro past m t job later _ each agenda _ _ _
    have here := each t
    rw [agenda] at here
    by_cases found : ∃ c callback, job = .dataLane (.find c callback)
    · obtain ⟨c, callback, rfl⟩ := found
      simp only [Job.exec, DataLaneJob.exec]
      cases m.hub.dataLanes.slots.get? c with
      | none => exact each_weightless rfl here.1
      | some slot => exact ⟨here.1, trivial⟩
    · exact each_weightless (weight_next_apart pushing_source m t job found) here.1
  case caught =>
    intro u d rest each
    have none : weight pushing rest = 0 := each.1
    exact ⟨(Nat.zero_add _).trans none, none, each.2⟩

theorem total_lost_zero {f : Job → Nat} (none : ∀ x ∈ past, ∀ job ∈ x.dropped, f job = 0) :
    total (lost f) past = 0 :=
  total_zero fun x member => weight_zero (none x member)

theorem Run.pushes_kept (run : Run config hooks past m) : total (lost pushing) past = 0 := by
  refine total_lost_zero fun x member job dropped => ?_
  obtain ⟨_, _, reached, agenda⟩ := run.reached member
  have first := reached.pushes_first x.thread
  rw [agenda] at first
  have behind : job ∈ x.later := by
    unfold Moment.dropped at dropped
    split at dropped
    · exact cut_mem dropped
    · cases dropped
  have bound := weight_mem (f := pushing) behind
  have none : weight pushing x.later = 0 := first.1
  omega

theorem Run.mismatches_kept (run : Run config hooks past m) : total (lost mismatching) past = 0 := by
  refine total_lost_zero fun x member job dropped => ?_
  have idle := run.crew_kept member job dropped
  cases job with
  | dataLane job => cases job <;> first | rfl | cases idle
  | _ => rfl

theorem Run.enqueued (run : Run config hooks past m) : m.hub.metrics.enqueued =
    m.hub.waiting + total (fun x => x.job.takes x.machine) past + m.hub.metrics.discarded +
      m.load underway + total (lost underway) past := by
  have law := run.ledger (a := fun _ => 0) (b := fun x => x.job.takes x.machine)
    (q := fun h => h.metrics.enqueued) (r := fun h => h.waiting + h.metrics.discarded) inner_underway rfl
    (fun _ => ⟨rfl, rfl⟩) (fun _ _ _ => ⟨rfl, rfl⟩) (fun {_ m t job _} _ _ _ _ => by
      have step := enqueued_exec m t job
      simp only
      omega)
  have none : total (fun _ => 0) past = 0 := total_zero fun _ _ => rfl
  omega

def Job.throws (m : Machine) : Job → Nat
  | .deviceLane .discard => 1
  | .deviceLane .look => if m.hub.terminating then m.hub.deviceLane.queue.length else 0
  | .dataLane (.look id) => ((Job.dataLane (.look id)).thrown m id).length
  | _ => 0

theorem discarded_adds (m : Machine) (t : ThreadId) (job : Job) :
    (job.exec m t).1.hub.metrics.discarded = m.hub.metrics.discarded + job.throws m := by
  cases aside : job.aside with
  | true =>
      rw [(lanes_exec m t job aside).metrics]
      cases job with
      | deviceLane | dataLane => cases aside
      | _ => rfl
  | false =>
      cases job with
      | deviceLane job =>
          cases job with
          | look =>
              simp only [Job.exec, DeviceLaneJob.exec, DeviceLaneJob.lookAtQueue, Job.throws]
              rcases DeviceLane.look_cases m.hub.terminating m.hub.deviceLane with
                ⟨ending, seen⟩ | ⟨running, _, seen⟩ | ⟨running, _, seen⟩ <;> rw [seen]
              · simp [ending]
              · simp [running]
              · simp [running]
          | spawn =>
              simp only [Job.exec, DeviceLaneJob.exec]
              split <;> rfl
          | _ => rfl
      | dataLane job =>
          cases job with
          | look id =>
              simp only [Job.exec, DataLaneJob.exec, DataLaneJob.lookAtLane, Job.throws, Job.thrown, Job.cuts]
              cases known : m.hub.dataLanes.lane? id with
              | none => simp
              | some lane =>
                  rcases DataLane.look_cases m.hub.terminating lane with
                    ⟨ending, open_, seen⟩ | ⟨_, stopping, seen⟩ | ⟨running, _, _, seen⟩ | ⟨_, kept, seen⟩ <;>
                    simp only [seen, Option.any_some, Option.elim_some]
                  · simp [ending, open_]
                  · simp [stopping]
                  · simp [running]
                  · rcases kept with running | stopping
                    · simp [running]
                    · simp [stopping]
          | stop c =>
              simp only [Job.exec, DataLaneJob.exec, DataLanes.withdraw]
              cases m.hub.dataLanes.slots.get? c <;> rfl
          | spawn | publish | push =>
              simp only [Job.exec, DataLaneJob.exec]
              repeat' split
              all_goals rfl
          | _ => rfl
      | participant job =>
          cases job with
          | deliver d =>
              simp only [Job.exec, ParticipantJob.exec]
              split <;> rfl
          | _ => cases aside
      | _ => cases aside

theorem Run.discarded (run : Run config hooks past m) :
    m.hub.metrics.discarded = total (fun x => x.job.throws x.machine) past := by
  have law := run.ledger (a := fun x => x.job.throws x.machine) (b := fun _ => 0) (q := fun _ => 0)
    (r := fun h => h.metrics.discarded) inner_nothing rfl
    (fun _ => ⟨rfl, rfl⟩) (fun _ _ _ => ⟨rfl, rfl⟩) (fun {_ m t job _} _ _ _ _ => by
      have counted := discarded_adds m t job
      have next : weight (fun _ => 0) (job.exec m t).2 = 0 := weight_zero fun _ _ => rfl
      simp only
      omega)
  have none : m.load (fun _ => 0) = 0 := load_zero fun _ _ _ => rfl
  have nothing : total (fun _ => 0) past = 0 := total_zero fun _ _ => rfl
  rw [nothing, none, total_lost_zero fun _ _ _ _ => rfl] at law
  omega

theorem Run.enqueues (run : Run config hooks past m) : total (fun x => x.job.enqueuesData) past =
    total (fun x => x.job.accepts x.machine) past + total (fun x => x.job.refuses x.machine) past +
      m.load pushing := by
  have law := run.ledger (a := fun x => x.job.enqueuesData)
    (b := fun x => x.job.accepts x.machine + x.job.refuses x.machine) (q := fun _ => 0) (r := fun _ => 0)
    inner_pushing rfl (fun _ => ⟨rfl, rfl⟩) (fun _ _ _ => ⟨rfl, rfl⟩) (fun {_ m t job _} _ _ _ _ => by
      have next := pushing_next m t job
      simp only
      omega)
  rw [total_add, run.pushes_kept] at law
  omega

theorem total_none (past : List Moment) : total (fun _ => 0) past = 0 := total_zero fun _ _ => rfl

theorem Run.accepted (run : Run config hooks past m) : m.hub.metrics.enqueued =
    total (fun x => x.job.enqueuesDevice) past + total (fun x => x.job.accepts x.machine) past := by
  have law := run.ledger (a := fun x => x.job.enqueuesDevice + x.job.accepts x.machine) (b := fun _ => 0)
    (q := fun _ => 0) (r := fun h => h.metrics.enqueued) inner_nothing rfl
    (fun _ => ⟨rfl, rfl⟩) (fun _ _ _ => ⟨rfl, rfl⟩) (fun {_ m t job _} _ _ _ _ => by
      have counted := enqueued_adds m t job
      have next : weight (fun _ => 0) (job.exec m t).2 = 0 := weight_zero fun _ _ => rfl
      simp only
      omega)
  have none : m.load (fun _ => 0) = 0 := load_zero fun _ _ _ => rfl
  rw [total_add, total_none, none, total_lost_zero fun _ _ _ _ => rfl] at law
  omega

theorem Run.orphaned (run : Run config hooks past m) : total (fun x => x.job.refuses x.machine) past =
    m.hub.metrics.orphaned + m.load orphaning + total (lost orphaning) past := by
  have law := run.ledger (a := fun x => x.job.refuses x.machine) (b := fun _ => 0)
    (q := fun _ => 0) (r := fun h => h.metrics.orphaned) inner_orphaning rfl
    (fun _ => ⟨rfl, rfl⟩) (fun _ _ _ => ⟨rfl, rfl⟩) (fun {_ m t job _} _ _ _ _ => by
      have counted := orphaned_adds m t job
      have next := orphaning_next m t job
      simp only
      omega)
  rw [total_none] at law
  omega

theorem Run.mismatched (run : Run config hooks past m) : total (fun x => x.job.misaddresses) past =
    m.hub.metrics.mismatches + m.load mismatching := by
  have law := run.ledger (a := fun x => x.job.misaddresses) (b := fun _ => 0)
    (q := fun _ => 0) (r := fun h => h.metrics.mismatches) inner_mismatching rfl
    (fun _ => ⟨rfl, rfl⟩) (fun _ _ _ => ⟨rfl, rfl⟩) (fun {_ m t job _} _ _ _ _ => by
      have counted := mismatches_adds m t job
      have next := mismatching_next m t job
      simp only
      omega)
  rw [total_none, run.mismatches_kept] at law
  omega

theorem Run.completed (run : Run config hooks past m) :
    m.hub.metrics.delivered + m.hub.metrics.panics = total (fun x => x.job.completes) past := by
  have law := run.ledger (a := fun x => x.job.completes) (b := fun _ => 0) (q := fun _ => 0)
    (r := fun h => h.metrics.delivered + h.metrics.panics) inner_nothing rfl
    (fun _ => ⟨rfl, rfl⟩) (fun _ _ _ => ⟨rfl, rfl⟩) (fun {_ m t job _} run agenda _ _ => by
      have fair := run.fair t
      rw [agenda] at fair
      have counted := delivered_adds m t job fun d same => by
        subst same
        exact Nat.le_trans fair.1.1 fair.1.2
      have next : weight (fun _ => 0) (job.exec m t).2 = 0 := weight_zero fun _ _ => rfl
      simp only
      omega)
  have none : m.load (fun _ => 0) = 0 := load_zero fun _ _ _ => rfl
  rw [total_none, none, total_lost_zero fun _ _ _ _ => rfl] at law
  omega

theorem Run.matched (run : Run config hooks past m) (managed : ∀ x ∈ past, x.managed) :
    total (fun x => x.job.misaddresses) past = 0 := by
  refine total_zero fun x member => ?_
  obtain ⟨earlier, start, reached, agenda⟩ := run.reached member
  have before : ∀ y ∈ earlier, y.managed := fun y here =>
    managed y (start.subset (List.mem_append_left _ here))
  have first := (reached.aligned before).2 x.thread
  rw [agenda] at first
  have addressed := first.1
  obtain ⟨m, t, job, later⟩ := x
  cases job with
  | dataLane job =>
      cases job with
      | handOver c callback listeners => exact if_pos addressed
      | _ => rfl
  | _ => rfl

theorem Run.nothing_lost (run : Run config hooks past m) (hooked : ∀ x ∈ past, x.hookSafe) :
    total (lost underway) past = 0 ∧ total (lost orphaning) past = 0 := by
  constructor
  · refine total_lost_zero fun x member job dropped => ?_
    have loose := run.queues_kept member (hooked x member) job dropped
    cases job with
    | deviceLane job => cases job <;> first | rfl | cases loose
    | _ => rfl
  · refine total_lost_zero fun x member job dropped => ?_
    have loose := run.queues_kept member (hooked x member) job dropped
    cases job with
    | dataLane job => cases job <;> first | rfl | cases loose
    | _ => rfl

-- What the six counters add up to. `enqueued` and `refused` differ from the books only by calls that
-- are still in progress and by calls that a panic out of a log hook cut short.
structure Accounts (past : List Moment) (m : Machine) : Prop where
  enqueued : m.hub.metrics.enqueued = m.hub.waiting + total (fun x => x.job.takes x.machine) past +
    m.hub.metrics.discarded + m.load underway + total (lost underway) past
  completed : m.hub.metrics.delivered + m.hub.metrics.panics = total (fun x => x.job.completes) past
  refused : total (fun x => x.job.refuses x.machine) past =
    m.hub.metrics.orphaned + m.load orphaning + total (lost orphaning) past
  eachOnce : total (fun x => x.job.enqueuesData) past = total (fun x => x.job.accepts x.machine) past +
    total (fun x => x.job.refuses x.machine) past + m.load pushing
  accepted : m.hub.metrics.enqueued =
    total (fun x => x.job.enqueuesDevice) past + total (fun x => x.job.accepts x.machine) past
  mismatched : total (fun x => x.job.misaddresses) past = m.hub.metrics.mismatches + m.load mismatching
  managed : (∀ x ∈ past, x.managed) → m.hub.metrics.mismatches = 0
  unhurt : (∀ x ∈ past, x.hookSafe) → total (lost underway) past = 0 ∧ total (lost orphaning) past = 0

theorem metrics_conserved (run : Run config hooks past m) : Accounts past m where
  enqueued := run.enqueued
  completed := run.completed
  refused := run.orphaned
  eachOnce := run.enqueues
  accepted := run.accepted
  mismatched := run.mismatched
  managed := fun managed => by
    have none := run.matched managed
    have counted := run.mismatched
    omega
  unhurt := run.nothing_lost

-- The third record after the one of the construction is written while a device callback is counted
-- but not queued.
def hookAtEnqueue : Hook := { start := "", nth := 3, ops := [.panic] }

def cutShort : List Moment × Machine :=
  solo quietConfig [hookAtEnqueue] [.report ⟨1⟩ (.disconnected {} ⟨4⟩)]

theorem enqueue_cut_short : Run quietConfig [hookAtEnqueue] cutShort.1 cutShort.2 ∧
    cutShort.2.agendas.all List.isEmpty = true ∧ cutShort.2.hub.metrics.enqueued = 1 ∧
    cutShort.2.hub.waiting = 0 ∧ total (fun x => x.job.takes x.machine) cutShort.1 = 0 ∧
    cutShort.2.hub.metrics.discarded = 0 := by
  refine ⟨solo_run _ _ _, ?_⟩
  decide +kernel

def frameFor (lane c : ConnectionHandle) (byte : UInt8) : Op := .dataLanes (.enqueue lane (.received c [byte]))

-- Two frames reach two listeners, of which one panics; the second frame is addressed to another connection. A third one finds
-- no lane, a device callback is cut off before it is queued, and the last frame is thrown away.
def mixedSession : List Moment × Machine :=
  acts [(.terminate, [(2, 0), (4, 1)]), (frameFor ⟨4⟩ ⟨4⟩ 4, [(6, 0)]), (.deviceLane (.enqueue (.disconnected {} ⟨4⟩)), [(5, 0)]),
    (frameFor ⟨9⟩ ⟨9⟩ 3, [(6, 0)]), (frameFor ⟨4⟩ ⟨5⟩ 2, [(6, 0), (17, 1)]), (frameFor ⟨4⟩ ⟨4⟩ 1, [(6, 0), (15, 1)]),
    (.dataLanes (.start ⟨4⟩), [(12, 0), (2, 1)]),
    (.addDataListener (.fresh { name := "p", script := [⟨.frame, none, [.panic]⟩] }), [(2, 0)]),
    (.addDataListener (.fresh { name := "l" }), [(2, 0)])]
    (opened quietConfig [{ start := "[device-lane] queued", ops := [.panic] }] (.usual quietConfig))

theorem accounts_of_mixed : Accounts mixedSession.1 mixedSession.2 ∧ mixedSession.2.agendas.all List.isEmpty = true ∧
    mixedSession.2.hub.metrics = { enqueued := 4, delivered := 2, panics := 2, mismatches := 1, discarded := 1, orphaned := 1 } ∧
    total (fun x => x.job.takes x.machine) mixedSession.1 = 2 ∧ total (lost underway) mixedSession.1 = 1 := by
  refine ⟨metrics_conserved (acts_run (opened_run _ _ _) _), ?_⟩
  decide +kernel

end TransportHub
