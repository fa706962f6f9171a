import Mathlib.Logic.Function.Basic
import TransportHub.Proofs.Idling
/-!
Gatherings: several threads start the lane of one connection at the same time, or report the connection. Nobody
else takes a turn meanwhile but the workers that they start. Each of the threads is at one of a few places in its
call, and each turn makes one of a few changes.
-/

set_option autoImplicit false

namespace TransportHub

open DataLanes (Slot)

variable {config : Config} {hooks : List Hook} {past more : List Moment} {start m m' : Machine} {t u w : ThreadId}
  {ts : List ThreadId} {later : ThreadId → List Job} {left : ThreadId → List Job} {plan rest behind next : List Job}
  {job : Job} {x : Moment} {slot : Slot} {id : LaneId} {c : ConnectionHandle}

-- Several threads carry out the same plan. Besides them only the workers take turns that they have started, and no
-- operation is hooked onto what they write.
inductive Gathering (ts : List ThreadId) (later : ThreadId → List Job) (start : Machine) (plan : List Job) :
    List Moment → Machine → (ThreadId → List Job) → Prop where
  | begin (agenda : ∀ t ∈ ts, start.agenda t = plan ++ later t) (busy : plan ≠ []) : Gathering ts later start plan
      [] start fun _ => plan
  | own {more : List Moment} {m : Machine} {left : ThreadId → List Job} {t : ThreadId} {job : Job} {rest : List Job}
      (gathering : Gathering ts later start plan more m left) (mine : t ∈ ts) (first : left t = job :: rest) (notPanic : job ≠ .panic)
      (enabled : job.enabled m t = true) (unhooked : Moment.unhooked ⟨m, t, job, rest ++ later t⟩) :
      Gathering ts later start plan (more ++ [⟨m, t, job, rest ++ later t⟩]) (m.carry t job (rest ++ later t))
        (Function.update left t ((job.exec m t).2 ++ rest))
  | worker {more : List Moment} {m m' : Machine} {left : ThreadId → List Job} {slot : Slot} {job : Job} {behind : List Job}
      (gathering : Gathering ts later start plan more m left) (member : slot ∈ roster more)
      (agenda : m.agenda slot.worker = job :: behind) (went : m.step? slot.worker = some m') :
      Gathering ts later start plan (more ++ [⟨m, slot.worker, job, behind⟩]) m' left

theorem step_grows (agenda : m.agenda t = job :: behind) (went : m.step? t = some m') : m.agendas.length ≤ m'.agendas.length ∧
    m.hub.dataLanes.lanes.length ≤ m'.hub.dataLanes.lanes.length := by
  rcases step_cases agenda went with ⟨rfl, rfl⟩ | ⟨_, _, rfl⟩
  · rw [agendas_unwind, List.length_set, lanes_unwind.lanes]
    exact ⟨Nat.le_refl _, Nat.le_refl _⟩
  · rw [length_agendas_carry, hub_carry, @lanes_length behind m t job]
    exact ⟨Nat.le_add_right .., Nat.le_add_right ..⟩

theorem Gathering.fresh (gathering : Gathering ts later start plan more m left) : (start.agendas.length ≤ m.agendas.length ∧
    start.hub.dataLanes.lanes.length ≤ m.hub.dataLanes.lanes.length) ∧
      (∀ t ∈ ts, m.agenda t = left t ++ later t ∧ t.val < start.agendas.length) ∧
    ∀ slot ∈ roster more, start.agendas.length ≤ slot.worker.val ∧ start.hub.dataLanes.lanes.length ≤ slot.lane.val := by
  induction gathering with
  | begin agenda busy =>
      refine ⟨⟨Nat.le_refl _, Nat.le_refl _⟩, fun t mine => ⟨agenda t mine, ?_⟩, fun _ none => by cases none⟩
      exact known_lt (agenda_known (agenda t mine) fun none => busy (List.append_eq_nil_iff.mp none).1)
  | own _ mine first notPanic enabled _ ih =>
      rename_i more m left t job rest _ _
      obtain ⟨grown, placed, new⟩ := ih
      have agenda : m.agenda t = job :: (rest ++ later t) := by rw [(placed t mine).1, first, List.cons_append]
      have grows := step_grows agenda (step_carry agenda notPanic enabled)
      refine ⟨⟨Nat.le_trans grown.1 grows.1, Nat.le_trans grown.2 grows.2⟩,
        fun u ours => ⟨?_, (placed u ours).2⟩, fun slot member => ?_⟩
      · by_cases same : u = t
        · rw [same, Function.update_self, agenda_carry_self agenda, List.append_assoc]
        · rw [Function.update_of_ne same, agenda_carry_old same (Nat.lt_of_lt_of_le (placed u ours).2 grown.1)]
          exact (placed u ours).1
      · rcases mem_roster_snoc.mp member with old | opens
        · exact new slot old
        · obtain ⟨_, _, _, rfl⟩ := opens_started opens
          exact grown
  | worker _ member agenda went ih =>
      rename_i more m m' left slot job behind _
      obtain ⟨grown, placed, new⟩ := ih
      have grows := step_grows agenda went
      refine ⟨⟨Nat.le_trans grown.1 grows.1, Nat.le_trans grown.2 grows.2⟩,
        fun u ours => ⟨?_, (placed u ours).2⟩, fun other member => ?_⟩
      · have apart : u ≠ slot.worker := fun same => by
          have known := (placed u ours).2
          rw [same] at known
          exact Nat.not_lt.mpr (new slot ‹_›).1 known
        rcases step_cases agenda went with ⟨rfl, rfl⟩ | ⟨_, _, rfl⟩
        · rw [agenda_unwind_other apart]
          exact (placed u ours).1
        · rw [agenda_carry_old apart (Nat.lt_of_lt_of_le (placed u ours).2 grown.1)]
          exact (placed u ours).1
      · rcases mem_roster_snoc.mp member with old | opens
        · exact new other old
        · obtain ⟨_, _, _, rfl⟩ := opens_started opens
          exact grown

theorem Gathering.run (gathering : Gathering ts later start plan more m left) (run : Run config hooks past start) :
    Run config hooks (past ++ more) m := by
  induction gathering with
  | begin => rwa [List.append_nil]
  | own gathering mine first notPanic enabled _ ih =>
      have agenda := (gathering.fresh.2.1 _ mine).1
      rw [first, List.cons_append] at agenda
      exact List.append_assoc .. ▸ ih.step agenda (step_carry agenda notPanic enabled)
  | worker _ _ agenda went ih => exact List.append_assoc .. ▸ ih.step agenda went

theorem Gathering.calling (gathering : Gathering ts later start plan more m left) (mine : t ∈ ts) :
    Calling t (later t) start plan more m (left t) := by
  induction gathering with
  | begin agenda busy => exact .begin (agenda t mine) busy
  | own gathering ours first notPanic enabled _ ih =>
      rename_i u job rest _
      by_cases same : u = t
      · subst same
        rw [Function.update_self]
        rw [first] at ih
        exact ih.own notPanic enabled
      · rw [Function.update_of_ne fun here => same here.symm]
        have agenda := (gathering.fresh.2.1 u ours).1
        rw [first, List.cons_append] at agenda
        exact ih.other same agenda (step_carry agenda notPanic enabled)
  | worker gathering member agenda went ih =>
      have new := gathering.fresh
      refine ih.other (fun same => ?_) agenda went
      exact Nat.not_lt.mpr (new.2.2 _ member).1 (same ▸ (new.2.1 t mine).2)

def crowd (f : Job → Nat) (ts : List ThreadId) (left : ThreadId → List Job) : Nat := (ts.map fun t => weight f (left t)).sum

theorem crowd_other {f : Job → Nat} (other : t ∉ ts) (jobs : List Job) :
    crowd f ts (Function.update left t jobs) = crowd f ts left := by
  refine congrArg List.sum (List.map_congr_left fun u ours => ?_)
  have apart : u ≠ t := fun same => other (same ▸ ours)
  rw [Function.update_of_ne apart]

theorem crowd_own {f : Job → Nat} (single : ts.Nodup) (mine : t ∈ ts) (first : left t = job :: rest) (next : List Job) :
    crowd f ts (Function.update left t (next ++ rest)) + f job = crowd f ts left + weight f next := by
  induction ts with
  | nil => cases mine
  | cons u ts ih =>
      obtain ⟨apart, single⟩ := List.nodup_cons.mp single
      have split : ∀ g : ThreadId → List Job, crowd f (u :: ts) g = weight f (g u) + crowd f ts g := fun g => by
        simp only [crowd, List.map_cons, List.sum_cons]
      rw [split, split]
      by_cases same : u = t
      · subst same
        rw [Function.update_self, crowd_other apart, first, weight_append, weight_cons]
        omega
      · have tail := ih single ((List.mem_cons.mp mine).resolve_left fun here => same here.symm)
        rw [Function.update_of_ne same]
        omega

theorem crowd_plan {f : Job → Nat} : crowd f ts (fun _ => plan) = ts.length * weight f plan := by
  simp [crowd]

theorem crowd_ended {f : Job → Nat} (ended : ∀ t ∈ ts, left t = []) : crowd f ts left = 0 :=
  sum_zero fun t mine => by rw [ended t mine, weight_nil]

-- The start of a lane, or the report of a connection that begins with it.
def outset (device? : Option DeviceInfo) (c : ConnectionHandle) : List Job :=
  device?.elim (Plan.startLane c) fun device => [.hub (.connect device c)]

def sequel (device? : Option DeviceInfo) (c : ConnectionHandle) : List Job :=
  device?.elim [] fun device => [.hub (.connectionStarted device c)]

inductive Launching (c : ConnectionHandle) (device? : Option DeviceInfo) (new : Slot → Prop) : Reply → List Job → Prop where
  | connects {r : Reply} {device : DeviceInfo} (reports : device? = some device) : Launching c device? new r
      [.hub (.connect device c)]
  | records {r : Reply} {device : DeviceInfo} (reports : device? = some device) :
      Launching c device? new r (.hub (.recordConnection device c) :: (Plan.startLane c ++ sequel device? c))
  | opens {r : Reply} : Launching c device? new r (.dataLane (.start c) :: sequel device? c)
  | reaps {r : Reply} : Launching c device? new r (.dataLane .reap :: .dataLane (.spawn c) :: sequel device? c)
  | spawns {r : Reply} : Launching c device? new r (.dataLane (.spawn c) :: sequel device? c)
  | publishes {r : Reply} {slot : Slot} (opened : new slot) : Launching c device? new r
      (.dataLane (.publish c slot) :: sequel device? c)
  | withdraws {r : Reply} {slot : Slot} (opened : new slot) : Launching c device? new r (.dataLane (.requestStop slot.lane) ::
      .dataLane (.retire slot.worker) :: .release .laneMap :: .answer (.done (.ok ())) :: sequel device? c)
  | retires {r : Reply} {slot : Slot} (opened : new slot) : Launching c device? new r (.dataLane (.retire slot.worker) ::
      .release .laneMap :: .answer (.done (.ok ())) :: sequel device? c)
  | started (silent : device? = none) : Launching c device? new (.done (.ok ())) []
  | announces {device : DeviceInfo} (reports : device? = some device) :
      Launching c device? new (.done (.ok ())) [.hub (.connectionStarted device c)]
  | enqueues {r : Reply} {device : DeviceInfo} (reports : device? = some device) :
      Launching c device? new r [.deviceLane (.enqueue (.connected device c))]
  | pushes {r : Reply} {device : DeviceInfo} (reports : device? = some device) :
      Launching c device? new r [.deviceLane (.push (.connected device c)), .release .deviceQueue]
  | ended {r : Reply} (reports : device?.isSome = true) : Launching c device? new r []

def Job.cost : Job → Nat
  | .log _ => 2
  | .join .. => 3
  | .dataLane (.retire _) => 4
  | .dataLane (.publish ..) => 10
  | .dataLane (.spawn _) => 12
  | .dataLane (.start _) => 15
  | .deviceLane (.enqueue _) => 5
  | .hub (.connectionStarted ..) => 7
  | .hub (.connect ..) => 27
  | _ => 1

inductive Move (c : ConnectionHandle) (device? : Option DeviceInfo) (new : Slot → Prop) (m : Machine) : Job → Hub →
    List Job → Prop where
  | calm {job : Job} {next : List Job} (calm : job.calm = true) (behind : ∀ j ∈ next, j = .resume ∨ ∃ record, j = .log record)
      (cheap : weight Job.cost next < job.cost) : Move c device? new m job m.hub next
  | connects {device : DeviceInfo} (reports : device? = some device) : Move c device? new m (.hub (.connect device c)) m.hub
      (Job.logHub (.connected device c) :: .hub (.recordConnection device c) :: (Plan.startLane c ++ sequel device? c))
  | records {device : DeviceInfo} (reports : device? = some device) : Move c device? new m (.hub (.recordConnection device c))
      { m.hub with connections := m.hub.connections.insert c device } []
  | finds (occupied : m.hub.dataLanes.occupied c = true) : Move c device? new m (.dataLane (.start c)) m.hub
      [Job.logDataLane c .occupied, .release .laneMap, .answer (.done (.ok ()))]
  | misses : Move c device? new m (.dataLane (.start c)) m.hub [.release .laneMap, .dataLane .reap, .dataLane (.spawn c)]
  | reaps : Move c device? new m (.dataLane .reap) { m.hub with dataLanes := (m.hub.dataLanes.reap m.exited).2 }
      ((m.hub.dataLanes.retired.filter m.exited).map DataLaneJob.joinWorker)
  | spawns : Move c device? new m (.dataLane (.spawn c)) { m.hub with dataLanes := (m.hub.dataLanes.openLane c).2 }
      [.acquire .laneMap, .dataLane (.publish c ⟨⟨m.hub.dataLanes.lanes.length⟩, ⟨m.agendas.length⟩⟩)]
  | wins {slot : Slot} (opened : new slot) (vacant : m.hub.dataLanes.occupied c = false) : Move c device? new m
      (.dataLane (.publish c slot))
      { m.hub with dataLanes := m.hub.dataLanes.publish c slot }
        [Job.logDataLane c .started, .release .laneMap, .answer (.done (.ok ()))]
  | loses {slot : Slot} (opened : new slot) (occupied : m.hub.dataLanes.occupied c = true) : Move c device? new m
      (.dataLane (.publish c slot)) m.hub
      [Job.logDataLane c .occupied, .dataLane (.requestStop slot.lane), .dataLane (.retire slot.worker), .release .laneMap,
        .answer (.done (.ok ()))]
  | withdraws {slot : Slot} (opened : new slot) : Move c device? new m (.dataLane (.requestStop slot.lane))
      { m.hub with dataLanes := m.hub.dataLanes.changeLane slot.lane (·.requestStop) } []
  | retires {slot : Slot} (opened : new slot) : Move c device? new m (.dataLane (.retire slot.worker))
      { m.hub with dataLanes := m.hub.dataLanes.retire slot.worker } []
  | announces {device : DeviceInfo} (reports : device? = some device) : Move c device? new m
      (.hub (.connectionStarted device c)) m.hub
      (Plan.enqueueDevice (.connected device c))
  | enqueues {device : DeviceInfo} (reports : device? = some device) : Move c device? new m
      (.deviceLane (.enqueue (.connected device c)))
      { m.hub with metrics := { m.hub.metrics with enqueued := m.hub.metrics.enqueued + 1 } }
      [Job.logDeviceLane (.queued (.connected device c) (m.hub.deviceLane.queue.length + 1)),
        .deviceLane (.push (.connected device c)),
        .release .deviceQueue]
  | pushes {device : DeviceInfo} (reports : device? = some device) : Move c device? new m (.deviceLane (.push (.connected device c)))
      { m.hub with deviceLane := m.hub.deviceLane.push (.connected device c) } []

-- Threads of this name are granted, now and later on.
structure System.Grants (s : System) (name : String) : Prop where
  valid : name.toList.contains '\x00' = false
  refusal : ∀ n, s.refusal name n = none

theorem System.Grants.answer {s : System} {name : String} (grants : s.Grants name) : s.answer name = .started := by
  simp only [System.answer, grants.valid, grants.refusal, Bool.false_eq_true, if_false]

theorem System.Grants.advance {s : System} {name : String} (grants : s.Grants name) (other : String) :
    (s.advance other).Grants name :=
  ⟨grants.valid, fun _ => grants.refusal _⟩

-- Lanes of a connection can be started.
structure Welcoming (c : ConnectionHandle) (m : Machine) : Prop where
  running : m.hub.terminating = false
  opened : m.hub.dataLanes.closed = false
  spawns : m.system.Grants (m.hub.config.dataThread c)

variable {device? : Option DeviceInfo} {new more' : Slot → Prop} {r : Reply} {h : Hub}

def Staged (c : ConnectionHandle) (device? : Option DeviceInfo) (new : Slot → Prop) (r : Reply) (left : List Job) : Prop :=
  ∃ front back, left = front ++ back ∧ (∀ j ∈ front, j.calm = true) ∧ Launching c device? new (answerAfter r front) back

theorem Launching.mono (starting : Launching c device? new r rest) (grows : ∀ slot, new slot → more' slot) :
    Launching c device? more' r rest := by
  cases starting with
  | connects reports => exact .connects reports
  | records reports => exact .records reports
  | opens => exact .opens
  | reaps => exact .reaps
  | spawns => exact .spawns
  | publishes opened => exact .publishes (grows _ opened)
  | withdraws opened => exact .withdraws (grows _ opened)
  | retires opened => exact .retires (grows _ opened)
  | started silent => exact .started silent
  | announces reports => exact .announces reports
  | enqueues reports => exact .enqueues reports
  | pushes reports => exact .pushes reports
  | ended reports => exact .ended reports

theorem Staged.mono (staged : Staged c device? new r rest) (grows : ∀ slot, new slot → more' slot) :
    Staged c device? more' r rest := by
  obtain ⟨front, back, split, calm, starting⟩ := staged
  exact ⟨front, back, split, calm, starting.mono grows⟩

theorem staged_sequel (c : ConnectionHandle) (device? : Option DeviceInfo) (new : Slot → Prop) :
    Launching c device? new (.done (.ok ())) (sequel device? c) := by
  cases device? with
  | none => exact .started rfl
  | some device => exact .announces rfl

theorem Launching.turn {below : List Job} (starting : Launching c device? new (m.reply t) (job :: rest)) (ready : Welcoming c m) :
    Move c device? new m job (job.exec m t).1.hub (job.exec m t).2 ∧ Staged c device?
      (fun slot => new slot ∨ Moment.opens ⟨m, t, job, below⟩ = some slot) (m.reply t) ((job.exec m t).2 ++ rest) := by
  obtain ⟨running, opened, grants⟩ := ready
  have spawns := grants.answer
  generalize reply : m.reply t = r at starting ⊢
  cases starting with
  | connects reports =>
      rename_i device
      have exec : (Job.hub (.connect device c)).exec m t =
          (m, Job.logHub (.connected device c) :: .hub (.recordConnection device c) :: (Plan.startLane c ++ sequel device? c)) := by
        simp [Job.exec, HubJob.exec, running, reports, sequel]
      rw [exec]
      exact ⟨.connects reports, [_], _, by rw [List.append_nil]; rfl, by simp [Job.logHub, Job.calm], .records reports⟩
  | records reports => exact ⟨.records reports, [.acquire .laneMap], _, rfl, by simp [Job.calm], .opens⟩
  | opens =>
      cases occupied : m.hub.dataLanes.occupied c with
      | true =>
          have exec : (Job.dataLane (.start c)).exec m t =
              (m, [Job.logDataLane c .occupied, .release .laneMap, .answer (.done (.ok ()))]) := by
            simp [Job.exec, DataLaneJob.exec, opened, occupied]
          rw [exec]
          exact ⟨.finds occupied, [_, _, _], _, rfl, by simp [Job.logDataLane, Job.calm], staged_sequel ..⟩
      | false =>
          have exec : (Job.dataLane (.start c)).exec m t = (m, [.release .laneMap, .dataLane .reap, .dataLane (.spawn c)]) := by
            simp [Job.exec, DataLaneJob.exec, opened, occupied]
          rw [exec]
          exact ⟨.misses, [.release .laneMap], _, rfl, by simp [Job.calm], .reaps⟩
  | reaps =>
      exact ⟨.reaps, (m.hub.dataLanes.retired.filter m.exited).map DataLaneJob.joinWorker, _, rfl,
        List.forall_mem_map.mpr fun _ _ => rfl, .spawns⟩
  | spawns =>
      have threads : m.agendas.length = m.threads.length := List.length_map ..
      have exec : (Job.dataLane (.spawn c)).exec m t = ((((m.answered (m.hub.config.dataThread c)).spawn (m.hub.config.dataThread c)
          (Plan.dataWorker c ⟨m.hub.dataLanes.lanes.length⟩)).2.setDataLanes (m.hub.dataLanes.openLane c).2),
          [.acquire .laneMap, .dataLane (.publish c ⟨⟨m.hub.dataLanes.lanes.length⟩, ⟨m.agendas.length⟩⟩)]) := by
        simp [Job.exec, DataLaneJob.exec, spawns, Machine.spawn, DataLanes.openLane, threads]
      rw [exec]
      refine ⟨.spawns, [.acquire .laneMap], _, rfl, by simp [Job.calm], .publishes (.inr ?_)⟩
      simp [Moment.opens, spawns, threads]
  | publishes mine =>
      rename_i slot
      cases occupied : m.hub.dataLanes.occupied c with
      | true =>
          have exec : (Job.dataLane (.publish c slot)).exec m t =
              (m, [Job.logDataLane c .occupied, .dataLane (.requestStop slot.lane),
              .dataLane (.retire slot.worker), .release .laneMap, .answer (.done (.ok ()))]) := by
            simp [Job.exec, DataLaneJob.exec, opened, occupied]
          rw [exec]
          exact ⟨.loses mine occupied, [Job.logDataLane c .occupied], _, rfl, by simp [Job.logDataLane, Job.calm],
            .withdraws (.inl mine)⟩
      | false =>
          have exec : (Job.dataLane (.publish c slot)).exec m t = (m.setDataLanes (m.hub.dataLanes.publish c slot),
              [Job.logDataLane c .started, .release .laneMap, .answer (.done (.ok ()))]) := by
            simp [Job.exec, DataLaneJob.exec, opened, occupied]
          rw [exec]
          exact ⟨.wins mine occupied, [_, _, _], _, rfl, by simp [Job.logDataLane, Job.calm], staged_sequel ..⟩
  | withdraws mine => exact ⟨.withdraws mine, [], _, rfl, fun _ none => (by cases none), .retires (.inl mine)⟩
  | retires mine => exact ⟨.retires mine, [_, _], _, rfl, by simp [Job.calm], staged_sequel ..⟩
  | announces reports =>
      rename_i device
      have exec : (Job.hub (.connectionStarted device c)).exec m t = (m, Plan.enqueueDevice (.connected device c)) := by
        simp [Job.exec, HubJob.exec, reply, Reply.error?]
      rw [exec]
      exact ⟨.announces reports, [.acquire .deviceQueue], _, rfl, by simp [Job.calm], .enqueues reports⟩
  | enqueues reports =>
      rename_i device
      have exec : (Job.deviceLane (.enqueue (.connected device c))).exec m t =
          (m.setMetrics { m.hub.metrics with enqueued := m.hub.metrics.enqueued + 1 },
            [Job.logDeviceLane (.queued (.connected device c) (m.hub.deviceLane.queue.length + 1)),
              .deviceLane (.push (.connected device c)), .release .deviceQueue]) := by
        simp [Job.exec, DeviceLaneJob.exec, running]
      rw [exec]
      exact ⟨.enqueues reports, [_], _, rfl, by simp [Job.logDeviceLane, Job.calm], .pushes reports⟩
  | pushes reports => exact ⟨.pushes reports, [.release .deviceQueue], [], rfl, by simp [Job.calm], .ended (reports ▸ rfl)⟩

theorem calm_moves {below : List Job} (calm : job.calm = true) (unhooked : Moment.unhooked ⟨m, t, job, below⟩) :
    Move c device? new m job (job.exec m t).1.hub (job.exec m t).2 := by
  have still : (job.exec m t).1.hub = m.hub := by
    cases job with
    | log record => exact hub_log m t record
    | acquire | release | answer | resume | join => rfl
    | _ => cases calm
  rw [still]
  cases job with
  | log record =>
      rcases unhooked.next with none | one
      · exact .calm calm (by simp [Job.exec, none]) (by simp [Job.exec, none, Job.cost])
      · exact .calm calm (by simp [Job.exec, one]) (by simp [Job.exec, one, Job.cost])
  | join lane w =>
      refine .calm calm ?_ ?_ <;> simp only [Job.exec] <;> repeat' split
      all_goals simp [Job.cost]
  | acquire | release | answer | resume => exact .calm calm (fun _ none => by cases none) (by simp [Job.exec, Job.cost])
  | _ => cases calm

inductive Dawdling (m : Machine) (id : LaneId) : Job → Hub → List Job → Prop where
  | writes {record : Log.Record} : Dawdling m id (.log record) m.hub []
  | parks {lane : DataLane} (known : m.hub.dataLanes.lane? id = some lane) (empty : lane.items = []) (open_ : lane.stopping = false) :
      Dawdling m id (.dataLane (.look id)) { m.hub with dataLanes := m.hub.dataLanes.changeLane id fun _ =>
      { lane with parked := true } }
        [.dataLane (.look id)]
  | finishes {lane : DataLane} (known : m.hub.dataLanes.lane? id = some lane) (empty : lane.items = [])
      (stopping : lane.stopping = true) :
      Dawdling m id (.dataLane (.look id)) { m.hub with dataLanes := m.hub.dataLanes.changeLane id fun _ =>
        { lane with exited := true } }
        [Job.logDataLane lane.connection .terminated]

theorem Run.idle (run : Run config hooks past m) (member : slot ∈ roster past) (unaccepted : acceptedOn slot.lane past = [])
    (running : m.hub.terminating = false) (agenda : m.agenda slot.worker = job :: behind) :
    job.idles slot.lane ∧ Dawdling m slot.lane job (job.exec m slot.worker).1.hub (job.exec m slot.worker).2 := by
  obtain ⟨lane, known⟩ := lane_known (run.rostered.known slot member).1
  have empty := run.vacant unaccepted known
  have idles := (run.idling slot member unaccepted).2.1
  rw [agenda] at idles
  have here := idles job (List.mem_cons_self ..)
  refine ⟨here, ?_⟩
  rcases here with ⟨record, rfl⟩ | rfl
  · have next : (m.log slot.worker record).2 = [] := by simp [Machine.log, run.rostered.apart member]
    simp only [Job.exec, next, hub_log]
    exact .writes
  · simp only [Job.exec, DataLaneJob.exec, known, DataLaneJob.lookAtLane]
    rcases DataLane.look_cases m.hub.terminating lane with
      ⟨ending, _, _⟩ | ⟨_, stopping, seen⟩ | ⟨_, _, open_, seen⟩ | ⟨full, _, _⟩
    · rw [running] at ending
      cases ending
    · rw [seen]
      exact .finishes known empty stopping
    · rw [seen]
      exact .parks known empty open_
    · exact absurd empty full

theorem Welcoming.carry (ready : Welcoming c m) (t : ThreadId) (job : Job) (later : List Job)
    (still : (job.exec m t).1.hub.terminating = m.hub.terminating ∧
      (job.exec m t).1.hub.dataLanes.closed = m.hub.dataLanes.closed) : Welcoming c (m.carry t job later) where
  running := still.1.trans ready.running
  opened := still.2.trans ready.opened
  spawns := by
    have system : (m.carry t job later).system = (job.newThread m.hub).elim m.system m.system.advance :=
      (books_exec m t job later).system
    rw [hub_carry, (lasting_exec m t job).config, system]
    cases job.newThread m.hub with
    | none => exact ready.spawns
    | some name => exact ready.spawns.advance name

theorem Move.still {next : List Job} (moves : Move c device? new m job h next) :
    h.terminating = m.hub.terminating ∧ h.dataLanes.closed = m.hub.dataLanes.closed := by
  cases moves <;> exact ⟨rfl, rfl⟩

theorem Move.unaccepting {next : List Job} (moves : Move c device? new m job h next) (id : LaneId) : job.accepted m id = [] := by
  cases moves with
  | calm calm => cases job <;> first | rfl | cases calm
  | _ => rfl

theorem Dawdling.still {next : List Job} (idle : Dawdling m id job h next) :
    h.terminating = m.hub.terminating ∧ h.dataLanes.closed = m.hub.dataLanes.closed := by
  cases idle <;> exact ⟨rfl, rfl⟩

theorem Launching.unanswering (starting : Launching c device? new r (job :: rest)) (reply : Reply) : job ≠ .answer reply := by
  cases starting <;> exact fun none => by cases none

theorem Staged.turn {below : List Job} (staged : Staged c device? new (m.reply t) (job :: rest)) (ready : Welcoming c m)
    (agenda : m.agenda t = job :: below) (unhooked : Moment.unhooked ⟨m, t, job, below⟩) :
    Move c device? new m job (job.exec m t).1.hub (job.exec m t).2 ∧ Staged c device?
      (fun slot => new slot ∨ Moment.opens ⟨m, t, job, below⟩ = some slot) ((m.carry t job below).reply t)
        ((job.exec m t).2 ++ rest) := by
  obtain ⟨front, back, split, calm, starting⟩ := staged
  cases front with
  | nil =>
      rw [List.nil_append] at split
      subst split
      rw [reply_carry (known_lt (agenda_known agenda (List.cons_ne_nil _ _))) (.inr starting.unanswering)]
      exact starting.turn ready
  | cons j front =>
      rw [List.cons_append, List.cons.injEq] at split
      obtain ⟨rfl, rfl⟩ := split
      have here := calm job (List.mem_cons_self ..)
      refine ⟨calm_moves here unhooked, (job.exec m t).2 ++ front, back, (List.append_assoc ..).symm, ?_, ?_⟩
      · exact List.forall_mem_append.mpr ⟨fun k member => (calm_next here unhooked k member).1,
          fun k member => calm k (List.mem_cons_of_mem _ member)⟩
      · rw [calm_answerAfter agenda here unhooked]
        exact starting.mono fun _ => .inl

theorem Gathering.unaccepted (gathering : Gathering ts later start plan more m left) (run : Run config hooks past start)
    (none : ∀ id, acceptedOn id more = []) (member : slot ∈ roster more) : acceptedOn slot.lane (past ++ more) = [] := by
  have unknown : start.hub.dataLanes.lane? slot.lane = .none := List.getElem?_eq_none_iff.mpr (gathering.fresh.2.2 slot member).2
  have book := run.booked slot.lane
  rw [Booked, unknown] at book
  exact (List.flatMap_append ..).trans (by rw [← acceptedOn, ← acceptedOn, book.accepted, none, List.append_nil])

theorem roster_later (member : slot ∈ roster more) : slot ∈ roster (past ++ more) := by
  rw [roster, List.filterMap_append]
  exact List.mem_append_right _ member

theorem Gathering.staged (gathering : Gathering ts later start (outset device? c) more m left) (run : Run config hooks past start)
    (ready : Welcoming c start) : Welcoming c m ∧ (∀ id, acceptedOn id more = []) ∧
      ∀ t ∈ ts, Staged c device? (· ∈ roster more) (m.reply t) (left t) := by
  induction gathering with
  | begin =>
      refine ⟨ready, fun _ => rfl, fun t _ => ?_⟩
      cases device? with
      | none => exact ⟨[.acquire .laneMap], _, rfl, by simp [Job.calm], .opens⟩
      | some device => exact ⟨[], _, rfl, fun _ none => (by cases none), .connects rfl⟩
  | own gathering mine first notPanic enabled unhooked ih =>
      rename_i more m left t job rest
      obtain ⟨ready, unaccepting, staged⟩ := ih
      have agenda := (gathering.fresh.2.1 t mine).1
      rw [first, List.cons_append] at agenda
      have here := staged t mine
      rw [first] at here
      obtain ⟨moves, goes⟩ := here.turn ready agenda unhooked
      have opens : ∀ {slot}, slot ∈ roster more ∨ Moment.opens ⟨m, t, job, rest ++ later t⟩ = some slot →
          slot ∈ roster (more ++ [_]) :=
        mem_roster_snoc.mpr
      refine ⟨ready.carry t job _ moves.still, fun id => ?_, fun u ours => ?_⟩
      · rw [acceptedOn_snoc, unaccepting, moves.unaccepting id]
        rfl
      · by_cases same : u = t
        · subst same
          rw [Function.update_self]
          exact goes.mono fun _ => opens
        · rw [Function.update_of_ne same, reply_carry (gathering.calling ours).placed.1 (.inl same)]
          exact (staged u ours).mono fun _ old => opens (.inl old)
  | worker gathering member agenda went ih =>
      rename_i more m m' left slot job behind
      obtain ⟨ready, unaccepting, staged⟩ := ih
      have unaccepted := gathering.unaccepted run unaccepting member
      obtain ⟨idles, idle⟩ := (gathering.run run).idle (roster_later member) unaccepted ready.running agenda
      have notPanic : job ≠ .panic := by rintro rfl; rcases idles with ⟨_, none⟩ | none <;> cases none
      rcases step_cases agenda went with ⟨panics, _⟩ | ⟨_, _, rfl⟩
      · exact absurd panics notPanic
      refine ⟨ready.carry _ job _ idle.still, fun id => ?_, fun u ours => ?_⟩
      · rw [acceptedOn_snoc, unaccepting]
        rcases idles with ⟨_, rfl⟩ | rfl <;> rfl
      · have apart : u ≠ slot.worker := fun same => by
          have new := gathering.fresh
          exact Nat.not_lt.mpr (new.2.2 slot member).1 (same ▸ (new.2.1 u ours).2)
        rw [reply_carry (gathering.calling ours).placed.1 (.inl apart)]
        exact (staged u ours).mono fun _ old => mem_roster_snoc.mpr (.inl old)

-- Induction over what the turns make of the hub.
theorem Gathering.induct {P : List Moment → Hub → (ThreadId → List Job) → Prop} (begin : P [] start.hub fun _ => outset device? c)
    (own : ∀ {more m left t job rest hub next}, Gathering ts later start (outset device? c) more m left →
      P more m.hub left → t ∈ ts → left t = job :: rest → Move c device? (· ∈ roster more) m job hub next →
      P (more ++ [⟨m, t, job, rest ++ later t⟩]) hub (Function.update left t (next ++ rest)))
    (worker : ∀ {more m left slot job behind hub next}, Gathering ts later start (outset device? c) more m left →
      P more m.hub left → slot ∈ roster more → job.idles slot.lane → Dawdling m slot.lane job hub next →
      P (more ++ [⟨m, slot.worker, job, behind⟩]) hub left)
    (gathering : Gathering ts later start (outset device? c) more m left) (run : Run config hooks past start)
      (ready : Welcoming c start) :
    P more m.hub left := by
  induction gathering with
  | begin => exact begin
  | own gathering mine first notPanic enabled unhooked ih =>
      obtain ⟨ready, _, staged⟩ := gathering.staged run ready
      have agenda := (gathering.fresh.2.1 _ mine).1
      rw [first, List.cons_append] at agenda
      have here := staged _ mine
      rw [first] at here
      exact own gathering ih mine first (here.turn ready agenda unhooked).1
  | worker gathering member agenda went ih =>
      obtain ⟨ready, unaccepting, _⟩ := gathering.staged run ready
      obtain ⟨idles, idle⟩ := (gathering.run run).idle (roster_later member)
        (gathering.unaccepted run unaccepting member) ready.running agenda
      rcases step_cases agenda went with ⟨rfl, _⟩ | ⟨_, _, rfl⟩
      · rcases idles with ⟨_, none⟩ | none <;> cases none
      · exact worker gathering ih member idles idle

end TransportHub
