import TransportHub.Proofs.Roster
import TransportHub.Proofs.Sending
/-!
Refusals: what an operation leaves behind that ends with an error. Wherever it gives up, all that it has done until
then is to look, to write records, to reap workers that have exited, and to open a lane that nobody can reach.
-/

set_option autoImplicit false

namespace TransportHub

open DataLanes (Slot)

variable {config : Config} {hooks : List Hook} {past more own : List Moment} {start m m' : Machine} {t : ThreadId} {job : Job}
  {later left rest tail plan : List Job} {r : Reply} {x : Moment} {e : Error}

-- A hub without the workers that wait to be reaped and without the lanes behind its map.
def Hub.apparent (h : Hub) : Hub := { h with dataLanes := { h.dataLanes with lanes := [], retired := [] } }

def Job.reachesOut : Job → Bool
  | .participant job => (job matches .call .. | .hear ..)
  | _ => false

structure Idle (opened : List Slot) (x : Moment) : Prop where
  hub : (x.job.exec x.machine x.thread).1.hub.apparent = x.machine.hub.apparent
  lanes : ∀ id lane, x.machine.hub.dataLanes.lane? id = some lane → id ∉ opened.map (·.lane) →
    (x.job.exec x.machine x.thread).1.hub.dataLanes.lane? id = some lane
  silent : x.job.reachesOut = false

-- Turns that have come to nothing.
def Undone (own : List Moment) : Prop := ∀ x ∈ own, Idle (roster own) x

theorem Idle.grow {opened opened' : List Slot} (idle : Idle opened x) (grown : ∀ slot ∈ opened, slot ∈ opened') : Idle opened' x where
  hub := idle.hub
  lanes id lane known fresh := idle.lanes id lane known fun inside => by
    obtain ⟨slot, member, same⟩ := List.mem_map.mp inside
    exact fresh (List.mem_map.mpr ⟨slot, grown slot member, same⟩)
  silent := idle.silent

theorem roster_snoc_mem {slot : Slot} (member : slot ∈ roster own) (x : Moment) : slot ∈ roster (own ++ [x]) := by
  rw [roster, List.filterMap_append]
  exact List.mem_append_left _ member

theorem Undone.snoc (undone : Undone own) (idle : Idle (roster (own ++ [x])) x) : Undone (own ++ [x]) := by
  refine List.forall_mem_append.mpr ⟨fun y member => (undone y member).grow fun slot inside => roster_snoc_mem inside x, ?_⟩
  exact List.forall_mem_singleton.mpr idle

theorem Idle.still (same : (x.job.exec x.machine x.thread).1.hub = x.machine.hub) (silent : x.job.reachesOut = false)
    (opened : List Slot) : Idle opened x where
  hub := by rw [same]
  lanes _ _ known _ := by rw [same]; exact known
  silent := silent

theorem Idle.calm (calm : x.job.calm = true) (opened : List Slot) : Idle opened x := by
  obtain ⟨machine, thread, job, later⟩ := x
  cases job with
  | log record => exact .still (x := ⟨machine, thread, .log record, later⟩) (hub_log machine thread record) rfl opened
  | acquire | release | answer | resume | join => exact .still rfl rfl opened
  | _ => cases calm

-- An error, and an answer that is none.
def Reply.fault? : Reply → Option Error
  | .done (.error e) | .added (.error e) | .sent (.error e) => some e
  | _ => none

def Job.grants : Job → Bool
  | .answer reply => reply.fault?.isNone
  | .hub job => (job matches .claimNew .. | .claimAll)
  | _ => false

def Granted (r : Reply) (left : List Job) : Prop :=
  (left = [] ∧ r.fault? = none) ∨ ∃ front job, left = front ++ [job] ∧ job.grants = true

theorem Granted.turn (granted : Granted (m.reply t) (job :: rest)) (agenda : m.agenda t = job :: (rest ++ later)) :
    Granted ((m.carry t job (rest ++ later)).reply t) ((job.exec m t).2 ++ rest) := by
  obtain ⟨none, _⟩ | ⟨front, last, split, grants⟩ := granted
  · cases none
  · cases front with
    | cons j front =>
        rw [List.cons_append, List.cons.injEq] at split
        obtain ⟨rfl, rfl⟩ := split
        exact .inr ⟨(job.exec m t).2 ++ front, last, (List.append_assoc ..).symm, grants⟩
    | nil =>
        cases split
        cases job with
        | answer reply =>
            rw [reply_answer agenda]
            exact .inl ⟨rfl, Option.isNone_iff_eq_none.mp grants⟩
        | hub job =>
            cases job with
            | claimNew id adapter =>
                rw [List.append_nil]
                exact .inr ⟨_, .answer (.added (.ok id)), rfl, rfl⟩
            | claimAll =>
                rw [List.append_nil]
                exact .inr ⟨_, .answer (.done (.ok ())), rfl, rfl⟩
            | _ => cases grants
        | _ => cases grants

-- Operations that may end with an error of their own.
inductive Attempt : List Job → Prop where
  | add (adapter : AdapterKey) : Attempt (Plan.addAdapter adapter)
  | remove (id : AdapterId) : Attempt (Plan.removeAdapter id)
  | run : Attempt Plan.run
  | startDeviceLane : Attempt Plan.startDeviceLane
  | startLane (c : ConnectionHandle) : Attempt (Plan.startLane c)

-- What starting the device lane is followed by.
inductive Follows : List Job → Prop where
  | nothing : Follows []
  | running : Follows [.hub .laneStarted]

-- The decisions of an operation that has not been granted yet, by its answer so far and the lanes that it has opened.
inductive Pending (opened : List Slot) (r : Reply) : List Job → Prop where
  | adds (adapter : AdapterKey) : Pending opened r [.hub (.add adapter)]
  | registers (deviceType : String) (adapter : AdapterKey) : Pending opened r [.registry (.reserve deviceType adapter .hub)]
  | withdraws (id : AdapterId) : Pending opened r [.registry (.withdraw id .hub)]
  | runs : Pending opened r [.hub .run]
  | starts {tail : List Job} (follows : Follows tail) : Pending opened r (.deviceLane .start :: tail)
  | spawns {tail : List Job} (follows : Follows tail) : Pending opened r (.deviceLane .spawn :: tail)
  | crashes {tail : List Job} (follows : Follows tail) : Pending opened r (.panic :: tail)
  | failed {e : Error} (error : r.error? = some e) : Pending opened r [.hub .laneStarted]
  | opens (c : ConnectionHandle) : Pending opened r [.dataLane (.start c)]
  | reaps (c : ConnectionHandle) : Pending opened r [.dataLane .reap, .dataLane (.spawn c)]
  | spawnsLane (c : ConnectionHandle) : Pending opened r [.dataLane (.spawn c)]
  | publishes (c : ConnectionHandle) {slot : Slot} (mine : slot ∈ opened) : Pending opened r [.dataLane (.publish c slot)]
  | stops {slot : Slot} (e : Error) (mine : slot ∈ opened) : Pending opened r
      [.dataLane (.requestStop slot.lane), DataLaneJob.joinWorker slot.worker, .answer (.done (.error e))]
  | refused {e : Error} (fault : r.fault? = some e) : Pending opened r []

def Trying (r : Reply) (own : List Moment) (left : List Job) : Prop :=
  (Undone own ∧ Pending (roster own) r left) ∨ (left = [.hub .laneStarted] ∧ r.error? = none)

theorem Trying.decides (trying : Trying r own (job :: rest)) : job.calm = false := by
  rcases trying with ⟨_, pending⟩ | ⟨same, _⟩
  · cases pending <;> rfl
  · cases same
    rfl

theorem Trying.aside (trying : Trying r own left) (calm : x.job.calm = true) : Trying r (own ++ [x]) left := by
  refine trying.imp_left fun ⟨undone, pending⟩ => ⟨undone.snoc (.calm calm _), ?_⟩
  cases pending with
  | publishes c mine => exact .publishes c (roster_snoc_mem mine x)
  | stops e mine => exact .stops e (roster_snoc_mem mine x)
  | adds | registers | withdraws | runs | opens | reaps | spawnsLane => constructor
  | starts follows => exact .starts follows
  | spawns follows => exact .spawns follows
  | crashes follows => exact .crashes follows
  | failed error => exact .failed error
  | refused fault => exact .refused fault

def Decided (m : Machine) (t : ThreadId) (job : Job) (rest : List Job) (own : List Moment) : Prop :=
  (∃ front back, (job.exec m t).2 ++ rest = front ++ back ∧ (∀ j ∈ front, j.calm = true) ∧
    Trying (answerAfter (m.reply t) front) own back) ∨
    Granted (m.reply t) ((job.exec m t).2 ++ rest)

theorem Decided.grant (front : List Job) (last : Job) (split : (job.exec m t).2 ++ rest = front ++ [last])
    (grants : last.grants = true) :
    Decided m t job rest own := .inr (.inr ⟨front, last, split, grants⟩)

theorem Undone.decided (undone : Undone own) (front back : List Job)
    (idle : Idle (roster (own ++ [⟨m, t, job, later⟩])) ⟨m, t, job, later⟩) (split : (job.exec m t).2 ++ rest = front ++ back)
    (calm : front.all Job.calm = true)
    (pending : Pending (roster (own ++ [⟨m, t, job, later⟩])) (answerAfter (m.reply t) front) back) :
    Decided m t job rest (own ++ [⟨m, t, job, later⟩]) :=
  .inl ⟨front, back, split, List.all_eq_true.mp calm, .inl ⟨undone.snoc idle, pending⟩⟩

theorem Undone.stay {n : Machine} (undone : Undone own) (front back : List Job) (exec : job.exec m t = (n, front ++ back))
    (same : n.hub = m.hub) (silent : job.reachesOut = false) (calm : front.all Job.calm = true)
    (pending : Pending (roster (own ++ [⟨m, t, job, later⟩])) (answerAfter (m.reply t) front) (back ++ rest)) :
    Decided m t job rest (own ++ [⟨m, t, job, later⟩]) :=
  undone.decided front (back ++ rest) (.still (by rw [exec, same]) silent _) (by rw [exec, List.append_assoc]) calm pending

theorem fault_of_error (error : r.error? = some e) : r.fault? = some e := by
  unfold Reply.error? at error
  split at error
  · exact error
  · cases error

theorem Follows.failed (follows : Follows tail) (opened : List Slot) (e : Error) : Pending opened (.done (.error e)) tail := by
  cases follows with
  | nothing => exact .refused rfl
  | running => exact .failed rfl

theorem withdraw_next (t : ThreadId) {id : AdapterId} {entry : Registry.Entry} (found : m.hub.registry.find? id = some entry) :
    ∃ front, ((Job.registry (.withdraw id .hub)).exec m t).2 = front ++ [.answer (.done (.ok ()))] := by
  simp only [Job.exec, RegistryJob.exec, Registry.unregister, found, Option.map_some, RegistryJob.afterWithdrawal]
  exact ⟨_, (List.append_assoc ..).symm⟩

theorem Undone.adds (undone : Undone own) (adapter : AdapterKey) :
    Decided m t (.hub (.add adapter)) [] (own ++ [⟨m, t, .hub (.add adapter), later⟩]) := by
  cases terminating : m.hub.terminating with
  | true =>
      refine undone.stay [.release .lifecycle, .answer (.added (.error .shuttingDown))] [] ?_ rfl rfl rfl
        (.refused (e := .shuttingDown) rfl)
      simp [Job.exec, HubJob.exec, terminating]
  | false =>
      refine undone.stay [.acquire .registry] [.registry
        (.reserve (m.cast.deviceType adapter) adapter .hub)] ?_ rfl rfl rfl (.registers _ _)
      simp [Job.exec, HubJob.exec, terminating, Plan.register]

theorem Undone.withdraws (undone : Undone own) (id : AdapterId) :
    Decided m t (.registry (.withdraw id .hub)) [] (own ++ [⟨m, t, .registry (.withdraw id .hub), later⟩]) := by
  cases found : m.hub.registry.find? id with
  | some entry =>
      obtain ⟨front, next⟩ := withdraw_next t found
      exact .grant front (.answer (.done (.ok ()))) (by rw [next, List.append_nil]) rfl
  | none =>
      refine undone.stay [.release .registry, .release .publish, .answer (.done (.error (.unknownAdapter id)))] [] ?_ rfl rfl rfl
        (.refused (e := .unknownAdapter id) rfl)
      simp [Job.exec, RegistryJob.exec, Registry.unregister, found, RegistryJob.afterWithdrawal]

theorem Undone.runs (undone : Undone own) : Decided m t (.hub .run) [] (own ++ [⟨m, t, .hub .run, later⟩]) := by
  cases terminating : m.hub.terminating with
  | true =>
      refine undone.stay [.release .lifecycle, .answer (.done (.error .shuttingDown))] [] ?_ rfl rfl rfl
        (.refused (e := .shuttingDown) rfl)
      simp [Job.exec, HubJob.exec, terminating]
  | false =>
      cases running : m.hub.running with
      | true =>
          refine undone.stay [Job.logHub .runTwice, .release .lifecycle, .answer (.done (.error .alreadyRunning))] [] ?_ rfl rfl rfl
            (.refused (e := .alreadyRunning) rfl)
          simp [Job.exec, HubJob.exec, terminating, running]
      | false =>
          refine undone.stay [.acquire .deviceWorker] [.deviceLane .start, .hub .laneStarted] ?_ rfl rfl rfl (.starts .running)
          simp [Job.exec, HubJob.exec, terminating, running, Plan.startDeviceLane]

theorem Undone.starts (undone : Undone own) (follows : Follows tail) :
    Decided m t (.deviceLane .start) tail (own ++ [⟨m, t, .deviceLane .start, later⟩]) := by
  cases started : m.hub.deviceLane.worker.isSome with
  | true =>
      refine undone.stay [Job.logDeviceLane .alreadyStarted, .release .deviceWorker,
        .answer (.done (.error .alreadyRunning))] [] ?_ rfl rfl rfl
        (follows.failed _ .alreadyRunning)
      simp [Job.exec, DeviceLaneJob.exec, started]
  | false =>
      refine undone.stay [Job.logDeviceLane .starting] [.deviceLane .spawn] ?_ rfl rfl rfl (.spawns follows)
      simp [Job.exec, DeviceLaneJob.exec, started]

theorem Undone.spawns (undone : Undone own) (follows : Follows tail) :
    Decided m t (.deviceLane .spawn) tail (own ++ [⟨m, t, .deviceLane .spawn, later⟩]) := by
  cases spawned : m.system.answer m.hub.config.deviceThread with
  | started =>
      have next : ((Job.deviceLane .spawn).exec m t).2 =
          [Job.logDeviceLane .started, .release .deviceWorker, .answer (.done (.ok ()))] := by
        simp [Job.exec, DeviceLaneJob.exec, spawned]
      cases follows with
      | nothing =>
          exact .grant [Job.logDeviceLane .started, .release .deviceWorker] (.answer (.done (.ok ()))) (by rw [next]; rfl) rfl
      | running => exact .inl ⟨_, [.hub .laneStarted], by rw [next], by simp [Job.calm, Job.logDeviceLane], .inr ⟨rfl, rfl⟩⟩
  | refused cause =>
      refine undone.stay (n := m.answered m.hub.config.deviceThread)
        [Job.logDeviceLane (.cannotStart cause), .release .deviceWorker, .answer (.done (.error (.workerSpawn cause)))]
        [] ?_ rfl rfl rfl (follows.failed _ (.workerSpawn cause))
      simp [Job.exec, DeviceLaneJob.exec, spawned]
  | crashed =>
      refine undone.stay (n := m.answered m.hub.config.deviceThread) [] [.panic] ?_ rfl rfl rfl (.crashes follows)
      simp [Job.exec, DeviceLaneJob.exec, spawned]

theorem Undone.opens (undone : Undone own) (c : ConnectionHandle) :
    Decided m t (.dataLane (.start c)) [] (own ++ [⟨m, t, .dataLane (.start c), later⟩]) := by
  cases closed : m.hub.dataLanes.closed with
  | true =>
      refine undone.stay [Job.logDataLane c .closed, .release .laneMap, .answer (.done (.error .shuttingDown))] [] ?_ rfl rfl rfl
        (.refused (e := .shuttingDown) rfl)
      simp [Job.exec, DataLaneJob.exec, closed]
  | false =>
      cases occupied : m.hub.dataLanes.occupied c with
      | true =>
          refine .grant [Job.logDataLane c .occupied, .release .laneMap] (.answer (.done (.ok ()))) ?_ rfl
          simp [Job.exec, DataLaneJob.exec, closed, occupied]
      | false =>
          refine undone.stay [.release .laneMap] [.dataLane .reap, .dataLane (.spawn c)] ?_ rfl rfl rfl (.reaps c)
          simp [Job.exec, DataLaneJob.exec, closed, occupied]

theorem Undone.spawnsLane (undone : Undone own) (c : ConnectionHandle) :
    Decided m t (.dataLane (.spawn c)) [] (own ++ [⟨m, t, .dataLane (.spawn c), later⟩]) := by
  cases spawned : m.system.answer (m.hub.config.dataThread c) with
  | started =>
      have exec : (Job.dataLane (.spawn c)).exec m t = ((((m.answered (m.hub.config.dataThread c)).spawn (m.hub.config.dataThread c)
          (Plan.dataWorker c ⟨m.hub.dataLanes.lanes.length⟩)).2.setDataLanes (m.hub.dataLanes.openLane c).2),
          [.acquire .laneMap, .dataLane (.publish c ⟨⟨m.hub.dataLanes.lanes.length⟩, ⟨m.threads.length⟩⟩)]) := by
        simp [Job.exec, DataLaneJob.exec, spawned, Machine.spawn, DataLanes.openLane]
      refine undone.decided [.acquire .laneMap] [.dataLane (.publish c ⟨⟨m.hub.dataLanes.lanes.length⟩, ⟨m.threads.length⟩⟩)] ?_
        (by rw [exec]; rfl) rfl (.publishes c ?_)
      · refine ⟨by rw [exec]; rfl, fun id lane known _ => ?_, rfl⟩
        rw [exec]
        exact (List.getElem?_append_left (List.getElem?_eq_some_iff.mp known).1).trans known
      · rw [roster, List.filterMap_append]
        exact List.mem_append_right _ (by simp [Moment.opens, spawned])
  | refused cause =>
      refine undone.stay (n := m.answered (m.hub.config.dataThread c))
        [Job.logDataLane c (.cannotStart cause), .answer (.done (.error (.workerSpawn cause)))] [] ?_ rfl rfl rfl
        (.refused (e := .workerSpawn cause) rfl)
      simp [Job.exec, DataLaneJob.exec, spawned]
  | crashed =>
      refine undone.stay (n := m.answered (m.hub.config.dataThread c)) [] [.panic] ?_ rfl rfl rfl (.crashes .nothing)
      simp [Job.exec, DataLaneJob.exec, spawned]

theorem Undone.publishes (undone : Undone own) (c : ConnectionHandle) {slot : Slot} (mine : slot ∈ roster own) :
    Decided m t (.dataLane (.publish c slot)) [] (own ++ [⟨m, t, .dataLane (.publish c slot), later⟩]) := by
  cases closed : m.hub.dataLanes.closed with
  | true =>
      refine undone.stay [.release .laneMap, Job.logDataLane c .closedWhileStarting] [_, _, _] ?_ rfl rfl rfl
        (.stops .shuttingDown (roster_snoc_mem mine _))
      simp [Job.exec, DataLaneJob.exec, closed]
  | false =>
      cases occupied : m.hub.dataLanes.occupied c with
      | true =>
          refine .grant [Job.logDataLane c .occupied, .dataLane (.requestStop slot.lane), .dataLane (.retire slot.worker),
            .release .laneMap] (.answer (.done (.ok ()))) ?_ rfl
          simp [Job.exec, DataLaneJob.exec, closed, occupied]
      | false =>
          refine .grant [Job.logDataLane c .started, .release .laneMap] (.answer (.done (.ok ()))) ?_ rfl
          simp [Job.exec, DataLaneJob.exec, closed, occupied]

theorem Undone.stops (undone : Undone own) {slot : Slot} (e : Error) (mine : slot ∈ roster own) :
    Decided m t (.dataLane (.requestStop slot.lane)) [DataLaneJob.joinWorker slot.worker, .answer (.done (.error e))]
      (own ++ [⟨m, t, .dataLane (.requestStop slot.lane), later⟩]) := by
  refine undone.decided [DataLaneJob.joinWorker slot.worker, .answer (.done (.error e))] []
    ⟨rfl, fun id lane known fresh => ?_, rfl⟩ rfl rfl
    (.refused (e := e) rfl)
  have apart : slot.lane ≠ id := fun same => fresh (List.mem_map.mpr ⟨slot, roster_snoc_mem mine _, same⟩)
  exact (lane_change m.hub.dataLanes slot.lane id _ known).trans (by rw [if_neg apart])

theorem Trying.turn (trying : Trying (m.reply t) own (job :: rest)) (notPanic : job ≠ .panic) :
    Decided m t job rest (own ++ [⟨m, t, job, rest ++ later⟩]) := by
  rcases trying with ⟨undone, pending⟩ | ⟨same, fine⟩
  · cases pending with
    | adds adapter => exact undone.adds adapter
    | registers deviceType adapter => exact .grant [_, _, _] (.hub (.claimNew m.hub.registry.nextId adapter)) rfl rfl
    | withdraws id => exact undone.withdraws id
    | runs => exact undone.runs
    | starts follows => exact undone.starts follows
    | spawns follows => exact undone.spawns follows
    | crashes => exact absurd rfl notPanic
    | failed error =>
        refine undone.stay [.release .lifecycle] [] ?_ rfl rfl rfl (.refused (fault_of_error error))
        simp [Job.exec, HubJob.exec, error]
    | opens c => exact undone.opens c
    | reaps c =>
        refine undone.decided ((m.hub.dataLanes.retired.filter m.exited).map DataLaneJob.joinWorker) [.dataLane (.spawn c)]
          ⟨rfl, fun _ _ known _ => known, rfl⟩ rfl ?_ ?_
        · simp [DataLaneJob.joinWorker, Job.calm]
        · exact .spawnsLane c
    | spawnsLane c => exact undone.spawnsLane c
    | publishes c mine => exact undone.publishes c mine
    | stops e mine => exact undone.stops e mine
  · cases same
    refine .grant [] (.hub .claimAll) ?_ rfl
    simp only [Job.exec, HubJob.exec, fine]
    rfl

theorem Attempt.decided (attempt : Attempt plan) (calling : Calling t later m plan more m' left)
    (unhooked : ∀ x ∈ ownTurns t more, x.unhooked) :
    (∃ front back, left = front ++ back ∧ (∀ j ∈ front, j.calm = true) ∧
      Trying (answerAfter (m'.reply t) front) (ownTurns t more) back) ∨ Granted (m'.reply t) left := by
  have undone : Undone [] := fun _ none => by cases none
  have begins : ∃ front back, plan = front ++ back ∧ front.all Job.calm = true ∧ ∀ r, Trying r [] back := by
    cases attempt with
    | add adapter => exact ⟨[.acquire .lifecycle], [.hub (.add adapter)], rfl, rfl, fun _ => .inl ⟨undone, .adds adapter⟩⟩
    | remove id => exact ⟨[.acquire .publish, .acquire .registry], [_], rfl, rfl, fun _ => .inl ⟨undone, .withdraws id⟩⟩
    | run => exact ⟨[.acquire .lifecycle], [.hub .run], rfl, rfl, fun _ => .inl ⟨undone, .runs⟩⟩
    | startDeviceLane => exact ⟨[.acquire .deviceWorker], [_], rfl, rfl, fun _ => .inl ⟨undone, .starts .nothing⟩⟩
    | startLane c => exact ⟨[.acquire .laneMap], [_], rfl, rfl, fun _ => .inl ⟨undone, .opens c⟩⟩
  obtain ⟨front, back, split, calm, first⟩ := begins
  exact Calling.decisions_until (fun _ => id) front back split ⟨List.all_eq_true.mp calm, first _⟩ Trying.decides Trying.aside
    (fun trying notPanic _ _ => trying.turn notPanic) Granted.turn calling unhooked

theorem Attempt.refused (attempt : Attempt plan) (calling : Calling t later m plan more m' [])
    (unhooked : ∀ x ∈ ownTurns t more, x.unhooked) (fault : (m'.reply t).fault? = some e) : Undone (ownTurns t more) := by
  rcases attempt.decided calling unhooked with ⟨front, back, split, _, trying⟩ | ⟨_, fine⟩ | ⟨front, job, split, _⟩
  · obtain ⟨rfl, rfl⟩ := List.append_eq_nil_iff.mp split.symm
    rcases trying with ⟨undone, _⟩ | ⟨none, _⟩
    · exact undone
    · cases none
  · rw [fine] at fault
    cases fault
  · exact absurd split.symm (List.append_ne_nil_of_right_ne_nil _ (List.cons_ne_nil _ _))

theorem Attempt.crashed (attempt : Attempt plan) (calling : Calling t later m plan more m' (.panic :: tail)) (follows : Follows tail)
    (unhooked : ∀ x ∈ ownTurns t more, x.unhooked) : Undone (ownTurns t more) := by
  rcases attempt.decided calling unhooked with ⟨front, back, split, calm, trying⟩ | ⟨none, _⟩ | ⟨front, job, split, grants⟩
  · cases front with
    | nil =>
        rcases trying with ⟨undone, _⟩ | ⟨same, _⟩
        · exact undone
        · rw [List.nil_append] at split
          rw [← split] at same
          cases same
    | cons j front =>
        cases split
        cases calm .panic (List.mem_cons_self ..)
  · cases none
  · cases follows with
    | nothing =>
        obtain ⟨_, same⟩ := List.append_inj' (show [] ++ [Job.panic] = front ++ [job] from split) rfl
        cases same
        cases grants
    | running =>
        obtain ⟨_, same⟩ := List.append_inj' (show [Job.panic] ++ [.hub .laneStarted] = front ++ [job] from split) rfl
        cases same
        cases grants

def Job.consults : Job → Bool
  | .answer _ => true
  | .hub job => (job matches .send .. | .findDevice .. | .findOwners ..)
  | _ => false

theorem undone_consults (consults : ∀ x ∈ own, x.job.consults = true) : Undone own := by
  intro x member
  have here := consults x member
  obtain ⟨machine, thread, job, later⟩ := x
  cases job with
  | answer => exact .still rfl rfl _
  | hub job => cases job <;> first | exact .still rfl rfl _ | cases here
  | _ => cases here

theorem SendOutcome.refused {c : ConnectionHandle} {data : Payload} (outcome : SendOutcome c data r own) (fault : r.fault? = some e) :
    Undone own ∨ ∃ owner s, Hands c data own owner s (.error e) := by
  cases outcome with
  | ending asked _ answered => exact .inl (undone_consults (by simp [asked, answered, Job.consults]))
  | unlinked asked _ looked _ answered => exact .inl (undone_consults (by simp [asked, looked, answered, Job.consults]))
  | unowned asked _ looked _ searched _ answered =>
      exact .inl (undone_consults (by simp [asked, looked, searched, answered, Job.consults]))
  | handed picked handing known settled answered =>
      rename_i asks looks searches picks hands settles answers front back device owner a
      have verdict : a.spec.verdict = .error e := by
        cases verdict : a.spec.verdict with
        | ok => simp [verdict, Except.map, Reply.fault?] at fault
        | error e' =>
            simp only [verdict, Except.map, Reply.fault?, Option.some.injEq] at fault
            rw [fault]
      refine .inr ⟨owner, _, asks :: looks :: searches :: picks :: front, hands, back ++ [settles, answers], a, by simp,
        ⟨asks, looks, searches, picks, device, front, rfl, picked, rfl⟩, handing, known, verdict.symm⟩

-- Whatever gives up with an error of its own leaves the hub as it was, and so does a start whose thread cannot be built; a
-- send may also bring back the error of the adapter that was handed its frame.
structure RefusalsUndone (m : Machine) : Prop where
  refused : ∀ start t later plan more m' e, Attempt plan → Calling t later start plan more m' [] →
    (∀ x ∈ ownTurns t more, x.unhooked) →
    (m'.reply t).fault? = some e → Undone (ownTurns t more)
  crashed : ∀ start t later plan more m' tail, Attempt plan → Follows tail → Calling t later start plan more m' (.panic :: tail) →
    (∀ x ∈ ownTurns t more, x.unhooked) → Undone (ownTurns t more) ∧ (m'.unwind t (tail ++ later)).hub.apparent =
      { m'.hub.apparent with attached := (m'.unwind t (tail ++ later)).hub.attached }
  sent : ∀ t later c data more m' e, Calling t later m [.hub (.send c data)] more m' [] → (m'.reply t).fault? = some e →
    Undone (ownTurns t more) ∨ ∃ owner s, Hands c data (ownTurns t more) owner s (.error e)
  alone : ∀ start t later plan more m' left, Calling t later start plan more m' left → (∀ x ∈ more, x.thread = t) →
    Undone (ownTurns t more) → m'.hub.apparent = start.hub.apparent

theorem refusals_undone (run : Run config hooks past m) : RefusalsUndone m where
  refused _ _ _ _ _ _ _ attempt calling unhooked fault := attempt.refused calling unhooked fault
  crashed _ t later _ _ m' tail attempt follows calling unhooked := by
    refine ⟨attempt.crashed calling follows unhooked, ?_⟩
    rcases hub_unwind m' t (tail ++ later) with same | same <;> rw [same] <;> rfl
  sent _ _ _ _ _ _ _ calling fault := ((calling.sending run).outcome rfl).refused fault
  alone _ t _ _ _ _ _ calling alone undone := by
    refine calling.alone (f := fun hub _ => hub.apparent) alone fun x member => ?_
    have idle := undone x (mem_ownTurns.mpr ⟨member, alone x member⟩)
    exact alone x member ▸ idle.hub

def crampedConfig : Config := { quietConfig with stackSize := some (1 <<< 60) }

-- An adapter is registered, lists a device of which nobody is told yet, and the hub is about to be started.
def crampedSession : List Moment × Machine :=
  act .run (rounds [(1, 0)]) (solo crampedConfig [] [.report ⟨1⟩ (.listUpdated [phone 1]), .addAdapter (.fresh { name := "a" })])

def crampedStart : List Moment × Machine := crampedSession.2.play (List.replicate 13 .caller)

theorem cramped_calling : Calling .caller [] crampedSession.2 Plan.run crampedStart.1 crampedStart.2 [] := by
  have begins : Calling .caller [] crampedSession.2 Plan.run [] crampedSession.2 Plan.run := .begin rfl (by simp [Plan.run])
  have ended : crampedStart.2.agenda .caller = [] := rfl
  exact ended ▸ begins.play 13 (by decide +kernel)

-- One lane is up and another is about to be started, whose thread is refused.
def crowdedSession : List Moment × Machine :=
  act (.dataLanes (.start ⟨5⟩)) (rounds [(1, 0)]) (act (.dataLanes (.start ⟨4⟩)) (turns 20 0 0) (opened quietConfig []
    ⟨fun name n => if name = quietConfig.dataThread ⟨5⟩ ∧ n = 0 then some "no thread left" else none⟩))

def crowdedStart : List Moment × Machine := crowdedSession.2.play (List.replicate 20 .caller)

theorem crowded_calling : Calling .caller [] crowdedSession.2 (Plan.startLane ⟨5⟩) crowdedStart.1 crowdedStart.2 [] := by
  have begins : Calling .caller [] crowdedSession.2 (Plan.startLane ⟨5⟩) [] crowdedSession.2 (Plan.startLane ⟨5⟩) :=
    .begin rfl (by simp [Plan.startLane])
  have ended : crowdedStart.2.agenda .caller = [] := rfl
  exact ended ▸ begins.play 20 (by decide +kernel)

theorem run_refused : ((crampedStart.2.reply .caller).fault?.isSome = true ∧ (∀ x ∈ ownTurns .caller crampedStart.1, x.unhooked) ∧
      Undone (ownTurns .caller crampedStart.1) ∧ crampedStart.2.hub.deviceLane.queue.length = 1 ∧
      crampedStart.2.hub.registry.entries.map (·.start) = [.idle] ∧ crampedStart.2.hub.isRunning = false) ∧
    ((crowdedStart.2.reply .caller).fault?.isSome = true ∧ (∀ x ∈ ownTurns .caller crowdedStart.1, x.unhooked) ∧
      Undone (ownTurns .caller crowdedStart.1) ∧ (ownTurns .caller crowdedStart.1).length = 8 ∧
      crowdedStart.2.hub.dataLanes.slots.keys = [⟨4⟩] ∧ crowdedStart.2.agendas.length = 2) := by
  have fault : (crampedStart.2.reply .caller).fault?.isSome = true := by decide +kernel
  have unhooked : ∀ x ∈ ownTurns .caller crampedStart.1, x.unhooked := by decide +kernel
  have fault' : (crowdedStart.2.reply .caller).fault?.isSome = true := by decide +kernel
  have unhooked' : ∀ x ∈ ownTurns .caller crowdedStart.1, x.unhooked := by decide +kernel
  have cramped : Run crampedConfig [] crampedSession.1 crampedSession.2 := act_run (solo_run _ _ _) _ _
  have crowded : Run quietConfig [] crowdedSession.1 crowdedSession.2 := act_run (act_run (opened_run _ _ _) _ _) _ _
  obtain ⟨e, error⟩ := Option.isSome_iff_exists.mp fault
  obtain ⟨e', error'⟩ := Option.isSome_iff_exists.mp fault'
  refine ⟨⟨fault, unhooked, (refusals_undone cramped).refused _ _ _ _ _ _ e .run cramped_calling unhooked error, ?_⟩,
    fault', unhooked', (refusals_undone crowded).refused _ _ _ _ _ _ e' (.startLane ⟨5⟩) crowded_calling unhooked' error', ?_⟩
  all_goals decide +kernel

def evasiveAdapter : AdapterSpec Op := { name := "a", answer := .refuse .shuttingDown }

def evadedSession : List Moment × Machine := act (.send ⟨4⟩ [7]) (rounds [(12, 0)]) (linkedSession [] [evasiveAdapter])

theorem frame_evaded : Run quietConfig [] evadedSession.1 evadedSession.2 ∧ evadedSession.2.hub.terminating = false ∧
    (evadedSession.2.agenda .caller).isEmpty = true ∧ (evadedSession.2.reply .caller).fault? = some .shuttingDown ∧
    (linkedSession [] [evasiveAdapter]).2.hub.handles.frame = 0 ∧ evadedSession.2.hub.handles.frame = 1 ∧
    marked Job.ships evadedSession.1 = [⟨1⟩] := by
  refine ⟨act_run (linkedSession_run _ _) _ _, ?_⟩
  decide +kernel

end TransportHub
