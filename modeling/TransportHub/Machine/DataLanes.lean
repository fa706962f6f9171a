import TransportHub.Machine.Basic
/-!
Data lane jobs: opening and stopping the lane of a connection, queueing a callback, closing the lane
map, and a worker's look at the queue of its lane.
-/
namespace TransportHub

open Job (logDataLane deliver)

namespace DataLaneJob

def joinWorker (worker : ThreadId) : Job := .join Log.dataLaneName worker

def refuse (c : ConnectionHandle) (callback : DataCallback) : List Job :=
  [logDataLane c (.dropped callback), .dataLane .orphan, .answer (.flag false)]

def lookAtLane (m : Machine) (id : LaneId) (lane : DataLane) : Machine × List Job :=
  let (seen, lane) := lane.look m.hub.terminating
  let c := lane.connection
  let m := m.setDataLanes (m.hub.dataLanes.changeLane id fun _ => lane)
  match seen with
  | .park => (m, [.dataLane (.look id)])
  | .take batch => (m, [.dataLane (.snapshot c batch), .dataLane (.look id)])
  | .finish => (m, [logDataLane c .terminated])
  | .leave discarded =>
    (m.setMetrics { m.hub.metrics with discarded := m.hub.metrics.discarded + discarded },
      (if 0 < discarded then [logDataLane c (.discarding discarded)] else []) ++
        [logDataLane c .mustTerminate, logDataLane c .terminated])

def deliverOne (c : ConnectionHandle) (listeners : List ListenerId) (callback : DataCallback) :
    List Job :=
  (if callback.connection = c then []
    else [logDataLane c (.misaddressed callback.connection), .dataLane .mismatch]) ++
    [deliver Log.dataLaneName (.data callback) listeners]

def exec (m : Machine) : DataLaneJob → Machine × List Job
  | start c =>
    (m, if m.hub.dataLanes.closed then
        [logDataLane c .closed, .release .laneMap, .answer (.done (.error .shuttingDown))]
      else if m.hub.dataLanes.occupied c then
        [logDataLane c .occupied, .release .laneMap, .answer (.done (.ok ()))]
      else [.release .laneMap, .dataLane .reap, .dataLane (.spawn c)])
  | reap =>
    let (ended, lanes) := m.hub.dataLanes.reap m.exited
    (m.setDataLanes lanes, ended.map joinWorker)
  | spawn c =>
    let name := m.hub.config.dataThread c
    match m.system.answer name with
    | .started =>
      let (lane, lanes) := m.hub.dataLanes.openLane c
      let (worker, m) := (m.answered name).spawn name (Plan.dataWorker c lane)
      (m.setDataLanes lanes, [.acquire .laneMap, .dataLane (.publish c ⟨lane, worker⟩)])
    | .refused cause =>
      (m.answered name, [logDataLane c (.cannotStart cause), .answer (.done (.error (.workerSpawn cause)))])
    | .crashed => (m.answered name, [.panic])
  | publish c slot =>
    if m.hub.dataLanes.closed then
      (m, [.release .laneMap, logDataLane c .closedWhileStarting,
        .dataLane (.requestStop slot.lane), joinWorker slot.worker,
        .answer (.done (.error .shuttingDown))])
    else if m.hub.dataLanes.occupied c then
      (m, [logDataLane c .occupied, .dataLane (.requestStop slot.lane),
        .dataLane (.retire slot.worker), .release .laneMap, .answer (.done (.ok ()))])
    else
      (m.setDataLanes (m.hub.dataLanes.publish c slot),
        [logDataLane c .started, .release .laneMap, .answer (.done (.ok ()))])
  | stop c =>
    match m.hub.dataLanes.withdraw c with
    | (some slot, lanes) =>
      (m.setDataLanes lanes,
        [logDataLane c .stopping, .dataLane (.requestStop slot.lane),
          .dataLane (.retire slot.worker), .release .laneMap, .answer (.flag true)])
    | (none, _) => (m, [logDataLane c .noWorker, .release .laneMap, .answer (.flag false)])
  | requestStop lane => (m.setDataLanes (m.hub.dataLanes.changeLane lane (·.requestStop)), [])
  | retire worker => (m.setDataLanes (m.hub.dataLanes.retire worker), [])
  | find c callback =>
    (m, match m.hub.dataLanes.slots.get? c with
      | some slot => [.dataLane (.push slot.lane c callback)]
      | none => refuse c callback)
  | push lane c callback =>
    if (m.hub.dataLanes.lane? lane).any (·.accepts) then
      let m := m.setDataLanes (m.hub.dataLanes.changeLane lane (·.push callback))
      (m.setMetrics { m.hub.metrics with enqueued := m.hub.metrics.enqueued + 1 },
        [logDataLane c (.queued callback), .answer (.flag true)])
    else (m, refuse c callback)
  | orphan =>
    (m.setMetrics { m.hub.metrics with orphaned := m.hub.metrics.orphaned + 1 }, [])
  | close join =>
    let (slots, retired, lanes) := m.hub.dataLanes.close
    (m.setDataLanes lanes,
      slots.map (fun slot => .dataLane (.wake slot.lane)) ++
        if join then (retired ++ slots.map (·.worker)).map joinWorker else [])
  | wake lane => (m.setDataLanes (m.hub.dataLanes.changeLane lane (·.wake)), [])
  | look id =>
    match m.hub.dataLanes.lane? id with
    | some lane => lookAtLane m id lane
    | none => (m, [])
  | snapshot c batch =>
    let listeners := m.hub.dataLanes.listeners.snapshot
    (m, logDataLane c (.processing batch.length listeners.length) ::
      batch.map fun callback => .dataLane (.handOver c callback listeners))
  | handOver c callback listeners => (m, deliverOne c listeners callback)
  | mismatch =>
    (m.setMetrics { m.hub.metrics with mismatches := m.hub.metrics.mismatches + 1 }, [])

end DataLaneJob
end TransportHub
