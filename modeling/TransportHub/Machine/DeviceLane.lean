import TransportHub.Machine.Basic
/-!
Device lane jobs: queueing a callback, starting the worker, waiting for it, and the worker's look at
the queue.
-/
namespace TransportHub

open Job (logDeviceLane deliver)

namespace DeviceLaneJob

def lookAtQueue (m : Machine) : Machine × List Job :=
  let (seen, lane) := m.hub.deviceLane.look m.hub.terminating
  let m := m.setDeviceLane lane
  match seen with
  | .park => (m, [.deviceLane .look])
  | .take batch listeners =>
    (m, logDeviceLane (.processing batch.length listeners.length) ::
      batch.map (fun callback => deliver Log.deviceLaneName (.device callback) listeners) ++
      [logDeviceLane .processed, .deviceLane .look])
  | .leave discarded =>
    (m.setMetrics { m.hub.metrics with discarded := m.hub.metrics.discarded + discarded },
      (if 0 < discarded then [logDeviceLane (.discarding discarded)] else []) ++
        [logDeviceLane .terminated])

def exec (m : Machine) : DeviceLaneJob → Machine × List Job
  | enqueue callback =>
    (m.setMetrics { m.hub.metrics with enqueued := m.hub.metrics.enqueued + 1 },
      if m.hub.terminating then
        [logDeviceLane (.refused callback), .deviceLane .discard, .release .deviceQueue]
      else
        [logDeviceLane (.queued callback (m.hub.deviceLane.queue.length + 1)),
          .deviceLane (.push callback), .release .deviceQueue])
  | discard =>
    (m.setMetrics { m.hub.metrics with discarded := m.hub.metrics.discarded + 1 }, [])
  | push callback => (m.setDeviceLane (m.hub.deviceLane.push callback), [])
  | start =>
    (m, if m.hub.deviceLane.worker.isSome then
        [logDeviceLane .alreadyStarted, .release .deviceWorker,
          .answer (.done (.error .alreadyRunning))]
      else [logDeviceLane .starting, .deviceLane .spawn])
  | spawn =>
    let name := m.hub.config.deviceThread
    match m.system.answer name with
    | .started =>
      let (worker, m) := (m.answered name).spawn name Plan.deviceWorker
      (m.setDeviceLane { m.hub.deviceLane with worker := some worker },
        [logDeviceLane .started, .release .deviceWorker, .answer (.done (.ok ()))])
    | .refused cause =>
      (m.answered name, [logDeviceLane (.cannotStart cause), .release .deviceWorker,
        .answer (.done (.error (.workerSpawn cause)))])
    | .crashed => (m.answered name, [.panic])
  | wake => (m.setDeviceLane m.hub.deviceLane.wake, [])
  | join =>
    (m.setDeviceLane { m.hub.deviceLane with worker := none },
      (m.hub.deviceLane.worker.map (.join Log.deviceLaneName)).toList)
  | look => lookAtQueue m

end DeviceLaneJob
end TransportHub
