import TransportHub.Machine.Participants
import TransportHub.Machine.Registry
/-!
Operations as jobs: what a thread sets out to do when it performs an operation. Operations on a hub
that was given up are refused; what goes through the context of an adapter, and what concerns the
participants alone, is not.
-/
namespace TransportHub

def describeContext (id : AdapterId) (attached : Bool) : String :=
  s!"AdapterContext \x7b adapter: AdapterId({id.val}), attached: {attached} \x7d"

def ContextQuery.exec (m : Machine) (id : AdapterId) : ContextQuery → Machine × List Job
  | attached => (m, [.answer (.flag m.attached)])
  | .id => (m, [.answer (.adapterId id)])
  | describe => (m, [.answer (.text (describeContext id m.attached))])
  | nextDevice =>
    (m.setHub { m.hub with handles := m.hub.handles.advance .device },
      [.answer (.deviceHandle m.hub.handles.nextDevice)])
  | nextConnection =>
    (m.setHub { m.hub with handles := m.hub.handles.advance .connection },
      [.answer (.connectionHandle m.hub.handles.nextConnection)])
  | other _ => (m, [.answer .unknownOperation])

namespace DeviceLaneOp

def exec (m : Machine) : DeviceLaneOp → Machine × List Job
  | start => (m, Plan.startDeviceLane)
  | enqueue callback => (m, Plan.enqueueDevice callback ++ [.answer .unit])
  | shutdown =>
    ((m.setHub { m.hub with terminating := true }).endHolds,
      [.deviceLane .wake, .deviceLane .join, .answer .unit])

end DeviceLaneOp

namespace DataLanesOp

def exec (m : Machine) : DataLanesOp → Machine × List Job
  | start c => (m, Plan.startLane c)
  | stop c => (m, Plan.stopLane c)
  | enqueue c callback => (m, Plan.enqueueData c callback)
  | shutdown join =>
    let m := m.setHub { m.hub with terminating := true }
    (if join then m.endHolds else m, [.dataLane (.close join), .answer .unit])

end DataLanesOp

namespace Machine

def spawnReporters (m : Machine) (device : DeviceInfo) (c : ConnectionHandle) :
    Nat → List ThreadId × Machine
  | 0 => ([], m)
  | threads + 1 =>
    let (t, m) := m.spawn "reporter" [.hub (.connect device c)]
    let (ts, m) := m.spawnReporters device c threads
    (t :: ts, m)

def held (name? : Option String) (t : Thread) : Bool :=
  t.held && name?.all (· = t.name)

def releaseHeld (m : Machine) (name? : Option String) : List String × Machine :=
  (((m.threads.filter (held name?)).map (·.name)).mergeSort fun a b => decide (a ≤ b),
    { m with threads := m.threads.map fun t => if held name? t then { t with held := false } else t })

def performOwned (m : Machine) : Op → Machine × List Job
  | .addAdapter ref =>
    let (adapter, cast) := m.cast.resolveAdapter ref
    ({ m with cast }, Plan.addAdapter adapter)
  | .removeAdapter id => (m, Plan.removeAdapter id)
  | .run => (m, Plan.run)
  | .scan => (m, [.hub .scan])
  | .request r handle => (m, [.hub (.request r handle)])
  | .send c data => (m, [.hub (.send c data)])
  | .shutdown => (m, [.hub .raiseTermination, .answer .unit])
  | .drop =>
    (m.setHub { m.hub with owned := false },
      [.hub .raiseTermination, .hub .detach, .answer .unit])
  | .addDeviceListener ref =>
    let (l, cast) := m.cast.resolveDeviceListener ref
    let lane := { m.hub.deviceLane with listeners := m.hub.deviceLane.listeners.add l }
    ({ m.setDeviceLane lane with cast }, [.answer .unit])
  | .addDataListener ref =>
    let (l, cast) := m.cast.resolveDataListener ref
    let lanes := { m.hub.dataLanes with listeners := m.hub.dataLanes.listeners.add l }
    ({ m.setDataLanes lanes with cast }, [.answer .unit])
  | .removeDeviceListener ref =>
    let (l, cast) := m.cast.resolveDeviceListener ref
    let (found, listeners) := m.hub.deviceLane.listeners.remove l
    ({ m.setDeviceLane { m.hub.deviceLane with listeners } with cast }, [.answer (.flag found)])
  | .removeDataListener ref =>
    let (l, cast) := m.cast.resolveDataListener ref
    let (found, listeners) := m.hub.dataLanes.listeners.remove l
    ({ m.setDataLanes { m.hub.dataLanes with listeners } with cast }, [.answer (.flag found)])
  | .connectionDevice c => (m, [.answer (.device (m.hub.connections.get? c))])
  | .nextDevice => ContextQuery.nextDevice.exec m ⟨0⟩
  | .nextConnection => ContextQuery.nextConnection.exec m ⟨0⟩
  | .showConfig connections => (m, [.answer (.config m.hub.config connections)])
  | .report source r => (m, Plan.report source r ++ [.answer .unit])
  | .connectAtOnce threads device c =>
    let (reporters, m) := m.spawnReporters device c threads
    (m, [.await reporters, .answer .unit])
  | .register ref =>
    let (adapter, cast) := m.cast.resolveAdapter ref
    ({ m with cast }, Plan.register (cast.deviceType adapter) adapter .alone)
  | .registry op => op.exec m
  | .deviceLane op => op.exec m
  | .dataLanes op => op.exec m
  | .terminate => (m.setHub { m.hub with terminating := true }, [.answer .unit])
  | _ => (m, [.answer .unknownOperation])

def perform (m : Machine) : Op → Machine × List Job
  | .contextReport name r =>
    (m, match (m.cast.namedAdapter? name).bind (·.2.context) with
      | some id => ParticipantJob.reportThrough m id r ++ [.answer .unit]
      | none => [.answer .noContext])
  | .context name query =>
    match (m.cast.namedAdapter? name).bind (·.2.context) with
    | some id => query.exec m id
    | none => (m, [.answer .noContext])
  | .setType name deviceType =>
    match m.cast.namedAdapter? name with
    | some (key, a) =>
      ({ m with cast := m.cast.setAdapter key { a with deviceType } }, [.answer .unit])
    | none => (m, [.answer .unit])
  | .release thread =>
    let (names, m) := m.releaseHeld thread
    (m, [.answer (.names names)])
  | op => if m.hub.owned then m.performOwned op else (m, [.answer .noHub])

end Machine
end TransportHub
