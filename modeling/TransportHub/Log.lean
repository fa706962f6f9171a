import TransportHub.Callback
import TransportHub.Error
import TransportHub.Report
import TransportHub.Text.Quoted
/-!
Log records: what the hub and its workers write down, as values. `Record.level` and `Record.text` are
the only places that say how loud a record is and how it reads.

Every text starts with the component in brackets; records about one connection add its channel, as in
`[data-lane][ch=7] worker started, queue prepared`.
-/
namespace TransportHub.Log

inductive Level where
  | error
  | warn
  | info
  | debug
  | trace
deriving DecidableEq, Repr

inductive Occasion where
  | added
  | removed
  | running
  | failed (error : Error)
deriving DecidableEq, Repr

inductive HubRecord where
  | created (threadPrefix : String)
  | adapter (occasion : Occasion) (id : AdapterId) (deviceType : String)
  | removedWhileStarting (id : AdapterId)
  | listNotPublished
  | listUpdated (devices : Nat)
  | connectionIgnored (connection : ConnectionHandle) (device : DeviceInfo)
  | connected (device : DeviceInfo) (connection : ConnectionHandle)
  | notDelivering (connection : ConnectionHandle) (error : Error)
  | disconnected (device : DeviceInfo) (connection : ConnectionHandle)
  | received (size : Nat) (id : AdapterId) (connection : ConnectionHandle)
  | completed (sequence : FrameSequence) (connection : ConnectionHandle) (id : AdapterId)
      (status : SendStatus)
  | runTwice
  | starting (adapters : Nat)
  | scanning (adapters : Nat)
  | unlisted (request : Request) (handle : DeviceHandle)
  | forwarded (request : Request) (handle : DeviceHandle) (id : AdapterId)
  | sending (sequence : FrameSequence) (size : Nat) (connection : ConnectionHandle) (id : AdapterId)
  | shuttingDown
  | shutDown
deriving DecidableEq, Repr

inductive RegistryRecord where
  | registered (id : AdapterId) (deviceType : String)
  | unregistered (id : AdapterId) (deviceType : String) (released : Nat)
  | listing (id : AdapterId) (deviceType : String) (devices : Nat)
  | notRegistered (id : AdapterId)
deriving DecidableEq, Repr

inductive DeviceLaneRecord where
  | alreadyStarted
  | starting
  | cannotStart (cause : String)
  | started
  | refused (callback : DeviceCallback)
  | queued (callback : DeviceCallback) (pending : Nat)
  | waiting
  | discarding (callbacks : Nat)
  | processing (callbacks listeners : Nat)
  | processed
  | terminated
deriving DecidableEq, Repr

inductive DataLaneRecord where
  | closed
  | occupied
  | cannotStart (cause : String)
  | closedWhileStarting
  | started
  | stopping
  | noWorker
  | queued (callback : DataCallback)
  | dropped (callback : DataCallback)
  | waiting
  | discarding (callbacks : Nat)
  | mustTerminate
  | processing (callbacks listeners : Nat)
  | misaddressed (connection : ConnectionHandle)
  | terminated
deriving DecidableEq, Repr

inductive LaneRecord where
  | calling (kind : String) (listener : Nat)
  | panicked (kind : String) (listener : Nat)
  | joiningItself
  | workerPanicked
deriving DecidableEq, Repr

inductive Record where
  | hub (record : HubRecord)
  | registry (record : RegistryRecord)
  | deviceLane (record : DeviceLaneRecord)
  | dataLane (connection : ConnectionHandle) (record : DataLaneRecord)
  | lane (name : String) (record : LaneRecord)
  -- An adapter reported an event after the hub was dropped.
  | hubGone (report : Report) (id : AdapterId)
deriving DecidableEq, Repr

def Level.label : Level → String
  | error => "ERROR"
  | warn => "WARN"
  | info => "INFO"
  | debug => "DEBUG"
  | trace => "TRACE"

namespace HubRecord

def level : HubRecord → Level
  | adapter (.failed _) .. | notDelivering .. | runTwice => .error
  | adapter .added .. | adapter .removed .. | listUpdated _ | connected .. | disconnected ..
  | starting _ | shuttingDown | shutDown => .info
  | received .. | completed .. => .trace
  | _ => .debug

def text : HubRecord → String
  | created threadPrefix => "created (thread prefix " ++ Text.quoted threadPrefix ++ ")"
  | adapter .added id deviceType => s!"added {id} type={deviceType}"
  | adapter .removed id deviceType => s!"removed {id} type={deviceType}"
  | adapter .running id deviceType => s!"running {id} type={deviceType}"
  | adapter (.failed error) id deviceType => s!"{id} type={deviceType} failed to start: {error}"
  | removedWhileStarting id => s!"{id} removed while starting, stopping it"
  | listNotPublished => "terminating, device list not published"
  | listUpdated devices => s!"device list updated, {devices} devices visible"
  | connectionIgnored connection device =>
    s!"terminating, connection {connection} on {device.uniqueId} ignored"
  | connected device connection =>
    s!"application connected on {device.uniqueId} ({device.deviceType}), connection {connection}"
  | notDelivering connection error =>
    s!"connection {connection}: frames will not be delivered: {error}"
  | disconnected device connection =>
    s!"application disconnected from {device.uniqueId} ({device.deviceType}), connection {connection}"
  | received size id connection => s!"{size} bytes from {id} on connection {connection}"
  | completed sequence connection id status =>
    s!"frame {sequence} on connection {connection} completed by {id}: {status}"
  | runTwice => "run() called twice"
  | starting adapters => s!"starting {adapters} device adapters"
  | scanning adapters => s!"scan requested on {adapters} adapters"
  | unlisted request handle => s!"{request.label}: no adapter lists device {handle}"
  | forwarded request handle id => s!"{request.label} device {handle} via {id}"
  | sending sequence size connection id =>
    s!"sending frame {sequence} ({size} bytes) on connection {connection} via {id}"
  | shuttingDown => "shutting down"
  | shutDown => "shut down"

end HubRecord

namespace RegistryRecord

def level : RegistryRecord → Level
  | notRegistered _ => .warn
  | _ => .debug

def text : RegistryRecord → String
  | registered id deviceType => s!"registered {id} type={deviceType}"
  | unregistered id deviceType released =>
    s!"unregistered {id} type={deviceType} ({released} devices released)"
  | listing id deviceType devices => s!"{id} type={deviceType} now lists {devices} devices"
  | notRegistered id => s!"no device list for {id} (adapter not registered), update dropped"

end RegistryRecord

namespace DeviceLaneRecord

def level : DeviceLaneRecord → Level
  | alreadyStarted | cannotStart _ => .error
  | starting | started | waiting | terminated => .info
  | _ => .debug

def text : DeviceLaneRecord → String
  | alreadyStarted => "worker already started"
  | starting => "starting device listeners worker"
  | cannotStart cause => s!"device listeners worker cannot be started: {cause}"
  | started => "device listeners worker started"
  | refused callback => s!"terminating, {callback.kind} discarded"
  | queued callback pending => s!"queued {callback.kind} ({pending} pending)"
  | waiting => "waiting for callbacks to send"
  | discarding callbacks => s!"discarding {callbacks} callbacks at termination"
  | processing callbacks listeners => s!"processing {callbacks} callbacks for {listeners} listeners"
  | processed => "all callbacks processed"
  | terminated => "device listeners worker terminated"

end DeviceLaneRecord

namespace DataLaneRecord

def level : DataLaneRecord → Level
  | .occupied | cannotStart _ | noWorker | dropped _ | misaddressed _ => .error
  | started | stopping | waiting | mustTerminate | terminated => .info
  | _ => .debug

def text : DataLaneRecord → String
  | closed => "dispatcher closed, worker not started"
  | .occupied => "worker already exists, possible error"
  | cannotStart cause => s!"worker start failed: {cause}"
  | closedWhileStarting => "dispatcher closed while starting, worker stopped"
  | started => "worker started, queue prepared"
  | stopping => "stopping worker"
  | noWorker => "connection handle is invalid, no worker to stop"
  | queued callback => s!"queued {callback.kind}"
  | dropped callback => s!"no worker for connection, {callback.kind} dropped"
  | waiting => "waiting for callbacks"
  | discarding callbacks => s!"discarding {callbacks} callbacks at termination"
  | mustTerminate => "worker must be terminated"
  | processing callbacks listeners => s!"processing {callbacks} callbacks for {listeners} listeners"
  | misaddressed connection => s!"possible error: callback addressed to connection {connection}"
  | terminated => "connection worker terminated"

end DataLaneRecord

namespace LaneRecord

def level : LaneRecord → Level
  | panicked .. | workerPanicked => .error
  | _ => .debug

def text : LaneRecord → String
  | calling kind listener => s!"calling {kind} on listener #{listener}"
  | panicked kind listener => s!"listener #{listener} panicked during {kind}"
  | joiningItself => "shutdown requested from the worker itself, not joining"
  | workerPanicked => "worker panicked"

end LaneRecord

def deviceLaneName : String := "device-lane"

def dataLaneName : String := "data-lane"

namespace Record

def level : Record → Level
  | hub record => record.level
  | registry record => record.level
  | deviceLane record => record.level
  | dataLane _ record => record.level
  | lane _ record => record.level
  | hubGone .. => .debug

def text : Record → String
  | hub record => "[transport-manager] " ++ record.text
  | registry record => "[registry] " ++ record.text
  | deviceLane record => s!"[{deviceLaneName}] " ++ record.text
  | dataLane connection record => s!"[{dataLaneName}][ch={connection}] " ++ record.text
  | lane name record => s!"[{name}] " ++ record.text
  | hubGone report id => s!"[adapter] {report.label} from {id} dropped: transport manager is gone"

end Record
end TransportHub.Log
