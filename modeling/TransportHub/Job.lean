import TransportHub.DataLanes
import TransportHub.Log
import TransportHub.Operation
/-!
Jobs: the atomic things a thread does, one after the other. What a thread still has to do is its
agenda, a list of jobs; carrying out a job may put further jobs in front.

A procedure of the hub is a `Plan`, the list of jobs it starts with. Every log record is a job of its
own, because operations may be hooked onto a record, and every lock that is held while a record is
written is taken and given back by jobs. A lock that is never held across two jobs does not show.
Of the locks `publish` keeps registry updates and the lists published for them in one order, and
`lifecycle` keeps the running flag and the start claims together.
-/
namespace TransportHub

inductive Lock where
  | publish
  | lifecycle
  | registry
  | deviceWorker
  | deviceQueue
  | laneMap
deriving DecidableEq, Repr

/-- A callback on its way to the listeners of a snapshot. -/
structure Delivery where
  lane : String
  callback : Callback
  listeners : List ListenerId
  called : Nat := 0
  panics : Nat := 0
deriving DecidableEq, Repr

/-- On whose behalf the registry is changed. -/
inductive Errand where
  | alone
  | hub
  | shutdown
deriving DecidableEq, Repr

inductive RegistryJob where
  -- Uses up an id; the entry itself is appended by `enrol`.
  | reserve (deviceType : String) (adapter : AdapterKey) (errand : Errand)
  | enrol (id : AdapterId) (deviceType : String) (adapter : AdapterKey)
  | withdraw (id : AdapterId) (errand : Errand)
  | replace (id : AdapterId) (devices : List DiscoveredDevice) (errand : Errand)
  -- Sets the list of an entry that is known to be there.
  | store (id : AdapterId) (devices : List DiscoveredDevice)
deriving DecidableEq, Repr

inductive DeviceLaneJob where
  | enqueue (callback : DeviceCallback)
  | discard
  | push (callback : DeviceCallback)
  | start
  | spawn
  | wake
  | join
  | look
deriving DecidableEq, Repr

inductive DataLaneJob where
  | start (connection : ConnectionHandle)
  | reap
  | spawn (connection : ConnectionHandle)
  -- Puts a new lane into the map, unless the map was closed or another lane came first.
  | publish (connection : ConnectionHandle) (slot : DataLanes.Slot)
  | stop (connection : ConnectionHandle)
  | requestStop (lane : LaneId)
  | retire (worker : ThreadId)
  | find (connection : ConnectionHandle) (callback : DataCallback)
  | push (lane : LaneId) (connection : ConnectionHandle) (callback : DataCallback)
  | orphan
  | close (join : Bool)
  | wake (lane : LaneId)
  | look (lane : LaneId)
  | snapshot (connection : ConnectionHandle) (batch : List DataCallback)
  | handOver (connection : ConnectionHandle) (callback : DataCallback)
      (listeners : List ListenerId)
  | mismatch
deriving DecidableEq, Repr

inductive ParticipantJob where
  | call (id : AdapterId) (adapter : AdapterKey) (call : AdapterCall)
  -- Stands behind an adapter's call; a panic that passes it comes out of the adapter.
  | returned (id : AdapterId) (call : AdapterCall)
  -- Stands behind a report through a context, which keeps the hub within reach until here.
  | reported
  | complete (adapter : AdapterKey) (connection : ConnectionHandle) (sequence : FrameSequence)
      (status : SendStatus)
  | mention (occasion : Log.Occasion) (id : AdapterId) (adapter : AdapterKey)
  | hear (listener : ListenerId) (callback : Callback)
  | deliver (delivery : Delivery)
  -- Stands behind a listener's call and catches its panic.
  | delivered (delivery : Delivery)
deriving DecidableEq, Repr

inductive HubJob where
  | add (adapter : AdapterKey)
  | claimNew (id : AdapterId) (adapter : AdapterKey)
  | ran (id : AdapterId) (adapter : AdapterKey)
  | finishStart (id : AdapterId) (adapter : AdapterKey)
  | publishList
  | publishAggregate
  | run
  | laneStarted
  | claimAll
  | scan
  | request (request : Request) (handle : DeviceHandle)
  | send (connection : ConnectionHandle) (data : Payload)
  | findDevice (connection : ConnectionHandle) (data : Payload)
  | findOwners (connection : ConnectionHandle) (data : Payload) (device : DeviceInfo)
  | forward (connection : ConnectionHandle) (data : Payload) (device : DeviceInfo)
      (first : AdapterId × AdapterKey) (others : List (AdapterId × AdapterKey))
  | sent (sequence : FrameSequence)
  | connect (device : DeviceInfo) (connection : ConnectionHandle)
  | recordConnection (device : DeviceInfo) (connection : ConnectionHandle)
  | connectionStarted (device : DeviceInfo) (connection : ConnectionHandle)
  | forgetConnection (connection : ConnectionHandle)
  | disconnected (device : DeviceInfo) (connection : ConnectionHandle)
  | raiseTermination
  | stopAdapters
  | clearConnections
  | halt
  | establish
  | detach
deriving DecidableEq, Repr

inductive Job where
  | log (record : Log.Record)
  | acquire (lock : Lock)
  | release (lock : Lock)
  | answer (reply : Reply)
  | panic
  | hold
  -- Waits until somebody releases the thread.
  | held
  | enter
  | perform (op : Op)
  | leave (op : Op)
  -- Stands behind the operations hooked onto a record; a panic that passes it comes out of the hook.
  | resume
  | join (lane : String) (worker : ThreadId)
  | await (threads : List ThreadId)
  | registry (job : RegistryJob)
  | deviceLane (job : DeviceLaneJob)
  | dataLane (job : DataLaneJob)
  | participant (job : ParticipantJob)
  | hub (job : HubJob)

namespace Job

/-- An operation of a script or hook. A panic or a hold leaves no reply. -/
def nested : Op → List Job
  | .panic => [.panic]
  | .hold => [.hold]
  | op => [.enter, .perform op, .leave op]

def logHub (record : Log.HubRecord) : Job := .log (.hub record)

def logRegistry (record : Log.RegistryRecord) : Job := .log (.registry record)

def logDeviceLane (record : Log.DeviceLaneRecord) : Job := .log (.deviceLane record)

def logDataLane (c : ConnectionHandle) (record : Log.DataLaneRecord) : Job :=
  .log (.dataLane c record)

def call (id : AdapterId) (adapter : AdapterKey) (call : AdapterCall) : Job :=
  .participant (.call id adapter call)

def mention (occasion : Log.Occasion) (id : AdapterId) (adapter : AdapterKey) : Job :=
  .participant (.mention occasion id adapter)

def deliver (lane : String) (callback : Callback) (listeners : List ListenerId) : Job :=
  .participant (.deliver { lane, callback, listeners })

end Job

namespace Plan

open Job (logHub logDeviceLane logDataLane mention call)

def register (deviceType : String) (adapter : AdapterKey) (errand : Errand) : List Job :=
  [.acquire .registry, .registry (.reserve deviceType adapter errand)]

def withdraw (id : AdapterId) (errand : Errand) : List Job :=
  [.acquire .registry, .registry (.withdraw id errand)]

def replace (id : AdapterId) (devices : List DiscoveredDevice) (errand : Errand) : List Job :=
  [.acquire .registry, .registry (.replace id devices errand)]

def runAdapter (id : AdapterId) (adapter : AdapterKey) : List Job :=
  [mention .running id adapter, call id adapter .run, .hub (.ran id adapter),
    .hub (.finishStart id adapter)]

def addAdapter (adapter : AdapterKey) : List Job :=
  [.acquire .lifecycle, .hub (.add adapter)]

def removeAdapter (id : AdapterId) : List Job :=
  .acquire .publish :: withdraw id .hub

/-- An adapter that was taken out while its start was in flight is stopped by whoever started it. -/
def stopWithdrawn (id : AdapterId) (w : Registry.Withdrawal) : List Job :=
  if w.starting then [] else [call id w.adapter .stop]

def run : List Job :=
  [.acquire .lifecycle, .hub .run]

def enqueueDevice (callback : DeviceCallback) : List Job :=
  [.acquire .deviceQueue, .deviceLane (.enqueue callback)]

def startDeviceLane : List Job :=
  [.acquire .deviceWorker, .deviceLane .start]

def startLane (c : ConnectionHandle) : List Job :=
  [.acquire .laneMap, .dataLane (.start c)]

def stopLane (c : ConnectionHandle) : List Job :=
  [.acquire .laneMap, .dataLane (.stop c)]

def enqueueData (c : ConnectionHandle) (callback : DataCallback) : List Job :=
  [.dataLane (.find c callback)]

def report (source : AdapterId) : Report → List Job
  | .listUpdated devices => .acquire .publish :: replace source devices .hub
  | .connected device c => [.hub (.connect device c)]
  | .disconnected device c =>
    logHub (.disconnected device c) :: stopLane c ++
      [.hub (.forgetConnection c), .hub (.disconnected device c)]
  | .received c data =>
    logHub (.received data.length source c) :: enqueueData c (.received c data)
  | .completed c sequence status =>
    logHub (.completed sequence c source status) :: enqueueData c (.completed c sequence status)

def deviceWorker : List Job :=
  [logDeviceLane .waiting, .deviceLane .look]

def dataWorker (c : ConnectionHandle) (lane : LaneId) : List Job :=
  [logDataLane c .waiting, .dataLane (.look lane)]

end Plan
end TransportHub
