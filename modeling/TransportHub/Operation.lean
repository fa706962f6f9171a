import TransportHub.Config
import TransportHub.Registry
import TransportHub.Script
/-!
Operations on a hub and its parts, and the replies to them.

Scripts perform operations too, so the type is recursive through the participants that an operation
brings along.
-/
namespace TransportHub

inductive RegistryOp where
  | beginStart (id : AdapterId)
  | beginStartAll
  | finishStart (id : AdapterId)
  | unregister (id : AdapterId)
  | replace (id : AdapterId) (devices : List DiscoveredDevice)
  | aggregate
  | owners (handle : DeviceHandle)
  | adapters
  | contains (id : AdapterId)
deriving DecidableEq, Repr

inductive DeviceLaneOp where
  | start
  | enqueue (callback : DeviceCallback)
  | shutdown
deriving DecidableEq, Repr

inductive DataLanesOp where
  | start (connection : ConnectionHandle)
  | stop (connection : ConnectionHandle)
  | enqueue (connection : ConnectionHandle) (callback : DataCallback)
  | shutdown (join : Bool)
deriving DecidableEq, Repr

inductive ContextQuery where
  | attached
  | id
  | describe
  | nextDevice
  | nextConnection
  | other (name : String)
deriving DecidableEq, Repr

inductive Op where
  | addAdapter (adapter : Ref (AdapterSpec Op))
  | removeAdapter (id : AdapterId)
  | run
  | scan
  | request (request : Request) (handle : DeviceHandle)
  | send (connection : ConnectionHandle) (data : Payload)
  | shutdown
  -- Gives the hub up; it shuts down and its contexts are cut off.
  | drop
  | addDeviceListener (listener : Ref (ListenerSpec Op))
  | addDataListener (listener : Ref (ListenerSpec Op))
  | removeDeviceListener (listener : Ref (ListenerSpec Op))
  | removeDataListener (listener : Ref (ListenerSpec Op))
  | connectionDevice (connection : ConnectionHandle)
  | nextDevice
  | nextConnection
  | showConfig (connections : List ConnectionHandle)
  | report (source : AdapterId) (report : Report)
  | contextReport (adapter : String) (report : Report)
  | context (adapter : String) (query : ContextQuery)
  | setType (adapter : String) (deviceType : String)
  | connectAtOnce (threads : Nat) (device : DeviceInfo) (connection : ConnectionHandle)
  | register (adapter : Ref (AdapterSpec Op))
  | registry (op : RegistryOp)
  | deviceLane (op : DeviceLaneOp)
  | dataLanes (op : DataLanesOp)
  -- Raises the termination flag and wakes nobody.
  | terminate
  | panic
  -- Blocks the worker until it is released; scripts and hooks alone can.
  | hold
  | release (thread : Option String)
  | unknown (name : String)

instance : Inhabited Op := ⟨.scan⟩

inductive Reply where
  | unit
  | flag (value : Bool)
  | text (value : String)
  | names (values : List String)
  | device (info : Option DeviceInfo)
  | devices (infos : List DeviceInfo)
  | deviceHandle (handle : DeviceHandle)
  | connectionHandle (handle : ConnectionHandle)
  | adapterId (id : AdapterId)
  | adapterName (name : Option String)
  | adapters (named : List (AdapterId × String))
  | withdrawal (withdrawn : Option (String × Registry.Withdrawal))
  | config (config : Config) (connections : List ConnectionHandle)
  | done (result : Except Error Unit)
  | added (result : Except Error AdapterId)
  | sent (result : Except Error FrameSequence)
  | noHub
  | noContext
  | unknownOperation
  | panicked

def Reply.error? : Reply → Option Error
  | done (.error e) => some e
  | _ => none

end TransportHub
