import TransportHub.Device
import TransportHub.Frame
/-!
What passes between the hub and an adapter: the calls the hub makes and the events the adapter reports.
-/
namespace TransportHub

inductive Request where
  | connect
  | disconnect
deriving DecidableEq, Repr

inductive AdapterCall where
  | run
  | scan
  | request (request : Request) (handle : DeviceHandle)
  | send (connection : ConnectionHandle) (sequence : FrameSequence) (data : Payload)
  | stop
deriving DecidableEq, Repr

inductive Report where
  | listUpdated (devices : List DiscoveredDevice)
  | connected (device : DeviceInfo) (connection : ConnectionHandle)
  | disconnected (device : DeviceInfo) (connection : ConnectionHandle)
  | received (connection : ConnectionHandle) (data : Payload)
  | completed (connection : ConnectionHandle) (sequence : FrameSequence) (status : SendStatus)
deriving DecidableEq, Repr

def Request.label : Request → String
  | connect => "connect"
  | disconnect => "disconnect"

def Report.label : Report → String
  | listUpdated _ => "device list update"
  | connected .. => "application connected"
  | disconnected .. => "application disconnected"
  | received .. => "frame received"
  | completed .. => "frame send completed"

end TransportHub
