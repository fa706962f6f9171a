import TransportHub.Device
import TransportHub.Frame
/-!
Callbacks: what is queued for listeners. Device callbacks wait on the device lane, data callbacks on
the lane of their connection.
-/
namespace TransportHub

inductive DeviceCallback where
  | listUpdated (devices : List DeviceInfo)
  | connected (device : DeviceInfo) (connection : ConnectionHandle)
  | disconnected (device : DeviceInfo) (connection : ConnectionHandle)
deriving DecidableEq, Repr

inductive DataCallback where
  | received (connection : ConnectionHandle) (data : Payload)
  | completed (connection : ConnectionHandle) (sequence : FrameSequence) (status : SendStatus)
deriving DecidableEq, Repr

def DeviceCallback.kind : DeviceCallback → String
  | listUpdated _ => "DeviceListUpdated"
  | connected .. => "ApplicationConnected"
  | disconnected .. => "ApplicationDisconnected"

namespace DataCallback

def kind : DataCallback → String
  | received .. => "FrameReceived"
  | completed .. => "FrameSendCompleted"

def connection : DataCallback → ConnectionHandle
  | received c _ => c
  | completed c _ _ => c

end DataCallback

inductive Callback where
  | device (callback : DeviceCallback)
  | data (callback : DataCallback)
deriving DecidableEq, Repr

namespace Callback

def kind : Callback → String
  | device c => c.kind
  | data c => c.kind

def connection? : Callback → Option ConnectionHandle
  | device _ => none
  | data c => some c.connection

end Callback
end TransportHub
