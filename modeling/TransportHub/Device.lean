import TransportHub.Handle
/-!
Devices: as the adapter that discovered them reports them, and as everybody else sees them, tagged
with the transport type of the adapter that lists them.
-/
namespace TransportHub

structure DiscoveredDevice where
  handle : DeviceHandle
  uniqueId : String
  friendlyName : String
deriving DecidableEq, Repr

structure DeviceInfo where
  handle : DeviceHandle := ⟨0⟩
  uniqueId : String := ""
  friendlyName : String := ""
  deviceType : String := ""
deriving DecidableEq, Repr

instance : Inhabited DeviceInfo := ⟨{}⟩

def DiscoveredDevice.tagged (d : DiscoveredDevice) (deviceType : String) : DeviceInfo :=
  { handle := d.handle, uniqueId := d.uniqueId, friendlyName := d.friendlyName, deviceType }

end TransportHub
