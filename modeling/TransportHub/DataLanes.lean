import TransportHub.DataLane
import TransportHub.DeviceLane
import TransportHub.Table
/-!
The data lanes of a hub: every lane that was ever opened, the map from live connections to their lanes
and workers, the workers of stopped lanes that nobody has waited for yet, and the listeners that all
lanes share.

A stopped lane leaves the map but stays with its worker until the worker has drained it. A closed map
takes no lane any more.
-/
namespace TransportHub

structure LaneId where
  val : Nat
deriving DecidableEq, Repr

structure DataLanes.Slot where
  lane : LaneId
  worker : ThreadId
deriving DecidableEq, Repr

structure DataLanes where
  lanes : List DataLane := []
  slots : Table DataLanes.Slot := {}
  closed : Bool := false
  listeners : ListenerSet := {}
  retired : List ThreadId := []

namespace DataLanes

def lane? (d : DataLanes) (id : LaneId) : Option DataLane :=
  d.lanes[id.val]?

def openLane (d : DataLanes) (c : ConnectionHandle) : LaneId × DataLanes :=
  (⟨d.lanes.length⟩, { d with lanes := d.lanes ++ [{ connection := c }] })

def changeLane (d : DataLanes) (id : LaneId) (change : DataLane → DataLane) : DataLanes :=
  { d with lanes := d.lanes.modify id.val change }

def occupied (d : DataLanes) (c : ConnectionHandle) : Bool :=
  d.slots.contains c

def publish (d : DataLanes) (c : ConnectionHandle) (slot : Slot) : DataLanes :=
  { d with slots := d.slots.insert c slot }

def withdraw (d : DataLanes) (c : ConnectionHandle) : Option Slot × DataLanes :=
  (d.slots.get? c, { d with slots := d.slots.erase c })

def retire (d : DataLanes) (worker : ThreadId) : DataLanes :=
  { d with retired := d.retired ++ [worker] }

/-- Parts the retired workers into those that have exited and those that stay on the list. -/
def reap (d : DataLanes) (exited : ThreadId → Bool) : List ThreadId × DataLanes :=
  (d.retired.filter exited, { d with retired := d.retired.filter (!exited ·) })

def close (d : DataLanes) : List Slot × List ThreadId × DataLanes :=
  (d.slots.values, d.retired, { d with closed := true, slots := {}, retired := [] })

end DataLanes
end TransportHub
