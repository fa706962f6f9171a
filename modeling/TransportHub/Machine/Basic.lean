import TransportHub.Cast
import TransportHub.Metrics
import TransportHub.Job
import TransportHub.System
/-!
The machine: a hub, the cast around it, and the threads that work on both.

The caller is thread 0; it has something to do while an operation is performed. Workers are further
threads. Every call of a participant, every log record and every reply to an operation of a script is
noted in the trace, newest first, under the thread it happened on.
-/
namespace TransportHub

structure Hub where
  config : Config
  -- Somebody holds the hub, so operations on it are possible.
  owned : Bool := true
  -- The hub has not been cut off from the contexts it gave out.
  attached : Bool := true
  terminating : Bool := false
  running : Bool := false
  metrics : Metrics := {}
  handles : Handles := {}
  registry : Registry := {}
  connections : Table DeviceInfo := {}
  deviceLane : DeviceLane := {}
  dataLanes : DataLanes := {}

/-- Running lasts from a successful start to the beginning of termination. -/
def Hub.isRunning (h : Hub) : Bool :=
  h.running && !h.terminating

inductive Entry where
  | heard (listener : ListenerId) (callback : Callback)
  | asked (adapter : AdapterKey) (id : AdapterId) (call : AdapterCall)
  | performed (op : Op) (reply : Reply)
  | logged (record : Log.Record)

structure Thread where
  name : String
  agenda : List Job
  reply : Reply := .unit
  held : Bool := false
  panicked : Bool := false

/-- Operations to perform when the caller writes a log record that starts so for the `nth` time. -/
structure Hook where
  start : String
  nth : Nat := 0
  ops : List Op
  seen : Nat := 0

structure Machine where
  hub : Hub
  cast : Cast := {}
  hooks : List Hook := []
  system : System
  locks : List (Lock × ThreadId) := []
  -- Whether a hold holds; a shutdown that waits for the workers ends all holds.
  holding : Bool := true
  threads : List Thread
  trace : List (ThreadId × Entry) := []

def ThreadId.caller : ThreadId := ⟨0⟩

def Hook.notice (h : Hook) (record : Log.Record) : List Op × Hook :=
  if h.start.toList.isPrefixOf record.text.toList then
    (if h.seen = h.nth then h.ops else [], { h with seen := h.seen + 1 })
  else ([], h)

def Thread.reporting (t : Thread) : Bool :=
  t.agenda.any fun job => job matches .participant .reported

def Thread.ended (t : Thread) : Bool :=
  t.agenda.isEmpty

namespace Machine

def thread? (m : Machine) (t : ThreadId) : Option Thread :=
  m.threads[t.val]?

def agenda (m : Machine) (t : ThreadId) : List Job :=
  (m.thread? t).elim [] (·.agenda)

def changeThread (m : Machine) (t : ThreadId) (change : Thread → Thread) : Machine :=
  { m with threads := m.threads.modify t.val change }

def exited (m : Machine) (t : ThreadId) : Bool :=
  (m.thread? t).all (·.ended)

def panicked (m : Machine) (t : ThreadId) : Bool :=
  (m.thread? t).any (·.panicked)

/-- Whether contexts reach the hub. One that was cut off stays within reach as long as some thread is
inside a report. -/
def attached (m : Machine) : Bool :=
  m.hub.attached || m.threads.any (·.reporting)

def reply (m : Machine) (t : ThreadId) : Reply :=
  (m.thread? t).elim .unit (·.reply)

def free (m : Machine) (lock : Lock) : Bool :=
  !m.locks.any (·.1 = lock)

def take (m : Machine) (t : ThreadId) (lock : Lock) : Machine :=
  { m with locks := (lock, t) :: m.locks }

def giveBack (m : Machine) (lock : Lock) : Machine :=
  { m with locks := m.locks.filter (·.1 ≠ lock) }

def giveBackAll (m : Machine) (t : ThreadId) : Machine :=
  { m with locks := m.locks.filter (·.2 ≠ t) }

def note (m : Machine) (t : ThreadId) (entry : Entry) : Machine :=
  { m with trace := (t, entry) :: m.trace }

def spawn (m : Machine) (name : String) (agenda : List Job) : ThreadId × Machine :=
  (⟨m.threads.length⟩, { m with threads := m.threads ++ [{ name, agenda }] })

def answered (m : Machine) (name : String) : Machine :=
  { m with system := m.system.advance name }

/-- Writes a log record; on the caller's thread the hooked operations come next. -/
def log (m : Machine) (t : ThreadId) (record : Log.Record) : Machine × List Job :=
  let m := m.note t (.logged record)
  if t = .caller then
    let noticed := m.hooks.map (·.notice record)
    ({ m with hooks := noticed.map (·.2) },
      (noticed.flatMap (·.1)).flatMap Job.nested ++ [.resume])
  else (m, [])

def setHub (m : Machine) (hub : Hub) : Machine :=
  { m with hub }

def setRegistry (m : Machine) (registry : Registry) : Machine :=
  { m with hub := { m.hub with registry } }

def setDeviceLane (m : Machine) (deviceLane : DeviceLane) : Machine :=
  { m with hub := { m.hub with deviceLane } }

def setDataLanes (m : Machine) (dataLanes : DataLanes) : Machine :=
  { m with hub := { m.hub with dataLanes } }

def setMetrics (m : Machine) (metrics : Metrics) : Machine :=
  { m with hub := { m.hub with metrics } }

def endHolds (m : Machine) : Machine :=
  { m with holding := false, threads := m.threads.map ({ · with held := false }) }

end Machine
end TransportHub
