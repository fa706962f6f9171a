import TransportHub.Machine.DataLanes
import TransportHub.Machine.DeviceLane
import TransportHub.Machine.Hub
import TransportHub.Machine.Operations
/-!
Steps. A thread whose first job is enabled can carry it out in one step; `Machine.step?` is the whole
behaviour of a hub with its workers, in whatever order the threads take their turns.

A panic unwinds the agenda: the thread gives back its locks, a hub that is being given up is cut off,
and the panic ends at the listener call it came from, or else it ends the thread. No thread calls a
listener while it has a lock, so none is given back too early.
-/
namespace TransportHub

namespace RegistryOp

def needs : RegistryOp → Option Lock
  | unregister _ | replace .. => none
  | _ => some .registry

end RegistryOp

namespace Job

/-- The lock that a job needs, for the moment of its step only. -/
def needs : Job → Option Lock
  | .hub (.claimNew ..) | .hub (.finishStart ..) | .hub .publishAggregate | .hub .claimAll
  | .hub .scan | .hub (.request ..) | .hub (.findOwners ..) | .hub .stopAdapters => some .registry
  | .deviceLane .wake | .deviceLane .look => some .deviceQueue
  | .deviceLane .join => some .deviceWorker
  | .dataLane (.find ..) | .dataLane (.close _) => some .laneMap
  | .perform (.addDeviceListener _) | .perform (.removeDeviceListener _) => some .deviceQueue
  | .perform (.registry op) => op.needs
  | _ => none

def enabled (m : Machine) (self : ThreadId) (job : Job) : Bool :=
  job.needs.all m.free &&
    match job with
    | .acquire lock => m.free lock
    | .held => !(m.thread? self).any (·.held)
    | .join _ worker => worker = self || m.exited worker
    | .await threads => threads.all m.exited
    | .deviceLane .look => !m.hub.deviceLane.parked
    | .dataLane (.look lane) => !(m.hub.dataLanes.lane? lane).any (·.parked)
    | _ => true

/-- Carries out an enabled job; yields the machine afterwards and the jobs that come next. A panic is
no business of a single job and changes nothing here. -/
def exec (m : Machine) (self : ThreadId) : Job → Machine × List Job
  | .log record => m.log self record
  | .acquire lock => (m.take self lock, [])
  | .release lock => (m.giveBack lock, [])
  | .answer reply => (m.changeThread self ({ · with reply }), [])
  | .panic => (m, [])
  | .hold =>
    if m.holding then (m.changeThread self ({ · with held := true }), [.held]) else (m, [])
  | .held => (m, [])
  | .enter => (m, [])
  | .perform op => m.perform op
  | .leave op => (m.note self (.performed op (m.reply self)), [])
  | .resume => (m, [])
  | .join lane worker =>
    (m, if worker = self then [.log (.lane lane .joiningItself)]
      else if m.panicked worker then [.log (.lane lane .workerPanicked)]
      else [])
  | .await threads => (m, if threads.any m.panicked then [.panic] else [])
  | .registry job => job.exec m
  | .deviceLane job => job.exec m
  | .dataLane job => job.exec m
  | .participant job => job.exec m self
  | .hub job => job.exec m self

end Job

namespace Machine

/-- The part of an agenda from the place on that catches a panic; `none` when there is no such place. -/
def caught? : List Job → Option (List Job)
  | [] => none
  | .participant (.delivered d) :: rest => some (ParticipantJob.afterPanic d ++ rest)
  | _ :: rest => caught? rest

/-- Whether a panic passes the point where a hub is cut off, before it is caught. -/
def abandons : List Job → Bool
  | [] | .participant (.delivered _) :: _ => false
  | .hub .detach :: _ => true
  | _ :: rest => abandons rest

def setAgenda (m : Machine) (t : ThreadId) (agenda : List Job) : Machine :=
  m.changeThread t ({ · with agenda })

def carry (m : Machine) (t : ThreadId) (job : Job) (later : List Job) : Machine :=
  let (m, next) := job.exec m t
  m.setAgenda t (next ++ later)

def unwind (m : Machine) (t : ThreadId) (later : List Job) : Machine :=
  let m := m.giveBackAll t
  let m := if abandons later then (HubJob.detach.exec m t).1 else m
  match caught? later with
  | some agenda => m.setAgenda t agenda
  | none => m.changeThread t ({ · with agenda := [], panicked := true })

def step? (m : Machine) (t : ThreadId) : Option Machine :=
  match m.agenda t with
  | [] => none
  | .panic :: later => some (m.unwind t later)
  | job :: later => if job.enabled m t then some (m.carry t job later) else none

end Machine
end TransportHub
