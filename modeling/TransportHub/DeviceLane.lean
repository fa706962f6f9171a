import TransportHub.Callback
import TransportHub.ListenerSet
/-!
The device lane: one queue of device callbacks, the listeners they are for, and the worker that
delivers them.

The worker takes the whole queue at once together with a snapshot of the listeners. When there is
nothing to take it parks, and every push wakes it. Once termination has begun it takes nothing more:
what is still queued is thrown away and the worker leaves.
-/
namespace TransportHub

structure ThreadId where
  val : Nat
deriving DecidableEq, Repr

structure DeviceLane where
  queue : List DeviceCallback := []
  listeners : ListenerSet := {}
  parked : Bool := false
  worker : Option ThreadId := none
deriving DecidableEq, Repr

inductive DeviceLane.Look where
  | park
  | take (batch : List DeviceCallback) (listeners : List ListenerId)
  | leave (discarded : Nat)
deriving DecidableEq, Repr

namespace DeviceLane

def push (l : DeviceLane) (callback : DeviceCallback) : DeviceLane :=
  { l with queue := l.queue ++ [callback], parked := false }

def wake (l : DeviceLane) : DeviceLane :=
  { l with parked := false }

def look (terminating : Bool) (l : DeviceLane) : Look × DeviceLane :=
  if terminating then (.leave l.queue.length, { l with queue := [] })
  else if l.queue.isEmpty then (.park, { l with parked := true })
  else (.take l.queue l.listeners.snapshot, { l with queue := [] })

theorem look_cases (terminating : Bool) (l : DeviceLane) :
    (terminating = true ∧ l.look terminating = (.leave l.queue.length, { l with queue := [] })) ∨
    (terminating = false ∧ l.queue = [] ∧ l.look terminating = (.park, { l with parked := true })) ∨
    (terminating = false ∧ l.queue ≠ [] ∧
      l.look terminating = (.take l.queue l.listeners.snapshot, { l with queue := [] })) := by
  unfold look
  cases terminating <;> by_cases empty : l.queue = [] <;> simp [empty]

end DeviceLane
end TransportHub
