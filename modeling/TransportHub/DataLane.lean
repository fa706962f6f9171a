import TransportHub.Callback
/-!
A data lane: the queue of one connection and the worker that delivers it.

A lane that was asked to stop takes nothing new, and its worker leaves when the queue is empty, having
delivered everything queued before, even if termination begins meanwhile. Termination makes the worker
of any other lane leave at its next look and throws away what is queued.
-/
namespace TransportHub

structure DataLane where
  connection : ConnectionHandle
  items : List DataCallback := []
  stopping : Bool := false
  exited : Bool := false
  parked : Bool := false
deriving DecidableEq, Repr

inductive DataLane.Look where
  | park
  | take (batch : List DataCallback)
  | finish
  | leave (discarded : Nat)
deriving DecidableEq, Repr

namespace DataLane

def accepts (l : DataLane) : Bool :=
  !l.stopping && !l.exited

def push (l : DataLane) (callback : DataCallback) : DataLane :=
  { l with items := l.items ++ [callback], parked := false }

def requestStop (l : DataLane) : DataLane :=
  { l with stopping := true, parked := false }

def wake (l : DataLane) : DataLane :=
  { l with parked := false }

def look (terminating : Bool) (l : DataLane) : Look × DataLane :=
  if terminating && !l.stopping then
    (.leave l.items.length, { l with items := [], exited := true })
  else if l.items.isEmpty then
    if l.stopping then (.finish, { l with exited := true }) else (.park, { l with parked := true })
  else (.take l.items, { l with items := [] })

theorem look_cases (terminating : Bool) (l : DataLane) :
    (terminating = true ∧ l.stopping = false ∧
      l.look terminating = (.leave l.items.length, { l with items := [], exited := true })) ∨
    (l.items = [] ∧ l.stopping = true ∧ l.look terminating = (.finish, { l with exited := true })) ∨
    (terminating = false ∧ l.items = [] ∧ l.stopping = false ∧
      l.look terminating = (.park, { l with parked := true })) ∨
    (l.items ≠ [] ∧ (terminating = false ∨ l.stopping = true) ∧
      l.look terminating = (.take l.items, { l with items := [] })) := by
  unfold look
  cases terminating <;> cases l.stopping <;> by_cases empty : l.items = [] <;> simp [empty]

end DataLane
end TransportHub
