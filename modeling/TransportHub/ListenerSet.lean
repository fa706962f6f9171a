/-!
Listener sets: the registrations of a lane's listeners, in the order they were made. A listener is
known by its identity, never by what it does, and may be registered several times.
-/
namespace TransportHub

structure ListenerId where
  val : Nat
deriving DecidableEq, Repr

structure ListenerSet where
  registrations : List ListenerId := []
deriving DecidableEq, Repr

namespace ListenerSet

def add (s : ListenerSet) (l : ListenerId) : ListenerSet :=
  ⟨s.registrations ++ [l]⟩

/-- Drops every registration of a listener and says whether that made the set smaller. -/
def remove (s : ListenerSet) (l : ListenerId) : Bool × ListenerSet :=
  let kept := s.registrations.filter (· ≠ l)
  (kept.length ≠ s.registrations.length, ⟨kept⟩)

def snapshot (s : ListenerSet) : List ListenerId :=
  s.registrations

def size (s : ListenerSet) : Nat :=
  s.registrations.length

@[simp] theorem snapshot_add (s : ListenerSet) (l : ListenerId) :
    (s.add l).snapshot = s.snapshot ++ [l] := rfl

@[simp] theorem snapshot_remove (s : ListenerSet) (l : ListenerId) :
    (s.remove l).2.snapshot = s.snapshot.filter (· ≠ l) := rfl

@[simp] theorem found_remove (s : ListenerSet) (l : ListenerId) :
    (s.remove l).1 = true ↔ l ∈ s.snapshot := by
  simp [remove, snapshot, List.length_filter_eq_length_iff]

end ListenerSet
end TransportHub
