import TransportHub.Config
/-!
The system that threads are asked of. It may refuse any request, each for a cause of its own.
-/
namespace TransportHub

/-- For each name, why the nth further request for a thread of that name is refused; `none` where it is
granted. -/
structure System where
  refusal : String → Nat → Option String

inductive System.Answer where
  | started
  | refused (cause : String)
  | crashed
deriving DecidableEq, Repr

namespace System

/-- What the next request for a thread of a name comes to; a name that holds a NUL crashes the caller. -/
def answer (s : System) (name : String) : Answer :=
  if name.toList.contains '\x00' then .crashed
  else match s.refusal name 0 with
    | some cause => .refused cause
    | none => .started

def advance (s : System) (name : String) : System where
  refusal other n := s.refusal other (if other = name then n + 1 else n)

def addressSpace : Nat := 1 <<< 47

/-- Refuses all threads whose stack is too large to map, and no other. -/
def usual (config : Config) : System where
  refusal _ _ :=
    if config.stackSize.any (addressSpace ≤ ·) then
      some "Resource temporarily unavailable (os error 11)"
    else none

end System
end TransportHub
