import TransportHub.Machine.Step
/-!
Schedules. The threads of a machine may take their turns in any order; `Machine.settle` follows one
order, in which the caller goes first except that it waits for the workers around every operation of a
script or hook, and it ends when no thread can go on.
-/
namespace TransportHub.Machine

def canStep (m : Machine) (t : ThreadId) : Bool :=
  match m.agenda t with
  | [] => false
  | .panic :: _ => true
  | job :: _ => job.enabled m t

/-- The caller stands before or behind an operation of a script or hook. -/
def callerInGap (m : Machine) : Bool :=
  match m.agenda .caller with
  | .enter :: _ | .leave _ :: _ => true
  | _ => false

def nextWorker? (m : Machine) : Option ThreadId :=
  ((List.range m.threads.length).map ThreadId.mk).find? fun t => t ≠ .caller ∧ m.canStep t

def next? (m : Machine) : Option ThreadId :=
  if m.canStep .caller then
    if m.callerInGap then m.nextWorker? <|> some .caller else some .caller
  else m.nextWorker?

def settle : Nat → Machine → Machine
  | 0, m => m
  | fuel + 1, m =>
    match m.next?.bind m.step? with
    | some m => settle fuel m
    | none => m

end TransportHub.Machine
