import TransportHub.Callback
import TransportHub.Error
import TransportHub.Report
/-!
Scripted participants. An adapter or a listener is given as data: what it answers, and a script that
says which operations it performs from inside which of its calls. The operations are a parameter here.
-/
namespace TransportHub

inductive Event where
  | list
  | up
  | down
  | frame
  | sent
  | run
  | scan
  | connect
  | disconnect
  | send
  | stop
deriving DecidableEq, Repr

def DeviceCallback.event : DeviceCallback → Event
  | listUpdated _ => .list
  | connected .. => .up
  | disconnected .. => .down

def DataCallback.event : DataCallback → Event
  | received .. => .frame
  | completed .. => .sent

def Callback.event : Callback → Event
  | device c => c.event
  | data c => c.event

def AdapterCall.event : AdapterCall → Event
  | run => .run
  | scan => .scan
  | request .connect _ => .connect
  | request .disconnect _ => .disconnect
  | send .. => .send
  | stop => .stop

/-- Operations to perform inside an event, every time or only when it happens for the `nth` time. -/
structure Rule (Op : Type) where
  event : Event
  nth : Option Nat
  ops : List Op

def Rule.opsFor (script : List (Rule Op)) (event : Event) (earlier : Nat) : List Op :=
  (script.filter fun r => r.event = event ∧ r.nth.all (· = earlier)).flatMap (·.ops)

structure ListenerSpec (Op : Type) where
  name : String
  silent : Bool := false
  script : List (Rule Op) := []

inductive SendAnswer where
  | accept
  | complete (status : SendStatus)
  | refuse (error : Error)
deriving DecidableEq, Repr

structure AdapterSpec (Op : Type) where
  name : String
  deviceType : String := ""
  startError : Option Error := none
  answer : SendAnswer := .accept
  -- A minimal adapter cannot send frames and does nothing to stop.
  minimal : Bool := false
  script : List (Rule Op) := []

inductive Ref (Spec : Type) where
  | fresh (spec : Spec)
  | named (name : String)

instance : Inhabited (Ref Spec) := ⟨.named ""⟩

end TransportHub
