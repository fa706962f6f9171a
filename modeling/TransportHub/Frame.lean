import TransportHub.Handle
/-!
Frames: the bytes that travel on a connection, and how sending one ended.
-/
namespace TransportHub

abbrev Payload := List UInt8

inductive SendStatus where
  | ok
  | failed
  | timeout
  | unknownError
deriving DecidableEq, Repr

instance : Inhabited SendStatus := ⟨.unknownError⟩

namespace SendStatus

def isOk (s : SendStatus) : Bool := s = .ok

def label : SendStatus → String
  | .ok => "ok"
  | .failed => "failed"
  | .timeout => "timeout"
  | .unknownError => "unknown-error"

instance : ToString SendStatus := ⟨label⟩

end SendStatus
end TransportHub
