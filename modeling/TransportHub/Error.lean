import TransportHub.Handle
/-!
Errors of hub operations: their causes, the one place that words them, and the underlying cause that
a failed worker start carries.
-/
namespace TransportHub

inductive Error where
  | workerSpawn (cause : String)
  | alreadyRunning
  | shuttingDown
  | unknownConnection (connection : ConnectionHandle)
  | unknownAdapter (adapter : AdapterId)
  | unsupported
  | sendFailed (reason : String)
deriving DecidableEq, Repr

namespace Error

def message : Error → String
  | workerSpawn cause => s!"Dispatch worker spawn failed: {cause}"
  | alreadyRunning => "Transport manager already running"
  | shuttingDown => "Transport manager is shutting down"
  | unknownConnection connection => s!"Unknown connection handle: {connection}"
  | unknownAdapter adapter => s!"Unknown device adapter: {adapter}"
  | unsupported => "Unsupported operation"
  | sendFailed reason => s!"Send failed: {reason}"

def source : Error → Option String
  | workerSpawn cause => some cause
  | _ => none

instance : ToString Error := ⟨message⟩

end Error
end TransportHub
