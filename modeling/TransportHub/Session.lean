import TransportHub.Machine.Schedule
/-!
Sessions: operations performed one after the other on the caller's thread, each followed by settling,
with what was answered and what was observed meanwhile.
-/
namespace TransportHub

structure Outcome where
  reply : Reply
  happened : List (ThreadId × Entry)
  finished : Bool
  machine : Machine

namespace Outcome

def observable (o : Outcome) (logs : Bool) : Entry → Bool
  | .heard l _ => o.machine.cast.listenerShows l
  | .asked key _ call => o.machine.cast.adapterShows key call
  | .performed .. => true
  | .logged _ => logs

def threadName (o : Outcome) (t : ThreadId) : String :=
  (o.machine.thread? t).elim "" (·.name)

def observed (o : Outcome) (logs : Bool) : List (String × List Entry) :=
  let entries := (o.happened.filter fun e => o.observable logs e.2).map fun e =>
    (o.threadName e.1, e.2)
  (entries.map (·.1)).eraseDups.map fun name =>
    (name, (entries.filter (·.1 = name)).map (·.2))

end Outcome

namespace Machine

/-- Steps granted to one operation. -/
def patience : Nat := 1000000

def initial (config : Config) (hooks : List Hook) (system : System := .usual config) : Machine where
  hub := { config, owned := false }
  hooks := hooks
  system := system
  threads := [{ name := "main", agenda := [] }]

def beginWith (m : Machine) (jobs : List Job) : Machine :=
  m.changeThread .caller ({ · with agenda := jobs, reply := .unit, panicked := false })

def carryOut (m : Machine) (jobs : List Job) : Outcome :=
  let m' := (m.beginWith jobs).settle patience
  let caller := m'.thread? .caller
  { reply := if m'.panicked .caller then .panicked else m'.reply .caller
    happened := (m'.trace.take (m'.trace.length - m.trace.length)).reverse
    finished := caller.all (·.ended)
    machine := m' }

def construction (config : Config) : List Job :=
  [Job.logHub (.created config.threadPrefix), .hub .establish]

def assembly : List Job := [.hub .establish]

def construct (m : Machine) : Outcome := m.carryOut (construction m.hub.config)

def assemble (m : Machine) : Outcome := m.carryOut assembly

def performAll (m : Machine) : List Op → List Outcome
  | [] => []
  | op :: rest =>
    let outcome := m.carryOut [.perform op]
    outcome :: outcome.machine.performAll rest

def callListener (m : Machine) (spec : ListenerSpec Op) (callback : Callback) : Outcome :=
  let (id, cast) := m.cast.enterListener spec
  { m with cast }.carryOut [.participant (.hear id callback)]

def enterListeners (m : Machine) : List (ListenerSpec Op) → List ListenerId × Machine
  | [] => ([], m)
  | spec :: rest =>
    let (id, cast) := m.cast.enterListener spec
    let (ids, m) := { m with cast }.enterListeners rest
    (id :: ids, m)

/-- Delivers callbacks in turn to the same listeners, under the name of a lane; says of each how many
listeners panicked. -/
def deliverEach (m : Machine) (lane : String) (listeners : List ListenerId) :
    List Callback → List (Nat × Outcome)
  | [] => []
  | callback :: rest =>
    let outcome := m.carryOut [Job.deliver lane callback listeners]
    (outcome.machine.hub.metrics.panics - m.hub.metrics.panics, outcome) ::
      outcome.machine.deliverEach lane listeners rest

end Machine
end TransportHub
