import TransportHub.ListenerSet
import TransportHub.Operation
/-!
The cast of a hub: the adapters and listeners that take part, what happened to each of them so far, and
the names they go by. Device listeners and data listeners have names of their own.
-/
namespace TransportHub

structure Adapter where
  spec : AdapterSpec Op
  deviceType : String
  -- The registration it was started for last.
  context : Option AdapterId := none
  past : List Event := []

structure Listener where
  spec : ListenerSpec Op
  past : List Event := []

structure Cast where
  adapters : List Adapter := []
  listeners : List Listener := []
  adapterNames : List (String × AdapterKey) := []
  deviceListenerNames : List (String × ListenerId) := []
  dataListenerNames : List (String × ListenerId) := []

def Listener.meet (l : Listener) (event : Event) : List Op × Listener :=
  (Rule.opsFor l.spec.script event (l.past.count event), { l with past := event :: l.past })

def Adapter.meet (a : Adapter) (event : Event) : List Op × Adapter :=
  (Rule.opsFor a.spec.script event (a.past.count event), { a with past := event :: a.past })

namespace Cast

def adapter? (c : Cast) (key : AdapterKey) : Option Adapter :=
  c.adapters[key.val]?

def listener? (c : Cast) (id : ListenerId) : Option Listener :=
  c.listeners[id.val]?

def setAdapter (c : Cast) (key : AdapterKey) (a : Adapter) : Cast :=
  { c with adapters := c.adapters.set key.val a }

def setListener (c : Cast) (id : ListenerId) (l : Listener) : Cast :=
  { c with listeners := c.listeners.set id.val l }

def adapterName (c : Cast) (key : AdapterKey) : String :=
  (c.adapter? key).elim "" (·.spec.name)

def deviceType (c : Cast) (key : AdapterKey) : String :=
  (c.adapter? key).elim "" (·.deviceType)

def listenerShows (c : Cast) (id : ListenerId) : Bool :=
  (c.listener? id).any (!·.spec.silent)

def adapterShows (c : Cast) (key : AdapterKey) : AdapterCall → Bool
  | .send .. | .stop => (c.adapter? key).any (!·.spec.minimal)
  | _ => true

def listenerName (c : Cast) (id : ListenerId) : String :=
  (c.listener? id).elim "" (·.spec.name)

def enterAdapter (c : Cast) (spec : AdapterSpec Op) : AdapterKey × Cast :=
  let key : AdapterKey := ⟨c.adapters.length⟩
  (key, { c with
    adapters := c.adapters ++ [{ spec, deviceType := spec.deviceType }]
    adapterNames := (spec.name, key) :: c.adapterNames })

def resolveAdapter (c : Cast) : Ref (AdapterSpec Op) → AdapterKey × Cast
  | .fresh spec => c.enterAdapter spec
  | .named name =>
    match c.adapterNames.lookup name with
    | some key => (key, c)
    | none => c.enterAdapter { name }

def namedAdapter? (c : Cast) (name : String) : Option (AdapterKey × Adapter) := do
  let key ← c.adapterNames.lookup name
  let a ← c.adapter? key
  return (key, a)

def enterListener (c : Cast) (spec : ListenerSpec Op) : ListenerId × Cast :=
  (⟨c.listeners.length⟩, { c with listeners := c.listeners ++ [{ spec }] })

/-- The listener meant among those with the given names, and the names afterwards. -/
def resolveListener (c : Cast) (names : List (String × ListenerId)) :
    Ref (ListenerSpec Op) → ListenerId × List (String × ListenerId) × Cast
  | .fresh spec =>
    let (id, c) := c.enterListener spec
    (id, (spec.name, id) :: names, c)
  | .named name =>
    match names.lookup name with
    | some id => (id, names, c)
    | none =>
      let (id, c) := c.enterListener { name }
      (id, (name, id) :: names, c)

def resolveDeviceListener (c : Cast) (ref : Ref (ListenerSpec Op)) : ListenerId × Cast :=
  let (id, names, c) := c.resolveListener c.deviceListenerNames ref
  (id, { c with deviceListenerNames := names })

def resolveDataListener (c : Cast) (ref : Ref (ListenerSpec Op)) : ListenerId × Cast :=
  let (id, names, c) := c.resolveListener c.dataListenerNames ref
  (id, { c with dataListenerNames := names })

end Cast
end TransportHub
