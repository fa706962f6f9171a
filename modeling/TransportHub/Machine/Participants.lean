import TransportHub.Machine.Basic
/-!
Jobs that concern the participants: calls of adapters and of listeners, and the delivery of a callback
to the listeners of a snapshot, one after the other. A listener's panic ends that listener's call and
nothing else.
-/
namespace TransportHub

open Job (logHub nested)

namespace ParticipantJob

def conclude (key : AdapterKey) (spec : AdapterSpec Op) : AdapterCall → List Job
  | .run => [.answer (.done (spec.startError.elim (.ok ()) .error))]
  | .send c sequence _ =>
    match spec.answer with
    | .accept => [.answer (.done (.ok ()))]
    | .complete status =>
      [.participant (.complete key c sequence status), .answer (.done (.ok ()))]
    | .refuse error => [.answer (.done (.error error))]
  | _ => [.answer .unit]

def minimalAnswer? : AdapterCall → Option Reply
  | .send .. => some (.done (.error .unsupported))
  | .stop => some .unit
  | _ => none

/-- Being started, an adapter keeps the context it is given before it does anything else. -/
def keepContext (a : Adapter) (id : AdapterId) : AdapterCall → Adapter
  | .run => { a with context := some id }
  | _ => a

def callAdapter (m : Machine) (id : AdapterId) (key : AdapterKey) (a : Adapter)
    (call : AdapterCall) : Machine × List Job :=
  match (minimalAnswer? call).filter fun _ => a.spec.minimal with
  | some reply => (m, [.answer reply])
  | none =>
    let (ops, a) := (keepContext a id call).meet call.event
    ({ m with cast := m.cast.setAdapter key a }, ops.flatMap nested ++ conclude key a.spec call)

def callListener (m : Machine) (id : ListenerId) (l : Listener) (callback : Callback) :
    Machine × List Job :=
  if l.spec.silent then (m, [])
  else
    let (ops, l) := l.meet callback.event
    ({ m with cast := m.cast.setListener id l }, ops.flatMap nested)

def reportThrough (m : Machine) (id : AdapterId) (report : Report) : List Job :=
  if m.attached then Plan.report id report ++ [.participant .reported]
  else [.log (.hubGone report id)]

def exec (m : Machine) (self : ThreadId) : ParticipantJob → Machine × List Job
  | call id key c =>
    let m := m.note self (.asked key id c)
    match m.cast.adapter? key with
    | some a =>
      let (m, next) := callAdapter m id key a c
      (m, next ++ [.participant (.returned id c)])
    | none => (m, [])
  | returned .. => (m, [])
  | complete key c sequence status =>
    (m, match (m.cast.adapter? key).bind (·.context) with
      | some id => reportThrough m id (.completed c sequence status)
      | none => [])
  | reported => (m, [])
  | mention occasion id key => (m, [logHub (.adapter occasion id (m.cast.deviceType key))])
  | hear id callback =>
    let m := m.note self (.heard id callback)
    match m.cast.listener? id with
    | some l => callListener m id l callback
    | none => (m, [])
  | deliver d =>
    match d.listeners[d.called]? with
    | none => (m.setMetrics (m.hub.metrics.countDelivery d.listeners.length d.panics), [])
    | some id =>
      (m, [.log (.lane d.lane (.calling d.callback.kind d.called)),
        .participant (.hear id d.callback),
        .participant (.delivered { d with called := d.called + 1 })])
  | delivered d => (m, [.participant (.deliver d)])

def afterPanic (d : Delivery) : List Job :=
  [.log (.lane d.lane (.panicked d.callback.kind (d.called - 1))),
    .participant (.deliver { d with panics := d.panics + 1 })]

end ParticipantJob
end TransportHub
