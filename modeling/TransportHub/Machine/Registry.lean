import TransportHub.Machine.Basic
/-!
Registry jobs. All of them but `store` and `enrol` decide and say what comes next; they run while the
registry lock is taken.
-/
namespace TransportHub

open Job (logRegistry mention)

namespace RegistryJob

def afterWithdrawal (m : Machine) (id : AdapterId) :
    Errand → Option Registry.Withdrawal → List Job
  | .alone, w => [.answer (.withdrawal (w.map fun w => (m.cast.adapterName w.adapter, w)))]
  | .hub, some w =>
    (if 0 < w.released then [.hub .publishList] else []) ++
      [.release .publish, mention .removed id w.adapter] ++ Plan.stopWithdrawn id w ++
      [.answer (.done (.ok ()))]
  | .hub, none => [.release .publish, .answer (.done (.error (.unknownAdapter id)))]
  | .shutdown, some w => Plan.stopWithdrawn id w
  | .shutdown, none => []

def afterReplacement : Errand → Bool → List Job
  | .hub, true => [.hub .publishList, .release .publish]
  | .hub, false => [.release .publish]
  | _, found => [.answer (.flag found)]

def exec (m : Machine) : RegistryJob → Machine × List Job
  | reserve deviceType adapter errand =>
    let id := m.hub.registry.nextId
    (m.setRegistry m.hub.registry.reserve,
      [logRegistry (.registered id deviceType), .registry (.enrol id deviceType adapter),
        .release .registry,
        if errand = .hub then .hub (.claimNew id adapter) else .answer (.adapterId id)])
  | enrol id deviceType adapter =>
    (m.setRegistry (m.hub.registry.enrol id deviceType adapter), [])
  | withdraw id errand =>
    match m.hub.registry.unregister id with
    | (some w, registry) =>
      (m.setRegistry registry,
        [logRegistry (.unregistered id w.deviceType w.released), .release .registry] ++
          afterWithdrawal m id errand (some w))
    | (none, _) => (m, .release .registry :: afterWithdrawal m id errand none)
  | replace id devices errand =>
    match m.hub.registry.find? id with
    | some e =>
      (m, [logRegistry (.listing id e.deviceType devices.length), .registry (.store id devices),
        .release .registry] ++ afterReplacement errand true)
    | none =>
      (m, [logRegistry (.notRegistered id), .release .registry] ++ afterReplacement errand false)
  | store id devices => (m.setRegistry (m.hub.registry.replaceDevices id devices).2, [])

end RegistryJob

def RegistryOp.exec (m : Machine) : RegistryOp → Machine × List Job
  | beginStart id =>
    let (adapter, registry) := m.hub.registry.beginStart id
    (m.setRegistry registry, [.answer (.adapterName (adapter.map m.cast.adapterName))])
  | beginStartAll =>
    let (claimed, registry) := m.hub.registry.beginStartAll
    (m.setRegistry registry, [.answer (named claimed)])
  | finishStart id =>
    let (found, registry) := m.hub.registry.finishStart id
    (m.setRegistry registry, [.answer (.flag found)])
  | unregister id => (m, Plan.withdraw id .alone)
  | replace id devices => (m, Plan.replace id devices .alone)
  | aggregate => (m, [.answer (.devices m.hub.registry.aggregate)])
  | owners handle => (m, [.answer (named (m.hub.registry.owners handle))])
  | adapters => (m, [.answer (named m.hub.registry.adapters)])
  | contains id => (m, [.answer (.flag (m.hub.registry.contains id))])
where
  named (adapters : List (AdapterId × AdapterKey)) : Reply :=
    .adapters (adapters.map fun a => (a.1, m.cast.adapterName a.2))

end TransportHub
