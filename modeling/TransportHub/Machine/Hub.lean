import TransportHub.Machine.Basic
/-!
Hub jobs: the decisions of the hub between the calls it makes. No job calls an adapter itself, so no
lock that is needed for a moment only is ever held while an adapter runs.
-/
namespace TransportHub

open Job (logHub mention call)

namespace HubJob

/-- The first owner whose adapter answers the wanted transport type now, or else the first owner. -/
def preferred (cast : Cast) (deviceType : String) (first : AdapterId × AdapterKey)
    (others : List (AdapterId × AdapterKey)) : AdapterId × AdapterKey :=
  ((first :: others).find? fun owner => cast.deviceType owner.2 = deviceType).getD first

def refuseSend (error : Error) : List Job := [.answer (.sent (.error error))]

def shutDownAll (ids : List AdapterId) (join : Bool) : List Job :=
  ids.flatMap (Plan.withdraw · .shutdown) ++ [.deviceLane .wake, .dataLane (.close join)] ++
    (if join then [.deviceLane .join] else []) ++
    [.hub .clearConnections, .hub .halt, logHub .shutDown]

def exec (m : Machine) (self : ThreadId) : HubJob → Machine × List Job
  | add adapter =>
    (m, if m.hub.terminating then
        [.release .lifecycle, .answer (.added (.error .shuttingDown))]
      else Plan.register (m.cast.deviceType adapter) adapter .hub)
  | claimNew id adapter =>
    let (claimed, registry) :=
      if m.hub.running then m.hub.registry.beginStart id else (none, m.hub.registry)
    (m.setRegistry registry,
      [.release .lifecycle, mention .added id adapter] ++
        claimed.elim [] (Plan.runAdapter id) ++ [.answer (.added (.ok id))])
  | ran id adapter =>
    (m, (m.reply self).error?.elim [] fun e => [mention (.failed e) id adapter])
  | finishStart id adapter =>
    let (found, registry) := m.hub.registry.finishStart id
    (m.setRegistry registry,
      if found then [] else [logHub (.removedWhileStarting id), call id adapter .stop])
  | publishList =>
    (m, if m.hub.terminating then [logHub .listNotPublished] else [.hub .publishAggregate])
  | publishAggregate =>
    let devices := m.hub.registry.aggregate
    (m, logHub (.listUpdated devices.length) :: Plan.enqueueDevice (.listUpdated devices))
  | run =>
    (m, if m.hub.terminating then
        [.release .lifecycle, .answer (.done (.error .shuttingDown))]
      else if m.hub.running then
        [logHub .runTwice, .release .lifecycle, .answer (.done (.error .alreadyRunning))]
      else Plan.startDeviceLane ++ [.hub .laneStarted])
  | laneStarted =>
    match (m.reply self).error? with
    | some _ => (m, [.release .lifecycle])
    | none => (m.setHub { m.hub with running := true }, [.hub .claimAll])
  | claimAll =>
    let (claimed, registry) := m.hub.registry.beginStartAll
    (m.setRegistry registry,
      [.release .lifecycle, logHub (.starting claimed.length)] ++
        claimed.flatMap (fun c => Plan.runAdapter c.1 c.2) ++ [.answer (.done (.ok ()))])
  | scan =>
    let adapters := m.hub.registry.adapters
    (m, logHub (.scanning adapters.length) :: adapters.map (fun a => call a.1 a.2 .scan) ++
      [.answer .unit])
  | request r handle =>
    (m, match m.hub.registry.owners handle with
      | [] => [logHub (.unlisted r handle), .answer .unit]
      | owners =>
        owners.flatMap (fun o =>
          [logHub (.forwarded r handle o.1), call o.1 o.2 (.request r handle)]) ++ [.answer .unit])
  | send c data =>
    (m, if m.hub.terminating then refuseSend .shuttingDown else [.hub (.findDevice c data)])
  | findDevice c data =>
    (m, match m.hub.connections.get? c with
      | some device => [.hub (.findOwners c data device)]
      | none => refuseSend (.unknownConnection c))
  | findOwners c data device =>
    (m, match m.hub.registry.owners device.handle with
      | [] =>
        refuseSend (.sendFailed s!"device {device.handle} is no longer listed by any adapter")
      | first :: others => [.hub (.forward c data device first others)])
  | forward c data device first others =>
    let owner := preferred m.cast device.deviceType first others
    let sequence := m.hub.handles.nextFrame
    (m.setHub { m.hub with handles := m.hub.handles.advance .frame },
      [logHub (.sending sequence data.length c owner.1),
        call owner.1 owner.2 (.send c sequence data), .hub (.sent sequence)])
  | sent sequence =>
    (m, [.answer (.sent ((m.reply self).error?.elim (.ok sequence) .error))])
  | connect device c =>
    (m, if m.hub.terminating then [logHub (.connectionIgnored c device)]
      else [logHub (.connected device c), .hub (.recordConnection device c)] ++
        Plan.startLane c ++ [.hub (.connectionStarted device c)])
  | recordConnection device c =>
    (m.setHub { m.hub with connections := m.hub.connections.insert c device }, [])
  | connectionStarted device c =>
    (m, match (m.reply self).error? with
      | some .shuttingDown => [.hub (.forgetConnection c), logHub (.connectionIgnored c device)]
      | some e => logHub (.notDelivering c e) :: Plan.enqueueDevice (.connected device c)
      | none => Plan.enqueueDevice (.connected device c))
  | forgetConnection c =>
    (m.setHub { m.hub with connections := m.hub.connections.erase c }, [])
  | disconnected device c =>
    (m, if m.hub.terminating then [] else Plan.enqueueDevice (.disconnected device c))
  | raiseTermination =>
    if m.hub.terminating then (m, [])
    else
      let m := m.setHub { m.hub with terminating := true }
      (if m.hub.config.joinWorkers then m.endHolds else m,
        [.acquire .lifecycle, .release .lifecycle, logHub .shuttingDown, .hub .stopAdapters])
  | stopAdapters => (m, shutDownAll m.hub.registry.ids m.hub.config.joinWorkers)
  | clearConnections => (m.setHub { m.hub with connections := {} }, [])
  | halt => (m.setHub { m.hub with running := false }, [])
  | establish => (m.setHub { m.hub with owned := true }, [])
  | detach => (m.setHub { m.hub with attached := false }, [])

end HubJob
end TransportHub
