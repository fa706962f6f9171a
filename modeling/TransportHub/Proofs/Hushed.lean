import TransportHub.Proofs.Routine
/-!
Hushed sessions. A session is hushed by taking the scripts of all its listeners away, wherever an operation, a
script or a hook brings one in: they are still called, and none of them panics.

Hushing a machine also takes away what panics of listeners have left on it, so that each step of a hub whose
listeners are passive is a step of the hushed hub, but for the records of those panics.
-/

set_option autoImplicit false

namespace TransportHub

open DataLanes (Slot)

variable {config : Config} {hooks : List Hook} {past : List Moment} {m m' : Machine} {t u w : ThreadId}
  {job : Job} {later : List Job}

def ListenerSpec.hushed (spec : ListenerSpec Op) : ListenerSpec Op := { spec with script := [] }

def hushedListener : Ref (ListenerSpec Op) → Ref (ListenerSpec Op)
  | .fresh spec => .fresh spec.hushed
  | .named name => .named name

mutual
def Op.hushed : Op → Op
  | .addAdapter ref => .addAdapter (hushedAdapter ref)
  | .register ref => .register (hushedAdapter ref)
  | .addDeviceListener ref => .addDeviceListener (hushedListener ref)
  | .addDataListener ref => .addDataListener (hushedListener ref)
  | .removeDeviceListener ref => .removeDeviceListener (hushedListener ref)
  | .removeDataListener ref => .removeDataListener (hushedListener ref)
  | op => op
def hushedAdapter : Ref (AdapterSpec Op) → Ref (AdapterSpec Op)
  | .fresh ⟨name, deviceType, startError, answer, minimal, script⟩ =>
      .fresh ⟨name, deviceType, startError, answer, minimal, hushedScript script⟩
  | .named name => .named name
def hushedScript : List (Rule Op) → List (Rule Op)
  | [] => []
  | ⟨event, nth, ops⟩ :: rest => ⟨event, nth, hushedOps ops⟩ :: hushedScript rest
def hushedOps : List Op → List Op
  | [] => []
  | op :: rest => op.hushed :: hushedOps rest
end

theorem hushedOps_map (ops : List Op) : hushedOps ops = ops.map Op.hushed := by
  induction ops with
  | nil => rfl
  | cons op rest ih => rw [hushedOps, ih, List.map_cons]

def Rule.hushed (r : Rule Op) : Rule Op := { r with ops := r.ops.map Op.hushed }

theorem hushedScript_map (script : List (Rule Op)) : hushedScript script = script.map Rule.hushed := by
  induction script with
  | nil => rfl
  | cons r rest ih => rw [hushedScript, ih, hushedOps_map, List.map_cons]; rfl

def AdapterSpec.hushed (spec : AdapterSpec Op) : AdapterSpec Op := { spec with script := spec.script.map Rule.hushed }

theorem hushedAdapter_fresh (spec : AdapterSpec Op) : hushedAdapter (.fresh spec) = .fresh spec.hushed := by
  cases spec
  rw [hushedAdapter, hushedScript_map]
  rfl

def Listener.hushed (l : Listener) : Listener := { l with spec := l.spec.hushed }

def Adapter.hushed (a : Adapter) : Adapter := { a with spec := a.spec.hushed }

def Hook.hushed (h : Hook) : Hook := { h with ops := h.ops.map Op.hushed }

def Cast.hushed (c : Cast) : Cast :=
  { c with adapters := c.adapters.map Adapter.hushed, listeners := c.listeners.map Listener.hushed }

-- A listener's call that panicked counts as delivered.
def Metrics.hushed (m : Metrics) : Metrics := { m with delivered := m.delivered + m.panics, panics := 0 }

def Hub.hushed (h : Hub) : Hub := { h with metrics := h.metrics.hushed }

def Job.hushed : Job → Job
  | .perform op => .perform op.hushed
  | .leave op => .leave op.hushed
  | .participant (.deliver d) => .participant (.deliver { d with panics := 0 })
  | .participant (.delivered d) => .participant (.delivered { d with panics := 0 })
  | job => job

def Job.catches : Job → Bool
  | .participant (.delivered _) => true
  | _ => false

def hush : List Job → List Job
  | [] => []
  | .panic :: rest => if rest.any Job.catches then hush rest else .panic :: hush rest
  | job :: rest => if job.laments then hush rest else job.hushed :: hush rest

def Thread.hushed (t : Thread) : Thread := { t with agenda := hush t.agenda }

def Entry.hushed : Entry → Option Entry
  | .performed op reply => some (.performed op.hushed reply)
  | .logged (.lane _ (.panicked ..)) => none
  | entry => some entry

def Machine.hushed (m : Machine) : Machine :=
  { m with
    hub := m.hub.hushed
    cast := m.cast.hushed
    hooks := m.hooks.map Hook.hushed
    threads := m.threads.map Thread.hushed
    trace := m.trace.filterMap fun e => e.2.hushed.map (e.1, ·) }

theorem hush_append {front back : List Job} (calm : ∀ j ∈ front, j.laments = false)
    (apart : (∀ j ∈ front, j ≠ .panic) ∨ ∀ j ∈ front ++ back, j.catches = false) :
    hush (front ++ back) = front.map Job.hushed ++ hush back := by
  induction front with
  | nil => rfl
  | cons job rest ih =>
      have behind := ih (fun j member => calm j (List.mem_cons_of_mem _ member))
        (apart.imp (fun quiet j member => quiet j (List.mem_cons_of_mem _ member)) fun none j member =>
        none j (List.mem_cons_of_mem _ member))
      have here := calm job (List.mem_cons_self ..)
      rw [List.cons_append, List.map_cons, List.cons_append, ← behind]
      by_cases panics : job = .panic
      · subst panics
        have none := apart.resolve_left fun quiet => quiet _ (List.mem_cons_self ..) rfl
        have unended : (rest ++ back).any Job.catches = false := List.any_eq_false.mpr fun j member => by
          rw [none j (List.mem_cons_of_mem _ member)]
          decide
        rw [hush, if_neg (by rw [unended]; decide)]
        rfl
      · rw [hush, if_neg (by rw [here]; decide)]
        exact panics

@[simp] theorem hushed_agenda (m : Machine) (t : ThreadId) : m.hushed.agenda t = hush (m.agenda t) := by
  simp only [Machine.agenda, Machine.thread?, Machine.hushed, List.getElem?_map]
  cases m.threads[t.val]? <;> rfl

theorem hush_any {p : Job → Bool} (same : ∀ job : Job, p job.hushed = p job) (panic : p .panic = false)
    (record : ∀ r, p (.log r) = false) (agenda : List Job) : (hush agenda).any p = agenda.any p := by
  fun_induction hush agenda with
  | case1 => rfl
  | case2 rest _ ih => rw [List.any_cons, panic, ih, Bool.false_or]
  | case3 rest _ ih => rw [List.any_cons, List.any_cons, ih]
  | case4 job rest _ laments ih =>
      have none : p job = false := by
        cases job with
        | log r => exact record r
        | _ => cases laments
      rw [List.any_cons, none, ih, Bool.false_or]
  | case5 job rest _ _ ih => rw [List.any_cons, List.any_cons, same, ih]

theorem hushed_changeThread (m : Machine) (t : ThreadId) {change change' : Thread → Thread}
    (same : ∀ thread : Thread, (change thread).hushed = change' thread.hushed) :
    (m.changeThread t change).hushed = m.hushed.changeThread t change' := by
  have threads : (m.threads.modify t.val change).map Thread.hushed = (m.threads.map Thread.hushed).modify t.val change' := by
    refine List.ext_getElem? fun k => ?_
    simp only [List.getElem?_map, List.getElem?_modify]
    cases m.threads[k]? with
    | none => rfl
    | some thread => by_cases here : t.val = k <;> simp [here, same]
  simp only [Machine.changeThread, Machine.hushed, threads]

theorem hushed_setAgenda (m : Machine) (t : ThreadId) (agenda : List Job) :
    (m.setAgenda t agenda).hushed = m.hushed.setAgenda t (hush agenda) :=
  hushed_changeThread m t fun _ => rfl

@[simp] theorem hushed_reply (m : Machine) (t : ThreadId) : m.hushed.reply t = m.reply t := by
  simp only [Machine.reply, Machine.thread?, Machine.hushed, List.getElem?_map]
  cases m.threads[t.val]? <;> rfl

@[simp] theorem hushed_panicked (m : Machine) (t : ThreadId) : m.hushed.panicked t = m.panicked t := by
  simp only [Machine.panicked, Machine.thread?, Machine.hushed, List.getElem?_map]
  cases m.threads[t.val]? <;> rfl

@[simp] theorem hushed_attached (m : Machine) : m.hushed.attached = m.attached := by
  have reporting : ∀ thread : Thread, thread.hushed.reporting = thread.reporting := fun thread =>
    hush_any (fun job => by cases job with
      | participant job => cases job <;> rfl
      | _ => rfl) rfl (fun _ => rfl) thread.agenda
  have threads : (m.threads.map Thread.hushed).any Thread.reporting = m.threads.any Thread.reporting := by
    rw [List.any_map]
    exact congrArg (m.threads.any ·) (funext reporting)
  exact congrArg (m.hub.attached || ·) threads

theorem hushed_cast (m : Machine) : m.hushed.cast = m.cast.hushed := rfl

theorem hushed_listener (c : Cast) (l : ListenerId) : c.hushed.listener? l = (c.listener? l).map Listener.hushed :=
  List.getElem?_map ..

theorem hushed_adapter (c : Cast) (key : AdapterKey) : c.hushed.adapter? key = (c.adapter? key).map Adapter.hushed :=
  List.getElem?_map ..

@[simp] theorem hushed_adapterName (c : Cast) (key : AdapterKey) : c.hushed.adapterName key = c.adapterName key := by
  simp only [Cast.adapterName, hushed_adapter]
  cases c.adapter? key <;> rfl

@[simp] theorem hushed_deviceType (c : Cast) (key : AdapterKey) : c.hushed.deviceType key = c.deviceType key := by
  simp only [Cast.deviceType, hushed_adapter]
  cases c.adapter? key <;> rfl

theorem hushed_setAdapter (c : Cast) (key : AdapterKey) (a : Adapter) :
    (c.setAdapter key a).hushed = c.hushed.setAdapter key a.hushed := by
  simp only [Cast.setAdapter, Cast.hushed, List.map_set]

theorem hushed_setListener (c : Cast) (id : ListenerId) (l : Listener) :
    (c.setListener id l).hushed = c.hushed.setListener id l.hushed := by
  simp only [Cast.setListener, Cast.hushed, List.map_set]

theorem hushed_resolveAdapter (c : Cast) (ref : Ref (AdapterSpec Op)) :
    c.hushed.resolveAdapter (hushedAdapter ref) = ((c.resolveAdapter ref).1, (c.resolveAdapter ref).2.hushed) := by
  cases ref with
  | fresh spec =>
      rw [hushedAdapter_fresh]
      simp [Cast.resolveAdapter, Cast.enterAdapter, Cast.hushed, Adapter.hushed, AdapterSpec.hushed]
  | named name =>
      have names : c.hushed.adapterNames = c.adapterNames := rfl
      simp only [hushedAdapter, Cast.resolveAdapter, names]
      cases c.adapterNames.lookup name with
      | some key => rfl
      | none => simp [Cast.enterAdapter, Cast.hushed, Adapter.hushed, AdapterSpec.hushed]

theorem hushed_resolveListener (c : Cast) (names : List (String × ListenerId)) (ref : Ref (ListenerSpec Op)) :
    c.hushed.resolveListener names (hushedListener ref) =
      ((c.resolveListener names ref).1, (c.resolveListener names ref).2.1, (c.resolveListener names ref).2.2.hushed) := by
  cases ref with
  | fresh spec => simp [hushedListener, Cast.resolveListener, Cast.enterListener, Cast.hushed, Listener.hushed, ListenerSpec.hushed]
  | named name =>
      simp only [hushedListener, Cast.resolveListener]
      cases names.lookup name with
      | some id => rfl
      | none => simp [Cast.enterListener, Cast.hushed, Listener.hushed, ListenerSpec.hushed]

theorem hushed_opsFor (script : List (Rule Op)) (event : Event) (earlier : Nat) :
    Rule.opsFor (script.map Rule.hushed) event earlier = (Rule.opsFor script event earlier).map Op.hushed := by
  simp only [Rule.opsFor, List.filter_map, List.flatMap_map, List.map_flatMap]
  rfl

theorem hushed_nested (op : Op) : Job.nested op.hushed = (Job.nested op).map Job.hushed := by
  cases op <;> rfl

theorem hushed_nested_all (ops : List Op) : (ops.map Op.hushed).flatMap Job.nested = (ops.flatMap Job.nested).map Job.hushed := by
  simp only [List.flatMap_map, List.map_flatMap, hushed_nested]

theorem hushed_log (m : Machine) (t : ThreadId) {record : Log.Record} (calm : (Job.log record).laments = false) :
    m.hushed.log t record = ((m.log t record).1.hushed, (m.log t record).2.map Job.hushed) := by
  have kept : (Entry.logged record).hushed = some (.logged record) := by
    unfold Entry.hushed
    split
    · rename_i same
      cases same
    · rename_i same
      cases same
      cases calm
    · rfl
  have noted : m.hushed.note t (.logged record) = (m.note t (.logged record)).hushed := by
    simp [Machine.note, Machine.hushed, kept]
  have notice : ∀ h : Hook, h.hushed.notice record = ((h.notice record).1.map Op.hushed, (h.notice record).2.hushed) := fun h => by
    have start : h.hushed.start = h.start := rfl
    have seen : h.hushed.seen = h.seen := rfl
    have nth : h.hushed.nth = h.nth := rfl
    simp only [Hook.notice, start, seen, nth]
    by_cases begins : h.start.toList.isPrefixOf record.text.toList = true
    · by_cases now : h.seen = h.nth <;> simp [begins, now, Hook.hushed]
    · simp [begins]
  have noticed : m.hushed.hooks.map (·.notice record) =
      (m.hooks.map (·.notice record)).map fun n => (n.1.map Op.hushed, n.2.hushed) := by
    simp only [Machine.hushed, List.map_map, Function.comp_def, notice]
  have hooks : (m.note t (.logged record)).hooks = m.hooks := rfl
  have hooks' : (m.note t (.logged record)).hushed.hooks = m.hushed.hooks := rfl
  simp only [Machine.log, noted, hooks', hooks, noticed]
  split
  · refine Prod.ext ?_ ?_
    · simp only [Machine.hushed, List.map_map, Function.comp_def]
    · have ops : ((m.hooks.map (·.notice record)).map fun n => (n.1.map Op.hushed, n.2.hushed)).flatMap (·.1) =
          ((m.hooks.map (·.notice record)).flatMap (·.1)).map Op.hushed := by
        simp only [List.flatMap_map, List.map_flatMap]
      simp only [ops, hushed_nested_all, List.map_append]
      rfl
  · rfl

def Commutes (m : Machine) (t : ThreadId) (job : Job) : Prop :=
  job.hushed.exec m.hushed t = ((job.exec m t).1.hushed, (job.exec m t).2.map Job.hushed)

theorem commutes_registry (m : Machine) (t : ThreadId) (job : RegistryJob) : Commutes m t (.registry job) := by
  unfold Commutes
  have hub : m.hushed.hub.registry = m.hub.registry := rfl
  cases job with
  | reserve deviceType adapter errand =>
      simp only [Job.hushed, Job.exec, RegistryJob.exec]
      split <;> rfl
  | enrol => rfl
  | withdraw id errand =>
      have after : ∀ w, RegistryJob.afterWithdrawal m.hushed id errand w =
          (RegistryJob.afterWithdrawal m id errand w).map Job.hushed := fun w => by
        cases errand <;> cases w <;> simp only [RegistryJob.afterWithdrawal, Option.map_some, Option.map_none, hushed_cast,
          hushed_adapterName,
          Plan.stopWithdrawn, List.map_append]
        all_goals (repeat' split)
        all_goals rfl
      simp only [Job.hushed, Job.exec, RegistryJob.exec, hub]
      cases m.hub.registry.unregister id with
      | mk found registry =>
          cases found with
          | none => simp only [after, List.map_cons]; rfl
          | some w => simp only [after, List.map_append]; rfl
  | replace id devices errand =>
      have after : ∀ found, (RegistryJob.afterReplacement errand found).map Job.hushed
          = RegistryJob.afterReplacement errand found := fun found => by
        cases errand <;> cases found <;> rfl
      simp only [Job.hushed, Job.exec, RegistryJob.exec, hub]
      cases m.hub.registry.find? id <;> simp only [List.map_append, after] <;> rfl
  | store => rfl

theorem hushed_spawn (m : Machine) (name : String) {agenda : List Job} (even : hush agenda = agenda) :
    m.hushed.spawn name agenda = ((m.spawn name agenda).1, (m.spawn name agenda).2.hushed) := by
  simp [-map_threads, Machine.spawn, Machine.hushed, Thread.hushed, even]

theorem hushed_answered (m : Machine) (name : String) : m.hushed.answered name = (m.answered name).hushed := rfl

theorem commutes_deviceLane (m : Machine) (t : ThreadId) (job : DeviceLaneJob) : Commutes m t (.deviceLane job) := by
  unfold Commutes
  have lane : m.hushed.hub.deviceLane = m.hub.deviceLane := rfl
  have ending : m.hushed.hub.terminating = m.hub.terminating := rfl
  have config : m.hushed.hub.config = m.hub.config := rfl
  have system : m.hushed.system = m.system := rfl
  cases job with
  | enqueue callback =>
      simp only [Job.hushed, Job.exec, DeviceLaneJob.exec, ending]
      split <;> rfl
  | start =>
      simp only [Job.hushed, Job.exec, DeviceLaneJob.exec, lane]
      split <;> rfl
  | spawn =>
      simp only [Job.hushed, Job.exec, DeviceLaneJob.exec, config, system]
      cases m.system.answer m.hub.config.deviceThread with
      | started =>
          have even : hush Plan.deviceWorker = Plan.deviceWorker := rfl
          simp only [hushed_answered, hushed_spawn _ _ even]
          rfl
      | refused | crashed => rfl
  | join =>
      simp only [Job.hushed, Job.exec, DeviceLaneJob.exec, lane]
      cases m.hub.deviceLane.worker <;> rfl
  | look =>
      simp only [Job.hushed, Job.exec, DeviceLaneJob.exec, DeviceLaneJob.lookAtQueue, lane, ending]
      rcases DeviceLane.look_cases m.hub.terminating m.hub.deviceLane with ⟨_, seen⟩ | ⟨_, _, seen⟩ | ⟨_, _, seen⟩ <;> rw [seen]
      · simp only [List.map_append]
        split <;> rfl
      · rfl
      · simp only [List.map_append, List.map_cons, List.map_map]
        rfl
  | _ => rfl

theorem commutes_dataLane (exited : m.hushed.exited = m.exited) (t : ThreadId) (job : DataLaneJob) :
    Commutes m t (.dataLane job) := by
  unfold Commutes
  have lanes : m.hushed.hub.dataLanes = m.hub.dataLanes := rfl
  have ending : m.hushed.hub.terminating = m.hub.terminating := rfl
  have config : m.hushed.hub.config = m.hub.config := rfl
  have system : m.hushed.system = m.system := rfl
  cases job with
  | start c =>
      simp only [Job.hushed, Job.exec, DataLaneJob.exec, lanes]
      split
      · rfl
      · split <;> rfl
  | reap =>
      simp only [Job.hushed, Job.exec, DataLaneJob.exec, lanes, exited, List.map_map]
      rfl
  | spawn c =>
      simp only [Job.hushed, Job.exec, DataLaneJob.exec, config, system]
      cases m.system.answer (m.hub.config.dataThread c) with
      | started =>
          simp only [lanes, hushed_answered]
          rw [hushed_spawn _ _ rfl]
          rfl
      | refused | crashed => rfl
  | publish c slot =>
      simp only [Job.hushed, Job.exec, DataLaneJob.exec, lanes]
      split
      · rfl
      · split <;> rfl
  | stop c =>
      simp only [Job.hushed, Job.exec, DataLaneJob.exec, lanes]
      split <;> rfl
  | find c callback =>
      simp only [Job.hushed, Job.exec, DataLaneJob.exec, lanes]
      split <;> rfl
  | push lane c callback =>
      simp only [Job.hushed, Job.exec, DataLaneJob.exec, lanes]
      split <;> rfl
  | close join =>
      cases join <;> simp only [Job.hushed, Job.exec, DataLaneJob.exec, lanes, if_true, List.map_append, List.map_map] <;> rfl
  | look id =>
      simp only [Job.hushed, Job.exec, DataLaneJob.exec, lanes]
      cases m.hub.dataLanes.lane? id with
      | none => rfl
      | some lane =>
          simp only [DataLaneJob.lookAtLane, ending, lanes]
          rcases DataLane.look_cases m.hub.terminating lane with ⟨_, _, seen⟩ | ⟨_, _, seen⟩ | ⟨_, _, _, seen⟩ |
            ⟨_, _, seen⟩ <;> rw [seen]
          · simp only [List.map_append]
            split <;> rfl
          all_goals rfl
  | snapshot c batch =>
      simp only [Job.hushed, Job.exec, DataLaneJob.exec, lanes, List.map_cons, List.map_map]
      rfl
  | handOver c callback listeners =>
      simp only [Job.hushed, Job.exec, DataLaneJob.exec, DataLaneJob.deliverOne, List.map_append]
      split <;> rfl
  | _ => rfl

theorem hushed_endHolds (m : Machine) : m.hushed.endHolds = m.endHolds.hushed := by
  simp [-map_threads, Machine.endHolds, Machine.hushed, Thread.hushed]

theorem commutes_hub (m : Machine) (t : ThreadId) (job : HubJob) : Commutes m t (.hub job) := by
  unfold Commutes
  have registry : m.hushed.hub.registry = m.hub.registry := rfl
  have ending : m.hushed.hub.terminating = m.hub.terminating := rfl
  have running : m.hushed.hub.running = m.hub.running := rfl
  have config : m.hushed.hub.config = m.hub.config := rfl
  have connections : m.hushed.hub.connections = m.hub.connections := rfl
  cases job with
  | add adapter =>
      simp only [Job.hushed, Job.exec, HubJob.exec, ending, hushed_cast, hushed_deviceType]
      split <;> rfl
  | claimNew id adapter =>
      simp only [Job.hushed, Job.exec, HubJob.exec, running, registry, List.map_append]
      split
      · cases (m.hub.registry.beginStart id).1 <;> rfl
      · rfl
  | ran id adapter =>
      simp only [Job.hushed, Job.exec, HubJob.exec, hushed_reply]
      cases (m.reply t).error? <;> rfl
  | finishStart id adapter =>
      simp only [Job.hushed, Job.exec, HubJob.exec, registry]
      split <;> rfl
  | publishList =>
      simp only [Job.hushed, Job.exec, HubJob.exec, ending]
      split <;> rfl
  | run =>
      simp only [Job.hushed, Job.exec, HubJob.exec, ending, running]
      split
      · rfl
      · split <;> rfl
  | laneStarted =>
      simp only [Job.hushed, Job.exec, HubJob.exec, hushed_reply]
      split <;> rfl
  | claimAll =>
      simp only [Job.hushed, Job.exec, HubJob.exec, registry, List.map_append, List.map_flatMap]
      rfl
  | scan =>
      simp only [Job.hushed, Job.exec, HubJob.exec, registry, List.map_append, List.map_cons, List.map_map]
      rfl
  | request r handle =>
      simp only [Job.hushed, Job.exec, HubJob.exec, registry]
      split
      · rfl
      · simp only [List.map_append, List.map_flatMap]
        rfl
  | send c data =>
      simp only [Job.hushed, Job.exec, HubJob.exec, ending]
      split <;> rfl
  | findDevice c data =>
      simp only [Job.hushed, Job.exec, HubJob.exec, connections]
      split <;> rfl
  | findOwners c data device =>
      simp only [Job.hushed, Job.exec, HubJob.exec, registry]
      split <;> rfl
  | forward c data device first others =>
      have owner : HubJob.preferred m.hushed.cast device.deviceType first others
          = HubJob.preferred m.cast device.deviceType first others := by
        simp only [HubJob.preferred, hushed_cast, hushed_deviceType]
      simp only [Job.hushed, Job.exec, HubJob.exec, owner]
      rfl
  | sent sequence =>
      simp only [Job.hushed, Job.exec, HubJob.exec, hushed_reply]
      rfl
  | connect device c =>
      simp only [Job.hushed, Job.exec, HubJob.exec, ending]
      split <;> rfl
  | connectionStarted device c =>
      simp only [Job.hushed, Job.exec, HubJob.exec, hushed_reply]
      split <;> rfl
  | disconnected device c =>
      simp only [Job.hushed, Job.exec, HubJob.exec, ending]
      split <;> rfl
  | raiseTermination =>
      simp only [Job.hushed, Job.exec, HubJob.exec, ending]
      split
      · rfl
      · refine Prod.ext ?_ rfl
        have raised : m.hushed.setHub { m.hushed.hub with terminating := true } =
          (m.setHub { m.hub with terminating := true }).hushed := rfl
        simp only [raised, hushed_endHolds]
        show (if m.hub.config.joinWorkers = true then _ else _) = (if m.hub.config.joinWorkers = true then _ else _ : Machine).hushed
        split <;> rfl
  | stopAdapters =>
      simp only [Job.hushed, Job.exec, HubJob.exec, HubJob.shutDownAll, registry, config, List.map_append, List.map_flatMap]
      split <;> rfl
  | _ => rfl

theorem hushed_minimal (a : Adapter) : a.hushed.spec.minimal = a.spec.minimal := rfl

theorem hushed_meet (a : Adapter) (event : Event) :
    a.hushed.meet event = ((a.meet event).1.map Op.hushed, (a.meet event).2.hushed) := by
  simp only [Adapter.meet, Adapter.hushed, AdapterSpec.hushed, hushed_opsFor]

theorem hushed_conclude (key : AdapterKey) (a : Adapter) (call : AdapterCall) :
    (ParticipantJob.conclude key a.spec call).map Job.hushed = ParticipantJob.conclude key a.hushed.spec call := by
  have answer : a.hushed.spec.answer = a.spec.answer := rfl
  have startError : a.hushed.spec.startError = a.spec.startError := rfl
  cases call <;> simp only [ParticipantJob.conclude, answer, startError] <;> (try split) <;> rfl

theorem commutes_call (m : Machine) (t : ThreadId) (id : AdapterId) (key : AdapterKey) (call : AdapterCall) :
    Commutes m t (.participant (.call id key call)) := by
  unfold Commutes
  have noted : m.hushed.note t (.asked key id call) = (m.note t (.asked key id call)).hushed := by
    simp [Machine.note, Machine.hushed, Entry.hushed]
  have cast : (m.note t (.asked key id call)).hushed.cast = m.cast.hushed := rfl
  have cast' : (m.note t (.asked key id call)).cast = m.cast := rfl
  simp only [Job.hushed, Job.exec, ParticipantJob.exec, noted, cast, cast', hushed_adapter]
  cases m.cast.adapter? key with
  | none => rfl
  | some a =>
      have keeps : ParticipantJob.keepContext a.hushed id call = (ParticipantJob.keepContext a id call).hushed := by
        cases call <;> rfl
      simp only [Option.map_some, ParticipantJob.callAdapter, hushed_minimal]
      cases (ParticipantJob.minimalAnswer? call).filter fun _ => a.spec.minimal with
      | some reply => rfl
      | none =>
          simp only [keeps, hushed_meet, hushed_nested_all, cast, cast', List.map_append, hushed_conclude, ← hushed_setAdapter]
          rfl

theorem hushed_report (m : Machine) (id : AdapterId) (report : Report) :
    ParticipantJob.reportThrough m.hushed id report = (ParticipantJob.reportThrough m id report).map Job.hushed := by
  simp only [ParticipantJob.reportThrough, hushed_attached]
  split
  · cases report <;> rfl
  · rfl

theorem commutes_participant (m : Machine) (t : ThreadId) (job : ParticipantJob) (fair : (Job.participant job).fair)
    (deaf : (Job.participant job).hears = false) : Commutes m t (.participant job) := by
  cases job with
  | call id key call => exact commutes_call m t id key call
  | complete key c sequence status =>
      simp only [Commutes, Job.hushed, Job.exec, ParticipantJob.exec, hushed_cast, hushed_adapter]
      cases m.cast.adapter? key with
      | none => rfl
      | some a =>
          have context : a.hushed.context = a.context := rfl
          simp only [Option.map_some, Option.bind_some, context]
          cases a.context with
          | none => rfl
          | some id => simp only [hushed_report]
  | mention occasion id key =>
      simp only [Commutes, Job.hushed, Job.exec, ParticipantJob.exec, hushed_cast, hushed_deviceType]
      rfl
  | hear => cases deaf
  | deliver d =>
      simp only [Commutes, Job.hushed, Job.exec, ParticipantJob.exec]
      split
      · have bound : d.panics ≤ d.listeners.length := Nat.le_trans fair.1 fair.2
        refine Prod.ext ?_ rfl
        have counted : (m.hub.metrics.countDelivery d.listeners.length d.panics).hushed
            = m.hub.metrics.hushed.countDelivery d.listeners.length 0 := by
          simp only [Metrics.countDelivery, Metrics.hushed, Metrics.mk.injEq, true_and, and_true]
          omega
        exact congrArg m.hushed.setMetrics counted.symm
      · rfl
  | _ => rfl

theorem hushed_spawnReporters (m : Machine) (device : DeviceInfo) (c : ConnectionHandle) (threads : Nat) :
    m.hushed.spawnReporters device c threads =
      ((m.spawnReporters device c threads).1, (m.spawnReporters device c threads).2.hushed) := by
  induction threads generalizing m with
  | zero => rfl
  | succ threads ih =>
      simp only [Machine.spawnReporters]
      rw [hushed_spawn m _ rfl, ih]

theorem hushed_resolveDevice (c : Cast) (ref : Ref (ListenerSpec Op)) :
    c.hushed.resolveDeviceListener (hushedListener ref) =
      ((c.resolveDeviceListener ref).1, (c.resolveDeviceListener ref).2.hushed) := by
  have names : c.hushed.deviceListenerNames = c.deviceListenerNames := rfl
  simp only [Cast.resolveDeviceListener, names, hushed_resolveListener]
  rfl

theorem hushed_resolveData (c : Cast) (ref : Ref (ListenerSpec Op)) :
    c.hushed.resolveDataListener (hushedListener ref) = ((c.resolveDataListener ref).1, (c.resolveDataListener ref).2.hushed) := by
  have names : c.hushed.dataListenerNames = c.dataListenerNames := rfl
  simp only [Cast.resolveDataListener, names, hushed_resolveListener]
  rfl

theorem hushed_releaseHeld (m : Machine) (name? : Option String) :
    m.hushed.releaseHeld name? = ((m.releaseHeld name?).1, (m.releaseHeld name?).2.hushed) := by
  have held : ∀ thread : Thread, Machine.held name? thread.hushed = Machine.held name? thread := fun _ => rfl
  refine Prod.ext ?_ ?_
  · simp only [Machine.releaseHeld, Machine.hushed, List.filter_map, List.map_map, Function.comp_def, held]
    rfl
  · simp only [Machine.releaseHeld, Machine.hushed, List.map_map, Machine.mk.injEq, true_and, and_true]
    refine List.map_congr_left fun thread _ => ?_
    simp only [Function.comp_def, held]
    split <;> rfl

theorem commutes_registryOp (m : Machine) (op : RegistryOp) :
    op.exec m.hushed = ((op.exec m).1.hushed, (op.exec m).2.map Job.hushed) := by
  have registry : m.hushed.hub.registry = m.hub.registry := rfl
  have named : ∀ adapters, RegistryOp.exec.named m.hushed adapters = RegistryOp.exec.named m adapters := fun adapters => by
    simp only [RegistryOp.exec.named, hushed_cast, hushed_adapterName]
  have name : m.hushed.cast.adapterName = m.cast.adapterName := funext fun key => hushed_adapterName m.cast key
  cases op <;> simp only [RegistryOp.exec, registry, named, name] <;> rfl

theorem commutes_query (m : Machine) (id : AdapterId) (query : ContextQuery) :
    query.exec m.hushed id = ((query.exec m id).1.hushed, (query.exec m id).2.map Job.hushed) := by
  cases query <;> simp only [ContextQuery.exec, hushed_attached] <;> rfl

theorem commutes_owned (m : Machine) (op : Op) :
    m.hushed.performOwned op.hushed = ((m.performOwned op).1.hushed, (m.performOwned op).2.map Job.hushed) := by
  have lane : m.hushed.hub.deviceLane = m.hub.deviceLane := rfl
  have lanes : m.hushed.hub.dataLanes = m.hub.dataLanes := rfl
  cases op with
  | addAdapter ref =>
      simp only [Op.hushed, Machine.performOwned, hushed_cast, hushed_resolveAdapter]
      rfl
  | register ref =>
      simp only [Op.hushed, Machine.performOwned, hushed_cast, hushed_resolveAdapter, hushed_deviceType]
      rfl
  | addDeviceListener ref | removeDeviceListener ref =>
      simp only [Op.hushed, Machine.performOwned, hushed_cast, hushed_resolveDevice, lane]
      rfl
  | addDataListener ref | removeDataListener ref =>
      simp only [Op.hushed, Machine.performOwned, hushed_cast, hushed_resolveData, lanes]
      rfl
  | connectAtOnce threads device c =>
      simp only [Op.hushed, Machine.performOwned, hushed_spawnReporters]
      rfl
  | report source report => cases report <;> rfl
  | registry op => exact commutes_registryOp m op
  | deviceLane op =>
      cases op with
      | shutdown =>
          refine Prod.ext ?_ rfl
          exact hushed_endHolds (m.setHub { m.hub with terminating := true })
      | _ => rfl
  | dataLanes op =>
      cases op with
      | shutdown join =>
          refine Prod.ext ?_ rfl
          have raised := hushed_endHolds (m.setHub { m.hub with terminating := true })
          cases join with
          | true => exact raised
          | false => rfl
      | _ => rfl
  | _ => rfl

theorem commutes_perform (m : Machine) (t : ThreadId) (op : Op) : Commutes m t (.perform op) := by
  unfold Commutes
  have owned : m.hushed.hub.owned = m.hub.owned := rfl
  have named : ∀ name, m.hushed.cast.namedAdapter? name = (m.cast.namedAdapter? name).map fun p => (p.1, p.2.hushed) := fun name => by
    have names : m.hushed.cast.adapterNames = m.cast.adapterNames := rfl
    simp only [Cast.namedAdapter?, names]
    cases m.cast.adapterNames.lookup name with
    | none => rfl
    | some key =>
        simp only [Option.bind_eq_bind, Option.bind_some, hushed_cast, hushed_adapter]
        cases m.cast.adapter? key <;> rfl
  have context : ∀ name, (m.hushed.cast.namedAdapter? name).bind (·.2.context) = (m.cast.namedAdapter? name).bind
      (·.2.context) := fun name => by
    rw [named]
    cases m.cast.namedAdapter? name <;> rfl
  have plain : ∀ op : Op, (if m.hushed.hub.owned then m.hushed.performOwned op.hushed else (m.hushed, [.answer .noHub])) =
      ((if m.hub.owned then m.performOwned op else (m, [.answer .noHub])).1.hushed,
        (if m.hub.owned then m.performOwned op else (m, [.answer .noHub])).2.map Job.hushed) := fun op => by
    rw [owned]
    split
    · exact commutes_owned m op
    · rfl
  cases op with
  | contextReport name report =>
      simp only [Job.hushed, Op.hushed, Job.exec, Machine.perform, context]
      cases (m.cast.namedAdapter? name).bind (·.2.context) with
      | none => rfl
      | some id => simp only [hushed_report, List.map_append]; rfl
  | context name query =>
      simp only [Job.hushed, Op.hushed, Job.exec, Machine.perform, context]
      cases (m.cast.namedAdapter? name).bind (·.2.context) with
      | none => rfl
      | some id => exact commutes_query m id query
  | setType name deviceType =>
      simp only [Job.hushed, Op.hushed, Job.exec, Machine.perform, named]
      cases m.cast.namedAdapter? name with
      | none => rfl
      | some p =>
          refine Prod.ext ?_ rfl
          exact congrArg (fun cast => { m.hushed with cast }) (hushed_setAdapter m.cast p.1 { p.2 with deviceType }).symm
  | release thread =>
      simp only [Job.hushed, Op.hushed, Job.exec, Machine.perform, hushed_releaseHeld]
      rfl
  | _ => exact plain _

theorem commutes_exec (exited : m.hushed.exited = m.exited) (t : ThreadId) (fair : job.fair) (deaf : job.hears = false)
    (calm : job.laments = false) : Commutes m t job := by
  cases job with
  | log record => exact hushed_log m t calm
  | answer reply =>
      refine Prod.ext (Eq.symm ?_) rfl
      exact hushed_changeThread m t fun _ => rfl
  | hold =>
      have holding : m.hushed.holding = m.holding := rfl
      simp only [Commutes, Job.hushed, Job.exec, holding]
      split
      · refine Prod.ext (Eq.symm ?_) rfl
        exact hushed_changeThread m t fun _ => rfl
      · rfl
  | perform op => exact commutes_perform m t op
  | leave op =>
      simp only [Commutes, Job.hushed, Job.exec, hushed_reply]
      refine Prod.ext ?_ rfl
      simp [Machine.note, Machine.hushed, Entry.hushed]
  | join lane worker =>
      simp only [Commutes, Job.hushed, Job.exec, hushed_panicked]
      split
      · rfl
      · split <;> rfl
  | await threads =>
      have panicked : m.hushed.panicked = m.panicked := funext fun u => hushed_panicked m u
      simp only [Commutes, Job.hushed, Job.exec, panicked]
      split <;> rfl
  | registry job => exact commutes_registry m t job
  | deviceLane job => exact commutes_deviceLane m t job
  | dataLane job => exact commutes_dataLane exited t job
  | participant job => exact commutes_participant m t job fair deaf
  | hub job => exact commutes_hub m t job
  | _ => rfl

theorem hushed_enabled (exited : m.hushed.exited = m.exited) (t : ThreadId) (job : Job) :
    job.hushed.enabled m.hushed t = job.enabled m t := by
  have free : m.hushed.free = m.free := rfl
  have needs : job.hushed.needs = job.needs := by
    cases job with
    | perform op => cases op <;> rfl
    | participant job => cases job <;> rfl
    | _ => rfl
  unfold Job.enabled
  rw [needs, free]
  congr 1
  cases job with
  | held =>
      simp only [Job.hushed, Machine.thread?, Machine.hushed, List.getElem?_map]
      cases m.threads[t.val]? <;> rfl
  | join lane worker => simp only [Job.hushed, exited]
  | await threads => simp only [Job.hushed, exited]
  | participant job => cases job <;> rfl
  | deviceLane job => cases job <;> rfl
  | dataLane job => cases job <;> rfl
  | _ => rfl

end TransportHub
