import TransportHub.Proofs.Silence
import TransportHub.Proofs.Sink
/-!
The finality of a shutdown. When it is over and nobody is inside a call, everything that is done to the hub
afterwards leaves it as it is, apart from the listeners, the handles it gives out, and the reports that it
counts as orphaned.
-/

set_option autoImplicit false

namespace TransportHub

variable {config : Config} {hooks : List Hook} {past earlier rest since back : List Moment} {m : Machine} {t u : ThreadId}
  {job : Job} {later stage : List Job} {x y : Moment} {reply : Reply} {callback : DataCallback}

theorem runs_none (m : Machine) (t : ThreadId) (job : Job) (managed : ∀ op, job = .perform op → op.managed = true)
    (ending : m.hub.terminating = true) (idle : runGate.guards job = 0) : weight runGate.guards (job.exec m t).2 = 0 := by
  by_cases runs : job = .hub .run
  · subst runs
    simp only [Job.exec, HubJob.exec, ending, if_true]
    rfl
  · refine weight_next_apart (S := fun job => job = .hub .run) (fun {job j} leads here => ?_) m t job runs
    cases j with
    | hub j =>
        cases j with
        | laneStarted => exact laneStarted_origin leads
        | _ => exact absurd rfl here
    | _ => exact absurd rfl here

theorem running_exec (m : Machine) (t : ThreadId) (job : Job) (managed : ∀ op, job = .perform op → op.managed = true)
    (apart : job ≠ .hub .laneStarted) (idle : m.hub.running = false) : (job.exec m t).1.hub.running = false := by
  cases registers : job.registers with
  | false => rw [(steady_exec m t job managed).running registers, idle]
  | true =>
      cases job with
      | registry job =>
          cases job with
          | withdraw | replace =>
              simp only [Job.exec, RegistryJob.exec]
              split <;> exact idle
          | _ => exact idle
      | hub job =>
          cases job with
          | laneStarted => exact absurd rfl apart
          | halt => rfl
          | claimNew | claimAll | finishStart => exact idle
          | _ => cases registers
      | _ => cases registers

theorem Run.halted_still (run : Run config hooks past m) (managed : ∀ x ∈ past, x.managed) (halted : Halted past) :
    m.hub.running = false := by
  refine Run.induct_all (G := Moment.managed) (P := fun past m => Halted past → m.hub.running = false)
    ?construct ?assemble ?call ?client ?carry ?unwind run managed halted
  case construct | assemble => exact fun _ => rfl
  case call => exact fun _ _ before _ => before
  case client => exact fun _ _ _ before => before
  case carry =>
    intro past m t job later run before agenda _ _ old now halted
    rcases seen_snoc.mp halted with halted | rfl
    · refine running_exec m t job now (fun starts => ?_) (before halted)
      have none := run.sealed_gate runGate_sound rfl runs_none old (run.halted_sealed old halted) t
      rw [agenda, starts, weight_cons] at none
      have one : runGate.guards (.hub .laneStarted) = 1 := rfl
      omega
    · rfl
  case unwind =>
    intro past m t later _ before _ _ _ halted
    have idle := before ((seen_snoc.mp halted).resolve_right fun none => by cases none)
    rcases hub_unwind m t later with hub | hub <;> rw [hub] <;> exact idle

-- A hub that is at its end.
structure Hub.Shut (h : Hub) : Prop where
  ending : h.terminating = true
  halted : h.running = false
  entries : h.registry.entries = []
  connections : h.connections = {}
  closed : h.dataLanes.closed = true
  slots : h.dataLanes.slots = {}

namespace Hub.Shut

variable {h : Hub}

theorem idle (shut : h.Shut) : h.isRunning = false := by rw [Hub.isRunning, shut.halted, Bool.false_and]

theorem unlisted (shut : h.Shut) : h.registry.aggregate = [] := by rw [Registry.aggregate, shut.entries, List.flatMap_nil]

theorem unknown (shut : h.Shut) (id : AdapterId) : h.registry.find? id = none := by rw [Registry.find?, shut.entries, List.find?_nil]

theorem adapters (shut : h.Shut) : h.registry.adapters = [] := by rw [Registry.adapters, shut.entries, List.map_nil]

theorem unowned (shut : h.Shut) (handle : DeviceHandle) : h.registry.owners handle = [] := by
  rw [Registry.owners, shut.entries, List.filter_nil, List.map_nil]

theorem unlinked (shut : h.Shut) (c : ConnectionHandle) : h.connections.erase c = {} := by
  refine Table.ext_get? fun k => ?_
  rw [shut.connections, Table.get?_erase, Table.get?_empty, ite_self]

theorem laneless (shut : h.Shut) (c : ConnectionHandle) : h.dataLanes.slots.get? c = none := by rw [shut.slots, Table.get?_empty]

end Hub.Shut

def Machine.deserted (m : Machine) : Prop := ∀ u, m.agenda u = [] ∨ ∃ op, m.agenda u = [.perform op]

-- The shutdown has come to its end, nobody is inside a call any more, and no worker is left.
def Ceased (past : List Moment) (m : Machine) : Prop := Halted past ∧ m.deserted

theorem Machine.deserted.only (deserted : m.deserted) (member : job ∈ m.agenda u) : ∃ op, job = .perform op := by
  rcases deserted u with idle | ⟨op, begins⟩
  · rw [idle] at member
    cases member
  · rw [begins, List.mem_singleton] at member
    exact ⟨op, member⟩

theorem Run.ceased_shut (run : Run config hooks past m) (managed : ∀ x ∈ past, x.managed) (hooked : ∀ x ∈ past, x.hookSafe)
    (ceased : Ceased past m) : m.hub.Shut where
  ending := (run.device_awake managed ceased.1).1
  halted := run.halted_still managed ceased.1
  entries := List.map_eq_nil_iff.mp (run.emptied managed ceased.1)
  connections := run.forgotten managed hooked ceased.1 fun u job member => by
    obtain ⟨op, rfl⟩ := ceased.2.only member
    rfl
  closed := run.halted_closed managed ceased.1
  slots := run.closed_slots (run.halted_closed managed ceased.1)

theorem Run.ceased (run : Run config hooks past m) (managed : ∀ x ∈ past, x.managed)
    (safe : ∀ x ∈ past, x.hookSafe ∧ x.adapterSafe) (ending : m.hub.terminating = true) (deserted : m.deserted) : Ceased past m := by
  have one := (shutdown_outcome run managed).one ending
  have none : m.load (Job.ends halts) = 0 := load_zero fun u job member => by
    obtain ⟨op, rfl⟩ := deserted.only member
    rfl
  have kept : total (lost (Job.ends halts)) past = 0 := total_lost_zero fun x seen job dropped => by
    have loose := run.procedures_kept seen (safe x seen).1 (safe x seen).2 job dropped
    cases job with
    | hub job => cases job <;> first | rfl | cases loose
    | _ => rfl
  refine ⟨Classical.byContradiction fun absent => ?_, deserted⟩
  have zero : total (fun x => if halts x.job then 1 else 0) past = 0 := total_zero fun x seen => if_neg fun here =>
    absent ⟨x, seen, halts_job here⟩
  omega

def Hub.Unmoved (h h' : Hub) : Prop :=
  h' = { h with
    owned := h'.owned
    attached := h'.attached
    handles := h'.handles
    metrics := { h.metrics with orphaned := h'.metrics.orphaned }
    deviceLane := { h.deviceLane with listeners := h'.deviceLane.listeners }
    dataLanes := { h.dataLanes with listeners := h'.dataLanes.listeners } }

namespace Hub.Unmoved

variable {h h' h'' : Hub}

theorem refl (h : Hub) : h.Unmoved h := rfl

theorem trans (first : h.Unmoved h') (second : h'.Unmoved h'') : h.Unmoved h'' := by
  unfold Hub.Unmoved at *
  rw [second, first]

theorem shut (unmoved : h.Unmoved h') (shut : h.Shut) : h'.Shut := by
  rw [unmoved]
  exact ⟨shut.ending, shut.halted, shut.entries, shut.connections, shut.closed, shut.slots⟩

end Hub.Unmoved

def Job.futile : Job → Bool
  | .log _ | .acquire _ | .release _ | .answer _ | .panic | .hold | .held | .enter | .perform _ | .leave _ | .resume | .await _ =>
      true
  | .registry job => (job matches .withdraw _ .hub | .replace _ _ .hub)
  | .dataLane job => (job matches .stop _ | .find .. | .orphan)
  | .participant job => (job matches .reported)
  | .hub job => (job matches .add _ | .run | .scan | .request .. | .send .. | .connect .. | .forgetConnection _ | .disconnected ..
      | .raiseTermination | .detach)
  | _ => false

theorem futile_nested (op : Op) : Every Job.futile (Job.nested op) := by
  unfold Job.nested
  split
  · exact every_one rfl
  · exact every_one rfl
  · simp only [every_cons, every_nil, and_true]
    exact ⟨rfl, rfl, rfl⟩

theorem futile_report (id : AdapterId) (report : Report) : Every Job.futile (Plan.report id report) := by
  cases report <;> simp [Plan.report, Plan.replace, Plan.stopLane, Plan.enqueueData] <;> and_intros <;> rfl

theorem futile_perform (m : Machine) (op : Op) (managed : op.managed = true) : Every Job.futile (m.perform op).2 := by
  cases op with
  | register | registry | deviceLane | dataLanes | terminate => cases managed
  | report source report =>
      simp only [Machine.perform, Machine.performOwned]
      split
      · exact (every_append ..).mpr ⟨futile_report source report, every_one rfl⟩
      · exact every_one rfl
  | contextReport name report =>
      simp only [Machine.perform, ParticipantJob.reportThrough]
      repeat' split
      · simp only [every_append, every_cons, every_nil, and_true]
        exact ⟨⟨futile_report _ report, rfl⟩, rfl⟩
      · exact (every_append ..).mpr ⟨every_one rfl, every_one rfl⟩
      · exact every_one rfl
  | context name query =>
      simp only [Machine.perform]
      split
      · cases query <;> exact every_one rfl
      · exact every_one rfl
  | setType | release =>
      simp only [Machine.perform]
      repeat' split
      all_goals exact every_one rfl
  | _ =>
      simp only [Machine.perform, Machine.performOwned, ContextQuery.exec]
      split <;> simp [Plan.addAdapter, Plan.removeAdapter, Plan.run, Plan.withdraw] <;> and_intros <;> rfl

theorem futile_exec (shut : m.hub.Shut) (futile : job.futile = true) (managed : ∀ op, job = .perform op → op.managed = true) :
    Every Job.futile (job.exec m t).2 := by
  cases job with
  | log record =>
      simp only [Job.exec, Machine.log]
      split
      · simp only [every_append, every_flatMap]
        exact ⟨fun op _ => futile_nested op, every_one rfl⟩
      · exact every_nil _
  | hold | await =>
      simp only [Job.exec]
      split <;> first | exact every_nil _ | exact every_one rfl
  | perform op => exact futile_perform m op (managed op rfl)
  | registry job =>
      cases job with
      | withdraw id errand =>
          cases errand <;> first | cases futile; done | skip
          simp only [Job.exec, RegistryJob.exec, Registry.unregister, shut.unknown, Option.map_none, RegistryJob.afterWithdrawal]
          simp only [every_cons, every_nil, and_true]
          exact ⟨rfl, rfl, rfl⟩
      | replace id devices errand =>
          cases errand <;> first | cases futile; done | skip
          simp only [Job.exec, RegistryJob.exec, shut.unknown, RegistryJob.afterReplacement, every_append, every_cons,
            every_nil, and_true]
          exact ⟨⟨rfl, rfl⟩, rfl⟩
      | _ => cases futile
  | dataLane job =>
      cases job with
      | stop c =>
          simp only [Job.exec, DataLaneJob.exec, DataLanes.withdraw, shut.laneless, every_cons, every_nil, and_true]
          exact ⟨rfl, rfl, rfl⟩
      | find c callback =>
          simp only [Job.exec, DataLaneJob.exec, shut.laneless, DataLaneJob.refuse, every_cons, every_nil, and_true]
          exact ⟨rfl, rfl, rfl⟩
      | orphan => exact every_nil _
      | _ => cases futile
  | participant job =>
      cases job with
      | reported => exact every_nil _
      | _ => cases futile
  | hub job =>
      cases job with
      | add | run | send | connect =>
          simp only [Job.exec, HubJob.exec, shut.ending, if_true, HubJob.refuseSend, every_cons, every_nil, and_true]
          and_intros <;> rfl
      | disconnected | raiseTermination =>
          simp only [Job.exec, HubJob.exec, shut.ending, if_true]
          exact every_nil _
      | scan =>
          simp only [Job.exec, HubJob.exec, shut.adapters, List.map_nil, every_append, every_cons, every_nil, and_true]
          exact ⟨rfl, rfl⟩
      | request =>
          simp only [Job.exec, HubJob.exec, shut.unowned, every_cons, every_nil, and_true]
          exact ⟨rfl, rfl⟩
      | forgetConnection | detach => exact every_nil _
      | _ => cases futile
  | acquire | release | answer | panic | held | enter | leave | resume => exact every_nil _
  | _ => cases futile

def Job.gives : Job → Bool
  | .perform op => (op matches .drop)
  | .hub job => (job matches .detach)
  | _ => false

structure Hub.Kept (job : Job) (h h' : Hub) : Prop where
  unmoved : h.Unmoved h'
  held : job.gives = false → h'.owned = h.owned ∧ h'.attached = h.attached

theorem Hub.kept_rfl {h : Hub} : h.Kept job h := ⟨.refl h, fun _ => ⟨rfl, rfl⟩⟩

theorem kept_perform (m : Machine) (op : Op) (managed : op.managed = true) : m.hub.Kept (.perform op) (m.perform op).1.hub := by
  cases op with
  | register | registry | deviceLane | dataLanes | terminate => cases managed
  | drop =>
      simp only [Machine.perform, Machine.performOwned]
      split
      · exact ⟨rfl, fun none => by cases none⟩
      · exact Hub.kept_rfl
  | context name query =>
      simp only [Machine.perform]
      split
      · cases query <;> exact ⟨rfl, fun _ => ⟨rfl, rfl⟩⟩
      · exact Hub.kept_rfl
  | connectAtOnce threads device c =>
      simp only [Machine.perform, Machine.performOwned]
      split
      · rw [hub_spawnReporters]
        exact Hub.kept_rfl
      · exact Hub.kept_rfl
  | contextReport | setType | release =>
      simp only [Machine.perform]
      repeat' split
      all_goals exact ⟨rfl, fun _ => ⟨rfl, rfl⟩⟩
  | _ =>
      simp only [Machine.perform, Machine.performOwned, ContextQuery.exec]
      split <;> exact ⟨rfl, fun _ => ⟨rfl, rfl⟩⟩

theorem kept_exec (shut : m.hub.Shut) (futile : job.futile = true) (managed : ∀ op, job = .perform op → op.managed = true) :
    m.hub.Kept job (job.exec m t).1.hub := by
  cases job with
  | log record =>
      rw [Job.exec, hub_log]
      exact Hub.kept_rfl
  | hold =>
      simp only [Job.exec]
      split <;> exact Hub.kept_rfl
  | perform op => exact kept_perform m op (managed op rfl)
  | registry job =>
      cases job with
      | withdraw id errand =>
          simp only [Job.exec, RegistryJob.exec, Registry.unregister, shut.unknown, Option.map_none]
          exact Hub.kept_rfl
      | replace id devices errand =>
          simp only [Job.exec, RegistryJob.exec, shut.unknown]
          exact Hub.kept_rfl
      | _ => cases futile
  | dataLane job =>
      cases job with
      | stop c =>
          simp only [Job.exec, DataLaneJob.exec, DataLanes.withdraw, shut.laneless]
          exact Hub.kept_rfl
      | find => exact Hub.kept_rfl
      | orphan => exact ⟨rfl, fun _ => ⟨rfl, rfl⟩⟩
      | _ => cases futile
  | participant job =>
      cases job with
      | reported => exact Hub.kept_rfl
      | _ => cases futile
  | hub job =>
      cases job with
      | raiseTermination =>
          simp only [Job.exec, HubJob.exec, shut.ending, if_true]
          exact Hub.kept_rfl
      | forgetConnection c =>
          have same : ((Job.hub (.forgetConnection c)).exec m t).1.hub = m.hub := by
            simp only [Job.exec, HubJob.exec, Machine.setHub, shut.unlinked, ← shut.connections]
          rw [same]
          exact Hub.kept_rfl
      | detach => exact ⟨rfl, fun none => by cases none⟩
      | add | run | scan | request | send | connect | disconnected => exact Hub.kept_rfl
      | _ => cases futile
  | acquire | release | answer | panic | held | enter | leave | resume | await => exact Hub.kept_rfl
  | _ => cases futile

-- What a step since then found, and what has become of the hub: only who gives the hub up changes who holds it.
structure Still (x : Moment) (since : List Moment) (m : Machine) : Prop where
  shut : m.hub.Shut
  unmoved : x.machine.hub.Unmoved m.hub
  futile : ∀ u, Every Job.futile (m.agenda u)
  held : (∀ y ∈ since, y.job ≠ .perform .drop) →
    (m.hub.owned = x.machine.hub.owned ∧ m.hub.attached = x.machine.hub.attached) ∧ ∀ u, .hub .detach ∉ m.agenda u

theorem gives_cases (gives : job.gives = true) : job = .perform .drop ∨ job = .hub .detach := by
  cases job with
  | perform op => cases op <;> first | exact .inl rfl | cases gives
  | hub job => cases job <;> first | exact .inr rfl | cases gives
  | _ => cases gives

theorem futile_recruits {agenda : List Job} (futile : job.futile = true) (member : agenda ∈ job.recruits m) :
    ∃ device c, agenda = [.hub (.connect device c)] := by
  cases job with
  | perform op =>
      cases op with
      | connectAtOnce threads device c =>
          simp only [Job.recruits] at member
          split at member
          · exact ⟨device, c, (List.mem_replicate.mp member).2⟩
          · cases member
      | _ => cases member
  | deviceLane | dataLane =>
      rename_i job
      cases job <;> first | cases futile; done | cases member
  | _ => cases member

theorem futile_carried (agenda : m.agenda t = job :: later) (futile : job.futile = true) {j : Job}
    (member : j ∈ (m.carry t job later).agenda u) :
    j ∈ (job.exec m t).2 ∨ j ∈ m.agenda u ∨ ∃ device c, j = .hub (.connect device c) := by
  by_cases mine : u = t
  · subst mine
    rw [agenda_carry_self agenda] at member
    rw [agenda]
    exact (List.mem_append.mp member).imp_right fun behind => .inl (List.mem_cons_of_mem _ behind)
  · rcases agenda_carry_other (m := m) job later mine with old | ⟨_, recruit⟩
    · exact .inr (.inl (old ▸ member))
    · obtain ⟨device, c, same⟩ := futile_recruits futile (List.mem_of_getElem? recruit)
      rw [same, List.mem_singleton] at member
      exact .inr (.inr ⟨device, c, member⟩)

theorem abandons_mem (abandons : Machine.abandons later = true) : .hub .detach ∈ later := by
  fun_induction Machine.abandons later with
  | case1 | case2 => cases abandons
  | case3 => exact List.mem_cons_self ..
  | case4 _ _ _ _ ih => exact List.mem_cons_of_mem _ (ih abandons)

theorem hub_unabandoned (stays : Machine.abandons later = false) : (m.unwind t later).hub = m.hub := by
  simp only [Machine.unwind, stays, Bool.false_eq_true, if_false]
  split <;> rfl

theorem futile_kept (futile : Every Job.futile later) : kept later = [] := by
  rcases unwound later with ⟨d, tail, split, _⟩ | ⟨_, none⟩
  · have here := futile (.participant (.delivered d)) (split ▸ List.mem_append_right _ (List.mem_cons_self ..))
    cases here
  · exact none

namespace Still

theorem start (shut : x.machine.hub.Shut) (deserted : x.machine.deserted) : Still x [] x.machine where
  shut := shut
  unmoved := .refl _
  futile u job member := by
    obtain ⟨op, rfl⟩ := deserted.only member
    rfl
  held _ := ⟨⟨rfl, rfl⟩, fun u member => by
    obtain ⟨op, none⟩ := deserted.only member
    cases none⟩

theorem begins {m' : Machine} (still : Still x since m) (hub : m'.hub = m.hub)
    (agendas : ∀ u, m'.agenda u = m.agenda u ∨ ∃ op, m'.agenda u = [.perform op]) : Still x since m' where
  shut := hub ▸ still.shut
  unmoved := hub ▸ still.unmoved
  futile u := by
    rcases agendas u with same | ⟨op, begins⟩
    · exact same ▸ still.futile u
    · exact begins ▸ every_one rfl
  held none := by
    obtain ⟨same, absent⟩ := still.held none
    refine ⟨hub ▸ same, fun u => ?_⟩
    rcases agendas u with same | ⟨op, begins⟩
    · exact same ▸ absent u
    · rw [begins, List.mem_singleton]
      exact fun none => by cases none

theorem carry (still : Still x since m) (managed : Moment.managed ⟨m, t, job, later⟩) (agenda : m.agenda t = job :: later) :
    Still x (since ++ [⟨m, t, job, later⟩]) (m.carry t job later) := by
  have futile : job.futile = true := still.futile t job (agenda ▸ List.mem_cons_self ..)
  have kept := kept_exec (t := t) still.shut futile managed
  refine ⟨kept.unmoved.shut still.shut, still.unmoved.trans kept.unmoved, fun u j member => ?_, fun none => ?_⟩
  · rcases futile_carried agenda futile member with next | old | ⟨device, c, rfl⟩
    · exact futile_exec still.shut futile managed j next
    · exact still.futile u j old
    · rfl
  · obtain ⟨same, absent⟩ := still.held fun y seen => none y (List.mem_append_left _ seen)
    have apart : job ≠ .perform .drop := none _ (List.mem_append_right _ (List.mem_singleton.mpr rfl))
    have gives : job.gives = false := Bool.eq_false_iff.mpr fun gives => by
      rcases gives_cases gives with drops | detaches
      · exact apart drops
      · exact absent t (agenda ▸ detaches ▸ List.mem_cons_self ..)
    have held := kept.held gives
    refine ⟨⟨held.1.trans same.1, held.2.trans same.2⟩, fun u member => ?_⟩
    rcases futile_carried agenda futile member with next | old | ⟨device, c, none⟩
    · exact apart (detach_origin (leads_exec m t job _ next))
    · exact absent u old
    · cases none

theorem unwind (still : Still x since m) (agenda : m.agenda t = .panic :: later) :
    Still x (since ++ [⟨m, t, .panic, later⟩]) (m.unwind t later) := by
  have futile := still.futile t
  rw [agenda, every_cons] at futile
  have agendas : ∀ u, (m.unwind t later).agenda u = m.agenda u ∨ (m.unwind t later).agenda u = [] := fun u => by
    by_cases mine : u = t
    · subst mine
      rw [agenda_unwind_self agenda, futile_kept futile.2]
      exact .inr rfl
    · exact .inl (agenda_unwind_other mine)
  have moved : m.hub.Unmoved (m.unwind t later).hub := by
    rcases hub_unwind m t later with hub | hub <;> rw [hub] <;> rfl
  refine ⟨moved.shut still.shut, still.unmoved.trans moved, fun u => ?_, fun none => ?_⟩
  · rcases agendas u with same | empty
    · exact same ▸ still.futile u
    · exact empty ▸ every_nil _
  · obtain ⟨same, absent⟩ := still.held fun y seen => none y (List.mem_append_left _ seen)
    have stays : Machine.abandons later = false := Bool.eq_false_iff.mpr fun abandons =>
      absent t (agenda ▸ List.mem_cons_of_mem _ (abandons_mem abandons))
    rw [hub_unabandoned stays]
    refine ⟨same, fun u => ?_⟩
    rcases agendas u with same | empty
    · exact same ▸ absent u
    · exact empty ▸ List.not_mem_nil

end Still

theorem Run.still (run : Run config hooks past m) (managed : ∀ y ∈ past, y.managed) :
    ∀ earlier x rest, past = earlier ++ x :: rest → Ceased earlier x.machine → (∀ y ∈ earlier, y.hookSafe) →
      Still x (x :: rest) m := by
  refine Run.induct_all (G := Moment.managed) (P := fun past m => ∀ earlier x rest, past = earlier ++ x :: rest →
      Ceased earlier x.machine → (∀ y ∈ earlier, y.hookSafe) → Still x (x :: rest) m)
    ?construct ?assemble ?call ?client ?carry ?unwind run managed
  case construct | assemble =>
    intro system earlier x rest empty
    exact absurd empty.symm (List.append_ne_nil_of_right_ne_nil _ (List.cons_ne_nil _ _))
  case call =>
    intro past m op run before idle earlier x rest split ceased hooked
    refine (before earlier x rest split ceased hooked).begins rfl fun u => ?_
    by_cases caller : u = .caller
    · subst caller
      exact (agenda_beginWith_caller [.perform op]).symm.imp (fun none => none.trans idle.symm) fun begins => ⟨op, begins⟩
    · exact .inl (agenda_beginWith_other caller _)
  case client =>
    intro past m name op run before earlier x rest split ceased hooked
    exact (before earlier x rest split ceased hooked).begins rfl fun u => (agenda_client name _).imp_right fun begins => ⟨op, begins⟩
  case carry =>
    intro past m t job later run before agenda _ _ old now earlier x rest split ceased hooked
    rcases split_snoc split with ⟨rfl, rfl, rfl⟩ | ⟨front, rfl, rfl⟩
    · exact (Still.start (run.ceased_shut old hooked ceased) ceased.2).carry now agenda
    · exact (before earlier x front rfl ceased hooked).carry now agenda
  case unwind =>
    intro past m t later run before agenda old _ earlier x rest split ceased hooked
    rcases split_snoc split with ⟨rfl, rfl, rfl⟩ | ⟨front, rfl, rfl⟩
    · exact (Still.start (run.ceased_shut old hooked ceased) ceased.2).unwind agenda
    · exact (before earlier x front rfl ceased hooked).unwind agenda

-- What an operation is told by a hub at its end, if it is one that is refused then.
def Op.refusal : Op → Option Reply
  | .run => some (.done (.error .shuttingDown))
  | .addAdapter _ => some (.added (.error .shuttingDown))
  | .send .. => some (.sent (.error .shuttingDown))
  | .removeAdapter id => some (.done (.error (.unknownAdapter id)))
  | _ => none

-- A thread is so many turns before that answer, the turn that brings it included.
inductive Refusing : Nat → Reply → List Job → Prop where
  | answer (reply : Reply) : Refusing 1 reply [.answer reply]
  | acquire {turns : Nat} {reply : Reply} {stage : List Job} (lock : Lock) (rest : Refusing turns reply stage) :
      Refusing (turns + 1) reply (.acquire lock :: stage)
  | release {turns : Nat} {reply : Reply} {stage : List Job} (lock : Lock) (rest : Refusing turns reply stage) :
      Refusing (turns + 1) reply (.release lock :: stage)
  | run : Refusing 3 (.done (.error .shuttingDown)) [.hub .run]
  | add (adapter : AdapterKey) : Refusing 3 (.added (.error .shuttingDown)) [.hub (.add adapter)]
  | send (c : ConnectionHandle) (data : Payload) : Refusing 2 (.sent (.error .shuttingDown)) [.hub (.send c data)]
  | withdraw (id : AdapterId) : Refusing 4 (.done (.error (.unknownAdapter id))) [.registry (.withdraw id .hub)]

def Moment.answer? (u : ThreadId) (x : Moment) : Option Reply :=
  match x.job with
  | .answer reply => if x.thread = u then some reply else none
  | _ => none

def answersOf (u : ThreadId) (past : List Moment) : List Reply := past.filterMap (·.answer? u)

def turnsOf (u : ThreadId) (past : List Moment) : Nat := (past.filter (·.thread = u)).length

-- What an operation of a hub at its end has been told since, or will be told after so many more turns of its thread.
def Moment.told (y : Moment) (reply : Reply) (back : List Moment) (m : Machine) : Prop :=
  (answersOf y.thread back).head? = some reply ∨ (answersOf y.thread back = [] ∧ ∃ turns stage,
    m.agenda y.thread = stage ++ y.later ∧ Refusing turns reply stage ∧ turnsOf y.thread back + turns ≤ 6)

namespace Refusing

variable {turns : Nat}

theorem begins (m : Machine) {op : Op} (owned : m.hub.owned = true) (refuses : op.refusal = some reply) :
    ∃ turns ≤ 6, Refusing turns reply (m.perform op).2 := by
  cases op <;> first | cases refuses; done | skip
  all_goals cases refuses
  all_goals simp only [Machine.perform, owned, if_true, Machine.performOwned]
  case addAdapter => exact ⟨4, by decide, .acquire _ (.add _)⟩
  case removeAdapter => exact ⟨6, by decide, .acquire _ (.acquire _ (.withdraw _))⟩
  case run => exact ⟨4, by decide, .acquire _ .run⟩
  case send => exact ⟨2, by decide, .send _ _⟩

theorem turn (refusing : Refusing turns reply (job :: stage)) (shut : m.hub.Shut) : (job = .answer reply ∧ stage = []) ∨
    ((∀ other, job ≠ .answer other) ∧ job ≠ .panic ∧ ∃ fewer, fewer + 1 = turns ∧
      Refusing fewer reply ((job.exec m t).2 ++ stage)) := by
  cases refusing with
  | answer => exact .inl ⟨rfl, rfl⟩
  | acquire lock rest | release lock rest =>
      exact .inr ⟨fun _ none => (by cases none), fun none => (by cases none), _, rfl, rest⟩
  | run | add =>
      refine .inr ⟨fun _ none => (by cases none), fun none => (by cases none), 2, rfl, ?_⟩
      simp only [Job.exec, HubJob.exec, shut.ending, if_true]
      exact .release _ (.answer _)
  | send =>
      refine .inr ⟨fun _ none => (by cases none), fun none => (by cases none), 1, rfl, ?_⟩
      simp only [Job.exec, HubJob.exec, shut.ending, if_true]
      exact .answer _
  | withdraw id =>
      refine .inr ⟨fun _ none => (by cases none), fun none => (by cases none), 3, rfl, ?_⟩
      simp only [Job.exec, RegistryJob.exec, Registry.unregister, shut.unknown, Option.map_none]
      exact .release _ (.release _ (.answer _))

theorem busy (refusing : Refusing turns reply stage) : ∃ job rest, stage = job :: rest := by
  cases refusing <;> exact ⟨_, _, rfl⟩

theorem ready (refusing : Refusing turns reply (job :: stage)) (m : Machine) (t : ThreadId) :
    job.enabled m t = true ∨ ∃ lock, job = .acquire lock ∧ m.free lock = false := by
  cases refusing with
  | acquire lock rest =>
      cases free : m.free lock with
      | true => exact .inl (by simp [Job.enabled, Job.needs, free])
      | false => exact .inr ⟨lock, rfl, free⟩
  | _ => exact .inl rfl

end Refusing

theorem answer_other (apart : x.thread ≠ u) : x.answer? u = none := by
  unfold Moment.answer?
  split
  · exact if_neg apart
  · rfl

theorem answer_silent (silent : ∀ reply, x.job ≠ .answer reply) : x.answer? u = none := by
  unfold Moment.answer?
  split
  · exact absurd ‹_› (silent _)
  · rfl

theorem answersOf_snoc : answersOf u (past ++ [x]) = answersOf u past ++ (x.answer? u).toList := by
  rw [answersOf, List.filterMap_append, ← answersOf]
  cases here : x.answer? u <;> simp [here]

theorem turnsOf_snoc : turnsOf u (past ++ [x]) = turnsOf u past + if x.thread = u then 1 else 0 := by
  rw [turnsOf, List.filter_append, List.length_append]
  by_cases same : x.thread = u <;> simp [turnsOf, same]

namespace Moment.told

theorem apart {m' : Machine} (told : y.told reply back m)
    (agenda : m.agenda y.thread ≠ [] → m'.agenda y.thread = m.agenda y.thread) : y.told reply back m' := by
  refine told.imp_right fun pending => ?_
  obtain ⟨none, turns, stage, here, refusing, few⟩ := pending
  obtain ⟨job, rest, rfl⟩ := refusing.busy
  exact ⟨none, turns, _, (agenda (by rw [here]; exact List.cons_ne_nil _ _)).trans here, refusing, few⟩

theorem answered (told : (answersOf y.thread back).head? = some reply) : (answersOf y.thread (back ++ [x])).head? = some reply := by
  obtain ⟨rest, whole⟩ := List.head?_eq_some_iff.mp told
  rw [answersOf_snoc, whole]
  rfl

theorem other (told : y.told reply back m) (apart : x.thread ≠ y.thread) : y.told reply (back ++ [x]) m := by
  rw [Moment.told, answersOf_snoc, answer_other apart, Option.toList_none, List.append_nil, turnsOf_snoc, if_neg apart, Nat.add_zero]
  exact told

theorem turn (told : y.told reply back m) (shut : m.hub.Shut) (agenda : m.agenda y.thread = job :: later) :
    y.told reply (back ++ [⟨m, y.thread, job, later⟩]) (m.carry y.thread job later) := by
  rcases told with told | ⟨none, turns, stage, here, refusing, few⟩
  · exact .inl (answered told)
  obtain ⟨first, rest, rfl⟩ := refusing.busy
  rw [agenda, List.cons_append] at here
  obtain ⟨rfl, rfl⟩ := List.cons.inj here
  rcases refusing.turn (m := m) (t := y.thread) shut with ⟨rfl, rfl⟩ | ⟨silent, _, fewer, rfl, closer⟩
  · refine .inl ?_
    have here : Moment.answer? y.thread ⟨m, y.thread, .answer reply, [] ++ y.later⟩ = some reply := if_pos rfl
    rw [answersOf_snoc, none, here]
    rfl
  · refine .inr ⟨?_, fewer, _, ?_, closer, ?_⟩
    · rw [answersOf_snoc, none, answer_silent silent]
      rfl
    · rw [agenda_carry_self agenda, List.append_assoc]
    · rw [turnsOf_snoc, if_pos rfl]
      omega

end Moment.told

theorem Run.refusal_told (run : Run config hooks past m) : ∀ earlier y back op, past = earlier ++ y :: back →
    (∀ z ∈ y :: back, z.machine.hub.Shut) → y.job = .perform op → y.machine.hub.owned = true → op.refusal = some reply →
    y.told reply back m := by
  refine Run.induct (G := fun _ => True) (P := fun past m => ∀ earlier y back op, past = earlier ++ y :: back →
      (∀ z ∈ y :: back, z.machine.hub.Shut) → y.job = .perform op → y.machine.hub.owned = true → op.refusal = some reply →
      y.told reply back m) ?construct ?assemble ?call ?client ?carry ?unwind run fun _ _ => trivial
  case construct | assemble =>
    intro system earlier y back op empty
    exact absurd empty.symm (List.append_ne_nil_of_right_ne_nil _ (List.cons_ne_nil _ _))
  case call =>
    intro past m op run before idle earlier y back performed split shut performs owned refuses
    refine (before earlier y back performed split shut performs owned refuses).apart fun busy => ?_
    exact agenda_beginWith_other (fun caller => busy (by rw [caller]; exact idle)) _
  case client =>
    intro past m name op run before earlier y back performed split shut performs owned refuses
    refine (before earlier y back performed split shut performs owned refuses).apart fun busy => ?_
    exact agenda_client_old (known_lt (agenda_known rfl busy))
  case carry =>
    intro past m t job later run before agenda _ _ _ earlier y back op split shut performs owned refuses
    rcases split_snoc split with ⟨rfl, rfl, rfl⟩ | ⟨front, rfl, rfl⟩
    · cases performs
      obtain ⟨turns, few, refusing⟩ := Refusing.begins m owned refuses
      exact .inr ⟨rfl, turns, _, agenda_carry_self agenda, refusing, by rw [turnsOf]; simpa using few⟩
    · have told := before earlier y front op rfl (fun z seen => shut z (List.mem_append_left [_] seen)) performs owned refuses
      by_cases mine : t = y.thread
      · subst mine
        exact told.turn (shut _ (List.mem_append_right (y :: front) (List.mem_singleton.mpr rfl))) agenda
      · refine (told.other (x := ⟨m, t, job, later⟩) mine).apart fun busy => ?_
        exact (run.carry_fresh job later (Ne.symm mine)).resolve_right fun idle => busy idle.1
  case unwind =>
    intro past m t later run before agenda _ earlier y back op split shut performs owned refuses
    rcases split_snoc split with ⟨rfl, rfl, rfl⟩ | ⟨front, rfl, rfl⟩
    · cases performs
    · have told := before earlier y front op rfl (fun z seen => shut z (List.mem_append_left [_] seen)) performs owned refuses
      by_cases mine : t = y.thread
      · subst mine
        rcases told with told | ⟨_, turns, stage, here, refusing, _⟩
        · exact .inl (Moment.told.answered told)
        · obtain ⟨first, rest, rfl⟩ := refusing.busy
          rw [agenda, List.cons_append] at here
          obtain ⟨rfl, _⟩ := List.cons.inj here
          rcases refusing.turn (m := m) (t := y.thread)
              (shut _ (List.mem_append_right (y :: front) (List.mem_singleton.mpr rfl))) with
            ⟨none, _⟩ | ⟨_, none, _⟩
          · cases none
          · exact absurd rfl none
      · exact (told.other (x := ⟨m, t, .panic, later⟩) mine).apart fun _ => agenda_unwind_other (Ne.symm mine)

def Moment.refused (y : Moment) (reply : Reply) (back : List Moment) (m : Machine) : Prop :=
  (answersOf y.thread back).head? = some reply ∨ (answersOf y.thread back = [] ∧ turnsOf y.thread back < 6 ∧
    ∃ job rest, m.agenda y.thread = job :: rest ∧ (job.enabled m y.thread = true ∨ ∃ lock, job = .acquire lock ∧ m.free lock = false))

theorem Moment.told.refused (told : y.told reply back m) : y.refused reply back m := by
  refine told.imp_right fun pending => ?_
  obtain ⟨none, turns, stage, here, refusing, few⟩ := pending
  have positive : 0 < turns := by cases refusing <;> omega
  obtain ⟨job, rest, rfl⟩ := refusing.busy
  exact ⟨none, by omega, job, rest ++ y.later, here, refusing.ready m y.thread⟩

def Job.arrival (m : Machine) : Job → Option DataCallback
  | .perform (.report _ report) => if m.hub.owned then report.data? else none
  | .perform (.contextReport name report) =>
      if m.attached ∧ ((m.cast.namedAdapter? name).bind (·.2.context)).isSome then report.data? else none
  | .participant (.complete key c sequence status) =>
      if m.attached ∧ ((m.cast.adapter? key).bind (·.context)).isSome then some (.completed c sequence status) else none
  | .perform (.dataLanes (.enqueue _ callback)) => if m.hub.owned then some callback else none
  | _ => none

def arrivals (past : List Moment) : List DataCallback := past.filterMap fun x => x.job.arrival x.machine

theorem brings_arrival (m : Machine) (job : Job) (callback : DataCallback) :
    job.brings m callback = if job.arrival m = some callback then 1 else 0 := by
  cases job with
  | perform op =>
      cases op with
      | report source report =>
          simp only [Job.brings, Job.arrival]
          by_cases owned : m.hub.owned = true <;> simp [owned]
      | contextReport name report =>
          simp only [Job.brings, Job.arrival, ← and_assoc]
          split <;> simp_all
      | dataLanes op => cases op <;> simp [Job.brings, Job.arrival]
      | _ => rfl
  | participant job =>
      cases job with
      | complete key c sequence status =>
          simp only [Job.brings, Job.arrival, ← and_assoc]
          split <;> simp_all
      | _ => rfl
  | _ => rfl

def Job.seeks : Job → Option DataCallback
  | .dataLane (.find _ callback) => some callback
  | _ => none

theorem weight_sought (callback : DataCallback) (agenda : List Job) :
    weight (sought callback) agenda = (agenda.filterMap Job.seeks).count callback := by
  induction agenda with
  | nil => rfl
  | cons job rest ih =>
      have here : sought callback job = if job.seeks = some callback then 1 else 0 := by
        cases job with
        | dataLane job => cases job <;> simp [sought, Job.seeks]
        | _ => rfl
      rw [weight_cons, ih, here, List.filterMap_cons]
      cases seeks : job.seeks with
      | none => simp
      | some other => by_cases same : other = callback <;> simp [same, Nat.add_comm]

theorem weight_enqueues (agenda : List Job) : weight Job.enqueuesData agenda = (agenda.filterMap Job.seeks).length := by
  induction agenda with
  | nil => rfl
  | cons job rest ih =>
      rw [weight_cons, ih, List.filterMap_cons]
      cases job with
      | dataLane job => cases job <;> simp [Job.enqueuesData, Job.seeks, Nat.add_comm]
      | _ => simp [Job.enqueuesData, Job.seeks]

theorem arrival_next (m : Machine) (t : ThreadId) (job : Job) :
    weight Job.enqueuesData (job.exec m t).2 = (job.arrival m).toList.length := by
  rw [weight_enqueues]
  refine (List.perm_iff_count.mpr fun callback => ?_).length_eq
  rw [← weight_sought, sought_next, brings_arrival]
  cases job.arrival m with
  | none => rfl
  | some other => by_cases same : other = callback <;> simp [same]

def unsettled (job : Job) : Nat := job.enqueuesData + pushing job + orphaning job

theorem weight_unsettled (agenda : List Job) :
    weight unsettled agenda = weight Job.enqueuesData agenda + weight pushing agenda + weight orphaning agenda := by
  induction agenda with
  | nil => rfl
  | cons job rest ih =>
      simp only [weight_cons, ih, unsettled]
      omega

theorem inner_unsettled : Inner unsettled := ⟨fun _ _ _ fresh => by cases fresh <;> rfl, rfl, fun _ => rfl⟩

theorem length_arrivals (past : List Moment) :
    (arrivals past).length = total (fun x => (x.job.arrival x.machine).toList.length) past := by
  induction past with
  | nil => rfl
  | cons x rest ih =>
      simp only [arrivals, total, List.map_cons, List.sum_cons, List.filterMap_cons] at ih ⊢
      cases x.job.arrival x.machine <;> simp [ih, Nat.add_comm]

theorem Run.arrived (run : Run config hooks past m) : (arrivals past).length =
    total (fun x => x.job.accepts x.machine) past + m.hub.metrics.orphaned + m.load unsettled + total (lost unsettled) past := by
  have law := run.ledger (a := fun x => (x.job.arrival x.machine).toList.length) (b := fun x => x.job.accepts x.machine)
    (q := fun _ => 0) (r := fun h => h.metrics.orphaned) inner_unsettled rfl
    (fun _ => ⟨rfl, rfl⟩) (fun _ _ _ => ⟨rfl, rfl⟩) (fun {_ m t job _} _ _ _ _ => by
      have next := weight_unsettled (job.exec m t).2
      rw [arrival_next, orphaning_next] at next
      have pushed := pushing_next m t job
      have counted := orphaned_adds m t job
      simp only [unsettled] at *
      omega)
  rw [length_arrivals]
  omega

theorem Run.arrivals_kept (run : Run config hooks past m) (seen : x ∈ past) (hooked : x.hookSafe) : lost unsettled x = 0 :=
  weight_zero fun job dropped => by
    have loose := run.queues_kept seen hooked job dropped
    cases job with
    | dataLane job => cases job <;> first | rfl | cases loose
    | _ => rfl

structure Moment.Inert (x : Moment) : Prop where
  uncalled : ∀ id adapter call, x.job ≠ .participant (.call id adapter call)
  unheard : x.job.hears = false
  undelivered : ∀ d, x.job ≠ .participant (.deliver d)
  unopened : x.opens = none
  unmanned : x.mans = none
  unqueued : x.job.enqueuesDevice = 0 ∧ x.job.accepts x.machine = 0

theorem futile_inert (futile : x.job.futile = true) : x.Inert := by
  obtain ⟨machine, thread, job, later⟩ := x
  cases job with
  | participant job =>
      cases job <;> first | cases futile; done | exact
        ⟨fun _ _ _ none => (by cases none), rfl, fun _ none => (by cases none), rfl, rfl, rfl, rfl⟩
  | dataLane job =>
      cases job <;> first | cases futile; done | exact
        ⟨fun _ _ _ none => (by cases none), rfl, fun _ none => (by cases none), rfl, rfl, rfl, rfl⟩
  | deviceLane => cases futile
  | _ => exact ⟨fun _ _ _ none => (by cases none), rfl, fun _ none => (by cases none), rfl, rfl, rfl, rfl⟩

-- What a hub at its end does from a moment on. Nothing runs, is listed or connected, and nothing changes but for
-- who holds the hub, the listeners, the handles and the count of the orphaned, which goes up once for each data
-- callback that arrives; a panic out of a log hook may prevent that.
structure Finished (x : Moment) (rest : List Moment) (m : Machine) : Prop where
  idle : m.hub.isRunning = false
  devices : m.hub.registry.aggregate = []
  connections : m.hub.connections = {}
  unmoved : x.machine.hub.Unmoved m.hub
  held : (∀ y ∈ x :: rest, y.job ≠ .perform .drop) → m.hub.owned = x.machine.hub.owned ∧ m.hub.attached = x.machine.hub.attached
  inert : ∀ y ∈ x :: rest, y.Inert
  refused : ∀ front y back op reply, x :: rest = front ++ y :: back → y.job = .perform op → y.machine.hub.owned = true →
    op.refusal = some reply → y.refused reply back m
  orphaned : m.hub.metrics.orphaned + m.load unsettled + total (lost unsettled) (x :: rest) =
    x.machine.hub.metrics.orphaned + (arrivals (x :: rest)).length
  settled : m.deserted → m.load unsettled = 0
  counted : (∀ y ∈ x :: rest, y.hookSafe) → total (lost unsettled) (x :: rest) = 0

-- A shutdown is final. The hub is at its end, now and ever since the shutdown had come to its own; without panics
-- that is as soon as termination has begun and nobody is inside a call.
structure Finality (past : List Moment) (m : Machine) : Prop where
  reached : (∀ x ∈ past, x.hookSafe ∧ x.adapterSafe) → m.hub.terminating = true → m.deserted → Ceased past m
  now : Ceased past m → (∀ x ∈ past, x.hookSafe) → m.hub.Shut
  since : ∀ earlier x rest, past = earlier ++ x :: rest → Ceased earlier x.machine → (∀ y ∈ earlier, y.hookSafe) → Finished x rest m

theorem Run.still_at (run : Run config hooks past m) (managed : ∀ y ∈ past, y.managed) {front : List Moment}
    (split : past = earlier ++ x :: rest) (ceased : Ceased earlier x.machine) (hooked : ∀ y ∈ earlier, y.hookSafe)
    (parts : x :: rest = front ++ y :: back) : Still x front y.machine ∧ y.machine.agenda y.thread = y.job :: y.later := by
  have start : (earlier ++ front) ++ [y] <+: past := ⟨back, by rw [split, parts]; simp⟩
  obtain ⟨reached, agenda⟩ := run.before start
  have old : ∀ z ∈ earlier ++ front, z.managed := fun z seen => managed z <| by
    rw [split, parts, ← List.append_assoc]
    exact List.mem_append_left _ seen
  refine ⟨?_, agenda⟩
  cases front with
  | nil =>
      obtain ⟨rfl, _⟩ := List.cons.inj parts
      rw [List.append_nil] at reached old
      exact .start (reached.ceased_shut old hooked ceased) ceased.2
  | cons first front =>
      obtain ⟨rfl, _⟩ := List.cons.inj parts
      exact reached.still old earlier x front rfl ceased hooked

theorem Run.orphans_since (run : Run config hooks past m) (split : past = earlier ++ x :: rest) (deserted : x.machine.deserted)
    (inert : ∀ y ∈ x :: rest, y.Inert) : m.hub.metrics.orphaned + m.load unsettled + total (lost unsettled) (x :: rest) =
      x.machine.hub.metrics.orphaned + (arrivals (x :: rest)).length := by
  have whole := run.arrived
  have start : earlier ++ [x] <+: past := ⟨rest, by rw [split]; simp⟩
  have before := (run.before start).1.arrived
  have none : x.machine.load unsettled = 0 := load_zero fun u job member => by
    obtain ⟨op, rfl⟩ := deserted.only member
    rfl
  have untaken : total (fun y => y.job.accepts y.machine) (x :: rest) = 0 := total_zero fun y here => (inert y here).unqueued.2
  rw [split, total_append, total_append, arrivals, List.filterMap_append, List.length_append, ← arrivals,
    ← arrivals, untaken] at whole
  omega

theorem shutdown_final (run : Run config hooks past m) (managed : ∀ x ∈ past, x.managed) : Finality past m where
  reached := run.ceased managed
  now ceased hooked := run.ceased_shut managed hooked ceased
  since earlier x rest split ceased hooked := by
    have still := run.still managed earlier x rest split ceased hooked
    have inert : ∀ y ∈ x :: rest, y.Inert := fun y here => by
      obtain ⟨front, back, parts⟩ := List.append_of_mem here
      obtain ⟨before, agenda⟩ := run.still_at managed split ceased hooked parts
      exact futile_inert (before.futile y.thread y.job (agenda ▸ List.mem_cons_self ..))
    exact {
      idle := still.shut.idle
      devices := still.shut.unlisted
      connections := still.shut.connections
      unmoved := still.unmoved
      held := fun kept => (still.held kept).1
      inert := inert
      refused := fun front y back op reply parts performs owned refuses => by
        refine (run.refusal_told (earlier ++ front) y back op (by rw [split, parts, List.append_assoc]) (fun z here => ?_)
          performs owned refuses).refused
        obtain ⟨before, after, inner⟩ := List.append_of_mem here
        have parts : x :: rest = (front ++ before) ++ z :: after := by rw [parts, inner, List.append_assoc]
        exact (run.still_at managed split ceased hooked parts).1.shut
      orphaned := run.orphans_since split ceased.2 inert
      settled := fun deserted => load_zero fun u job member => by
        obtain ⟨op, rfl⟩ := deserted.only member
        rfl
      counted := fun hooked => total_zero fun y here => run.arrivals_kept (split ▸ List.mem_append_right _ here) (hooked y here) }

theorem deserted_iff : (∀ agenda ∈ m.agendas, (agenda matches [] | [.perform _]) = true) ↔ m.deserted := by
  have shape : ∀ agenda : List Job, (agenda matches [] | [.perform _]) = true ↔ agenda = [] ∨ ∃ op, agenda = [.perform op] := by
    intro agenda
    rcases agenda with _ | ⟨_ | _, _ | _⟩ <;> simp
  simp only [shape]
  refine ⟨fun all u => ?_, fun deserted agenda member => ?_⟩
  · rw [agenda_eq]
    cases known : m.agendas[u.val]? with
    | none => exact .inl rfl
    | some agenda => exact all agenda (List.mem_of_getElem? known)
  · obtain ⟨i, known⟩ := List.getElem?_of_mem member
    have here := deserted ⟨i⟩
    rwa [agenda_eq, known] at here

instance (m : Machine) : Decidable m.deserted := decidable_of_iff _ deserted_iff

instance (past : List Moment) (m : Machine) : Decidable (Ceased past m) := inferInstanceAs (Decidable (Halted past ∧ m.deserted))

theorem act_more {done : List Moment × Machine} {op : Op} {schedule : List ThreadId} :
    (act op schedule done).1 = done.1 ++ (act op schedule done).1.drop done.1.length := by
  unfold act
  split
  · rw [List.drop_left]
  · rw [List.drop_length, List.append_nil]

-- After the shutdown the application reports a frame, starts the hub, removes an adapter and adds one.
def lateSession : List Moment × Machine :=
  act (.report ⟨1⟩ (.received ⟨4⟩ [7])) (rounds [(9, 0), (5, 3), (7, 4), (5, 5)])
    (joined "c" (.addAdapter (.named "a")) (joined "b" (.removeAdapter ⟨1⟩) (joined "a" .run hastySession)))

theorem finality_of_late : (∀ y ∈ lateSession.1, y.managed ∧ y.hookSafe ∧ y.adapterSafe) ∧ Ceased lateSession.1 lateSession.2 ∧
    ∃ x rest, lateSession.1 = hastySession.1 ++ x :: rest ∧ Ceased hastySession.1 x.machine ∧ Finished x rest lateSession.2 ∧
      (arrivals (x :: rest)).length = 1 ∧ x.machine.hub.metrics.orphaned = 0 ∧ lateSession.2.hub.metrics.orphaned = 1 ∧
      (answersOf ⟨3⟩ (x :: rest)).map Reply.error? = [some .shuttingDown] ∧
      (answersOf ⟨4⟩ (x :: rest)).map Reply.error? = [some (.unknownAdapter ⟨1⟩)] := by
  have run : Run hastyConfig [] lateSession.1 lateSession.2 :=
    act_run (joined_run (joined_run (joined_run (act_run (act_run (act_run (solo_run _ _ _) _ _) _ _) _ _) _ _) _ _) _ _) _ _
  have split : lateSession.1 = hastySession.1 ++ lateSession.1.drop hastySession.1.length := act_more
  obtain ⟨safe, ceased, first, arrived, counted, started, removed⟩ :
      (∀ y ∈ lateSession.1, y.managed ∧ y.hookSafe ∧ y.adapterSafe) ∧ Ceased lateSession.1 lateSession.2 ∧
      (∃ x ∈ (lateSession.1.drop hastySession.1.length).head?, Ceased hastySession.1 x.machine ∧ x.machine.hub.metrics.orphaned = 0) ∧
      (arrivals (lateSession.1.drop hastySession.1.length)).length = 1 ∧ lateSession.2.hub.metrics.orphaned = 1 ∧
      (answersOf ⟨3⟩ (lateSession.1.drop hastySession.1.length)).map Reply.error? = [some .shuttingDown] ∧
      (answersOf ⟨4⟩ (lateSession.1.drop hastySession.1.length)).map Reply.error? = [some (.unknownAdapter ⟨1⟩)] := by
    decide +kernel
  generalize lateSession.1.drop hastySession.1.length = fresh at *
  obtain ⟨x, head, ceasedThen, none⟩ := first
  obtain ⟨rest, rfl⟩ := List.head?_eq_some_iff.mp head
  have finished := (shutdown_final run fun y seen => (safe y seen).1).since hastySession.1 x rest split ceasedThen fun y seen =>
    (safe y (split ▸ List.mem_append_left _ seen)).2.1
  exact ⟨safe, ceased, x, rest, split, ceasedThen, finished, arrived, none, counted, started, removed⟩

-- A panic comes out of a log hook before a report that finds no lane is counted.
def hookAtDrop : Hook := { start := "", nth := 4, ops := [.panic] }

def endedHub : List Moment × Machine := solo quietConfig [hookAtDrop] [.shutdown]

def droppedSession : List Moment × Machine := act (.report ⟨1⟩ (.received ⟨4⟩ [7])) (rounds [(9, 0)]) endedHub

-- The hub is shut down while a connection is reported, and a panic out of a log hook leaves the connection behind.
def hookAtConnected : Hook := { start := "", nth := 1, ops := [.shutdown] }

def leftBehind : List Moment × Machine := solo quietConfig [hookAtConnected, hookAtDrop] [.report ⟨1⟩ (.connected {} ⟨4⟩)]

theorem hooks_cut_short : (Run quietConfig [hookAtDrop] droppedSession.1 droppedSession.2 ∧
      (∀ y ∈ droppedSession.1, y.managed ∧ y.adapterSafe) ∧ droppedSession.2.deserted ∧
      ∃ x rest, droppedSession.1 = endedHub.1 ++ x :: rest ∧ Ceased endedHub.1 x.machine ∧ (arrivals (x :: rest)).length = 1 ∧
        droppedSession.2.hub.metrics.orphaned = x.machine.hub.metrics.orphaned) ∧
    (Run quietConfig [hookAtConnected, hookAtDrop] leftBehind.1 leftBehind.2 ∧ (∀ y ∈ leftBehind.1, y.managed ∧ y.adapterSafe) ∧
      Ceased leftBehind.1 leftBehind.2 ∧ leftBehind.2.hub.connections.keys = [⟨4⟩]) := by
  refine ⟨⟨act_run (solo_run _ _ _) _ _, ?_⟩, solo_run _ _ _, by decide +kernel⟩
  have split : droppedSession.1 = endedHub.1 ++ droppedSession.1.drop endedHub.1.length := act_more
  obtain ⟨safe, deserted, first, arrived⟩ : (∀ y ∈ droppedSession.1, y.managed ∧ y.adapterSafe) ∧ droppedSession.2.deserted ∧
      (∃ x ∈ (droppedSession.1.drop endedHub.1.length).head?, Ceased endedHub.1 x.machine ∧
        droppedSession.2.hub.metrics.orphaned = x.machine.hub.metrics.orphaned) ∧
      (arrivals (droppedSession.1.drop endedHub.1.length)).length = 1 := by
    decide +kernel
  generalize droppedSession.1.drop endedHub.1.length = fresh at *
  obtain ⟨x, head, ceased, same⟩ := first
  obtain ⟨rest, rfl⟩ := List.head?_eq_some_iff.mp head
  exact ⟨safe, deserted, x, rest, split, ceased, arrived, same⟩

end TransportHub
