import TransportHub.Proofs.DeviceDeliveries
import TransportHub.Proofs.Lifecycle
import TransportHub.Proofs.RegistryHistory
/-!
Published lists: every step that changes what the adapters list is followed, under the lock that orders the
publications, by one callback that carries the list as it is then, and nothing else queues such a callback.
-/

set_option autoImplicit false

namespace TransportHub

open Registry (Call Alike)

variable {config : Config} {hooks : List Hook} {past : List Moment} {m : Machine} {t u : ThreadId} {job : Job} {later : List Job}
  {id : AdapterId} {devices : List DiscoveredDevice} {infos : List DeviceInfo} {x : Moment}

namespace Registry

theorem aggregate_enrol (r : Registry) (id : AdapterId) (deviceType : String) (adapter : AdapterKey) :
    (r.enrol id deviceType adapter).aggregate = r.aggregate := by
  simp [aggregate, enrol]

theorem aggregate_unregister (r : Registry) (id : AdapterId) (idle : ∀ e, r.find? id = some e → e.devices = []) :
    (r.unregister id).2.aggregate = r.aggregate := by
  simp only [aggregate, unregister, find?] at idle ⊢
  generalize r.entries = entries at idle
  induction entries with
  | nil => rfl
  | cons e rest ih =>
      by_cases here : e.id = id
      · simp [here, idle e (by simp [here])]
      · have tail := ih fun f found => idle f (by rwa [List.find?_cons_of_neg (by simpa using here)])
        simp [here, tail]

end Registry

def DeviceCallback.list? : DeviceCallback → Option (List DeviceInfo)
  | .listUpdated infos => some infos
  | _ => none

def publishedLists (past : List Moment) : List (List DeviceInfo) := (queuedDevice past).filterMap DeviceCallback.list?

def Moment.updates (x : Moment) : Bool :=
  match x.job with
  | .registry (.store ..) => true
  | .registry (.withdraw id .hub) => (x.machine.hub.registry.find? id).any fun e => !e.devices.isEmpty
  | _ => false

-- What all adapters list right after a step.
def Moment.aggregate (x : Moment) : List DeviceInfo := (x.job.exec x.machine x.thread).1.hub.registry.aggregate

def updatedLists (past : List Moment) : List (List DeviceInfo) := (past.filter Moment.updates).map Moment.aggregate

theorem publishedLists_snoc : publishedLists (past ++ [x]) = publishedLists past ++ x.job.queues.filterMap DeviceCallback.list? := by
  unfold publishedLists queuedDevice
  rw [flatMap_snoc, List.filterMap_append]

theorem updatedLists_snoc : updatedLists (past ++ [x]) = updatedLists past ++ if x.updates then [x.aggregate] else [] := by
  unfold updatedLists
  rw [List.filter_append, List.map_append]
  cases here : x.updates <;> simp [here]

theorem Run.hub_withdraws (run : Run config hooks past m) (managed : ∀ x ∈ past, x.managed) (running : m.hub.terminating = false)
    (u : ThreadId) (id : AdapterId) {errand : Errand} (member : .registry (.withdraw id errand) ∈ m.agenda u) : errand = .hub := by
  obtain ⟨_, _, _, followed⟩ := each_mem (run.followed id managed u) member
  cases errand with
  | hub => rfl
  | alone => cases followed.hired
  | shutdown =>
      have ending := run.windsUp_ending u _ member rfl
      rw [running] at ending
      cases ending

theorem aggregate_exec (withdraws : ∀ id errand, job = .registry (.withdraw id errand) → errand = .hub)
    (plain : Moment.updates ⟨m, t, job, later⟩ = false) : (job.exec m t).1.hub.registry.aggregate = m.hub.registry.aggregate := by
  rw [(alike_exec m t job).aggregate]
  cases job with
  | registry job =>
      cases job with
      | reserve => rfl
      | enrol => exact Registry.aggregate_enrol _ _ _ _
      | store => cases plain
      | replace => rfl
      | withdraw id errand =>
          cases withdraws id errand rfl
          simp only [Moment.updates] at plain
          refine Registry.aggregate_unregister _ id fun e found => ?_
          rw [found] at plain
          simpa using plain
  | _ => rfl

theorem Run.last_update (run : Run config hooks past m) (managed : ∀ x ∈ past, x.managed) :
    m.hub.terminating = false → (updatedLists past).getLastD [] = m.hub.registry.aggregate := by
  refine Run.induct_all (G := Moment.managed)
    (P := fun past m => m.hub.terminating = false → (updatedLists past).getLastD [] = m.hub.registry.aggregate)
    ?construct ?assemble ?call ?client ?carry ?unwind run managed
  case construct | assemble => exact fun _ => rfl
  case call => exact fun _ _ before _ => before
  case client => exact fun _ _ _ before => before
  case carry =>
    intro past m t job later run before agenda _ _ old _ running
    have ran := running_before running
    rw [updatedLists_snoc, hub_carry]
    cases updates : Moment.updates ⟨m, t, job, later⟩ with
    | true =>
        simp only [if_true, List.getLastD_concat]
        rfl
    | false =>
        rw [aggregate_exec (fun id errand same => run.hub_withdraws old ran t id ?_) updates]
        · simpa using before ran
        · rw [agenda, same]
          exact List.mem_cons_self ..
  case unwind =>
    intro past m t later _ before _ _ _ running
    rw [updatedLists_snoc, registry_unwind, ← before (terminating_unwind.symm.trans running)]
    exact congrArg (List.getLastD · []) (List.append_nil _)

theorem performed_replaces (m : Machine) (t : ThreadId) {op : Op} {errand : Errand} (managed : op.managed = true)
    (member : .registry (.replace id devices errand) ∈ (Job.exec m t (.perform op)).2) : errand = .hub := by
  have leads := leads_exec m t (.perform op) _ member
  have reported : ∀ {source : AdapterId} {r : Report}, .registry (.replace id devices errand) ∈ Plan.report source r →
      errand = .hub := by
    intro source r inside
    cases r <;> simp [Plan.report, Plan.replace, Plan.stopLane, Plan.enqueueData, Job.logHub] at inside
    exact inside.2.2
  cases op with
  | report source r =>
      simp only [Job.exec, Machine.perform] at member
      split at member
      · simp only [Machine.performOwned, List.mem_append, List.mem_singleton, reduceCtorEq, or_false] at member
        exact reported member
      · simp at member
  | contextReport name r =>
      simp only [Job.exec, Machine.perform, ParticipantJob.reportThrough] at member
      split at member
      · split at member
        · simp only [List.mem_append, List.mem_singleton, reduceCtorEq, or_false] at member
          exact reported member
        · simp at member
      · simp at member
  | registry => cases managed
  | _ => cases leads

-- A list is set on behalf of the hub, which publishes next.
structure Job.Follows (job : Job) (rest : List Job) : Prop where
  hired : ∀ id devices errand, job = .registry (.replace id devices errand) → errand = .hub
  listed : ∀ id devices, job = .registry (.store id devices) → ∃ more, rest = .release .registry :: .hub .publishList :: more

theorem Job.Follows.free (rest : List Job) (apart : (job matches .registry (.replace ..) | .registry (.store ..)) = false) :
    job.Follows rest := by
  constructor
  · rintro id devices errand rfl
    cases apart
  · rintro id devices rfl
    cases apart

theorem Run.follows (run : Run config hooks past m) (managed : ∀ x ∈ past, x.managed) (u : ThreadId) :
    Each Job.Follows (m.agenda u) := by
  refine Run.each (G := Moment.managed) (P := fun _ => Job.Follows) ?fresh ?next ?caught run managed u
  case fresh =>
    intro u agenda fresh
    cases fresh <;> and_intros <;> first | exact .free _ rfl | trivial
  case next =>
    intro past m t job later _ each agenda _ _ now
    have here := each t
    rw [agenda] at here
    by_cases replaces : ∃ id devices errand, job = .registry (.replace id devices errand)
    · obtain ⟨id, devices, errand, rfl⟩ := replaces
      cases here.1.hired id devices errand rfl
      simp only [Job.exec, RegistryJob.exec]
      split
      · exact ⟨.free _ rfl, ⟨fun _ _ _ none => (by cases none), fun _ _ _ => ⟨_, rfl⟩⟩, .free _ rfl, .free _ rfl,
          .free _ rfl, trivial⟩
      · exact ⟨.free _ rfl, .free _ rfl, .free _ rfl, trivial⟩
    · refine each_of_forall fun j member rest => ⟨fun id devices errand same => ?_, fun id devices same => ?_⟩
      · subst same
        have leads := leads_exec m t job _ member
        cases job with
        | perform op => exact performed_replaces m t (now op rfl) member
        | _ => cases leads
      · subst same
        exact absurd (store_origin (leads_exec m t job _ member)) replaces
  case caught => exact fun u d rest each => ⟨.free _ rfl, .free _ rfl, each.2⟩

def Job.lists : Job → Bool
  | .registry job => (job matches .store ..)
  | .hub job => (job matches .publishList | .publishAggregate)
  | .deviceLane job => (job matches .enqueue _ | .push _)
  | _ => false

def Fence.lists : Fence where
  mark job := (job matches .resume | .participant (.delivered _))
  brittle
    | .log _ | .acquire _ | .release _ | .answer _ | .resume => false
    | .deviceLane job => !(job matches .enqueue _ | .push _ | .discard)
    | .participant job => !(job matches .deliver _ | .delivered _)
    | job => !job.lists
  pinned := Job.lists

theorem lists_open : Fence.lists.Open :=
  ⟨⟨rfl, rfl, rfl⟩, fun _ => rfl, fun _ => rfl, ⟨rfl, rfl⟩, fun _ => ⟨rfl, rfl⟩, fun _ => rfl⟩

theorem lists_source {j : Job} (leads : job.leads j = true) (lists : j.lists = true) : Fence.lists.brittle job = false ∨
    (∃ j, job = .registry j) ∨ (∃ d c, job = .hub (.connectionStarted d c)) ∨ (∃ d c, job = .hub (.disconnected d c)) ∨
      ∃ op, job = .perform (.deviceLane op) := by
  cases j with
  | registry j | deviceLane j | hub j =>
      cases j <;> first
        | (cases lists; done)
        | (dsimp only [Job.leads] at leads
           split at leads <;> first
             | exact .inl rfl
             | exact .inr (.inl ⟨_, rfl⟩)
             | exact .inr (.inr (.inl ⟨_, _, rfl⟩))
             | exact .inr (.inr (.inr (.inl ⟨_, _, rfl⟩)))
             | exact .inr (.inr (.inr (.inr ⟨_, rfl⟩)))
             | cases leads)
  | _ => cases lists

theorem lists_brittle (m : Machine) (t : ThreadId) (job : Job) (kind : Fence.lists.brittle job = true) :
    Each Fence.lists.Guards (job.exec m t).2 := by
  by_cases source : (∃ j, job = .registry j) ∨ (∃ d c, job = .hub (.connectionStarted d c)) ∨
      (∃ d c, job = .hub (.disconnected d c)) ∨ ∃ op, job = .perform (.deviceLane op)
  · rcases source with ⟨j, rfl⟩ | ⟨d, c, rfl⟩ | ⟨d, c, rfl⟩ | ⟨op, rfl⟩
    · cases j with
      | store => cases kind
      | reserve deviceType adapter errand => cases errand <;> exact Fence.each_checked rfl
      | enrol => trivial
      | replace id devices errand =>
          simp only [Job.exec, RegistryJob.exec]
          split <;> cases errand <;> exact Fence.each_checked rfl
      | withdraw id errand =>
          simp only [Job.exec, RegistryJob.exec]
          split
          · cases errand <;> simp only [RegistryJob.afterWithdrawal, Plan.stopWithdrawn] <;> (repeat' split) <;>
              exact Fence.each_checked rfl
          · cases errand <;> exact Fence.each_checked rfl
    · simp only [Job.exec, HubJob.exec]
      split <;> exact Fence.each_checked rfl
    · simp only [Job.exec, HubJob.exec]
      split <;> exact Fence.each_checked rfl
    · cases op <;> simp only [Job.exec, Machine.perform, Machine.performOwned, DeviceLaneOp.exec] <;> split <;>
        exact Fence.each_checked rfl
  · refine Fence.each_exposed fun j member => ?_
    cases lists : j.lists with
    | false => exact lists
    | true =>
        rcases lists_source (leads_exec m t job j member) lists with firm | other
        · rw [kind] at firm
          cases firm
        · exact absurd other source

theorem lists_firm (m : Machine) (t : ThreadId) (job : Job) (firm : Fence.lists.brittle job = false) (closed : job.opening = false) :
    ∀ j ∈ (job.exec m t).2, Fence.lists.brittle j = false := by
  cases job with
  | log => cases closed
  | acquire | release | answer | resume => exact fun _ none => by cases none
  | registry job =>
      cases job with
      | store => exact fun _ none => by cases none
      | _ => cases firm
  | deviceLane job =>
      cases job with
      | enqueue callback =>
          simp only [Job.exec, DeviceLaneJob.exec]
          split <;> exact fun j member => by
            simp only [List.mem_cons, List.not_mem_nil, or_false] at member
            rcases member with rfl | rfl | rfl <;> rfl
      | push | discard => exact fun _ none => by cases none
      | _ => cases firm
  | participant job =>
      cases job with
      | deliver => cases closed
      | delivered d => exact List.forall_mem_singleton.mpr rfl
      | _ => cases firm
  | hub job =>
      cases job with
      | publishList =>
          simp only [Job.exec, HubJob.exec]
          split <;> exact List.forall_mem_singleton.mpr rfl
      | publishAggregate =>
          exact fun j member => by
            simp only [Job.exec, HubJob.exec, Plan.enqueueDevice, List.mem_cons, List.not_mem_nil, or_false] at member
            rcases member with rfl | rfl | rfl <;> rfl
      | _ => cases firm
  | _ => cases firm

theorem lists_sound : Fence.lists.Sound where
  panic := rfl
  fresh := by
    intro config u agenda fresh
    cases fresh <;> exact Fence.each_checked rfl
  caught := by
    intro d
    simp only [ParticipantJob.afterPanic, List.forall_mem_cons]
    exact .inl ⟨rfl, rfl, fun _ member => by cases member⟩
  next := by
    intro m t job
    cases kind : Fence.lists.brittle job with
    | true =>
      simp only [if_true]
      exact lists_brittle m t job kind
    | false =>
      simp only [Bool.false_eq_true, if_false]
      cases opening : job.opening with
      | true =>
          cases job with
          | log record => exact lists_open.next_log record
          | participant job =>
              cases job with
              | deliver d => exact lists_open.next_deliver d
              | call => cases kind
              | _ => cases opening
          | _ => cases opening
      | false =>
          refine each_of_forall fun j member rest brittle => ?_
          rw [lists_firm m t job kind opening j member] at brittle
          cases brittle

def Job.list? : Job → Option (List DeviceInfo)
  | .deviceLane (.enqueue callback) | .deviceLane (.push callback) => callback.list?
  | _ => none

theorem list_guards (list : job.list? = some infos) : publishGate.guards job = 1 := by
  cases job with
  | deviceLane job =>
      cases job with
      | enqueue callback | push callback => cases callback <;> first | rfl | cases list
      | _ => cases list
  | _ => cases list

theorem list_next (m : Machine) (t : ThreadId) (job : Job) (managed : ∀ op, job = .perform op → op.managed = true) {j : Job}
    (member : j ∈ (job.exec m t).2) (list : j.list? = some infos) :
    (job = .hub .publishAggregate ∧ infos = m.hub.registry.aggregate) ∨ job.list? = some infos := by
  have leads := leads_exec m t job j member
  cases j with
  | deviceLane j =>
      cases j with
      | enqueue callback =>
          rcases enqueue_origin leads with rfl | ⟨d, c, rfl⟩ | ⟨d, c, rfl⟩ | ⟨op, rfl⟩
          · simp [Job.exec, HubJob.exec, Plan.enqueueDevice, Job.logHub] at member
            subst member
            exact .inl ⟨rfl, (Option.some.inj list).symm⟩
          · simp only [Job.exec, HubJob.exec, Plan.enqueueDevice] at member
            split at member <;> simp [Job.logHub] at member <;> subst member <;> cases list
          · simp only [Job.exec, HubJob.exec, Plan.enqueueDevice] at member
            split at member <;> simp at member
            subst member
            cases list
          · cases managed _ rfl
      | push callback =>
          obtain ⟨other, rfl⟩ := devicePush_origin leads
          simp only [Job.exec, DeviceLaneJob.exec] at member
          split at member <;> simp [Job.logDeviceLane] at member
          exact .inr (member ▸ list)
      | _ => cases list
  | _ => cases list

theorem Run.unlisted (run : Run config hooks past m) (managed : ∀ x ∈ past, x.managed) (agenda : m.agenda t = job :: later)
    (updates : Moment.updates ⟨m, t, job, later⟩ = true) {j : Job} (member : j ∈ m.agenda u) (behind : u = t → j ∈ later) :
    j.list? = none := by
  cases list : j.list? with
  | none => rfl
  | some infos =>
      have kept := publishGate_sound.run run managed
      have here := weight_mem (f := publishGate.guards) member
      rw [list_guards list] at here
      cases job with
      | registry job =>
          cases job with
          | withdraw id errand =>
              cases errand with
              | hub =>
                  obtain ⟨mine, others⟩ := kept.owing agenda Nat.one_pos rfl
                  by_cases self : u = t
                  · have one := weight_mem (f := publishGate.guards) (behind self)
                    rw [list_guards list] at one
                    omega
                  · have none := others u self
                    omega
              | alone | shutdown => cases updates
          | store id devices =>
              -- The list that has just been set comes first; it is published on the same lock.
              have follows := run.follows managed t
              rw [agenda] at follows
              obtain ⟨more, rfl⟩ := follows.1.listed id devices rfl
              have once := kept.once t
              have own : weight publishGate.guards (m.agenda t) = 1 + weight publishGate.guards more := by
                rw [agenda]
                simp [publishGate]
              by_cases self : u = t
              · rcases List.mem_cons.mp (behind self) with rfl | rest
                · cases list
                · rcases List.mem_cons.mp rest with rfl | rest
                  · cases list
                  · have two := weight_mem (f := publishGate.guards) rest
                    rw [list_guards list] at two
                    omega
              · have none := kept.apart (Ne.symm self) (by omega)
                omega
          | _ => cases updates
      | _ => cases updates

theorem fresh_unlisted {agenda : List Job} (fresh : Fresh config u agenda) {j : Job} (member : j ∈ agenda) : j.list? = none := by
  cases list : j.list? with
  | none => rfl
  | some infos =>
      have plain := (publishGate_sound.fresh _ _ _ fresh j member).2.2
      rw [list_guards list] at plain
      cases plain

def Current (m : Machine) : Prop := ∀ u, ∀ j ∈ m.agenda u, ∀ infos, j.list? = some infos → infos = m.hub.registry.aggregate

theorem Current.nothing (none : ∀ u, ∀ j ∈ m.agenda u, j.list? = none) : Current m := by
  intro u j member infos list
  rw [none u j member] at list
  cases list

theorem Current.moved {m' : Machine} (current : Current m) (registry : m'.hub.registry = m.hub.registry)
    (moves : ∀ u, m'.agenda u = m.agenda u ∨ (m.agenda u = [] ∧ Fresh config u (m'.agenda u))) : Current m' := by
  intro u j member infos list
  rw [registry]
  rcases moves u with same | ⟨_, fresh⟩
  · exact current u j (same ▸ member) infos list
  · rw [fresh_unlisted fresh member] at list
    cases list

theorem Run.current (run : Run config hooks past m) (managed : ∀ x ∈ past, x.managed) : m.hub.terminating = false → Current m := by
  refine Run.induct_all (G := Moment.managed) (P := fun _ m => m.hub.terminating = false → Current m)
    ?construct ?assemble ?call ?client ?carry ?unwind run managed
  case construct => exact fun _ => .nothing fun u => initial_begins (fun _ _ fresh _ => fresh_unlisted fresh) hooks .construction u
  case assemble => exact fun _ => .nothing fun u => initial_begins (fun _ _ fresh _ => fresh_unlisted fresh) hooks .assembly u
  case call =>
    intro past m op _ before idle running
    exact (before running).moved rfl (call_fresh config idle op)
  case client =>
    intro past m name op _ before running
    exact (before running).moved rfl (client_fresh config m name op)
  case carry =>
    intro past m t job later run before agenda _ _ old now running
    have ran := running_before running
    have pending : job ∈ m.agenda t := agenda ▸ List.mem_cons_self ..
    have still (plain : Moment.updates ⟨m, t, job, later⟩ = false) :
        (m.carry t job later).hub.registry.aggregate = m.hub.registry.aggregate :=
      aggregate_exec (fun id errand same => run.hub_withdraws old ran t id (same ▸ pending)) plain
    intro u j member infos list
    rcases run.carried agenda member with ⟨rfl, next⟩ | ⟨earlier, behind⟩ | ⟨jobs, fresh, begins⟩
    · rcases list_next m u job now next list with ⟨rfl, same⟩ | same
      · rw [still rfl, same]
      · have quiet : Moment.updates ⟨m, u, job, later⟩ = false := by
          cases job with
          | registry => cases same
          | _ => rfl
        rw [still quiet]
        exact before ran u job pending infos same
    · cases updates : Moment.updates ⟨m, t, job, later⟩ with
      | true =>
          rw [run.unlisted old agenda updates earlier behind] at list
          cases list
      | false =>
          rw [still updates]
          exact before ran u j earlier infos list
    · rw [fresh_unlisted fresh begins] at list
      cases list
  case unwind =>
    intro past m t later run before agenda _ _ running u j member infos list
    rw [registry_unwind]
    rcases run.agenda_unwound agenda u with trails | ⟨_, same⟩
    · have plain := (publishGate_sound.trails j (trails j member)).2.2
      rw [list_guards list] at plain
      cases plain
    · rw [same] at member
      exact before (terminating_unwind.symm.trans running) u j member infos list

def storing : Job → Nat
  | .registry (.store ..) => 1
  | _ => 0

theorem inner_storing : Inner storing := ⟨fun _ _ _ fresh => by cases fresh <;> rfl, rfl, fun _ => rfl⟩

theorem inner_publishing : Inner publishGate.guards := ⟨fun _ _ _ fresh => by cases fresh <;> rfl, rfl, fun _ => rfl⟩

theorem storing_source {j : Job} (leads : job.leads j = true) (here : storing j ≠ 0) :
    ∃ id devices errand, job = .registry (.replace id devices errand) := by
  cases j with
  | registry j =>
      cases j with
      | store => exact store_origin leads
      | _ => exact absurd rfl here
  | _ => exact absurd rfl here

theorem publishing_source {j : Job} (leads : job.leads j = true) (here : publishGate.guards j ≠ 0) : (∃ j, job = .registry j) ∨
    (∃ j, job = .hub j) ∨ (∃ callback, job = .deviceLane (.enqueue callback)) ∨ ∃ op, job = .perform (.deviceLane op) := by
  cases j with
  | hub j | deviceLane j =>
      cases j <;> first
        | exact absurd rfl here
        | (dsimp only [Job.leads] at leads
           split at leads <;> first
             | exact .inl ⟨_, rfl⟩
             | exact .inr (.inl ⟨_, rfl⟩)
             | exact .inr (.inr (.inl ⟨_, rfl⟩))
             | exact .inr (.inr (.inr ⟨_, rfl⟩))
             | cases leads)
  | _ => exact absurd rfl here

theorem weight_stopWithdrawn (id : AdapterId) (w : Registry.Withdrawal) :
    weight publishGate.guards (Plan.stopWithdrawn id w) = 0 ∧ weight storing (Plan.stopWithdrawn id w) = 0 := by
  unfold Plan.stopWithdrawn
  split <;> exact ⟨rfl, rfl⟩

theorem listing_withdraw (m : Machine) (t : ThreadId) (id : AdapterId) (later : List Job) :
    weight publishGate.guards (Job.exec m t (.registry (.withdraw id .hub))).2 + 0 + 0 =
      0 + weight storing (Job.exec m t (.registry (.withdraw id .hub))).2 +
        if Moment.updates ⟨m, t, .registry (.withdraw id .hub), later⟩ then 1 else 0 := by
  have released : (m.hub.registry.unregister id).1.map (·.released) = (m.hub.registry.find? id).map (·.devices.length) := by
    simp [Registry.unregister, Function.comp_def]
  have updates : Moment.updates ⟨m, t, .registry (.withdraw id .hub), later⟩ =
      (m.hub.registry.find? id).any fun e => !e.devices.isEmpty := rfl
  rw [updates]
  simp only [Job.exec, RegistryJob.exec]
  split
  · rename_i w registry left
    rw [left] at released
    cases found : m.hub.registry.find? id with
    | none =>
        rw [found] at released
        cases released
    | some e =>
        rw [found] at released
        have same : w.released = e.devices.length := Option.some.inj released
        simp only [RegistryJob.afterWithdrawal, same, Option.any_some, weight_append, weight_stopWithdrawn]
        by_cases listing : e.devices = [] <;>
          simp [listing, List.length_pos_iff, publishGate, storing, Job.logRegistry, Job.mention]
  · rename_i left
    rw [left] at released
    cases found : m.hub.registry.find? id with
    | none => rfl
    | some e =>
        rw [found] at released
        cases released

theorem listing_hub (m : Machine) (t : ThreadId) (job : HubJob) (later : List Job) (running : m.hub.terminating = false) :
    weight publishGate.guards ((Job.hub job).exec m t).2 + storing (.hub job) +
      ((Job.hub job).queues.filterMap DeviceCallback.list?).length =
      publishGate.guards (.hub job) + weight storing ((Job.hub job).exec m t).2 +
        if Moment.updates ⟨m, t, .hub job, later⟩ then 1 else 0 := by
  have stores : weight storing ((Job.hub job).exec m t).2 = 0 :=
    weight_next_apart storing_source m t (.hub job) (by rintro ⟨_, _, _, ⟨⟩⟩)
  by_cases publishes : job = .publishList ∨ job = .publishAggregate
  · rcases publishes with rfl | rfl
    · simp only [Job.exec, HubJob.exec, running]
      rfl
    · rfl
  · have none : weight publishGate.guards ((Job.hub job).exec m t).2 = 0 := by
      refine weight_zero fun j member => Classical.byContradiction fun here => ?_
      have leads := leads_exec m t (.hub job) j member
      have lists : j.list? = .none := by
        cases list : j.list? with
        | none => rfl
        | some infos =>
            rcases list_next m t (.hub job) (fun _ none => by cases none) member list with ⟨same, _⟩ | none
            · cases same
              exact absurd (.inr rfl) publishes
            · cases none
      cases j with
      | hub j =>
          cases j with
          | publishList => cases leads
          | publishAggregate => cases job <;> first | exact publishes (.inl rfl) | cases leads
          | _ => exact here rfl
      | deviceLane j =>
          cases j with
          | enqueue callback | push callback => cases callback <;> first | exact here rfl | cases lists
          | _ => exact here rfl
      | _ => exact here rfl
    have idle : publishGate.guards (.hub job) = 0 := by
      cases job <;> first | rfl | exact absurd (.inl rfl) publishes | exact absurd (.inr rfl) publishes
    rw [none, stores, idle]
    rfl

theorem listing_exec (m : Machine) (t : ThreadId) (job : Job) (later : List Job)
    (managed : ∀ op, job = .perform op → op.managed = true) (follows : job.Follows later)
    (withdraws : ∀ id errand, job = .registry (.withdraw id errand) → errand = .hub) (running : m.hub.terminating = false) :
    weight publishGate.guards (job.exec m t).2 + storing job + (job.queues.filterMap DeviceCallback.list?).length =
      publishGate.guards job + weight storing (job.exec m t).2 + if Moment.updates ⟨m, t, job, later⟩ then 1 else 0 := by
  by_cases source : (∃ j, job = .registry j) ∨ (∃ j, job = .hub j) ∨ (∃ callback, job = .deviceLane (.enqueue callback)) ∨
      ∃ op, job = .perform (.deviceLane op)
  · rcases source with ⟨job, rfl⟩ | ⟨job, rfl⟩ | ⟨callback, rfl⟩ | ⟨op, rfl⟩
    · cases job with
      | reserve deviceType adapter errand => cases errand <;> rfl
      | enrol | store => rfl
      | replace id devices errand =>
          cases follows.hired id devices errand rfl
          simp only [Job.exec, RegistryJob.exec]
          split <;> rfl
      | withdraw id errand =>
          cases withdraws id errand rfl
          exact listing_withdraw m t id later
    · exact listing_hub m t job later running
    · simp only [Job.exec, DeviceLaneJob.exec, running, Bool.false_eq_true, if_false]
      cases callback <;> rfl
    · cases managed _ rfl
  · have none : weight publishGate.guards (job.exec m t).2 = 0 := weight_next_apart publishing_source m t job source
    have stores : weight storing (job.exec m t).2 = 0 := by
      refine weight_next_apart storing_source m t job fun stores => ?_
      obtain ⟨_, _, _, same⟩ := stores
      exact source (.inl ⟨_, same⟩)
    rw [none, stores]
    cases job with
    | registry j => exact absurd (.inl ⟨j, rfl⟩) source
    | hub j => exact absurd (.inr (.inl ⟨j, rfl⟩)) source
    | deviceLane j =>
        cases j with
        | push callback => cases callback <;> rfl
        | enqueue callback => exact absurd (.inr (.inr (.inl ⟨callback, rfl⟩))) source
        | _ => rfl
    | _ => rfl

-- Nobody is between an update and its publication.
def Machine.unlisting (m : Machine) : Prop := ∀ u, ∀ job ∈ m.agenda u, job.lists = false

theorem unlisted_weights (loose : job.lists = false) : publishGate.guards job = 0 ∧ storing job = 0 := by
  cases job with
  | registry job | hub job | deviceLane job => cases job <;> first | exact ⟨rfl, rfl⟩ | cases loose
  | _ => exact ⟨rfl, rfl⟩

theorem Run.listing_bounds (run : Run config hooks past m) (managed : ∀ x ∈ past, x.managed) :
    m.load storing ≤ m.load publishGate.guards ∧ m.load publishGate.guards ≤ 1 := by
  refine ⟨?_, (publishGate_sound.run run managed).load⟩
  by_cases pending : ∃ u job, job ∈ m.agenda u ∧ storing job ≠ 0
  · obtain ⟨u, job, member, stores⟩ := pending
    have kept := registryGate_sound.ever (fun _ => rfl) run
    have below : ∀ agenda, weight storing agenda ≤ weight registryGate.guards agenda := weight_le fun job => by
      cases job with
      | registry job => cases job <;> first | exact Nat.zero_le _ | exact Nat.le_refl 1
      | _ => exact Nat.zero_le _
    have single : m.load storing ≤ 1 := by
      refine load_single (fun u => Nat.le_trans (below _) (kept.once u)) fun t u other here => ?_
      have none := kept.apart other (Nat.lt_of_lt_of_le here (below _))
      have bound := below (m.agenda u)
      omega
    have publishing : 1 ≤ weight publishGate.guards (m.agenda u) := by
      obtain ⟨front, back, whole, follows⟩ := each_mem (run.follows managed u) member
      cases job with
      | registry job =>
          cases job with
          | store id devices =>
              obtain ⟨more, rfl⟩ := follows.listed id devices rfl
              have publishes : (.hub .publishList : Job) ∈ m.agenda u := by simp [whole]
              exact weight_mem (f := publishGate.guards) publishes
          | _ => exact absurd rfl stores
      | _ => exact absurd rfl stores
    have all := load_mem (f := publishGate.guards) (m := m) u
    omega
  · refine Nat.le_trans (Nat.le_of_eq (load_zero fun u job member => ?_)) (Nat.zero_le _)
    exact Classical.byContradiction fun stores => pending ⟨u, job, member, stores⟩

theorem queues_list (job : Job) : job.queues.filterMap DeviceCallback.list? = [] ∨
    ∃ infos, job.queues.filterMap DeviceCallback.list? = [infos] ∧ job.list? = some infos := by
  cases job with
  | deviceLane job =>
      cases job with
      | push callback => cases callback <;> first | exact .inl rfl | exact .inr ⟨_, rfl, rfl⟩
      | _ => exact .inl rfl
  | _ => exact .inl rfl

theorem Run.lists_stay (run : Run config hooks past m) (agenda : m.agenda t = .panic :: later)
    (hooked : Moment.hookSafe ⟨m, t, .panic, later⟩) : ∀ job ∈ cut later, job.lists = false :=
  lists_sound.dropped run agenda (unmarked_cut hooked)

theorem Run.lists_queued (run : Run config hooks past m) (safe : ∀ x ∈ past, x.managed ∧ x.hookSafe) : m.hub.terminating = false →
    updatedLists past = publishedLists past ++
      if m.load storing = m.load publishGate.guards then [] else [m.hub.registry.aggregate] := by
  refine Run.induct_all (G := fun x => x.managed ∧ x.hookSafe) (P := fun past m => m.hub.terminating = false →
      updatedLists past = publishedLists past ++
        if m.load storing = m.load publishGate.guards then [] else [m.hub.registry.aggregate])
    ?construct ?assemble ?call ?client ?carry ?unwind run safe
  case construct =>
    intro system _
    rw [inner_storing.start config hooks _ .construction, inner_publishing.start config hooks _ .construction]
    rfl
  case assemble =>
    intro system _
    rw [inner_storing.start config hooks _ .assembly, inner_publishing.start config hooks _ .assembly]
    rfl
  case call =>
    intro past m op _ before idle running
    rw [inner_storing.beginWith idle, inner_publishing.beginWith idle]
    exact before running
  case client =>
    intro past m name op _ before running
    rw [inner_storing.client, inner_publishing.client]
    exact before running
  case carry =>
    intro past m t job later run before agenda notPanic enabled old now running
    have ran := running_before running
    have managed : ∀ x ∈ past, x.managed := fun x seen => (old x seen).1
    have follows := run.follows managed t
    rw [agenda] at follows
    have withdraws : ∀ id errand, job = .registry (.withdraw id errand) → errand = .hub := fun id errand same =>
      run.hub_withdraws managed ran t id (by rw [agenda, same]; exact List.mem_cons_self ..)
    have law := listing_exec m t job later now.1 follows.1 withdraws ran
    have stores := inner_storing.carry agenda
    have publishes := inner_publishing.carry agenda
    have bounds := run.listing_bounds managed
    have bounds' := (run.step agenda (step_carry agenda notPanic enabled)).listing_bounds
      (List.forall_mem_append.mpr ⟨managed, List.forall_mem_singleton.mpr now.1⟩)
    rw [updatedLists_snoc, publishedLists_snoc, before ran]
    cases updates : Moment.updates ⟨m, t, job, later⟩ with
    | true =>
        have quiet : job.queues = [] := by
          cases job with
          | registry => rfl
          | _ => cases updates
        simp only [updates, quiet, List.filterMap_nil, List.length_nil, if_true] at law
        have none : m.load storing = m.load publishGate.guards := by omega
        have one : ¬ (m.carry t job later).load storing = (m.carry t job later).load publishGate.guards := by omega
        rw [if_pos none, if_neg one, quiet]
        simp [Moment.aggregate, hub_carry]
    | false =>
        have still : (m.carry t job later).hub.registry.aggregate = m.hub.registry.aggregate :=
          aggregate_exec withdraws updates
        rw [still]
        rcases queues_list job with none | ⟨infos, some, list⟩
        · simp only [updates, none, List.length_nil, Bool.false_eq_true, if_false] at law
          have same : ((m.carry t job later).load storing = (m.carry t job later).load publishGate.guards) ↔
              m.load storing = m.load publishGate.guards := by omega
          simp only [none, same, List.append_nil, Bool.false_eq_true, if_false]
        · have current := run.current managed ran t job (agenda ▸ List.mem_cons_self ..) infos list
          simp only [updates, some, List.length_singleton, Bool.false_eq_true, if_false] at law
          have one : ¬ m.load storing = m.load publishGate.guards := by omega
          have none : (m.carry t job later).load storing = (m.carry t job later).load publishGate.guards := by omega
          rw [if_neg one, if_pos none, some, current]
          simp
  case unwind =>
    intro past m t later run before agenda old now running
    have dropped := run.lists_stay agenda now.2
    have stores := inner_storing.unwind agenda
    have publishes := inner_publishing.unwind agenda
    rw [weight_zero fun job member => (unlisted_weights (dropped job member)).2, Nat.add_zero] at stores
    rw [weight_zero fun job member => (unlisted_weights (dropped job member)).1, Nat.add_zero] at publishes
    have quiet : Moment.updates ⟨m, t, .panic, later⟩ = false := rfl
    rw [updatedLists_snoc, publishedLists_snoc, stores, publishes, registry_unwind, quiet,
      before (terminating_unwind.symm.trans running)]
    simp [Job.queues]

def Moment.accepted? (x : Moment) : Option (AdapterId × List DiscoveredDevice) :=
  match x.job with
  | .registry (.replace id devices _) => if (x.machine.hub.registry.find? id).isSome then some (id, devices) else none
  | _ => none

def Moment.stored? (x : Moment) : Option (AdapterId × List DiscoveredDevice) :=
  match x.job with
  | .registry (.store id devices) => some (id, devices)
  | _ => none

def acceptedReports (past : List Moment) : List (AdapterId × List DiscoveredDevice) := past.filterMap Moment.accepted?

def storedReports (past : List Moment) : List (AdapterId × List DiscoveredDevice) := past.filterMap Moment.stored?

theorem acceptedReports_snoc : acceptedReports (past ++ [x]) = acceptedReports past ++ x.accepted?.toList := by
  rw [acceptedReports, List.filterMap_append]
  cases here : x.accepted? <;> simp [acceptedReports, here]

theorem storedReports_snoc : storedReports (past ++ [x]) = storedReports past ++ x.stored?.toList := by
  rw [storedReports, List.filterMap_append]
  cases here : x.stored? <;> simp [storedReports, here]

-- The lists of the reports are set in the order of the reports; the last one may be about to be set.
structure Stored (past : List Moment) (m : Machine) : Prop where
  pending : ∀ u id devices, .registry (.store id devices) ∈ m.agenda u → acceptedReports past = storedReports past ++ [(id, devices)]
  idle : (∀ u id devices, .registry (.store id devices) ∉ m.agenda u) → acceptedReports past = storedReports past

theorem fresh_unstoring (u : ThreadId) (agenda : List Job) (fresh : Fresh config u agenda) : ∀ job ∈ agenda, storing job = 0 :=
  fun _ member => Nat.le_zero.mp (inner_storing.fresh _ _ _ fresh ▸ weight_mem member)

theorem fresh_unstored {agenda : List Job} (fresh : Fresh config u agenda) : .registry (.store id devices) ∉ agenda :=
  fun member => by
  cases fresh_unstoring u agenda fresh _ member

theorem unstoring {agenda : List Job} (free : weight registryGate.guards agenda = 0) : .registry (.store id devices) ∉ agenda := by
  intro member
  have one : 1 ≤ weight registryGate.guards agenda := weight_mem (f := registryGate.guards) member
  omega

theorem Stored.nothing (none : ∀ u, ∀ job ∈ m.agenda u, storing job = 0) : Stored [] m :=
  ⟨fun u _ _ member => (by cases none u _ member), fun _ => rfl⟩

theorem Stored.moved {m' : Machine} (stored : Stored past m)
    (moves : ∀ u, m'.agenda u = m.agenda u ∨ (m.agenda u = [] ∧ Fresh config u (m'.agenda u))) : Stored past m' := by
  constructor
  · intro u id devices member
    rcases moves u with same | ⟨_, fresh⟩
    · exact stored.pending u id devices (same ▸ member)
    · exact absurd member (fresh_unstored fresh)
  · intro none
    refine stored.idle fun u id devices member => ?_
    rcases moves u with same | ⟨empty, _⟩
    · exact none u id devices (same ▸ member)
    · rw [empty] at member
      cases member

theorem Stored.aside (stored : Stored past m) (run : Run config hooks past m) (agenda : m.agenda t = job :: later)
    (accepts : Moment.accepted? ⟨m, t, job, later⟩ = none) (stores : ∀ id devices, job ≠ .registry (.store id devices)) :
    Stored (past ++ [⟨m, t, job, later⟩]) (m.carry t job later) := by
  have quiet : Moment.stored? ⟨m, t, job, later⟩ = none := by
    cases job with
    | registry job => cases job <;> first | rfl | exact absurd rfl (stores _ _)
    | _ => rfl
  constructor
  · intro u id devices member
    rw [acceptedReports_snoc, storedReports_snoc, accepts, quiet]
    simp only [Option.toList_none, List.append_nil]
    rcases run.carried agenda member with ⟨_, next⟩ | ⟨old, _⟩ | ⟨_, fresh, begins⟩
    · obtain ⟨i, given, errand, rfl⟩ := storing_source (leads_exec m t job _ next) (by exact Nat.one_ne_zero)
      simp only [Job.exec, RegistryJob.exec] at next
      split at next
      · rename_i found
        simp only [Moment.accepted?, found] at accepts
        cases accepts
      · cases errand <;> simp [RegistryJob.afterReplacement, Job.logRegistry] at next
    · exact stored.pending u id devices old
    · exact absurd begins (fresh_unstored fresh)
  · intro none
    rw [acceptedReports_snoc, storedReports_snoc, accepts, quiet]
    simp only [Option.toList_none, List.append_nil]
    refine stored.idle fun u id devices member => ?_
    by_cases mine : u = t
    · subst mine
      rw [agenda] at member
      refine none u id devices ?_
      rw [agenda_carry_self agenda]
      exact List.mem_append_right _ ((List.mem_cons.mp member).resolve_left fun same => stores _ _ same.symm)
    · rcases run.carry_fresh job later mine with same | ⟨empty, _⟩
      · exact none u id devices (same ▸ member)
      · rw [empty] at member
        cases member

theorem Stored.accept (stored : Stored past m) (run : Run config hooks past m) {errand : Errand} {e : Registry.Entry}
    (agenda : m.agenda t = .registry (.replace id devices errand) :: later) (found : m.hub.registry.find? id = some e) :
    Stored (past ++ [⟨m, t, .registry (.replace id devices errand), later⟩])
      (m.carry t (.registry (.replace id devices errand)) later) := by
  have accepts : Moment.accepted? ⟨m, t, .registry (.replace id devices errand), later⟩ = some (id, devices) := by
    simp only [Moment.accepted?, found]
    rfl
  have next : .registry (.store id devices) ∈ (Job.exec m t (.registry (.replace id devices errand))).2 := by
    simp [Job.exec, RegistryJob.exec, found]
  -- The registry is held for this report, so no list is about to be set.
  obtain ⟨mine, others⟩ := (registryGate_sound.ever (fun _ => rfl) run).owing agenda Nat.one_pos rfl
  have before : acceptedReports past = storedReports past := stored.idle fun u i given member => by
    by_cases self : u = t
    · subst self
      rw [agenda] at member
      exact unstoring mine ((List.mem_cons.mp member).resolve_left fun none => by cases none)
    · exact unstoring (others u self) member
  constructor
  · intro u i given member
    rw [acceptedReports_snoc, storedReports_snoc, accepts, before]
    rcases run.carried agenda member with ⟨_, new⟩ | ⟨old, behind⟩ | ⟨_, fresh, begins⟩
    · have same : i = id ∧ given = devices := by
        simp only [Job.exec, RegistryJob.exec, found, List.mem_append, List.mem_cons, List.not_mem_nil, or_false] at new
        rcases new with (none | same | none) | none
        · cases none
        · cases same
          exact ⟨rfl, rfl⟩
        · cases none
        · cases errand <;> simp [RegistryJob.afterReplacement] at none
      rw [same.1, same.2]
      exact congrArg (· ++ [(id, devices)]) (List.append_nil _).symm
    · by_cases self : u = t
      · exact absurd (behind self) (unstoring mine)
      · exact absurd old (unstoring (others u self))
    · exact absurd begins (fresh_unstored fresh)
  · intro none
    refine absurd ?_ (none t id devices)
    rw [agenda_carry_self agenda]
    exact List.mem_append_left _ next

theorem Stored.store (stored : Stored past m) (run : Run config hooks past m)
    (agenda : m.agenda t = .registry (.store id devices) :: later) :
    Stored (past ++ [⟨m, t, .registry (.store id devices), later⟩]) (m.carry t (.registry (.store id devices)) later) := by
  have before := stored.pending t id devices (agenda ▸ List.mem_cons_self ..)
  obtain ⟨mine, others⟩ := (registryGate_sound.ever (fun _ => rfl) run).guarding agenda Nat.one_pos
  constructor
  · intro u i given member
    rcases run.carried agenda member with ⟨_, none⟩ | ⟨old, behind⟩ | ⟨_, fresh, begins⟩
    · cases none
    · by_cases self : u = t
      · exact absurd (behind self) (unstoring mine)
      · exact absurd old (unstoring (others u self))
    · exact absurd begins (fresh_unstored fresh)
  · intro _
    rw [acceptedReports_snoc, storedReports_snoc, before]
    exact List.append_nil _

theorem Run.stored (run : Run config hooks past m) (hooked : ∀ x ∈ past, x.hookSafe) : Stored past m := by
  refine Run.induct (G := Moment.hookSafe) (P := Stored) ?construct ?assemble ?call ?client ?carry ?unwind run hooked
  case construct => exact .nothing fun u => initial_begins fresh_unstoring hooks .construction u
  case assemble => exact .nothing fun u => initial_begins fresh_unstoring hooks .assembly u
  case call =>
    intro past m op _ before idle
    exact before.moved (call_fresh config idle op)
  case client =>
    intro past m name op _ before
    exact before.moved (client_fresh config m name op)
  case carry =>
    intro past m t job later run before agenda _ _ _
    by_cases stores : ∃ id devices, job = .registry (.store id devices)
    · obtain ⟨id, devices, rfl⟩ := stores
      exact before.store run agenda
    · cases accepts : Moment.accepted? ⟨m, t, job, later⟩ with
      | none => exact before.aside run agenda accepts fun id devices same => stores ⟨id, devices, same⟩
      | some report =>
          cases job with
          | registry job =>
              cases job with
              | replace id devices errand =>
                  cases found : m.hub.registry.find? id with
                  | some e => exact before.accept run agenda found
                  | none =>
                      simp only [Moment.accepted?, found] at accepts
                      cases accepts
              | _ => cases accepts
          | _ => cases accepts
  case unwind =>
    intro past m t later run before agenda hooked
    have accepted : acceptedReports (past ++ [⟨m, t, .panic, later⟩]) = acceptedReports past :=
      acceptedReports_snoc.trans (List.append_nil _)
    have stored : storedReports (past ++ [⟨m, t, .panic, later⟩]) = storedReports past :=
      storedReports_snoc.trans (List.append_nil _)
    constructor
    · intro u id devices member
      rw [accepted, stored]
      exact before.pending u id devices (run.outlived agenda rfl member).2
    · intro none
      rw [accepted, stored]
      refine before.idle fun u id devices member => ?_
      by_cases mine : u = t
      · subst mine
        rw [agenda] at member
        refine none u id devices ?_
        rw [agenda_unwind_self agenda]
        refine mem_kept ((List.mem_cons.mp member).resolve_left fun none => by cases none) (fun inside => ?_)
          fun d none => by cases none
        cases run.lists_stay agenda hooked _ inside
      · refine none u id devices ?_
        rw [agenda_unwind_other mine]
        exact member

-- The lists that are queued for the listeners follow what the adapters list.
structure ListsPublished (past : List Moment) (m : Machine) : Prop where
  latest : (updatedLists past).getLastD [] = m.hub.registry.aggregate
  late : updatedLists past = publishedLists past ∨ updatedLists past = publishedLists past ++ [m.hub.registry.aggregate]
  inOrder : m.unlisting → publishedLists past = updatedLists past
  last : m.unlisting → (publishedLists past).getLastD [] = m.hub.registry.aggregate
  reported : m.unlisting → storedReports past = acceptedReports past

theorem lists_published (run : Run config hooks past m) (managed : ∀ x ∈ past, x.managed) (hooked : ∀ x ∈ past, x.hookSafe)
    (running : m.hub.terminating = false) : ListsPublished past m := by
  have latest := run.last_update managed running
  have published := run.lists_queued (fun x seen => ⟨managed x seen, hooked x seen⟩) running
  have settled (unlisting : m.unlisting) : publishedLists past = updatedLists past := by
    have stores : m.load storing = 0 := load_zero fun u job member => (unlisted_weights (unlisting u job member)).2
    have publishes : m.load publishGate.guards = 0 := load_zero fun u job member => (unlisted_weights (unlisting u job member)).1
    rw [published, stores, publishes]
    exact (List.append_nil _).symm
  refine ⟨latest, ?_, settled, fun unlisting => settled unlisting ▸ latest, fun unlisting => ?_⟩
  · rw [published]
    split
    · exact .inl (List.append_nil _)
    · exact .inr rfl
  · refine ((run.stored hooked).idle fun u id devices member => ?_).symm
    cases unlisting u _ member

-- Two adapters report and are taken out again; what one reports after that is refused.
def listedSession : List Moment × Machine :=
  solo quietConfig [] [.removeAdapter ⟨1⟩, .report ⟨2⟩ (.listUpdated [phone 9]), .removeAdapter ⟨2⟩,
    .report ⟨2⟩ (.listUpdated [phone 8]), .report ⟨1⟩ (.listUpdated [phone 7]), .addAdapter (.named "b"), .addAdapter (.named "a")]

theorem lists_of_two : ListsPublished listedSession.1 listedSession.2 ∧
    (∀ x ∈ listedSession.1, x.managed ∧ x.hookSafe) ∧ listedSession.2.hub.terminating = false ∧
    listedSession.2.agendas.all List.isEmpty = true ∧
    publishedLists listedSession.1 = [[phone 7], [phone 7, phone 8], [phone 7], []].map (·.map (·.tagged "")) ∧
    acceptedReports listedSession.1 = [(⟨1⟩, [phone 7]), (⟨2⟩, [phone 8])] := by
  refine ⟨lists_published (solo_run _ _ _) ?_ ?_ ?_, ?_⟩
  all_goals decide +kernel

def hookAtList : Hook := { start := "[transport-manager] device list updated", ops := [.panic] }

-- A list is reported, and a panic comes out of a log hook before it is queued.
def untoldSession : List Moment × Machine :=
  solo quietConfig [hookAtList] [.report ⟨1⟩ (.listUpdated [phone 7]), .addAdapter (.named "a")]

theorem list_unpublished : Run quietConfig [hookAtList] untoldSession.1 untoldSession.2 ∧
    (∀ x ∈ untoldSession.1, x.managed ∧ x.adapterSafe) ∧ untoldSession.2.hub.terminating = false ∧
    untoldSession.2.agendas.all List.isEmpty = true ∧ acceptedReports untoldSession.1 = [(⟨1⟩, [phone 7])] ∧
    (updatedLists untoldSession.1).length = 1 ∧ publishedLists untoldSession.1 = [] ∧
    untoldSession.2.hub.registry.aggregate ≠ [] := by
  refine ⟨solo_run _ _ _, ?_⟩
  decide +kernel

end TransportHub
