import TransportHub.Proofs.Counters
import TransportHub.Proofs.Load
import TransportHub.Proofs.Panic
/-!
The life of an adapter: for every registration, who starts the adapter and who stops it.
-/

set_option autoImplicit false

namespace TransportHub

namespace Registry

def states (r : Registry) (id : AdapterId) : List StartState :=
  (r.entries.filter (·.id = id)).map (·.start)

variable (r : Registry) (id other : AdapterId)

theorem states_eq : r.states id = ((r.entries.map fun e => (e.id, e.start)).filter (·.1 = id)).map (·.2) := by
  simp [states, List.filter_map, Function.comp_def]

theorem states_enrol (deviceType : String) (adapter : AdapterKey) :
    (r.enrol other deviceType adapter).states id = r.states id ++ if other = id then [.idle] else [] := by
  by_cases same : other = id <;> simp [states, enrol, same]

theorem states_unregister : (r.unregister other).2.states id = if other = id then (r.states id).tail else r.states id := by
  simp only [states, unregister]
  induction r.entries with
  | nil => simp
  | cons e rest ih =>
    by_cases there : e.id = other
    · by_cases same : other = id <;> simp [there, same]
    · by_cases same : other = id
      · subst same
        simp_all
      · by_cases here : e.id = id <;> simp_all

theorem states_mark (state : StartState) :
    (r.update other ({ · with start := state })).states id =
      if other = id then (r.states id).modifyHead fun _ => state else r.states id := by
  simp only [states, update]
  induction r.entries with
  | nil => simp [revise]
  | cons e rest ih =>
    by_cases there : e.id = other
    · by_cases same : other = id <;> simp [revise, there, same]
    · by_cases same : other = id
      · subst same
        simp_all [revise]
      · by_cases here : e.id = id <;> simp_all [revise]

theorem states_store (devices : List DiscoveredDevice) :
    (r.replaceDevices other devices).2.states id = r.states id := by
  simp only [states_eq, replaceDevices, update]
  rw [map_revise]
  exact fun _ => rfl

theorem states_beginStartAll : r.beginStartAll.2.states id =
    (r.states id).map fun s => if s = .idle then .starting else s := by
  simp only [states, beginStartAll]
  induction r.entries with
  | nil => rfl
  | cons e rest ih =>
    by_cases here : e.id = id <;> by_cases idle : e.start = .idle <;> simp_all

theorem find?_states : (r.find? id).map (·.start) = (r.states id).head? := by
  simp only [find?, states]
  induction r.entries with
  | nil => rfl
  | cons e rest ih =>
    by_cases here : e.id = id <;> simp_all

theorem states_beginStart : (r.beginStart other).2.states id =
    if other = id ∧ (r.states other).head? = some .idle then (r.states id).modifyHead fun _ => .starting else r.states id := by
  have head := find?_states r other
  unfold beginStart
  cases found : r.find? other with
  | none =>
    rw [found] at head
    simp [← head]
  | some e =>
    rw [found] at head
    by_cases idle : e.start = .idle
    · simp only [if_pos idle]
      rw [states_mark]
      simp [← head, idle]
    · simp only [if_neg idle]
      simp [← head, idle]

end Registry

variable {id : AdapterId} {config : Config} {hooks : List Hook} {system : System} {past : List Moment} {m : Machine}
  {t u : ThreadId} {job : Job} {later : List Job}

namespace Job

variable (id : AdapterId)

def enrols : Job → Nat
  | .registry (.enrol i ..) => if i = id then 1 else 0
  | _ => 0

def starts : Job → Nat
  | .participant (.call i _ .run) => if i = id then 1 else 0
  | _ => 0

def inStart : Job → Nat
  | .participant (.returned i .run) => if i = id then 1 else 0
  | _ => 0

def finishes : Job → Nat
  | .hub (.finishStart i _) => if i = id then 1 else 0
  | _ => 0

def stops : Job → Nat
  | .participant (.call i _ .stop) => if i = id then 1 else 0
  | _ => 0

def claims : Job → Nat
  | .hub (.claimNew i _) => if i = id then 1 else 0
  | .hub .claimAll => 1
  | _ => 0

def manages : Job → Bool
  | .registry job => (job matches .reserve .. | .withdraw ..)
  | .hub job => (job matches .claimNew .. | .claimAll | .finishStart .. | .laneStarted)
  | _ => false

def busy (job : Job) : Nat :=
  job.enrols id + job.starts id + job.finishes id + job.stops id + job.claims id

end Job

theorem busy_source (id : AdapterId) {job j : Job} (leads : job.leads j = true) (here : j.busy id ≠ 0) : job.manages = true := by
  cases j with
  | registry j | hub j =>
      cases j <;> first
        | exact absurd rfl here
        | (dsimp only [Job.leads] at leads; split at leads <;> first | rfl | cases leads)
  | participant j =>
      cases j with
      | call i key call =>
          cases call <;> first
            | exact absurd rfl here
            | (dsimp only [Job.leads] at leads; split at leads <;> first | rfl | cases leads)
      | _ => exact absurd rfl here
  | _ => exact absurd rfl here

theorem inner_busy {f : Job → Nat} (part : ∀ job, f job ≤ job.busy id) : Inner f := by
  have none : ∀ job, job.busy id = 0 → f job = 0 := fun job zero => Nat.le_zero.mp (zero ▸ part job)
  refine ⟨fun config u agenda fresh => weight_zero fun job member => none job ?_, none _ rfl, fun d => ?_⟩
  · cases fresh with
    | construction | deviceWorker | dataWorker =>
        rcases List.mem_cons.mp member with rfl | member
        · rfl
        · cases List.mem_singleton.mp member
          rfl
    | _ =>
        cases List.mem_singleton.mp member
        rfl
  · simp only [ParticipantJob.afterPanic, weight_cons, weight_nil]
    rw [none (.log _) rfl, none (.participant (.deliver _)) rfl, none (.participant (.delivered d)) rfl]

theorem next_apart {f : Job → Nat} (part : ∀ job, f job ≤ job.busy id) (m : Machine) (t : ThreadId) (job : Job)
    (apart : job.manages = false) : weight f (job.exec m t).2 = 0 :=
  weight_next_apart (S := fun job => job.manages = true)
    (fun leads here => busy_source id leads fun none => here (Nat.le_zero.mp (none ▸ part _)))
    m t job fun kind => by rw [apart] at kind; cases kind

theorem enrols_part (id : AdapterId) (job : Job) : job.enrols id ≤ job.busy id := by unfold Job.busy; omega

theorem starts_part (id : AdapterId) (job : Job) : job.starts id ≤ job.busy id := by unfold Job.busy; omega

theorem finishes_part (id : AdapterId) (job : Job) : job.finishes id ≤ job.busy id := by unfold Job.busy; omega

theorem stops_part (id : AdapterId) (job : Job) : job.stops id ≤ job.busy id := by unfold Job.busy; omega

theorem claims_part (id : AdapterId) (job : Job) : job.claims id ≤ job.busy id := by unfold Job.busy; omega

def Registry.unused (r : Registry) (id : AdapterId) : Nat :=
  if id.val = 0 ∨ r.lastId.toNat < id.val then 1 else 0

-- The next id is given to a new registration.
def Job.assigns (m : Machine) (id : AdapterId) : Job → Nat
  | .registry (.reserve ..) => if m.hub.registry.nextId = id then 1 else 0
  | _ => 0

-- Every id is in exactly one place: not used yet, being entered, registered and idle or running, in
-- the hands of whoever starts its adapter, about to be stopped, or stopped. Work that a panic has lost
-- stays where it was lost.
structure Course (id : AdapterId) (past : List Moment) (m : Machine) : Prop where
  assigned : m.hub.registry.unused id + total (fun x => x.job.assigns x.machine id) past = 1
  once : m.hub.registry.unused id + (m.hub.registry.states id).count .idle +
    (m.hub.registry.states id).count .running + due (Job.enrols id) past m + due (Job.finishes id) past m +
    due (Job.stops id) past m + total (fun x => x.job.stops id) past = 1
  claimed : (m.hub.registry.states id).count .starting ≤ due (Job.finishes id) past m
  atLeast : due (Job.finishes id) past m + (m.hub.registry.states id).count .running ≤
    due (Job.starts id) past m + total (fun x => x.job.starts id) past
  atMost : due (Job.starts id) past m + total (fun x => x.job.starts id) past ≤
    due (Job.finishes id) past m + (m.hub.registry.states id).count .running +
    due (Job.stops id) past m + total (fun x => x.job.stops id) past
  promised : m.hub.running = true → 0 < (m.hub.registry.states id).count .idle → 0 < due (Job.claims id) past m

theorem single_states {states : List StartState} {finishes : Nat}
    (once : states.count .idle + states.count .running + finishes ≤ 1) (claimed : states.count .starting ≤ finishes) :
    states = [] ∨ ∃ state, states = [state] := by
  cases states with
  | nil => exact .inl rfl
  | cons first rest =>
      cases rest with
      | nil => exact .inr ⟨first, rfl⟩
      | cons second rest => cases first <;> cases second <;> simp at once claimed <;> omega

theorem Course.single (course : Course id past m) :
    m.hub.registry.states id = [] ∨ ∃ state, m.hub.registry.states id = [state] :=
  single_states (by have once := course.once; omega) course.claimed

structure Turn (id : AdapterId) (m : Machine) (t : ThreadId) (job : Job) (unused : Nat) (states : List StartState)
    (enrols starts finishes stops claims : Nat) : Prop where
  unused : (job.exec m t).1.hub.registry.unused id = unused
  states : (job.exec m t).1.hub.registry.states id = states
  running : (job.exec m t).1.hub.running = true → m.hub.running = true ∨ 0 < claims
  enrols : weight (Job.enrols id) (job.exec m t).2 = enrols
  starts : weight (Job.starts id) (job.exec m t).2 = starts
  finishes : weight (Job.finishes id) (job.exec m t).2 = finishes
  stops : weight (Job.stops id) (job.exec m t).2 = stops
  claims : weight (Job.claims id) (job.exec m t).2 = claims

theorem turn_reserve (id : AdapterId) (m : Machine) (t : ThreadId) (deviceType : String) (adapter : AdapterKey) (errand : Errand)
    (within : m.hub.registry.lastId.toNat + 1 < UInt32.size) :
    (m.hub.registry.nextId = id ∧ m.hub.registry.unused id = 1 ∧
      ∃ claims, Turn id m t (.registry (.reserve deviceType adapter errand)) 0 (m.hub.registry.states id) 1 0 0 0 claims) ∨
    (m.hub.registry.nextId ≠ id ∧ ∃ claims, Turn id m t (.registry (.reserve deviceType adapter errand)) (m.hub.registry.unused id)
      (m.hub.registry.states id) 0 0 0 0 claims) := by
  have last : m.hub.registry.reserve.lastId.toNat = m.hub.registry.lastId.toNat + 1 := Registry.lastId_reserve within
  by_cases next : m.hub.registry.nextId = id
  · have val : id.val = m.hub.registry.lastId.toNat + 1 := next ▸ last
    refine .inl ⟨next, if_pos (.inr (by omega)), _, ?_, rfl, fun running => .inl running, ?_, ?_, ?_, ?_, rfl⟩
    · refine if_neg (show ¬ (id.val = 0 ∨ m.hub.registry.reserve.lastId.toNat < id.val) from ?_)
      omega
    · cases errand <;> simp [Job.exec, RegistryJob.exec, Job.enrols, Job.logRegistry, next]
    · cases errand <;> simp [Job.exec, RegistryJob.exec, Job.starts, Job.logRegistry]
    · cases errand <;> simp [Job.exec, RegistryJob.exec, Job.finishes, Job.logRegistry]
    · cases errand <;> simp [Job.exec, RegistryJob.exec, Job.stops, Job.logRegistry]
  · refine .inr ⟨next, _, ?_, rfl, fun running => .inl running, ?_, ?_, ?_, ?_, rfl⟩
    · have apart : id.val ≠ m.hub.registry.lastId.toNat + 1 := fun same => next (congrArg AdapterId.mk (last.trans same.symm))
      have same : (id.val = 0 ∨ m.hub.registry.lastId.toNat + 1 < id.val) ↔ (id.val = 0 ∨ m.hub.registry.lastId.toNat < id.val) := by
        omega
      simp only [Job.exec, RegistryJob.exec, Registry.unused, Machine.setRegistry, last, same]
    · cases errand <;> simp [Job.exec, RegistryJob.exec, Job.enrols, Job.logRegistry, next]
    · cases errand <;> simp [Job.exec, RegistryJob.exec, Job.starts, Job.logRegistry]
    · cases errand <;> simp [Job.exec, RegistryJob.exec, Job.finishes, Job.logRegistry]
    · cases errand <;> simp [Job.exec, RegistryJob.exec, Job.stops, Job.logRegistry]

theorem turn_apart {unused : Nat} {states : List StartState} (m : Machine) (t : ThreadId) (job : Job)
    (apart : job.manages = false) (same : (job.exec m t).1.hub.registry.unused id = unused)
    (stand : (job.exec m t).1.hub.registry.states id = states)
    (running : (job.exec m t).1.hub.running = true → m.hub.running = true) :
    Turn id m t job unused states 0 0 0 0 0 :=
  ⟨same, stand, fun after => .inl (running after), next_apart (enrols_part id) m t job apart,
    next_apart (starts_part id) m t job apart, next_apart (finishes_part id) m t job apart,
    next_apart (stops_part id) m t job apart, next_apart (claims_part id) m t job apart⟩

@[simp] theorem weight_runAdapter (i : AdapterId) (adapter : AdapterKey) :
    weight (Job.enrols id) (Plan.runAdapter i adapter) = 0 ∧
    weight (Job.starts id) (Plan.runAdapter i adapter) = (if i = id then 1 else 0) ∧
    weight (Job.finishes id) (Plan.runAdapter i adapter) = (if i = id then 1 else 0) ∧
    weight (Job.stops id) (Plan.runAdapter i adapter) = 0 ∧
    weight (Job.claims id) (Plan.runAdapter i adapter) = 0 := by
  simp [Plan.runAdapter, Job.enrols, Job.starts, Job.finishes, Job.stops, Job.claims, Job.mention, Job.call]

theorem weight_afterWithdrawal (id : AdapterId) (m : Machine) (i : AdapterId) (errand : Errand) (hired : errand ≠ .alone)
    (w : Option Registry.Withdrawal) :
    weight (Job.enrols id) (RegistryJob.afterWithdrawal m i errand w) = 0 ∧
    weight (Job.starts id) (RegistryJob.afterWithdrawal m i errand w) = 0 ∧
    weight (Job.finishes id) (RegistryJob.afterWithdrawal m i errand w) = 0 ∧
    weight (Job.stops id) (RegistryJob.afterWithdrawal m i errand w) =
      (if i = id ∧ w.any (!·.starting) then 1 else 0) ∧
    weight (Job.claims id) (RegistryJob.afterWithdrawal m i errand w) = 0 := by
  cases errand with
  | alone => exact absurd rfl hired
  | hub | shutdown =>
      cases w with
      | none =>
          simp [RegistryJob.afterWithdrawal, Job.enrols, Job.starts, Job.finishes, Job.stops, Job.claims]
      | some w =>
          cases starting : w.starting <;> by_cases released : 0 < w.released <;>
            simp [RegistryJob.afterWithdrawal, Plan.stopWithdrawn, released, starting, Job.enrols, Job.starts,
              Job.finishes, Job.stops, Job.claims, Job.mention, Job.call]

theorem turn_withdraw (id : AdapterId) (m : Machine) (t : ThreadId) (i : AdapterId) (errand : Errand) (hired : errand ≠ .alone) :
    Turn id m t (.registry (.withdraw i errand)) (m.hub.registry.unused id)
      (if i = id then (m.hub.registry.states id).tail else m.hub.registry.states id) 0 0 0
      (if i = id ∧ (m.hub.registry.states id).head?.any (· ≠ .starting) then 1 else 0) 0 := by
  have head := Registry.find?_states m.hub.registry i
  have left := Registry.states_unregister m.hub.registry id i
  cases found : m.hub.registry.find? i with
  | none =>
      rw [found] at head
      have gone : i = id → m.hub.registry.states id = [] := by
        intro same
        subst same
        exact List.head?_eq_none_iff.mp head.symm
      have next : (RegistryJob.withdraw i errand).exec m =
          (m, .release .registry :: RegistryJob.afterWithdrawal m i errand none) := by
        simp [RegistryJob.exec, Registry.unregister, found]
      obtain ⟨enrols, starts, finishes, stops, claims⟩ :=
        weight_afterWithdrawal id m i errand hired none
      have calm : ¬ (i = id ∧ (m.hub.registry.states id).head?.any (· ≠ .starting) = true) := by
        rintro ⟨same, busy⟩
        rw [gone same] at busy
        cases busy
      rw [if_neg calm]
      refine ⟨?_, ?_, ?_, ?_, ?_, ?_, ?_, ?_⟩ <;> simp only [Job.exec, next, weight_cons]
      · split
        · rename_i same
          rw [gone same, List.tail_nil]
        · rfl
      · exact .inl
      · rw [enrols]
        rfl
      · rw [starts]
        rfl
      · rw [finishes]
        rfl
      · rw [stops]
        simp [Job.stops]
      · rw [claims]
        rfl
  | some e =>
      rw [found] at head
      have next : (RegistryJob.withdraw i errand).exec m =
          (m.setRegistry (m.hub.registry.unregister i).2,
            [Job.logRegistry (.unregistered i e.deviceType e.devices.length), .release .registry] ++
              RegistryJob.afterWithdrawal m i errand
                (some ⟨e.adapter, e.deviceType, e.devices.length, e.start = .starting⟩)) := by
        simp [RegistryJob.exec, Registry.unregister, found]
      obtain ⟨enrols, starts, finishes, stops, claims⟩ := weight_afterWithdrawal id m i errand hired
        (some ⟨e.adapter, e.deviceType, e.devices.length, e.start = .starting⟩)
      refine ⟨?_, ?_, ?_, ?_, ?_, ?_, ?_, ?_⟩ <;> simp only [Job.exec, next, weight_append, weight_cons, weight_nil]
      · rfl
      · exact left
      · exact .inl
      · rw [enrols]
        rfl
      · rw [starts]
        rfl
      · rw [finishes]
        rfl
      · rw [stops]
        by_cases same : i = id
        · subst same
          simp [← head, Job.stops, Job.logRegistry]
        · simp [same, Job.stops, Job.logRegistry]
      · rw [claims]
        rfl

theorem turn_enrol (id : AdapterId) (m : Machine) (t : ThreadId) (i : AdapterId) (deviceType : String) (adapter : AdapterKey) :
    Turn id m t (.registry (.enrol i deviceType adapter)) (m.hub.registry.unused id)
      (m.hub.registry.states id ++ if i = id then [.idle] else []) 0 0 0 0 0 :=
  turn_apart m t _ rfl rfl (Registry.states_enrol ..) fun running => running

theorem turn_store (m : Machine) (t : ThreadId) (i : AdapterId) (devices : List DiscoveredDevice) :
    Turn id m t (.registry (.store i devices)) (m.hub.registry.unused id) (m.hub.registry.states id) 0 0 0 0 0 :=
  turn_apart m t _ rfl rfl (Registry.states_store ..) fun running => running

theorem turn_replace (m : Machine) (t : ThreadId) (i : AdapterId) (devices : List DiscoveredDevice)
    (errand : Errand) : Turn id m t (.registry (.replace i devices errand)) (m.hub.registry.unused id)
      (m.hub.registry.states id) 0 0 0 0 0 := by
  refine turn_apart m t _ rfl ?_ ?_ ?_ <;> simp only [Job.exec, RegistryJob.exec] <;> split
  all_goals first | rfl | exact fun running => running

theorem weight_around {f : Job → Nat} (part : ∀ job, f job ≤ job.busy id) {front back : List Job}
    (before : ∀ j ∈ front, j.busy id = 0) (after : ∀ j ∈ back, j.busy id = 0) (middle : List Job) :
    weight f (front ++ middle ++ back) = weight f middle := by
  have none : ∀ j : Job, j.busy id = 0 → f j = 0 := fun j zero => Nat.le_zero.mp (zero ▸ part j)
  rw [weight_append, weight_append, weight_zero fun j member => none j (before j member),
    weight_zero fun j member => none j (after j member), Nat.zero_add, Nat.add_zero]

theorem turn_around {unused runs : Nat} {states : List StartState} (m : Machine) (t : ThreadId) (job : Job)
    (front middle back : List Job) (next : (job.exec m t).2 = front ++ middle ++ back)
    (before : ∀ j ∈ front, j.busy id = 0) (after : ∀ j ∈ back, j.busy id = 0)
    (work : weight (Job.enrols id) middle = 0 ∧ weight (Job.starts id) middle = runs ∧
      weight (Job.finishes id) middle = runs ∧ weight (Job.stops id) middle = 0 ∧ weight (Job.claims id) middle = 0)
    (same : (job.exec m t).1.hub.registry.unused id = unused)
    (stand : (job.exec m t).1.hub.registry.states id = states)
    (running : (job.exec m t).1.hub.running = true → m.hub.running = true) :
    Turn id m t job unused states 0 runs runs 0 0 := by
  refine ⟨same, stand, fun after => .inl (running after), ?_, ?_, ?_, ?_, ?_⟩ <;> rw [next]
  · exact (weight_around (enrols_part id) before after middle).trans work.1
  · exact (weight_around (starts_part id) before after middle).trans work.2.1
  · exact (weight_around (finishes_part id) before after middle).trans work.2.2.1
  · exact (weight_around (stops_part id) before after middle).trans work.2.2.2.1
  · exact (weight_around (claims_part id) before after middle).trans work.2.2.2.2

theorem beginStart_cases (r : Registry) (i : AdapterId) :
    (∃ adapter, r.beginStart i = (some adapter, (r.beginStart i).2) ∧ (r.states i).head? = some .idle) ∨
      (r.beginStart i = (none, r) ∧ (r.states i).head? ≠ some .idle) := by
  have head := Registry.find?_states r i
  unfold Registry.beginStart
  cases found : r.find? i with
  | none =>
      rw [found] at head
      exact .inr ⟨rfl, by rw [← head]; exact fun none => by cases none⟩
  | some e =>
      rw [found] at head
      by_cases idle : e.start = .idle
      · exact .inl ⟨e.adapter, by simp [idle], by rw [← head, Option.map_some, idle]⟩
      · exact .inr ⟨by simp [idle], by rw [← head]; simpa using idle⟩

def Hub.claimsNew (h : Hub) (id i : AdapterId) : Prop :=
  h.running = true ∧ i = id ∧ (h.registry.states id).head? = some .idle

instance (h : Hub) (id i : AdapterId) : Decidable (h.claimsNew id i) := by
  unfold Hub.claimsNew
  infer_instance

theorem turn_claimNew (id : AdapterId) (m : Machine) (t : ThreadId) (i : AdapterId) (adapter : AdapterKey) :
    Turn id m t (.hub (.claimNew i adapter)) (m.hub.registry.unused id)
      (if m.hub.claimsNew id i then (m.hub.registry.states id).modifyHead fun _ => .starting else m.hub.registry.states id)
      0 (if m.hub.claimsNew id i then 1 else 0) (if m.hub.claimsNew id i then 1 else 0) 0 0 := by
  have around : ∀ j ∈ [Job.release .lifecycle, Job.mention .added i adapter], j.busy id = 0 := by
    simp [Job.busy, Job.enrols, Job.starts, Job.finishes, Job.stops, Job.claims, Job.mention]
  have behind : ∀ j ∈ [Job.answer (.added (.ok i))], j.busy id = 0 := fun j member => by
    cases List.mem_singleton.mp member
    rfl
  have unclaimed : ∀ registry : Registry, (if m.hub.running = true then m.hub.registry.beginStart i else (none, m.hub.registry)) =
      (none, m.hub.registry) → ¬ m.hub.claimsNew id i → Turn id m t (.hub (.claimNew i adapter)) (m.hub.registry.unused id)
      (if m.hub.claimsNew id i then (m.hub.registry.states id).modifyHead fun _ => .starting else m.hub.registry.states id)
      0 (if m.hub.claimsNew id i then 1 else 0) (if m.hub.claimsNew id i then 1 else 0) 0 0 := by
    intro registry found none
    rw [if_neg none, if_neg none]
    refine turn_around m t _ _ [] _ ?_ around behind ⟨rfl, rfl, rfl, rfl, rfl⟩ ?_ ?_ ?_ <;>
      simp only [Job.exec, HubJob.exec, found]
    · rfl
    · rfl
    · rfl
    · exact fun running => running
  by_cases running : m.hub.running = true
  · rcases beginStart_cases m.hub.registry i with ⟨claimed, found, idle⟩ | ⟨found, busy⟩
    · have states := Registry.states_beginStart m.hub.registry id i
      have unused : (m.hub.registry.beginStart i).2.unused id = m.hub.registry.unused id := by
        unfold Registry.beginStart
        repeat' split
        all_goals rfl
      refine turn_around m t _ _ (Plan.runAdapter i claimed) _ ?_ around behind ?_ ?_ ?_ ?_
      · simp only [Job.exec, HubJob.exec, if_pos running]
        rw [found]
        rfl
      · by_cases same : i = id
        · subst same
          simp [Hub.claimsNew, running, idle]
        · simp [Hub.claimsNew, same]
      · simp only [Job.exec, HubJob.exec, if_pos running]
        exact unused
      · simp only [Job.exec, HubJob.exec, if_pos running]
        refine states.trans ?_
        by_cases same : i = id
        · subst same
          simp [Hub.claimsNew, running, idle]
        · simp [Hub.claimsNew, same]
      · exact fun _ => running
    · refine unclaimed m.hub.registry (by rw [if_pos running, found]) ?_
      rintro ⟨_, rfl, idle⟩
      exact busy idle
  · exact unclaimed m.hub.registry (if_neg running) fun claims => running claims.1

theorem weight_claimed {f : Job → Nat} (c : AdapterId × AdapterKey → Nat)
    (each : ∀ a, weight f (Plan.runAdapter a.1 a.2) = c a) (claimed : List (AdapterId × AdapterKey)) :
    weight f (claimed.flatMap fun a => Plan.runAdapter a.1 a.2) = (claimed.map c).sum := by
  induction claimed with
  | nil => rfl
  | cons a rest ih => simp only [List.flatMap_cons, weight_append, each, ih, List.map_cons, List.sum_cons]

theorem sum_claimed (r : Registry) (id : AdapterId) :
    (r.beginStartAll.1.map fun a => if a.1 = id then 1 else 0).sum = (r.states id).count .idle := by
  simp only [Registry.beginStartAll, Registry.states, List.map_map]
  induction r.entries with
  | nil => rfl
  | cons e rest ih =>
      by_cases here : e.id = id <;> by_cases idle : e.start = .idle <;> simp_all [Function.comp_def]
      omega

theorem turn_claimAll (id : AdapterId) (m : Machine) (t : ThreadId) : Turn id m t (.hub .claimAll) (m.hub.registry.unused id)
    ((m.hub.registry.states id).map fun s => if s = .idle then .starting else s)
    0 ((m.hub.registry.states id).count .idle) ((m.hub.registry.states id).count .idle) 0 0 := by
  refine turn_around m t _
    [.release .lifecycle, Job.logHub (.starting m.hub.registry.beginStartAll.1.length)]
    (m.hub.registry.beginStartAll.1.flatMap fun a => Plan.runAdapter a.1 a.2)
    [.answer (.done (.ok ()))] rfl ?_ ?_ ⟨?_, ?_, ?_, ?_, ?_⟩ rfl (Registry.states_beginStartAll ..) fun running => running
  · simp [Job.busy, Job.enrols, Job.starts, Job.finishes, Job.stops, Job.claims, Job.logHub]
  · simp [Job.busy, Job.enrols, Job.starts, Job.finishes, Job.stops, Job.claims]
  · rw [weight_claimed (fun _ => 0) fun a => (weight_runAdapter a.1 a.2).1]
    exact sum_zero fun _ _ => rfl
  · rw [weight_claimed _ fun a => (weight_runAdapter a.1 a.2).2.1]
    exact sum_claimed m.hub.registry id
  · rw [weight_claimed _ fun a => (weight_runAdapter a.1 a.2).2.2.1]
    exact sum_claimed m.hub.registry id
  · rw [weight_claimed (fun _ => 0) fun a => (weight_runAdapter a.1 a.2).2.2.2.1]
    exact sum_zero fun _ _ => rfl
  · rw [weight_claimed (fun _ => 0) fun a => (weight_runAdapter a.1 a.2).2.2.2.2]
    exact sum_zero fun _ _ => rfl

theorem turn_finishStart (id : AdapterId) (m : Machine) (t : ThreadId) (i : AdapterId) (adapter : AdapterKey) :
    Turn id m t (.hub (.finishStart i adapter)) (m.hub.registry.unused id)
      (if i = id then (m.hub.registry.states id).modifyHead fun _ => .running else m.hub.registry.states id)
      0 0 0 (if i = id ∧ m.hub.registry.states id = [] then 1 else 0) 0 := by
  have head := Registry.find?_states m.hub.registry i
  have states := Registry.states_mark m.hub.registry id i .running
  cases found : m.hub.registry.find? i with
  | some e =>
      have busy : ¬ (i = id ∧ m.hub.registry.states id = []) := by
        rintro ⟨rfl, empty⟩
        rw [found, empty] at head
        cases head
      rw [if_neg busy]
      refine ⟨rfl, states, .inl, ?_, ?_, ?_, ?_, ?_⟩ <;>
        simp [Job.exec, HubJob.exec, Registry.finishStart, found]
  | none =>
      rw [found] at head
      have gone : i = id → m.hub.registry.states id = [] := by
        rintro rfl
        exact List.head?_eq_none_iff.mp head.symm
      refine ⟨rfl, states, .inl, ?_, ?_, ?_, ?_, ?_⟩ <;>
        simp [Job.exec, HubJob.exec, Registry.finishStart, found, Job.enrols, Job.starts, Job.finishes, Job.stops,
          Job.claims, Job.logHub, Job.call]
      by_cases same : i = id
      · simp [same, gone same]
      · simp [same]

theorem turn_laneStarted (id : AdapterId) (m : Machine) (t : ThreadId) : ∃ claims, Turn id m t (.hub .laneStarted)
    (m.hub.registry.unused id) (m.hub.registry.states id) 0 0 0 0 claims := by
  cases failed : (m.reply t).error? with
  | some e =>
      refine ⟨0, ?_, ?_, ?_, ?_, ?_, ?_, ?_, ?_⟩ <;> simp only [Job.exec, HubJob.exec, failed]
      case refine_3 => exact .inl
      all_goals rfl
  | none =>
      refine ⟨1, ?_, ?_, ?_, ?_, ?_, ?_, ?_, ?_⟩ <;> simp only [Job.exec, HubJob.exec, failed]
      case refine_3 => exact fun _ => .inr Nat.one_pos
      all_goals rfl

theorem turn_halt (m : Machine) (t : ThreadId) : Turn id m t (.hub .halt) (m.hub.registry.unused id)
    (m.hub.registry.states id) 0 0 0 0 0 :=
  turn_apart m t _ rfl rfl rfl fun stopped => by cases stopped

theorem Course.settle {unused e r f s c : Nat} {states : List StartState} (course : Course id past m)
    (agenda : m.agenda t = job :: later) (notPanic : job ≠ .panic) (turn : Turn id m t job unused states e r f s c)
    (assigned : unused + job.assigns m id = m.hub.registry.unused id)
    (once : unused + states.count .idle + states.count .running + e + f + s =
      m.hub.registry.unused id + (m.hub.registry.states id).count .idle +
        (m.hub.registry.states id).count .running + job.enrols id + job.finishes id)
    (claimed : states.count .starting + job.finishes id ≤ due (Job.finishes id) past m + f)
    (atLeast : f + states.count .running ≤ (m.hub.registry.states id).count .running + r + job.finishes id)
    (atMost : r + (m.hub.registry.states id).count .running + job.finishes id ≤ f + states.count .running + s)
    (promised : m.hub.running = true ∨ 0 < c → 0 < states.count .idle → job.claims id < due (Job.claims id) past m + c) :
    Course id (past ++ [⟨m, t, job, later⟩]) (m.carry t job later) := by
  have enrols := (inner_busy (enrols_part id)).due_carry past agenda notPanic
  have starts := (inner_busy (starts_part id)).due_carry past agenda notPanic
  have finishes := (inner_busy (finishes_part id)).due_carry past agenda notPanic
  have stops := (inner_busy (stops_part id)).due_carry past agenda notPanic
  have claims := (inner_busy (claims_part id)).due_carry past agenda notPanic
  rw [turn.enrols] at enrols
  rw [turn.starts] at starts
  rw [turn.finishes] at finishes
  rw [turn.stops] at stops
  rw [turn.claims] at claims
  refine ⟨?_, ?_, ?_, ?_, ?_, fun running idle => ?_⟩
  · have before := course.assigned
    simp only [hub_carry, turn.unused, total_append, total_single]
    omega
  · have before := course.once
    simp only [hub_carry, turn.unused, turn.states, total_append, total_single]
    omega
  · simp only [hub_carry, turn.states]
    omega
  · have before := course.atLeast
    simp only [hub_carry, turn.states, total_append, total_single]
    omega
  · have before := course.atMost
    simp only [hub_carry, turn.states, total_append, total_single]
    omega
  · simp only [hub_carry, turn.states] at running idle
    have enough := promised (turn.running running) idle
    omega

theorem Course.stay {unused e c : Nat} (course : Course id past m) (agenda : m.agenda t = job :: later)
    (notPanic : job ≠ .panic)
    (turn : Turn id m t job unused (m.hub.registry.states id) e 0 0 0 c)
    (once : unused + e = m.hub.registry.unused id) (assigned : job.assigns m id = e)
    (plain : job.enrols id = 0 ∧ job.finishes id = 0 ∧ job.claims id = 0) :
    Course id (past ++ [⟨m, t, job, later⟩]) (m.carry t job later) := by
  have claimed := course.claimed
  refine course.settle agenda notPanic turn ?_ ?_ ?_ ?_ ?_ fun running idle => ?_
  · omega
  · omega
  · omega
  · omega
  · omega
  · rcases running with running | more
    · have before := course.promised running idle
      omega
    · omega

theorem Course.enrol {i : AdapterId} {deviceType : String} {adapter : AdapterKey} (course : Course id past m)
    (agenda : m.agenda t = .registry (.enrol i deviceType adapter) :: later)
    (followed : (Job.registry (.enrol i deviceType adapter)).enrols id ≤ weight (Job.claims id) later) :
    Course id (past ++ [⟨m, t, .registry (.enrol i deviceType adapter), later⟩])
      (m.carry t (.registry (.enrol i deviceType adapter)) later) := by
  have turn := turn_enrol id m t i deviceType adapter
  have rest : weight (Job.claims id) _ ≤ due (Job.claims id) past m := Nat.le_trans (agenda ▸ load_mem t) load_due
  rw [weight_cons] at rest
  by_cases here : i = id
  · have one : (Job.registry (.enrol i deviceType adapter)).enrols id = 1 := if_pos here
    have claimed := course.claimed
    rw [if_pos here] at turn
    rw [one] at followed
    refine course.settle agenda (fun none => by cases none) turn rfl ?_ ?_ ?_ ?_ fun running idle => ?_ <;>
      simp [one, Job.finishes, Job.claims] <;> omega
  · rw [if_neg here, List.append_nil] at turn
    exact course.stay agenda (fun none => by cases none) turn (Nat.add_zero _) rfl ⟨if_neg here, rfl, rfl⟩

theorem Course.withdraw {i : AdapterId} {errand : Errand} (course : Course id past m)
    (agenda : m.agenda t = .registry (.withdraw i errand) :: later) (hired : errand ≠ .alone) :
    Course id (past ++ [⟨m, t, .registry (.withdraw i errand), later⟩]) (m.carry t (.registry (.withdraw i errand)) later) := by
  have turn := turn_withdraw id m t i errand hired
  by_cases here : i = id
  · rw [if_pos here] at turn
    rcases course.single with empty | ⟨state, one⟩
    · rw [empty, List.tail_nil] at turn
      refine course.settle agenda (fun none => by cases none) turn rfl ?_ ?_ ?_ ?_ fun _ idle => (by cases idle) <;>
        simp [empty, Job.enrols, Job.finishes]
    · rw [one, List.tail_cons] at turn
      refine course.settle agenda (fun none => by cases none) turn rfl ?_ ?_ ?_ ?_ fun _ idle => (by cases idle) <;>
        cases state <;> simp [one, here, Job.enrols, Job.finishes]
  · rw [if_neg here, if_neg fun both => here both.1] at turn
    exact course.stay agenda (fun none => by cases none) turn (Nat.add_zero _) rfl ⟨rfl, rfl, rfl⟩

theorem Course.claimNew {i : AdapterId} {adapter : AdapterKey} (course : Course id past m)
    (agenda : m.agenda t = .hub (.claimNew i adapter) :: later) :
    Course id (past ++ [⟨m, t, .hub (.claimNew i adapter), later⟩]) (m.carry t (.hub (.claimNew i adapter)) later) := by
  have turn := turn_claimNew id m t i adapter
  have claimed := course.claimed
  by_cases claims : m.hub.claimsNew id i
  · rw [if_pos claims, if_pos claims] at turn
    obtain ⟨running, here, idle⟩ := claims
    rcases course.single with empty | ⟨state, one⟩
    · rw [empty] at idle
      cases idle
    · rw [one] at idle
      cases idle
      refine course.settle agenda (fun none => by cases none) turn rfl ?_ ?_ ?_ ?_ fun _ idle => ?_ <;>
        simp [one, Job.enrols, Job.finishes] at *
  · rw [if_neg claims, if_neg claims] at turn
    refine course.settle agenda (fun none => by cases none) turn rfl (Nat.add_zero _) claimed ?_ ?_ fun running idle => ?_
    · simp [Job.finishes]
    · simp [Job.finishes]
    · replace running := running.resolve_right (Nat.lt_irrefl 0)
      have other : (Job.hub (.claimNew i adapter)).claims id = 0 := by
        refine if_neg fun here => claims ⟨running, here, ?_⟩
        rcases course.single with empty | ⟨state, one⟩
        · rw [empty] at idle
          cases idle
        · rw [one] at idle ⊢
          cases state <;> simp at idle ⊢
      rw [other]
      exact course.promised running idle

theorem Course.claimAll (course : Course id past m) (agenda : m.agenda t = .hub .claimAll :: later) :
    Course id (past ++ [⟨m, t, .hub .claimAll, later⟩]) (m.carry t (.hub .claimAll) later) := by
  have turn := turn_claimAll id m t
  have claimed := course.claimed
  rcases course.single with empty | ⟨state, one⟩
  · refine course.settle agenda (fun none => by cases none) turn rfl ?_ ?_ ?_ ?_ fun _ idle => ?_ <;>
      simp [empty, Job.enrols, Job.finishes] at *
  · refine course.settle agenda (fun none => by cases none) turn rfl ?_ ?_ ?_ ?_ fun _ idle => ?_ <;>
      cases state <;> simp [one, Job.enrols, Job.finishes] at *
    exact claimed

theorem Course.finishStart {i : AdapterId} {adapter : AdapterKey} (course : Course id past m)
    (agenda : m.agenda t = .hub (.finishStart i adapter) :: later) :
    Course id (past ++ [⟨m, t, .hub (.finishStart i adapter), later⟩]) (m.carry t (.hub (.finishStart i adapter)) later) := by
  have turn := turn_finishStart id m t i adapter
  have once := course.once
  have rest : weight (Job.finishes id) _ ≤ due (Job.finishes id) past m := Nat.le_trans (agenda ▸ load_mem t) load_due
  by_cases here : i = id
  · have one : (Job.hub (.finishStart i adapter)).finishes id = 1 := if_pos here
    rw [weight_cons, one] at rest
    rw [if_pos here] at turn
    rcases course.single with empty | ⟨state, single⟩
    · rw [empty] at turn once
      rw [if_pos ⟨here, rfl⟩] at turn
      refine course.settle agenda (fun none => by cases none) turn rfl ?_ ?_ ?_ ?_ fun _ idle => (by cases idle) <;>
        simp [empty, one, Job.enrols]
      omega
    · rw [single] at turn once
      rw [if_neg fun both => (by cases both.2)] at turn
      -- Its start is in flight, so the entry can be neither idle nor running.
      cases state with
      | starting =>
          refine course.settle agenda (fun none => by cases none) turn rfl ?_ ?_ ?_ ?_ fun _ idle => (by cases idle) <;>
            simp [single, one, Job.enrols]
          omega
      | idle | running =>
          simp at once
          omega
  · rw [if_neg here, if_neg fun both => here both.1] at turn
    exact course.stay agenda (fun none => by cases none) turn (Nat.add_zero _) rfl ⟨rfl, if_neg here, rfl⟩

theorem Course.carry (course : Course id past m) (agenda : m.agenda t = job :: later) (notPanic : job ≠ .panic)
    (managed : ∀ op, job = .perform op → op.managed = true)
    (hired : ∀ i errand, job = .registry (.withdraw i errand) → errand ≠ .alone)
    (followed : job.enrols id ≤ weight (Job.claims id) later) (counted : Moment.counted ⟨m, t, job, later⟩) :
    Course id (past ++ [⟨m, t, job, later⟩]) (m.carry t job later) := by
  have same (registers : job.registers = false) (manages : job.manages = false)
      (none : job.assigns m id = 0) (plain : job.enrols id = 0 ∧ job.finishes id = 0 ∧ job.claims id = 0) :
      Course id (past ++ [⟨m, t, job, later⟩]) (m.carry t job later) := by
    have stand := steady_exec m t job managed
    exact course.stay agenda notPanic (turn_apart m t job manages (congrArg (·.unused id) (stand.registry registers))
      (congrArg (·.states id) (stand.registry registers)) fun running => stand.running registers ▸ running)
      (Nat.add_zero _) none plain
  cases job with
  | registry job =>
      cases job with
      | reserve deviceType adapter errand =>
          rcases turn_reserve id m t deviceType adapter errand (counted fun none => by cases none) with
            ⟨next, unused, _, turn⟩ | ⟨next, _, turn⟩
          · exact course.stay agenda notPanic turn (by omega) (if_pos next) ⟨rfl, rfl, rfl⟩
          · exact course.stay agenda notPanic turn (Nat.add_zero _) (if_neg next) ⟨rfl, rfl, rfl⟩
      | enrol i deviceType adapter => exact course.enrol agenda followed
      | withdraw i errand => exact course.withdraw agenda (hired i errand rfl)
      | replace i devices errand =>
          exact course.stay agenda notPanic (turn_replace m t i devices errand) (Nat.add_zero _) rfl ⟨rfl, rfl, rfl⟩
      | store i devices => exact course.stay agenda notPanic (turn_store m t i devices) (Nat.add_zero _) rfl ⟨rfl, rfl, rfl⟩
  | hub job =>
      cases job with
      | claimNew i adapter => exact course.claimNew agenda
      | claimAll => exact course.claimAll agenda
      | finishStart i adapter => exact course.finishStart agenda
      | laneStarted =>
          obtain ⟨claims, turn⟩ := turn_laneStarted id m t
          exact course.stay agenda notPanic turn (Nat.add_zero _) rfl ⟨rfl, rfl, rfl⟩
      | halt => exact course.stay agenda notPanic (turn_halt m t) (Nat.add_zero _) rfl ⟨rfl, rfl, rfl⟩
      | _ => exact same rfl rfl rfl ⟨rfl, rfl, rfl⟩
  | _ => exact same rfl rfl rfl ⟨rfl, rfl, rfl⟩

-- Nothing but the hub itself asks for changes of the registry.
def Job.hired : Job → Bool
  | .registry (.withdraw _ errand) => !(errand matches .alone)
  | .registry (.reserve _ _ errand) => (errand matches .hub)
  | _ => true

structure Followed (id : AdapterId) (job : Job) (rest : List Job) : Prop where
  reported : job.starts id + job.inStart id ≤ weight (Job.finishes id) rest
  claimed : job.enrols id ≤ weight (Job.claims id) rest
  hired : job.hired = true

def Job.settled : Job → Bool
  | .registry job => (job matches .replace .. | .store ..)
  | .participant (.call _ _ call) | .participant (.returned _ call) => !(call matches .run)
  | _ => true

theorem Followed.free (rest : List Job) (settled : job.settled = true) : Followed id job rest := by
  cases job with
  | registry job =>
      cases job <;> first | exact ⟨Nat.zero_le _, Nat.zero_le _, rfl⟩ | cases settled
  | participant job =>
      cases job with
      | call i key call => cases call <;> first | exact ⟨Nat.zero_le _, Nat.zero_le _, rfl⟩ | cases settled
      | returned i call => cases call <;> first | exact ⟨Nat.zero_le _, Nat.zero_le _, rfl⟩ | cases settled
      | _ => exact ⟨Nat.zero_le _, Nat.zero_le _, rfl⟩
  | _ => exact ⟨Nat.zero_le _, Nat.zero_le _, rfl⟩

def Job.engages : Job → Bool
  | .registry job => (job matches .reserve ..)
  | .hub job => (job matches .claimNew .. | .claimAll | .stopAdapters | .add _)
  | .participant job => (job matches .call ..)
  | .perform _ => true
  | _ => false

theorem settled_source {j : Job} (leads : job.leads j = true) (owes : j.settled = false) : job.engages = true := by
  cases j with
  | registry j =>
      cases j <;> first
        | (cases owes; done)
        | (dsimp only [Job.leads] at leads; split at leads <;> first | rfl | cases leads)
  | participant j =>
      cases j with
      | call i key call =>
          cases call <;> first
            | (cases owes; done)
            | (dsimp only [Job.leads] at leads; split at leads <;> first | rfl | cases leads)
      | returned =>
          dsimp only [Job.leads] at leads
          split at leads <;> first | rfl | cases leads
      | _ => cases owes
  | _ => cases owes

theorem followed_runAdapter (id : AdapterId) (i : AdapterId) (adapter : AdapterKey) (back : List Job) :
    Each (fun j rest => Followed id j (rest ++ back)) (Plan.runAdapter i adapter) := by
  refine ⟨.free _ rfl, ⟨?_, Nat.zero_le _, rfl⟩, .free _ rfl, .free _ rfl, trivial⟩
  simp [Job.starts, Job.inStart, Job.finishes, Job.call]

theorem followed_perform (m : Machine) (op : Op) (managed : op.managed = true) (rest : List Job) :
    ∀ j ∈ (m.perform op).2, Followed id j rest := by
  intro j member
  have leads := leads_perform m op j member
  cases settled : j.settled with
  | true => exact .free rest settled
  | false =>
      cases j with
      | registry j =>
          cases j with
          | withdraw i errand =>
              cases op <;> first | (cases leads; done) | (cases managed; done) | skip
              simp only [Machine.perform, Machine.performOwned] at member
              split at member
              · simp [Plan.removeAdapter, Plan.withdraw] at member
                obtain ⟨rfl, rfl⟩ := member
                exact ⟨Nat.zero_le _, Nat.zero_le _, rfl⟩
              · simp at member
          | reserve => cases op <;> first | (cases leads; done) | cases managed
          | enrol => cases op <;> cases leads
          | _ => cases settled
      | participant j =>
          cases j with
          | call i key call => cases call <;> cases op <;> cases leads
          | returned => cases op <;> cases leads
          | _ => cases settled
      | _ => cases settled

theorem settled_nested (ops : List Op) : Every Job.settled (ops.flatMap Job.nested) := by
  refine (every_flatMap ..).mpr fun op _ => ?_
  unfold Job.nested
  split <;> simp <;> and_intros <;> rfl

theorem call_next (m : Machine) (t : ThreadId) (i : AdapterId) (key : AdapterKey) (call : AdapterCall) :
    ((Job.participant (.call i key call)).exec m t).2 = [] ∨
      ∃ front, ((Job.participant (.call i key call)).exec m t).2 = front ++ [.participant (.returned i call)] ∧
        Every Job.settled front := by
  simp only [Job.exec, ParticipantJob.exec, ParticipantJob.callAdapter]
  split
  · refine .inr ⟨_, rfl, ?_⟩
    cases (ParticipantJob.minimalAnswer? call).filter fun _ => _ with
    | some reply => exact every_one rfl
    | none =>
        refine (every_append ..).mpr ⟨settled_nested _, ?_⟩
        unfold ParticipantJob.conclude
        repeat' split
        all_goals (simp; and_intros <;> rfl)
  · exact .inl rfl

theorem followed_exec (m : Machine) (t : ThreadId) (job : Job) (followed : Followed id job later)
    (managed : ∀ op, job = .perform op → op.managed = true) :
    Each (fun j rest => Followed id j (rest ++ later)) (job.exec m t).2 := by
  cases source : job.engages with
  | true =>
    cases job with
    | registry job =>
        cases job with
        | reserve deviceType adapter errand =>
            have hired := followed.hired
            cases errand with
            | hub =>
                refine ⟨.free _ rfl, ⟨Nat.zero_le _, ?_, rfl⟩, .free _ rfl, .free _ rfl, trivial⟩
                simp [Job.enrols, Job.claims]
            | alone | shutdown => cases hired
        | _ => cases source
    | hub job =>
        cases job with
        | claimNew i adapter =>
            simp only [Job.exec, HubJob.exec]
            refine each_append.mpr ⟨each_append.mpr ⟨⟨.free _ rfl, .free _ rfl, trivial⟩, ?_⟩, .free _ rfl, trivial⟩
            cases (if m.hub.running then m.hub.registry.beginStart i else (none, m.hub.registry)).1 with
            | none => trivial
            | some claimed =>
                have here := followed_runAdapter id i claimed ([Job.answer (.added (.ok i))] ++ later)
                simpa only [List.append_assoc, Option.elim_some] using here
        | claimAll =>
            simp only [Job.exec, HubJob.exec]
            refine each_append.mpr ⟨each_append.mpr ⟨⟨.free _ rfl, .free _ rfl, trivial⟩, ?_⟩, .free _ rfl, trivial⟩
            generalize m.hub.registry.beginStartAll.1 = claimed
            induction claimed with
            | nil => trivial
            | cons a others ih =>
                rw [List.flatMap_cons]
                refine each_append.mpr ⟨?_, ih⟩
                have here := followed_runAdapter id a.1 a.2
                  (others.flatMap (fun a => Plan.runAdapter a.1 a.2) ++ ([Job.answer (.done (.ok ()))] ++ later))
                simpa only [List.append_assoc] using here
        | stopAdapters =>
            refine each_of_forall fun j member rest => ?_
            have hired : Every Job.hired (HubJob.shutDownAll m.hub.registry.ids m.hub.config.joinWorkers) := by
              unfold HubJob.shutDownAll
              cases m.hub.config.joinWorkers <;> simp [Plan.withdraw] <;> and_intros <;> intros <;>
                (try and_intros) <;> rfl
            have leads := leads_exec m t _ j member
            cases j with
            | registry j =>
                cases j <;> first
                  | exact ⟨Nat.zero_le _, Nat.zero_le _, hired _ member⟩
                  | cases leads
            | participant j =>
                cases j with
                | call i key call => cases call <;> cases leads
                | returned => cases leads
                | _ => exact .free _ rfl
            | _ => exact .free _ rfl
        | add adapter =>
            refine each_of_forall fun j member rest => ?_
            simp only [Job.exec, HubJob.exec, Plan.register] at member
            split at member <;> simp only [List.mem_cons, List.not_mem_nil, or_false] at member <;>
              rcases member with rfl | rfl <;> exact ⟨Nat.zero_le _, Nat.zero_le _, rfl⟩
        | _ => cases source
    | participant job =>
        cases job with
        | call i key call =>
            rcases call_next m t i key call with next | ⟨front, next, settled⟩ <;> rw [next]
            · trivial
            · refine each_append.mpr ⟨each_of_forall fun j member rest => .free _ (settled j member), ?_, trivial⟩
              have reported := followed.reported
              refine ⟨?_, Nat.zero_le _, rfl⟩
              cases call <;> first | exact Nat.zero_le _ | simpa [Job.starts, Job.inStart] using reported
        | _ => cases source
    | perform op =>
        exact each_of_forall fun j member rest => followed_perform m op (managed op rfl) _ j member
    | _ => cases source
  | false =>
    refine each_of_forall fun j member rest => .free _ ?_
    cases settled : j.settled with
    | true => rfl
    | false =>
        have owing := settled_source (leads_exec m t job j member) settled
        rw [source] at owing
        cases owing

theorem Run.followed (run : Run config hooks past m) (id : AdapterId) (managed : ∀ x ∈ past, x.managed) (u : ThreadId) :
    Each (Followed id) (m.agenda u) := by
  refine Run.each (G := Moment.managed) (P := fun _ => Followed id) ?fresh ?next ?caught run managed u
  case fresh =>
    intro u agenda fresh
    cases fresh <;> first | exact ⟨.free _ rfl, .free _ rfl, trivial⟩ | exact ⟨.free _ rfl, trivial⟩
  case next =>
    intro past m t job later _ each agenda _ _ managed
    have here := each t
    rw [agenda] at here
    exact followed_exec m t job here.1 managed
  case caught => exact fun u d rest each => ⟨.free _ rfl, .free _ rfl, each.2⟩

theorem busy_pinned (id : AdapterId) (kept : Fence.procedures.pinned job = false) : job.busy id = 0 := by
  cases job with
  | registry job => cases kept
  | hub job => cases job <;> first | rfl | cases kept
  | participant job =>
      cases job with
      | call => cases kept
      | _ => rfl
  | _ => rfl

theorem Course.unwind (course : Course id past m) (agenda : m.agenda t = .panic :: later) :
    Course id (past ++ [⟨m, t, .panic, later⟩]) (m.unwind t later) := by
  have same : ∀ {f : Job → Nat}, (∀ job, f job ≤ job.busy id) →
      due f (past ++ [⟨m, t, .panic, later⟩]) (m.unwind t later) = due f past m :=
      fun part => (inner_busy part).due_unwind past agenda
  have hub : (m.unwind t later).hub.registry = m.hub.registry ∧ (m.unwind t later).hub.running = m.hub.running := by
    rcases hub_unwind m t later with same | same <;> rw [same] <;> exact ⟨rfl, rfl⟩
  obtain ⟨assigned, once, claimed, atLeast, atMost, promised⟩ := course
  refine ⟨?_, ?_, ?_, ?_, ?_, ?_⟩ <;>
    simp only [hub.1, hub.2, same (enrols_part id), same (starts_part id), same (finishes_part id), same (stops_part id),
      same (claims_part id), total_append, total_single] <;> assumption

theorem Course.still {m' : Machine} (course : Course id past m) (hub : m'.hub = m.hub)
    (loads : ∀ f, (∀ job, f job ≤ job.busy id) → m'.load f = m.load f) : Course id past m' := by
  obtain ⟨assigned, once, claimed, atLeast, atMost, promised⟩ := course
  refine ⟨?_, ?_, ?_, ?_, ?_, ?_⟩ <;>
    simp only [hub, due_same (loads _ (enrols_part id)), due_same (loads _ (starts_part id)), due_same (loads _ (finishes_part id)),
      due_same (loads _ (stops_part id)), due_same (loads _ (claims_part id))] <;> assumption

theorem Course.start {jobs : List Job} (fresh : Fresh config .caller jobs) :
    Course id [] ((Machine.initial config hooks system).beginWith jobs) := by
  have none : ∀ f, (∀ job, f job ≤ job.busy id) → due f [] ((Machine.initial config hooks system).beginWith jobs) = 0 :=
    fun f part => (inner_busy part).start config hooks system fresh
  have hub : ((Machine.initial config hooks system).beginWith jobs).hub = { config, owned := false } := rfl
  have unused : Registry.unused {} id = 1 := if_pos (Nat.eq_zero_or_pos _)
  refine ⟨?_, ?_, ?_, ?_, ?_, ?_⟩ <;>
    simp [hub, none _ (enrols_part id), none _ (starts_part id), none _ (finishes_part id), none _ (stops_part id),
    unused, Registry.states]

theorem Run.course (run : Run config hooks past m) (managed : ∀ x ∈ past, x.managed) (counted : ∀ x ∈ past, x.counted)
    (id : AdapterId) : Course id past m := by
  refine Run.induct_all (G := fun x => x.managed ∧ x.counted) (P := Course id) ?construct ?assemble ?call ?client ?carry ?unwind run
    fun x member => ⟨managed x member, counted x member⟩
  case construct => exact Course.start .construction
  case assemble => exact Course.start .assembly
  case call => exact fun op _ course idle => course.still rfl fun f part => (inner_busy part).beginWith idle op
  case client => exact fun name op _ course => course.still rfl fun f part => (inner_busy part).client _ name op
  case carry =>
    intro past m t job later run course agenda notPanic _ before here
    have followed := run.followed id (fun x member => (before x member).1) t
    rw [agenda] at followed
    refine course.carry agenda notPanic here.1 (fun i errand same alone => ?_) followed.1.claimed here.2
    have hired := followed.1.hired
    subst same alone
    cases hired
  case unwind => exact fun _ course agenda _ _ => course.unwind agenda

-- The same without a panic that loses work.
structure Life (id : AdapterId) (past : List Moment) (m : Machine) : Prop where
  assigned : m.hub.registry.unused id + total (fun x => x.job.assigns x.machine id) past = 1
  once : m.hub.registry.unused id + (m.hub.registry.states id).count .idle +
    (m.hub.registry.states id).count .running + m.load (Job.enrols id) + m.load (Job.finishes id) +
    m.load (Job.stops id) + total (fun x => x.job.stops id) past = 1
  claimed : (m.hub.registry.states id).count .starting ≤ m.load (Job.finishes id)
  atLeast : m.load (Job.finishes id) + (m.hub.registry.states id).count .running ≤
    m.load (Job.starts id) + total (fun x => x.job.starts id) past
  atMost : m.load (Job.starts id) + total (fun x => x.job.starts id) past ≤
    m.load (Job.finishes id) + (m.hub.registry.states id).count .running +
    m.load (Job.stops id) + total (fun x => x.job.stops id) past
  promised : m.hub.running = true → 0 < (m.hub.registry.states id).count .idle → 0 < m.load (Job.claims id)

-- No panic has lost work on a registration.
def Unhurt (id : AdapterId) (past : List Moment) : Prop := ∀ x ∈ past, ∀ job ∈ x.dropped, job.busy id = 0

theorem Unhurt.lost (unhurt : Unhurt id past) {f : Job → Nat} (part : ∀ job, f job ≤ job.busy id) : total (lost f) past = 0 :=
  total_zero fun x member => weight_zero fun job dropped => Nat.le_zero.mp (unhurt x member job dropped ▸ part job)

theorem Unhurt.due (unhurt : Unhurt id past) {f : Job → Nat} (part : ∀ job, f job ≤ job.busy id) : due f past m = m.load f := by
  rw [TransportHub.due, unhurt.lost part, Nat.add_zero]

theorem Course.life (course : Course id past m) (unhurt : Unhurt id past) : Life id past m := by
  obtain ⟨assigned, once, claimed, atLeast, atMost, promised⟩ := course
  rw [unhurt.due (enrols_part id), unhurt.due (finishes_part id), unhurt.due (stops_part id)] at once
  rw [unhurt.due (finishes_part id)] at claimed
  rw [unhurt.due (finishes_part id), unhurt.due (starts_part id)] at atLeast
  rw [unhurt.due (finishes_part id), unhurt.due (starts_part id), unhurt.due (stops_part id)] at atMost
  rw [unhurt.due (claims_part id)] at promised
  exact ⟨assigned, once, claimed, atLeast, atMost, promised⟩

theorem Run.unhurt (run : Run config hooks past m) (safe : ∀ x ∈ past, x.hookSafe ∧ x.adapterSafe) (id : AdapterId) :
    Unhurt id past := fun x member job dropped =>
  busy_pinned id (run.procedures_kept member (safe x member).1 (safe x member).2 job dropped)

theorem Run.life (run : Run config hooks past m) (good : ∀ x ∈ past, x.managed ∧ x.hookSafe ∧ x.adapterSafe)
    (counted : ∀ x ∈ past, x.counted) (id : AdapterId) : Life id past m :=
  (run.course (fun x member => (good x member).1) counted id).life (run.unhurt (fun x member => (good x member).2) id)

theorem Life.single (life : Life id past m) :
    m.hub.registry.states id = [] ∨ ∃ state, m.hub.registry.states id = [state] :=
  single_states (by have once := life.once; omega) life.claimed

-- Jobs that calls on the hub consist of; a thread that has none is not inside such a call.
def Job.calls : Job → Bool
  | .registry _ | .hub _ | .participant (.call ..) => true
  | _ => false

def Machine.quiet (m : Machine) : Prop := ∀ t, ∀ job ∈ m.agenda t, job.calls = false

theorem quiet_busy (quiet : m.quiet) {f : Job → Nat} (part : ∀ job, f job ≤ job.busy id) : m.load f = 0 := by
  refine load_zero fun t job member => Nat.le_zero.mp (Nat.le_trans (part job) ?_)
  have outside := quiet t job member
  cases job with
  | registry | hub => cases outside
  | participant job => cases job <;> first | exact Nat.le_refl 0 | cases outside
  | _ => exact Nat.le_refl 0

-- How often the adapter of one registration is started and stopped, and when.
structure AdapterLife (id : AdapterId) (past : List Moment) (m : Machine) : Prop where
  assignedOnce : total (fun x => x.job.assigns x.machine id) past ≤ 1
  runsOnce : total (fun x => x.job.starts id) past ≤ 1
  stopsOnce : total (fun x => x.job.stops id) past ≤ 1
  notInFlight : ∀ x ∈ past, x.job.stops id ≠ 0 → x.machine.load (Job.inStart id) = 0
  neverAfterwards : ∀ earlier x, earlier ++ [x] <+: past → x.job.starts id ≠ 0 →
    total (fun y => y.job.stops id) earlier = 0
  registered : m.quiet → m.hub.registry.contains id = true → total (fun x => x.job.stops id) past = 0 ∧
    (m.hub.isRunning = true → total (fun x => x.job.starts id) past = 1)
  unregistered : m.quiet → m.hub.registry.contains id = false →
    0 < total (fun x => x.job.assigns x.machine id) past → total (fun x => x.job.stops id) past = 1

theorem contains_states (r : Registry) (id : AdapterId) : r.contains id = !(r.states id).isEmpty := by
  simp only [Registry.contains, Registry.states]
  induction r.entries with
  | nil => rfl
  | cons e rest ih => by_cases here : e.id = id <;> simp_all

theorem Life.registered (life : Life id past m) (quiet : m.quiet) (known : m.hub.registry.contains id = true) :
    total (fun x => x.job.stops id) past = 0 ∧
      (m.hub.isRunning = true → total (fun x => x.job.starts id) past = 1) := by
  have starts : m.load (Job.starts id) = 0 := quiet_busy quiet (starts_part id)
  have finishes : m.load (Job.finishes id) = 0 := quiet_busy quiet (finishes_part id)
  have stops : m.load (Job.stops id) = 0 := quiet_busy quiet (stops_part id)
  have claims : m.load (Job.claims id) = 0 := quiet_busy quiet (claims_part id)
  have single := life.single
  obtain ⟨assigned, once, claimed, atLeast, atMost, promised⟩ := life
  rw [contains_states] at known
  rcases single with empty | ⟨state, one⟩
  · rw [empty] at known
    cases known
  · have waits : m.hub.isRunning = true → ¬ 0 < (m.hub.registry.states id).count .idle := fun running idle => by
      have promise := promised (Bool.and_eq_true_iff.mp running).1 idle
      omega
    rw [one] at once claimed atLeast atMost waits
    cases state with
    | idle =>
        simp at once waits
        exact ⟨by omega, fun running => absurd running (by simp [waits])⟩
    | starting =>
        simp at claimed
        omega
    | running =>
        simp at once atLeast atMost
        exact ⟨by omega, fun _ => by omega⟩

theorem Life.unregistered (life : Life id past m) (quiet : m.quiet) (gone : m.hub.registry.contains id = false)
    (known : 0 < total (fun x => x.job.assigns x.machine id) past) : total (fun x => x.job.stops id) past = 1 := by
  have enrols : m.load (Job.enrols id) = 0 := quiet_busy quiet (enrols_part id)
  have finishes : m.load (Job.finishes id) = 0 := quiet_busy quiet (finishes_part id)
  have stops : m.load (Job.stops id) = 0 := quiet_busy quiet (stops_part id)
  have assigned := life.assigned
  have once := life.once
  rw [contains_states] at gone
  have empty : m.hub.registry.states id = [] := List.isEmpty_iff.mp (by simpa using gone)
  rw [empty] at once
  simp only [List.count_nil] at once
  omega

theorem weight_followed {agenda : List Job} (each : Each (Followed id) agenda)
    (busy : 0 < weight (Job.inStart id) agenda ∨ 0 < weight (Job.starts id) agenda) :
    0 < weight (Job.finishes id) agenda := by
  have some : ∃ job ∈ agenda, 0 < job.starts id + job.inStart id := by
    rcases busy with busy | busy
    · obtain ⟨job, member, found⟩ := weight_pos busy
      exact ⟨job, member, by omega⟩
    · obtain ⟨job, member, found⟩ := weight_pos busy
      exact ⟨job, member, by omega⟩
  obtain ⟨job, member, found⟩ := some
  obtain ⟨front, back, rfl, followed⟩ := each_mem each member
  have reported := followed.reported
  rw [weight_append, weight_cons]
  omega

theorem adapter_life (run : Run config hooks past m) (few : (issued past).length < UInt32.size) (managed : ∀ x ∈ past, x.managed)
    (hooked : ∀ x ∈ past, x.hookSafe) (adapted : ∀ x ∈ past, x.adapterSafe) (id : AdapterId) :
    AdapterLife id past m := by
  have good : ∀ x ∈ past, x.managed ∧ x.hookSafe ∧ x.adapterSafe :=
    fun x member => ⟨managed x member, hooked x member, adapted x member⟩
  have counted := run.counted few
  have life := run.life good counted id
  have assigned := life.assigned
  have once := life.once
  have atMost := life.atMost
  -- What holds at the end of a run held before each of its steps.
  have before : ∀ earlier x, earlier ++ [x] <+: past → Life id earlier x.machine ∧
      (∀ u, Each (Followed id) (x.machine.agenda u)) ∧ x.machine.agenda x.thread = x.job :: x.later := by
    intro earlier x start
    obtain ⟨reached, agenda⟩ := run.before start
    have part : ∀ y ∈ earlier, y ∈ past := fun y member => start.subset (List.mem_append_left _ member)
    exact ⟨reached.life (fun y member => good y (part y member)) (fun y member => counted y (part y member)) id,
      reached.followed id fun y member => managed y (part y member), agenda⟩
  refine ⟨by omega, by omega, by omega, ?notInFlight, ?neverAfterwards, ?registered, ?unregistered⟩
  case notInFlight =>
    intro x member stopped
    obtain ⟨earlier, start, _, _⟩ := run.reached member
    obtain ⟨life, followed, agenda⟩ := before earlier x start
    have stops : weight (Job.stops id) _ ≤ x.machine.load (Job.stops id) := agenda ▸ load_mem x.thread
    rw [weight_cons] at stops
    have once := life.once
    refine load_zero fun u job here => ?_
    cases found : job.inStart id with
    | zero => rfl
    | succ n =>
        have busy : 0 < weight (Job.inStart id) (x.machine.agenda u) :=
          Nat.lt_of_lt_of_le (found ▸ Nat.succ_pos n) (weight_mem here)
        have report := weight_followed (followed u) (.inl busy)
        have finishes := load_mem (m := x.machine) (f := Job.finishes id) u
        omega
  case neverAfterwards =>
    intro earlier x start started
    obtain ⟨life, followed, agenda⟩ := before earlier x start
    have busy : 0 < weight (Job.starts id) (x.machine.agenda x.thread) := by
      rw [agenda, weight_cons]
      omega
    have report := weight_followed (followed x.thread) (.inr busy)
    have finishes := load_mem (m := x.machine) (f := Job.finishes id) x.thread
    have once := life.once
    omega
  case registered => exact life.registered
  case unregistered => exact life.unregistered

-- The fourth record after the one of the construction says that the adapter was taken out.
def hookAtRemoval : Hook := { start := "", nth := 4, ops := [.panic] }

def removal (hooks : List Hook) : List Moment × Machine :=
  solo quietConfig hooks [.removeAdapter ⟨1⟩, .addAdapter (.named "a")]

theorem removed_never_stopped : Run quietConfig [hookAtRemoval] (removal [hookAtRemoval]).1 (removal [hookAtRemoval]).2 ∧
    (∀ x ∈ (removal [hookAtRemoval]).1, x.managed ∧ x.adapterSafe) ∧
    (removal [hookAtRemoval]).2.agendas.all List.isEmpty = true ∧
    total (fun x => x.job.assigns x.machine ⟨1⟩) (removal [hookAtRemoval]).1 = 1 ∧
    (removal [hookAtRemoval]).2.hub.registry.contains ⟨1⟩ = false ∧
    total (fun x => x.job.stops ⟨1⟩) (removal [hookAtRemoval]).1 = 0 := by
  refine ⟨solo_run _ _ _, ?_⟩
  decide +kernel

def lifetime : List Moment × Machine :=
  solo quietConfig [] [.removeAdapter ⟨1⟩, .run, .addAdapter (.named "a")]

theorem life_of_one : AdapterLife ⟨1⟩ lifetime.1 lifetime.2 ∧
    total (fun x => x.job.starts ⟨1⟩) lifetime.1 = 1 ∧ total (fun x => x.job.stops ⟨1⟩) lifetime.1 = 1 :=
  ⟨adapter_life (solo_run _ _ _) (by decide +kernel) (by decide +kernel) (by decide +kernel) (by decide +kernel) ⟨1⟩,
    by decide +kernel⟩

end TransportHub
