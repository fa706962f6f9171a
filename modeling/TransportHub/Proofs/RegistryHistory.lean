import TransportHub.Proofs.Counters
import TransportHub.Proofs.Locks
/-!
The registry and its history. The calls that change who is registered and what each adapter lists are read off a
run, in the order in which they take effect; at every moment the registry is what these calls say, whoever made them
and in whatever session.
-/

set_option autoImplicit false

namespace TransportHub

open Registry (Call StartCall since registered origin listed Historic Alike)

variable {config : Config} {hooks : List Hook} {past : List Moment} {m : Machine} {t u : ThreadId} {job : Job} {later : List Job}
  {id : AdapterId} {x : Moment}

def Moment.registryCall (x : Moment) : Option Call :=
  match x.job with
  | .registry (.enrol id deviceType adapter) => some (.register id deviceType adapter)
  | .registry (.withdraw id _) => some (.unregister id)
  | .registry (.store id devices) => some (.replace id devices)
  | .registry (.replace id devices _) => if (x.machine.hub.registry.find? id).isSome then none else some (.replace id devices)
  | _ => none

def registryCalls (past : List Moment) : List Call := past.filterMap Moment.registryCall

def Moment.asksType (x : Moment) : Option (String × AdapterKey) :=
  match x.job with
  | .hub (.add adapter) => some (x.machine.cast.deviceType adapter, adapter)
  | .perform (.register ref) => some ((x.machine.cast.resolveAdapter ref).2.deviceType (x.machine.cast.resolveAdapter ref).1,
      (x.machine.cast.resolveAdapter ref).1)
  | _ => none

theorem registryCalls_snoc : registryCalls (past ++ [x]) = registryCalls past ++ x.registryCall.toList := by
  rw [registryCalls, List.filterMap_append]
  cases here : x.registryCall <;> simp [registryCalls, here]

-- A thread asked an adapter for its transport type, and has only waited for the registry since.
def Asked (past : List Moment) (u : ThreadId) (deviceType : String) (adapter : AdapterKey) : Prop :=
  ∃ before x between, past = before ++ x :: between ∧ x.thread = u ∧ x.asksType = some (deviceType, adapter) ∧
    ∀ z ∈ between, z.thread = u → z.job = .acquire .registry

def Captured (past : List Moment) (id : AdapterId) (deviceType : String) (adapter : AdapterKey) : Prop :=
  ∃ before y after, past = before ++ y :: after ∧ y.issues = some id ∧ Asked before y.thread deviceType adapter

theorem Asked.snoc {deviceType : String} {adapter : AdapterKey} (asked : Asked past u deviceType adapter)
    (waits : x.thread = u → x.job = .acquire .registry) : Asked (past ++ [x]) u deviceType adapter := by
  obtain ⟨before, y, between, rfl, thread, asks, only⟩ := asked
  refine ⟨before, y, between ++ [x], by simp, thread, asks, ?_⟩
  exact List.forall_mem_append.mpr ⟨only, List.forall_mem_singleton.mpr waits⟩

theorem Captured.snoc {deviceType : String} {adapter : AdapterKey} (captured : Captured past id deviceType adapter) :
    Captured (past ++ [x]) id deviceType adapter := by
  obtain ⟨before, y, after, rfl, issues, asked⟩ := captured
  exact ⟨before, y, after ++ [x], by simp, issues, asked⟩

def reserving : Job → Nat
  | .registry (.reserve ..) => 1
  | _ => 0

theorem reserving_source {j : Job} (leads : job.leads j = true) (here : reserving j ≠ 0) :
    (∃ adapter, job = .hub (.add adapter)) ∨ ∃ ref, job = .perform (.register ref) := by
  cases j with
  | registry j =>
      cases j with
      | reserve => exact reserve_origin leads
      | _ => exact absurd rfl here
  | _ => exact absurd rfl here

theorem fresh_reserving {jobs : List Job} (fresh : Fresh config u jobs) : weight reserving jobs = 0 := by
  cases fresh <;> rfl

theorem trails_reserving {jobs : List Job} (trails : Every Job.trails jobs) : weight reserving jobs = 0 := by
  refine weight_zero fun job member => ?_
  have here := trails job member
  cases job with
  | registry => cases here
  | _ => rfl

theorem Run.waits_registry (run : Run config hooks past m) (u : ThreadId) :
    Each (fun job rest => job ≠ .acquire .registry → weight reserving rest = 0) (m.agenda u) := by
  refine Run.each (G := fun _ => True) (P := fun _ job rest => job ≠ .acquire .registry → weight reserving rest = 0)
    ?fresh ?next ?caught run (fun _ _ => trivial) u
  case fresh =>
    intro u agenda fresh
    cases fresh <;> simp [Each, Machine.construction, Machine.assembly, Plan.deviceWorker, Plan.dataWorker, reserving]
  case next =>
    intro past m t job later _ each agenda _ _ _
    have here := each t
    rw [agenda] at here
    by_cases acquires : job = .acquire .registry
    · subst acquires
      trivial
    have none := here.1 acquires
    by_cases source : (∃ adapter, job = .hub (.add adapter)) ∨ ∃ ref, job = .perform (.register ref)
    · rcases source with ⟨adapter, rfl⟩ | ⟨ref, rfl⟩
      · simp only [Job.exec, HubJob.exec]
        split <;> simp [Each, Plan.register, reserving, none]
      · simp only [Job.exec, Machine.perform, Machine.performOwned]
        split <;> simp [Each, Plan.register, reserving, none]
    · have next := weight_next_apart reserving_source m t job source
      exact each_imp (fun _ _ zero _ => zero) (each_weightless next none)
  case caught =>
    intro u d rest each
    have none := each.1 fun same => by cases same
    exact ⟨fun _ => by simpa [reserving] using none, fun _ => none, each.2⟩

theorem Run.asked (run : Run config hooks past m) : ∀ u deviceType adapter errand,
    .registry (.reserve deviceType adapter errand) ∈ m.agenda u → Asked past u deviceType adapter := by
  have none : ∀ {jobs deviceType adapter errand}, weight reserving jobs = 0 → .registry (.reserve deviceType adapter errand) ∉ jobs :=
    fun {jobs _ _ _} zero member => by
      have one := weight_mem (f := reserving) member
      rw [zero] at one
      cases one
  refine Run.induct (G := fun _ => True) (P := fun past m => ∀ u deviceType adapter errand,
      .registry (.reserve deviceType adapter errand) ∈ m.agenda u → Asked past u deviceType adapter)
    ?construct ?assemble ?call ?client ?carry ?unwind run fun _ _ => trivial
  case construct | assemble =>
    intro system u deviceType adapter errand member
    refine absurd member (none ?_)
    rcases initial_agenda config hooks u _ with ⟨rfl, same⟩ | same <;> rw [same] <;> rfl
  case call =>
    intro past m op _ before idle u deviceType adapter errand member
    rcases call_fresh config idle op u with same | ⟨_, fresh⟩
    · exact before u deviceType adapter errand (same ▸ member)
    · exact absurd member (none (fresh_reserving fresh))
  case client =>
    intro past m name op _ before u deviceType adapter errand member
    rcases client_fresh config m name op u with same | ⟨_, fresh⟩
    · exact before u deviceType adapter errand (same ▸ member)
    · exact absurd member (none (fresh_reserving fresh))
  case carry =>
    intro past m t job later run before agenda _ _ _ u deviceType adapter errand member
    rcases run.carried agenda member with ⟨rfl, next⟩ | ⟨old, behind⟩ | ⟨jobs, fresh, begins⟩
    · have asks : Moment.asksType ⟨m, u, job, later⟩ = some (deviceType, adapter) := by
        rcases reserving_source (leads_exec m u job _ next) Nat.one_ne_zero with ⟨other, rfl⟩ | ⟨ref, rfl⟩
        · simp only [Job.exec, HubJob.exec] at next
          split at next
          · simp at next
          · simp only [Plan.register, List.mem_cons, reduceCtorEq, List.not_mem_nil, or_false, false_or, Job.registry.injEq,
              RegistryJob.reserve.injEq] at next
            obtain ⟨rfl, rfl, _⟩ := next
            rfl
        · simp only [Job.exec, Machine.perform, Machine.performOwned] at next
          split at next
          · simp only [Plan.register, List.mem_cons, reduceCtorEq, List.not_mem_nil, or_false, false_or, Job.registry.injEq,
              RegistryJob.reserve.injEq] at next
            obtain ⟨rfl, rfl, _⟩ := next
            rfl
          · simp at next
      exact ⟨past, _, [], rfl, rfl, asks, fun _ absent => by cases absent⟩
    · refine (before u deviceType adapter errand old).snoc fun same => ?_
      have each := run.waits_registry t
      rw [agenda] at each
      by_cases acquires : job = .acquire .registry
      · exact acquires
      · exact absurd (behind same.symm) (none (each.1 acquires))
    · exact absurd begins (none (fresh_reserving fresh))
  case unwind =>
    intro past m t later run before agenda _ u deviceType adapter errand member
    rcases run.agenda_unwound agenda u with trails | ⟨mine, same⟩
    · exact absurd member (none (trails_reserving trails))
    · rw [same] at member
      exact (before u deviceType adapter errand member).snoc fun same => absurd same.symm mine

structure Recorded (past : List Moment) (m : Machine) : Prop where
  historic : Historic (registryCalls past) m.hub.registry
  entered : ∀ id deviceType adapter, .register id deviceType adapter ∈ registryCalls past → Captured past id deviceType adapter
  pending : ∀ u id deviceType adapter, .registry (.enrol id deviceType adapter) ∈ m.agenda u →
    Captured past id deviceType adapter ∧ id.val = m.hub.registry.lastId.toNat ∧
      ∀ other, since other (registryCalls past) ≠ [] → other.val < id.val

theorem unentered {jobs : List Job} (fresh : Fresh config u jobs) (id : AdapterId) (deviceType : String) (adapter : AdapterKey) :
    .registry (.enrol id deviceType adapter) ∉ jobs := fun member => by
  have plain := (registryGate_sound.fresh _ _ _ fresh _ member).2.2
  cases plain

theorem Recorded.aside (before : Recorded past m) (run : Run config hooks past m) (agenda : m.agenda t = job :: later)
    (hands : ∀ deviceType adapter errand, job ≠ .registry (.reserve deviceType adapter errand))
    (enters : ∀ id deviceType adapter, job ≠ .registry (.enrol id deviceType adapter)) :
    Recorded (past ++ [⟨m, t, job, later⟩]) (m.carry t job later) := by
  have alike := alike_exec m t job
  have calls : ∀ id deviceType adapter, Moment.registryCall ⟨m, t, job, later⟩ ≠ some (.register id deviceType adapter) := by
    intro id deviceType adapter here
    cases job with
    | registry job =>
        cases job with
        | enrol => exact absurd rfl (enters _ _ _)
        | replace =>
            simp only [Moment.registryCall] at here
            split at here <;> cases here
        | _ => cases here
    | _ => cases here
  have known : ∀ other, since other (registryCalls (past ++ [⟨m, t, job, later⟩])) ≠ [] → since other (registryCalls past) ≠ [] := by
    intro other here
    rw [registryCalls_snoc] at here
    cases takes : Moment.registryCall ⟨m, t, job, later⟩ with
    | none => simpa [takes] using here
    | some call =>
        rw [takes] at here
        rcases Registry.known_snoc.mp here with old | new
        · exact old
        · cases call with
          | register id deviceType adapter => exact absurd takes (calls _ _ _)
          | unregister | replace => cases new
  refine ⟨?_, ?_, ?_⟩
  · have historic := before.historic
    rw [registryCalls_snoc, hub_carry]
    refine Historic.alike ?_ alike
    cases job with
    | registry job =>
        cases job with
        | reserve => exact absurd rfl (hands _ _ _)
        | enrol => exact absurd rfl (enters _ _ _)
        | withdraw id errand => exact historic.unregister id
        | store id devices => exact historic.replace id devices
        | replace id devices errand =>
            simp only [Moment.registryCall, Job.revises]
            cases found : m.hub.registry.find? id with
            | none =>
                have dropped := historic.replace id devices
                rw [Registry.replaceDevices_unknown found] at dropped
                exact dropped
            | some e => simpa using historic
    | _ => simpa [Moment.registryCall, Job.revises] using historic
  · intro id deviceType adapter member
    rw [registryCalls_snoc, List.mem_append, Option.mem_toList] at member
    exact (before.entered id deviceType adapter (member.resolve_right (calls _ _ _))).snoc
  · intro u id deviceType adapter member
    rw [hub_carry, lastId_aside hands]
    rcases run.carried agenda member with ⟨_, next⟩ | ⟨old, _⟩ | ⟨jobs, fresh, begins⟩
    · obtain ⟨_, _, _, same⟩ := enrol_origin (leads_exec m t job _ next)
      exact absurd same (hands _ _ _)
    · obtain ⟨given, last, all⟩ := before.pending u id deviceType adapter old
      exact ⟨given.snoc, last, fun other here => all other (known other here)⟩
    · exact absurd begins (unentered fresh _ _ _)

theorem Recorded.reserve (before : Recorded past m) (run : Run config hooks past m) {deviceType : String} {adapter : AdapterKey}
    {errand : Errand} (agenda : m.agenda t = .registry (.reserve deviceType adapter errand) :: later)
    (within : m.hub.registry.lastId.toNat + 1 < UInt32.size) :
    Recorded (past ++ [⟨m, t, .registry (.reserve deviceType adapter errand), later⟩])
      (m.carry t (.registry (.reserve deviceType adapter errand)) later) := by
  have calls : registryCalls (past ++ [⟨m, t, .registry (.reserve deviceType adapter errand), later⟩]) = registryCalls past := by
    rw [registryCalls_snoc]
    exact List.append_nil _
  have registry : (m.carry t (.registry (.reserve deviceType adapter errand)) later).hub.registry = m.hub.registry.reserve := rfl
  have below : ∀ other, since other (registryCalls past) ≠ [] → other.val < m.hub.registry.nextId.val := fun other known => by
    have next : m.hub.registry.nextId.val = m.hub.registry.lastId.toNat + 1 := Registry.lastId_reserve within
    rw [next]
    exact Nat.lt_succ_of_le (before.historic.spent other known)
  refine ⟨?_, ?_, ?_⟩
  · rw [calls, registry]
    exact before.historic.reserve within
  · rw [calls]
    exact fun id deviceType adapter member => (before.entered id deviceType adapter member).snoc
  · intro u id kind key member
    rw [calls, registry]
    rcases run.carried agenda member with ⟨_, next⟩ | ⟨old, behind⟩ | ⟨jobs, fresh, begins⟩
    · have same : id = m.hub.registry.nextId ∧ kind = deviceType ∧ key = adapter := by
        simp only [Job.exec, RegistryJob.exec, Job.logRegistry, List.mem_cons, List.not_mem_nil, or_false, reduceCtorEq, false_or,
          Job.registry.injEq, RegistryJob.enrol.injEq] at next
        rcases next with same | none
        · exact same
        · split at none <;> cases none
      obtain ⟨rfl, rfl, rfl⟩ := same
      exact ⟨⟨past, _, [], rfl, rfl, run.asked t _ _ errand (agenda ▸ List.mem_cons_self ..)⟩, rfl, below⟩
    · -- The registry is held for this call, so no other adapter is about to be entered.
      have kept := registryGate_sound.ever (fun _ => rfl) run
      obtain ⟨mine, others⟩ := kept.owing agenda Nat.one_pos rfl
      have one := weight_mem (f := registryGate.guards) old
      have guards : registryGate.guards (.registry (.enrol id kind key)) = 1 := rfl
      by_cases self : u = t
      · have one := weight_mem (f := registryGate.guards) (behind self)
        omega
      · have none := others u self
        omega
    · exact absurd begins (unentered fresh _ _ _)

theorem Recorded.enrol (before : Recorded past m) (run : Run config hooks past m) {deviceType : String} {adapter : AdapterKey}
    (agenda : m.agenda t = .registry (.enrol id deviceType adapter) :: later) :
    Recorded (past ++ [⟨m, t, .registry (.enrol id deviceType adapter), later⟩])
      (m.carry t (.registry (.enrol id deviceType adapter)) later) := by
  have calls : registryCalls (past ++ [⟨m, t, .registry (.enrol id deviceType adapter), later⟩]) =
      registryCalls past ++ [.register id deviceType adapter] := registryCalls_snoc
  have registry : (m.carry t (.registry (.enrol id deviceType adapter)) later).hub.registry =
      m.hub.registry.enrol id deviceType adapter := rfl
  obtain ⟨captured, last, all⟩ := before.pending t id deviceType adapter (agenda ▸ List.mem_cons_self ..)
  refine ⟨?_, ?_, ?_⟩
  · rw [calls, registry]
    exact before.historic.enrol (Nat.le_of_eq last) all
  · intro other kind key member
    rw [calls] at member
    rcases List.mem_append.mp member with old | new
    · exact (before.entered other kind key old).snoc
    · cases List.mem_singleton.mp new
      exact captured.snoc
  · intro u other kind key member
    rcases run.carried agenda member with ⟨_, next⟩ | ⟨old, behind⟩ | ⟨jobs, fresh, begins⟩
    · cases next
    · have kept := registryGate_sound.ever (fun _ => rfl) run
      obtain ⟨mine, others⟩ := kept.guarding agenda Nat.one_pos
      have guards : registryGate.guards (.registry (.enrol other kind key)) = 1 := rfl
      by_cases self : u = t
      · have one := weight_mem (f := registryGate.guards) (behind self)
        omega
      · have one := weight_mem (f := registryGate.guards) old
        have none := others u self
        omega
    · exact absurd begins (unentered fresh _ _ _)

theorem Run.recorded (run : Run config hooks past m) (counted : ∀ x ∈ past, x.counted) : Recorded past m := by
  have empty : Historic [] {} :=
    ⟨.nil, fun _ => by simp [Registry.ids, registered, since], fun _ none => (by cases none), fun _ none => absurd rfl none⟩
  have start : ∀ {system} jobs, Fresh config .caller jobs → Recorded [] ((Machine.initial config hooks system).beginWith jobs) := by
    intro system jobs fresh
    refine ⟨empty, fun _ _ _ none => (by cases none), fun u id deviceType adapter member => ?_⟩
    rcases initial_fresh config hooks u fresh with idle | begins
    · rw [idle] at member
      cases member
    · exact absurd member (unentered begins _ _ _)
  refine Run.induct (G := Moment.counted) (P := Recorded) (start _ .construction) (start _ .assembly) ?call ?client ?carry ?unwind run
    counted
  case call =>
    intro past m op _ before idle
    refine ⟨before.historic, before.entered, fun u id deviceType adapter member => ?_⟩
    rcases call_fresh config idle op u with same | ⟨_, fresh⟩
    · exact before.pending u id deviceType adapter (same ▸ member)
    · exact absurd member (unentered fresh _ _ _)
  case client =>
    intro past m name op _ before
    refine ⟨before.historic, before.entered, fun u id deviceType adapter member => ?_⟩
    rcases client_fresh config m name op u with same | ⟨_, fresh⟩
    · exact before.pending u id deviceType adapter (same ▸ member)
    · exact absurd member (unentered fresh _ _ _)
  case carry =>
    intro past m t job later run before agenda _ _ counted
    by_cases hands : ∃ deviceType adapter errand, job = .registry (.reserve deviceType adapter errand)
    · obtain ⟨deviceType, adapter, errand, rfl⟩ := hands
      exact before.reserve run agenda (counted fun none => by cases none)
    by_cases enters : ∃ id deviceType adapter, job = .registry (.enrol id deviceType adapter)
    · obtain ⟨id, deviceType, adapter, rfl⟩ := enters
      exact before.enrol run agenda
    · exact before.aside run agenda (fun _ _ _ same => hands ⟨_, _, _, same⟩) fun _ _ _ same => enters ⟨_, _, _, same⟩
  case unwind =>
    intro past m t later run before agenda _
    have calls : registryCalls (past ++ [⟨m, t, .panic, later⟩]) = registryCalls past := by
      rw [registryCalls_snoc]
      exact List.append_nil _
    refine ⟨?_, ?_, ?_⟩
    · rw [calls, registry_unwind]
      exact before.historic
    · rw [calls]
      exact fun id deviceType adapter member => (before.entered id deviceType adapter member).snoc
    · intro u id deviceType adapter member
      rw [calls, registry_unwind]
      obtain ⟨captured, last, all⟩ := before.pending u id deviceType adapter (run.outlived agenda rfl member).2
      exact ⟨captured.snoc, last, all⟩

-- An adapter is about to be entered under an id, or a list to be set.
def entering (id : AdapterId) : Job → Nat
  | .registry (.enrol i ..) => if i = id then 1 else 0
  | _ => 0

def setting (id : AdapterId) (devices : List DiscoveredDevice) : Job → Nat
  | .registry (.store i given) => if i = id ∧ given = devices then 1 else 0
  | _ => 0

def Moment.accepts (id : AdapterId) (devices : List DiscoveredDevice) (x : Moment) : Nat :=
  match x.job with
  | .registry (.replace i given _) => if i = id ∧ given = devices ∧ (x.machine.hub.registry.find? id).isSome then 1 else 0
  | _ => 0

theorem inner_entering (id : AdapterId) : Inner (entering id) := ⟨fun _ _ _ fresh => by cases fresh <;> rfl, rfl, fun _ => rfl⟩

theorem inner_setting (id : AdapterId) (devices : List DiscoveredDevice) : Inner (setting id devices) :=
  ⟨fun _ _ _ fresh => by cases fresh <;> rfl, rfl, fun _ => rfl⟩

theorem entering_source {id : AdapterId} {j : Job} (leads : job.leads j = true) (here : entering id j ≠ 0) :
    ∃ deviceType adapter errand, job = .registry (.reserve deviceType adapter errand) := by
  cases j with
  | registry j =>
      cases j with
      | enrol => exact enrol_origin leads
      | _ => exact absurd rfl here
  | _ => exact absurd rfl here

theorem setting_source {id : AdapterId} {devices : List DiscoveredDevice} {j : Job} (leads : job.leads j = true)
    (here : setting id devices j ≠ 0) : ∃ i given errand, job = .registry (.replace i given errand) := by
  cases j with
  | registry j =>
      cases j with
      | store => exact store_origin leads
      | _ => exact absurd rfl here
  | _ => exact absurd rfl here

theorem entering_next (id : AdapterId) (m : Machine) (t : ThreadId) (job : Job) (later : List Job) :
    weight (entering id) (job.exec m t).2 = if Moment.issues ⟨m, t, job, later⟩ = some id then 1 else 0 := by
  by_cases hands : ∃ deviceType adapter errand, job = .registry (.reserve deviceType adapter errand)
  · obtain ⟨deviceType, adapter, errand, rfl⟩ := hands
    cases errand <;> simp [Job.exec, RegistryJob.exec, Moment.issues, entering, Job.logRegistry]
  · rw [weight_next_apart entering_source m t job hands, issues_aside fun _ _ _ same => hands ⟨_, _, _, same⟩]
    rfl

theorem setting_next (id : AdapterId) (devices : List DiscoveredDevice) (m : Machine) (t : ThreadId) (job : Job)
    (later : List Job) : weight (setting id devices) (job.exec m t).2 = Moment.accepts id devices ⟨m, t, job, later⟩ := by
  by_cases gives : ∃ i given errand, job = .registry (.replace i given errand)
  · obtain ⟨i, given, errand, rfl⟩ := gives
    simp only [Job.exec, RegistryJob.exec, Moment.accepts]
    cases found : m.hub.registry.find? i with
    | none =>
        have apart : ¬ (i = id ∧ given = devices ∧ (m.hub.registry.find? id).isSome = true) := by
          rintro ⟨rfl, _, some⟩
          rw [found] at some
          cases some
        rw [if_neg apart]
        cases errand <;> simp [setting, RegistryJob.afterReplacement, Job.logRegistry]
    | some e =>
        have same : (i = id ∧ given = devices ∧ (m.hub.registry.find? id).isSome = true) ↔ i = id ∧ given = devices := by
          refine and_congr_right fun same => and_iff_left ?_
          rw [← same, found]
          rfl
        simp only [same]
        cases errand <;> simp [setting, RegistryJob.afterReplacement, Job.logRegistry]
  · rw [weight_next_apart setting_source m t job gives]
    cases job with
    | registry job => cases job <;> first | rfl | exact absurd ⟨_, _, _, rfl⟩ gives
    | _ => rfl

theorem Run.enters_issued (run : Run config hooks past m) (id : AdapterId) :
    total (fun x => if x.issues = some id then 1 else 0) past =
      total (fun x => entering id x.job) past + due (entering id) past m := by
  have law := run.ledger (a := fun x => if x.issues = some id then 1 else 0) (b := fun x => entering id x.job)
    (q := fun _ => 0) (r := fun _ => 0) (inner_entering id) rfl (fun _ => ⟨rfl, rfl⟩) (fun _ _ _ => ⟨rfl, rfl⟩)
    (fun {_ m t job later} _ _ _ _ => by
      have next := entering_next id m t job later
      simp only
      omega)
  simp only [due]
  omega

theorem Run.sets_accepted (run : Run config hooks past m) (id : AdapterId) (devices : List DiscoveredDevice) :
    total (Moment.accepts id devices) past = total (fun x => setting id devices x.job) past + due (setting id devices) past m := by
  have law := run.ledger (a := Moment.accepts id devices) (b := fun x => setting id devices x.job)
    (q := fun _ => 0) (r := fun _ => 0) (inner_setting id devices) rfl (fun _ => ⟨rfl, rfl⟩) (fun _ _ _ => ⟨rfl, rfl⟩)
    (fun {_ m t job later} _ _ _ _ => by
      have next := setting_next id devices m t job later
      simp only
      omega)
  simp only [due]
  omega

-- The registry equals its history. Calls that a panic has cut short aside, every id handed out is registered, and
-- every list given for an id that is registered is set.
structure RegistryTold (past : List Moment) (m : Machine) : Prop where
  ascending : m.hub.registry.ids.Pairwise fun a b => a.val < b.val
  member : ∀ id, id ∈ m.hub.registry.ids ↔ registered id (registryCalls past) = true
  issued : (issued past).Pairwise fun a b => a.val < b.val
  captured : ∀ id deviceType adapter, .register id deviceType adapter ∈ registryCalls past → Captured past id deviceType adapter
  aggregate : m.hub.registry.aggregate = m.hub.registry.ids.flatMap fun id =>
    (listed id (registryCalls past)).map fun d =>
      DeviceInfo.mk d.handle d.uniqueId d.friendlyName (Registry.captured id (registryCalls past))
  adapters : m.hub.registry.adapters.map (·.1) = m.hub.registry.ids ∧
    ∀ a ∈ m.hub.registry.adapters, (origin a.1 (registryCalls past)).map (·.2) = some a.2
  owners : ∀ handle, m.hub.registry.owners handle =
    m.hub.registry.adapters.filter fun a => (listed a.1 (registryCalls past)).any (·.handle = handle)
  once : ∀ handle, (m.hub.registry.owners handle).Nodup
  owned : ∀ handle, m.hub.registry.owners handle ≠ [] ↔ ∃ info ∈ m.hub.registry.aggregate, info.handle = handle
  size : m.hub.registry.size = m.hub.registry.ids.length
  empty : (m.hub.registry.size == 0) = m.hub.registry.ids.isEmpty
  contains : ∀ id, m.hub.registry.contains id = true ↔ id ∈ m.hub.registry.ids
  entered : ∀ id, total (fun x => if x.issues = some id then 1 else 0) past =
    total (fun x => entering id x.job) past + due (entering id) past m
  set : ∀ id devices, total (Moment.accepts id devices) past =
    total (fun x => setting id devices x.job) past + due (setting id devices) past m

theorem registry_told (run : Run config hooks past m) (few : (issued past).length < UInt32.size) : RegistryTold past m := by
  obtain ⟨historic, entered, _⟩ := run.recorded (run.counted few)
  have size : m.hub.registry.size = m.hub.registry.ids.length := (List.length_map _).symm
  exact {
    ascending := historic.ascending
    member := historic.member
    issued := run.issued_ascending few
    captured := entered
    aggregate := historic.aggregate
    adapters := historic.adapters
    owners := historic.owners
    once := historic.nodup_owners
    owned := m.hub.registry.owned_iff
    size := size
    empty := by
      rw [size]
      cases m.hub.registry.ids <;> rfl
    contains := m.hub.registry.contains_eq_true_iff
    entered := run.enters_issued
    set := run.sets_accepted }

def phone (handle : Nat) : DiscoveredDevice := { handle := ⟨handle⟩, uniqueId := "u", friendlyName := "n" }

-- Three registrations, one of them taken out again; the second adapter answers another type later on.
def registrySession : List Moment × Machine :=
  solo quietConfig [] [.registry (.replace ⟨1⟩ [phone 9]), .registry (.unregister ⟨1⟩), .setType "b" "usb",
    .registry (.replace ⟨3⟩ [phone 8]), .registry (.replace ⟨2⟩ [phone 7, phone 8, phone 7]), .registry (.replace ⟨2⟩ [phone 6]),
    .registry (.replace ⟨1⟩ [phone 5]), .register (.named "b"), .register (.fresh { name := "b", deviceType := "wifi" }),
    .register (.named "a")]

theorem registry_of_three : RegistryTold registrySession.1 registrySession.2 ∧
    issued registrySession.1 = [⟨1⟩, ⟨2⟩, ⟨3⟩] ∧ registrySession.2.hub.registry.ids = [⟨2⟩, ⟨3⟩] ∧
    listed ⟨2⟩ (registryCalls registrySession.1) = [phone 7, phone 8, phone 7] ∧
    (registryCalls registrySession.1).length = 9 ∧
    registrySession.2.hub.registry.aggregate = [⟨⟨7⟩, "u", "n", "wifi"⟩, ⟨⟨8⟩, "u", "n", "wifi"⟩, ⟨⟨7⟩, "u", "n", "wifi"⟩,
      ⟨⟨8⟩, "u", "n", "wifi"⟩] ∧
    registrySession.2.hub.registry.owners ⟨8⟩ = [(⟨2⟩, ⟨1⟩), (⟨3⟩, ⟨1⟩)] := by
  refine ⟨registry_told (solo_run _ _ _) (by decide +kernel), ?_⟩
  decide +kernel

end TransportHub
