import TransportHub.Proofs.DeviceWorker
import TransportHub.Proofs.Lifecycle
/-!
The teardown of a hub. A shutdown passes the start of the hub, stops the adapters, closes the map of the
data lanes, forgets the connections and halts the hub, in this order; what one of these steps has settled
stays settled.
-/

set_option autoImplicit false

namespace TransportHub

variable {config : Config} {hooks : List Hook} {system : System} {past : List Moment} {m : Machine} {t u : ThreadId}
  {job : Job} {later : List Job} {x : Moment} {id : AdapterId}

-- A job of the first kind is on the way to one of the second.
def Fence.order (first second : Job → Bool) : Fence where
  mark := first
  brittle _ := false
  pinned := second

theorem exposed_order {first second : Job → Bool} {rest : List Job} (exposed : (Fence.order first second).exposed rest = true) :
    ∃ j ∈ rest, second j = true := Classical.byContradiction fun none => by
  rw [Fence.exposed_unpinned fun j member => by
    cases here : second j with
    | false => exact here
    | true => exact absurd ⟨j, member, here⟩ none] at exposed
  cases exposed

-- Nobody comes to a job of the second kind, not to speak of doing it, before `D` holds, if the jobs of
-- the first kind see to that.
theorem Run.ordered {G : Moment → Prop} {D : List Moment → Hub → Prop} (first second : Job → Bool)
    (fresh : ∀ config u agenda, Fresh config u agenda → ∀ job ∈ agenda, second job = false)
    (trails : ∀ job, job.trails = true → second job = false) (panic : second .panic = false)
    (keep : ∀ {past m t job later}, Run config hooks past m → (∀ y ∈ past, G y) → G ⟨m, t, job, later⟩ → m.agenda t = job :: later →
      job.enabled m t = true → D past m.hub → D (past ++ [⟨m, t, job, later⟩]) (job.exec m t).1.hub)
    (detach : ∀ {past m t later h}, h = m.hub ∨ h = { m.hub with attached := false } → D past m.hub →
      D (past ++ [⟨m, t, .panic, later⟩]) h)
    (next : ∀ {past m t job later}, Run config hooks past m → (∀ y ∈ past, G y) → G ⟨m, t, job, later⟩ → m.agenda t = job :: later →
      job.enabled m t = true → (Fence.order first second).exposed (job.exec m t).2 = true →
      D (past ++ [⟨m, t, job, later⟩]) (job.exec m t).1.hub)
    (mark : ∀ {past m t job later}, Run config hooks past m → (∀ y ∈ past, G y) → m.agenda t = job :: later →
      job.enabled m t = true → first job = true → (Fence.order first second).exposed later = true →
      D (past ++ [⟨m, t, job, later⟩]) (job.exec m t).1.hub)
    (run : Run config hooks past m) (all : ∀ x ∈ past, G x) :
    (∀ u, (Fence.order first second).exposed (m.agenda u) = true → D past m.hub) ∧
      ((∃ x ∈ past, second x.job = true ∧ first x.job = false) → D past m.hub) := by
  have loose : ∀ {u agenda}, Fresh config u agenda → (Fence.order first second).exposed agenda = false :=
    fun begins => Fence.exposed_unpinned (fresh config _ _ begins)
  have start : ∀ {system jobs}, Fresh config .caller jobs → ∀ u,
      (Fence.order first second).exposed (((Machine.initial config hooks system).beginWith jobs).agenda u) = false :=
      fun begins u => by
    rcases initial_fresh config hooks u begins with idle | begins
    · rw [idle]
      rfl
    · exact loose begins
  refine Run.induct_all (G := G) (P := fun past m => (∀ u, (Fence.order first second).exposed (m.agenda u) = true → D past m.hub) ∧
      ((∃ x ∈ past, second x.job = true ∧ first x.job = false) →
      D past m.hub)) ?construct ?assemble ?call ?client ?carry ?unwind run all
  case construct =>
    exact ⟨fun u exposed => absurd ((start .construction u).symm.trans exposed) Bool.false_ne_true, by rintro ⟨_, ⟨⟩, _⟩⟩
  case assemble =>
    exact ⟨fun u exposed => absurd ((start .assembly u).symm.trans exposed) Bool.false_ne_true, by rintro ⟨_, ⟨⟩, _⟩⟩
  case call =>
    intro past m op _ before idle
    refine ⟨fun u exposed => ?_, before.2⟩
    rcases call_fresh config idle op u with same | ⟨_, begins⟩
    · exact before.1 u (same ▸ exposed)
    · rw [loose begins] at exposed
      cases exposed
  case client =>
    intro past m name op _ before
    refine ⟨fun u exposed => ?_, before.2⟩
    rcases client_fresh config m name op u with same | ⟨_, begins⟩
    · exact before.1 u (same ▸ exposed)
    · rw [loose begins] at exposed
      cases exposed
  case carry =>
    intro past m t job later run before agenda notPanic enabled old now
    have still : D past m.hub → D (past ++ [⟨m, t, job, later⟩]) (job.exec m t).1.hub := keep run old now agenda enabled
    refine ⟨fun u exposed => ?_, ?_⟩
    · by_cases mine : u = t
      · subst mine
        rw [agenda_carry_self agenda] at exposed
        rcases Fence.exposed_either exposed with exposed | behind
        · exact next run old now agenda enabled exposed
        · cases marked : first job with
          | true => exact mark run old agenda enabled marked behind
          | false =>
              refine still (before.1 u ?_)
              rw [agenda]
              simp only [Fence.exposed, behind]
              simp [Fence.order, marked]
      · rcases run.carry_fresh job later mine with same | ⟨_, begins⟩
        · exact still (before.1 u (same ▸ exposed))
        · rw [loose begins] at exposed
          cases exposed
    · rintro ⟨y, seen, here, unmarked⟩
      rcases List.mem_append.mp seen with seen | now
      · exact still (before.2 ⟨y, seen, here, unmarked⟩)
      · cases List.mem_singleton.mp now
        refine still (before.1 t ?_)
        rw [agenda]
        have pinned : (Fence.order first second).pinned job = true := here
        have open_ : (Fence.order first second).mark job = false := unmarked
        simp only [Fence.exposed, pinned, open_]
        rfl
  case unwind =>
    intro past m t later run before agenda _ _
    have still : D past m.hub → D (past ++ [⟨m, t, .panic, later⟩]) (m.unwind t later).hub := detach (hub_unwind m t later)
    refine ⟨fun u exposed => ?_, ?_⟩
    · rcases run.agenda_unwound agenda u with left | ⟨_, same⟩
      · rw [Fence.exposed_unpinned fun j member => trails j (left j member)] at exposed
        cases exposed
      · rw [same] at exposed
        exact still (before.1 u exposed)
    · rintro ⟨y, seen, here, unmarked⟩
      rcases List.mem_append.mp seen with seen | now
      · exact still (before.2 ⟨y, seen, here, unmarked⟩)
      · cases List.mem_singleton.mp now
        rw [panic] at here
        cases here

def stopsAdapters : Job → Bool
  | .hub job => (job matches .stopAdapters)
  | _ => false

def clearsLinks : Job → Bool
  | .hub job => (job matches .clearConnections)
  | _ => false

def halts : Job → Bool
  | .hub job => (job matches .halt)
  | _ => false

def wakesDevice : Job → Bool
  | .deviceLane job => (job matches .wake)
  | _ => false

def withdraws (id : AdapterId) : Job → Bool
  | .registry (.withdraw i _) => i = id
  | _ => false

def takesLifecycle : Job → Bool
  | .acquire lock => lock = .lifecycle
  | _ => false

theorem stops_job (here : stopsAdapters job = true) : job = .hub .stopAdapters := by
  cases job with
  | hub job => cases job <;> first | rfl | cases here
  | _ => cases here

theorem clears_job (here : clearsLinks job = true) : job = .hub .clearConnections := by
  cases job with
  | hub job => cases job <;> first | rfl | cases here
  | _ => cases here

theorem halts_job (here : halts job = true) : job = .hub .halt := by
  cases job with
  | hub job => cases job <;> first | rfl | cases here
  | _ => cases here

theorem wakes_job (here : wakesDevice job = true) : job = .deviceLane .wake := by
  cases job with
  | deviceLane job => cases job <;> first | rfl | cases here
  | _ => cases here

theorem takes_job (here : takesLifecycle job = true) : job = .acquire .lifecycle := by
  cases job with
  | acquire lock =>
      have same : lock = .lifecycle := by simpa [takesLifecycle] using here
      rw [same]
  | _ => cases here

theorem teardown_source {j : Job} (leads : job.leads j = true) (here : clearsLinks j = true ∨ halts j = true) :
    job = .hub .stopAdapters := by
  rcases here with here | here
  · rw [clears_job here] at leads
    exact clearConnections_origin leads
  · rw [halts_job here] at leads
    exact halt_origin leads

theorem fresh_final {agenda : List Job} (fresh : Fresh config u agenda) (member : job ∈ agenda) :
    stopsAdapters job = false ∧ clearsLinks job = false ∧ halts job = false := by
  have none : ∀ j ∈ agenda, (stopsAdapters j || clearsLinks j || halts j) = false :=
    fresh.all (fun _ => rfl) rfl (fun _ => rfl) (fun _ _ => rfl) rfl fun _ => rfl
  simpa only [Bool.or_eq_false_iff, and_assoc] using none job member

theorem trails_final (trails : job.trails = true) : stopsAdapters job = false ∧ clearsLinks job = false ∧ halts job = false := by
  cases job with
  | hub => cases trails
  | _ => exact ⟨rfl, rfl, rfl⟩

theorem shutdown_split (ids : List AdapterId) (join : Bool) : HubJob.shutDownAll ids join =
    ids.flatMap (Plan.withdraw · .shutdown) ++ ([.deviceLane .wake, .dataLane (.close join)] ++
      ((if join then [.deviceLane .join] else []) ++ [.hub .clearConnections, .hub .halt, Job.logHub .shutDown])) := by
  simp [HubJob.shutDownAll]

theorem shut_unexposed {F : Fence} {rest : List Job} (shut : F.shut rest = true) : F.exposed rest = false := by
  have whole : F.exposed (rest ++ []) = false := Fence.exposed_shut shut
  rwa [List.append_nil] at whole

def Job.dismantles (job : Job) : Bool := closesLanes job || joinsDeviceLane job || clearsLinks job || halts job

theorem dismantles_cases (here : job.dismantles = true) :
    closesLanes job = true ∨ joinsDeviceLane job = true ∨ clearsLinks job = true ∨ halts job = true := by
  simpa only [Job.dismantles, Bool.or_eq_true, or_assoc] using here

theorem dismantles_source {j : Job} (leads : job.leads j = true) (here : j.dismantles = true) :
    job = .hub .stopAdapters ∨ ∃ op, job = .perform op ∧ op.managed = false := by
  rcases dismantles_cases here with closes | joins | clears | halts
  · exact final_source leads (.inl closes)
  · exact final_source leads (.inr joins)
  · exact .inl (teardown_source leads (.inl clears))
  · exact .inl (teardown_source leads (.inr halts))

theorem fresh_dismantles {agenda : List Job} (fresh : Fresh config u agenda) (member : job ∈ agenda) : job.dismantles = false := by
  have final := fresh_final fresh member
  simp only [Job.dismantles, closing_final.fresh config u agenda fresh job member,
    joining_final.fresh config u agenda fresh job member,
    final.2.1, final.2.2, Bool.or_self]

theorem trails_dismantles (trails : job.trails = true) : job.dismantles = false := by
  have final := trails_final trails
  simp only [Job.dismantles, closing_final.trails job trails, joining_final.trails job trails, final.2.1, final.2.2, Bool.or_self]

theorem unexposed_next {first second : Job → Bool} (late : ∀ j, second j = true → j.dismantles = true)
    (closed : ∀ join, (Fence.order first second).shut ([.deviceLane .wake, .dataLane (.close join)] ++
      ((if join then [.deviceLane .join] else []) ++ [.hub .clearConnections, .hub .halt, Job.logHub .shutDown])) = true)
    (m : Machine) (t : ThreadId) (job : Job) (managed : ∀ op, job = .perform op → op.managed = true) :
    (Fence.order first second).exposed (job.exec m t).2 = false := by
  cases exposed : (Fence.order first second).exposed (job.exec m t).2 with
  | false => rfl
  | true =>
      obtain ⟨j, member, here⟩ := exposed_order exposed
      rcases dismantles_source (leads_exec m t job j member) (late j here) with rfl | ⟨op, rfl, foreign⟩
      · simp only [Job.exec, HubJob.exec, shutdown_split] at exposed
        have loose : ∀ job ∈ m.hub.registry.ids.flatMap (Plan.withdraw · .shutdown), second job = false := fun job member => by
          cases last : second job with
          | false => rfl
          | true =>
              have ends := late _ last
              rcases withdraws_cases member with rfl | ⟨i, rfl⟩ <;> cases ends
        rw [shut_unexposed (Fence.shut_unpinned loose (closed _))] at exposed
        cases exposed
      · rw [managed op rfl] at foreign
        cases foreign

-- Somebody passed the start of the hub after termination had begun.
def Sealed (past : List Moment) : Prop := ∃ x ∈ past, x.job = .acquire .lifecycle ∧ x.machine.hub.terminating = true

theorem Sealed.more (sealed : Sealed past) (x : Moment) : Sealed (past ++ [x]) := seen_before sealed

theorem Run.sealed (run : Run config hooks past m) (managed : ∀ x ∈ past, x.managed) :
    (∀ u, (Fence.order takesLifecycle stopsAdapters).exposed (m.agenda u) = true → Sealed past) ∧
      ((∃ x ∈ past, stopsAdapters x.job = true ∧ takesLifecycle x.job = false) → Sealed past) := by
  refine run.ordered (G := Moment.managed) (D := fun past _ => Sealed past) takesLifecycle stopsAdapters
    (fun _ _ _ fresh _ member => (fresh_final fresh member).1) (fun _ trails => (trails_final trails).1) rfl
    (fun _ _ _ _ _ sealed => sealed.more _) (fun _ sealed => sealed.more _) ?next ?mark managed
  case next =>
    intro past m t job later _ _ _ _ _ exposed
    obtain ⟨j, member, here⟩ := exposed_order exposed
    have leads := leads_exec m t job j member
    rw [stops_job here] at leads
    obtain rfl := stopAdapters_origin leads
    rw [(Once.raised m t).2] at exposed
    split at exposed <;> cases exposed
  case mark =>
    intro past m t job later run managed agenda _ marked exposed
    obtain ⟨j, member, here⟩ := exposed_order exposed
    have once := run.ends_once closing_final.toOnce managed
    have pending : 1 ≤ weight (Job.ends closesLanes) (m.agenda t) := by
      have one := weight_mem (f := Job.ends closesLanes) member
      rw [stops_job here] at one
      rw [agenda, weight_cons]
      exact Nat.le_trans one (Nat.le_add_left _ _)
    have load := load_mem (f := Job.ends closesLanes) (m := m) t
    refine ⟨_, List.mem_append_right _ (List.mem_singleton.mpr rfl), takes_job marked, ?_⟩
    show m.hub.terminating = true
    split at once
    · assumption
    · omega

theorem Run.sealed_by (run : Run config hooks past m) (managed : ∀ x ∈ past, x.managed)
    (agenda : m.agenda t = .hub .stopAdapters :: later) :
    Sealed past := (run.sealed managed).1 t (by rw [agenda]; rfl)

theorem Run.stopped (run : Run config hooks past m) (managed : ∀ x ∈ past, x.managed)
    (here : (∃ u, ∃ j ∈ m.agenda u, clearsLinks j = true ∨ halts j = true) ∨ ∃ x ∈ past, clearsLinks x.job = true ∨
      halts x.job = true) :
    ∃ x ∈ past, x.job = .hub .stopAdapters := by
  have ends : ∀ {j : Job}, (clearsLinks j || halts j) = true ↔ clearsLinks j = true ∨ halts j = true := by simp
  have ordered := run.ordered (G := Moment.managed) (D := fun past _ => ∃ x ∈ past, x.job = .hub .stopAdapters) (fun _ => false)
    (fun j => clearsLinks j || halts j)
    (fun _ _ _ fresh _ member => by rw [(fresh_final fresh member).2.1, (fresh_final fresh member).2.2]; rfl)
    (fun _ trails => by rw [(trails_final trails).2.1, (trails_final trails).2.2]; rfl) rfl
    (fun _ _ _ _ _ => seen_before) (fun _ => seen_before)
    (fun {_ m t job _} _ _ _ _ _ exposed => by
      obtain ⟨j, member, here⟩ := exposed_order exposed
      exact ⟨_, List.mem_append_right _ (List.mem_singleton.mpr rfl), teardown_source (leads_exec m t job j member) (ends.mp here)⟩)
    (fun _ _ _ _ none => by cases none) managed
  rcases here with ⟨u, j, member, here⟩ | ⟨x, seen, here⟩
  · exact ordered.1 u (Fence.exposed_mem (fun _ _ => rfl) member (ends.mpr here))
  · exact ordered.2 ⟨x, seen, ends.mpr here, rfl⟩

theorem enrols_none (m : Machine) (t : ThreadId) (job : Job) (managed : ∀ op, job = .perform op → op.managed = true)
    (ending : m.hub.terminating = true) (idle : enrolGate.guards job = 0) : weight enrolGate.guards (job.exec m t).2 = 0 := by
  refine weight_zero fun j member => ?_
  have leads := leads_exec m t job j member
  cases j with
  | registry j =>
      cases j with
      | reserve deviceType adapter errand =>
          rcases reserve_origin leads with ⟨other, rfl⟩ | ⟨ref, rfl⟩
          · simp only [Job.exec, HubJob.exec, ending, if_true, List.mem_cons, List.not_mem_nil, or_false, reduceCtorEq] at member
          · cases managed _ rfl
      | enrol id deviceType adapter =>
          obtain ⟨_, _, _, rfl⟩ := enrol_origin leads
          cases idle
      | _ => rfl
  | _ => rfl

theorem Run.sealed_gate {G : Gate} (sound : G.Sound) (lock : G.lock = .lifecycle)
    (none : ∀ (m : Machine) (t : ThreadId) (job : Job), (∀ op, job = .perform op → op.managed = true) → m.hub.terminating = true →
      G.guards job = 0 →
      weight G.guards (job.exec m t).2 = 0)
    (run : Run config hooks past m) (managed : ∀ x ∈ past, x.managed) (sealed : Sealed past) (u : ThreadId) :
    weight G.guards (m.agenda u) = 0 := by
  refine Run.induct_all (G := Moment.managed) (P := fun past m => Sealed past → ∀ u, weight G.guards (m.agenda u) = 0)
    ?construct ?assemble ?call ?client ?carry ?unwind run managed sealed u
  case construct | assemble => rintro _ ⟨_, ⟨⟩, _⟩
  case call =>
    exact fun op _ before idle sealed u => unguarded_moves sound (before sealed u) (call_fresh config idle op u)
  case client =>
    exact fun name op _ before sealed u => unguarded_moves sound (before sealed u) (client_fresh config _ name op u)
  case carry =>
    intro past m t job later run before agenda _ enabled old now sealed u
    have idle : (∀ u, weight G.guards (m.agenda u) = 0) ∧ weight G.guards (job.exec m t).2 = 0 := by
      rcases seen_snoc.mp sealed with ⟨x, seen, takes, ending⟩ | ⟨takes, _⟩
      · have idle := before ⟨x, seen, takes, ending⟩
        refine ⟨idle, ?_⟩
        have unguarded : G.guards job = 0 := by
          have whole := idle t
          rw [agenda, weight_cons] at whole
          omega
        exact none m t job now (run.terminating x seen ending) unguarded
      · subst takes
        have free : m.free G.lock = true := by simpa [Job.enabled, Job.needs, lock] using enabled
        exact ⟨fun u => (sound.run run old).open free u, rfl⟩
    exact unguarded_carry sound run agenda idle.1 idle.2 u
  case unwind =>
    intro past m t later run before agenda _ _ sealed u
    have idle := before ((seen_snoc.mp sealed).resolve_right fun none => by cases none.1)
    exact unguarded_unwind sound run agenda (idle u)

theorem Run.sealed_off (run : Run config hooks past m) (managed : ∀ x ∈ past, x.managed) (sealed : Sealed past) (u : ThreadId) :
    weight enrolGate.guards (m.agenda u) = 0 := run.sealed_gate enrolGate_sound rfl enrols_none managed sealed u

theorem Run.sealed_lane (run : Run config hooks past m) (managed : ∀ x ∈ past, x.managed) (sealed : Sealed past) (u : ThreadId) :
    weight lifecycleGate.guards (m.agenda u) = 0 := run.sealed_gate lifecycleGate_sound rfl starts_none managed sealed u

def Job.enters (ids : List AdapterId) : Job → List AdapterId
  | .registry (.enrol id ..) => ids ++ [id]
  | .registry (.withdraw id _) => ids.erase id
  | _ => ids

theorem ids_exec (m : Machine) (t : ThreadId) (job : Job) : (job.exec m t).1.hub.registry.ids = job.enters m.hub.registry.ids := by
  refine (alike_exec m t job).ids.trans ?_
  cases job with
  | registry job =>
      cases job with
      | enrol => exact Registry.ids_enrol ..
      | withdraw => exact Registry.ids_unregister ..
      | store => exact Registry.ids_replaceDevices ..
      | _ => rfl
  | _ => rfl

theorem Run.sealed_enrols (run : Run config hooks past m) (managed : ∀ x ∈ past, x.managed) (sealed : Sealed past)
    (agenda : m.agenda t = job :: later) : enrolGate.guards job = 0 := by
  have none := run.sealed_off managed sealed t
  rw [agenda, weight_cons] at none
  omega

theorem split_behind {α : Type} {front back before rest : List α} {a : α} (split : before ++ rest = front ++ a :: back)
    (apart : a ∉ before) : ∃ mid, front = before ++ mid ∧ rest = mid ++ a :: back := by
  rcases List.append_eq_append_iff.mp split with ⟨mid, here, behind⟩ | ⟨mid, here, behind⟩
  · exact ⟨mid, here, behind⟩
  · cases mid with
    | nil => exact ⟨[], by rw [here, List.append_nil, List.append_nil], behind.symm⟩
    | cons b mid =>
        obtain ⟨rfl, _⟩ := List.cons.inj behind
        exact absurd (here ▸ List.mem_append_right _ (List.mem_cons_self ..)) apart

-- Before it halts the hub, an agenda withdraws each id as often as it is registered.
def Withdraws (past : List Moment) (ids : List AdapterId) (agenda : List Job) : Prop :=
  ∀ front back, agenda = front ++ .hub .halt :: back → Sealed past ∧ ∀ id, ids.count id ≤ front.countP (withdraws id)

theorem Withdraws.absent {ids : List AdapterId} {agenda : List Job} (none : ∀ j ∈ agenda, halts j = false) :
    Withdraws past ids agenda := fun front back same => by
  have never := none (.hub .halt) (same ▸ List.mem_append_right _ (List.mem_cons_self ..))
  cases never

theorem Run.sealed_ids (run : Run config hooks past m) (managed : ∀ x ∈ past, x.managed) (sealed : Sealed past)
    (agenda : m.agenda t = job :: later) (id : AdapterId) :
    (job.exec m t).1.hub.registry.ids.count id ≤ m.hub.registry.ids.count id - if withdraws id job then 1 else 0 := by
  have enrols := run.sealed_enrols managed sealed agenda
  rw [ids_exec m t job]
  cases job with
  | registry job =>
      cases job with
      | enrol => cases enrols
      | withdraw i errand =>
          simp only [Job.enters, withdraws, List.count_erase]
          simp
      | _ => exact Nat.le_refl _
  | _ => exact Nat.le_refl _

theorem count_withdraws (ids : List AdapterId) (id : AdapterId) :
    (ids.flatMap (Plan.withdraw · .shutdown)).countP (withdraws id) = ids.count id := by
  induction ids with
  | nil => rfl
  | cons i rest ih =>
      rw [List.flatMap_cons, List.countP_append, ih, List.count_cons, Nat.add_comm]
      by_cases same : i = id <;> simp [Plan.withdraw, withdraws, same]

theorem Run.withdrawn (run : Run config hooks past m) (managed : ∀ x ∈ past, x.managed) :
    (∀ u, Withdraws past m.hub.registry.ids (m.agenda u)) ∧
      ((∃ x ∈ past, x.job = .hub .halt) → Sealed past ∧ m.hub.registry.ids = []) := by
  have fresh : ∀ {past : List Moment} {ids : List AdapterId} {u : ThreadId} {agenda : List Job}, Fresh config u agenda →
      Withdraws past ids agenda := fun begins => .absent fun _ member => (fresh_final begins member).2.2
  have start : ∀ {system jobs}, Fresh config .caller jobs → ∀ u, Withdraws []
      ((Machine.initial config hooks system).beginWith jobs).hub.registry.ids
      (((Machine.initial config hooks system).beginWith jobs).agenda u) := fun begins u => by
    rcases initial_fresh config hooks u begins with idle | begins
    · rw [idle]
      exact .absent fun _ none => by cases none
    · exact fresh begins
  refine Run.induct_all (G := Moment.managed) (P := fun past m => (∀ u, Withdraws past m.hub.registry.ids (m.agenda u)) ∧
      ((∃ x ∈ past, x.job = .hub .halt) → Sealed past ∧ m.hub.registry.ids = [])) ?construct ?assemble ?call ?client ?carry ?unwind
    run managed
  case construct => exact ⟨start .construction, by rintro ⟨_, ⟨⟩, _⟩⟩
  case assemble => exact ⟨start .assembly, by rintro ⟨_, ⟨⟩, _⟩⟩
  case call =>
    intro past m op _ before idle
    refine ⟨fun u => ?_, before.2⟩
    rcases call_fresh config idle op u with same | ⟨_, begins⟩
    · exact same ▸ before.1 u
    · exact fresh begins
  case client =>
    intro past m name op _ before
    refine ⟨fun u => ?_, before.2⟩
    rcases client_fresh config m name op u with same | ⟨_, begins⟩
    · exact same ▸ before.1 u
    · exact fresh begins
  case carry =>
    intro past m t job later run before agenda _ _ old _
    have fewer := fun sealed => run.sealed_ids old sealed agenda
    rw [hub_carry]
    refine ⟨fun u => ?_, ?_⟩
    · by_cases mine : u = t
      · subst mine
        rw [agenda_carry_self agenda]
        intro front back split
        by_cases comes : .hub .halt ∈ (job.exec m u).2
        · obtain rfl := teardown_source (leads_exec m u job _ comes) (.inr rfl)
          have sealed := run.sealed_by old agenda
          refine ⟨sealed.more _, fun id => Nat.le_trans (fewer sealed id) ?_⟩
          simp only [Job.exec, HubJob.exec, shutdown_split, List.append_assoc] at split
          obtain ⟨mid, rfl, _⟩ := split_behind split fun member => by
            rcases withdraws_cases member with none | ⟨i, none⟩ <;> cases none
          rw [List.countP_append, count_withdraws]
          omega
        · obtain ⟨mid, rfl, behind⟩ := split_behind split comes
          obtain ⟨sealed, ahead⟩ := before.1 u (job :: mid) back (by rw [agenda, behind]; rfl)
          refine ⟨sealed.more _, fun id => Nat.le_trans (fewer sealed id) ?_⟩
          have law := ahead id
          rw [List.countP_cons] at law
          rw [List.countP_append]
          omega
      · rcases run.carry_fresh job later mine with same | ⟨_, begins⟩
        · rw [same]
          intro front back split
          obtain ⟨sealed, ahead⟩ := before.1 u front back split
          refine ⟨sealed.more _, fun id => Nat.le_trans (fewer sealed id) ?_⟩
          have law := ahead id
          omega
        · exact fresh begins
    · intro halted
      have emptied : Sealed past ∧ m.hub.registry.ids = [] := by
        rcases seen_snoc.mp halted with halted | halts
        · exact before.2 halted
        · obtain rfl : job = .hub .halt := halts
          obtain ⟨sealed, ahead⟩ := before.1 t [] later agenda
          refine ⟨sealed, List.eq_nil_iff_forall_not_mem.mpr fun id member => ?_⟩
          have some := List.count_pos_iff.mpr member
          have none := ahead id
          rw [List.countP_nil] at none
          omega
      obtain ⟨sealed, none⟩ := emptied
      refine ⟨sealed.more _, List.eq_nil_iff_forall_not_mem.mpr fun id member => ?_⟩
      have some := List.count_pos_iff.mpr member
      have left := fewer sealed id
      rw [none, List.count_nil] at left
      omega
  case unwind =>
    intro past m t later run before agenda _ _
    have same : (m.unwind t later).hub.registry = m.hub.registry := by rcases hub_unwind m t later with hub | hub <;> rw [hub]
    rw [same]
    refine ⟨fun u => ?_, fun halted => ?_⟩
    · rcases run.agenda_unwound agenda u with left | ⟨_, same⟩
      · exact .absent fun j member => (trails_final (left j member)).2.2
      · rw [same]
        exact fun front back split => (before.1 u front back split).imp_left (·.more _)
    · exact (before.2 ((seen_snoc.mp halted).resolve_right fun none => by cases none)).imp_left (·.more _)

theorem Run.emptied (run : Run config hooks past m) (managed : ∀ x ∈ past, x.managed) (halted : ∃ x ∈ past, x.job = .hub .halt) :
    m.hub.registry.ids = [] := ((run.withdrawn managed).2 halted).2

def Job.concludes (job : Job) : Bool := joinsDeviceLane job || clearsLinks job || halts job

theorem Run.shut (run : Run config hooks past m) (managed : ∀ x ∈ past, x.managed) :
    (∀ u, (Fence.order closesLanes Job.concludes).exposed (m.agenda u) = true → m.hub.dataLanes.closed = true) ∧
      ((∃ x ∈ past, x.job.concludes = true ∧ closesLanes x.job = false) → m.hub.dataLanes.closed = true) := by
  have wider : ∀ job : Job, job.dismantles = false → job.concludes = false := fun job none => by
    simp only [Job.dismantles, Bool.or_eq_false_iff] at none
    simp only [Job.concludes, none.1.1.2, none.1.2, none.2, Bool.or_self]
  refine run.ordered (G := Moment.managed) (D := fun _ h => h.dataLanes.closed = true) closesLanes Job.concludes
    (fun _ _ _ fresh _ member => wider _ (fresh_dismantles fresh member)) (fun _ trails => wider _ (trails_dismantles trails)) rfl
    (fun {_ m t job _} _ _ _ _ _ closed => by rw [closed_exec, closed]; rfl)
    (fun hub closed => by rcases hub with rfl | rfl <;> exact closed)
    ?next (fun {_ m t job _} _ _ _ _ marked _ => by rw [closed_exec, marked, Bool.or_true]) managed
  case next =>
    intro past m t job later _ _ now _ _ exposed
    have late : ∀ j : Job, j.concludes = true → j.dismantles = true := fun j here => by
      cases ends : j.dismantles with
      | true => rfl
      | false =>
          rw [wider j ends] at here
          cases here
    rw [unexposed_next late (fun join => by cases join <;> rfl) m t job now] at exposed
    cases exposed

theorem Run.closed_before (run : Run config hooks past m) (managed : ∀ x ∈ past, x.managed)
    (late : ∃ x ∈ past, x.job = .hub .clearConnections ∨ x.job = .hub .halt) : m.hub.dataLanes.closed = true := by
  obtain ⟨x, seen, here⟩ := late
  refine (run.shut managed).2 ⟨x, seen, ?_⟩
  rcases here with here | here <;> rw [here] <;> exact ⟨rfl, rfl⟩

theorem Run.cleared_before (run : Run config hooks past m) (managed : ∀ x ∈ past, x.managed)
    (halted : ∃ x ∈ past, x.job = .hub .halt) :
    ∃ x ∈ past, x.job = .hub .clearConnections := by
  have ordered := run.ordered (G := Moment.managed) (D := fun past _ => ∃ x ∈ past, x.job = .hub .clearConnections) clearsLinks
    halts (fun _ _ _ fresh _ member => (fresh_final fresh member).2.2) (fun _ trails => (trails_final trails).2.2) rfl
    (fun _ _ _ _ _ => seen_before) (fun _ => seen_before)
    ?next (fun _ _ _ _ marked _ => ⟨_, List.mem_append_right _ (List.mem_singleton.mpr rfl), clears_job marked⟩) managed
  case next =>
    intro past m t job later _ _ now _ _ exposed
    rw [unexposed_next (fun _ here => by simp [Job.dismantles, here]) (fun join => by cases join <;> rfl) m t job now] at exposed
    cases exposed
  obtain ⟨x, seen, here⟩ := halted
  exact ordered.2 ⟨x, seen, by rw [here]; rfl, by rw [here]; rfl⟩

theorem awake_exec (m : Machine) (t : ThreadId) (job : Job) (ending : m.hub.terminating = true)
    (awake : m.hub.deviceLane.parked = false) :
    (job.exec m t).1.hub.deviceLane.parked = false := by
  by_cases device : ∃ j, job = .deviceLane j
  · obtain ⟨j, rfl⟩ := device
    cases j with
    | look =>
        simp only [Job.exec, DeviceLaneJob.exec, DeviceLaneJob.lookAtQueue]
        rcases DeviceLane.look_cases m.hub.terminating m.hub.deviceLane with
          ⟨_, seen⟩ | ⟨running, _, seen⟩ | ⟨_, _, seen⟩ <;> rw [seen]
        · exact awake
        · rw [ending] at running
          cases running
        · exact awake
    | spawn =>
        simp only [Job.exec, DeviceLaneJob.exec]
        split <;> exact awake
    | push | wake => rfl
    | _ => exact awake
  · rw [(deviceLane_exec m t job fun j same => device ⟨j, same⟩).2.2, awake]

theorem Run.dismantles_ending (run : Run config hooks past m) (managed : ∀ x ∈ past, x.managed) (pending : job ∈ m.agenda u)
    (ends : job.dismantles = true) : m.hub.terminating = true := by
  have begun : ∀ {k : Job → Bool}, Once k → k job = true → m.hub.terminating = true := fun {k} single here => by
    have once := run.ends_once single managed
    have due : job.ends k = 1 := by
      unfold Job.ends
      split
      · rfl
      · exact if_pos here
    have load := Nat.le_trans (weight_mem (f := Job.ends k) pending) (load_mem u)
    split at once
    · assumption
    · omega
  rcases dismantles_cases ends with closes | joins | late
  · exact begun closing_final.toOnce closes
  · exact begun joining_final.toOnce joins
  · obtain ⟨x, seen, stops⟩ := run.stopped managed (.inl ⟨u, job, pending, late⟩)
    obtain ⟨y, passed, _, ending⟩ := (run.sealed managed).2 ⟨x, seen, by rw [stops]; rfl, by rw [stops]; rfl⟩
    exact run.terminating y passed ending

theorem Run.device_roused (run : Run config hooks past m) (managed : ∀ x ∈ past, x.managed) :
    (∀ u, (Fence.order wakesDevice Job.dismantles).exposed (m.agenda u) = true →
        m.hub.terminating = true ∧ m.hub.deviceLane.parked = false) ∧
      ((∃ x ∈ past, x.job.dismantles = true ∧ wakesDevice x.job = false) →
        m.hub.terminating = true ∧ m.hub.deviceLane.parked = false) := by
  refine run.ordered (G := Moment.managed) (D := fun _ h => h.terminating = true ∧ h.deviceLane.parked = false) wakesDevice
    Job.dismantles (fun _ _ _ fresh _ member => fresh_dismantles fresh member) (fun _ trails => trails_dismantles trails) rfl
    (fun {_ m t job _} _ _ _ _ _ here => ⟨terminating_exec m t job here.1, awake_exec m t job here.1 here.2⟩)
    (fun hub here => by rcases hub with rfl | rfl <;> exact here) ?next ?mark managed
  case next =>
    intro past m t job later _ _ now _ _ exposed
    rw [unexposed_next (fun _ here => here) (fun join => by cases join <;> rfl) m t job now] at exposed
    cases exposed
  case mark =>
    intro past m t job later run managed agenda _ marked exposed
    obtain ⟨j, member, here⟩ := exposed_order exposed
    rw [wakes_job marked]
    exact ⟨run.dismantles_ending managed (agenda ▸ List.mem_cons_of_mem _ member) here, rfl⟩

theorem Run.device_awake (run : Run config hooks past m) (managed : ∀ x ∈ past, x.managed) (halted : ∃ x ∈ past, x.job = .hub .halt) :
    m.hub.terminating = true ∧ m.hub.deviceLane.parked = false := by
  obtain ⟨x, seen, here⟩ := halted
  exact (run.device_roused managed).2 ⟨x, seen, by rw [here]; rfl, by rw [here]; rfl⟩

end TransportHub
