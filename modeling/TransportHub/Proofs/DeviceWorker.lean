import TransportHub.Proofs.Workers
/-!
The worker of the device lane. A shutdown that has passed the start of the hub comes after everybody who
starts that worker, and waits for it; a worker that left at termination left nothing behind.
-/

set_option autoImplicit false

namespace TransportHub

variable {config : Config} {hooks : List Hook} {system : System} {past : List Moment} {m : Machine} {t u w : ThreadId}
  {job : Job} {later : List Job}

def Fence.passing : Fence where
  mark job := (job matches .acquire .lifecycle)
  brittle _ := false
  pinned job := joinsDeviceLane job || (job matches .hub .stopAdapters)

theorem starts_source {j : Job} (leads : job.leads j = true) (guards : lifecycleGate.guards j ≠ 0) :
    job = .hub .run ∨ job = .deviceLane .start ∨ ∃ op, job = .perform op ∧ op.managed = false := by
  cases j with
  | deviceLane j =>
      cases j with
      | start | spawn =>
          dsimp only [Job.leads] at leads
          split at leads <;> first
            | exact .inl rfl
            | exact .inr (.inl rfl)
            | exact .inr (.inr ⟨_, rfl, rfl⟩)
            | cases leads
      | _ => exact absurd rfl guards
  | _ => exact absurd rfl guards

theorem starts_none (m : Machine) (t : ThreadId) (job : Job) (managed : ∀ op, job = .perform op → op.managed = true)
    (ending : m.hub.terminating = true) (idle : lifecycleGate.guards job = 0) : weight lifecycleGate.guards (job.exec m t).2 = 0 := by
  by_cases runs : job = .hub .run
  · subst runs
    simp only [Job.exec, HubJob.exec, ending, if_true]
    rfl
  · refine weight_next_apart starts_source m t job fun source => ?_
    rcases source with same | rfl | ⟨op, same, foreign⟩
    · exact runs same
    · cases idle
    · rw [managed op same] at foreign
      cases foreign

theorem fresh_unpinned {agenda : List Job} (fresh : Fresh config u agenda) : ∀ job ∈ agenda, Fence.passing.pinned job = false :=
  fresh.all (fun _ => rfl) rfl (fun _ => rfl) (fun _ _ => rfl) rfl fun _ => rfl

theorem passing_next (m : Machine) (t : ThreadId) (job : Job) (managed : ∀ op, job = .perform op → op.managed = true)
    (stays : Fence.passing.exposed (job :: later) = false) (unmarked : Fence.passing.mark job = false) :
    Fence.passing.exposed ((job.exec m t).2 ++ later) = false := by
  simp only [Fence.exposed, unmarked, Bool.not_false, Bool.true_and, Bool.or_eq_false_iff] at stays
  refine Fence.exposed_append ?_ stays.2
  by_cases raises : job = .hub .raiseTermination
  · subst raises
    rw [(Once.raised m t).2]
    split <;> rfl
  · refine Fence.exposed_unpinned fun j member => ?_
    cases pinned : Fence.passing.pinned j with
    | false => rfl
    | true =>
        have leads := leads_exec m t job j member
        simp only [Fence.passing, Bool.or_eq_true] at pinned
        rcases pinned with joins | stops
        · rcases final_source leads (.inr joins) with rfl | ⟨op, same, foreign⟩
          · cases stays.1
          · rw [managed op same] at foreign
            cases foreign
        · cases j with
          | hub j =>
              cases j with
              | stopAdapters => exact absurd (stopAdapters_origin leads) raises
              | _ => cases stops
          | _ => cases stops

def Passed (past : List Moment) (m : Machine) : Prop :=
  (∃ u, Fence.passing.exposed (m.agenda u) = true) ∨ ∃ x ∈ past, joinsDeviceLane x.job = true

theorem passed_old (managed : ∀ op, job = .perform op → op.managed = true) (run : Run config hooks past m)
    (agenda : m.agenda t = job :: later) (passed : Passed (past ++ [⟨m, t, job, later⟩]) (m.carry t job later)) :
    Passed past m ∨ (job = .acquire .lifecycle ∧ Fence.passing.exposed later = true) := by
  rcases passed with ⟨u, exposed⟩ | ⟨x, seen, joins⟩
  · by_cases mine : u = t
    · subst mine
      rw [agenda_carry_self agenda] at exposed
      cases mark : Fence.passing.mark job with
      | true =>
          have acquires : job = .acquire .lifecycle := by
            cases job with
            | acquire lock => cases lock <;> first | rfl | cases mark
            | _ => cases mark
          subst acquires
          exact .inr ⟨rfl, exposed⟩
      | false =>
          refine .inl (.inl ⟨u, ?_⟩)
          cases before : Fence.passing.exposed (m.agenda u) with
          | true => rfl
          | false =>
              rw [agenda] at before
              rw [passing_next m u job managed before mark] at exposed
              cases exposed
    · rcases run.carry_fresh job later mine with same | ⟨_, fresh⟩
      · exact .inl (.inl ⟨u, same ▸ exposed⟩)
      · rw [Fence.exposed_unpinned (fresh_unpinned fresh)] at exposed
        cases exposed
  · rcases List.mem_append.mp seen with old | new
    · exact .inl (.inr ⟨x, old, joins⟩)
    · cases List.mem_singleton.mp new
      refine .inl (.inl ⟨t, ?_⟩)
      have here : joinsDeviceLane job = true := joins
      rw [agenda]
      cases job with
      | deviceLane job => cases job <;> first | rfl | cases here
      | _ => cases here

theorem passed_begins {jobs : List Job} (fresh : Fresh config .caller jobs) :
    ¬ Passed [] ((Machine.initial config hooks system).beginWith jobs) := by
  rintro (⟨u, exposed⟩ | ⟨_, absent, _⟩)
  · rcases initial_fresh config hooks u fresh with idle | fresh
    · rw [idle] at exposed
      cases exposed
    · rw [Fence.exposed_unpinned (fresh_unpinned fresh)] at exposed
      cases exposed
  · cases absent

theorem passed_before {m' : Machine} (moves : ∀ u, m'.agenda u = m.agenda u ∨ (m.agenda u = [] ∧ Fresh config u (m'.agenda u)))
    (passed : Passed past m') : Passed past m := by
  refine passed.imp_left fun passing => ?_
  obtain ⟨u, exposed⟩ := passing
  rcases moves u with same | ⟨_, fresh⟩
  · exact ⟨u, same ▸ exposed⟩
  · rw [Fence.exposed_unpinned (fresh_unpinned fresh)] at exposed
    cases exposed

theorem unguarded_moves {m' : Machine} {G : Gate} (sound : G.Sound) (none : weight G.guards (m.agenda u) = 0)
    (moves : m'.agenda u = m.agenda u ∨ (m.agenda u = [] ∧ Fresh config u (m'.agenda u))) : weight G.guards (m'.agenda u) = 0 := by
  rcases moves with same | ⟨_, fresh⟩
  · rw [same, none]
  · exact (Gate.weight_plain (sound.fresh config u _ fresh)).2.2

theorem unguarded_carry {G : Gate} (sound : G.Sound) (run : Run config hooks past m) (agenda : m.agenda t = job :: later)
    (none : ∀ u, weight G.guards (m.agenda u) = 0) (next : weight G.guards (job.exec m t).2 = 0) (u : ThreadId) :
    weight G.guards ((m.carry t job later).agenda u) = 0 := by
  by_cases mine : u = t
  · subst mine
    have whole := none u
    rw [agenda, weight_cons] at whole
    rw [agenda_carry_self agenda, weight_append, next]
    omega
  · exact unguarded_moves sound (none u) (run.carry_fresh job later mine)

theorem unguarded_unwind {G : Gate} (sound : G.Sound) (run : Run config hooks past m) (agenda : m.agenda t = .panic :: later)
    (none : weight G.guards (m.agenda u) = 0) : weight G.guards ((m.unwind t later).agenda u) = 0 := by
  rcases run.agenda_unwound agenda u with trails | ⟨_, same⟩
  · exact weight_zero fun job member => (sound.trails job (trails job member)).2.2
  · rw [same, none]

theorem exposed_ends {agenda : List Job} (exposed : Fence.passing.exposed agenda = true) :
    0 < weight (Job.ends joinsDeviceLane) agenda := by
  induction agenda with
  | nil => cases exposed
  | cons job rest ih =>
      rw [weight_cons]
      simp only [Fence.exposed, Bool.and_eq_true, Bool.or_eq_true] at exposed
      rcases exposed.2 with pinned | behind
      · have here : 0 < job.ends joinsDeviceLane := by
          simp only [Fence.passing, Bool.or_eq_true] at pinned
          unfold Job.ends
          split
          · exact Nat.zero_lt_one
          · rename_i apart
            rcases pinned with joins | stops
            · rw [if_pos joins]
              exact Nat.zero_lt_one
            · cases job with
              | hub job => cases job <;> first | exact absurd rfl apart | cases stops
              | _ => cases stops
        omega
      · have := ih behind
        omega

theorem Run.passed_terminating (run : Run config hooks past m) (managed : ∀ x ∈ past, x.managed) (passed : Passed past m) :
    m.hub.terminating = true ∧ ∀ u, weight lifecycleGate.guards (m.agenda u) = 0 := by
  refine Run.induct_all (G := Moment.managed) (P := fun past m => Passed past m →
      m.hub.terminating = true ∧ ∀ u, weight lifecycleGate.guards (m.agenda u) = 0)
    ?construct ?assemble ?call ?client ?carry ?unwind run managed passed
  case construct => exact fun passed => absurd passed (passed_begins .construction)
  case assemble => exact fun passed => absurd passed (passed_begins .assembly)
  case call =>
    intro past m op _ before idle passed
    have moves := call_fresh config idle op
    obtain ⟨ending, none⟩ := before (passed_before moves passed)
    exact ⟨ending, fun u => unguarded_moves lifecycleGate_sound (none u) (moves u)⟩
  case client =>
    intro past m name op _ before passed
    have moves := client_fresh config m name op
    obtain ⟨ending, none⟩ := before (passed_before moves passed)
    exact ⟨ending, fun u => unguarded_moves lifecycleGate_sound (none u) (moves u)⟩
  case carry =>
    intro past m t job later run before agenda _ enabled old now passed
    obtain ⟨ending, none⟩ : m.hub.terminating = true ∧ ∀ u, weight lifecycleGate.guards (m.agenda u) = 0 := by
      rcases passed_old now run agenda passed with passed | ⟨rfl, exposed⟩
      · exact before passed
      · -- Whoever starts the device lane holds the lock that has just been free.
        have free : m.free .lifecycle = true := by simpa [Job.enabled, Job.needs] using enabled
        refine ⟨?_, (lifecycleGate_sound.run run old).open free⟩
        have once := run.ends_once joining_final.toOnce old
        have pending := load_mem (f := Job.ends joinsDeviceLane) (m := m) t
        have here := exposed_ends exposed
        rw [agenda, weight_cons] at pending
        cases on : m.hub.terminating with
        | true => rfl
        | false =>
            simp only [on, Bool.false_eq_true, if_false] at once
            omega
    have whole := none t
    rw [agenda, weight_cons] at whole
    exact ⟨terminating_exec m t job ending,
      unguarded_carry lifecycleGate_sound run agenda none (starts_none m t job now ending (by omega))⟩
  case unwind =>
    intro past m t later run before agenda _ _ passed
    have earlier : Passed past m := by
      rcases passed with ⟨u, exposed⟩ | ⟨x, seen, joins⟩
      · rcases run.agenda_unwound agenda u with trails | ⟨_, same⟩
        · rw [Fence.exposed_unpinned fun job member => ?_] at exposed
          · cases exposed
          · have trails := trails job member
            cases job with
            | deviceLane job | hub job => cases job <;> first | rfl | cases trails
            | _ => rfl
        · rw [same] at exposed
          exact .inl ⟨u, exposed⟩
      · rcases List.mem_append.mp seen with old | new
        · exact .inr ⟨x, old, joins⟩
        · cases List.mem_singleton.mp new
          cases joins
    obtain ⟨ending, none⟩ := before earlier
    exact ⟨terminating_unwind.trans ending, fun u => unguarded_unwind lifecycleGate_sound run agenda (none u)⟩

theorem deviceLane_exec (m : Machine) (t : ThreadId) (job : Job) (apart : ∀ j, job ≠ .deviceLane j) :
    (job.exec m t).1.hub.deviceLane.queue = m.hub.deviceLane.queue ∧
      (job.exec m t).1.hub.deviceLane.worker = m.hub.deviceLane.worker ∧
      (job.exec m t).1.hub.deviceLane.parked = m.hub.deviceLane.parked := by
  cases aside : job.aside with
  | true => exact ⟨(lanes_exec m t job aside).queue, (lanes_exec m t job aside).worker, (lanes_exec m t job aside).parked⟩
  | false =>
      cases job with
      | deviceLane j => exact absurd rfl (apart j)
      | dataLane j =>
          cases j with
          | spawn | publish | push | look =>
              simp only [Job.exec, DataLaneJob.exec, DataLaneJob.lookAtLane]
              repeat' split
              all_goals exact ⟨rfl, rfl, rfl⟩
          | stop c =>
              simp only [Job.exec, DataLaneJob.exec, DataLanes.withdraw]
              cases m.hub.dataLanes.slots.get? c <;> exact ⟨rfl, rfl, rfl⟩
          | _ => exact ⟨rfl, rfl, rfl⟩
      | participant j =>
          cases j with
          | deliver d =>
              simp only [Job.exec, ParticipantJob.exec]
              split <;> exact ⟨rfl, rfl, rfl⟩
          | _ => cases aside
      | _ => cases aside

theorem worker_exec (m : Machine) (t : ThreadId) (job : Job) (apart : job ≠ .deviceLane .spawn) :
    (job.exec m t).1.hub.deviceLane.worker = if joinsDeviceLane job then none else m.hub.deviceLane.worker := by
  by_cases device : ∃ j, job = .deviceLane j
  · obtain ⟨j, rfl⟩ := device
    cases j with
    | spawn => exact absurd rfl apart
    | look =>
        simp only [Job.exec, DeviceLaneJob.exec, DeviceLaneJob.lookAtQueue]
        rcases DeviceLane.look_cases m.hub.terminating m.hub.deviceLane with
          ⟨_, seen⟩ | ⟨_, _, seen⟩ | ⟨_, _, seen⟩ <;> rw [seen] <;> rfl
    | _ => rfl
  · rw [(deviceLane_exec m t job fun j same => device ⟨j, same⟩).2.1]
    cases job with
    | deviceLane j => exact absurd ⟨j, rfl⟩ device
    | _ => rfl

theorem spawn_started (m : Machine) (t : ThreadId) (started : m.system.answer m.hub.config.deviceThread = .started) :
    ((Job.deviceLane .spawn).exec m t).1.hub.deviceLane.worker = some ⟨m.agendas.length⟩ := by
  have threads : m.agendas.length = m.threads.length := List.length_map ..
  simp only [Job.exec, DeviceLaneJob.exec, started, threads]
  rfl

-- The worker that the device lane has is the one that was started last, until a shutdown takes it
-- over, and whoever is about to start one has seen that there is none.
structure Manned (past : List Moment) (m : Machine) : Prop where
  crew : ∀ w ∈ deviceCrew past, m.hub.deviceLane.worker = some w ∨ ∃ x ∈ past, joinsDeviceLane x.job = true
  vacant : ∀ u, .deviceLane .spawn ∈ m.agenda u → m.hub.deviceLane.worker = none

theorem fresh_unspawned {agenda : List Job} (fresh : Fresh config u agenda) : .deviceLane .spawn ∉ agenda := fun member => by
  have plain := (workerGate_sound.fresh _ _ _ fresh _ member).2.2
  cases plain

theorem spawn_next (m : Machine) (t : ThreadId) (job : Job) (member : .deviceLane .spawn ∈ (job.exec m t).2) :
    job = .deviceLane .start ∧ m.hub.deviceLane.worker = none := by
  obtain rfl := deviceSpawn_origin (leads_exec m t job _ member)
  refine ⟨rfl, ?_⟩
  simp only [Job.exec, DeviceLaneJob.exec] at member
  cases worker : m.hub.deviceLane.worker with
  | none => rfl
  | some w => simp [worker, Job.logDeviceLane] at member

theorem Run.manned (run : Run config hooks past m) : Manned past m := by
  refine Run.induct (G := fun _ => True) (P := Manned) ?construct ?assemble ?call ?client ?carry ?unwind run fun _ _ => trivial
  case construct | assemble => exact ⟨fun _ none => (by cases none), fun _ _ => rfl⟩
  case call =>
    intro past m op _ before idle
    refine ⟨before.crew, fun u member => ?_⟩
    rcases call_fresh config idle op u with same | ⟨_, fresh⟩
    · exact before.vacant u (same ▸ member)
    · exact absurd member (fresh_unspawned fresh)
  case client =>
    intro past m name op _ before
    refine ⟨before.crew, fun u member => ?_⟩
    rcases client_fresh config m name op u with same | ⟨_, fresh⟩
    · exact before.vacant u (same ▸ member)
    · exact absurd member (fresh_unspawned fresh)
  case carry =>
    intro past m t job later run before agenda _ _ _
    have kept := workerGate_sound.ever (fun _ => rfl) run
    have pending : job ∈ m.agenda t := agenda ▸ List.mem_cons_self ..
    constructor
    · intro w member
      rcases mem_deviceCrew_snoc.mp member with crewed | mans
      · rcases before.crew w crewed with here | joined
        · have apart : job ≠ .deviceLane .spawn := by
            rintro rfl
            rw [before.vacant t pending] at here
            cases here
          rw [hub_carry, worker_exec m t job apart]
          cases joins : joinsDeviceLane job with
          | true => exact .inr ⟨⟨m, t, job, later⟩, List.mem_append_right _ (List.mem_singleton.mpr rfl), joins⟩
          | false => exact .inl here
        · exact .inr (seen_before joined)
      · obtain ⟨rfl, started, rfl⟩ := mans_started mans
        exact .inl (spawn_started m t started)
    · intro u member
      -- Nobody else starts the worker meanwhile, for that takes the same lock.
      have vacant : m.hub.deviceLane.worker = none → job ≠ .deviceLane .spawn →
          (m.carry t job later).hub.deviceLane.worker = none := fun none apart => by
        rw [hub_carry, worker_exec m t job apart, none, ite_self]
      have one : workerGate.guards (.deviceLane .spawn) = 1 := rfl
      by_cases mine : u = t
      · subst mine
        rw [agenda_carry_self agenda] at member
        rcases List.mem_append.mp member with next | behind
        · obtain ⟨rfl, none⟩ := spawn_next m u job next
          exact vacant none fun none => by cases none
        · refine vacant (before.vacant u (agenda ▸ List.mem_cons_of_mem _ behind)) ?_
          rintro rfl
          have once := kept.once u
          have twice := weight_mem (f := workerGate.guards) behind
          rw [agenda, weight_cons] at once
          omega
      · rcases run.carry_fresh job later mine with same | ⟨_, fresh⟩
        · rw [same] at member
          refine vacant (before.vacant u member) ?_
          rintro rfl
          have here := weight_mem (f := workerGate.guards) pending
          have there := weight_mem (f := workerGate.guards) member
          have none := kept.apart (fun same => mine same.symm) (Nat.lt_of_lt_of_le (by rw [one]; exact Nat.zero_lt_one) here)
          omega
        · exact absurd member (fresh_unspawned fresh)
  case unwind =>
    intro past m t later run before agenda _
    have same : (m.unwind t later).hub.deviceLane.worker = m.hub.deviceLane.worker := lanes_unwind.worker
    refine ⟨fun w member => ?_, fun u member => ?_⟩
    · have crewed := (mem_deviceCrew_snoc.mp member).resolve_right fun none => by cases none
      rw [same]
      exact (before.crew w crewed).imp_right seen_before
    · rw [same]
      exact before.vacant u (run.outlived agenda rfl member).2

theorem Run.unstarted (run : Run config hooks past m) (managed : ∀ x ∈ past, x.managed)
    (agenda : m.agenda t = .deviceLane .spawn :: later) :
    ∀ x ∈ past, joinsDeviceLane x.job = false := by
  intro x seen
  cases joins : joinsDeviceLane x.job with
  | false => rfl
  | true =>
      have none := (run.passed_terminating managed (.inr ⟨x, seen, joins⟩)).2 t
      rw [agenda, weight_cons] at none
      have one : lifecycleGate.guards (.deviceLane .spawn) = 1 := rfl
      omega

theorem Run.device_waited (run : Run config hooks past m) (joins : config.joinWorkers = true) (managed : ∀ x ∈ past, x.managed) :
    ∀ w ∈ deviceCrew past, m.agenda w = [] ∨ ∀ u, u ≠ w → Barred joinsDeviceLane (some w) past m u := by
  refine run.waited (G := Moment.managed) (S := fun past w => w ∈ deviceCrew past) joining_final joins
    (fun _ none => by cases none) (fun _ member => .inl member) ?new ?waits managed
  case new =>
    intro past m t job later w run agenda old _ member
    refine (mem_deviceCrew_snoc.mp member).imp_right fun mans => ?_
    obtain ⟨rfl, _, _⟩ := mans_started mans
    exact List.forall_mem_append.mpr ⟨run.unstarted old agenda, List.forall_mem_singleton.mpr rfl⟩
  case waits =>
    intro past m t job later w run agenda old _ _ here member
    have first := run.final_first joining_final.toOnce old agenda here
    have worker : m.hub.deviceLane.worker = some w := by
      refine (run.manned.crew w member).resolve_right fun joined => ?_
      obtain ⟨x, seen, joins⟩ := joined
      rw [first x seen] at joins
      cases joins
    refine .inr ⟨Log.deviceLaneName, ?_⟩
    cases job with
    | deviceLane j =>
        cases j with
        | join =>
            simp only [Job.exec, DeviceLaneJob.exec, worker]
            exact List.mem_singleton.mpr rfl
        | _ => cases here
    | _ => cases here

-- A worker of the device lane finds that termination has begun.
def Moment.departs (x : Moment) : Prop := x.job = .deviceLane .look ∧ x.machine.hub.terminating = true

theorem push_next (m : Machine) (t : ThreadId) (job : Job) (ending : m.hub.terminating = true) :
    weight queueGate.guards (job.exec m t).2 = 0 := by
  refine weight_zero fun j member => Classical.byContradiction fun here => ?_
  have leads := leads_exec m t job j member
  cases j with
  | deviceLane j =>
      cases j with
      | push callback =>
          obtain ⟨other, rfl⟩ := devicePush_origin leads
          simp [Job.exec, DeviceLaneJob.exec, ending, Job.logDeviceLane] at member
      | _ => exact here rfl
  | _ => exact here rfl

theorem queue_exec (m : Machine) (t : ThreadId) (job : Job) (apart : queueGate.guards job = 0) (empty : m.hub.deviceLane.queue = []) :
    (job.exec m t).1.hub.deviceLane.queue = [] := by
  by_cases device : ∃ j, job = .deviceLane j
  · obtain ⟨j, rfl⟩ := device
    cases j with
    | push => cases apart
    | look =>
        simp only [Job.exec, DeviceLaneJob.exec, DeviceLaneJob.lookAtQueue]
        rcases DeviceLane.look_cases m.hub.terminating m.hub.deviceLane with
          ⟨_, seen⟩ | ⟨_, _, seen⟩ | ⟨_, _, seen⟩ <;> rw [seen] <;> first | rfl | exact empty
    | spawn =>
        simp only [Job.exec, DeviceLaneJob.exec]
        split <;> exact empty
    | _ => exact empty
  · rw [(deviceLane_exec m t job fun j same => device ⟨j, same⟩).1, empty]

structure Deserted (m : Machine) : Prop where
  ending : m.hub.terminating = true
  queue : m.hub.deviceLane.queue = []
  pushes : ∀ u, weight queueGate.guards (m.agenda u) = 0

theorem Deserted.carry (run : Run config hooks past m) (deserted : Deserted m) (agenda : m.agenda t = job :: later) :
    Deserted (m.carry t job later) := by
  have whole := deserted.pushes t
  rw [agenda, weight_cons] at whole
  exact ⟨terminating_exec m t job deserted.ending, queue_exec m t job (by omega) deserted.queue,
    unguarded_carry queueGate_sound run agenda deserted.pushes (push_next m t job deserted.ending)⟩

theorem Deserted.unpushed (deserted : Deserted m) (u : ThreadId) (callback : DeviceCallback) :
    .deviceLane (.push callback) ∉ m.agenda u := fun inside => by
  have bound := weight_mem (f := queueGate.guards) inside
  rw [deserted.pushes u] at bound
  exact absurd bound (Nat.not_succ_le_zero 0)

theorem Run.deserted (run : Run config hooks past m) (departed : ∃ x ∈ past, x.departs) : Deserted m := by
  refine Run.induct (G := fun _ => True) (P := fun past m => (∃ x ∈ past, x.departs) → Deserted m)
    ?construct ?assemble ?call ?client ?carry ?unwind run (fun _ _ => trivial) departed
  case construct | assemble => rintro _ ⟨_, ⟨⟩, _⟩
  case call =>
    intro past m op _ before idle departed
    have deserted := before departed
    exact ⟨deserted.ending, deserted.queue, fun u => unguarded_moves queueGate_sound (deserted.pushes u)
      (call_fresh config idle op u)⟩
  case client =>
    intro past m name op _ before departed
    have deserted := before departed
    exact ⟨deserted.ending, deserted.queue, fun u => unguarded_moves queueGate_sound (deserted.pushes u)
      (client_fresh config m name op u)⟩
  case carry =>
    intro past m t job later run before agenda _ enabled _ departed
    rcases seen_snoc.mp departed with departed | ⟨here, ending⟩
    · exact (before departed).carry run agenda
    · simp only at here ending
      subst here
      -- Nobody is about to push, for that takes the lock that the worker has for its look.
      have free : m.free .deviceQueue = true := by
        simp only [Job.enabled, Job.needs, Option.all_some, Bool.and_eq_true] at enabled
        exact enabled.1
      have none := (queueGate_sound.ever (fun _ => rfl) run).open free
      refine ⟨terminating_exec m t (.deviceLane .look) ending, ?_,
        unguarded_carry queueGate_sound run agenda none (push_next m t _ ending)⟩
      simp [hub_carry, Job.exec, DeviceLaneJob.exec, DeviceLaneJob.lookAtQueue, DeviceLane.look, ending]
  case unwind =>
    intro past m t later run before agenda _ departed
    have deserted := before ((seen_snoc.mp departed).resolve_right fun none => by cases none.1)
    exact ⟨terminating_unwind.trans deserted.ending, lanes_unwind.queue.trans deserted.queue,
      fun u => unguarded_unwind queueGate_sound run agenda (deserted.pushes u)⟩

theorem agenda_carry_manned (agenda : m.agenda t = job :: later) (mans : Moment.mans ⟨m, t, job, later⟩ = some w) :
    (m.carry t job later).agenda w = Plan.deviceWorker := by
  obtain ⟨rfl, started, rfl⟩ := mans_started mans
  have bound := known_lt (agenda_known agenda (List.cons_ne_nil _ _))
  have apart : (⟨m.agendas.length⟩ : ThreadId) ≠ t := fun same => by
    rw [← same] at bound
    exact Nat.lt_irrefl _ bound
  rw [agenda_eq, agendas_carry, List.getElem?_set_ne (ne_val apart)]
  have recruits : (Job.deviceLane .spawn).recruits m = [Plan.deviceWorker] := if_pos started
  rw [recruits, List.getElem?_concat_length]
  rfl

theorem Run.attended (run : Run config hooks past m) : ∀ w ∈ deviceCrew past,
    .deviceLane .look ∈ m.agenda w ∨ ∃ x ∈ past, x.departs := by
  refine Run.induct (G := fun _ => True) (P := fun past m => ∀ w ∈ deviceCrew past,
      .deviceLane .look ∈ m.agenda w ∨ ∃ x ∈ past, x.departs)
    ?construct ?assemble ?call ?client ?carry ?unwind run fun _ _ => trivial
  case construct | assemble => exact fun _ none => by cases none
  case call =>
    intro past m op run before _ w member
    rw [agenda_beginWith_other (run.dispatcher_known (.inl member)).1]
    exact before w member
  case client =>
    intro past m name op run before w member
    rw [agenda_client_old (run.dispatcher_known (.inl member)).2]
    exact before w member
  case carry =>
    intro past m t job later run before agenda _ _ _ w member
    rcases mem_deviceCrew_snoc.mp member with old | mans
    · rcases before w old with look | departed
      · rcases mem_agenda_carry run agenda look with still | ⟨rfl, rfl⟩
        · exact .inl still
        · cases ending : m.hub.terminating with
          | true => exact .inr ⟨_, List.mem_append_right _ (List.mem_singleton.mpr rfl), rfl, ending⟩
          | false =>
              refine .inl ?_
              rw [agenda_carry_self agenda]
              refine List.mem_append_left _ ?_
              simp only [Job.exec, DeviceLaneJob.exec, DeviceLaneJob.lookAtQueue]
              rcases DeviceLane.look_cases m.hub.terminating m.hub.deviceLane with
                ⟨on, _⟩ | ⟨_, _, seen⟩ | ⟨_, _, seen⟩
              · rw [ending] at on
                cases on
              · rw [seen]
                exact List.mem_singleton.mpr rfl
              · rw [seen]
                simp
      · exact .inr (seen_before departed)
    · rw [agenda_carry_manned agenda mans]
      exact .inl (List.mem_cons_of_mem _ (List.mem_singleton.mpr rfl))
  case unwind =>
    intro past m t later run before agenda _ w member
    have old := (mem_deviceCrew_snoc.mp member).resolve_right fun none => by cases none
    rcases before w old with look | departed
    · refine .inl ?_
      by_cases mine : t = w
      · subst mine
        rw [agenda] at look
        rw [agenda_unwind_self agenda]
        refine mem_kept ((List.mem_cons.mp look).resolve_left fun none => by cases none) (fun inside => ?_)
          fun d none => by cases none
        cases run.crew_stays agenda _ inside
      · rwa [agenda_unwind_other fun same => mine same.symm]
    · exact .inr (seen_before departed)

end TransportHub
