import TransportHub.Proofs.Deliveries
import TransportHub.Proofs.Locks
/-!
The end of a hub. One shutdown closes the map of the data lanes and waits for the workers; what it does
at the end stands, on its agenda, behind the jobs that wait.
-/

set_option autoImplicit false

namespace TransportHub

open DataLanes (Slot)

variable {config : Config} {hooks : List Hook} {system : System} {past : List Moment} {m m' : Machine} {t u w : ThreadId}
  {job : Job} {later jobs : List Job} {x : Moment} {slot : Slot} {k : Job → Bool}

def Job.ends (k : Job → Bool) : Job → Nat
  | .hub .stopAdapters => 1
  | job => if k job then 1 else 0

structure Once (k : Job → Bool) : Prop where
  source : ∀ {job j : Job}, job.leads j = true → k j = true →
    job = .hub .stopAdapters ∨ ∃ op, job = .perform op ∧ op.managed = false
  once : ∀ ids join, weight (Job.ends k) (HubJob.shutDownAll ids join) ≤ 1
  fresh : ∀ config u agenda, Fresh config u agenda → ∀ job ∈ agenda, k job = false
  trails : ∀ job, job.trails = true → k job = false
  locks : ∀ lock, k (.acquire lock) = false ∧ k (.release lock) = false
  apart : k (.hub .raiseTermination) = false ∧ k (.hub .stopAdapters) = false
  panic : k .panic = false
  delivered : ∀ d, k (.participant (.delivered d)) = false

structure Final (k : Job → Bool) : Prop extends Once k where
  before : ∀ ids, ∃ front back, HubJob.shutDownAll ids true = front ++ back ∧
    (∀ job ∈ front, job ≠ .hub .halt) ∧ ∃ job ∈ front, k job = true
  hub : ∀ job, k (.hub job) = false

namespace Once

theorem ends_none (none : k job = false) (apart : job ≠ .hub .stopAdapters) : job.ends k = 0 := by
  unfold Job.ends
  split
  · exact absurd rfl apart
  · exact if_neg (by rw [none]; exact Bool.false_ne_true)

theorem inner (single : Once k) : Inner (Job.ends k) where
  fresh config u agenda fresh := weight_zero fun job member => by
    refine ends_none (single.fresh config u agenda fresh job member) ?_
    rintro rfl
    cases fresh.jobs _ member
  panic := ends_none single.panic fun none => by cases none
  caught d := by
    have delivered : (Job.participant (.delivered d)).ends k = 0 := ends_none (single.delivered d) fun none => by cases none
    rw [delivered]
    refine weight_zero fun job member => ends_none (single.trails job ?_) ?_
    · simp only [ParticipantJob.afterPanic, List.mem_cons, List.not_mem_nil, or_false] at member
      rcases member with rfl | rfl <;> rfl
    · simp only [ParticipantJob.afterPanic, List.mem_cons, List.not_mem_nil, or_false] at member
      rcases member with rfl | rfl <;> exact fun none => by cases none

theorem ends_source (single : Once k) {job j : Job} (leads : job.leads j = true) (here : j.ends k ≠ 0) :
    job = .hub .raiseTermination ∨ job = .hub .stopAdapters ∨ ∃ op, job = .perform op ∧ op.managed = false := by
  cases kind : k j with
  | true => exact .inr (single.source leads kind)
  | false =>
      by_cases stops : j = .hub .stopAdapters
      · subst stops
        exact .inl (stopAdapters_origin leads)
      · exact absurd (ends_none kind stops) here

theorem raised (m : Machine) (t : ThreadId) : ((Job.hub .raiseTermination).exec m t).1.hub.terminating = true ∧
    ((Job.hub .raiseTermination).exec m t).2 = if m.hub.terminating then [] else
      [.acquire .lifecycle, .release .lifecycle, Job.logHub .shuttingDown, .hub .stopAdapters] := by
  simp only [Job.exec, HubJob.exec]
  cases on : m.hub.terminating with
  | true => exact ⟨on, rfl⟩
  | false =>
      refine ⟨?_, rfl⟩
      simp only [Bool.false_eq_true, if_false]
      split <;> rfl

theorem step (single : Once k) (m : Machine) (t : ThreadId) (job : Job)
    (managed : ∀ op, job = .perform op → op.managed = true) :
    (if k job then 1 else 0) + weight (Job.ends k) (job.exec m t).2 + (if m.hub.terminating then 1 else 0) ≤
      job.ends k + if (job.exec m t).1.hub.terminating then 1 else 0 := by
  have still := (lasting_exec m t job).terminating
  by_cases raises : job = .hub .raiseTermination
  · subst raises
    obtain ⟨on, next⟩ := raised m t
    have logs : (Job.logHub .shuttingDown).ends k = 0 := ends_none (single.trails _ rfl) fun none => by cases none
    have takes : (Job.acquire .lifecycle).ends k = 0 := ends_none (single.locks _).1 fun none => by cases none
    have gives : (Job.release .lifecycle).ends k = 0 := ends_none (single.locks _).2 fun none => by cases none
    have stops : (Job.hub .stopAdapters).ends k = 1 := rfl
    rw [next, on, single.apart.1]
    cases m.hub.terminating <;> simp [logs, takes, gives, stops]
  · have rest : (if m.hub.terminating then 1 else 0) ≤ if (job.exec m t).1.hub.terminating then 1 else 0 := by
      cases on : m.hub.terminating with
      | true => exact Nat.le_of_eq (by rw [still on])
      | false => exact Nat.zero_le _
    by_cases stops : job = .hub .stopAdapters
    · subst stops
      have next : weight (Job.ends k) ((Job.hub .stopAdapters).exec m t).2 ≤ 1 := single.once _ _
      have one : (Job.hub .stopAdapters).ends k = 1 := rfl
      rw [single.apart.2, one]
      simp only [Bool.false_eq_true, if_false]
      omega
    · have none : weight (Job.ends k) (job.exec m t).2 = 0 := weight_next_apart single.ends_source m t job fun source => by
        rcases source with raise | stop | ⟨op, same, foreign⟩
        · exact raises raise
        · exact stops stop
        · rw [managed op same] at foreign
          cases foreign
      have here : job.ends k = if k job then 1 else 0 := by
        unfold Job.ends
        split
        · exact absurd rfl stops
        · rfl
      omega

end Once

theorem Run.ends_once (single : Once k) (run : Run config hooks past m) (managed : ∀ x ∈ past, x.managed) :
    total (fun x => if k x.job then 1 else 0) past + m.load (Job.ends k) ≤ if m.hub.terminating then 1 else 0 := by
  have inner := single.inner
  refine Run.induct (G := Moment.managed) (P := fun past m =>
      total (fun x => if k x.job then 1 else 0) past + m.load (Job.ends k) ≤ if m.hub.terminating then 1 else 0)
    ?construct ?assemble ?call ?client ?carry ?unwind run managed
  case construct =>
    intro system
    rw [inner.start config hooks _ .construction]
    exact Nat.zero_le _
  case assemble =>
    intro system
    rw [inner.start config hooks _ .assembly]
    exact Nat.zero_le _
  case call =>
    intro past m op _ before idle
    rw [inner.beginWith idle]
    exact before
  case client =>
    intro past m name op _ before
    rw [inner.client]
    exact before
  case carry =>
    intro past m t job later _ before agenda _ _ here
    have moved := inner.carry agenda
    have step := single.step m t job here
    rw [total_append, total_single, hub_carry]
    show total _ past + (if k job then 1 else 0) + _ ≤ _
    omega
  case unwind =>
    intro past m t later _ before agenda _
    have moved := inner.unwind agenda
    rw [total_append, total_single, terminating_unwind]
    simp only [single.panic, Bool.false_eq_true, if_false]
    omega

def closesLanes : Job → Bool
  | .dataLane job => (job matches .close _)
  | _ => false

def joinsDeviceLane : Job → Bool
  | .deviceLane job => (job matches .join)
  | _ => false

theorem final_source {j : Job} (leads : job.leads j = true) (here : closesLanes j = true ∨ joinsDeviceLane j = true) :
    job = .hub .stopAdapters ∨ ∃ op, job = .perform op ∧ op.managed = false := by
  cases j with
  | dataLane j | deviceLane j =>
      cases j <;> first
        | (rcases here with here | here <;> cases here; done)
        | (dsimp only [Job.leads] at leads
           split at leads <;> first
             | exact .inl rfl
             | exact .inr ⟨_, rfl, rfl⟩
             | cases leads)
  | _ => rcases here with here | here <;> cases here

theorem withdraws_cases {ids : List AdapterId} (member : job ∈ ids.flatMap (Plan.withdraw · .shutdown)) :
    job = .acquire .registry ∨ ∃ id, job = .registry (.withdraw id .shutdown) := by
  obtain ⟨id, _, member⟩ := List.mem_flatMap.mp member
  simp only [Plan.withdraw, List.mem_cons, List.not_mem_nil, or_false] at member
  exact member.imp_right fun same => ⟨id, same⟩

theorem closing_final : Final closesLanes where
  source leads here := final_source leads (.inl here)
  once ids join := by
    have none : weight (Job.ends closesLanes) (ids.flatMap (Plan.withdraw · .shutdown)) = 0 := weight_zero fun job member => by
      rcases withdraws_cases member with rfl | ⟨id, rfl⟩ <;> rfl
    simp only [HubJob.shutDownAll, weight_append, none]
    cases join <;> exact Nat.le_refl 1
  before ids := by
    refine ⟨ids.flatMap (Plan.withdraw · .shutdown) ++ [.deviceLane .wake, .dataLane (.close true)],
      [.deviceLane .join, .hub .clearConnections, .hub .halt, Job.logHub .shutDown], ?_, ?_, ?_⟩
    · simp [HubJob.shutDownAll]
    · intro job member
      rcases List.mem_append.mp member with member | member
      · rcases withdraws_cases member with rfl | ⟨id, rfl⟩ <;> exact fun none => by cases none
      · simp only [List.mem_cons, List.not_mem_nil, or_false] at member
        rcases member with rfl | rfl <;> exact fun none => by cases none
    · exact ⟨.dataLane (.close true), by simp, rfl⟩
  fresh _ _ _ fresh := fresh.all (fun _ => rfl) rfl (fun _ => rfl) (fun _ _ => rfl) rfl fun _ => rfl
  trails job trails := by
    cases job with
    | dataLane job => cases job <;> first | rfl | cases trails
    | _ => rfl
  locks _ := ⟨rfl, rfl⟩
  apart := ⟨rfl, rfl⟩
  hub _ := rfl
  panic := rfl
  delivered _ := rfl

theorem joining_final : Final joinsDeviceLane where
  source leads here := final_source leads (.inr here)
  once ids join := by
    have none : weight (Job.ends joinsDeviceLane) (ids.flatMap (Plan.withdraw · .shutdown)) = 0 := weight_zero fun job member => by
      rcases withdraws_cases member with rfl | ⟨id, rfl⟩ <;> rfl
    simp only [HubJob.shutDownAll, weight_append, none]
    cases join
    · exact Nat.zero_le 1
    · exact Nat.le_refl 1
  before ids := by
    refine ⟨ids.flatMap (Plan.withdraw · .shutdown) ++ [.deviceLane .wake, .dataLane (.close true), .deviceLane .join],
      [.hub .clearConnections, .hub .halt, Job.logHub .shutDown], ?_, ?_, ?_⟩
    · simp [HubJob.shutDownAll]
    · intro job member
      rcases List.mem_append.mp member with member | member
      · rcases withdraws_cases member with rfl | ⟨id, rfl⟩ <;> exact fun none => by cases none
      · simp only [List.mem_cons, List.not_mem_nil, or_false] at member
        rcases member with rfl | rfl | rfl <;> exact fun none => by cases none
    · exact ⟨.deviceLane .join, by simp, rfl⟩
  fresh _ _ _ fresh := fresh.all (fun _ => rfl) rfl (fun _ => rfl) (fun _ _ => rfl) rfl fun _ => rfl
  trails job trails := by
    cases job with
    | deviceLane job => cases job <;> first | rfl | cases trails
    | _ => rfl
  locks _ := ⟨rfl, rfl⟩
  apart := ⟨rfl, rfl⟩
  hub _ := rfl
  panic := rfl
  delivered _ := rfl

-- Before the hub is halted comes the final job, or the wait for this worker that it leaves.
def Fence.barrier (k : Job → Bool) (w? : Option ThreadId) : Fence where
  mark job := k job || (match job with | .join _ worker => some worker = w? | _ => false)
  brittle _ := false
  pinned job := (job matches .hub .halt)

variable {w? : Option ThreadId}

theorem halt_source {j : Job} (leads : job.leads j = true) (halts : (Fence.barrier k w?).pinned j = true) :
    job = .hub .stopAdapters := by
  cases j with
  | hub j =>
      cases j with
      | halt => exact halt_origin leads
      | _ => cases halts
  | _ => cases halts

theorem unhalted (apart : job ≠ .hub .halt) : (Fence.barrier k w?).pinned job = false := by
  cases job with
  | hub job => cases job <;> first | rfl | exact absurd rfl apart
  | _ => rfl

theorem final_mark (here : k job = true) : (Fence.barrier k w?).mark job = true := by
  simp only [Fence.barrier, here, Bool.true_or]

theorem mark_cases (marked : (Fence.barrier k w?).mark job = true) :
    k job = true ∨ ∃ lane worker, job = .join lane worker ∧ some worker = w? := by
  simp only [Fence.barrier, Bool.or_eq_true] at marked
  refine marked.imp_right fun joins => ?_
  cases job with
  | join lane worker => exact ⟨lane, worker, rfl, by simpa using joins⟩
  | _ => cases joins

theorem shut_of_mark {F : Fence} {front : List Job} (loose : ∀ job ∈ front, F.pinned job = false)
    (marked : ∃ job ∈ front, F.mark job = true) : F.shut front = true := by
  obtain ⟨job, member, mark⟩ := marked
  obtain ⟨before, after, rfl⟩ := List.append_of_mem member
  refine Fence.shut_unpinned (fun j here => loose j (List.mem_append_left _ here)) ?_
  simp only [Fence.shut, mark, Bool.true_or]

theorem barrier_wider {agenda : List Job} (safe : (Fence.barrier k none).exposed agenda = false) :
    (Fence.barrier k w?).exposed agenda = false := by
  induction agenda with
  | nil => rfl
  | cons job rest ih =>
      simp only [Fence.exposed] at safe ⊢
      cases marked : (Fence.barrier k w?).mark job with
      | true => rfl
      | false =>
          have unmarked : (Fence.barrier k none).mark job = false := by
            cases here : (Fence.barrier k none).mark job with
            | false => rfl
            | true =>
                rcases mark_cases here with final | ⟨_, _, _, none⟩
                · rw [final_mark final] at marked
                  cases marked
                · cases none
          simp only [unmarked, Bool.not_false, Bool.true_and, Bool.or_eq_false_iff] at safe ⊢
          exact ⟨safe.1, ih safe.2⟩

theorem barrier_next (final : Final k) (m : Machine) (t : ThreadId) (joins : m.hub.config.joinWorkers = true)
    (unmarked : (Fence.barrier k w?).mark job = false) (safe : (Fence.barrier k w?).exposed (job :: later) = false) :
    (Fence.barrier k w?).exposed ((job.exec m t).2 ++ later) = false := by
  simp only [Fence.exposed, unmarked, Bool.not_false, Bool.true_and, Bool.or_eq_false_iff] at safe
  by_cases stops : job = .hub .stopAdapters
  · subst stops
    simp only [Job.exec, HubJob.exec, joins]
    obtain ⟨front, back, split, loose, j, member, here⟩ := final.before m.hub.registry.ids
    rw [split, List.append_assoc]
    exact Fence.exposed_shut (shut_of_mark (fun j member => unhalted (loose j member)) ⟨j, member, final_mark here⟩)
  · refine Fence.exposed_append (Fence.exposed_unpinned fun j member => ?_) safe.2
    cases pinned : (Fence.barrier k w?).pinned j with
    | false => rfl
    | true => exact absurd (halt_source (leads_exec m t job j member) pinned) stops

-- The thread has not halted the hub, and something is in the way of its halting it.
structure Barred (k : Job → Bool) (w? : Option ThreadId) (past : List Moment) (m : Machine) (u : ThreadId) : Prop where
  ahead : (Fence.barrier k w?).exposed (m.agenda u) = false
  behind : ∀ x ∈ past, x.thread = u → x.job ≠ .hub .halt

theorem fresh_unhalted {agenda : List Job} (fresh : Fresh config u agenda) : .hub .halt ∉ agenda := fun member => by
  cases fresh.jobs _ member

theorem barred_fresh (fresh : Fresh config u (m.agenda u)) (behind : ∀ x ∈ past, x.thread = u → x.job ≠ .hub .halt) :
    Barred k w? past m u := by
  refine ⟨Fence.exposed_unpinned fun job member => unhalted ?_, behind⟩
  rintro rfl
  exact fresh_unhalted fresh member

theorem Barred.carry (final : Final k) (run : Run config hooks past m) (joins : config.joinWorkers = true)
    (barred : Barred k w? past m u) (agenda : m.agenda t = job :: later) (unmarked : u = t → (Fence.barrier k w?).mark job = false) :
    Barred k w? (past ++ [⟨m, t, job, later⟩]) (m.carry t job later) u := by
  have joins : m.hub.config.joinWorkers = true := run.configured ▸ joins
  by_cases mine : u = t
  · subst mine
    have ahead := barred.ahead
    rw [agenda] at ahead
    refine ⟨?_, List.forall_mem_append.mpr ⟨barred.behind, List.forall_mem_singleton.mpr fun _ halts => ?_⟩⟩
    · rw [agenda_carry_self agenda]
      exact barrier_next final m u joins (unmarked rfl) ahead
    · have here : job = .hub .halt := halts
      subst here
      simp [Fence.exposed, Fence.barrier, final.hub] at ahead
  · have behind : ∀ x ∈ past ++ [⟨m, t, job, later⟩], x.thread = u → x.job ≠ .hub .halt :=
      List.forall_mem_append.mpr ⟨barred.behind, List.forall_mem_singleton.mpr fun same => absurd same.symm mine⟩
    rcases run.carry_fresh job later mine with same | ⟨_, fresh⟩
    · exact ⟨same ▸ barred.ahead, behind⟩
    · exact barred_fresh fresh behind

theorem Barred.unwind (run : Run config hooks past m) (barred : Barred k w? past m u) (agenda : m.agenda t = .panic :: later) :
    Barred k w? (past ++ [⟨m, t, .panic, later⟩]) (m.unwind t later) u := by
  refine ⟨?_, List.forall_mem_append.mpr ⟨barred.behind, List.forall_mem_singleton.mpr fun _ none => by cases none⟩⟩
  rcases run.agenda_unwound agenda u with trails | ⟨_, same⟩
  · refine Fence.exposed_unpinned fun job member => unhalted ?_
    rintro rfl
    cases trails _ member
  · rw [same]
    exact barred.ahead

theorem Barred.call (barred : Barred k w? past m u)
    (agendas : m'.agenda u = m.agenda u ∨ (m.agenda u = [] ∧ Fresh config u (m'.agenda u))) :
    Barred k w? past m' u := by
  rcases agendas with same | ⟨_, fresh⟩
  · exact ⟨same ▸ barred.ahead, barred.behind⟩
  · exact barred_fresh fresh barred.behind

theorem barred_initial (fresh : Fresh config .caller jobs) (u : ThreadId) :
    Barred k w? [] ((Machine.initial config hooks system).beginWith jobs) u := by
  rcases initial_fresh config hooks u fresh with same | fresh
  · exact ⟨by rw [same]; rfl, fun _ none => by cases none⟩
  · exact barred_fresh fresh fun _ none => by cases none

-- Until the final job is done, the hub is not halted, and everybody who will halt it comes to that job.
theorem Run.unfinished (final : Final k) (run : Run config hooks past m) (joins : config.joinWorkers = true)
    (unfinished : ∀ x ∈ past, k x.job = false) (u : ThreadId) : Barred k none past m u := by
  refine Run.induct (G := fun x => k x.job = false) (P := fun past m => ∀ u, Barred k none past m u)
    ?construct ?assemble ?call ?client ?carry ?unwind run unfinished u
  case construct => exact barred_initial .construction
  case assemble => exact barred_initial .assembly
  case call => exact fun op _ before idle u => (before u).call (call_fresh config idle op u)
  case client => exact fun name op _ before u => (before u).call (client_fresh config _ name op u)
  case carry =>
    intro past m t job later run before agenda _ _ here u
    refine (before u).carry final run joins agenda fun _ => ?_
    cases marked : (Fence.barrier k none).mark job with
    | false => rfl
    | true =>
        rcases mark_cases marked with finishes | ⟨_, _, _, none⟩
        · exact absurd (here.symm.trans finishes) Bool.false_ne_true
        · cases none
  case unwind => exact fun run before agenda _ u => (before u).unwind run agenda

theorem Run.dispatcher_known (run : Run config hooks past m) (works : dispatches past w) :
    w ≠ .caller ∧ w.val < m.agendas.length := by
  rcases works with device | ⟨slot, member, rfl⟩
  · refine Run.induct (G := fun _ => True) (P := fun past m => ∀ w ∈ deviceCrew past, w ≠ .caller ∧ w.val < m.agendas.length)
      ?construct ?assemble ?call ?client ?carry ?unwind run (fun _ _ => trivial) w device
    case construct | assemble => exact fun _ none => by cases none
    case call =>
      intro past m op _ before _
      rwa [agendas_beginWith, List.length_set]
    case client =>
      intro past m name op _ before w member
      rw [agendas_spawn, List.length_append]
      exact ⟨(before w member).1, Nat.lt_add_right _ (before w member).2⟩
    case carry =>
      intro past m t job later run before agenda _ _ _ w member
      rw [length_agendas_carry]
      rcases mem_deviceCrew_snoc.mp member with old | mans
      · exact ⟨(before w old).1, Nat.lt_add_right _ (before w old).2⟩
      · obtain ⟨rfl, started, rfl⟩ := mans_started mans
        have positive := run.caller_known
        refine ⟨fun same => ?_, ?_⟩
        · have zero : m.agendas.length = 0 := congrArg ThreadId.val same
          omega
        · simp [Job.recruits, started]
    case unwind =>
      intro past m t later _ before _ _ w member
      rw [agendas_unwind, List.length_set]
      exact before w ((mem_deviceCrew_snoc.mp member).resolve_right fun none => by cases none)
  · have known := run.rostered.known slot member
    exact ⟨run.rostered.apart member, known.2.2⟩

theorem Run.crews_apart (run : Run config hooks past m) : ∀ w ∈ deviceCrew past, ∀ slot ∈ roster past, slot.worker ≠ w := by
  refine Run.induct (G := fun _ => True) (P := fun past _ => ∀ w ∈ deviceCrew past, ∀ slot ∈ roster past, slot.worker ≠ w)
    ?construct ?assemble ?call ?client ?carry ?unwind run fun _ _ => trivial
  case construct | assemble => exact fun _ none => by cases none
  case call => exact fun _ _ before _ => before
  case client => exact fun _ _ _ before => before
  case carry =>
    intro past m t job later run before agenda _ _ _ w crewed slot member
    rcases mem_deviceCrew_snoc.mp crewed with device | mans <;> rcases mem_roster_snoc.mp member with old | opens
    · exact before w device slot old
    · obtain ⟨c, rfl, _, rfl⟩ := opens_started opens
      rintro rfl
      exact Nat.lt_irrefl _ (run.dispatcher_known (.inl device)).2
    · obtain ⟨rfl, _, rfl⟩ := mans_started mans
      intro same
      have known := (run.rostered.known slot old).2.2
      rw [same] at known
      exact Nat.lt_irrefl _ known
    · obtain ⟨rfl, _, _⟩ := mans_started mans
      cases opens
  case unwind =>
    intro past m t later run before agenda _ w crewed slot member
    exact before w ((mem_deviceCrew_snoc.mp crewed).resolve_right fun none => by cases none) slot
      ((mem_roster_snoc.mp member).resolve_right fun none => by cases none)

theorem Run.ended_carry (run : Run config hooks past m) (works : dispatches past w) (ended : m.agenda w = [])
    (agenda : m.agenda t = job :: later) : (m.carry t job later).agenda w = [] := by
  have apart : w ≠ t := fun same => by rw [same, agenda] at ended; cases ended
  rw [agenda_carry_old apart (run.dispatcher_known works).2, ended]

theorem ended_unwind (ended : m.agenda w = []) (agenda : m.agenda t = .panic :: later) : (m.unwind t later).agenda w = [] := by
  have apart : w ≠ t := fun same => by rw [same, agenda] at ended; cases ended
  rw [agenda_unwind_other apart, ended]

theorem Run.waited {G : Moment → Prop} {S : List Moment → ThreadId → Prop} (final : Final k) (joins : config.joinWorkers = true)
    (none : ∀ w, ¬ S [] w)
    (works : ∀ {past m w}, Run config hooks past m → S past w → dispatches past w)
    (new : ∀ {past m t job later w}, Run config hooks past m → m.agenda t = job :: later → (∀ y ∈ past, G y) →
      G ⟨m, t, job, later⟩ → S (past ++ [⟨m, t, job, later⟩]) w →
      S past w ∨ ∀ y ∈ past ++ [⟨m, t, job, later⟩], k y.job = false)
    (waits : ∀ {past m t job later w}, Run config hooks past m → m.agenda t = job :: later → (∀ y ∈ past, G y) →
      G ⟨m, t, job, later⟩ → job.enabled m t = true → k job = true → S past w →
      m.agenda w = [] ∨ ∃ lane, .join lane w ∈ (job.exec m t).2)
    (run : Run config hooks past m) (all : ∀ x ∈ past, G x) :
    ∀ w, S past w → m.agenda w = [] ∨ ∀ u, u ≠ w → Barred k (some w) past m u := by
  refine Run.induct_all (G := G) (P := fun past m => ∀ w, S past w → m.agenda w = [] ∨ ∀ u, u ≠ w → Barred k (some w) past m u)
    ?construct ?assemble ?call ?client ?carry ?unwind run all
  case construct | assemble => exact fun w here => absurd here (none w)
  case call =>
    intro past m op run before idle w here
    have known := run.dispatcher_known (works run here)
    rw [agenda_beginWith_other known.1]
    exact (before w here).imp_right fun barred u other => (barred u other).call (call_fresh config idle op u)
  case client =>
    intro past m name op run before w here
    have known := run.dispatcher_known (works run here)
    rw [agenda_client_old known.2]
    exact (before w here).imp_right fun barred u other => (barred u other).call (client_fresh config _ name op u)
  case carry =>
    intro past m t job later run before agenda notPanic enabled old now w here
    rcases new run agenda old now here with crewed | unfinished
    · rcases before w crewed with ended | barred
      · exact .inl (run.ended_carry (works run crewed) ended agenda)
      cases marked : (Fence.barrier k (some w)).mark job with
      | false => exact .inr fun u other => (barred u other).carry final run joins agenda fun _ => marked
      | true =>
          by_cases own : w = t
          · exact .inr fun u other => (barred u other).carry final run joins agenda fun same => absurd (same.trans own.symm) other
          rcases mark_cases marked with finishes | ⟨lane, _, rfl, same⟩
          · -- The final job leaves a wait for this worker, or the worker has ended.
            rcases waits run agenda old now enabled finishes crewed with ended | ⟨lane, member⟩
            · exact .inl (run.ended_carry (works run crewed) ended agenda)
            refine .inr fun u other => ?_
            by_cases mine : u = t
            · subst mine
              have behind := (barred u other).behind
              refine ⟨?_, List.forall_mem_append.mpr ⟨behind, List.forall_mem_singleton.mpr fun _ halts => ?_⟩⟩
              · rw [agenda_carry_self agenda]
                refine Fence.exposed_shut (shut_of_mark (fun j next => ?_) ⟨_, member, ?_⟩)
                · cases pinned : (Fence.barrier k (some w)).pinned j with
                  | false => rfl
                  | true =>
                      rw [halt_source (leads_exec m u job j next) pinned, final.hub] at finishes
                      cases finishes
                · simp [Fence.barrier]
              · have here : job = .hub .halt := halts
                rw [here, final.hub] at finishes
                cases finishes
            · exact (barred u other).carry final run joins agenda fun same => absurd same mine
          · -- Somebody else has waited for this worker.
            cases same
            have exited : m.exited w = true := by
              simp only [Job.enabled, Job.needs, Option.all_none, Bool.true_and, Bool.or_eq_true, decide_eq_true_eq] at enabled
              exact enabled.resolve_left own
            exact .inl (run.ended_carry (works run crewed) (exited_idle exited) agenda)
    · refine .inr fun u _ => ?_
      have barred := (run.step agenda (step_carry agenda notPanic enabled)).unfinished final joins unfinished u
      exact ⟨barrier_wider barred.ahead, barred.behind⟩
  case unwind =>
    intro past m t later run before agenda old now w here
    rcases new run agenda old now here with crewed | unfinished
    · rcases before w crewed with ended | barred
      · exact .inl (ended_unwind ended agenda)
      · exact .inr fun u other => (barred u other).unwind run agenda
    · refine .inr fun u _ => ?_
      have barred := (run.step agenda (step_panic agenda)).unfinished final joins unfinished u
      exact ⟨barrier_wider barred.ahead, barred.behind⟩

end TransportHub
