import TransportHub.Proofs.Load
import TransportHub.Proofs.Panic
import TransportHub.Proofs.Unchanged
/-!
Locks: work that is only under way while a lock is held. A gate counts, on every agenda, the jobs that
will give its lock back; where there are more of them than jobs that take it, the thread has it.
-/

set_option autoImplicit false

namespace TransportHub

variable {config : Config} {hooks : List Hook} {system : System} {past : List Moment} {m : Machine} {t u : ThreadId}
  {job : Job} {later : List Job}

theorem each_every {p : Job → Bool} {front back : List Job} (first : Every p front) (behind : Every p back) :
    Each (fun _ rest => Every p (rest ++ back)) front := by
  induction front with
  | nil => trivial
  | cons job rest ih =>
      have tail := ((every_cons ..).mp first).2
      exact ⟨(every_append ..).mpr ⟨tail, behind⟩, ih tail⟩

def Job.trails : Job → Bool
  | .log _ => true
  | .participant (.delivered _) => false
  | job => job.crew

theorem trails_next (m : Machine) (t : ThreadId) (job : Job) (crew : job.crew = true)
    (apart : ∀ d, job ≠ .participant (.deliver d)) : Every Job.trails (job.exec m t).2 := by
  cases job with
  | dataLane job =>
      cases job with
      | look | snapshot | handOver | mismatch =>
          simp only [Job.exec, DataLaneJob.exec, DataLaneJob.lookAtLane, DataLaneJob.deliverOne]
          repeat' split
          all_goals simp <;> and_intros <;> intros <;> rfl
      | _ => cases crew
  | deviceLane job =>
      cases job with
      | look =>
          simp only [Job.exec, DeviceLaneJob.exec, DeviceLaneJob.lookAtQueue]
          repeat' split
          all_goals (simp; and_intros <;> intros <;> rfl)
      | _ => cases crew
  | participant job =>
      cases job with
      | deliver d => exact absurd rfl (apart d)
      | delivered d => exact every_one rfl
      | _ => cases crew
  | _ => cases crew

theorem Run.trailing (run : Run config hooks past m) (u : ThreadId) :
    Each (fun job rest => job.crew = true → Every Job.trails rest) (m.agenda u) := by
  refine Run.each (G := fun _ => True) (P := fun _ job rest => job.crew = true → Every Job.trails rest)
    ?fresh ?next ?caught run (fun _ _ => trivial) u
  case fresh =>
    intro u agenda fresh
    cases fresh <;> first
      | exact ⟨fun none => (by cases none), fun _ => every_nil _, trivial⟩
      | exact ⟨fun none => (by cases none), trivial⟩
  case next =>
    intro past m t job later _ each agenda _ _ _
    have here := each t
    rw [agenda] at here
    cases crew : job.crew with
    | false =>
        refine each_of_forall fun j member rest kind => ?_
        rw [crew_source (leads_exec m t job j member) kind] at crew
        cases crew
    | true =>
        have behind := here.1 crew
        by_cases delivers : ∃ d, job = .participant (.deliver d)
        · obtain ⟨d, rfl⟩ := delivers
          simp only [Job.exec, ParticipantJob.exec]
          split
          · trivial
          · exact ⟨fun none => (by cases none), fun none => (by cases none), fun _ => behind, trivial⟩
        · have trails := trails_next m t job crew fun d same => delivers ⟨d, same⟩
          exact each_imp (fun _ _ all _ => all) (each_every trails behind)
  case caught =>
    intro u d rest each
    exact ⟨fun none => (by cases none), fun _ => each.1 rfl, each.2⟩

theorem Run.trails_kept (run : Run config hooks past m) (agenda : m.agenda t = .panic :: later) :
    Every Job.trails (kept later) := by
  rcases unwound later with ⟨d, rest, split, left⟩ | ⟨_, left⟩
  · have each := run.trailing t
    rw [agenda, split] at each
    have behind := (each_append.mp each.2).2.1 rfl
    rw [left]
    exact (every_append ..).mpr ⟨(every_cons ..).mpr ⟨rfl, every_one rfl⟩, behind⟩
  · rw [left]
    exact every_nil _

theorem Run.agenda_unwound (run : Run config hooks past m) (agenda : m.agenda t = .panic :: later) (u : ThreadId) :
    Every Job.trails ((m.unwind t later).agenda u) ∨ (u ≠ t ∧ (m.unwind t later).agenda u = m.agenda u) := by
  by_cases mine : u = t
  · subst mine
    rw [agenda_unwind_self agenda]
    exact .inl (run.trails_kept agenda)
  · exact .inr ⟨mine, agenda_unwind_other mine⟩

theorem Run.outlived (run : Run config hooks past m) (agenda : m.agenda t = .panic :: later) (loose : job.trails = false)
    (member : job ∈ (m.unwind t later).agenda u) : u ≠ t ∧ job ∈ m.agenda u := by
  rcases run.agenda_unwound agenda u with trails | ⟨mine, same⟩
  · cases loose.symm.trans (trails job member)
  · exact ⟨mine, same ▸ member⟩

-- A lock, the jobs that will give it back, and the jobs that are only there while it is held. Operations
-- that a gate does not admit may bring in guarded jobs without taking the lock.
structure Gate where
  lock : Lock
  owes : Job → Nat
  guards : Job → Nat
  admits : Op → Bool := fun _ => true

namespace Gate

def takes (G : Gate) : Job → Nat
  | .acquire lock => if lock = G.lock then 1 else 0
  | _ => 0

def lets (G : Gate) : Job → Bool
  | .perform op => G.admits op
  | _ => true

def Level (G : Gate) (agenda : List Job) : Prop :=
  weight G.takes agenda + weight G.guards agenda ≤ weight G.owes agenda

def fits (G : Gate) (job : Job) : List Job → Bool
  | [] => true
  | j :: rest =>
      (decide (weight G.takes (j :: rest) + weight G.guards (j :: rest) ≤ weight G.owes (j :: rest)) ||
        decide (weight G.takes (j :: rest) + weight G.guards (j :: rest) + G.owes job ≤ weight G.owes (j :: rest) + G.guards job)) &&
      fits G job rest

def plain (G : Gate) (job : Job) : Prop := G.owes job = 0 ∧ G.takes job = 0 ∧ G.guards job = 0

structure Sound (G : Gate) : Prop where
  acquire : ∀ lock, G.owes (.acquire lock) = 0
  release : ∀ lock, G.owes (.release lock) = if lock = G.lock then 1 else 0
  fresh : ∀ config u agenda, Fresh config u agenda → ∀ job ∈ agenda, G.plain job
  trails : ∀ job, job.trails = true → G.plain job
  admits : ∀ op, op.managed = true → G.admits op = true
  count : ∀ m t job, G.lets job = true →
    weight G.owes (job.exec m t).2 ≤ weight G.takes (job.exec m t).2 + G.owes job
  next : ∀ m t job, G.lets job = true → G.fits job (job.exec m t).2 = true

structure Kept (G : Gate) (m : Machine) : Prop where
  count : ∀ u, weight G.owes (m.agenda u) ≤ weight G.takes (m.agenda u) + m.locks.count (G.lock, u)
  level : ∀ u, Each (fun job rest => G.Level (job :: rest)) (m.agenda u)
  single : (m.locks.filter (·.1 = G.lock)).length ≤ 1

variable {G : Gate} {agenda front back : List Job}

theorem weight_plain (plain : ∀ job ∈ agenda, G.plain job) :
    weight G.owes agenda = 0 ∧ weight G.takes agenda = 0 ∧ weight G.guards agenda = 0 :=
  ⟨weight_zero fun job member => (plain job member).1, weight_zero fun job member => (plain job member).2.1,
    weight_zero fun job member => (plain job member).2.2⟩

theorem level_plain (plain : ∀ job ∈ agenda, G.plain job) : Each (fun job rest => G.Level (job :: rest)) agenda := by
  induction agenda with
  | nil => trivial
  | cons job rest ih =>
      refine ⟨?_, ih fun j member => plain j (List.mem_cons_of_mem _ member)⟩
      obtain ⟨_, takes, guards⟩ := weight_plain plain
      unfold Level
      omega

theorem level_all (level : Each (fun job rest => G.Level (job :: rest)) agenda) : G.Level agenda := by
  cases agenda with
  | nil => exact Nat.le_refl 0
  | cons job rest => exact level.1

theorem level_next (fits : G.fits job front = true) (whole : G.Level (job :: back)) (none : G.takes job = 0)
    (later : Each (fun job rest => G.Level (job :: rest)) back) :
    Each (fun job rest => G.Level (job :: rest)) (front ++ back) := by
  induction front with
  | nil => exact later
  | cons j rest ih =>
      simp only [Gate.fits, Bool.and_eq_true, Bool.or_eq_true, decide_eq_true_eq] at fits
      have behind := level_all later
      refine ⟨?_, ih fits.2⟩
      show G.Level (j :: (rest ++ back))
      simp only [Level, weight_cons, weight_append] at whole behind fits ⊢
      omega

theorem locks_exec (m : Machine) (t : ThreadId) (job : Job)
    (apart : ∀ lock, job ≠ .acquire lock ∧ job ≠ .release lock) : (job.exec m t).1.locks = m.locks := by
  have books := (books_exec m t job []).locks
  cases job with
  | acquire lock => exact absurd rfl (apart lock).1
  | release lock => exact absurd rfl (apart lock).2
  | _ => exact books

theorem locks_unwind : (m.unwind t later).locks = m.locks.filter (·.2 ≠ t) := by
  unfold Machine.unwind
  repeat' split
  all_goals rfl

theorem count_le_single (locks : List (Lock × ThreadId)) (lock : Lock) (u : ThreadId) :
    locks.count (lock, u) ≤ (locks.filter (·.1 = lock)).length := by
  have same : (locks.filter (·.1 = lock)).count (lock, u) = locks.count (lock, u) := List.count_filter (by simp)
  rw [← same]
  exact List.count_le_length

theorem Kept.alone (kept : G.Kept m) (different : t ≠ u) (has : 0 < m.locks.count (G.lock, t)) : m.locks.count (G.lock, u) = 0 := by
  refine List.count_eq_zero.mpr fun other => ?_
  have one : (G.lock, t) ∈ m.locks.filter (·.1 = G.lock) := List.mem_filter.mpr ⟨List.count_pos_iff.mp has, by simp⟩
  have two : (G.lock, u) ∈ m.locks.filter (·.1 = G.lock) := List.mem_filter.mpr ⟨other, by simp⟩
  have single := kept.single
  generalize m.locks.filter (·.1 = G.lock) = held at one two single
  match held, single with
  | [], _ => cases one
  | [entry], _ =>
      rw [List.mem_singleton] at one two
      exact different (congrArg Prod.snd (one.trans two.symm))

theorem count_free {lock : Lock} (free : m.free lock = true) (u : ThreadId) : m.locks.count (lock, u) = 0 := by
  refine List.count_eq_zero.mpr fun has => ?_
  simp only [Machine.free, Bool.not_eq_true', List.any_eq_false, decide_eq_true_eq] at free
  exact free _ has rfl

theorem Kept.same (sound : G.Sound) (kept : G.Kept m) {m' : Machine} (locks : m'.locks = m.locks)
    (agendas : ∀ u, m'.agenda u = m.agenda u ∨ (m.agenda u = [] ∧ Fresh config u (m'.agenda u))) : G.Kept m' where
  count u := by
    rw [locks]
    rcases agendas u with same | ⟨_, fresh⟩
    · rw [same]
      exact kept.count u
    · rw [(weight_plain (sound.fresh config u _ fresh)).1]
      exact Nat.zero_le _
  level u := by
    rcases agendas u with same | ⟨_, fresh⟩
    · rw [same]
      exact kept.level u
    · exact level_plain (sound.fresh config u _ fresh)
  single := locks ▸ kept.single

theorem Kept.initial (sound : G.Sound) (jobs : List Job) (fresh : Fresh config .caller jobs) :
    G.Kept ((Machine.initial config hooks system).beginWith jobs) := by
  have plain : ∀ u, ∀ job ∈ ((Machine.initial config hooks system).beginWith jobs).agenda u, G.plain job := by
    intro u
    rcases initial_fresh config hooks u fresh with same | begins
    · rw [same]
      exact fun _ none => by cases none
    · exact sound.fresh config u _ begins
  refine ⟨fun u => ?_, fun u => level_plain (plain u), Nat.zero_le _⟩
  rw [(weight_plain (plain u)).1]
  exact Nat.zero_le _

theorem Kept.step (sound : G.Sound) (kept : G.Kept m) (run : Run config hooks past m) (agenda : m.agenda t = job :: later)
    (lets : G.lets job = true)
    (own : weight G.owes (job.exec m t).2 + weight G.owes later ≤
      weight G.takes (job.exec m t).2 + weight G.takes later + (job.exec m t).1.locks.count (G.lock, t))
    (others : ∀ u, u ≠ t → (job.exec m t).1.locks.count (G.lock, u) = m.locks.count (G.lock, u))
    (single : ((job.exec m t).1.locks.filter (·.1 = G.lock)).length ≤ 1) : G.Kept (m.carry t job later) where
  count u := by
    have locks : (m.carry t job later).locks = (job.exec m t).1.locks := rfl
    rw [locks]
    by_cases mine : u = t
    · subst mine
      rw [agenda_carry_self agenda, weight_append, weight_append]
      exact own
    · rw [others u mine]
      rcases run.carry_fresh job later mine with same | ⟨_, fresh⟩
      · rw [same]
        exact kept.count u
      · rw [(weight_plain (sound.fresh config u _ fresh)).1]
        exact Nat.zero_le _
  level u := by
    by_cases mine : u = t
    · subst mine
      have level := kept.level u
      rw [agenda] at level
      rw [agenda_carry_self agenda]
      by_cases takes : G.takes job = 0
      · exact level_next (sound.next m u job lets) level.1 takes level.2
      · cases job with
        | acquire lock => exact level.2
        | _ => exact absurd rfl takes
    · rcases run.carry_fresh job later mine with same | ⟨_, fresh⟩
      · rw [same]
        exact kept.level u
      · exact level_plain (sound.fresh config u _ fresh)
  single := single

theorem Kept.release (sound : G.Sound) (kept : G.Kept m) (agenda : m.agenda t = .release G.lock :: later) :
    m.locks.count (G.lock, t) = 1 ∧ weight G.owes later = weight G.takes later := by
  have count := kept.count t
  have level := kept.level t
  rw [agenda] at count level
  have behind := level_all level.2
  have one := Nat.le_trans (count_le_single m.locks G.lock t) kept.single
  have owes : G.owes (.release G.lock) = 1 := by rw [sound.release, if_pos rfl]
  have takes : G.takes (.release G.lock) = 0 := rfl
  simp only [Level, weight_cons, owes, takes] at count behind
  omega

theorem Kept.acquire (sound : G.Sound) (kept : G.Kept m) (run : Run config hooks past m) {lock : Lock}
    (agenda : m.agenda t = .acquire lock :: later) (free : m.free lock = true) : G.Kept (m.carry t (.acquire lock) later) := by
  have count := kept.count t
  rw [agenda, weight_cons, weight_cons, sound.acquire lock, Nat.zero_add] at count
  refine kept.step sound run agenda rfl ?_ (fun u other => ?_) ?_
  · simp only [Job.exec, Machine.take, weight_nil, Nat.zero_add, List.count_cons]
    by_cases mine : lock = G.lock
    · subst mine
      have none := count_free free t
      simp only [takes, if_true, none] at count
      simp [none]
      omega
    · simp only [takes, if_neg mine] at count
      simpa [mine] using count
  · have apart : ((lock, t) == (G.lock, u)) = false := by simp [Ne.symm other]
    simp only [Job.exec, Machine.take, List.count_cons, apart]
    rfl
  · simp only [Job.exec, Machine.take, List.filter_cons]
    by_cases mine : lock = G.lock
    · subst mine
      have none : m.locks.filter (·.1 = G.lock) = [] := by
        refine List.filter_eq_nil_iff.mpr fun entry has => ?_
        simp only [Machine.free, Bool.not_eq_true', List.any_eq_false, decide_eq_true_eq] at free
        simpa using free entry has
      simp [none]
    · simpa [mine] using kept.single

theorem Kept.giveBack (sound : G.Sound) (kept : G.Kept m) (run : Run config hooks past m)
    (agenda : m.agenda t = .release G.lock :: later) : G.Kept (m.carry t (.release G.lock) later) := by
  obtain ⟨has, settled⟩ := kept.release sound agenda
  have gone : ∀ u, (m.locks.filter (·.1 ≠ G.lock)).count (G.lock, u) = 0 := fun u =>
    List.count_eq_zero.mpr fun still => by simp at still
  refine kept.step sound run agenda rfl ?_ (fun u other => ?_) ?_
  · simp only [Job.exec, Machine.giveBack, weight_nil, Nat.zero_add]
    rw [gone t, settled]
    exact Nat.le_refl _
  · simp only [Job.exec, Machine.giveBack]
    rw [gone u, kept.alone (Ne.symm other) (by omega)]
  · simp only [Job.exec, Machine.giveBack, List.filter_filter]
    refine Nat.le_trans (Nat.le_of_eq ?_) (Nat.zero_le 1)
    refine List.length_eq_zero_iff.mpr (List.filter_eq_nil_iff.mpr fun entry _ => ?_)
    simp

theorem Kept.giveOther (sound : G.Sound) (kept : G.Kept m) (run : Run config hooks past m) {lock : Lock} (apart : lock ≠ G.lock)
    (agenda : m.agenda t = .release lock :: later) : G.Kept (m.carry t (.release lock) later) := by
  have count := kept.count t
  have owes : G.owes (.release lock) = 0 := by rw [sound.release, if_neg apart]
  have takes : G.takes (.release lock) = 0 := rfl
  have same : ∀ u, (m.locks.filter (·.1 ≠ lock)).count (G.lock, u) = m.locks.count (G.lock, u) := fun u =>
    List.count_filter (by simp [Ne.symm apart])
  rw [agenda, weight_cons, weight_cons, owes, takes, Nat.zero_add, Nat.zero_add] at count
  refine kept.step sound run agenda rfl ?_ (fun u _ => same u) ?_
  · simp only [Job.exec, Machine.giveBack, weight_nil, Nat.zero_add]
    rw [same t]
    exact count
  · exact Nat.le_trans (List.filter_sublist.filter _).length_le kept.single

-- A panic gives back what its thread has, and leaves nothing on its agenda that the lock is needed for.
theorem Kept.unwind (sound : G.Sound) (kept : G.Kept m) (run : Run config hooks past m) (agenda : m.agenda t = .panic :: later) :
    G.Kept (m.unwind t later) := by
  have trails := run.trails_kept agenda
  have plain : ∀ job ∈ TransportHub.kept later, G.plain job := fun job member => sound.trails job (trails job member)
  refine ⟨fun u => ?_, fun u => ?_, ?_⟩
  · rw [locks_unwind]
    by_cases mine : u = t
    · subst mine
      rw [agenda_unwind_self agenda, (weight_plain plain).1]
      exact Nat.zero_le _
    · rw [agenda_unwind_other mine, List.count_filter (by simp [mine])]
      exact kept.count u
  · by_cases mine : u = t
    · subst mine
      rw [agenda_unwind_self agenda]
      exact level_plain plain
    · rw [agenda_unwind_other mine]
      exact kept.level u
  · rw [locks_unwind]
    exact Nat.le_trans (List.filter_sublist.filter _).length_le kept.single

theorem Sound.kept (sound : G.Sound) (run : Run config hooks past m) (lets : ∀ x ∈ past, G.lets x.job = true) : G.Kept m := by
  refine Run.induct (G := fun x => G.lets x.job = true) (P := fun _ m => G.Kept m)
    ?construct ?assemble ?call ?client ?carry ?unwind run lets
  case construct => exact .initial sound _ .construction
  case assemble => exact .initial sound _ .assembly
  case call => exact fun op _ kept idle => kept.same sound rfl fun u => call_fresh config idle op u
  case client => exact fun name op _ kept => kept.same sound rfl fun u => client_fresh config _ name op u
  case carry =>
    intro past m t job later run kept agenda notPanic enabled here
    by_cases acquires : ∃ lock, job = .acquire lock
    · obtain ⟨lock, rfl⟩ := acquires
      exact kept.acquire sound run agenda (by simpa [Job.enabled, Job.needs] using enabled)
    by_cases releases : ∃ lock, job = .release lock
    · obtain ⟨lock, rfl⟩ := releases
      by_cases mine : lock = G.lock
      · subst mine
        exact kept.giveBack sound run agenda
      · exact kept.giveOther sound run mine agenda
    · have apart : ∀ lock, job ≠ .acquire lock ∧ job ≠ .release lock := fun lock =>
        ⟨fun same => acquires ⟨lock, same⟩, fun same => releases ⟨lock, same⟩⟩
      have locks := locks_exec m t job apart
      have next := sound.count m t job here
      have takes : G.takes job = 0 := by
        cases job with
        | acquire lock => exact absurd ⟨lock, rfl⟩ acquires
        | _ => rfl
      have count := kept.count t
      rw [agenda, weight_cons, weight_cons] at count
      refine kept.step sound run agenda here ?_ (fun u _ => by rw [locks]) (by rw [locks]; exact kept.single)
      rw [locks]
      omega
  case unwind => exact fun run kept agenda _ => kept.unwind sound run agenda

theorem Sound.run (sound : G.Sound) (run : Run config hooks past m) (managed : ∀ x ∈ past, x.managed) : G.Kept m := by
  refine sound.kept run fun x seen => ?_
  cases here : x.job with
  | perform op => exact sound.admits op (managed x seen op here)
  | _ => rfl

theorem Sound.ever (sound : G.Sound) (admits : ∀ op, G.admits op = true) (run : Run config hooks past m) : G.Kept m := by
  refine sound.kept run fun x _ => ?_
  cases x.job with
  | perform op => exact admits op
  | _ => rfl

theorem Kept.held (kept : G.Kept m) (u : ThreadId) : weight G.guards (m.agenda u) ≤ m.locks.count (G.lock, u) := by
  have count := kept.count u
  have level := level_all (kept.level u)
  unfold Level at level
  omega

theorem Kept.once (kept : G.Kept m) (u : ThreadId) : weight G.guards (m.agenda u) ≤ 1 :=
  Nat.le_trans (kept.held u) (Nat.le_trans (count_le_single m.locks G.lock u) kept.single)

theorem Kept.open (kept : G.Kept m) (free : m.free G.lock = true) (u : ThreadId) : weight G.guards (m.agenda u) = 0 := by
  have held := kept.held u
  rw [count_free free u] at held
  exact Nat.le_zero.mp held

theorem Kept.apart (kept : G.Kept m) (different : t ≠ u) (here : 0 < weight G.guards (m.agenda t)) :
    weight G.guards (m.agenda u) = 0 := by
  have none := kept.alone different (Nat.lt_of_lt_of_le here (kept.held t))
  have held := kept.held u
  omega

theorem Kept.load (kept : G.Kept m) : m.load G.guards ≤ 1 :=
  load_single kept.once fun _ _ => kept.apart

theorem Kept.owing (kept : G.Kept m) (agenda : m.agenda t = job :: later) (owes : 0 < G.owes job) (takes : G.takes job = 0) :
    weight G.guards later = 0 ∧ ∀ u, u ≠ t → weight G.guards (m.agenda u) = 0 := by
  have count := kept.count t
  have level := kept.level t
  have one := Nat.le_trans (count_le_single m.locks G.lock t) kept.single
  rw [agenda] at count level
  have behind := level_all level.2
  simp only [Level, weight_cons, takes] at count behind
  refine ⟨by omega, fun u other => ?_⟩
  have none := kept.alone (Ne.symm other) (by omega)
  have held := kept.held u
  omega

theorem Kept.guarding (kept : G.Kept m) (agenda : m.agenda t = job :: later) (guards : 0 < G.guards job) :
    weight G.guards later = 0 ∧ ∀ u, u ≠ t → weight G.guards (m.agenda u) = 0 := by
  have once := kept.once t
  have here : 0 < weight G.guards (m.agenda t) := by
    rw [agenda, weight_cons]
    omega
  rw [agenda, weight_cons] at once
  exact ⟨by omega, fun u other => kept.apart (Ne.symm other) here⟩

theorem fits_plain (job : Job) (plain : ∀ j ∈ front, G.plain j) : G.fits job front = true := by
  induction front with
  | nil => rfl
  | cons j rest ih =>
      obtain ⟨_, takes, guards⟩ := weight_plain plain
      simp only [fits, takes, guards, ih fun k member => plain k (List.mem_cons_of_mem _ member)]
      simp

theorem fits_append (fits : G.fits job front = true) (plain : ∀ j ∈ back, G.plain j) : G.fits job (front ++ back) = true := by
  induction front with
  | nil => exact fits_plain job plain
  | cons j rest ih =>
      obtain ⟨owes, takes, guards⟩ := weight_plain plain
      simp only [List.cons_append, Gate.fits, weight_cons, weight_append, owes, takes, guards, Nat.add_zero,
        Bool.and_eq_true] at fits ⊢
      exact ⟨fits.1, ih fits.2⟩

def meets (G : Gate) (job : Job) (next : List Job) : Bool :=
  decide (weight G.owes next ≤ weight G.takes next + G.owes job) && G.fits job next

theorem meets_concat (owes : G.owes job = 0) (guards : G.guards job = 0) (first : G.meets job front = true)
    (second : G.meets job back = true) : G.meets job (front ++ back) = true := by
  simp only [Gate.meets, Bool.and_eq_true, decide_eq_true_eq, owes, Nat.add_zero] at first second ⊢
  obtain ⟨count, first⟩ := first
  obtain ⟨countBack, second⟩ := second
  refine ⟨by simp only [weight_append]; omega, ?_⟩
  clear count countBack
  have whole : weight G.takes back + weight G.guards back ≤ weight G.owes back := by
    cases back with
    | nil => exact Nat.le_refl 0
    | cons j rest =>
        simp only [Gate.fits, Bool.and_eq_true, Bool.or_eq_true, decide_eq_true_eq, owes, guards, Nat.add_zero, or_self] at second
        exact second.1
  induction front with
  | nil => exact second
  | cons j rest ih =>
      simp only [List.cons_append, Gate.fits, weight_cons, weight_append, Bool.and_eq_true, Bool.or_eq_true, decide_eq_true_eq, owes,
        guards, Nat.add_zero, or_self] at first ⊢
      exact ⟨by omega, ih first.2⟩

theorem meets_append (meets : G.meets job front = true) (plain : ∀ j ∈ back, G.plain j) : G.meets job (front ++ back) = true := by
  obtain ⟨owes, takes, _⟩ := weight_plain plain
  simp only [Gate.meets, Bool.and_eq_true, decide_eq_true_eq, weight_append, owes, takes, Nat.add_zero] at meets ⊢
  exact ⟨meets.1, fits_append meets.2 plain⟩

end Gate

def laneMapGate : Gate where
  lock := .laneMap
  owes
    | .release lock => if lock = .laneMap then 1 else 0
    | .dataLane job => if (job matches .start _ | .stop _ | .publish ..) then 1 else 0
    | _ => 0
  guards
    | .dataLane job => if (job matches .retire _) then 1 else 0
    | _ => 0

def queueGate : Gate where
  lock := .deviceQueue
  owes
    | .release lock => if lock = .deviceQueue then 1 else 0
    | .deviceLane job => if (job matches .enqueue _) then 1 else 0
    | _ => 0
  guards
    | .deviceLane job => if (job matches .push _) then 1 else 0
    | _ => 0

def lifecycleGate : Gate where
  lock := .lifecycle
  owes
    | .release lock => if lock = .lifecycle then 1 else 0
    | .registry job => if (job matches .reserve _ _ .hub) then 1 else 0
    | .hub job => if (job matches .add _ | .claimNew .. | .run | .laneStarted | .claimAll) then 1 else 0
    | _ => 0
  guards
    | .deviceLane job => if (job matches .start | .spawn) then 1 else 0
    | _ => 0
  admits := Op.managed

def enrolGate : Gate where
  lock := .lifecycle
  owes := lifecycleGate.owes
  guards
    | .registry job => if (job matches .reserve .. | .enrol ..) then 1 else 0
    | _ => 0
  admits := Op.managed

def runGate : Gate where
  lock := .lifecycle
  owes := lifecycleGate.owes
  guards
    | .hub job => if (job matches .laneStarted) then 1 else 0
    | _ => 0
  admits := Op.managed

def laneHeldGate : Gate where
  lock := .laneMap
  owes := laneMapGate.owes
  guards
    | .release lock => if lock = .laneMap then 1 else 0
    | _ => 0

def workerGate : Gate where
  lock := .deviceWorker
  owes
    | .release lock => if lock = .deviceWorker then 1 else 0
    | .deviceLane job => if (job matches .start | .spawn) then 1 else 0
    | _ => 0
  guards
    | .deviceLane job => if (job matches .spawn) then 1 else 0
    | _ => 0

def registryGate : Gate where
  lock := .registry
  owes
    | .release lock => if lock = .registry then 1 else 0
    | .registry job => if (job matches .reserve .. | .withdraw .. | .replace ..) then 1 else 0
    | _ => 0
  guards
    | .registry job => if (job matches .enrol .. | .store ..) then 1 else 0
    | _ => 0

def publishGate : Gate where
  lock := .publish
  owes
    | .release lock => if lock = .publish then 1 else 0
    | .registry job => if (job matches .withdraw _ .hub | .replace _ _ .hub) then 1 else 0
    | _ => 0
  guards
    | .hub job => if (job matches .publishList | .publishAggregate) then 1 else 0
    | .deviceLane job => if (job matches .enqueue (.listUpdated _) | .push (.listUpdated _)) then 1 else 0
    | _ => 0
  admits := Op.managed

def gates : List Gate :=
  [laneMapGate, queueGate, lifecycleGate, enrolGate, runGate, laneHeldGate, workerGate, registryGate, publishGate]

def Job.meets (job : Job) (next : List Job) : Bool := gates.all fun G => !G.lets job || G.meets job next

def Job.plain (job : Job) : Prop :=
  gates.map (fun G => (G.owes job, G.takes job, G.guards job)) = gates.map fun _ => (0, 0, 0)

theorem Job.plain_at {G : Gate} (member : G ∈ gates) (plain : job.plain) : G.plain job := by
  have here := List.map_inj_left.mp plain G member
  simp only [Prod.mk.injEq] at here
  exact here

theorem Job.meets_at {G : Gate} {next : List Job} (member : G ∈ gates) (meets : job.meets next = true)
    (lets : G.lets job = true) : G.meets job next = true := by
  have here := List.all_eq_true.mp meets G member
  simpa [lets] using here

def Job.gated : Job → Bool
  | .perform _ => true
  | .registry job => (job matches .reserve .. | .withdraw .. | .replace ..)
  | .deviceLane job => (job matches .enqueue _ | .start | .spawn)
  | .dataLane job => (job matches .start _ | .spawn _ | .publish .. | .stop _)
  | .hub job => (job matches .add _ | .claimNew .. | .run | .laneStarted | .claimAll | .raiseTermination | .connect ..
      | .publishList | .publishAggregate | .connectionStarted .. | .disconnected .. | .stopAdapters)
  | _ => false

theorem gated_source {j : Job} (leads : job.leads j = true) (here : ¬ j.plain) : job.gated = true := by
  cases j with
  | acquire lock | release lock =>
      cases lock <;> first
        | exact absurd rfl here
        | (dsimp only [Job.leads] at leads; split at leads <;> first | rfl | cases leads)
  | registry j | deviceLane j | dataLane j | hub j =>
      cases j <;> first
        | exact absurd rfl here
        | (dsimp only [Job.leads] at leads; split at leads <;> first | rfl | cases leads)
  | _ => exact absurd rfl here

theorem meets_perform (m : Machine) (op : Op) : (Job.perform op).meets (m.perform op).2 = true := by
  cases op with
  | report source r =>
      simp only [Machine.perform, Machine.performOwned]
      split
      · cases r <;> rfl
      · rfl
  | contextReport name r =>
      simp only [Machine.perform, ParticipantJob.reportThrough]
      split
      · split
        · cases r <;> rfl
        · rfl
      · rfl
  | registry op | deviceLane op | dataLanes op =>
      cases op <;> simp only [Machine.perform, Machine.performOwned, RegistryOp.exec, DeviceLaneOp.exec, DataLanesOp.exec] <;>
        split <;> rfl
  | context name query =>
      simp only [Machine.perform]
      split
      · cases query <;> rfl
      · rfl
  | setType | release =>
      simp only [Machine.perform]
      repeat' split
      all_goals rfl
  | _ =>
      simp only [Machine.perform, Machine.performOwned, ContextQuery.exec]
      split <;> rfl

theorem Job.meets_append {front back : List Job} (meets : job.meets front = true) (plain : ∀ j ∈ back, j.plain) :
    job.meets (front ++ back) = true := by
  refine List.all_eq_true.mpr fun G member => ?_
  cases lets : G.lets job with
  | false => rfl
  | true => exact Gate.meets_append (Job.meets_at member meets lets) fun j here => Job.plain_at member (plain j here)

theorem Job.meets_concat {front back : List Job} (quiet : job.plain) (first : job.meets front = true)
    (second : job.meets back = true) :
    job.meets (front ++ back) = true := by
  refine List.all_eq_true.mpr fun G member => ?_
  obtain ⟨owes, _, guards⟩ := Job.plain_at member quiet
  cases lets : G.lets job with
  | false => rfl
  | true => exact Gate.meets_concat owes guards (Job.meets_at member first lets) (Job.meets_at member second lets)

theorem meets_withdraws (ids : List AdapterId) :
    (Job.hub .stopAdapters).meets (ids.flatMap (Plan.withdraw · .shutdown)) = true := by
  induction ids with
  | nil => rfl
  | cons id rest ih => exact Job.meets_concat rfl rfl ih

theorem plain_runAdapter (id : AdapterId) (adapter : AdapterKey) : ∀ j ∈ Plan.runAdapter id adapter, j.plain := by
  simp only [Plan.runAdapter, List.forall_mem_cons]
  exact ⟨rfl, rfl,
    rfl, rfl, fun _ none => by cases none⟩

theorem plain_answer (reply : Reply) : ∀ j ∈ [Job.answer reply], j.plain :=
  List.forall_mem_singleton.mpr rfl

theorem meets_hub (m : Machine) (t : ThreadId) (job : HubJob) (gated : (Job.hub job).gated = true) :
    (Job.hub job).meets (job.exec m t).2 = true := by
  cases job with
  | claimNew id adapter =>
      simp only [HubJob.exec]
      refine Job.meets_append (Job.meets_append rfl ?_) (plain_answer _)
      cases (if m.hub.running then m.hub.registry.beginStart id else (none, m.hub.registry)).1 with
      | none => exact fun _ none => by cases none
      | some key => exact plain_runAdapter id key
  | claimAll =>
      simp only [HubJob.exec]
      refine Job.meets_append (Job.meets_append rfl ?_) (plain_answer _)
      intro j member
      obtain ⟨claim, _, member⟩ := List.mem_flatMap.mp member
      exact plain_runAdapter _ _ j member
  | stopAdapters =>
      simp only [HubJob.exec, HubJob.shutDownAll, List.append_assoc]
      refine Job.meets_concat rfl (meets_withdraws _) ?_
      split <;> rfl
  | add | run | laneStarted | raiseTermination | connect | publishList | publishAggregate | connectionStarted | disconnected =>
      simp only [HubJob.exec]
      repeat' split
      all_goals rfl
  | _ => cases gated

theorem plain_stopWithdrawn (id : AdapterId) (w : Registry.Withdrawal) : ∀ j ∈ Plan.stopWithdrawn id w, j.plain := by
  unfold Plan.stopWithdrawn
  split
  · exact fun _ none => by cases none
  · exact List.forall_mem_singleton.mpr rfl

theorem meets_registry (m : Machine) (job : RegistryJob) (gated : (Job.registry job).gated = true) :
    (Job.registry job).meets (job.exec m).2 = true := by
  cases job with
  | reserve deviceType adapter errand => cases errand <;> rfl
  | withdraw id errand =>
      simp only [RegistryJob.exec]
      split
      · rename_i w registry left
        cases errand with
        | alone => rfl
        | shutdown => exact Job.meets_append (rfl : Job.meets _ [_, _] = true) (plain_stopWithdrawn id w)
        | hub =>
            simp only [RegistryJob.afterWithdrawal, ← List.append_assoc]
            refine Job.meets_append (Job.meets_append ?_ (plain_stopWithdrawn id w)) (plain_answer _)
            split <;> rfl
      · cases errand <;> rfl
  | replace id devices errand =>
      simp only [RegistryJob.exec]
      split <;> cases errand <;> rfl
  | _ => cases gated

theorem meets_exec (m : Machine) (t : ThreadId) (job : Job) (gated : job.gated = true) : job.meets (job.exec m t).2 = true := by
  cases job with
  | perform op => exact meets_perform m op
  | hub job => exact meets_hub m t job gated
  | registry job => exact meets_registry m job gated
  | deviceLane job =>
      cases job with
      | enqueue callback =>
          simp only [Job.exec, DeviceLaneJob.exec]
          split <;> cases callback <;> rfl
      | start | spawn =>
          simp only [Job.exec, DeviceLaneJob.exec]
          split <;> rfl
      | _ => cases gated
  | dataLane job =>
      cases job with
      | start | spawn | publish =>
          simp only [Job.exec, DataLaneJob.exec]
          repeat' split
          all_goals rfl
      | stop c =>
          simp only [Job.exec, DataLaneJob.exec, DataLanes.withdraw]
          cases m.hub.dataLanes.slots.get? c <;> rfl
      | _ => cases gated
  | _ => cases gated

theorem plain_trails (trails : job.trails = true) : job.plain := by
  cases job with
  | deviceLane job | dataLane job | participant job =>
      cases job <;> first
        | (cases trails; done)
        | exact rfl
  | log => exact rfl
  | _ => cases trails

theorem plain_fresh {agenda : List Job} (fresh : Fresh config u agenda) : ∀ job ∈ agenda, job.plain :=
  fresh.all (fun _ => rfl) rfl (fun _ => rfl) (fun _ _ => rfl) rfl fun _ => rfl

theorem meets_all (m : Machine) (t : ThreadId) (job : Job) : job.meets (job.exec m t).2 = true := by
  cases gated : job.gated with
  | true => exact meets_exec m t job gated
  | false =>
      have plain : ∀ j ∈ (job.exec m t).2, j.plain := fun j member => Classical.byContradiction fun here => by
        rw [gated_source (leads_exec m t job j member) here] at gated
        cases gated
      have none : job.meets [] = true := List.all_eq_true.mpr fun G _ => by
        cases G.lets job <;> simp [Gate.meets, Gate.fits]
      exact Job.meets_append none plain

theorem sound_of {G : Gate} (member : G ∈ gates) (acquire : ∀ lock, G.owes (.acquire lock) = 0)
    (release : ∀ lock, G.owes (.release lock) = if lock = G.lock then 1 else 0)
    (admits : ∀ op, op.managed = true → G.admits op = true) : G.Sound where
  acquire := acquire
  release := release
  fresh _ _ _ fresh job here := Job.plain_at member (plain_fresh fresh job here)
  trails job trails := Job.plain_at member (plain_trails trails)
  admits := admits
  count m t job lets := by
    have met := Job.meets_at member (meets_all m t job) lets
    simp only [Gate.meets, Bool.and_eq_true, decide_eq_true_eq] at met
    exact met.1
  next m t job lets := by
    have met := Job.meets_at member (meets_all m t job) lets
    simp only [Gate.meets, Bool.and_eq_true] at met
    exact met.2

theorem laneMapGate_sound : laneMapGate.Sound := sound_of (by simp [gates]) (fun _ => rfl) (fun _ => rfl) fun _ _ => rfl

theorem queueGate_sound : queueGate.Sound := sound_of (by simp [gates]) (fun _ => rfl) (fun _ => rfl) fun _ _ => rfl

theorem lifecycleGate_sound : lifecycleGate.Sound := sound_of (by simp [gates]) (fun _ => rfl) (fun _ => rfl) fun _ => id

theorem enrolGate_sound : enrolGate.Sound := sound_of (by simp [gates]) (fun _ => rfl) (fun _ => rfl) fun _ => id

theorem runGate_sound : runGate.Sound := sound_of (by simp [gates]) (fun _ => rfl) (fun _ => rfl) fun _ => id

theorem laneHeldGate_sound : laneHeldGate.Sound := sound_of (by simp [gates]) (fun _ => rfl) (fun _ => rfl) fun _ _ => rfl

theorem workerGate_sound : workerGate.Sound := sound_of (by simp [gates]) (fun _ => rfl) (fun _ => rfl) fun _ _ => rfl

theorem registryGate_sound : registryGate.Sound := sound_of (by simp [gates]) (fun _ => rfl) (fun _ => rfl) fun _ _ => rfl

theorem publishGate_sound : publishGate.Sound := sound_of (by simp [gates]) (fun _ => rfl) (fun _ => rfl) fun _ => id

end TransportHub
