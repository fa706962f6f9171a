import TransportHub.Session
/-!
Runs. A run is any order in which threads take steps: the caller, further clients, and the workers.
Its history lists every step together with the machine it was taken on.
-/

set_option autoImplicit false

namespace TransportHub

structure Moment where
  machine : Machine
  thread : ThreadId
  job : Job
  later : List Job

-- Operations on a hub as a whole; the others reach into its parts.
def Op.managed : Op → Bool
  | .register _ | .registry _ | .deviceLane _ | .dataLanes _ | .terminate => false
  | _ => true

def Moment.managed (x : Moment) : Prop := ∀ op, x.job = .perform op → op.managed = true

instance (x : Moment) : Decidable x.managed :=
  decidable_of_iff ((match x.job with | .perform op => op.managed | _ => true) = true) <| by
    unfold Moment.managed
    cases x.job <;> simp

-- A client is a thread of the application that performs one operation; operations that one
-- application thread performs in turn are clients that come one after the other.
inductive Run (config : Config) (hooks : List Hook) : List Moment → Machine → Prop where
  | construct {system : System} : Run config hooks []
      ((Machine.initial config hooks system).beginWith (Machine.construction config))
  | assemble {system : System} : Run config hooks [] ((Machine.initial config hooks system).beginWith Machine.assembly)
  | call {past : List Moment} {m : Machine} (op : Op) (run : Run config hooks past m)
      (idle : m.agenda .caller = []) : Run config hooks past (m.beginWith [.perform op])
  | client {past : List Moment} {m : Machine} (name : String) (op : Op)
      (run : Run config hooks past m) : Run config hooks past (m.spawn name [.perform op]).2
  | step {past : List Moment} {m m' : Machine} {t : ThreadId} {job : Job} {later : List Job}
      (run : Run config hooks past m) (agenda : m.agenda t = job :: later)
      (went : m.step? t = some m') : Run config hooks (past ++ [⟨m, t, job, later⟩]) m'

variable {config : Config} {hooks : List Hook} {past : List Moment} {m m' : Machine}
  {t u : ThreadId} {job : Job} {later : List Job}

theorem step_cases (agenda : m.agenda t = job :: later) (went : m.step? t = some m') :
    (job = .panic ∧ m' = m.unwind t later) ∨
      (job ≠ .panic ∧ job.enabled m t = true ∧ m' = m.carry t job later) := by
  unfold Machine.step? at went
  rw [agenda] at went
  split at went
  · contradiction
  · rename_i same
    cases same
    exact .inl ⟨rfl, (Option.some.inj went).symm⟩
  · rename_i other same
    cases same
    have notPanic : job ≠ .panic := fun isPanic => other (by rw [isPanic])
    split at went
    · rename_i enabled
      exact .inr ⟨notPanic, enabled, (Option.some.inj went).symm⟩
    · contradiction

theorem step_panic (agenda : m.agenda t = .panic :: later) : m.step? t = some (m.unwind t later) := by
  unfold Machine.step?
  rw [agenda]

theorem step_carry (agenda : m.agenda t = job :: later) (notPanic : job ≠ .panic) (enabled : job.enabled m t = true) :
    m.step? t = some (m.carry t job later) := by
  unfold Machine.step?
  rw [agenda]
  split
  · contradiction
  · rename_i same
    cases same
    exact absurd rfl notPanic
  · rename_i same
    cases same
    rw [if_pos enabled]

-- Induction over a run whose steps all satisfy some condition, with the two kinds of steps apart.
theorem Run.induct {G : Moment → Prop} {P : List Moment → Machine → Prop}
    (construct : ∀ {system}, P [] ((Machine.initial config hooks system).beginWith (Machine.construction config)))
    (assemble : ∀ {system}, P [] ((Machine.initial config hooks system).beginWith Machine.assembly))
    (call : ∀ {past m} op, Run config hooks past m → P past m → m.agenda .caller = [] →
      P past (m.beginWith [.perform op]))
    (client : ∀ {past m} name op, Run config hooks past m → P past m →
      P past (m.spawn name [.perform op]).2)
    (carry : ∀ {past m t job later}, Run config hooks past m → P past m →
      m.agenda t = job :: later → job ≠ .panic → job.enabled m t = true →
      G ⟨m, t, job, later⟩ → P (past ++ [⟨m, t, job, later⟩]) (m.carry t job later))
    (unwind : ∀ {past m t later}, Run config hooks past m → P past m →
      m.agenda t = .panic :: later → G ⟨m, t, .panic, later⟩ →
      P (past ++ [⟨m, t, .panic, later⟩]) (m.unwind t later))
    (run : Run config hooks past m) (all : ∀ x ∈ past, G x) : P past m := by
  induction run with
  | construct => exact construct
  | assemble => exact assemble
  | call op run idle ih => exact call op run (ih all) idle
  | client name op run ih => exact client name op run (ih all)
  | step run agenda went ih =>
      have before := ih fun x member => all x (List.mem_append_left _ member)
      have here := all _ (List.mem_append_right _ (List.mem_singleton.mpr rfl))
      rcases step_cases agenda went with ⟨rfl, rfl⟩ | ⟨notPanic, enabled, rfl⟩
      · exact unwind run before agenda here
      · exact carry run before agenda notPanic enabled here

theorem Run.induct_all {G : Moment → Prop} {P : List Moment → Machine → Prop}
    (construct : ∀ {system}, P [] ((Machine.initial config hooks system).beginWith (Machine.construction config)))
    (assemble : ∀ {system}, P [] ((Machine.initial config hooks system).beginWith Machine.assembly))
    (call : ∀ {past m} op, Run config hooks past m → P past m → m.agenda .caller = [] → P past (m.beginWith [.perform op]))
    (client : ∀ {past m} name op, Run config hooks past m → P past m → P past (m.spawn name [.perform op]).2)
    (carry : ∀ {past m t job later}, Run config hooks past m → P past m → m.agenda t = job :: later → job ≠ .panic →
      job.enabled m t = true → (∀ x ∈ past, G x) → G ⟨m, t, job, later⟩ → P (past ++ [⟨m, t, job, later⟩]) (m.carry t job later))
    (unwind : ∀ {past m t later}, Run config hooks past m → P past m → m.agenda t = .panic :: later →
      (∀ x ∈ past, G x) → G ⟨m, t, .panic, later⟩ → P (past ++ [⟨m, t, .panic, later⟩]) (m.unwind t later))
    (run : Run config hooks past m) (all : ∀ x ∈ past, G x) : P past m := by
  have more : ∀ {past : List Moment} {x : Moment}, (∀ y ∈ past, G y) → G x → ∀ y ∈ past ++ [x], G y :=
    fun old now => List.forall_mem_append.mpr ⟨old, List.forall_mem_singleton.mpr now⟩
  refine (Run.induct (G := G) (P := fun past m => (∀ x ∈ past, G x) ∧
    P past m) ?construct ?assemble ?call ?client ?carry ?unwind run all).2
  case construct => exact ⟨fun _ none => (by cases none), construct⟩
  case assemble => exact ⟨fun _ none => (by cases none), assemble⟩
  case call => exact fun op run before idle => ⟨before.1, call op run before.2 idle⟩
  case client => exact fun name op run before => ⟨before.1, client name op run before.2⟩
  case carry =>
    exact fun run before agenda notPanic enabled here =>
      ⟨more before.1 here, carry run before.2 agenda notPanic enabled before.1 here⟩
  case unwind => exact fun run before agenda here => ⟨more before.1 here, unwind run before.2 agenda before.1 here⟩

theorem Run.before (run : Run config hooks past m) {earlier : List Moment} {x : Moment} (start : earlier ++ [x] <+: past) :
    Run config hooks earlier x.machine ∧ x.machine.agenda x.thread = x.job :: x.later := by
  induction run with
  | construct | assemble => exact absurd (List.prefix_nil.mp start) (List.append_ne_nil_of_right_ne_nil _ (List.cons_ne_nil _ _))
  | call op run idle ih => exact ih start
  | client name op run ih => exact ih start
  | step run agenda went ih =>
      rcases List.prefix_concat_iff.mp start with whole | start
      · obtain ⟨rfl, same⟩ := List.append_inj' whole rfl
        cases same
        exact ⟨run, agenda⟩
      · exact ih start

theorem Run.reached (run : Run config hooks past m) {x : Moment} (member : x ∈ past) :
    ∃ earlier, earlier ++ [x] <+: past ∧ Run config hooks earlier x.machine ∧
      x.machine.agenda x.thread = x.job :: x.later := by
  obtain ⟨earlier, rest, rfl⟩ := List.append_of_mem member
  have start : earlier ++ [x] <+: earlier ++ x :: rest := ⟨rest, List.append_cons .. |>.symm⟩
  exact ⟨earlier, start, run.before start⟩

theorem split_snoc {earlier rest : List Moment} {x now : Moment} (split : past ++ [now] = earlier ++ x :: rest) :
    (past = earlier ∧ now = x ∧ rest = []) ∨ ∃ front, rest = front ++ [now] ∧ past = earlier ++ x :: front := by
  rcases List.eq_nil_or_concat rest with rfl | ⟨front, last, rfl⟩
  · obtain ⟨same, now⟩ := List.append_inj' split rfl
    exact .inl ⟨same, List.singleton_inj.mp now, rfl⟩
  · rw [List.concat_eq_append, ← List.cons_append, ← List.append_assoc] at split
    obtain ⟨same, now⟩ := List.append_inj' split rfl
    exact .inr ⟨front, by rw [List.concat_eq_append, List.singleton_inj.mp now], same⟩

-- Induction over what a run does after one of its steps.
theorem Run.induct_since {G : Moment → Prop} {P : List Moment → Machine → Prop} {before since : List Moment} {x : Moment}
    (begins : P [] (x.machine.carry x.thread x.job x.later))
    (call : ∀ {since m} op, Run config hooks (before ++ x :: since) m → P since m → m.agenda .caller = [] →
      P since (m.beginWith [.perform op]))
    (client : ∀ {since m} name op, Run config hooks (before ++ x :: since) m → P since m → P since (m.spawn name [.perform op]).2)
    (carry : ∀ {since m t job later}, Run config hooks (before ++ x :: since) m → P since m → m.agenda t = job :: later →
      job ≠ .panic → job.enabled m t = true → G ⟨m, t, job, later⟩ → P (since ++ [⟨m, t, job, later⟩]) (m.carry t job later))
    (unwind : ∀ {since m t later}, Run config hooks (before ++ x :: since) m → P since m → m.agenda t = .panic :: later →
      G ⟨m, t, .panic, later⟩ → P (since ++ [⟨m, t, .panic, later⟩]) (m.unwind t later))
    (run : Run config hooks past m) (split : past = before ++ x :: since) (notPanic : x.job ≠ .panic) (all : ∀ y ∈ since, G y) :
    P since m := by
  refine Run.induct (G := fun _ => True) (P := fun past m => ∀ since, past = before ++ x :: since → (∀ y ∈ since, G y) → P since m)
    ?construct ?assemble ?call ?client ?carry ?unwind run (fun _ _ => trivial) since split all
  case construct | assemble =>
    exact fun since split => absurd split.symm (List.append_ne_nil_of_right_ne_nil _ (List.cons_ne_nil _ _))
  case call => exact fun op run held idle since split all => call op (split ▸ run) (held since split all) idle
  case client => exact fun name op run held since split all => client name op (split ▸ run) (held since split all)
  case carry =>
    intro past m t job later run held agenda panics enabled _ since split all
    rcases split_snoc split with ⟨_, rfl, rfl⟩ | ⟨front, rfl, rfl⟩
    · exact begins
    · have earlier := held front rfl fun y member => all y (List.mem_append_left _ member)
      exact carry run earlier agenda panics enabled (all _ (List.mem_append_right _ (List.mem_singleton.mpr rfl)))
  case unwind =>
    intro past m t later run held agenda _ since split all
    rcases split_snoc split with ⟨_, rfl, rfl⟩ | ⟨front, rfl, rfl⟩
    · exact absurd rfl notPanic
    · have earlier := held front rfl fun y member => all y (List.mem_append_left _ member)
      exact unwind run earlier agenda (all _ (List.mem_append_right _ (List.mem_singleton.mpr rfl)))

theorem seen_snoc {P : Moment → Prop} {now : Moment} : (∃ x ∈ past ++ [now], P x) ↔ (∃ x ∈ past, P x) ∨ P now := by
  simp [or_and_right, exists_or]

theorem seen_before {P : Moment → Prop} {later : List Moment} (seen : ∃ x ∈ past, P x) : ∃ x ∈ past ++ later, P x := by
  obtain ⟨x, old, here⟩ := seen
  exact ⟨x, List.mem_append_left _ old, here⟩

-- The steps that threads take in a given order, as far as they can take them.
def Machine.play : List ThreadId → Machine → List Moment × Machine
  | [], m => ([], m)
  | t :: rest, m =>
      match m.agenda t, m.step? t with
      | job :: later, some next =>
          let played := Machine.play rest next
          (⟨m, t, job, later⟩ :: played.1, played.2)
      | _, _ => ([], m)

theorem play_cons {next : Machine} (agenda : m.agenda t = job :: later) (went : m.step? t = some next) (rest : List ThreadId) :
    m.play (t :: rest) = (⟨m, t, job, later⟩ :: (next.play rest).1, (next.play rest).2) := by
  simp only [Machine.play, agenda, went]

theorem play_induct {P : List Moment → Machine → Prop} {schedule : List ThreadId} (start : P past m)
    (turn : ∀ {past m t job later next}, t ∈ schedule → P past m → m.agenda t = job :: later → m.step? t = some next →
      P (past ++ [⟨m, t, job, later⟩]) next) : P (past ++ (m.play schedule).1) (m.play schedule).2 := by
  induction schedule generalizing past m with
  | nil => rwa [Machine.play, List.append_nil]
  | cons t rest ih =>
      unfold Machine.play
      split
      · rename_i job later next agenda went
        have first := turn (List.mem_cons_self ..) start agenda went
        have onward := ih first fun member => turn (List.mem_cons_of_mem _ member)
        rwa [List.append_assoc] at onward
      · rwa [List.append_nil]

theorem Run.play (run : Run config hooks past m) (schedule : List ThreadId) :
    Run config hooks (past ++ (m.play schedule).1) (m.play schedule).2 :=
  play_induct run fun _ run agenda went => run.step agenda went

def quietConfig : Config := { threadPrefix := "hub", stackSize := none, joinWorkers := true }

def hastyConfig : Config := { quietConfig with joinWorkers := false }

-- A session that has just begun.
def opened (config : Config) (hooks : List Hook) (system : System) : List Moment × Machine :=
  ((Machine.initial config hooks system).beginWith (Machine.construction config)).play (List.replicate 9 .caller)

theorem opened_run (config : Config) (hooks : List Hook) (system : System) :
    Run config hooks (opened config hooks system).1 (opened config hooks system).2 := Run.construct.play (List.replicate 9 .caller)

-- A session in which only the caller takes steps, each operation as far as the caller alone gets.
def solo (config : Config) (hooks : List Hook) : List Op → List Moment × Machine
  | [] => opened config hooks (.usual config)
  | op :: before =>
      let done := solo config hooks before
      if (done.2.agenda .caller).isEmpty then
        let played := (done.2.beginWith [.perform op]).play (List.replicate 99 .caller)
        (done.1 ++ played.1, played.2)
      else done

theorem solo_run (config : Config) (hooks : List Hook) (latestFirst : List Op) :
    Run config hooks (solo config hooks latestFirst).1 (solo config hooks latestFirst).2 := by
  induction latestFirst with
  | nil => exact opened_run config hooks _
  | cons op before ih =>
      simp only [solo]
      split
      · rename_i idle
        exact (ih.call op (List.isEmpty_iff.mp idle)).play _
      · exact ih

-- What an idle caller's next operation adds to a session, with the turns that the threads take.
def act (op : Op) (schedule : List ThreadId) (done : List Moment × Machine) : List Moment × Machine :=
  if (done.2.agenda .caller).isEmpty then
    let played := (done.2.beginWith [.perform op]).play schedule
    (done.1 ++ played.1, played.2)
  else done

theorem act_run {done : List Moment × Machine} (run : Run config hooks done.1 done.2) (op : Op) (schedule : List ThreadId) :
    Run config hooks (act op schedule done).1 (act op schedule done).2 := by
  unfold act
  split
  · rename_i idle
    exact (run.call op (List.isEmpty_iff.mp idle)).play schedule
  · exact run

-- A session that a further thread of the application joins, to perform one operation.
def joined (name : String) (op : Op) (done : List Moment × Machine) : List Moment × Machine :=
  (done.1, (done.2.spawn name [.perform op]).2)

theorem joined_run {done : List Moment × Machine} (run : Run config hooks done.1 done.2) (name : String) (op : Op) :
    Run config hooks (joined name op done).1 (joined name op done).2 := run.client name op

def rounds (turns : List (Nat × Nat)) : List ThreadId := turns.flatMap fun turn => List.replicate turn.1 ⟨turn.2⟩

-- Operations, the latest first, each with the turns that the threads take.
def acts (calls : List (Op × List (Nat × Nat))) (done : List Moment × Machine) : List Moment × Machine :=
  calls.foldr (fun call => act call.1 (rounds call.2)) done

theorem acts_run {done : List Moment × Machine} (run : Run config hooks done.1 done.2) (calls : List (Op × List (Nat × Nat))) :
    Run config hooks (acts calls done).1 (acts calls done).2 := by
  induction calls with
  | nil => exact run
  | cons call before ih => exact act_run ih call.1 (rounds call.2)

end TransportHub
