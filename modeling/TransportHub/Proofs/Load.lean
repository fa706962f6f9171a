import Mathlib.Algebra.Ring.Nat
import TransportHub.Proofs.Flow
/-!
Loads: how much of one kind of work all threads together still have to do. A step moves work from
the agendas into the history, and brings in what its job leaves next.
-/

set_option autoImplicit false

namespace TransportHub

def weight (f : Job → Nat) (agenda : List Job) : Nat := (agenda.map f).sum

def Machine.load (f : Job → Nat) (m : Machine) : Nat := (m.agendas.map (weight f)).sum

variable {f : Job → Nat} {config : Config} {hooks : List Hook} {system : System} {past : List Moment} {m m' : Machine}
  {t u : ThreadId} {job : Job} {later : List Job}

@[simp] theorem weight_nil : weight f [] = 0 := rfl

@[simp] theorem weight_cons (job : Job) (rest : List Job) :
    weight f (job :: rest) = f job + weight f rest := by
  simp [weight]

@[simp] theorem weight_append (front back : List Job) :
    weight f (front ++ back) = weight f front + weight f back := by
  simp [weight]

theorem sum_zero {α : Type} {g : α → Nat} {l : List α} (none : ∀ a ∈ l, g a = 0) : (l.map g).sum = 0 := by
  induction l with
  | nil => rfl
  | cons a rest ih =>
      rw [List.map_cons, List.sum_cons, none a (List.mem_cons_self ..),
        ih fun b member => none b (List.mem_cons_of_mem _ member)]

theorem weight_zero {agenda : List Job} (none : ∀ job ∈ agenda, f job = 0) : weight f agenda = 0 :=
  sum_zero none

theorem weight_mem {agenda : List Job} (member : job ∈ agenda) : f job ≤ weight f agenda := by
  obtain ⟨front, back, rfl⟩ := List.append_of_mem member
  simp only [weight_append, weight_cons]
  omega

theorem weight_pos {agenda : List Job} (positive : 0 < weight f agenda) : ∃ job ∈ agenda, 0 < f job := by
  induction agenda with
  | nil => cases positive
  | cons job rest ih =>
      rw [weight_cons] at positive
      by_cases here : 0 < f job
      · exact ⟨job, List.mem_cons_self .., here⟩
      · obtain ⟨j, member, found⟩ := ih (by omega)
        exact ⟨j, List.mem_cons_of_mem _ member, found⟩

theorem weight_next_zero (m : Machine) (t : ThreadId) (job : Job)
    (apart : ∀ j, job.leads j = true → f j = 0) : weight f (job.exec m t).2 = 0 :=
  weight_zero fun j member => apart j (leads_exec m t job j member)

theorem weight_next_apart {S : Job → Prop} (only : ∀ {job j}, job.leads j = true → f j ≠ 0 → S job)
    (m : Machine) (t : ThreadId) (job : Job) (apart : ¬ S job) : weight f (job.exec m t).2 = 0 := by
  refine weight_next_zero m t job fun j leads => ?_
  by_cases here : f j = 0
  · exact here
  · exact absurd (only leads here) apart

theorem sum_set {α : Type} (g : α → Nat) {l : List α} {i : Nat} {old : α} (known : l[i]? = some old) (new : α) :
    ((l.set i new).map g).sum + g old = (l.map g).sum + g new := by
  induction l generalizing i with
  | nil => cases known
  | cons first rest ih =>
      cases i with
      | zero =>
          cases known
          simp only [List.set_cons_zero, List.map_cons, List.sum_cons]
          omega
      | succ i =>
          have tail := ih (i := i) known
          simp only [List.set_cons_succ, List.map_cons, List.sum_cons]
          omega

theorem each_weightless {back : List Job} {agenda : List Job} (front : weight f agenda = 0)
    (rest : weight f back = 0) : Each (fun _ rest => weight f (rest ++ back) = 0) agenda := by
  induction agenda with
  | nil => trivial
  | cons job tail ih =>
      rw [weight_cons] at front
      have none : weight f tail = 0 := by omega
      refine ⟨?_, ih none⟩
      simp only [weight_append, none, rest]

theorem load_mem (t : ThreadId) : weight f (m.agenda t) ≤ m.load f := by
  rw [agenda_eq]
  cases found : m.agendas[t.val]? with
  | none => exact Nat.zero_le _
  | some agenda =>
      have split := sum_set (weight f) found []
      simp only [weight_nil, Option.getD_some, Machine.load] at split ⊢
      omega

theorem load_two (apart : t ≠ u) : weight f (m.agenda t) + weight f (m.agenda u) ≤ m.load f := by
  by_cases idle : m.agenda t = []
  · rw [idle]
    have bound := load_mem (f := f) (m := m) u
    simpa only [weight_nil, Nat.zero_add] using bound
  · have known : m.agendas[t.val]? = some (m.agenda t) := agenda_known rfl idle
    have split := sum_set (weight f) known []
    have other : weight f (m.agenda u) ≤ ((m.agendas.set t.val []).map (weight f)).sum := by
      rw [agenda_eq]
      cases found : m.agendas[u.val]? with
      | none => exact Nat.zero_le _
      | some agenda =>
          have there : (m.agendas.set t.val [])[u.val]? = some agenda := by
            rw [List.getElem?_set_ne fun same => apart (by cases t; cases u; cases same; rfl), found]
          have rest := sum_set (weight f) there []
          simp only [weight_nil, Option.getD_some] at rest ⊢
          omega
    simp only [weight_nil, Machine.load] at split ⊢
    omega

theorem load_zero (none : ∀ t, ∀ job ∈ m.agenda t, f job = 0) : m.load f = 0 := by
  have all : ∀ agenda ∈ m.agendas, weight f agenda = 0 := by
    intro agenda member
    obtain ⟨i, found⟩ := List.getElem?_of_mem member
    have same : m.agenda ⟨i⟩ = agenda := by rw [agenda_eq, found]; rfl
    exact weight_zero fun job here => none ⟨i⟩ job (same ▸ here)
  exact sum_zero all

theorem weight_le {g : Job → Nat} (below : ∀ job, f job ≤ g job) (agenda : List Job) : weight f agenda ≤ weight g agenda := by
  induction agenda with
  | nil => exact Nat.le_refl 0
  | cons job rest ih =>
      have here := below job
      simp only [weight_cons]
      omega

theorem load_single (once : ∀ u, weight f (m.agenda u) ≤ 1)
    (apart : ∀ t u, t ≠ u → 0 < weight f (m.agenda t) → weight f (m.agenda u) = 0) : m.load f ≤ 1 := by
  by_cases busy : ∃ t, 0 < weight f (m.agenda t)
  · obtain ⟨t, here⟩ := busy
    have known : m.agendas[t.val]? = some (m.agenda t) := agenda_known rfl fun idle => by simp [idle] at here
    have split := sum_set (weight f) known []
    have others : ((m.agendas.set t.val []).map (weight f)).sum = 0 := sum_zero fun agenda member => by
      obtain ⟨i, found⟩ := List.getElem?_of_mem member
      by_cases same : t.val = i
      · rw [← same, List.getElem?_set_self (known_lt known)] at found
        cases found
        rfl
      · rw [List.getElem?_set_ne same] at found
        have other : m.agenda ⟨i⟩ = agenda := by rw [agenda_eq, found]; rfl
        exact other ▸ apart t ⟨i⟩ (fun equal => same (congrArg ThreadId.val equal)) here
    have bound := once t
    simp only [others, weight_nil, Machine.load] at split ⊢
    omega
  · refine Nat.le_trans (Nat.le_of_eq (load_zero fun t job member => ?_)) (Nat.zero_le 1)
    have here := weight_mem (f := f) member
    have idle : ¬ 0 < weight f (m.agenda t) := fun some => busy ⟨t, some⟩
    omega

theorem load_carry (agenda : m.agenda t = job :: later) : (m.carry t job later).load f + f job =
    m.load f + weight f (job.exec m t).2 + ((job.recruits m).map (weight f)).sum := by
  have known := agenda_known agenda (List.cons_ne_nil _ _)
  have wide : (m.agendas ++ job.recruits m)[t.val]? = some (job :: later) := by
    rw [List.getElem?_append_left (known_lt known), known]
  have split := sum_set (weight f) wide ((job.exec m t).2 ++ later)
  rw [Machine.load, agendas_carry]
  simp only [weight_cons, weight_append, List.map_append, List.sum_append_nat] at split
  simp only [Machine.load]
  omega

theorem load_unwind (agenda : m.agenda t = .panic :: later) :
    (m.unwind t later).load f + (f .panic + weight f later) = m.load f + weight f (kept later) := by
  have split := sum_set (weight f) (agenda_known agenda (List.cons_ne_nil _ _)) (kept later)
  rw [Machine.load, agendas_unwind]
  simpa only [weight_cons, Machine.load] using split

-- Work that no thread begins with, and that a caught panic leaves as it is.
structure Inner (f : Job → Nat) : Prop where
  fresh : ∀ config u agenda, Fresh config u agenda → weight f agenda = 0
  panic : f .panic = 0
  caught : ∀ d, weight f (ParticipantJob.afterPanic d) = f (.participant (.delivered d))

namespace Inner

theorem recruits (inner : Inner f) (m : Machine) (job : Job) :
    ((job.recruits m).map (weight f)).sum = 0 :=
  sum_zero fun agenda member =>
    inner.fresh m.hub.config ⟨1⟩ agenda (fresh_recruits (by decide) member)

theorem carry (inner : Inner f) (agenda : m.agenda t = job :: later) :
    (m.carry t job later).load f + f job = m.load f + weight f (job.exec m t).2 := by
  have law := load_carry (f := f) agenda
  rwa [inner.recruits, Nat.add_zero] at law

theorem kept_cut (inner : Inner f) (later : List Job) :
    weight f (kept later) + weight f (cut later) = weight f later := by
  rcases unwound later with ⟨d, rest, split, left⟩ | ⟨split, left⟩
  · have whole := congrArg (weight f) split
    rw [left]
    simp only [weight_append, weight_cons, inner.caught] at whole ⊢
    omega
  · rw [left, ← split, weight_nil, Nat.zero_add]

theorem unwind (inner : Inner f) (agenda : m.agenda t = .panic :: later) :
    (m.unwind t later).load f + weight f (cut later) = m.load f := by
  have law := load_unwind (f := f) agenda
  have split := inner.kept_cut later
  rw [inner.panic] at law
  omega

theorem beginWith (inner : Inner f) (idle : m.agenda .caller = []) (op : Op) :
    (m.beginWith [.perform op]).load f = m.load f := by
  have nothing := inner.fresh m.hub.config .caller _ (.operation .caller op)
  unfold Machine.load
  rw [agendas_beginWith]
  cases known : m.agendas[ThreadId.caller.val]? with
  | none => rw [List.set_eq_of_length_le (List.getElem?_eq_none_iff.mp known)]
  | some agenda =>
      have empty : agenda = [] := by
        rw [agenda_eq, known] at idle
        exact idle
      have split := sum_set (weight f) known [.perform op]
      rw [empty, nothing, weight_nil] at split
      exact split

theorem client (inner : Inner f) (m : Machine) (name : String) (op : Op) :
    (m.spawn name [.perform op]).2.load f = m.load f := by
  have nothing := inner.fresh m.hub.config .caller _ (.operation .caller op)
  simp only [Machine.load, agendas_spawn, List.map_append, List.sum_append_nat, List.map_cons,
    List.map_nil, List.sum_cons, List.sum_nil, nothing, Nat.add_zero]

theorem start (inner : Inner f) (config : Config) (hooks : List Hook) (system : System) {jobs : List Job}
    (fresh : Fresh config .caller jobs) :
    ((Machine.initial config hooks system).beginWith jobs).load f = 0 := by
  apply load_zero
  intro t job member
  have nothing := inner.fresh config .caller jobs fresh
  rcases initial_agenda config hooks t jobs with ⟨_, same⟩ | same
  · rw [same] at member
    have bound := weight_mem (f := f) member
    omega
  · rw [same] at member
    cases member

end Inner

def total (g : Moment → Nat) (past : List Moment) : Nat := (past.map g).sum

@[simp] theorem total_nil (g : Moment → Nat) : total g [] = 0 := rfl

@[simp] theorem total_append (g : Moment → Nat) (first second : List Moment) :
    total g (first ++ second) = total g first + total g second := by
  simp [total]

@[simp] theorem total_single (g : Moment → Nat) (x : Moment) : total g [x] = g x := by
  simp [total]

theorem total_add (g h : Moment → Nat) (past : List Moment) :
    total (fun x => g x + h x) past = total g past + total h past := by
  induction past with
  | nil => rfl
  | cons x rest ih =>
      simp only [total, List.map_cons, List.sum_cons] at ih ⊢
      omega

theorem total_mem {g : Moment → Nat} {x : Moment} (seen : x ∈ past) : g x ≤ total g past := by
  obtain ⟨front, back, rfl⟩ := List.append_of_mem seen
  simp only [total, List.map_append, List.map_cons, List.sum_append_nat, List.sum_cons]
  omega

theorem total_zero {g : Moment → Nat} (none : ∀ x ∈ past, g x = 0) : total g past = 0 := sum_zero none

def lost (f : Job → Nat) (x : Moment) : Nat := weight f x.dropped

-- Work that is still to be done, and work that a panic has lost.
def due (f : Job → Nat) (past : List Moment) (m : Machine) : Nat := m.load f + total (lost f) past

theorem load_due : m.load f ≤ due f past m := Nat.le_add_right ..

theorem due_same {m' : Machine} (loads : m'.load f = m.load f) : due f past m' = due f past m := by rw [due, loads, due]

theorem Inner.due_carry (inner : Inner f) (past : List Moment) (agenda : m.agenda t = job :: later) (notPanic : job ≠ .panic) :
    due f (past ++ [⟨m, t, job, later⟩]) (m.carry t job later) + f job = due f past m + weight f (job.exec m t).2 := by
  have moved := inner.carry agenda
  have kept : lost f ⟨m, t, job, later⟩ = 0 := by rw [lost, dropped_carry notPanic, weight_nil]
  simp only [due, total_append, total_single, kept]
  omega

theorem Inner.due_unwind (inner : Inner f) (past : List Moment) (agenda : m.agenda t = .panic :: later) :
    due f (past ++ [⟨m, t, .panic, later⟩]) (m.unwind t later) = due f past m := by
  have moved := inner.unwind agenda
  have gone : lost f ⟨m, t, .panic, later⟩ = weight f (cut later) := rfl
  simp only [due, total_append, total_single, gone]
  omega

-- Two ledgers of a run, `a` with `q` and `b` with `r`, that differ by the work under way. A panic may
-- lose some of that work.
theorem Run.balance {G : Moment → Prop} {a b : Moment → Nat} {q r : Hub → Nat} (inner : Inner f)
    (start : q { config, owned := false } = r { config, owned := false })
    (detach : ∀ h : Hub, q { h with attached := false } = q h ∧ r { h with attached := false } = r h)
    (panic : ∀ m t later, a ⟨m, t, .panic, later⟩ = 0 ∧ b ⟨m, t, .panic, later⟩ = 0)
    (carry : ∀ {past m t job later}, Run config hooks past m → m.agenda t = job :: later →
      job ≠ .panic → job.enabled m t = true → G ⟨m, t, job, later⟩ →
      a ⟨m, t, job, later⟩ + q (job.exec m t).1.hub + r m.hub + f job =
        b ⟨m, t, job, later⟩ + r (job.exec m t).1.hub + q m.hub + weight f (job.exec m t).2)
    (run : Run config hooks past m) (all : ∀ x ∈ past, G x) :
    total a past + q m.hub = total b past + r m.hub + m.load f + total (lost f) past := by
  refine Run.induct (G := G)
    (P := fun past m => total a past + q m.hub = total b past + r m.hub + m.load f + total (lost f) past)
    ?construct ?assemble ?call ?client ?carry ?unwind run all
  case construct =>
    intro system
    have none := inner.start config hooks system .construction
    simp only [none, total_nil, Nat.zero_add, Nat.add_zero]
    exact start
  case assemble =>
    intro system
    have none := inner.start config hooks system .assembly
    simp only [none, total_nil, Nat.zero_add, Nat.add_zero]
    exact start
  case call =>
    intro past m op _ law idle
    rw [inner.beginWith idle]
    exact law
  case client =>
    intro past m name op _ law
    rw [inner.client]
    exact law
  case carry =>
    intro past m t job later run law agenda notPanic enabled here
    have moved := inner.carry agenda
    have step := carry run agenda notPanic enabled here
    have kept : lost f ⟨m, t, job, later⟩ = 0 := by rw [lost, dropped_carry notPanic, weight_nil]
    have same : (m.carry t job later).hub = (job.exec m t).1.hub := rfl
    rw [same]
    simp only [total_append, total_single, kept]
    omega
  case unwind =>
    intro past m t later _ law agenda _
    have moved := inner.unwind agenda
    have none := panic m t later
    have gone : lost f ⟨m, t, .panic, later⟩ = weight f (cut later) := rfl
    have same : q (m.unwind t later).hub = q m.hub ∧ r (m.unwind t later).hub = r m.hub := by
      rcases hub_unwind m t later with hub | hub
      · rw [hub]
        exact ⟨rfl, rfl⟩
      · rw [hub]
        exact detach m.hub
    simp only [total_append, total_single, gone, none.1, none.2, same.1, same.2]
    omega

theorem Run.ledger {a b : Moment → Nat} {q r : Hub → Nat} (inner : Inner f)
    (start : q { config, owned := false } = r { config, owned := false })
    (detach : ∀ h : Hub, q { h with attached := false } = q h ∧ r { h with attached := false } = r h)
    (panic : ∀ m t later, a ⟨m, t, .panic, later⟩ = 0 ∧ b ⟨m, t, .panic, later⟩ = 0)
    (carry : ∀ {past m t job later}, Run config hooks past m → m.agenda t = job :: later →
      job ≠ .panic → job.enabled m t = true →
      a ⟨m, t, job, later⟩ + q (job.exec m t).1.hub + r m.hub + f job =
        b ⟨m, t, job, later⟩ + r (job.exec m t).1.hub + q m.hub + weight f (job.exec m t).2)
    (run : Run config hooks past m) :
    total a past + q m.hub = total b past + r m.hub + m.load f + total (lost f) past :=
  run.balance (G := fun _ => True) inner start detach panic
    (fun run agenda notPanic enabled _ => carry run agenda notPanic enabled) fun _ _ => trivial

end TransportHub
