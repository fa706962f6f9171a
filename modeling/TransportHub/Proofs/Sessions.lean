import TransportHub.Proofs.Unchanged
/-!
Sessions. What is carried out follows one schedule: the caller goes first, and waits for the workers around every
operation of a script or hook. Each operation that the caller got through leaves a machine that a run has reached, so
what holds of every run holds of every session; what a session shows of an operation is what the steps since noted; and
unless its patience ran out it has stopped where nobody can go on.
-/

set_option autoImplicit false

namespace TransportHub

variable {config : Config} {hooks : List Hook} {past : List Moment} {m : Machine} {t : ThreadId}
  {job : Job} {later : List Job}

/-! ### The schedule -/

theorem canStep_iff : m.canStep t = true ↔ ∃ next, m.step? t = some next := by
  unfold Machine.canStep Machine.step?
  cases m.agenda t with
  | nil => simp
  | cons job later => cases job <;> simp

theorem stuck_iff : m.canStep t = false ↔ m.step? t = none := by
  rw [← Bool.not_eq_true, canStep_iff, Option.eq_none_iff_forall_ne_some]
  exact not_exists

theorem canStep_agenda (able : m.canStep t = true) : ∃ job later, m.agenda t = job :: later := by
  cases agenda : m.agenda t with
  | nil => simp [Machine.canStep, agenda] at able
  | cons job later => exact ⟨job, later, rfl⟩

theorem nextWorker?_some (next : m.nextWorker? = some t) : m.canStep t = true := by
  have found := List.find?_some next
  simp only [decide_eq_true_eq] at found
  exact found.2

theorem nextWorker?_none (none : m.nextWorker? = none) (apart : t ≠ .caller) : m.canStep t = false := by
  cases able : m.canStep t with
  | false => rfl
  | true =>
      obtain ⟨job, later, agenda⟩ := canStep_agenda able
      have known := known_lt (agenda_known agenda (List.cons_ne_nil _ _))
      rw [Machine.agendas, Machine.each, List.length_map] at known
      have passed := List.find?_eq_none.mp none t (List.mem_map.mpr ⟨t.val, List.mem_range.mpr known, rfl⟩)
      simp [apart, able] at passed

theorem next?_some (next : m.next? = some t) : m.canStep t = true := by
  unfold Machine.next? at next
  split at next
  · rename_i able
    split at next
    · rw [Option.orElse_eq_orElse, Option.orElse_eq_or, Option.or_eq_some_iff] at next
      rcases next with worker | ⟨_, caller⟩
      · exact nextWorker?_some worker
      · exact Option.some.inj caller ▸ able
    · exact Option.some.inj next ▸ able
  · exact nextWorker?_some next

theorem next?_none (idle : m.next? = none) (t : ThreadId) : m.step? t = none := by
  unfold Machine.next? at idle
  split at idle
  · split at idle <;> simp at idle
  · rename_i stuck
    rw [← stuck_iff]
    by_cases caller : t = .caller
    · exact caller ▸ Bool.eq_false_iff.mpr stuck
    · exact nextWorker?_none idle caller

theorem Run.settle (run : Run config hooks past m) (fuel : Nat) :
    ∃ more, Run config hooks (past ++ more) (m.settle fuel) ∧ (more.length < fuel → ∀ t, (m.settle fuel).step? t = none) := by
  induction fuel generalizing past m with
  | zero => exact ⟨[], by rwa [List.append_nil], fun none => absurd none (Nat.not_lt_zero _)⟩
  | succ fuel ih =>
      unfold Machine.settle
      cases next : m.next? with
      | none => exact ⟨[], by rwa [List.append_nil], fun _ => next?_none next⟩
      | some t =>
          obtain ⟨m', went⟩ := canStep_iff.mp (next?_some next)
          obtain ⟨job, later, agenda⟩ := canStep_agenda (next?_some next)
          obtain ⟨more, reached, rests⟩ := ih (run.step agenda went)
          rw [Option.bind_some, went]
          refine ⟨⟨m, t, job, later⟩ :: more, ?_, fun short => rests (Nat.lt_of_succ_lt_succ short)⟩
          rwa [List.append_assoc] at reached

/-! ### What is noted -/

theorem trace_unwind : (m.unwind t later).trace = m.trace := by
  unfold Machine.unwind
  repeat' split
  all_goals rfl

theorem Run.transcribed (run : Run config hooks past m) : m.trace = (past.filterMap Moment.notes).reverse := by
  refine Run.induct (G := fun _ => True) (P := fun past m => m.trace = (past.filterMap Moment.notes).reverse)
    rfl rfl (fun _ _ before _ => before) (fun _ _ _ before => before) ?carry ?unwind run fun _ _ => trivial
  case carry =>
    intro past m t job later _ before _ _ _ _
    have noted : (m.carry t job later).trace = (Moment.notes ⟨m, t, job, later⟩).toList ++ m.trace :=
      (books_exec m t job later).trace
    rw [noted, before, List.filterMap_append, List.reverse_append, List.filterMap_cons]
    cases Moment.notes ⟨m, t, job, later⟩ <;> rfl
  case unwind =>
    intro past m t later _ before _ _
    rw [trace_unwind, before, List.filterMap_append]
    exact congrArg List.reverse (List.append_nil _).symm

/-! ### Outcomes -/

structure Outcome.Tells (config : Config) (hooks : List Hook) (o : Outcome) (past since : List Moment) : Prop where
  run : Run config hooks (past ++ since) o.machine
  happened : o.happened = since.filterMap Moment.notes
  settled : since.length < Machine.patience → ∀ t, o.machine.step? t = none
  finished : o.finished = true → o.machine.agenda .caller = []

theorem Run.carryOut {jobs : List Job} (run : Run config hooks past (m.beginWith jobs)) :
    ∃ since, (m.carryOut jobs).Tells config hooks past since := by
  obtain ⟨since, reached, rests⟩ := run.settle Machine.patience
  refine ⟨since, reached, ?_, rests, fun finished => ?_⟩
  · have before : m.trace = (past.filterMap Moment.notes).reverse := run.transcribed
    have after := reached.transcribed
    rw [List.filterMap_append, List.reverse_append, ← before] at after
    simp only [Machine.carryOut, after, List.length_append, Nat.add_sub_cancel, List.take_left, List.reverse_reverse]
  · simp only [Machine.carryOut, Machine.agenda] at finished ⊢
    cases caller : (((m.beginWith jobs).settle Machine.patience).thread? .caller) with
    | none => rfl
    | some thread =>
        rw [caller] at finished
        exact List.isEmpty_iff.mp finished

theorem Run.performAll {ops : List Op} {front back : List Outcome} {o : Outcome} (run : Run config hooks past m)
    (idle : m.agenda .caller = []) (outcomes : m.performAll ops = front ++ o :: back)
    (through : ∀ earlier ∈ front, earlier.finished = true) :
    ∃ more since, o.Tells config hooks (past ++ more) since := by
  induction ops generalizing past m front with
  | nil => exact absurd outcomes.symm (List.append_ne_nil_of_right_ne_nil _ (List.cons_ne_nil _ _))
  | cons op rest ih =>
      obtain ⟨since, tells⟩ := (run.call op idle).carryOut
      rw [Machine.performAll] at outcomes
      cases front with
      | nil =>
          obtain ⟨rfl, _⟩ := List.cons.inj outcomes
          exact ⟨[], since, by rwa [List.append_nil]⟩
      | cons first front =>
          rw [List.cons_append] at outcomes
          obtain ⟨rfl, following⟩ := List.cons.inj outcomes
          obtain ⟨more, since', tells'⟩ := ih tells.run (tells.finished (through _ (List.mem_cons_self ..))) following
            fun earlier member => through earlier (List.mem_cons_of_mem _ member)
          exact ⟨since ++ more, since', by rwa [List.append_assoc] at tells'⟩

-- A session begins with a hub, or with its parts by themselves. It is a run, up to the first operation that the caller does
-- not get through.
theorem session_told {ops : List Op} {front back : List Outcome} {o built : Outcome}
    (begins : built = (Machine.initial config hooks).construct ∨ built = (Machine.initial config hooks).assemble)
    (outcomes : built :: built.machine.performAll ops = front ++ o :: back) (through : ∀ earlier ∈ front, earlier.finished = true) :
    ∃ past since, o.Tells config hooks past since := by
  have opened : ∃ since, built.Tells config hooks [] since := by
    rcases begins with rfl | rfl
    · exact Run.construct.carryOut
    · exact Run.assemble.carryOut
  obtain ⟨since, tells⟩ := opened
  cases front with
  | nil =>
      obtain ⟨rfl, _⟩ := List.cons.inj outcomes
      exact ⟨[], since, tells⟩
  | cons first front =>
      rw [List.cons_append] at outcomes
      obtain ⟨rfl, following⟩ := List.cons.inj outcomes
      obtain ⟨more, since', tells'⟩ := tells.run.performAll (tells.finished (through _ (List.mem_cons_self ..))) following
        fun earlier member => through earlier (List.mem_cons_of_mem _ member)
      exact ⟨_, since', tells'⟩

end TransportHub
