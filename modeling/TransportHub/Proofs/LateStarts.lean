import TransportHub.Proofs.Aftermath
import TransportHub.Proofs.RegistryHistory
import TransportHub.Proofs.Teardown
/-!
Late starts: what is still started after a registration has been taken out, or after the hub was halted.
Nobody claims such a start any more, but one that was claimed before goes ahead.
-/

set_option autoImplicit false

namespace TransportHub

variable {id : AdapterId} {config : Config} {hooks : List Hook} {past : List Moment} {m : Machine}
  {t u : ThreadId} {job : Job} {later : List Job} {x : Moment}

def Moment.removes (id : AdapterId) (x : Moment) : Prop :=
  (∃ errand, x.job = .registry (.withdraw id errand)) ∧ x.machine.hub.registry.contains id = true

-- After that, and after the hub was halted, a registration is gone for good.
def Moment.ousts (id : AdapterId) (x : Moment) : Prop := x.removes id ∨ x.job = .hub .halt

theorem enrols_entering (id : AdapterId) : Job.enrols id = entering id := by
  funext job
  cases job with
  | registry job => cases job <;> rfl
  | _ => rfl

theorem assigns_issues (id : AdapterId) (x : Moment) : x.job.assigns x.machine id = if x.issues = some id then 1 else 0 := by
  obtain ⟨m, t, job, later⟩ := x
  cases job with
  | registry job => cases job <;> simp [Job.assigns, Moment.issues]
  | _ => rfl

theorem Run.enrolled (run : Run config hooks past m) (id : AdapterId) :
    total (fun x => x.job.assigns x.machine id) past = total (fun x => x.job.enrols id) past + due (Job.enrols id) past m := by
  simp only [assigns_issues, enrols_entering]
  exact run.enters_issued id

theorem Run.entered_once (run : Run config hooks past m) (managed : ∀ x ∈ past, x.managed) (counted : ∀ x ∈ past, x.counted)
    (id : AdapterId) :
    total (fun x => x.job.enrols id) past ≤ 1 := by
  have enrolled := run.enrolled id
  have assigned := (run.course managed counted id).assigned
  omega

theorem ids_moves (m : Machine) (t : ThreadId) (job : Job) (member : id ∈ (job.exec m t).1.hub.registry.ids) :
    id ∈ m.hub.registry.ids ∨ job.enrols id = 1 := by
  rw [ids_exec m t job] at member
  cases job with
  | registry job =>
      cases job with
      | enrol => exact (List.mem_append.mp member).imp_right fun new => if_pos (List.mem_singleton.mp new).symm
      | withdraw => exact .inl (List.mem_of_mem_erase member)
      | _ => exact .inl member
  | _ => exact .inl member

theorem Run.never_back (run : Run config hooks past m) (managed : ∀ x ∈ past, x.managed) (counted : ∀ x ∈ past, x.counted)
    (id : AdapterId) :
    (id ∈ m.hub.registry.ids → 0 < total (fun x => x.job.enrols id) past) ∧
      ((∃ x ∈ past, x.removes id) → 0 < total (fun x => x.job.enrols id) past ∧ id ∉ m.hub.registry.ids) := by
  refine Run.induct_all (G := fun x => x.managed ∧ x.counted)
    (P := fun past m => (id ∈ m.hub.registry.ids → 0 < total (fun x => x.job.enrols id) past) ∧
      ((∃ x ∈ past, x.removes id) → 0 < total (fun x => x.job.enrols id) past ∧ id ∉ m.hub.registry.ids))
    ?construct ?assemble ?call ?client ?carry ?unwind run fun x member => ⟨managed x member, counted x member⟩
  case construct | assemble => exact ⟨fun none => (by cases none), by rintro ⟨_, ⟨⟩, _⟩⟩
  case call => exact fun _ _ before _ => before
  case client => exact fun _ _ _ before => before
  case carry =>
    rintro past m t job later run ⟨known, removed⟩ agenda notPanic enabled old now
    have all : ∀ x ∈ past ++ [⟨m, t, job, later⟩], x.managed ∧ x.counted :=
      List.forall_mem_append.mpr ⟨old, List.forall_mem_singleton.mpr now⟩
    have once := (run.step agenda (step_carry agenda notPanic enabled)).entered_once (fun x member => (all x member).1)
      (fun x member => (all x member).2) id
    have moves : id ∈ (m.carry t job later).hub.registry.ids → _ := ids_moves m t job
    simp only [total_append, total_single] at once ⊢
    refine ⟨fun member => ?_, fun removal => ?_⟩
    · rcases moves member with here | entered
      · have first := known here
        omega
      · omega
    · rcases seen_snoc.mp removal with removal | ⟨⟨errand, withdraws⟩, here⟩
      · obtain ⟨first, gone⟩ := removed removal
        refine ⟨by omega, fun member => ?_⟩
        rcases moves member with here | again
        · exact gone here
        · omega
      · have first := known ((Registry.contains_eq_true_iff ..).mp here)
        have withdraws : job = .registry (.withdraw id errand) := withdraws
        subst withdraws
        refine ⟨by omega, ?_⟩
        have single := (run.course (fun x member => (old x member).1) (fun x member => (old x member).2) id).single
        have gone : (m.carry t (.registry (.withdraw id errand)) later).hub.registry.states id = [] := by
          rw [hub_carry, Job.exec, registry_job, Job.revises, Registry.states_unregister, if_pos rfl]
          rcases single with empty | ⟨state, one⟩
          · rw [empty, List.tail_nil]
          · rw [one, List.tail_cons]
        rw [← Registry.contains_eq_true_iff, contains_states, gone]
        decide
  case unwind =>
    rintro past m t later run ⟨known, removed⟩ agenda _ _
    rw [registry_unwind]
    simp only [total_append, total_single]
    refine ⟨fun member => Nat.lt_of_lt_of_le (known member) (Nat.le_add_right ..), fun removal => ?_⟩
    have before := removed ((seen_snoc.mp removal).resolve_right (by rintro ⟨⟨_, ⟨⟩⟩, _⟩))
    exact ⟨Nat.lt_of_lt_of_le before.1 (Nat.le_add_right ..), before.2⟩

theorem Run.ousted (run : Run config hooks past m) (managed : ∀ x ∈ past, x.managed) (counted : ∀ x ∈ past, x.counted)
    (ousted : ∃ x ∈ past, x.ousts id) :
    m.hub.registry.states id = [] := by
  have gone : id ∉ m.hub.registry.ids := by
    obtain ⟨x, seen, removes | halts⟩ := ousted
    · exact ((run.never_back managed counted id).2 ⟨x, seen, removes⟩).2
    · rw [run.emptied managed ⟨x, seen, halts⟩]
      exact List.not_mem_nil
  rw [← Registry.contains_eq_true_iff, contains_states] at gone
  simpa using gone

theorem run_source {j : Job} (leads : job.leads j = true) (here : j.starts id ≠ 0) :
    (∃ i key, job = .hub (.claimNew i key)) ∨ job = .hub .claimAll := by
  cases j with
  | participant j =>
      cases j with
      | call i key call =>
          cases call with
          | run =>
              dsimp only [Job.leads] at leads
              split at leads
              · exact .inl ⟨_, _, rfl⟩
              · exact .inr rfl
              · cases leads
          | _ => exact absurd rfl here
      | _ => exact absurd rfl here
  | _ => exact absurd rfl here

theorem claims_registered (m : Machine) (t : ThreadId) (job : Job) (gone : m.hub.registry.states id = []) :
    weight (Job.starts id) (job.exec m t).2 = 0 := by
  by_cases source : (∃ i key, job = .hub (.claimNew i key)) ∨ job = .hub .claimAll
  · rcases source with ⟨i, key, rfl⟩ | rfl
    · have unclaimed : ¬ m.hub.claimsNew id i := by
        rintro ⟨_, _, idle⟩
        rw [gone] at idle
        cases idle
      have turn := turn_claimNew id m t i key
      rw [if_neg unclaimed] at turn
      rw [turn.starts, if_neg unclaimed]
    · rw [(turn_claimAll id m t).starts, gone]
      rfl
  · exact weight_next_apart run_source m t job source

theorem claims_ousting (ousts : x.ousts id) : weight (Job.starts id) (x.job.exec x.machine x.thread).2 = 0 := by
  refine weight_next_apart run_source _ _ _ fun source => ?_
  rcases ousts with ⟨⟨errand, job⟩, _⟩ | job <;> rw [job] at source <;> rcases source with ⟨_, _, none⟩ | none <;> cases none

theorem Run.late_claimed (run : Run config hooks past m) (managed : ∀ x ∈ past, x.managed) (counted : ∀ x ∈ past, x.counted)
    {earlier rest : List Moment} (split : past = earlier ++ x :: rest) (ousts : x.ousts id) :
    total (fun y => y.job.starts id) rest + m.load (Job.starts id) ≤ x.machine.load (Job.starts id) := by
  have inner := inner_busy (starts_part id)
  refine Run.induct_all (G := fun x => x.managed ∧ x.counted) (P := fun past m => ∀ rest, past = earlier ++ x :: rest →
      total (fun y => y.job.starts id) rest + m.load (Job.starts id) ≤ x.machine.load (Job.starts id))
    ?construct ?assemble ?call ?client ?carry ?unwind run (fun x member => ⟨managed x member, counted x member⟩) rest split
  case construct | assemble => exact fun rest none => absurd none.symm (List.append_ne_nil_of_right_ne_nil _ (List.cons_ne_nil _ _))
  case call =>
    intro past m op _ before idle rest split
    rw [inner.beginWith idle]
    exact before rest split
  case client =>
    intro past m name op _ before rest split
    rw [inner.client]
    exact before rest split
  case carry =>
    intro past m t job later run before agenda notPanic _ old _ rest split
    have moved := inner.carry agenda
    rcases split_snoc split with ⟨_, rfl, rfl⟩ | ⟨front, rfl, rfl⟩
    · have none : weight (Job.starts id) (job.exec m t).2 = 0 := claims_ousting ousts
      show 0 + (m.carry t job later).load (Job.starts id) ≤ m.load (Job.starts id)
      omega
    · have before := before front rfl
      have gone := run.ousted (fun x member => (old x member).1) (fun x member => (old x member).2)
        ⟨x, List.mem_append_right _ (List.mem_cons_self ..), ousts⟩
      rw [claims_registered m t job gone] at moved
      rw [total_append, total_single]
      dsimp only
      omega
  case unwind =>
    intro past m t later run before agenda _ _ rest split
    have moved := inner.unwind agenda
    have none : Job.panic.starts id = 0 := rfl
    rcases split_snoc split with ⟨_, rfl, rfl⟩ | ⟨front, rfl, rfl⟩
    · rcases ousts with ⟨⟨errand, none⟩, _⟩ | none <;> cases none
    · have before := before front rfl
      rw [total_append, total_single]
      dsimp only
      omega

theorem Run.settled (run : Run config hooks past m) (managed : ∀ x ∈ past, x.managed) (counted : ∀ x ∈ past, x.counted)
    {e : Registry.Entry} (found : m.hub.registry.find? id = some e) (settled : e.start ≠ .starting) : m.load (Job.starts id) = 0 := by
  have head := Registry.find?_states m.hub.registry id
  have course := run.course managed counted id
  have once := course.once
  rw [found] at head
  refine run.starts_reported managed ?_
  simp only [due] at once
  rcases course.single with empty | ⟨state, one⟩
  · rw [empty] at head
    cases head
  · rw [one] at head once
    have same : e.start = state := Option.some.inj head
    cases state with
    | starting => exact absurd same settled
    | idle | running =>
        simp at once
        omega

structure LateStarts (id : AdapterId) (past : List Moment) : Prop where
  claimed : ∀ earlier x rest, past = earlier ++ x :: rest → x.ousts id →
    total (fun y => y.job.starts id) rest ≤ x.machine.load (Job.starts id)
  settled : ∀ earlier x rest e, past = earlier ++ x :: rest → x.removes id → x.machine.hub.registry.find? id = some e →
    e.start ≠ .starting → total (fun y => y.job.starts id) rest = 0
  once : total (fun y => y.job.starts id) past ≤ 1

theorem late_starts (run : Run config hooks past m) (few : (issued past).length < UInt32.size) (managed : ∀ x ∈ past, x.managed)
    (id : AdapterId) : LateStarts id past where
  claimed earlier x rest split ousts := by
    have late := run.late_claimed managed (run.counted few) split ousts
    omega
  settled earlier x rest e split removes found settled := by
    have late := run.late_claimed managed (run.counted few) split (.inl removes)
    have start : earlier ++ [x] <+: past := ⟨rest, by rw [split, List.append_assoc]; rfl⟩
    have old : ∀ y ∈ earlier, y ∈ past := fun y seen => start.subset (List.mem_append_left _ seen)
    have none := (run.before start).1.settled (fun y seen => managed y (old y seen)) (fun y seen => run.counted few y (old y seen))
      found settled
    omega
  once := by
    have course := run.course managed (run.counted few) id
    have once := course.once
    have atMost := course.atMost
    omega

def meddling (op : Op) : List Op :=
  [.run, .addAdapter (.named "b"), .addAdapter (.fresh { name := "a", script := [⟨.run, none, [op]⟩] })]

-- The second adapter is taken out before the hub runs, the first one by the shutdown.
def timelySession : List Moment × Machine :=
  solo hastyConfig [] [.shutdown, .run, .removeAdapter ⟨2⟩, .addAdapter (.named "b"), .addAdapter (.named "a")]

theorem late_starts_of_two : (LateStarts ⟨1⟩ timelySession.1 ∧ LateStarts ⟨2⟩ timelySession.1) ∧
    total (fun x => x.job.starts ⟨1⟩) timelySession.1 = 1 ∧ total (fun x => x.job.starts ⟨2⟩) timelySession.1 = 0 ∧
    (timelySession.1.filter (withdraws ⟨2⟩ ·.job)).length = 1 ∧ (timelySession.1.filter (halts ·.job)).length = 1 := by
  have all : ∀ x ∈ timelySession.1, x.managed := by decide +kernel
  have few : (issued timelySession.1).length < UInt32.size := by decide +kernel
  exact ⟨⟨late_starts (solo_run _ _ _) few all ⟨1⟩, late_starts (solo_run _ _ _) few all ⟨2⟩⟩, by decide +kernel⟩

-- What happens from the return of an operation of a script on.
def returned (back : Op → Reply → Bool) (past : List Moment) : List Moment := past.dropWhile fun x =>
  match x.job with
  | .leave op => !back op (x.machine.reply x.thread)
  | _ => true

def removedMeanwhile : List Moment × Machine := solo quietConfig [] (meddling (.removeAdapter ⟨2⟩))

def shutDownMeanwhile : List Moment × Machine := solo hastyConfig [] (meddling .shutdown)

theorem started_after_removal : (Run quietConfig [] removedMeanwhile.1 removedMeanwhile.2 ∧
      Run hastyConfig [] shutDownMeanwhile.1 shutDownMeanwhile.2) ∧
    (∀ x ∈ removedMeanwhile.1 ++ shutDownMeanwhile.1, x.managed ∧ x.hookSafe ∧ x.adapterSafe) ∧
    total (fun x => x.job.starts ⟨2⟩)
      (returned (fun op reply => (op matches .removeAdapter ⟨2⟩) && (reply matches .done (.ok ()))) removedMeanwhile.1) = 1 ∧
    total (fun x => x.job.starts ⟨2⟩) (returned (fun op _ => op matches .shutdown) shutDownMeanwhile.1) = 1 := by
  refine ⟨⟨solo_run _ _ _, solo_run _ _ _⟩, ?_⟩
  decide +kernel

end TransportHub
