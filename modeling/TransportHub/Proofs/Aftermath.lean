import TransportHub.Proofs.Lifecycle
/-!
The aftermath of a panic: what it means for the registrations whose work it dropped, and that it means
nothing for the others.
-/

set_option autoImplicit false

namespace TransportHub

variable {id : AdapterId} {config : Config} {hooks : List Hook} {past : List Moment} {m : Machine}

-- A registration that no panic hurt is started and stopped as ever. One whose start was cut short was
-- started at most once before, and is never started or stopped again.
structure Aftermath (id : AdapterId) (past : List Moment) (m : Machine) : Prop where
  registered : Unhurt id past → m.quiet → m.hub.registry.contains id = true →
    total (fun x => x.job.stops id) past = 0 ∧
      (m.hub.isRunning = true → total (fun x => x.job.starts id) past = 1)
  unregistered : Unhurt id past → m.quiet → m.hub.registry.contains id = false →
    0 < total (fun x => x.job.assigns x.machine id) past → total (fun x => x.job.stops id) past = 1
  stranded : 0 < total (lost (Job.finishes id)) past →
    total (fun x => x.job.starts id) past + total (lost (Job.starts id)) past = 1 ∧
      total (fun x => x.job.stops id) past = 0 ∧ m.load (Job.starts id) = 0 ∧ m.load (Job.stops id) = 0 ∧
      ∀ e, m.hub.registry.find? id = some e → e.start = .starting

theorem Run.starts_reported (run : Run config hooks past m) (managed : ∀ x ∈ past, x.managed)
    (none : m.load (Job.finishes id) = 0) : m.load (Job.starts id) = 0 := by
  refine load_zero fun t job member => Classical.byContradiction fun here => ?_
  have busy : 0 < weight (Job.starts id) (m.agenda t) := Nat.lt_of_lt_of_le (Nat.pos_of_ne_zero here) (weight_mem member)
  have report := weight_followed (run.followed id managed t) (.inr busy)
  have finishes := load_mem (m := m) (f := Job.finishes id) t
  omega

theorem Run.stranded (run : Run config hooks past m) (managed : ∀ x ∈ past, x.managed) (counted : ∀ x ∈ past, x.counted)
    (cut : 0 < total (lost (Job.finishes id)) past) :
    total (fun x => x.job.starts id) past + total (lost (Job.starts id)) past = 1 ∧
      total (fun x => x.job.stops id) past = 0 ∧ m.load (Job.starts id) = 0 ∧ m.load (Job.stops id) = 0 ∧
      ∀ e, m.hub.registry.find? id = some e → e.start = .starting := by
  have course := run.course managed counted id
  have single := course.single
  obtain ⟨assigned, once, claimed, atLeast, atMost, promised⟩ := course
  simp only [due] at once claimed atLeast atMost
  have finishes : m.load (Job.finishes id) = 0 := by omega
  have starts := run.starts_reported managed finishes
  refine ⟨by omega, by omega, starts, by omega, fun e found => ?_⟩
  have head := Registry.find?_states m.hub.registry id
  rw [found] at head
  rcases single with empty | ⟨state, one⟩
  · rw [empty] at head
    cases head
  · rw [one] at head once
    have same : e.start = state := Option.some.inj head
    rw [same]
    cases state with
    | starting => rfl
    | idle | running =>
        simp at once
        omega

theorem adapter_aftermath (run : Run config hooks past m) (few : (issued past).length < UInt32.size)
    (managed : ∀ x ∈ past, x.managed) (id : AdapterId) : Aftermath id past m where
  registered unhurt := ((run.course managed (run.counted few) id).life unhurt).registered
  unregistered unhurt := ((run.course managed (run.counted few) id).life unhurt).unregistered
  stranded := run.stranded managed (run.counted few)

def faulty (name : String) (event : Event) : Op := .addAdapter (.fresh { name, script := [⟨event, none, [.panic]⟩] })

def faultyStart : List Op :=
  [.run, .addAdapter (.named "c"), faulty "b" .run, .addAdapter (.named "a")]

def faultyLife : List Moment × Machine :=
  solo quietConfig [] ([.removeAdapter ⟨3⟩, .removeAdapter ⟨2⟩, .removeAdapter ⟨1⟩] ++ faultyStart)

theorem aftermath_of_three : Aftermath ⟨1⟩ faultyLife.1 faultyLife.2 ∧ Unhurt ⟨1⟩ faultyLife.1 ∧
    total (fun x => x.job.starts ⟨1⟩) faultyLife.1 = 1 ∧ total (fun x => x.job.stops ⟨1⟩) faultyLife.1 = 1 ∧
    total (lost (Job.finishes ⟨3⟩)) faultyLife.1 = 1 :=
  ⟨adapter_aftermath (solo_run _ _ _) (by decide +kernel) (by decide +kernel) ⟨1⟩, by unfold Unhurt; decide +kernel,
    by decide +kernel⟩

def started : List Moment × Machine := solo quietConfig [] faultyStart

theorem start_cut_short : (Run quietConfig [] started.1 started.2 ∧ Run quietConfig [] faultyLife.1 faultyLife.2) ∧
    (∀ x ∈ faultyLife.1, x.managed ∧ x.hookSafe) ∧
    (∀ agenda ∈ started.2.agendas, ∀ job ∈ agenda, job.calls = false) ∧ started.2.hub.isRunning = true ∧
    started.2.hub.registry.contains ⟨3⟩ = true ∧ total (fun x => x.job.starts ⟨3⟩) started.1 = 0 ∧
    (∀ agenda ∈ faultyLife.2.agendas, ∀ job ∈ agenda, job.calls = false) ∧
    faultyLife.2.hub.registry.contains ⟨3⟩ = false ∧
    total (fun x => x.job.stops ⟨3⟩) faultyLife.1 = 0 := by
  refine ⟨⟨solo_run _ _ _, solo_run _ _ _⟩, ?_⟩
  decide +kernel

end TransportHub
