import TransportHub.Proofs.Draining
import TransportHub.Proofs.Waiting
import TransportHub.Proofs.Wakeups
/-!
Workers that have nothing to deliver. The worker of a lane that has accepted nothing only looks at it, and once the
lane is stopped it takes a few more turns and ends.
-/

set_option autoImplicit false

namespace TransportHub

open DataLanes (Slot)

variable {config : Config} {hooks : List Hook} {past before since : List Moment} {m : Machine} {t : ThreadId}
  {job : Job} {x : Moment} {slot : Slot} {id : LaneId}

def Job.idles (id : LaneId) (job : Job) : Prop := (∃ record, job = .log record) ∨ job = .dataLane (.look id)

def Job.patience : Job → Nat
  | .log _ => 1
  | .dataLane (.look _) => 2
  | _ => 0

theorem idles_next {lane : DataLane} (apart : t ≠ .caller) (idles : job.idles id) (known : m.hub.dataLanes.lane? id = some lane)
    (empty : lane.items = []) : (∀ j ∈ (job.exec m t).2, j.idles id) ∧ weight Job.patience (job.exec m t).2 ≤ job.patience ∧
      (lane.stopping = true → weight Job.patience (job.exec m t).2 < job.patience) := by
  rcases idles with ⟨record, rfl⟩ | rfl
  · simp [Job.exec, Machine.log, apart, Job.patience]
  · simp only [Job.exec, DataLaneJob.exec, known, DataLaneJob.lookAtLane]
    rcases DataLane.look_cases m.hub.terminating lane with
      ⟨_, open_, seen⟩ | ⟨_, _, seen⟩ | ⟨_, _, open_, seen⟩ | ⟨full, _, _⟩
    · simp [seen, empty, open_, Job.idles, Job.patience, Job.logDataLane]
    · simp [seen, Job.idles, Job.patience, Job.logDataLane]
    · simp [seen, open_, Job.idles, Job.patience]
    · exact absurd empty full

theorem Run.vacant {lane : DataLane} (run : Run config hooks past m) (unaccepted : acceptedOn id past = [])
    (known : m.hub.dataLanes.lane? id = some lane) : lane.items = [] := by
  have book := run.booked id
  rw [Booked, known] at book
  have balance := book.balance
  rw [unaccepted] at balance
  exact (List.append_eq_nil_iff.mp balance.symm).2

theorem Run.idling (run : Run config hooks past m) : ∀ slot ∈ roster past, acceptedOn slot.lane past = [] →
    (∀ x ∈ past, x.thread = slot.worker → x.job.idles slot.lane) ∧ (∀ j ∈ m.agenda slot.worker, j.idles slot.lane) ∧
      weight Job.patience (m.agenda slot.worker) ≤ 3 := by
  refine Run.induct_slots (P := fun past _ agenda slot => acceptedOn slot.lane past = [] →
      (∀ x ∈ past, x.thread = slot.worker → x.job.idles slot.lane) ∧ (∀ j ∈ agenda, j.idles slot.lane) ∧
        weight Job.patience agenda ≤ 3)
    ?opened ?turn ?aside ?unwind ?apart run
  case opened =>
    intro past m t job later slot c run opens apart _
    obtain ⟨_, _, _, rfl⟩ := opens_started opens
    refine ⟨List.forall_mem_append.mpr ⟨fun x seen same => ?_, List.forall_mem_singleton.mpr fun same => absurd same.symm apart⟩,
      List.forall_mem_cons.mpr ⟨.inl ⟨_, rfl⟩, List.forall_mem_singleton.mpr (.inr rfl)⟩, Nat.le_refl _⟩
    have known := run.threads_known x seen
    rw [same] at known
    exact absurd known (Nat.lt_irrefl _)
  case turn =>
    intro past m job later slot run old _ _ before unaccepted
    rw [acceptedOn_snoc, List.append_eq_nil_iff] at unaccepted
    obtain ⟨done, left, few⟩ := before unaccepted.1
    rw [weight_cons] at few
    have here := left job (List.mem_cons_self ..)
    obtain ⟨lane, known⟩ := lane_known (run.rostered.known slot old).1
    obtain ⟨next, fewer, _⟩ := idles_next (run.rostered.apart old) here known (run.vacant unaccepted.1 known)
    refine ⟨List.forall_mem_append.mpr ⟨done, List.forall_mem_singleton.mpr fun _ => here⟩, List.forall_mem_append.mpr ⟨next, ?_⟩, ?_⟩
    · exact fun j behind => left j (List.mem_cons_of_mem _ behind)
    · rw [weight_append]
      omega
  case aside =>
    intro past m t job later slot _ _ _ _ other before unaccepted
    rw [acceptedOn_snoc, List.append_eq_nil_iff] at unaccepted
    obtain ⟨done, rest⟩ := before unaccepted.1
    exact ⟨List.forall_mem_append.mpr ⟨done, List.forall_mem_singleton.mpr fun same => absurd same other⟩, rest⟩
  case unwind =>
    intro past m later slot _ _ _ before unaccepted
    rw [acceptedOn_snoc, List.append_eq_nil_iff] at unaccepted
    rcases (before unaccepted.1).2.1 _ (List.mem_cons_self ..) with ⟨_, none⟩ | none <;> cases none
  case apart =>
    intro past m t later slot _ _ _ other before unaccepted
    rw [acceptedOn_snoc, List.append_eq_nil_iff] at unaccepted
    obtain ⟨done, rest⟩ := before unaccepted.1
    exact ⟨List.forall_mem_append.mpr ⟨done, List.forall_mem_singleton.mpr fun same => absurd same other⟩, rest⟩

-- Once its lane is stopped, such a worker goes on until it has ended, which takes it three turns at most.
theorem Run.let_go (run : Run config hooks past m) : ∀ before x since, past = before ++ x :: since → slot ∈ roster before →
    x.job = .dataLane (.requestStop slot.lane) → acceptedOn slot.lane before = [] →
      acceptedOn slot.lane past = [] ∧ since.countP (·.thread = slot.worker) + weight Job.patience (m.agenda slot.worker) ≤ 3 := by
  have unaccepted : ∀ {past : List Moment} {m : Machine}, Run config hooks past m → ∀ before x since, past = before ++ x :: since →
      slot ∈ roster before → x.job = .dataLane (.requestStop slot.lane) → acceptedOn slot.lane before = [] →
      acceptedOn slot.lane past = [] :=
    fun {past m} run before x since split member stops none => by
      have start : before ++ [x] <+: past := ⟨since, by rw [split, List.append_assoc]; rfl⟩
      obtain ⟨lane, known⟩ := lane_known ((run.before start).1.rostered.known slot member).1
      obtain ⟨_, _, detached⟩ := run.detached before x since split stops lane known
      rw [split, acceptedOn, List.flatMap_append, List.flatMap_cons, ← acceptedOn, none, stops,
        List.flatMap_eq_nil_iff.mpr detached.refused]
      rfl
  refine fun before x since split member stops none => ⟨unaccepted run before x since split member stops none, ?_⟩
  revert before x since
  refine Run.induct (G := fun _ => True) (P := fun past m => ∀ before x since, past = before ++ x :: since → slot ∈ roster before →
      x.job = .dataLane (.requestStop slot.lane) → acceptedOn slot.lane before = [] →
        since.countP (·.thread = slot.worker) + weight Job.patience (m.agenda slot.worker) ≤ 3)
    ?construct ?assemble ?call ?client ?carry ?unwind run fun _ _ => trivial
  case construct | assemble =>
    exact fun before _ _ split => absurd split.symm (List.append_ne_nil_of_right_ne_nil _ (List.cons_ne_nil _ _))
  case call =>
    intro past m op run held _ before x since split member stops none
    have now : slot ∈ roster past := by
      rw [split, roster, List.filterMap_append]
      exact List.mem_append_left _ member
    rw [agenda_beginWith_other (run.rostered.apart now)]
    exact held before x since split member stops none
  case client =>
    intro past m name op run held before x since split member stops none
    have now : slot ∈ roster past := by
      rw [split, roster, List.filterMap_append]
      exact List.mem_append_left _ member
    rw [agenda_client_old (run.rostered.known slot now).2.2]
    exact held before x since split member stops none
  case carry =>
    intro past m t job later run held agenda notPanic enabled _ before x since split member stops none
    rcases split_snoc split with ⟨rfl, rfl, rfl⟩ | ⟨front, rfl, old⟩
    · have after := run.step agenda (step_carry agenda notPanic enabled)
      have bound := (after.idling slot (mem_roster_snoc.mpr (.inl member)) (unaccepted after _ _ _ split member stops none)).2.2
      simpa using bound
    · have now : slot ∈ roster past := by
        rw [old, roster, List.filterMap_append]
        exact List.mem_append_left _ member
      have before := held before x front old member stops none
      rw [List.countP_append, List.countP_singleton]
      by_cases mine : t = slot.worker
      · subst mine
        obtain ⟨lane, known⟩ := lane_known (run.rostered.known slot now).1
        have none := unaccepted run _ _ _ old member stops none
        have idles := (run.idling slot now none).2.1
        have stopping : lane.stopping = true := by
          have book := run.booked slot.lane
          rw [Booked, known] at book
          exact book.stopped.mpr ⟨x, old ▸ List.mem_append_right _ (List.mem_cons_self ..), stops⟩
        rw [agenda] at idles before
        have fewer := (idles_next (run.rostered.apart now) (idles job (List.mem_cons_self ..)) known
          (run.vacant none known)).2.2 stopping
        rw [weight_cons] at before
        rw [agenda_carry_self agenda, weight_append, if_pos (by simp)]
        omega
      · rw [agenda_carry_old (fun same => mine same.symm) (run.rostered.known slot now).2.2, if_neg (by simpa using mine)]
        exact before
  case unwind =>
    intro past m t later run held agenda _ before x since split member stops none
    rcases split_snoc split with ⟨_, rfl, _⟩ | ⟨front, rfl, old⟩
    · cases stops
    · have now : slot ∈ roster past := by
        rw [old, roster, List.filterMap_append]
        exact List.mem_append_left _ member
      have idles := (run.idling slot now (unaccepted run _ _ _ old member stops none)).2.1
      have apart : slot.worker ≠ t := fun same => by
        rw [same, agenda] at idles
        rcases idles _ (List.mem_cons_self ..) with ⟨_, none⟩ | none <;> cases none
      rw [agenda_unwind_other apart, List.countP_append, List.countP_singleton, if_neg (by simpa using fun same => apart same.symm)]
      exact held before x front old member stops none

-- What such a worker has done and can do.
structure Unneeded (slot : Slot) (past : List Moment) (m : Machine) : Prop where
  handed : handedBy slot.worker past = []
  heard : heardFrom slot.worker past = []
  goes : m.exited slot.worker = true ∨ (m.step? slot.worker).isSome = true

theorem Run.unneeded (run : Run config hooks past m) (member : slot ∈ roster past) (unaccepted : acceptedOn slot.lane past = [])
    (stopped : wasStopped slot.lane past) : Unneeded slot past m := by
  obtain ⟨done, left, _⟩ := run.idling slot member unaccepted
  have silent : ∀ {α : Type} {f : Job → List α}, (∀ record, f (.log record) = []) → (∀ id, f (.dataLane (.look id)) = []) →
      past.flatMap (fun x => if x.thread = slot.worker then f x.job else []) = [] := fun {α f} log look =>
    List.flatMap_eq_nil_iff.mpr fun x seen => by
      split
      · rename_i mine
        rcases done x seen mine with ⟨record, same⟩ | same <;> rw [same]
        · exact log record
        · exact look _
      · rfl
  refine ⟨silent (fun _ => rfl) fun _ => rfl, silent (fun _ => rfl) fun _ => rfl, ?_⟩
  cases agenda : m.agenda slot.worker with
  | nil => exact .inl (exited_iff.mpr agenda)
  | cons job rest =>
      rw [agenda] at left
      have go : job ≠ .panic → job.enabled m slot.worker = true → (m.step? slot.worker).isSome = true := fun notPanic enabled => by
        rw [step_carry agenda notPanic enabled]
        rfl
      refine .inr ?_
      rcases left job (List.mem_cons_self ..) with ⟨record, rfl⟩ | rfl
      · exact go (fun none => by cases none) rfl
      · obtain ⟨lane, known⟩ := lane_known (run.rostered.known slot member).1
        have book := run.booked slot.lane
        rw [Booked, known] at book
        obtain ⟨_, path⟩ := run.lane_reached known
        have awake : lane.parked = false := Bool.eq_false_iff.mpr fun parked => by
          have going := ((DataLane.rested path).asleep parked).2
          rw [book.stopped.mpr stopped] at going
          cases going
        exact go (fun none => by cases none) (by simp [Job.enabled, Job.needs, known, awake])

end TransportHub
