import TransportHub.Proofs.Load
import TransportHub.Proofs.Roster
/-!
Deliveries: the way of a data callback from the queue of its lane to the listeners. Each lane has a
book of what it accepted, what its worker took and what was thrown away, and each worker hands over in
order what it took.
-/

set_option autoImplicit false

namespace TransportHub

open DataLanes (Slot)

variable {config : Config} {hooks : List Hook} {past : List Moment} {m : Machine} {t u w : ThreadId}
  {job : Job} {later : List Job} {x : Moment} {slot : Slot} {id : LaneId} {c : ConnectionHandle}

def Job.fair : Job → Prop
  | .participant (.deliver d) => d.panics ≤ d.called ∧ d.called ≤ d.listeners.length
  | .participant (.delivered d) => d.panics < d.called ∧ d.called ≤ d.listeners.length
  | _ => True

theorem fair_source {j : Job} (leads : job.leads j = true) (here : ¬ j.fair) :
    job = .deviceLane .look ∨ (∃ c callback listeners, job = .dataLane (.handOver c callback listeners)) ∨
      (∃ d, job = .participant (.deliver d)) ∨ ∃ d, job = .participant (.delivered d) := by
  cases j with
  | participant j =>
      cases j with
      | delivered => exact .inr (.inr (.inl (delivered_origin leads)))
      | deliver =>
          rcases deliver_origin leads with looks | hands | called
          · exact .inl looks
          · exact .inr (.inl hands)
          · exact .inr (.inr (.inr called))
      | _ => exact absurd trivial here
  | _ => exact absurd trivial here

theorem fair_exec (m : Machine) (t : ThreadId) (job : Job) (fair : job.fair) :
    ∀ j ∈ (job.exec m t).2, j.fair := by
  have device : ∀ j ∈ (Job.exec m t (.deviceLane .look)).2, j.fair := by
    simp only [Job.exec, DeviceLaneJob.exec, DeviceLaneJob.lookAtQueue]
    rcases DeviceLane.look_cases m.hub.terminating m.hub.deviceLane with
      ⟨_, seen⟩ | ⟨_, _, seen⟩ | ⟨_, _, seen⟩ <;> rw [seen]
    · simp only [List.forall_mem_append]
      refine ⟨?_, List.forall_mem_singleton.mpr trivial⟩
      split <;> simp [Job.fair, Job.logDeviceLane]
    · exact List.forall_mem_singleton.mpr trivial
    · simp only [List.forall_mem_cons, List.forall_mem_append, List.forall_mem_map]
      exact ⟨⟨trivial, fun _ _ => ⟨Nat.le_refl 0, Nat.zero_le _⟩⟩, trivial, trivial, fun _ none => by cases none⟩
  have data : ∀ c callback listeners, ∀ j ∈ (Job.exec m t (.dataLane (.handOver c callback listeners))).2, j.fair := by
    intro c callback listeners
    simp only [Job.exec, DataLaneJob.exec, DataLaneJob.deliverOne, List.forall_mem_append]
    refine ⟨?_, List.forall_mem_singleton.mpr ⟨Nat.le_refl 0, Nat.zero_le _⟩⟩
    split <;> simp [Job.fair, Job.logDataLane]
  intro j member
  by_cases here : j.fair
  · exact here
  rcases fair_source (leads_exec m t job j member) here with
    rfl | ⟨c, callback, listeners, rfl⟩ | ⟨d, rfl⟩ | ⟨d, rfl⟩
  · exact device j member
  · exact data c callback listeners j member
  · simp only [Job.exec, ParticipantJob.exec] at member
    cases found : d.listeners[d.called]? with
    | none =>
        rw [found] at member
        cases member
    | some l =>
        have within : d.called < d.listeners.length := (List.getElem?_eq_some_iff.mp found).1
        rw [found] at member
        simp only [List.mem_cons, List.not_mem_nil, or_false] at member
        rcases member with rfl | rfl | rfl
        · trivial
        · trivial
        · exact ⟨Nat.lt_succ_of_le fair.1, within⟩
  · simp only [Job.exec, ParticipantJob.exec, List.mem_singleton] at member
    subst member
    exact ⟨Nat.le_of_lt fair.1, fair.2⟩

theorem Run.fair (run : Run config hooks past m) (u : ThreadId) : Each (fun job _ => job.fair) (m.agenda u) := by
  refine Run.each (G := fun _ => True) (P := fun _ job _ => job.fair) ?fresh ?next ?caught run
    (fun _ _ => trivial) u
  case fresh =>
    intro u agenda fresh
    cases fresh <;> first | exact ⟨trivial, trivial, trivial⟩ | exact ⟨trivial, trivial⟩
  case next =>
    intro past m t job later _ each agenda _ _ _
    have here := each t
    rw [agenda] at here
    exact each_of_forall fun j member _ => fair_exec m t job here.1 j member
  case caught => exact fun u d rest each => ⟨trivial, ⟨each.1.1, each.1.2⟩, each.2⟩

def Job.accepted (m : Machine) (id : LaneId) : Job → List DataCallback
  | .dataLane (.push other _ callback) =>
      if other = id ∧ (m.hub.dataLanes.lane? id).any (·.accepts) then [callback] else []
  | _ => []

def Job.taken (m : Machine) (id : LaneId) : Job → List DataCallback
  | .dataLane (.look other) =>
      if other = id then (m.hub.dataLanes.lane? id).elim [] fun lane => (lane.look m.hub.terminating).1.batch else []
  | _ => []

def Job.cuts (m : Machine) (id : LaneId) : Job → Bool
  | .dataLane (.look other) =>
      other = id && m.hub.terminating && (m.hub.dataLanes.lane? id).any fun lane => !lane.stopping
  | _ => false

def Job.thrown (m : Machine) (id : LaneId) (job : Job) : List DataCallback :=
  if job.cuts m id then (m.hub.dataLanes.lane? id).elim [] (·.items) else []

theorem cuts_ending (cuts : job.cuts m id = true) : m.hub.terminating = true := by
  cases job with
  | dataLane job =>
      cases job with
      | look other =>
          rw [Job.cuts, Bool.and_eq_true, Bool.and_eq_true] at cuts
          exact cuts.1.2
      | _ => cases cuts
  | _ => cases cuts

def acceptedOn (id : LaneId) (past : List Moment) : List DataCallback := past.flatMap fun x => x.job.accepted x.machine id

def takenFrom (id : LaneId) (past : List Moment) : List DataCallback := past.flatMap fun x => x.job.taken x.machine id

def thrownFrom (id : LaneId) (past : List Moment) : List DataCallback := past.flatMap fun x => x.job.thrown x.machine id

def wasStopped (id : LaneId) (past : List Moment) : Prop := ∃ x ∈ past, x.job = .dataLane (.requestStop id)

def wasCut (id : LaneId) (past : List Moment) : Prop := ∃ x ∈ past, x.job.cuts x.machine id = true

-- The history of a lane that is there: what it accepted was taken, was thrown away, or waits, in order.
structure LaneBook (id : LaneId) (past : List Moment) (lane : DataLane) : Prop where
  balance : acceptedOn id past = takenFrom id past ++ thrownFrom id past ++ lane.items
  empty : lane.exited = true → lane.items = []
  stopped : lane.stopping = true ↔ wasStopped id past
  left : lane.exited = true → lane.stopping = true ∨ wasCut id past
  cut : wasCut id past → lane.exited = true
  thrown : ¬ wasCut id past → thrownFrom id past = []

theorem wasStopped_snoc : wasStopped id (past ++ [x]) ↔ wasStopped id past ∨ x.job = .dataLane (.requestStop id) := by
  simp [wasStopped, or_and_right, exists_or]

theorem wasCut_snoc : wasCut id (past ++ [x]) ↔ wasCut id past ∨ x.job.cuts x.machine id = true := by
  simp [wasCut, or_and_right, exists_or]

theorem flatMap_snoc {α : Type} (f : Moment → List α) (past : List Moment) (x : Moment) :
    (past ++ [x]).flatMap f = past.flatMap f ++ f x := by
  simp

theorem acceptedOn_snoc : acceptedOn id (past ++ [x]) = acceptedOn id past ++ x.job.accepted x.machine id :=
  flatMap_snoc _ past x

theorem takenFrom_snoc : takenFrom id (past ++ [x]) = takenFrom id past ++ x.job.taken x.machine id :=
  flatMap_snoc _ past x

theorem thrownFrom_snoc : thrownFrom id (past ++ [x]) = thrownFrom id past ++ x.job.thrown x.machine id :=
  flatMap_snoc _ past x

theorem LaneBook.same {lane : DataLane} (book : LaneBook id past lane) (accepted : x.job.accepted x.machine id = [])
    (taken : x.job.taken x.machine id = []) (cuts : x.job.cuts x.machine id = false)
    (stops : x.job ≠ .dataLane (.requestStop id)) : LaneBook id (past ++ [x]) lane := by
  have thrown : x.job.thrown x.machine id = [] := by
    unfold Job.thrown
    rw [cuts]
    rfl
  have uncut : wasCut id (past ++ [x]) ↔ wasCut id past := by
    rw [wasCut_snoc, cuts]
    simp
  refine ⟨?_, book.empty, ?_, ?_, ?_, ?_⟩
  · rw [acceptedOn_snoc, takenFrom_snoc, thrownFrom_snoc, accepted, taken, thrown]
    simpa only [List.append_nil] using book.balance
  · rw [wasStopped_snoc]
    exact book.stopped.trans ⟨.inl, fun either => either.resolve_right stops⟩
  · exact fun exited => (book.left exited).imp_right uncut.mpr
  · exact fun cut => book.cut (uncut.mp cut)
  · intro open_
    rw [thrownFrom_snoc, thrown, List.append_nil]
    exact book.thrown fun cut => open_ (uncut.mpr cut)

theorem LaneBook.push {lane : DataLane} {callback : DataCallback} (book : LaneBook id past lane)
    (agreed : x.job = .dataLane (.push id c callback)) (known : x.machine.hub.dataLanes.lane? id = some lane)
    (accepts : lane.accepts = true) : LaneBook id (past ++ [x]) (lane.push callback) := by
  have running : lane.exited = false := by
    simp only [DataLane.accepts, Bool.and_eq_true, Bool.not_eq_true'] at accepts
    exact accepts.2
  have thrown : x.job.thrown x.machine id = [] := by
    rw [agreed]
    rfl
  have uncut : ¬ wasCut id past := fun cut => by
    have exited := book.cut cut
    rw [running] at exited
    cases exited
  refine ⟨?_, ?_, ?_, ?_, ?_, ?_⟩
  · have added : x.job.accepted x.machine id = [callback] := by
      rw [agreed]
      exact if_pos ⟨rfl, by rw [known]; exact accepts⟩
    have taken : x.job.taken x.machine id = [] := by
      rw [agreed]
      rfl
    rw [acceptedOn_snoc, takenFrom_snoc, thrownFrom_snoc, added, taken, thrown]
    simp only [book.balance, List.append_nil, List.append_assoc, DataLane.push]
  · intro exited
    have same : lane.exited = true := exited
    rw [running] at same
    cases same
  · rw [wasStopped_snoc, agreed]
    refine book.stopped.trans ⟨.inl, fun either => either.resolve_right fun none => by cases none⟩
  · intro exited
    have same : lane.exited = true := exited
    rw [running] at same
    cases same
  · intro cut
    rw [wasCut_snoc, agreed] at cut
    exact absurd (cut.resolve_right fun none => by cases none) uncut
  · intro _
    rw [thrownFrom_snoc, thrown, List.append_nil]
    exact book.thrown uncut

theorem LaneBook.stop {lane : DataLane} (book : LaneBook id past lane) (agreed : x.job = .dataLane (.requestStop id)) :
    LaneBook id (past ++ [x]) lane.requestStop := by
  have uncut : wasCut id (past ++ [x]) ↔ wasCut id past := by
    rw [wasCut_snoc, agreed]
    simp [Job.cuts]
  have thrown : x.job.thrown x.machine id = [] := by
    rw [agreed]
    rfl
  refine ⟨?_, book.empty, ?_, fun _ => .inl rfl, ?_, ?_⟩
  · have accepted : x.job.accepted x.machine id = [] := by
      rw [agreed]
      rfl
    have taken : x.job.taken x.machine id = [] := by
      rw [agreed]
      rfl
    rw [acceptedOn_snoc, takenFrom_snoc, thrownFrom_snoc, accepted, taken, thrown]
    simp only [List.append_nil]
    exact book.balance
  · exact ⟨fun _ => wasStopped_snoc.mpr (.inr agreed), fun _ => rfl⟩
  · exact fun cut => book.cut (uncut.mp cut)
  · intro open_
    rw [thrownFrom_snoc, thrown, List.append_nil]
    exact book.thrown fun cut => open_ (uncut.mpr cut)

theorem LaneBook.look {lane : DataLane} (book : LaneBook id past lane) (agreed : x.job = .dataLane (.look id))
    (known : x.machine.hub.dataLanes.lane? id = some lane) :
    LaneBook id (past ++ [x]) (lane.look x.machine.hub.terminating).2 := by
  have unstopped : wasStopped id (past ++ [x]) ↔ wasStopped id past := by
    rw [wasStopped_snoc, agreed]
    simp
  have cuts : x.job.cuts x.machine id = (x.machine.hub.terminating && !lane.stopping) := by
    rw [agreed]
    simp [Job.cuts, known]
  have accepted : x.job.accepted x.machine id = [] := by
    rw [agreed]
    rfl
  have taken : x.job.taken x.machine id = (lane.look x.machine.hub.terminating).1.batch := by
    rw [agreed]
    simp [Job.taken, known]
  have thrown : x.job.thrown x.machine id = if x.machine.hub.terminating && !lane.stopping then lane.items else [] := by
    simp [Job.thrown, cuts, known]
  rcases DataLane.look_cases x.machine.hub.terminating lane with
    ⟨terminating, open_, seen⟩ | ⟨empty, stopping, seen⟩ | ⟨running, empty, open_, seen⟩ | ⟨full, kept, seen⟩
  · -- The worker leaves what is queued behind.
    have cut : x.job.cuts x.machine id = true := by simp [cuts, terminating, open_]
    rw [seen]
    refine ⟨?_, fun _ => rfl, book.stopped.trans unstopped.symm, ?_, fun _ => rfl, ?_⟩
    · rw [acceptedOn_snoc, takenFrom_snoc, thrownFrom_snoc, accepted, taken, thrown, seen, terminating, open_]
      simp [book.balance, DataLane.Look.batch]
    · exact fun _ => .inr (wasCut_snoc.mpr (.inr cut))
    · exact fun uncut => absurd (wasCut_snoc.mpr (.inr cut)) uncut
  · have uncut : x.job.cuts x.machine id = false := by simp [cuts, stopping]
    rw [seen]
    refine ⟨?_, fun _ => empty, book.stopped.trans unstopped.symm, fun _ => .inl stopping, fun _ => rfl, ?_⟩
    · rw [acceptedOn_snoc, takenFrom_snoc, thrownFrom_snoc, accepted, taken, thrown, seen]
      simp [book.balance, DataLane.Look.batch, stopping]
    · intro still
      rw [thrownFrom_snoc, thrown, book.thrown fun cut => still (wasCut_snoc.mpr (.inl cut))]
      simp [stopping]
  · have uncut : x.job.cuts x.machine id = false := by simp [cuts, running]
    have before : wasCut id (past ++ [x]) → wasCut id past := fun cut =>
      (wasCut_snoc.mp cut).resolve_right (by simp [uncut])
    rw [seen]
    refine ⟨?_, book.empty, book.stopped.trans unstopped.symm, ?_, fun cut => book.cut (before cut), ?_⟩
    · rw [acceptedOn_snoc, takenFrom_snoc, thrownFrom_snoc, accepted, taken, thrown, seen]
      simp [book.balance, DataLane.Look.batch, running]
    · exact fun exited => (book.left exited).imp_right fun cut => wasCut_snoc.mpr (.inl cut)
    · intro still
      rw [thrownFrom_snoc, thrown, book.thrown fun cut => still (wasCut_snoc.mpr (.inl cut))]
      simp [running]
  · -- What is taken follows what was taken before, because nothing was thrown away yet.
    have uncut : x.job.cuts x.machine id = false := by
      rw [cuts]
      rcases kept with running | stopping
      · simp [running]
      · simp [stopping]
    have before : wasCut id (past ++ [x]) → wasCut id past := fun cut =>
      (wasCut_snoc.mp cut).resolve_right (by simp [uncut])
    have none := book.thrown fun cut => full (book.empty (book.cut cut))
    have still : x.job.thrown x.machine id = [] := by
      unfold Job.thrown
      rw [uncut]
      rfl
    rw [seen]
    refine ⟨?_, fun exited => absurd (book.empty exited) full, book.stopped.trans unstopped.symm, ?_,
      fun cut => book.cut (before cut), ?_⟩
    · rw [acceptedOn_snoc, takenFrom_snoc, thrownFrom_snoc, accepted, taken, still, seen, none]
      simp [book.balance, DataLane.Look.batch, none]
    · exact fun exited => absurd (book.empty exited) full
    · intro _
      rw [thrownFrom_snoc, still, none]
      rfl

theorem LaneBook.wake {lane : DataLane} (book : LaneBook id past lane) : LaneBook id past lane.wake :=
  ⟨book.balance, book.empty, book.stopped, book.left, book.cut, book.thrown⟩

theorem LaneBook.turn {lane : DataLane} (book : LaneBook id past lane) (known : m.hub.dataLanes.lane? id = some lane) :
    LaneBook id (past ++ [⟨m, t, job, later⟩]) (job.turn m id lane) := by
  have same (accepted : job.accepted m id = []) (taken : job.taken m id = []) (cuts : job.cuts m id = false)
      (stops : job ≠ .dataLane (.requestStop id)) : LaneBook id (past ++ [⟨m, t, job, later⟩]) lane :=
    book.same accepted taken cuts stops
  cases job with
  | dataLane job =>
      cases job with
      | push other c callback =>
          simp only [Job.turn]
          by_cases here : other = id ∧ lane.accepts = true
          · obtain ⟨rfl, accepts⟩ := here
            rw [if_pos ⟨rfl, accepts⟩]
            exact book.push rfl known accepts
          · rw [if_neg here]
            exact same (if_neg (by rw [known]; exact here)) rfl rfl fun none => by cases none
      | look other =>
          simp only [Job.turn]
          by_cases here : other = id
          · subst here
            rw [if_pos rfl]
            exact book.look rfl known
          · rw [if_neg here]
            exact same rfl (if_neg here) (by simp [Job.cuts, here]) fun none => by cases none
      | requestStop other =>
          simp only [Job.turn]
          by_cases here : other = id
          · subst here
            rw [if_pos rfl]
            exact book.stop rfl
          · rw [if_neg here]
            exact same rfl rfl rfl fun equal => here (by cases equal; rfl)
      | wake other =>
          have kept := same rfl rfl rfl fun none => by cases none
          simp only [Job.turn]
          split
          · exact kept.wake
          · exact kept
      | _ => exact same rfl rfl rfl fun none => by cases none
  | _ => exact same rfl rfl rfl fun none => by cases none

structure Untouched (id : LaneId) (past : List Moment) : Prop where
  accepted : acceptedOn id past = []
  taken : takenFrom id past = []
  thrown : thrownFrom id past = []
  uncut : ¬ wasCut id past
  unstopped : ¬ wasStopped id past

theorem Untouched.snoc (book : Untouched id past) (stops : x.job ≠ .dataLane (.requestStop id))
    (unknown : x.machine.hub.dataLanes.lane? id = none) :
    Untouched id (past ++ [x]) := by
  have cuts : x.job.cuts x.machine id = false := by
    unfold Job.cuts
    split
    · simp [unknown]
    · rfl
  refine ⟨?_, ?_, ?_, ?_, ?_⟩
  · rw [acceptedOn_snoc, book.accepted]
    unfold Job.accepted
    split
    · exact if_neg fun both => by simp [unknown] at both
    · rfl
  · rw [takenFrom_snoc, book.taken]
    unfold Job.taken
    split
    · rw [unknown]
      split <;> rfl
    · rfl
  · rw [thrownFrom_snoc, book.thrown, Job.thrown, cuts]
    rfl
  · rw [wasCut_snoc, cuts]
    exact fun either => either.elim book.uncut fun none => by cases none
  · rw [wasStopped_snoc]
    exact fun either => either.elim book.unstopped stops

theorem Untouched.opened (book : Untouched id past) (c : ConnectionHandle) : LaneBook id past { connection := c } :=
  ⟨by rw [book.accepted, book.taken, book.thrown]; rfl, fun _ => rfl,
    ⟨fun none => (by cases none), fun stopped => absurd stopped book.unstopped⟩, fun none => (by cases none),
    fun cut => absurd cut book.uncut, fun _ => book.thrown⟩

def Booked (id : LaneId) (past : List Moment) (m : Machine) : Prop :=
  (m.hub.dataLanes.lane? id).elim (Untouched id past) (LaneBook id past)

theorem Run.booked (run : Run config hooks past m) (id : LaneId) : Booked id past m := by
  refine Run.induct (G := fun _ => True) (P := fun past m => Booked id past m)
    ?construct ?assemble ?call ?client ?carry ?unwind run fun _ _ => trivial
  case construct | assemble =>
    exact ⟨rfl, rfl, rfl, by rintro ⟨_, ⟨⟩, _⟩, by rintro ⟨_, ⟨⟩, _⟩⟩
  case call => exact fun _ _ before _ => before
  case client => exact fun _ _ _ before => before
  case carry =>
    intro past m t job later run before agenda _ _ _
    unfold Booked at before ⊢
    rw [hub_carry]
    cases known : m.hub.dataLanes.lane? id with
    | some lane =>
        rw [known] at before
        rw [lane_exec m t job known]
        exact before.turn known
    | none =>
        rw [known] at before
        have stops : job ≠ .dataLane (.requestStop id) := by
          rintro rfl
          have first := run.enlisted.2 t
          rw [agenda] at first
          obtain ⟨slot, member, rfl⟩ := first.1
          have within := (run.rostered.known slot member).1
          exact Nat.not_lt.mpr (List.getElem?_eq_none_iff.mp known) within
        have untouched := before.snoc (x := ⟨m, t, job, later⟩) stops known
        cases found : (job.exec m t).1.hub.dataLanes.lane? id with
        | none => exact untouched
        | some lane =>
            obtain ⟨c, _, _, _, rfl⟩ := lane_new m t job known found
            exact untouched.opened c
  case unwind =>
    intro past m t later _ before _ _
    unfold Booked at before ⊢
    have same : (m.unwind t later).hub.dataLanes.lane? id = m.hub.dataLanes.lane? id :=
      congrArg (·[id.val]?) lanes_unwind.lanes
    rw [same]
    cases known : m.hub.dataLanes.lane? id with
    | some lane =>
        rw [known] at before
        exact before.same rfl rfl rfl fun none => by cases none
    | none =>
        rw [known] at before
        exact before.snoc (fun none => by cases none) known

def Callback.data? : Callback → Option DataCallback
  | .data callback => some callback
  | .device _ => none

def Job.hands : Job → List DataCallback
  | .participant (.deliver d) => if d.called = 0 then d.callback.data?.toList else []
  | _ => []

def Job.pending : Job → List DataCallback
  | .dataLane (.snapshot _ batch) => batch
  | .dataLane (.handOver _ callback _) => [callback]
  | job => job.hands

def handedBy (w : ThreadId) (past : List Moment) : List DataCallback :=
  past.flatMap fun x => if x.thread = w then x.job.hands else []

theorem handedBy_snoc (w : ThreadId) : handedBy w (past ++ [x]) =
    handedBy w past ++ if x.thread = w then x.job.hands else [] := flatMap_snoc _ past x

def undelivered : Job → Nat
  | .dataLane (.snapshot _ batch) => batch.length
  | .dataLane (.handOver ..) => 1
  | .participant (.deliver d) | .participant (.delivered d) => if d.called = 0 then 1 else 0
  | _ => 0

theorem inner_undelivered : Inner undelivered where
  fresh := by
    intro config u agenda fresh
    cases fresh <;> rfl
  panic := rfl
  caught := fun d => by simp [ParticipantJob.afterPanic, undelivered]

theorem pending_undelivered (job : Job) : job.pending.length ≤ undelivered job := by
  cases job with
  | dataLane job => cases job <;> exact Nat.le_refl _
  | participant job =>
      cases job with
      | deliver d =>
          simp only [Job.pending, Job.hands, undelivered]
          split
          · cases d.callback <;> simp [Callback.data?]
          · exact Nat.le_refl 0
      | _ => exact Nat.zero_le _
  | _ => exact Nat.zero_le _

theorem undelivered_crew (here : undelivered job ≠ 0) : job.crew = true := by
  cases job with
  | dataLane job => cases job <;> first | rfl | exact absurd rfl here
  | participant job => cases job <;> first | rfl | exact absurd rfl here
  | _ => exact absurd rfl here

def Job.looks : Job → Bool
  | .deviceLane job => (job matches .look)
  | .dataLane job => (job matches .look _)
  | _ => false

theorem looks_source {j : Job} (leads : job.leads j = true) (looks : j.looks = true) : job.looks = true := by
  cases j with
  | deviceLane j | dataLane j =>
      cases j <;> first
        | (cases looks; done)
        | (dsimp only [Job.leads] at leads; split at leads <;> first | rfl | cases leads)
  | _ => cases looks

-- A worker looks at its queue again when it has done everything else, and when it has taken something
-- from a lane only that look is left to it.
def Job.last (job : Job) (rest : List Job) : Prop :=
  (job.looks = true → rest = []) ∧ ∀ c batch, job = .dataLane (.snapshot c batch) → ∃ id, rest = [.dataLane (.look id)]

theorem last_plain {rest : List Job} (looks : job.looks = false) (snapshot : ∀ c batch, job ≠ .dataLane (.snapshot c batch)) :
    job.last rest :=
  ⟨fun here => (by rw [looks] at here; cases here), fun c batch same => absurd same (snapshot c batch)⟩

theorem last_look (m : Machine) (t : ThreadId) (job : Job) (looks : job.looks = true) :
    Each Job.last (job.exec m t).2 := by
  have record : ∀ r rest, (Job.log r).last rest := fun _ _ => last_plain rfl fun _ _ none => by cases none
  have look : ∀ id, (Job.dataLane (.look id)).last [] := fun _ => ⟨fun _ => rfl, fun _ _ none => by cases none⟩
  cases job with
  | dataLane job =>
      cases job with
      | look id =>
          simp only [Job.exec, DataLaneJob.exec]
          cases m.hub.dataLanes.lane? id with
          | none => trivial
          | some lane =>
              simp only [DataLaneJob.lookAtLane]
              split
              · exact ⟨look id, trivial⟩
              · exact ⟨⟨fun none => (by cases none), fun _ _ _ => ⟨id, rfl⟩⟩, look id, trivial⟩
              · exact ⟨record _ _, trivial⟩
              · refine each_append.mpr ⟨?_, record _ _, record _ _, trivial⟩
                split
                · exact ⟨record _ _, trivial⟩
                · trivial
      | _ => cases looks
  | deviceLane job =>
      cases job with
      | look =>
          have last : (Job.deviceLane .look).last [] := ⟨fun _ => rfl, fun _ _ none => by cases none⟩
          simp only [Job.exec, DeviceLaneJob.exec, DeviceLaneJob.lookAtQueue]
          split
          · exact ⟨last, trivial⟩
          · refine each_append.mpr ⟨⟨record _ _, ?_⟩, record _ _, last, trivial⟩
            refine each_of_forall fun j member rest => ?_
            obtain ⟨callback, _, rfl⟩ := List.mem_map.mp member
            exact last_plain rfl fun _ _ none => by cases none
          · refine each_append.mpr ⟨?_, record _ _, trivial⟩
            split
            · exact ⟨record _ _, trivial⟩
            · trivial
      | _ => cases looks
  | _ => cases looks

theorem Run.looks_last (run : Run config hooks past m) (u : ThreadId) : Each Job.last (m.agenda u) := by
  refine Run.each (G := fun _ => True) (P := fun _ => Job.last) ?fresh ?next ?caught run (fun _ _ => trivial) u
  case fresh =>
    intro u agenda fresh
    cases fresh <;> first
      | exact ⟨last_plain rfl fun _ _ none => (by cases none), ⟨fun _ => rfl, fun _ _ none => by cases none⟩, trivial⟩
      | exact ⟨last_plain rfl fun _ _ none => (by cases none), trivial⟩
  case next =>
    intro past m t job later _ each agenda _ _ _
    have here := each t
    rw [agenda] at here
    cases looks : job.looks with
    | true =>
        rw [here.1.1 looks]
        simpa only [List.append_nil] using last_look m t job looks
    | false =>
        refine each_of_forall fun j member rest => ?_
        have leads := leads_exec m t job j member
        refine last_plain (Classical.byContradiction fun kind => ?_) fun c batch same => ?_
        · have source := looks_source leads (by simpa using kind)
          rw [looks] at source
          cases source
        · subst same
          obtain ⟨id, rfl⟩ := snapshot_origin leads
          cases looks
  case caught =>
    exact fun u d rest each =>
      ⟨last_plain rfl fun _ _ none => (by cases none), last_plain rfl fun _ _ none => (by cases none), each.2⟩

theorem Run.threads_known (run : Run config hooks past m) : ∀ x ∈ past, x.thread.val < m.agendas.length := by
  refine Run.induct (G := fun _ => True) (P := fun past m => ∀ x ∈ past, x.thread.val < m.agendas.length)
    ?construct ?assemble ?call ?client ?carry ?unwind run fun _ _ => trivial
  case construct | assemble => exact fun _ none => by cases none
  case call =>
    intro past m op _ before _
    rwa [agendas_beginWith, List.length_set]
  case client =>
    intro past m name op _ before x member
    rw [agendas_spawn, List.length_append]
    exact Nat.lt_add_right _ (before x member)
  case carry =>
    intro past m t job later _ before agenda _ _ _
    rw [length_agendas_carry]
    refine List.forall_mem_append.mpr ⟨fun x member => Nat.lt_add_right _ (before x member), List.forall_mem_singleton.mpr ?_⟩
    exact Nat.lt_add_right _ (known_lt (agenda_known agenda (List.cons_ne_nil _ _)))
  case unwind =>
    intro past m t later _ before agenda _
    rw [agendas_unwind, List.length_set]
    exact List.forall_mem_append.mpr
      ⟨before, List.forall_mem_singleton.mpr (known_lt (agenda_known agenda (List.cons_ne_nil _ _)))⟩

theorem pending_crew (here : job.pending ≠ []) : job.crew = true := by
  refine undelivered_crew fun none => here (List.length_eq_zero_iff.mp ?_)
  have bound := pending_undelivered job
  omega

theorem pending_source {j : Job} (leads : job.leads j = true) (here : j.pending ≠ []) :
    job.looks = true ∨ (∃ c batch, job = .dataLane (.snapshot c batch)) ∨
      (∃ c callback listeners, job = .dataLane (.handOver c callback listeners)) ∨
      ∃ d, job = .participant (.delivered d) := by
  cases j with
  | dataLane j =>
      cases j with
      | snapshot =>
          obtain ⟨id, rfl⟩ := snapshot_origin leads
          exact .inl rfl
      | handOver => exact .inr (.inl (handOver_origin leads))
      | _ => exact absurd rfl here
  | participant j =>
      cases j with
      | deliver =>
          rcases deliver_origin leads with rfl | hands | called
          · exact .inl rfl
          · exact .inr (.inr (.inl hands))
          · exact .inr (.inr (.inr called))
      | _ => exact absurd rfl here
  | _ => exact absurd rfl here

theorem hands_called {d : Delivery} (called : 0 < d.called) : (Job.participant (.deliver d)).hands = [] :=
  if_neg (Nat.ne_of_gt called)

theorem pending_exec (m : Machine) (t : ThreadId) (job : Job) (fair : job.fair) (looks : job.looks = false) :
    job.pending = job.hands ++ (job.exec m t).2.flatMap Job.pending := by
  by_cases source : (∃ c batch, job = .dataLane (.snapshot c batch)) ∨
      (∃ c callback listeners, job = .dataLane (.handOver c callback listeners)) ∨
      ∃ d, job = .participant (.delivered d)
  · rcases source with ⟨c, batch, rfl⟩ | ⟨c, callback, listeners, rfl⟩ | ⟨d, rfl⟩
    · have each : ∀ listeners, (batch.map fun callback => Job.dataLane (.handOver c callback listeners)).flatMap Job.pending =
          batch := by
        intro listeners
        rw [List.flatMap_map]
        exact List.flatMap_singleton' batch
      exact (each _).symm
    · simp only [Job.exec, DataLaneJob.exec, DataLaneJob.deliverOne, List.flatMap_append]
      split <;> rfl
    · have called : 0 < d.called := Nat.lt_of_le_of_lt (Nat.zero_le _) fair.1
      simp only [Job.exec, ParticipantJob.exec, List.flatMap_cons, List.flatMap_nil, Job.pending, hands_called called]
      rfl
  · have none : (job.exec m t).2.flatMap Job.pending = [] := by
      refine List.flatMap_eq_nil_iff.mpr fun j member => Classical.byContradiction fun here => ?_
      rcases pending_source (leads_exec m t job j member) here with look | other
      · rw [looks] at look
        cases look
      · exact source other
    rw [none, List.append_nil]
    cases job with
    | dataLane job =>
        cases job with
        | snapshot => exact absurd (.inl ⟨_, _, rfl⟩) source
        | handOver => exact absurd (.inr (.inl ⟨_, _, _, rfl⟩)) source
        | _ => rfl
    | _ => rfl

theorem flatMap_look {g : Job → List DataCallback} (record : ∀ r, g (.log r) = []) (look : ∀ job, job.looks = true → g job = [])
    (snapshot : ∀ c batch, g (.dataLane (.snapshot c batch)) = batch)
    (device : ∀ lane callback listeners, g (Job.deliver lane (.device callback) listeners) = [])
    (x : Moment) (looks : x.job.looks = true) (mine : ∀ other, x.job = .dataLane (.look other) → other = id) :
    (x.job.exec x.machine x.thread).2.flatMap g = x.job.taken x.machine id := by
  obtain ⟨m, t, job, later⟩ := x
  cases job with
  | dataLane job =>
      cases job with
      | look other =>
          cases mine other rfl
          have again := look (.dataLane (.look id)) rfl
          simp only [Job.exec, DataLaneJob.exec, Job.taken, if_true]
          cases found : m.hub.dataLanes.lane? id with
          | none => rfl
          | some lane =>
              simp only [DataLaneJob.lookAtLane, Option.elim_some, Job.logDataLane]
              rcases DataLane.look_cases m.hub.terminating lane with
                ⟨_, _, seen⟩ | ⟨_, _, seen⟩ | ⟨_, _, _, seen⟩ | ⟨_, _, seen⟩ <;> rw [seen]
              · simp only [List.flatMap_append]
                split <;> simp [record, DataLane.Look.batch]
              · simp [record, DataLane.Look.batch]
              · simp [again, DataLane.Look.batch]
              · simp [snapshot, again, DataLane.Look.batch]
      | _ => cases looks
  | deviceLane job =>
      cases job with
      | look =>
          have again := look (.deviceLane .look) rfl
          simp only [Job.exec, DeviceLaneJob.exec, DeviceLaneJob.lookAtQueue, Job.logDeviceLane, Job.taken]
          split
          · simp [again]
          · simp [List.flatMap_map, record, again, device]
          · rw [List.flatMap_append]
            split <;> simp [record]
      | _ => cases looks
  | _ => cases looks

theorem looks_idle (looks : job.looks = true) : job.hands = [] ∧ job.pending = [] := by
  cases job with
  | dataLane job => cases job <;> first | exact ⟨rfl, rfl⟩ | cases looks
  | deviceLane job => exact ⟨rfl, rfl⟩
  | _ => cases looks

theorem pending_looks (x : Moment) (looks : x.job.looks = true) (mine : ∀ other, x.job = .dataLane (.look other) → other = id) :
    (x.job.hands = [] ∧ x.job.pending = []) ∧
      (x.job.exec x.machine x.thread).2.flatMap Job.pending = x.job.taken x.machine id :=
  ⟨looks_idle looks, flatMap_look (fun _ => rfl) (fun _ looks => (looks_idle looks).2) (fun _ _ => rfl) (fun _ _ _ => rfl)
    x looks mine⟩

theorem taken_apart (apart : job ≠ .dataLane (.look id)) : job.taken m id = [] := by
  cases job with
  | dataLane job =>
      cases job with
      | look other => exact if_neg fun same => apart (by rw [same])
      | _ => rfl
  | _ => rfl

theorem flatMap_kept {α : Type} {g : Job → List α} (dropped : ∀ job ∈ cut later, g job = []) (record : ∀ r, g (.log r) = [])
    (again : ∀ d, .participant (.delivered d) ∈ later →
      g (.participant (.deliver { d with panics := d.panics + 1 })) = g (.participant (.delivered d))) :
    (kept later).flatMap g = later.flatMap g := by
  have none := List.flatMap_eq_nil_iff.mpr dropped
  rcases unwound later with ⟨d, rest, split, left⟩ | ⟨split, left⟩
  · have goes := again d (split ▸ List.mem_append_right _ (List.mem_cons_self ..))
    rw [left, split]
    simp only [List.flatMap_append, none, List.flatMap_cons, ParticipantJob.afterPanic, record, goes, List.flatMap_nil,
      List.nil_append, List.append_nil]
  · rw [left, split, none]
    rfl

theorem Run.flatMap_unwind {α : Type} {g : Job → List α} (crew : ∀ job, g job ≠ [] → job.crew = true)
    (behind : ∀ d, g (.participant (.delivered d)) = []) (called : ∀ d, 0 < d.called → g (.participant (.deliver d)) = [])
    (run : Run config hooks past m) (agenda : m.agenda t = .panic :: later) : (kept later).flatMap g = later.flatMap g := by
  have fair := run.fair t
  rw [agenda] at fair
  have idle : ∀ job, job.crew = false → g job = [] := fun job apart => Classical.byContradiction fun here => by
    rw [crew job here] at apart
    cases apart
  refine flatMap_kept (fun job inside => idle job (run.crew_stays agenda job inside)) (fun r => idle _ rfl) fun d inside => ?_
  obtain ⟨_, _, _, here⟩ := each_mem fair.2 inside
  exact (called { d with panics := d.panics + 1 } (Nat.lt_of_le_of_lt (Nat.zero_le _) here.1)).trans (behind d).symm

theorem Run.pending_unwind (run : Run config hooks past m) (agenda : m.agenda t = .panic :: later) :
    (kept later).flatMap Job.pending = later.flatMap Job.pending :=
  run.flatMap_unwind (fun _ => pending_crew) (fun _ => rfl) (fun _ => hands_called) agenda

-- What a worker takes from its lane it passes on in order, where each of its jobs passes on a part of what
-- it holds and leaves the rest to the jobs that come next.
theorem Run.conveyed {h : Machine → Job → List DataCallback} {p : Job → List DataCallback}
    (begins : ∀ c id, (Plan.dataWorker c id).flatMap p = []) (panic : ∀ m, h m .panic = [])
    (goes : ∀ m t job, job.fair → job.looks = false → p job = h m job ++ (job.exec m t).2.flatMap p)
    (looks : ∀ (x : Moment) id, x.job.looks = true → (∀ other, x.job = .dataLane (.look other) → other = id) →
      (h x.machine x.job = [] ∧ p x.job = []) ∧ (x.job.exec x.machine x.thread).2.flatMap p = x.job.taken x.machine id)
    (unwinds : ∀ {past m t later}, Run config hooks past m → m.agenda t = .panic :: later →
      (kept later).flatMap p = later.flatMap p) (run : Run config hooks past m) : ∀ slot ∈ roster past,
    takenFrom slot.lane past = (past.flatMap fun x => if x.thread = slot.worker then h x.machine x.job else []) ++
      (m.agenda slot.worker).flatMap p := by
  refine Run.induct_slots (P := fun past _ agenda slot => takenFrom slot.lane past =
      (past.flatMap fun x => if x.thread = slot.worker then h x.machine x.job else []) ++ agenda.flatMap p)
    ?opened ?turn ?aside ?unwind ?apart run
  case opened =>
    intro past m t job later slot c run opens apart
    obtain ⟨_, rfl, _, rfl⟩ := opens_started opens
    have untouched := run.booked ⟨m.hub.dataLanes.lanes.length⟩
    have unknown : m.hub.dataLanes.lane? ⟨m.hub.dataLanes.lanes.length⟩ = none :=
      List.getElem?_eq_none (Nat.le_refl _)
    rw [Booked, unknown] at untouched
    have idle : (past.flatMap fun x => if x.thread = ⟨m.agendas.length⟩ then h x.machine x.job else []) = [] := by
      refine List.flatMap_eq_nil_iff.mpr fun x seen => if_neg fun same => ?_
      have bound := run.threads_known x seen
      rw [same] at bound
      exact Nat.lt_irrefl _ bound
    rw [takenFrom_snoc, flatMap_snoc, untouched.taken, idle, if_neg fun same => apart same.symm, begins]
    rfl
  case turn =>
    intro past m job later slot run old agenda _ law
    have last := run.looks_last slot.worker
    have fair := run.fair slot.worker
    rw [agenda] at last fair
    rw [takenFrom_snoc, flatMap_snoc, law, if_pos rfl]
    simp only [List.flatMap_cons, List.flatMap_append]
    cases look : job.looks with
    | false =>
        have none : job.taken m slot.lane = [] := taken_apart fun same => by
          rw [same] at look
          cases look
        rw [none, goes m slot.worker job fair.1 look]
        simp only [List.append_assoc, List.append_nil]
    | true =>
        have first := run.enlisted.2 slot.worker
        rw [agenda] at first
        obtain ⟨none, next⟩ := looks ⟨m, slot.worker, job, later⟩ slot.lane look fun id same => by
          subst same
          exact congrArg (·.lane) (run.rostered.worker _ first.1 slot old rfl)
        rw [last.1.1 look, next, none.1, none.2]
        simp only [List.flatMap_nil, List.append_nil]
  case aside =>
    intro past m t job later slot run old agenda _ other law
    have none : job.taken m slot.lane = [] := by
      refine taken_apart fun same => other ?_
      have first := run.enlisted.2 t
      rw [agenda, same] at first
      exact congrArg (·.worker) ((run.rostered).lane _ first.1 slot old rfl)
    rw [takenFrom_snoc, flatMap_snoc, none, law, if_neg other]
    simp only [List.append_nil]
  case unwind =>
    intro past m later slot run _ agenda law
    have silent : p .panic = [] := by
      rw [goes m slot.worker .panic trivial rfl, panic]
      rfl
    have taken : Job.taken m slot.lane .panic = [] := rfl
    rw [takenFrom_snoc, flatMap_snoc, taken, panic, ite_self, List.append_nil, List.append_nil, unwinds run agenda, law,
      List.flatMap_cons, silent, List.nil_append]
  case apart =>
    intro past m t later slot _ _ _ other law
    have taken : Job.taken m slot.lane .panic = [] := rfl
    rw [takenFrom_snoc, flatMap_snoc, taken, if_neg other, List.append_nil, List.append_nil, law]

theorem Run.worked (run : Run config hooks past m) : ∀ slot ∈ roster past,
    takenFrom slot.lane past = handedBy slot.worker past ++ (m.agenda slot.worker).flatMap Job.pending :=
  Run.conveyed (h := fun _ job => job.hands) (fun _ _ => rfl) (fun _ => rfl) pending_exec
    (fun x _ => pending_looks x) (fun run => run.pending_unwind) run

theorem lane_known (within : id.val < m.hub.dataLanes.lanes.length) : ∃ lane, m.hub.dataLanes.lane? id = some lane :=
  ⟨_, List.getElem?_eq_getElem within⟩

theorem exited_turn {lane : DataLane} (exited : lane.exited = true) : (job.turn m id lane).exited = true := by
  cases job with
  | dataLane job =>
      cases job with
      | requestStop | wake | push =>
          simp only [Job.turn]
          split <;> exact exited
      | look other =>
          simp only [Job.turn]
          split
          · rcases DataLane.look_cases m.hub.terminating lane with
              ⟨_, _, seen⟩ | ⟨_, _, seen⟩ | ⟨_, _, _, seen⟩ | ⟨_, _, seen⟩ <;> rw [seen] <;> exact exited
          · exact exited
      | _ => exact exited
  | _ => exact exited

theorem look_exits {lane : DataLane} (known : m.hub.dataLanes.lane? id = some lane)
    (running : ((Job.dataLane (.look id)).turn m id lane).exited = false) :
    .dataLane (.look id) ∈ (Job.exec m t (.dataLane (.look id))).2 := by
  simp only [Job.turn, if_true] at running
  simp only [Job.exec, DataLaneJob.exec, known, DataLaneJob.lookAtLane]
  rcases DataLane.look_cases m.hub.terminating lane with
    ⟨_, _, seen⟩ | ⟨_, _, seen⟩ | ⟨_, _, _, seen⟩ | ⟨_, _, seen⟩ <;> rw [seen] at running ⊢
  · cases running
  · cases running
  · exact List.mem_singleton.mpr rfl
  · exact List.mem_cons_of_mem _ (List.mem_singleton.mpr rfl)

theorem mem_kept (member : job ∈ later) (outside : job ∉ cut later) (unmarked : ∀ d, job ≠ .participant (.delivered d)) :
    job ∈ kept later := by
  rcases unwound later with ⟨d, rest, split, left⟩ | ⟨split, left⟩
  · rw [split] at member
    rw [left]
    rcases List.mem_append.mp member with here | behind
    · exact absurd here outside
    · rcases List.mem_cons.mp behind with same | behind
      · exact absurd same (unmarked d)
      · exact List.mem_append_right _ behind
  · exact absurd (split ▸ member) outside

theorem lane_unwind : (m.unwind t later).hub.dataLanes.lane? id = m.hub.dataLanes.lane? id :=
  congrArg (·[id.val]?) lanes_unwind.lanes

theorem Run.ran_before {lane' : DataLane} (run : Run config hooks past m) (old : slot ∈ roster past)
    (known' : (job.exec m t).1.hub.dataLanes.lane? slot.lane = some lane') (running : lane'.exited = false) :
    ∃ lane, m.hub.dataLanes.lane? slot.lane = some lane ∧ lane.exited = false := by
  obtain ⟨lane, known⟩ := lane_known (run.rostered.known slot old).1
  rw [lane_exec m t job known] at known'
  cases known'
  refine ⟨lane, known, ?_⟩
  cases exited : lane.exited with
  | false => rfl
  | true =>
      rw [exited_turn exited] at running
      cases running

theorem Run.looking (run : Run config hooks past m) : ∀ slot ∈ roster past, ∀ lane,
    m.hub.dataLanes.lane? slot.lane = some lane → lane.exited = false →
      .dataLane (.look slot.lane) ∈ m.agenda slot.worker := by
  refine Run.induct_slots (P := fun _ h agenda slot => ∀ lane,
      h.dataLanes.lane? slot.lane = some lane → lane.exited = false → .dataLane (.look slot.lane) ∈ agenda)
    ?opened ?turn ?aside ?unwind ?apart run
  case opened => exact fun _ _ _ _ _ _ _ => List.mem_cons_of_mem _ (List.mem_singleton.mpr rfl)
  case turn =>
    intro past m job later slot run old _ _ look lane' known' running
    obtain ⟨lane, known, ran⟩ := run.ran_before old known' running
    rcases List.mem_cons.mp (look lane known ran) with same | behind
    · subst same
      rw [lane_exec m slot.worker _ known] at known'
      cases known'
      exact List.mem_append_left _ (look_exits known running)
    · exact List.mem_append_right _ behind
  case aside =>
    intro past m t job later slot run old _ _ _ look lane' known' running
    obtain ⟨lane, known, ran⟩ := run.ran_before old known' running
    exact look lane known ran
  case unwind =>
    intro past m later slot run _ agenda look lane known running
    rw [lane_unwind] at known
    refine mem_kept ((List.mem_cons.mp (look lane known running)).resolve_left fun none => by cases none) (fun inside => ?_)
      fun d none => by cases none
    cases run.crew_stays agenda _ inside
  case apart =>
    intro past m t later slot _ _ _ _ look lane known running
    rw [lane_unwind] at known
    exact look lane known running

theorem exits_look {lane : DataLane} (running : lane.exited = false) (exited : (job.turn m id lane).exited = true) :
    job = .dataLane (.look id) := by
  cases job with
  | dataLane job =>
      cases job with
      | requestStop | wake | push =>
          simp only [Job.turn] at exited
          split at exited <;> exact absurd (running.symm.trans exited) Bool.false_ne_true
      | look other =>
          simp only [Job.turn] at exited
          split at exited
          · rename_i same
            rw [same]
          · exact absurd (running.symm.trans exited) Bool.false_ne_true
      | _ => exact absurd (running.symm.trans exited) Bool.false_ne_true
  | _ => exact absurd (running.symm.trans exited) Bool.false_ne_true

theorem look_leaves {lane : DataLane} (known : m.hub.dataLanes.lane? id = some lane)
    (exited : ((Job.dataLane (.look id)).turn m id lane).exited = true) (running : lane.exited = false) :
    ∀ job ∈ (Job.exec m t (.dataLane (.look id))).2, ∃ r, job = .log r := by
  simp only [Job.turn, if_true] at exited
  simp only [Job.exec, DataLaneJob.exec, known, DataLaneJob.lookAtLane]
  rcases DataLane.look_cases m.hub.terminating lane with
    ⟨_, _, seen⟩ | ⟨_, _, seen⟩ | ⟨_, _, _, seen⟩ | ⟨_, _, seen⟩ <;> rw [seen] at exited ⊢
  · simp only [List.forall_mem_append, List.forall_mem_cons]
    refine ⟨?_, ⟨_, rfl⟩, ⟨_, rfl⟩, fun _ none => by cases none⟩
    split <;> simp [Job.logDataLane]
  · simp [Job.logDataLane]
  · exact absurd (running.symm.trans exited) Bool.false_ne_true
  · exact absurd (running.symm.trans exited) Bool.false_ne_true

theorem Run.signed_off (run : Run config hooks past m) : ∀ slot ∈ roster past, ∀ lane,
    m.hub.dataLanes.lane? slot.lane = some lane → lane.exited = true → ∀ job ∈ m.agenda slot.worker, ∃ r, job = .log r := by
  refine Run.induct_slots (P := fun _ h agenda slot => ∀ lane,
      h.dataLanes.lane? slot.lane = some lane → lane.exited = true → ∀ job ∈ agenda, ∃ r, job = .log r)
    ?opened ?turn ?aside ?unwind ?apart run
  case opened =>
    intro past m t job later slot c _ opens _ lane known exited
    obtain ⟨_, rfl, _, rfl⟩ := opens_started opens
    obtain ⟨_, _, _, _, fresh⟩ := lane_new m t _ (List.getElem?_eq_none (Nat.le_refl _)) known
    rw [fresh] at exited
    cases exited
  case turn =>
    intro past m job later slot run old agenda _ logs lane' known' exited
    obtain ⟨lane, known⟩ := lane_known (run.rostered.known slot old).1
    rw [lane_exec m slot.worker job known] at known'
    cases known'
    cases running : lane.exited with
    | true =>
        obtain ⟨r, rfl⟩ := logs lane known running job (List.mem_cons_self ..)
        simp only [Job.exec, Machine.log, if_neg (run.rostered.apart old), List.nil_append]
        exact fun j inside => logs lane known running j (List.mem_cons_of_mem _ inside)
    | false =>
        have look := exits_look running exited
        subst look
        have last := run.looks_last slot.worker
        rw [agenda] at last
        rw [last.1.1 rfl, List.append_nil]
        exact look_leaves known exited running
  case aside =>
    intro past m t job later slot run old agenda _ other logs lane' known' exited
    obtain ⟨lane, known⟩ := lane_known (run.rostered.known slot old).1
    rw [lane_exec m t job known] at known'
    cases known'
    cases running : lane.exited with
    | true => exact logs lane known running
    | false =>
        have look := exits_look running exited
        subst look
        have first := run.enlisted.2 t
        rw [agenda] at first
        exact absurd (congrArg (·.worker) (run.rostered.lane _ first.1 slot old rfl)) other
  case unwind =>
    intro past m later slot _ _ _ logs lane known exited
    rw [lane_unwind] at known
    obtain ⟨r, none⟩ := logs lane known exited .panic (List.mem_cons_self ..)
    cases none
  case apart =>
    intro past m t later slot _ _ _ _ logs lane known exited
    rw [lane_unwind] at known
    exact logs lane known exited

end TransportHub
