import TransportHub.Proofs.Sink
/-!
Epochs: a connection has one from the moment its lane is put into the map until the lane is stopped.
What is reported for the connection meanwhile reaches the listeners in order, and everything else is
turned down and counted.
-/

set_option autoImplicit false

namespace TransportHub

open DataLanes (Slot)

def Job.stopsLane (id : LaneId) : Job → Bool
  | .dataLane (.requestStop other) => other = id
  | _ => false

def Job.tries (id : LaneId) : Job → List DataCallback
  | .dataLane (.push other _ callback) => if other = id then [callback] else []
  | _ => []

def untilStop (id : LaneId) (past : List Moment) : List Moment := past.takeWhile fun x => !x.job.stopsLane id

def reportedOn (id : LaneId) (past : List Moment) : List DataCallback :=
  (untilStop id past).flatMap fun x => x.job.tries id

def turnedDown (id : LaneId) (past : List Moment) : List DataCallback :=
  (untilStop id past).flatMap fun x => if x.job.refuses x.machine = 0 then [] else x.job.tries id

variable {config : Config} {hooks : List Hook} {past : List Moment} {m : Machine} {t u : ThreadId}
  {job : Job} {later : List Job} {x : Moment} {slot : Slot} {id : LaneId} {c : ConnectionHandle} {lane : DataLane}
  {callback : DataCallback}

theorem stopsLane_iff : job.stopsLane id = true ↔ job = .dataLane (.requestStop id) := by
  cases job with
  | dataLane job => cases job <;> simp [Job.stopsLane]
  | _ => simp [Job.stopsLane]

theorem takeWhile_blocked {α : Type} {p : α → Bool} {a : α} (blocks : p a = false) (front back more : List α) :
    (front ++ a :: back ++ more).takeWhile p = (front ++ a :: back).takeWhile p := by
  induction front with
  | nil => simp [blocks]
  | cons b rest ih =>
      simp only [List.cons_append, List.takeWhile_cons]
      rw [ih]

theorem untilStop_stopped (stopped : wasStopped id past) : untilStop id (past ++ [x]) = untilStop id past := by
  obtain ⟨y, member, stops⟩ := stopped
  obtain ⟨front, back, rfl⟩ := List.append_of_mem member
  refine takeWhile_blocked ?_ front back [x]
  rw [stopsLane_iff.mpr stops]
  rfl

theorem stopless (unstopped : ¬ wasStopped id past) : ∀ y ∈ past, (!y.job.stopsLane id) = true := by
  intro y member
  cases stops : y.job.stopsLane id with
  | false => rfl
  | true => exact absurd ⟨y, member, stopsLane_iff.mp stops⟩ unstopped

theorem untilStop_open (unstopped : ¬ wasStopped id past) :
    untilStop id (past ++ [x]) = past ++ if x.job.stopsLane id then [] else [x] := by
  unfold untilStop
  rw [List.takeWhile_append_of_pos (stopless unstopped)]
  cases stops : x.job.stopsLane id <;> simp [stops]

theorem untilStop_whole (unstopped : ¬ wasStopped id past) : untilStop id past = past := by
  have whole : (past ++ []).takeWhile (fun x => !x.job.stopsLane id) = past ++ [].takeWhile _ :=
    List.takeWhile_append_of_pos (stopless unstopped)
  rwa [List.append_nil, List.takeWhile_nil, List.append_nil] at whole

theorem Run.booked_roster (run : Run config hooks past m) (member : slot ∈ roster past) :
    ∃ lane, m.hub.dataLanes.lane? slot.lane = some lane ∧ LaneBook slot.lane past lane := by
  obtain ⟨lane, known⟩ := lane_known (run.rostered.known slot member).1
  have book := run.booked slot.lane
  rw [Booked, known] at book
  exact ⟨lane, known, book⟩

-- What was reported inside an epoch is what the lane accepted and, after that, what it turned down.
structure Reports (id : LaneId) (past : List Moment) : Prop where
  split : reportedOn id past = acceptedOn id past ++ turnedDown id past
  refused : turnedDown id past ≠ [] → wasCut id past

theorem tries_apart (m : Machine) (apart : ∀ c callback, job ≠ .dataLane (.push id c callback)) :
    job.tries id = [] ∧ job.accepted m id = [] := by
  cases job with
  | dataLane job =>
      cases job with
      | push other c callback =>
          have different : other ≠ id := fun same => apart c callback (by rw [same])
          exact ⟨if_neg different, if_neg fun both => different both.1⟩
      | _ => exact ⟨rfl, rfl⟩
  | _ => exact ⟨rfl, rfl⟩

theorem accepted_push (m : Machine) (known : m.hub.dataLanes.lane? id = some lane) (c : ConnectionHandle) (callback : DataCallback) :
    (Job.dataLane (.push id c callback)).accepted m id = (if lane.accepts then [callback] else []) ∧
      (Job.dataLane (.push id c callback)).refuses m = if lane.accepts then 0 else 1 := by
  simp [Job.accepted, Job.refuses, known]

theorem Reports.same (reports : Reports id past) (tries : x.job.tries id = [])
    (accepted : x.job.accepted x.machine id = []) : Reports id (past ++ [x]) := by
  have none : ∀ {f : Moment → List DataCallback}, f x = [] → (untilStop id (past ++ [x])).flatMap f =
      (untilStop id past).flatMap f := by
    intro f nothing
    by_cases stopped : wasStopped id past
    · rw [untilStop_stopped stopped]
    · rw [untilStop_open stopped, untilStop_whole stopped]
      split <;> simp [nothing]
  have reported : reportedOn id (past ++ [x]) = reportedOn id past := none tries
  have refused : turnedDown id (past ++ [x]) = turnedDown id past := none (by simp [tries])
  refine ⟨?_, fun some => wasCut_snoc.mpr (.inl (reports.refused (refused ▸ some)))⟩
  rw [reported, refused, acceptedOn_snoc, accepted, List.append_nil]
  exact reports.split

theorem Reports.push (reports : Reports id past) (pushes : x.job = .dataLane (.push id c callback))
    (known : x.machine.hub.dataLanes.lane? id = some lane) (book : LaneBook id past lane) : Reports id (past ++ [x]) := by
  obtain ⟨accepted, refuses⟩ := accepted_push x.machine known c callback
  rw [← pushes] at accepted refuses
  by_cases stopped : wasStopped id past
  · have closed : lane.accepts = false := by simp [DataLane.accepts, book.stopped.mpr stopped]
    rw [closed] at accepted
    refine ⟨?_, fun some => ?_⟩
    · rw [reportedOn, turnedDown, untilStop_stopped stopped, acceptedOn_snoc, accepted]
      rw [if_neg Bool.false_ne_true, List.append_nil]
      exact reports.split
    · rw [turnedDown, untilStop_stopped stopped] at some
      exact wasCut_snoc.mpr (.inl (reports.refused some))
  · have reported : reportedOn id (past ++ [x]) = reportedOn id past ++ [callback] := by
      rw [reportedOn, untilStop_open stopped, reportedOn, untilStop_whole stopped]
      simp [pushes, Job.stopsLane, Job.tries]
    have turned : turnedDown id (past ++ [x]) = turnedDown id past ++ if lane.accepts then [] else [callback] := by
      have here : (if x.job.refuses x.machine = 0 then [] else x.job.tries id) = if lane.accepts then [] else [callback] := by
        rw [refuses, pushes]
        cases lane.accepts <;> simp [Job.tries]
      have open_ : x.job.stopsLane id = false := by
        rw [pushes]
        rfl
      rw [turnedDown, untilStop_open stopped, turnedDown, untilStop_whole stopped, open_]
      simp [here]
    cases accepts : lane.accepts with
    | true =>
        have none : turnedDown id past = [] := Classical.byContradiction fun some => by
          have exited := book.cut (reports.refused some)
          simp [DataLane.accepts, exited] at accepts
        have still : turnedDown id (past ++ [x]) = [] := by
          rw [turned, accepts, none]
          rfl
        refine ⟨?_, fun some => absurd still some⟩
        rw [reported, still, acceptedOn_snoc, accepted, reports.split, none, accepts, if_pos rfl]
        simp only [List.append_nil]
    | false =>
        -- Nobody has stopped the lane, so its worker left because of termination.
        have open_ : lane.stopping = false := by
          cases stopping : lane.stopping with
          | false => rfl
          | true => exact absurd (book.stopped.mp stopping) stopped
        have exited : lane.exited = true := by simpa [DataLane.accepts, open_] using accepts
        have cut := (book.left exited).resolve_left (by simp [open_])
        refine ⟨?_, fun _ => wasCut_snoc.mpr (.inl cut)⟩
        rw [reported, turned, acceptedOn_snoc, accepted, reports.split, accepts]
        simp

theorem Run.reports (run : Run config hooks past m) (id : LaneId) : Reports id past := by
  refine Run.induct (G := fun _ => True) (P := fun past _ => Reports id past)
    ?construct ?assemble ?call ?client ?carry ?unwind run fun _ _ => trivial
  case construct | assemble => exact ⟨rfl, fun none => absurd rfl none⟩
  case call => exact fun _ _ before _ => before
  case client => exact fun _ _ _ before => before
  case carry =>
    intro past m t job later run before agenda _ _ _
    by_cases pushes : ∃ c callback, job = .dataLane (.push id c callback)
    · obtain ⟨c, callback, rfl⟩ := pushes
      have enlisted := run.enlisted
      have first := enlisted.2 t
      rw [agenda] at first
      obtain ⟨slot, member, rfl⟩ := first.1
      obtain ⟨lane, known, book⟩ := run.booked_roster (enlisted.1.2 slot member)
      exact before.push rfl known book
    · obtain ⟨tries, accepted⟩ : job.tries id = [] ∧ job.accepted m id = [] :=
        tries_apart m fun c callback same => pushes ⟨c, callback, same⟩
      exact before.same tries accepted
  case unwind => exact fun _ before _ _ => before.same rfl rfl

def Moment.maps (c : ConnectionHandle) (before : Option Slot) (x : Moment) : Option Slot :=
  match x.job with
  | .dataLane (.publish other _) => if other = c then x.publishes <|> before else before
  | .dataLane (.stop other) => if other = c then none else before
  | .dataLane (.close _) => none
  | _ => before

def standing (c : ConnectionHandle) (past : List Moment) : Option Slot := past.foldl (Moment.maps c) none

theorem standing_snoc : standing c (past ++ [x]) = x.maps c (standing c past) := by
  simp [standing]

theorem slots_maps (x : Moment) (c : ConnectionHandle) :
    (x.job.exec x.machine x.thread).1.hub.dataLanes.slots.get? c = x.maps c (x.machine.hub.dataLanes.slots.get? c) := by
  obtain ⟨m, t, job, later⟩ := x
  rcases dataLane_or job with ⟨j, rfl⟩ | apart
  · cases j with
    | publish other slot =>
        simp only [Job.exec, DataLaneJob.exec, Moment.maps, Moment.publishes]
        cases closed : m.hub.dataLanes.closed with
        | true => simp
        | false =>
            cases occupied : m.hub.dataLanes.occupied other with
            | true => simp
            | false =>
                by_cases same : other = c
                · simp [DataLanes.publish, Table.get?_insert, same]
                · simp [DataLanes.publish, Table.get?_insert, same, Ne.symm same]
    | stop other =>
        simp only [Job.exec, DataLaneJob.exec, DataLanes.withdraw, Moment.maps]
        cases found : m.hub.dataLanes.slots.get? other with
        | none =>
            by_cases same : other = c
            · subst same
              simp [found]
            · simp [same]
        | some slot =>
            by_cases same : other = c
            · simp [Table.get?_erase, same]
            · simp [Table.get?_erase, same, Ne.symm same]
    | close join => simp [Job.exec, DataLaneJob.exec, DataLanes.close, Moment.maps, Table.get?_empty]
    | spawn | push | look =>
        simp only [Job.exec, DataLaneJob.exec, DataLaneJob.lookAtLane, Moment.maps]
        repeat' split
        all_goals rfl
    | _ => rfl
  · have same := (dataLanes_exec m t job apart).2.1
    simp only [same]
    cases job with
    | dataLane j => exact absurd rfl (apart j)
    | _ => rfl

theorem Run.mapped (run : Run config hooks past m) (c : ConnectionHandle) :
    m.hub.dataLanes.slots.get? c = standing c past := by
  refine Run.induct (G := fun _ => True) (P := fun past m => m.hub.dataLanes.slots.get? c = standing c past)
    ?construct ?assemble ?call ?client ?carry ?unwind run fun _ _ => trivial
  case construct | assemble => exact Table.get?_empty c
  case call => exact fun _ _ before _ => before
  case client => exact fun _ _ _ before => before
  case carry =>
    intro past m t job later _ before _ _ _ _
    rw [standing_snoc, ← before, hub_carry]
    exact slots_maps ⟨m, t, job, later⟩ c
  case unwind =>
    intro past m t later _ before _ _
    rw [standing_snoc, ← before, lanes_unwind.slots]
    rfl

def Job.carriesData : Job → Bool
  | .dataLane job => (job matches .snapshot .. | .handOver ..)
  | .participant (.deliver d) | .participant (.delivered d) => d.callback.data?.isSome
  | .participant (.hear _ callback) => callback.data?.isSome
  | _ => false

def Job.hearing : Job → Option DataCallback
  | .participant (.deliver d) | .participant (.delivered d) => if d.called = 0 then none else d.callback.data?
  | .participant (.hear _ callback) => callback.data?
  | _ => none

structure Traced (past : List Moment) (u : ThreadId) (job : Job) : Prop where
  worker : job.carriesData = true → ∃ slot ∈ roster past, slot.worker = u
  handed : ∀ callback, job.hearing = some callback → callback ∈ handedBy u past

theorem Traced.plain (carries : job.carriesData = false) (hearing : job.hearing = none) : Traced past u job :=
  ⟨fun here => absurd (carries.symm.trans here) Bool.false_ne_true, fun _ here => by cases hearing.symm.trans here⟩

theorem Traced.snoc (traced : Traced past u job) : Traced (past ++ [x]) u job := by
  refine ⟨fun carries => ?_, fun callback here => ?_⟩
  · obtain ⟨slot, member, same⟩ := traced.worker carries
    exact ⟨slot, mem_roster_snoc.mpr (.inl member), same⟩
  · rw [handedBy_snoc]
    exact List.mem_append_left _ (traced.handed callback here)

theorem traced_source {j : Job} (leads : job.leads j = true) (here : j.carriesData = true ∨ j.hearing ≠ none) :
    job.looks = true ∨ (∃ c batch, job = .dataLane (.snapshot c batch)) ∨
      (∃ c callback listeners, job = .dataLane (.handOver c callback listeners)) ∨
      (∃ d, job = .participant (.deliver d)) ∨ ∃ d, job = .participant (.delivered d) := by
  cases j with
  | dataLane j =>
      cases j with
      | snapshot =>
          obtain ⟨id, rfl⟩ := snapshot_origin leads
          exact .inl rfl
      | handOver => exact .inr (.inl (handOver_origin leads))
      | _ => simp [Job.carriesData, Job.hearing] at here
  | participant j =>
      cases j with
      | hear => exact .inr (.inr (.inr (.inl (hear_origin leads))))
      | delivered => exact .inr (.inr (.inr (.inl (delivered_origin leads))))
      | deliver =>
          rcases deliver_origin leads with rfl | hands | called
          · exact .inl rfl
          · exact .inr (.inr (.inl hands))
          · exact .inr (.inr (.inr (.inr called)))
      | _ => simp [Job.carriesData, Job.hearing] at here
  | _ => simp [Job.carriesData, Job.hearing] at here

theorem traced_look (m : Machine) (t : ThreadId) (looks : job.looks = true) :
    ∀ j ∈ (job.exec m t).2, j.hearing = none ∧ (j.carriesData = true → ∃ id, job = .dataLane (.look id)) := by
  cases job with
  | deviceLane job =>
      cases job with
      | look =>
          simp only [Job.exec, DeviceLaneJob.exec, DeviceLaneJob.lookAtQueue]
          split
          · exact List.forall_mem_singleton.mpr ⟨rfl, fun none => by cases none⟩
          · simp only [List.forall_mem_append, List.forall_mem_cons, List.forall_mem_map]
            refine ⟨⟨⟨rfl, fun none => by cases none⟩, fun _ _ => ⟨rfl, fun none => by cases none⟩⟩,
              ⟨rfl, fun none => by cases none⟩, ⟨rfl, fun none => by cases none⟩, fun _ none => by cases none⟩
          · simp only [List.forall_mem_append]
            refine ⟨?_, List.forall_mem_singleton.mpr ⟨rfl, fun none => by cases none⟩⟩
            split
            · exact List.forall_mem_singleton.mpr ⟨rfl, fun none => by cases none⟩
            · exact fun _ none => by cases none
      | _ => cases looks
  | dataLane job =>
      cases job with
      | look id =>
          intro j member
          refine ⟨?_, fun _ => ⟨id, rfl⟩⟩
          have leads := leads_exec m t _ j member
          cases j with
          | participant j => cases j <;> first | rfl | cases leads
          | _ => rfl
      | _ => cases looks
  | _ => cases looks

theorem traced_exec (x : Moment) (enlisted : x.job.enlisted past x.thread) (traced : Traced past x.thread x.job) :
    ∀ j ∈ (x.job.exec x.machine x.thread).2, Traced (past ++ [x]) x.thread j := by
  obtain ⟨m, t, job, later⟩ := x
  intro j member
  by_cases here : j.carriesData = true ∨ j.hearing ≠ none
  · rcases traced_source (leads_exec m t job j member) here with
      looks | ⟨c, batch, rfl⟩ | ⟨c, callback, listeners, rfl⟩ | ⟨d, rfl⟩ | ⟨d, rfl⟩
    · obtain ⟨hearing, worker⟩ := traced_look m t looks j member
      refine ⟨fun carries => ?_, fun _ found => by cases hearing.symm.trans found⟩
      obtain ⟨id, rfl⟩ := worker carries
      exact ⟨_, mem_roster_snoc.mpr (.inl enlisted), rfl⟩
    · have worker := (traced.snoc (x := ⟨m, t, .dataLane (.snapshot c batch), later⟩)).worker rfl
      simp only [Job.exec, DataLaneJob.exec, List.mem_cons, List.mem_map] at member
      rcases member with rfl | ⟨callback, _, rfl⟩
      · exact .plain rfl rfl
      · exact ⟨fun _ => worker, fun _ none => by cases none⟩
    · have worker := (traced.snoc (x := ⟨m, t, .dataLane (.handOver c callback listeners), later⟩)).worker rfl
      simp only [Job.exec, DataLaneJob.exec, DataLaneJob.deliverOne] at member
      rcases List.mem_append.mp member with member | member
      · split at member
        · cases member
        · simp only [List.mem_cons, List.not_mem_nil, or_false] at member
          rcases member with rfl | rfl <;> exact .plain rfl rfl
      · cases List.mem_singleton.mp member
        exact ⟨fun _ => worker, fun _ none => by cases none⟩
    · simp only [Job.exec, ParticipantJob.exec] at member
      have handed : ∀ callback, d.callback.data? = some callback →
          callback ∈ handedBy t (past ++ [⟨m, t, .participant (.deliver d), later⟩]) := by
        intro callback found
        by_cases first : d.called = 0
        · rw [handedBy_snoc]
          simp [Job.hands, first, found]
        · exact traced.snoc.handed callback (by simp [Job.hearing, first, found])
      split at member
      · cases member
      · simp only [List.mem_cons, List.not_mem_nil, or_false] at member
        rcases member with rfl | rfl | rfl
        · exact .plain rfl rfl
        · exact ⟨traced.snoc.worker, handed⟩
        · exact ⟨traced.snoc.worker, fun callback found => handed callback (by simpa [Job.hearing] using found)⟩
    · simp only [Job.exec, ParticipantJob.exec, List.mem_singleton] at member
      subst member
      exact ⟨traced.snoc.worker, traced.snoc.handed⟩
  · have both := not_or.mp here
    exact .plain (Bool.eq_false_iff.mpr both.1) (Classical.not_not.mp both.2)

theorem Run.traced (run : Run config hooks past m) (u : ThreadId) : Each (fun job _ => Traced past u job) (m.agenda u) := by
  refine (Run.sustain (G := fun _ => True) (I := fun _ _ => True) (P := fun past _ u job _ => Traced past u job)
    trivial ?fresh ?carry ?panic ?caught run fun _ _ => trivial).2 u
  case fresh =>
    exact fun _ _ => ⟨⟨.plain rfl rfl, .plain rfl rfl, trivial⟩, ⟨.plain rfl rfl, trivial⟩, fun _ _ => ⟨.plain rfl rfl, trivial⟩⟩
  case carry =>
    intro past m t job later run _ each agenda _ _ _
    have first := each t
    have enlisted := run.enlisted.2 t
    rw [agenda] at first enlisted
    refine ⟨trivial, fun _ _ _ traced => traced.snoc, ?_, ?_⟩
    · exact each_of_forall fun j member _ => traced_exec ⟨m, t, job, later⟩ enlisted.1 first.1 j member
    · intro u agenda _ started recruit
      have kind : Fresh config u agenda := fresh_recruits started (List.mem_of_getElem? recruit)
      cases kind <;> first
        | exact ⟨.plain rfl rfl, .plain rfl rfl, trivial⟩
        | exact ⟨.plain rfl rfl, trivial⟩
  case panic => exact fun _ _ _ _ _ => ⟨trivial, fun _ _ _ traced => traced.snoc⟩
  case caught =>
    exact fun past h u d rest each => ⟨.plain rfl rfl, ⟨each.1.worker, each.1.handed⟩, each.2⟩

def Moment.withdraws (x : Moment) : Option Slot :=
  match x.job with
  | .dataLane (.stop c) => x.machine.hub.dataLanes.slots.get? c
  | _ => none

def Closing (past : List Moment) (m : Machine) : Prop := ∀ x ∈ past, ∀ slot, x.withdraws = some slot →
  wasStopped slot.lane past ∨ ∃ u, .dataLane (.requestStop slot.lane) ∈ m.agenda u

theorem Run.closing (run : Run config hooks past m) (hooked : ∀ x ∈ past, x.hookSafe) : Closing past m := by
  refine Run.induct (G := Moment.hookSafe) (P := Closing) ?construct ?assemble ?call ?client ?carry ?unwind run hooked
  case construct | assemble => exact fun _ none => by cases none
  case call =>
    intro past m op run before idle x member slot withdraws
    refine (before x member slot withdraws).imp_right (Exists.imp fun u pending => ?_)
    rwa [agenda_beginWith_other fun caller => by rw [caller, idle] at pending; cases pending]
  case client =>
    intro past m name op run before x member slot withdraws
    refine (before x member slot withdraws).imp_right (Exists.imp fun u pending => ?_)
    rwa [agenda_client_old (known_lt (agenda_known rfl fun none => by rw [none] at pending; cases pending))]
  case carry =>
    intro past m t job later run before agenda notPanic _ _ x member slot withdraws
    rcases List.mem_append.mp member with old | new
    · rcases before x old slot withdraws with stopped | ⟨u, pending⟩
      · exact .inl (wasStopped_snoc.mpr (.inl stopped))
      · by_cases mine : t = u
        · subst mine
          rw [agenda] at pending
          rcases List.mem_cons.mp pending with same | behind
          · exact .inl (wasStopped_snoc.mpr (.inr same.symm))
          · exact .inr ⟨t, agenda_carry_self agenda ▸ List.mem_append_right _ behind⟩
        · have known := known_lt (agenda_known (t := u) rfl fun none => by rw [none] at pending; cases pending)
          exact .inr ⟨u, (agenda_carry_old (fun same => mine same.symm) known).symm ▸ pending⟩
    · cases List.mem_singleton.mp new
      refine .inr ⟨t, agenda_carry_self agenda ▸ List.mem_append_left _ ?_⟩
      cases job with
      | dataLane job =>
          cases job with
          | stop c =>
              have found : m.hub.dataLanes.slots.get? c = some slot := withdraws
              simp [Job.exec, DataLaneJob.exec, DataLanes.withdraw, found]
          | _ => cases withdraws
      | _ => cases withdraws
  case unwind =>
    intro past m t later run before agenda hooked x member slot withdraws
    rcases List.mem_append.mp member with old | new
    · rcases before x old slot withdraws with stopped | ⟨u, pending⟩
      · exact .inl (wasStopped_snoc.mpr (.inl stopped))
      · refine .inr ⟨u, ?_⟩
        by_cases mine : t = u
        · subst mine
          rw [agenda] at pending
          rw [agenda_unwind_self agenda]
          refine mem_kept ((List.mem_cons.mp pending).resolve_left fun none => by cases none) (fun inside => ?_)
            fun d none => by cases none
          cases run.queues_stay agenda hooked _ inside
        · rwa [agenda_unwind_other fun same => mine same.symm]
    · cases List.mem_singleton.mp new
      cases withdraws

theorem Run.drained (run : Run config hooks past m) : ∀ slot ∈ roster past, ∀ lane,
    m.hub.dataLanes.lane? slot.lane = some lane → lane.exited = true →
      (m.agenda slot.worker).flatMap Job.pending = [] := by
  intro slot member lane known exited
  refine List.flatMap_eq_nil_iff.mpr fun job inside => ?_
  obtain ⟨r, rfl⟩ := run.signed_off slot member lane known exited job inside
  rfl

theorem Run.accepted_published (run : Run config hooks past m) (some : acceptedOn id past ≠ []) :
    ∃ slot ∈ published past, slot.lane = id := by
  obtain ⟨x, seen, here⟩ : ∃ x ∈ past, x.job.accepted x.machine id ≠ [] := by
    refine Classical.byContradiction fun none => some (List.flatMap_eq_nil_iff.mpr fun x seen => ?_)
    exact Classical.byContradiction fun here => none ⟨x, seen, here⟩
  obtain ⟨earlier, start, reached, agenda⟩ := run.reached seen
  have first := reached.enlisted.2 x.thread
  rw [agenda] at first
  have pushes : ∃ c callback, x.job = .dataLane (.push id c callback) := Classical.byContradiction fun apart =>
    here (tries_apart x.machine fun c callback same => apart ⟨c, callback, same⟩).2
  obtain ⟨c, callback, pushes⟩ := pushes
  have enlisted := first.1
  rw [pushes] at enlisted
  obtain ⟨slot, inside, same⟩ := enlisted
  obtain ⟨rest, whole⟩ := start
  refine ⟨slot, ?_, same⟩
  rw [← whole, published, List.filterMap_append, List.filterMap_append]
  exact List.mem_append_left _ (List.mem_append_left _ inside)

theorem Run.slot_published (run : Run config hooks past m) (member : slot ∈ roster past) (some : acceptedOn slot.lane past ≠ []) :
    slot ∈ published past := by
  obtain ⟨other, inside, same⟩ := run.accepted_published some
  exact run.rostered.lane other (run.enlisted.1.2 other inside) slot member same ▸ inside

theorem Run.reported_ours (run : Run config hooks past m) (managed : ∀ x ∈ past, x.managed) (serves : m.hub.serves id c) :
    ∀ callback ∈ reportedOn id past, callback.connection = c := by
  intro callback member
  obtain ⟨x, seen, tries⟩ := List.mem_flatMap.mp member
  have old : x ∈ past := (List.takeWhile_prefix _).subset seen
  obtain ⟨earlier, start, reached, agenda⟩ := run.reached old
  have first := (reached.aligned fun y here => managed y (start.subset (List.mem_append_left _ here))).2 x.thread
  rw [agenda] at first
  have addressed := first.1
  have stays := run.stays (Q := fun h => h.serves id callback.connection) serves_exec fun _ here => here
  obtain ⟨m', t, job, later⟩ := x
  cases job with
  | dataLane job =>
      cases job with
      | push other d pushed =>
          simp only [Job.tries] at tries
          split at tries
          · rename_i same
            subst same
            cases List.mem_singleton.mp tries
            obtain ⟨rfl, there⟩ := addressed
            obtain ⟨lane, known, here⟩ := stays _ old there
            obtain ⟨lane', known', ours⟩ := serves
            rw [known] at known'
            cases known'
            exact here.symm.trans ours
          · cases tries
      | _ => cases tries
  | _ => cases tries

theorem Run.spared (run : Run config hooks past m) (stopped : x ∈ past) (stops : x.job = .dataLane (.requestStop id))
    (running : x.machine.hub.terminating = false) : ¬ wasCut id past := by
  rintro ⟨y, seen, cuts⟩
  obtain ⟨earlier, start, reached, _⟩ := run.reached seen
  obtain ⟨rest, rfl⟩ := start
  obtain ⟨m', t, job, later⟩ := y
  cases job with
  | dataLane job =>
      cases job with
      | look other =>
          simp only [Job.cuts, Bool.and_eq_true, decide_eq_true_eq] at cuts
          obtain ⟨⟨rfl, ending⟩, unstopped⟩ := cuts
          rw [List.append_assoc] at stopped
          rcases List.mem_append.mp stopped with before | after
          · -- The worker saw the request.
            have book := reached.booked other
            cases known : m'.hub.dataLanes.lane? other with
            | none => simp [known] at unstopped
            | some lane =>
                rw [Booked, known] at book
                have stopping := book.stopped.mpr ⟨x, before, stops⟩
                simp [known, stopping] at unstopped
          · rcases List.mem_append.mp after with same | after
            · cases List.mem_singleton.mp same
              cases stops
            · obtain ⟨front, back, rfl⟩ := List.append_of_mem after
              have there : (earlier ++ [⟨m', t, .dataLane (.look other), later⟩] ++ front) ++ [x] <+:
                  earlier ++ [⟨m', t, .dataLane (.look other), later⟩] ++ (front ++ x :: back) :=
                ⟨back, by simp⟩
              have on := (run.before there).1.terminating _
                (List.mem_append_left _ (List.mem_append_right _ (List.mem_singleton.mpr rfl))) ending
              rw [running] at on
              cases on
      | _ => cases cuts
  | _ => cases cuts

theorem Run.stopped_refuses (run : Run config hooks past m) {earlier : List Moment} (start : earlier ++ [x] <+: past)
    (stopped : wasStopped id earlier) (pushes : x.job = .dataLane (.push id c callback)) : x.job.refuses x.machine = 1 := by
  have book := (run.before start).1.booked id
  rw [pushes]
  simp only [Job.refuses]
  cases known : x.machine.hub.dataLanes.lane? id with
  | none => rfl
  | some lane =>
      rw [Booked, known] at book
      simp [DataLane.accepts, book.stopped.mpr stopped]

theorem Run.finds_standing (run : Run config hooks past m) {earlier : List Moment} (start : earlier ++ [x] <+: past)
    (finds : x.job = .dataLane (.find c callback)) :
    (standing c earlier = none → x.job.refuses x.machine = 1) ∧
      ∀ slot, standing c earlier = some slot → (x.job.exec x.machine x.thread).2 = [.dataLane (.push slot.lane c callback)] := by
  rw [← (run.before start).1.mapped c, finds]
  refine ⟨fun none => ?_, fun slot some => ?_⟩
  · simp [Job.refuses, none]
  · simp [Job.exec, DataLaneJob.exec, some]

theorem Run.hears_handed (run : Run config hooks past m) (seen : x ∈ past) {l : ListenerId}
    (hears : x.job = .participant (.hear l (.data callback))) :
    ∃ slot ∈ published past, slot.worker = x.thread ∧ callback ∈ handedBy slot.worker past := by
  obtain ⟨earlier, start, reached, agenda⟩ := run.reached seen
  have traced := reached.traced x.thread
  rw [agenda, hears] at traced
  obtain ⟨slot, member, worker⟩ := traced.1.worker rfl
  have handed := traced.1.handed callback rfl
  have some : acceptedOn slot.lane earlier ≠ [] := by
    obtain ⟨_, _, book⟩ := reached.booked_roster member
    intro none
    have taken := reached.worked slot member
    rw [book.balance, taken, worker, List.append_eq_nil_iff, List.append_eq_nil_iff, List.append_eq_nil_iff] at none
    rw [none.1.1.1] at handed
    cases handed
  obtain ⟨rest, rfl⟩ := start
  refine ⟨slot, ?_, worker, ?_⟩
  · rw [published, List.filterMap_append, List.filterMap_append]
    exact List.mem_append_left _ (List.mem_append_left _ (reached.slot_published member some))
  · rw [worker, handedBy, List.flatMap_append, List.flatMap_append]
    exact List.mem_append_left _ (List.mem_append_left _ handed)

-- An epoch: the worker hands over in order what was reported inside it. All of it is handed over before
-- the worker exits, unless termination cuts the epoch; then the rest is thrown away or turned down.
structure Epoch (slot : Slot) (past : List Moment) (m : Machine) : Prop where
  ours : ∃ c, m.hub.serves slot.lane c ∧ ∀ callback ∈ reportedOn slot.lane past, callback.connection = c
  split : reportedOn slot.lane past = acceptedOn slot.lane past ++ turnedDown slot.lane past
  inOrder : handedBy slot.worker past <+: acceptedOn slot.lane past
  spared : (∃ x ∈ past, x.job = .dataLane (.requestStop slot.lane) ∧ x.machine.hub.terminating = false) →
    ¬ wasCut slot.lane past
  whole : ¬ wasCut slot.lane past → m.exited slot.worker = true →
    handedBy slot.worker past = reportedOn slot.lane past
  cut : wasCut slot.lane past → reportedOn slot.lane past =
    handedBy slot.worker past ++ thrownFrom slot.lane past ++ turnedDown slot.lane past
  late : ∀ earlier x, earlier ++ [x] <+: past → wasStopped slot.lane earlier → ∀ c callback,
    x.job = .dataLane (.push slot.lane c callback) → x.job.refuses x.machine = 1

theorem Run.epoch (run : Run config hooks past m) (managed : ∀ x ∈ past, x.managed) (member : slot ∈ roster past) :
    Epoch slot past m := by
  obtain ⟨lane, known, book⟩ := run.booked_roster member
  have worked := run.worked slot member
  have reports := run.reports slot.lane
  refine ⟨⟨lane.connection, ⟨lane, known, rfl⟩, run.reported_ours managed ⟨lane, known, rfl⟩⟩, reports.split, ?_, ?_, ?_, ?_,
    fun _ _ start stopped _ _ pushes => run.stopped_refuses start stopped pushes⟩
  · rw [book.balance, worked]
    simp only [List.append_assoc]
    exact List.prefix_append _ _
  · rintro ⟨x, stopped, stops, running⟩
    exact run.spared stopped stops running
  · intro uncut gone
    have ended := exited_idle gone
    have exited : lane.exited = true := by
      cases running : lane.exited with
      | true => rfl
      | false =>
          have look := run.looking slot member lane known running
          rw [ended] at look
          cases look
    rw [ended] at worked
    have accepted := book.balance
    rw [worked, book.thrown uncut, book.empty exited] at accepted
    simp only [List.flatMap_nil, List.append_nil] at accepted
    have refused : turnedDown slot.lane past = [] := Classical.byContradiction fun some => uncut (reports.refused some)
    rw [reports.split, accepted, refused, List.append_nil]
  · intro cut
    have exited := book.cut cut
    rw [run.drained slot member lane known exited, List.append_nil] at worked
    rw [reports.split, book.balance, worked, book.empty exited, List.append_nil]

-- The way of data events through a hub. The map holds the epochs that are open; what is reported looks
-- there once, goes to the lane of the epoch or is turned down, and everything that is turned down or
-- thrown away is counted. Only a panic out of a log hook keeps some of it from being done.
structure DataPath (past : List Moment) (m : Machine) : Prop where
  epochs : ∀ slot ∈ published past, Epoch slot past m
  map : ∀ c, m.hub.dataLanes.slots.get? c = standing c past
  owner : ∀ c slot, standing c past = some slot → slot ∈ published past ∧ m.hub.serves slot.lane c
  outside : ∀ earlier x c callback, earlier ++ [x] <+: past → x.job = .dataLane (.find c callback) →
    standing c earlier = none → x.job.refuses x.machine = 1
  inside : ∀ earlier x c callback slot, earlier ++ [x] <+: past → x.job = .dataLane (.find c callback) →
    standing c earlier = some slot → (x.job.exec x.machine x.thread).2 = [.dataLane (.push slot.lane c callback)]
  heard : ∀ x ∈ past, ∀ l callback, x.job = .participant (.hear l (.data callback)) →
    ∃ slot ∈ published past, slot.worker = x.thread ∧ callback ∈ handedBy slot.worker past
  once : total (fun x => x.job.enqueuesData) past = total (fun x => x.job.accepts x.machine) past +
    total (fun x => x.job.refuses x.machine) past + m.load pushing
  discarded : m.hub.metrics.discarded = total (fun x => x.job.throws x.machine) past
  orphaned : (∀ x ∈ past, x.hookSafe) →
    total (fun x => x.job.refuses x.machine) past = m.hub.metrics.orphaned + m.load orphaning
  reported : (∀ x ∈ past, x.hookSafe) → ∀ callback, total (fun x => x.job.brings x.machine callback) past =
    total (fun x => sought callback x.job) past + m.load (sought callback)
  founded : (∀ x ∈ past, x.hookSafe) → ∀ c, total (fun x => x.job.arrives x.machine c) past =
    total (fun x => x.job.founds c) past + total (fun x => x.job.unmanned x.machine c) past + m.load (founding c)
  closing : (∀ x ∈ past, x.hookSafe) → Closing past m

theorem data_path (run : Run config hooks past m) (managed : ∀ x ∈ past, x.managed) : DataPath past m where
  epochs slot member := run.epoch managed (run.enlisted.1.2 slot member)
  map := run.mapped
  owner c slot open_ := by
    have found := (run.mapped c).trans open_
    exact ⟨run.enlisted.1.1 c slot found, (run.aligned managed).1.slots c slot found⟩
  outside _ _ _ _ start finds := (run.finds_standing start finds).1
  inside _ _ _ _ slot start finds := (run.finds_standing start finds).2 slot
  heard _ seen _ _ hears := run.hears_handed seen hears
  once := run.enqueues
  discarded := run.discarded
  orphaned hooked := by
    have law := run.orphaned
    rw [(run.nothing_lost hooked).2] at law
    exact law
  reported := run.sought
  founded := run.founded
  closing := run.closing

-- A frame comes in for a connection that was just reported, and the worker of its lane delivers it.
def frameReceived : List Moment × Machine :=
  let started := solo quietConfig [] [.report ⟨1⟩ (.received ⟨4⟩ [7]), .report ⟨1⟩ (.connected {} ⟨4⟩)]
  let played := started.2.play (List.replicate 9 ⟨1⟩)
  (started.1 ++ played.1, played.2)

theorem frame_delivered : DataPath frameReceived.1 frameReceived.2 ∧ published frameReceived.1 = [⟨⟨0⟩, ⟨1⟩⟩] ∧
    handedBy ⟨1⟩ frameReceived.1 = [.received ⟨4⟩ [7]] := by
  refine ⟨data_path ((solo_run _ _ _).play _) ?_, ?_⟩ <;> decide +kernel

-- A frame for no connection is turned down; a panic out of a log hook keeps it from being counted.
def hookAtRefusal : Hook := { start := "", nth := 2, ops := [.panic] }

def refusal : List Moment × Machine := solo quietConfig [hookAtRefusal] [.report ⟨1⟩ (.received ⟨4⟩ [7])]

theorem refused_uncounted : Run quietConfig [hookAtRefusal] refusal.1 refusal.2 ∧
    (∀ x ∈ refusal.1, x.managed ∧ x.adapterSafe) ∧ refusal.2.agendas.all List.isEmpty = true ∧
    total (fun x => x.job.refuses x.machine) refusal.1 = 1 ∧ refusal.2.hub.metrics.orphaned = 0 := by
  refine ⟨solo_run _ _ _, ?_⟩
  decide +kernel

end TransportHub
