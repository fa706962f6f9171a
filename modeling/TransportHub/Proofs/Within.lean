import TransportHub.Proofs.DeviceDeliveries
import TransportHub.Proofs.Draining
import TransportHub.Proofs.Joins
/-!
Within: a shutdown that a listener calls for, on one of the workers that it is to end. The call waits for all the
others and passes this one over, which goes on with the batch it has in hand and leaves at its next look.
-/

set_option autoImplicit false

namespace TransportHub

open DataLanes (Slot)
open Relation (ReflTransGen TransGen)

variable {config : Config} {hooks : List Hook} {past before since : List Moment} {m : Machine} {t u w : ThreadId}
  {job : Job} {later : List Job} {x y : Moment} {slot : Slot} {id : LaneId} {lane : DataLane}

-- A worker calls for the shutdown that begins termination, and nobody else is inside the report of a connection.
structure CalledWithin (before : List Moment) (x : Moment) : Prop where
  worker : dispatches before x.thread
  raises : x.job = .hub .raiseTermination
  first : x.machine.hub.terminating = false
  alone : ∀ u, u ≠ x.thread → ∀ d c, .hub (.connectionStarted d c) ∉ x.machine.agenda u

theorem asks_iff : job.asks = true ↔ ∃ d c, job = .hub (.connectionStarted d c) := by
  constructor
  · intro asks
    cases job with
    | hub job => cases job <;> first | exact ⟨_, _, rfl⟩ | cases asks
    | _ => cases asks
  · rintro ⟨d, c, rfl⟩
    rfl

theorem others_all {P : Job → Prop} : (∀ u, u ≠ t → ∀ j ∈ m.agenda u, P j) ↔
    ∀ i : Fin m.agendas.length, i.val ≠ t.val → ∀ j ∈ m.agendas.get i, P j := by
  constructor
  · intro all i other j member
    refine all ⟨i.val⟩ (fun same => other (congrArg ThreadId.val same)) j ?_
    rw [agenda_eq, List.getElem?_eq_getElem i.isLt]
    exact member
  · intro all u other j member
    rw [agenda_eq] at member
    cases known : m.agendas[u.val]? with
    | none => simp [known] at member
    | some agenda =>
        obtain ⟨bound, rfl⟩ := List.getElem?_eq_some_iff.mp known
        exact all ⟨u.val, bound⟩ (ne_val other.symm) j (by simpa [known] using member)

def Job.raises : Job → Bool
  | .hub job => job = .raiseTermination
  | _ => false

theorem raises_iff : job.raises = true ↔ job = .hub .raiseTermination := by
  cases job <;> simp [Job.raises]

instance (before : List Moment) (x : Moment) : Decidable (CalledWithin before x) :=
  decidable_of_iff (dispatches before x.thread ∧ x.job.raises = true ∧ x.machine.hub.terminating = false ∧
      ∀ i : Fin x.machine.agendas.length, i.val ≠ x.thread.val → ∀ j ∈ x.machine.agendas.get i, j.asks = false) <| by
    rw [← others_all (P := fun j => j.asks = false), raises_iff]
    constructor
    · rintro ⟨worker, raises, first, alone⟩
      refine ⟨worker, raises, first, fun u other d c member => ?_⟩
      cases alone u other _ member
    · rintro ⟨worker, raises, first, alone⟩
      refine ⟨worker, raises, first, fun u other j member => Bool.eq_false_iff.mpr fun asks => ?_⟩
      obtain ⟨d, c, rfl⟩ := asks_iff.mp asks
      exact alone u other d c member

-- The call has written its last record, and its thread goes on with what stood behind the call.
def Returned (x : Moment) (since : List Moment) : Prop :=
  ∃ y ∈ since, y.thread = x.thread ∧ y.job = Job.logHub .shutDown ∧ y.later = x.later

def Job.closing : Job → Bool
  | .hub job => (job matches .stopAdapters)
  | .log record => (record matches .hub .shutDown)
  | _ => false

-- The call stands in front of what its thread goes on with afterwards.
def Underway (x : Moment) (m : Machine) : Prop := ∃ front j, m.agenda x.thread = front ++ j :: x.later ∧ j.closing = true

theorem kept_behind (front back : List Job) {j : Job} (unmarked : ∀ d, j ≠ .participant (.delivered d))
    (outside : j ∉ cut (front ++ j :: back)) : ∃ left, kept (front ++ j :: back) = left ++ j :: back := by
  rcases unwound (front ++ j :: back) with ⟨d, rest, split, left⟩ | ⟨split, _⟩
  · rcases List.append_eq_append_iff.mp split with ⟨more, parts, behind⟩ | ⟨more, parts, behind⟩
    · rcases List.cons_eq_append_iff.mp behind with ⟨rfl, same⟩ | ⟨more, rfl, _⟩
      · exact absurd (List.cons.inj same).1.symm (unmarked d)
      · exact absurd (by rw [parts]; simp) outside
    · rcases List.cons_eq_append_iff.mp behind with ⟨rfl, same⟩ | ⟨more, rfl, rest⟩
      · exact absurd (List.cons.inj same).1 (unmarked d)
      · exact ⟨ParticipantJob.afterPanic d ++ more, by rw [left, rest, List.append_assoc]⟩
  · exact absurd (split ▸ List.mem_append_right _ (List.mem_cons_self ..)) outside

theorem closing_cases (closing : job.closing = true) : job = .hub .stopAdapters ∨ job = Job.logHub .shutDown := by
  cases job with
  | log record =>
      cases record with
      | hub record => cases record <;> first | exact .inr rfl | cases closing
      | _ => cases closing
  | hub job => cases job <;> first | exact .inl rfl | cases closing
  | _ => cases closing

theorem closing_pinned (closing : job.closing = true) :
    Fence.procedures.pinned job = true ∧ ∀ d, job ≠ .participant (.delivered d) := by
  rcases closing_cases closing with rfl | rfl <;> exact ⟨rfl, fun _ none => by cases none⟩

theorem CalledWithin.begins (called : CalledWithin before x) : (x.job.exec x.machine x.thread).2 =
    [.acquire .lifecycle, .release .lifecycle, Job.logHub .shuttingDown, .hub .stopAdapters] := by
  rw [called.raises, (Once.raised _ _).2, called.first]
  rfl

theorem stop_ends (m : Machine) (t : ThreadId) : ∃ front, ((Job.hub .stopAdapters).exec m t).2 = front ++ [Job.logHub .shutDown] :=
  ⟨m.hub.registry.ids.flatMap (Plan.withdraw · .shutdown) ++ [.deviceLane .wake, .dataLane (.close m.hub.config.joinWorkers)] ++
    (if m.hub.config.joinWorkers then [.deviceLane .join] else []) ++ [.hub .clearConnections, .hub .halt],
    by simp [Job.exec, HubJob.exec, HubJob.shutDownAll]⟩

theorem Underway.carry (underway : Underway x m) (known : x.thread.val < m.agendas.length) (agenda : m.agenda t = job :: later) :
    Underway x (m.carry t job later) ∨ (t = x.thread ∧ job = Job.logHub .shutDown ∧ later = x.later) := by
  obtain ⟨front, j, same, closing⟩ := underway
  by_cases mine : x.thread = t
  · subst mine
    rw [agenda] at same
    rcases List.cons_eq_append_iff.mp same with ⟨rfl, first⟩ | ⟨front, rfl, rfl⟩
    · obtain ⟨rfl, rfl⟩ := List.cons.inj first
      rcases closing_cases closing with rfl | rfl
      · obtain ⟨front, whole⟩ := stop_ends m x.thread
        refine .inl ⟨front, Job.logHub .shutDown, ?_, rfl⟩
        rw [agenda_carry_self agenda, whole, List.append_assoc]
        rfl
      · exact .inr ⟨rfl, rfl, rfl⟩
    · refine .inl ⟨(job.exec m x.thread).2 ++ front, j, ?_, closing⟩
      rw [agenda_carry_self agenda, List.append_assoc]
  · exact .inl ⟨front, j, (agenda_carry_old mine known).trans same, closing⟩

theorem Underway.unwind (underway : Underway x m) (run : Run config hooks past m) (agenda : m.agenda t = .panic :: later)
    (hooked : Moment.hookSafe ⟨m, t, .panic, later⟩) (adapted : Moment.adapterSafe ⟨m, t, .panic, later⟩) :
    Underway x (m.unwind t later) := by
  obtain ⟨front, j, same, closing⟩ := underway
  by_cases mine : x.thread = t
  · subst mine
    rw [agenda] at same
    rcases List.cons_eq_append_iff.mp same with ⟨rfl, first⟩ | ⟨front, rfl, rfl⟩
    · rw [(List.cons.inj first).1] at closing
      cases closing
    · obtain ⟨pinned, unmarked⟩ := closing_pinned closing
      obtain ⟨left, still⟩ := kept_behind front x.later unmarked fun inside => by
        rw [run.procedures_stay agenda hooked adapted j inside] at pinned
        cases pinned
      exact ⟨left, j, (agenda_unwind_self agenda).trans still, closing⟩
  · exact ⟨front, j, (agenda_unwind_other mine).trans same, closing⟩

theorem Run.underway (run : Run config hooks past m) (split : past = before ++ x :: since) (called : CalledWithin before x)
    (safe : ∀ y ∈ since, y.hookSafe ∧ y.adapterSafe) : Returned x since ∨ Underway x m := by
  obtain ⟨reached, agenda⟩ := run.before ⟨since, by rw [split, List.append_assoc]; rfl⟩
  have apart := (reached.dispatcher_known called.worker).1
  have bound : ∀ {since m}, Run config hooks (before ++ x :: since) m → x.thread.val < m.agendas.length := fun run =>
    run.threads_known x (by simp)
  refine Run.induct_since (G := fun y => y.hookSafe ∧ y.adapterSafe) (P := fun since m => Returned x since ∨ Underway x m)
    ?begins ?call ?client ?carry ?unwind run split (fun none => by rw [called.raises] at none; cases none) safe
  case begins =>
    refine .inr ⟨[.acquire .lifecycle, .release .lifecycle, Job.logHub .shuttingDown], .hub .stopAdapters, ?_, rfl⟩
    rw [agenda_carry_self agenda, called.begins]
    rfl
  case call =>
    exact fun op _ held _ => held.imp_right fun ⟨front, j, same, closing⟩ =>
      ⟨front, j, (agenda_beginWith_other apart _).trans same, closing⟩
  case client =>
    exact fun name op run held => held.imp_right fun ⟨front, j, same, closing⟩ =>
      ⟨front, j, (agenda_client_old (bound run)).trans same, closing⟩
  case carry =>
    intro since m t job later run held agenda _ _ _
    rcases held with ⟨y, seen, gone⟩ | underway
    · exact .inl ⟨y, List.mem_append_left _ seen, gone⟩
    rcases underway.carry (bound run) agenda with still | ⟨rfl, rfl, rfl⟩
    · exact .inr still
    · exact .inl ⟨_, List.mem_append_right _ (List.mem_singleton.mpr rfl), rfl, rfl, rfl⟩
  case unwind =>
    intro since m t later run held agenda safe
    rcases held with ⟨y, seen, gone⟩ | underway
    · exact .inl ⟨y, List.mem_append_left _ seen, gone⟩
    · exact .inr (underway.unwind run agenda safe.1 safe.2)

theorem CalledWithin.unasked (called : CalledWithin before x) (reached : Run config hooks before x.machine)
    (agenda : x.machine.agenda x.thread = x.job :: x.later) (u : ThreadId) : ∀ job ∈ x.machine.agenda u, job.asks = false := by
  intro job member
  by_cases mine : u = x.thread
  · subst mine
    have undivided := reached.undivided x.thread
    rw [agenda, called.raises] at undivided member
    rcases List.mem_cons.mp member with rfl | behind
    · rfl
    · exact undivided.1 (reached.dispatcher_known called.worker).1 rfl job behind
  · refine Bool.eq_false_iff.mpr fun asks => ?_
    obtain ⟨d, c, rfl⟩ := asks_iff.mp asks
    exact called.alone u mine d c member

theorem CalledWithin.winding (called : CalledWithin before x) (run : Run config hooks past m) (split : past = before ++ x :: since) :
    Winding m := by
  obtain ⟨reached, agenda⟩ := run.before ⟨since, by rw [split, List.append_assoc]; rfl⟩
  exact run.winds split called.raises (called.unasked reached agenda)

theorem CalledWithin.unstopped (called : CalledWithin before x) (reached : Run config hooks before x.machine)
    (agenda : x.machine.agenda x.thread = x.job :: x.later) (managed : ∀ y ∈ before, y.managed) :
    .hub .stopAdapters ∉ x.later ∧ .hub .halt ∉ x.later := by
  have unended : ¬ x.machine.hub.terminating = true := by simp [called.first]
  have behind : ∀ j ∈ x.later, j ∈ x.machine.agenda x.thread := fun j late => agenda ▸ List.mem_cons_of_mem _ late
  exact ⟨fun late => unended (reached.windsUp_ending x.thread _ (behind _ late) rfl),
    fun late => unended (reached.dismantles_ending managed (behind _ late) rfl)⟩

theorem Run.returned_halted (run : Run config hooks past m) (split : past = before ++ x :: since) (called : CalledWithin before x)
    (managed : ∀ x ∈ past, x.managed) (safe : ∀ x ∈ past, x.hookSafe ∧ x.adapterSafe) (returned : Returned x since) :
    ∃ z ∈ since, z.thread = x.thread ∧ z.job = .hub .halt := by
  obtain ⟨y, seen, thread, writes, behind⟩ := returned
  obtain ⟨front, back, rfl⟩ := List.append_of_mem seen
  have whole : past = (before ++ x :: front) ++ y :: back := by rw [split]; simp
  have old : ∀ z ∈ before ++ x :: front, z ∈ past := fun z here => by rw [whole]; exact List.mem_append_left _ here
  have calm : ∀ z ∈ before ++ x :: front, z.hookSafe ∧ z.adapterSafe := fun z here => safe z (old z here)
  obtain ⟨reached, agenda⟩ : Run config hooks (before ++ x :: front) y.machine ∧ y.machine.agenda y.thread = y.job :: y.later :=
    run.before ⟨back, by rw [whole]; simp⟩
  obtain ⟨first, begun⟩ : Run config hooks before x.machine ∧ x.machine.agenda x.thread = x.job :: x.later :=
    run.before ⟨front ++ y :: back, by rw [split]; simp⟩
  have unstopped := called.unstopped first begun fun z here => managed z (old z (List.mem_append_left _ here))
  rw [thread, writes, behind] at agenda
  -- So the thread has done both since, for neither stands behind the last record.
  obtain ⟨z, inside, worker, stops⟩ : ∃ z ∈ front, z.thread = x.thread ∧ z.job = .hub .stopAdapters := by
    refine (reached.carried_out calm rfl (fun _ none => by cases none) rfl (by rw [called.begins]; simp)).resolve_right ?_
    rw [agenda]
    exact List.not_mem_cons_of_ne_of_not_mem (fun none => by cases none) unstopped.1
  obtain ⟨left, right, rfl⟩ := List.append_of_mem inside
  obtain ⟨last, here, same, halts⟩ : ∃ last ∈ right, last.thread = z.thread ∧ last.job = .hub .halt := by
    have parts : before ++ x :: (left ++ z :: right) = (before ++ x :: left) ++ z :: right := by simp
    refine (reached.carried_out calm rfl (fun _ none => by cases none) parts
      (by rw [stops]; simp [Job.exec, HubJob.exec, HubJob.shutDownAll])).resolve_right ?_
    rw [worker, agenda]
    exact List.not_mem_cons_of_ne_of_not_mem (fun none => by cases none) unstopped.2
  exact ⟨last, by simp [here], same.trans worker, halts⟩

theorem Returned.more (returned : Returned x since) (back : List Moment) : Returned x (since ++ back) := by
  obtain ⟨y, seen, rest⟩ := returned
  exact ⟨y, List.mem_append_left _ seen, rest⟩

theorem Run.halted_within (run : Run config hooks past m) (split : past = before ++ x :: since) (called : CalledWithin before x)
    (managed : ∀ x ∈ past, x.managed) (safe : ∀ x ∈ past, x.hookSafe ∧ x.adapterSafe) (returned : Returned x since) :
    Halted past := by
  obtain ⟨z, here, _, halts⟩ := run.returned_halted split called managed safe returned
  exact ⟨z, by rw [split]; simp [here], halts⟩

def Job.writes : Job → Bool
  | .log _ => true
  | _ => false

theorem writes_next (writes : job.writes = true) (apart : t ≠ .caller) : (job.exec m t).2 = [] := by
  cases job with
  | log record => simp only [Job.exec, Machine.log, if_neg apart]
  | _ => cases writes

def Moment.leaves (y : Moment) : Prop := y.job.looks = true ∧ ∀ j ∈ (y.job.exec y.machine y.thread).2 ++ y.later, j.writes = true

def Moment.discards (y : Moment) (n : Nat) : Prop :=
  (y.job.exec y.machine y.thread).1.hub.metrics.discarded = y.machine.hub.metrics.discarded + n

-- What comes of a worker's look at its queue when termination has begun.
inductive FinalLook (y : Moment) : Prop where
  | device (looks : y.job = .deviceLane .look) (leaves : y.leaves) (discards : y.discards y.machine.hub.deviceLane.queue.length)
  | live {id : LaneId} {lane : DataLane} (looks : y.job = .dataLane (.look id)) (known : y.machine.hub.dataLanes.lane? id = some lane)
      (running : lane.stopping = false) (leaves : y.leaves) (discards : y.discards lane.items.length)
  | drained {id : LaneId} {lane : DataLane} (looks : y.job = .dataLane (.look id))
      (known : y.machine.hub.dataLanes.lane? id = some lane)
      (stopped : lane.stopping = true) (empty : lane.items = []) (leaves : y.leaves) (discards : y.discards 0)
  | drains {id : LaneId} {lane : DataLane} (looks : y.job = .dataLane (.look id))
      (known : y.machine.hub.dataLanes.lane? id = some lane)
      (stopped : lane.stopping = true) (full : lane.items ≠ [])
      (takes : (y.job.exec y.machine y.thread).2 = [.dataLane (.snapshot lane.connection lane.items), .dataLane (.look id)])

theorem lane_look (known : m.hub.dataLanes.lane? id = some lane) (ending : m.hub.terminating = true) :
    FinalLook ⟨m, t, .dataLane (.look id), []⟩ := by
  have next : (Job.exec m t (.dataLane (.look id))).2 = (DataLaneJob.lookAtLane m id lane).2 := by
    simp only [Job.exec, DataLaneJob.exec, known]
  have thrown : Moment.discards ⟨m, t, .dataLane (.look id), []⟩ (if lane.stopping then 0 else lane.items.length) := by
    simp only [Moment.discards, discarded_adds, Job.throws, Job.thrown, Job.cuts, known, ending, decide_true, Bool.and_self,
      Bool.true_and, Option.any_some, Option.elim_some]
    cases lane.stopping <;> rfl
  rcases DataLane.look_cases m.hub.terminating lane with ⟨_, running, seen⟩ | ⟨empty, stopped, seen⟩ | ⟨none, _⟩ | ⟨full, cause, seen⟩
  · rw [running] at thrown
    refine .live rfl known running ⟨rfl, ?_⟩ thrown
    rw [next]
    simp only [DataLaneJob.lookAtLane, seen]
    split <;> simp [Job.logDataLane, Job.writes]
  · rw [stopped] at thrown
    refine .drained rfl known stopped empty ⟨rfl, ?_⟩ thrown
    rw [next]
    simp [DataLaneJob.lookAtLane, seen, Job.logDataLane, Job.writes]
  · rw [ending] at none
    cases none
  · refine .drains rfl known (cause.resolve_left fun none => by rw [ending] at none; cases none) full ?_
    rw [next]
    simp only [DataLaneJob.lookAtLane, seen]

theorem Run.final_look (run : Run config hooks past m) (agenda : m.agenda t = job :: later) (ending : m.hub.terminating = true)
    (looks : job.looks = true) : FinalLook ⟨m, t, job, later⟩ := by
  have last := run.looks_last t
  have enlisted := run.enlisted.2 t
  rw [agenda] at last enlisted
  obtain rfl := last.1.1 looks
  cases job with
  | deviceLane j =>
      cases j with
      | look =>
          refine .device rfl ⟨rfl, ?_⟩ ?_
          · simp only [Job.exec, DeviceLaneJob.exec, DeviceLaneJob.lookAtQueue, DeviceLane.look, ending, if_true]
            split <;> simp [Job.logDeviceLane, Job.writes]
          · simp [Moment.discards, discarded_adds, Job.throws, ending]
      | _ => cases looks
  | dataLane j =>
      cases j with
      | look id =>
          obtain ⟨lane, known⟩ := lane_known (run.rostered.known _ enlisted.1).1
          exact lane_look known ending
      | _ => cases looks
  | _ => cases looks

theorem look_goes_on (m : Machine) (t : ThreadId) (looks : job.looks = true) :
    (∃ j ∈ (job.exec m t).2, j.looks = true) ∨ ∀ j ∈ (job.exec m t).2, j.writes = true := by
  cases job with
  | deviceLane j =>
      cases j with
      | look =>
          simp only [Job.exec, DeviceLaneJob.exec, DeviceLaneJob.lookAtQueue]
          split
          · exact .inl ⟨_, List.mem_singleton.mpr rfl, rfl⟩
          · exact .inl ⟨.deviceLane .look, by simp, rfl⟩
          · refine .inr ?_
            split <;> simp [Job.logDeviceLane, Job.writes]
      | _ => cases looks
  | dataLane j =>
      cases j with
      | look id =>
          simp only [Job.exec, DataLaneJob.exec]
          split
          · simp only [DataLaneJob.lookAtLane]
            split
            · exact .inl ⟨_, List.mem_singleton.mpr rfl, rfl⟩
            · exact .inl ⟨.dataLane (.look id), by simp, rfl⟩
            · exact .inr (by simp [Job.logDataLane, Job.writes])
            · refine .inr ?_
              split <;> simp [Job.logDataLane, Job.writes]
          · exact .inr fun _ none => by cases none
      | _ => cases looks
  | _ => cases looks

theorem looks_crew (looks : job.looks = true) : job.crew = true := by
  cases job with
  | deviceLane job | dataLane job => cases job <;> first | rfl | cases looks
  | _ => cases looks

theorem Run.staying (run : Run config hooks past m) : ∀ w, dispatches past w →
    (∃ j ∈ m.agenda w, j.looks = true) ∨ ∃ y ∈ past, y.thread = w ∧ y.leaves := by
  refine Run.induct (G := fun _ => True) (P := fun past m => ∀ w, dispatches past w →
      (∃ j ∈ m.agenda w, j.looks = true) ∨ ∃ y ∈ past, y.thread = w ∧ y.leaves)
    ?construct ?assemble ?call ?client ?carry ?unwind run fun _ _ => trivial
  case construct | assemble => rintro _ w (none | ⟨_, none, _⟩) <;> cases none
  case call =>
    intro past m op run before _ w works
    rw [agenda_beginWith_other (run.dispatcher_known works).1]
    exact before w works
  case client =>
    intro past m name op run before w works
    rw [agenda_client_old (run.dispatcher_known works).2]
    exact before w works
  case carry =>
    intro past m t job later run before agenda _ _ _ w works
    rcases dispatches_new works with old | mans | ⟨slot, opens, rfl⟩
    · rcases before w old with ⟨j, pending, looks⟩ | gone
      · rcases mem_agenda_carry run agenda pending with still | ⟨rfl, rfl⟩
        · exact .inl ⟨j, still, looks⟩
        · have last := run.looks_last w
          rw [agenda] at last
          obtain rfl := last.1.1 looks
          rcases look_goes_on m w looks with ⟨next, here, again⟩ | writes
          · exact .inl ⟨next, by rw [agenda_carry_self agenda]; exact List.mem_append_left _ here, again⟩
          · refine .inr ⟨_, List.mem_append_right _ (List.mem_singleton.mpr rfl), rfl, looks, ?_⟩
            rwa [List.append_nil]
      · exact .inr (seen_before gone)
    · refine .inl ⟨.deviceLane .look, ?_, rfl⟩
      rw [agenda_carry_manned agenda mans]
      exact List.mem_cons_of_mem _ (List.mem_singleton.mpr rfl)
    · obtain ⟨_, c, fresh⟩ := agenda_carry_opened agenda opens
      exact .inl ⟨.dataLane (.look slot.lane), by rw [fresh]; exact List.mem_cons_of_mem _ (List.mem_singleton.mpr rfl), rfl⟩
  case unwind =>
    intro past m t later run before agenda _ w works
    rcases before w (dispatches_panic works) with ⟨j, pending, looks⟩ | gone
    · refine .inl ⟨j, mem_agenda_unwind agenda pending (fun inside => ?_) (fun d none => by rw [none] at looks; cases looks)
        (fun none => by rw [none] at looks; cases looks), looks⟩
      have crew := run.crew_stays agenda j inside
      rw [looks_crew looks] at crew
      cases crew
    · exact .inr (seen_before gone)

theorem Run.gone_for_good (run : Run config hooks past m) (split : past = before ++ y :: since) (apart : y.thread ≠ .caller)
    (leaves : y.leaves) :
    (∀ z ∈ since, z.thread = y.thread → z.job.writes = true) ∧ ∀ j ∈ m.agenda y.thread, j.writes = true := by
  have agenda := (run.before ⟨since, by rw [split, List.append_assoc]; rfl⟩).2
  have bound : ∀ {since m}, Run config hooks (before ++ y :: since) m → y.thread.val < m.agendas.length := fun run =>
    run.threads_known y (by simp)
  refine Run.induct_since (G := fun _ => True)
    (P := fun since m => (∀ z ∈ since, z.thread = y.thread → z.job.writes = true) ∧ ∀ j ∈ m.agenda y.thread, j.writes = true)
    ?begins ?call ?client ?carry ?unwind run split
      (fun none => by have looks := leaves.1; rw [none] at looks; cases looks) fun _ _ => trivial
  case begins =>
    refine ⟨fun _ none => (by cases none), ?_⟩
    rw [agenda_carry_self agenda]
    exact leaves.2
  case call => exact fun op _ held _ => ⟨held.1, by rw [agenda_beginWith_other apart]; exact held.2⟩
  case client => exact fun name op run held => ⟨held.1, by rw [agenda_client_old (bound run)]; exact held.2⟩
  case carry =>
    intro since m t job later run held agenda _ _ _
    by_cases mine : y.thread = t
    · subst mine
      have writing := held.2
      rw [agenda] at writing
      have here := writing job (List.mem_cons_self ..)
      refine ⟨List.forall_mem_append.mpr ⟨held.1, List.forall_mem_singleton.mpr fun _ => here⟩, ?_⟩
      rw [agenda_carry_self agenda, writes_next here apart]
      exact fun j behind => writing j (List.mem_cons_of_mem _ behind)
    · refine ⟨List.forall_mem_append.mpr ⟨held.1, List.forall_mem_singleton.mpr fun same => absurd same.symm mine⟩, ?_⟩
      rw [agenda_carry_old mine (bound run)]
      exact held.2
  case unwind =>
    intro since m t later run held agenda _
    by_cases mine : y.thread = t
    · subst mine
      have none := held.2 .panic (by rw [agenda]; exact List.mem_cons_self ..)
      cases none
    · refine ⟨List.forall_mem_append.mpr ⟨held.1, List.forall_mem_singleton.mpr fun same => absurd same.symm mine⟩, ?_⟩
      rw [agenda_unwind_other mine]
      exact held.2

theorem leaves_idle (leaves : y.leaves) (id : LaneId) : y.job.taken y.machine id = [] ∧ y.job.gathers y.machine = none := by
  obtain ⟨m, t, job, later⟩ := y
  obtain ⟨looks, writes⟩ := leaves
  simp only at looks writes ⊢
  cases job with
  | deviceLane j =>
      cases j with
      | look =>
          refine ⟨rfl, ?_⟩
          simp only [Job.gathers, Job.exec, DeviceLaneJob.exec, DeviceLaneJob.lookAtQueue] at writes ⊢
          split
          · rename_i taken
            rw [taken] at writes
            cases writes (.deviceLane .look) (by simp)
          · rfl
      | _ => cases looks
  | dataLane j =>
      cases j with
      | look other =>
          refine ⟨?_, rfl⟩
          simp only [Job.taken]
          split
          · subst other
            cases known : m.hub.dataLanes.lane? id with
            | none => rfl
            | some lane =>
                simp only [Job.exec, DataLaneJob.exec, known, DataLaneJob.lookAtLane] at writes
                cases seen : (lane.look m.hub.terminating).1 with
                | take batch =>
                    rw [seen] at writes
                    cases writes (.dataLane (.look id)) (by simp)
                | _ => simp [seen, DataLane.Look.batch]
          · rfl
      | _ => cases looks
  | _ => cases looks

theorem waits_look (m : Machine) (t : ThreadId) (looks : job.looks = true) :
    Each (fun _ rest => rest.flatMap Job.waits = []) (job.exec m t).2 := by
  have unwaiting : ∀ {jobs : List Job}, (∀ j ∈ jobs, j.waits = []) → Each (fun _ rest => rest.flatMap Job.waits = []) jobs :=
    fun none => each_split fun front j rest split => List.flatMap_eq_nil_iff.mpr fun k behind =>
      none k (by rw [split]; exact List.mem_append_right _ (List.mem_cons_of_mem _ behind))
  have records : ∀ {front back : List Job}, (∀ j ∈ front, j.writes = true) → (∀ j ∈ back, j.writes = true) →
      Each (fun _ rest => rest.flatMap Job.waits = []) (front ++ back) := fun front back => unwaiting fun j member => by
    have writes := (List.mem_append.mp member).elim (front j) (back j)
    cases j <;> first | rfl | cases writes
  cases job with
  | deviceLane j =>
      cases j with
      | look =>
          simp only [Job.exec, DeviceLaneJob.exec, DeviceLaneJob.lookAtQueue]
          split
          · exact ⟨rfl, trivial⟩
          · refine unwaiting fun j member => ?_
            simp only [List.mem_append, List.mem_cons, List.mem_map, List.not_mem_nil, or_false] at member
            rcases member with (rfl | ⟨_, _, rfl⟩) | rfl | rfl <;> rfl
          · refine records ?_ (List.forall_mem_singleton.mpr rfl)
            split <;> simp [Job.logDeviceLane, Job.writes]
      | _ => cases looks
  | dataLane j =>
      cases j with
      | look id =>
          simp only [Job.exec, DataLaneJob.exec]
          split
          · simp only [DataLaneJob.lookAtLane]
            split
            · exact ⟨rfl, trivial⟩
            · exact ⟨rfl, rfl, trivial⟩
            · exact ⟨rfl, trivial⟩
            · refine records ?_ (by simp [Job.logDataLane, Job.writes])
              split <;> simp [Job.logDataLane, Job.writes]
          · trivial
      | _ => cases looks
  | _ => cases looks

theorem Run.waits_first (run : Run config hooks past m) (u : ThreadId) :
    Each (fun _ rest => rest.flatMap Job.waits = []) (m.agenda u) := by
  refine Run.each (G := fun _ => True) (P := fun _ _ rest => rest.flatMap Job.waits = []) ?fresh ?next ?caught run
    (fun _ _ => trivial) u
  case fresh =>
    intro u agenda fresh
    cases fresh <;> first | exact ⟨rfl, rfl, trivial⟩ | exact ⟨rfl, trivial⟩
  case next =>
    intro past m t job later run each agenda _ _ _
    have first := each t
    have last := run.looks_last t
    rw [agenda] at first last
    cases looks : job.looks with
    | true =>
        rw [last.1.1 looks]
        simpa only [List.append_nil] using waits_look m t looks
    | false =>
        refine each_split fun front j rest split => ?_
        have none := waits_next m t job looks
        rw [split] at none
        simp only [List.flatMap_append, List.flatMap_cons, List.append_eq_nil_iff] at none ⊢
        exact ⟨none.2.2, first.1⟩
  case caught =>
    intro u d rest each
    exact ⟨each.1, each.1, each.2⟩

theorem waits_kept (none : later.flatMap Job.waits = []) : (kept later).flatMap Job.waits = [] := by
  rcases unwound later with ⟨d, rest, split, left⟩ | ⟨_, left⟩
  · rw [split] at none
    rw [left]
    simp only [List.flatMap_append, List.flatMap_cons, List.append_eq_nil_iff] at none ⊢
    exact ⟨rfl, none.2.2⟩
  · rw [left]
    rfl

theorem Run.unwaiting (run : Run config hooks past m) (split : past = before ++ x :: since) (called : CalledWithin before x)
    (leaves : ∀ y ∈ since, y.thread = x.thread → y.job.looks = true → y.leaves) : (m.agenda x.thread).flatMap Job.waits = [] := by
  obtain ⟨reached, agenda⟩ := run.before ⟨since, by rw [split, List.append_assoc]; rfl⟩
  have apart := (reached.dispatcher_known called.worker).1
  have bound : ∀ {since m}, Run config hooks (before ++ x :: since) m → x.thread.val < m.agendas.length := fun run =>
    run.threads_known x (by simp)
  refine Run.induct_since (G := fun y => y.thread = x.thread → y.job.looks = true → y.leaves)
    (P := fun _ m => (m.agenda x.thread).flatMap Job.waits = []) ?begins ?call ?client ?carry ?unwind run split
    (fun none => by rw [called.raises] at none; cases none) leaves
  case begins =>
    have prompt := reached.waits_first x.thread
    rw [agenda] at prompt
    rw [agenda_carry_self agenda, called.begins, List.flatMap_append, prompt.1]
    rfl
  case call => exact fun op _ none _ => by rwa [agenda_beginWith_other apart]
  case client => exact fun name op run none => by rwa [agenda_client_old (bound run)]
  case carry =>
    intro since m t job later run none agenda _ _ leaving
    by_cases mine : x.thread = t
    · subst mine
      rw [agenda, List.flatMap_cons, List.append_eq_nil_iff] at none
      rw [agenda_carry_self agenda, List.flatMap_append, none.2, List.append_nil]
      cases looks : job.looks with
      | true =>
          refine List.flatMap_eq_nil_iff.mpr fun j member => ?_
          have writes := (leaving rfl looks).2 j (List.mem_append_left _ member)
          cases j <;> first | rfl | cases writes
      | false => exact waits_next m x.thread job looks
    · rwa [agenda_carry_old mine (bound run)]
  case unwind =>
    intro since m t later run none agenda _
    by_cases mine : x.thread = t
    · subst mine
      rw [agenda, List.flatMap_cons, List.append_eq_nil_iff] at none
      rw [agenda_unwind_self agenda]
      exact waits_kept none.2
    · rwa [agenda_unwind_other mine]

theorem calls_none {r : Round} (looks : job.looks = false) (gathers : job.gathers m = some r) (none : job.waits = []) :
    r.calls = [] := by
  cases job with
  | deviceLane j => cases j <;> first | (cases looks; done) | cases gathers
  | dataLane j =>
      cases j with
      | snapshot c batch =>
          cases gathers
          obtain rfl : batch = [] := none
          rfl
      | _ => cases gathers
  | _ => cases gathers

theorem Run.told_within (run : Run config hooks past m) (split : past = before ++ x :: since) (called : CalledWithin before x) :
    (x.machine.agenda x.thread).flatMap Job.owes ++ (roundsOf x.thread since).flatMap Round.calls =
      heardFrom x.thread since ++ (m.agenda x.thread).flatMap Job.owes := by
  have reached := (run.before ⟨since, by rw [split, List.append_assoc]; rfl⟩).1
  have told := reached.told_since (split ▸ run) x.thread
  have still : x.job.gathers x.machine = none ∧ x.job.reaches = [] := by
    rw [called.raises]
    exact ⟨rfl, rfl⟩
  rwa [show roundsOf x.thread (x :: since) = roundsOf x.thread since by simp [roundsOf, still.1],
    show heardFrom x.thread (x :: since) = heardFrom x.thread since by simp [heardFrom, still.2]] at told

theorem Run.rest_handed (run : Run config hooks past m) (split : past = before ++ x :: since) (called : CalledWithin before x)
    (leaves : ∀ y ∈ since, y.thread = x.thread → y.job.looks = true → y.leaves) :
    (x.machine.agenda x.thread).flatMap Job.owes = heardFrom x.thread since ++ (m.agenda x.thread).flatMap Job.owes := by
  have quiet : (roundsOf x.thread since).flatMap Round.calls = [] := by
    refine List.flatMap_eq_nil_iff.mpr fun r member => ?_
    obtain ⟨y, seen, gathers⟩ := List.mem_filterMap.mp member
    split at gathers
    · rename_i mine
      cases looks : y.job.looks with
      | true =>
          rw [(leaves_idle (leaves y seen mine looks) ⟨0⟩).2] at gathers
          cases gathers
      | false =>
          obtain ⟨front, back, rfl⟩ := List.append_of_mem seen
          have start : (before ++ x :: front) ++ [y] <+: past := ⟨back, by rw [split]; simp⟩
          obtain ⟨there, agenda⟩ := run.before start
          have none := there.unwaiting rfl called fun z here => leaves z (List.mem_append_left _ here)
          rw [← mine, agenda, List.flatMap_cons, List.append_eq_nil_iff] at none
          exact calls_none looks gathers none.1
    · cases gathers
  rw [← run.told_within split called, quiet, List.append_nil]

theorem Run.goes_within (run : Run config hooks past m) (split : past = before ++ x :: since) (called : CalledWithin before x)
    (managed : ∀ x ∈ past, x.managed) (safe : ∀ x ∈ past, x.hookSafe ∧ x.adapterSafe) (unlocked : ∀ x ∈ past, x.lockSafe)
    (joins : config.joinWorkers = true) : Moving m ∧ (m.agenda x.thread ≠ [] → m.rests x.thread = false) := by
  have orderly : ∀ x ∈ past, x.orderly := fun x seen => ⟨managed x seen, (safe x seen).1⟩
  have winding := called.winding run split
  refine ⟨winding.moving run orderly (fun y seen => (safe y seen).2) unlocked (run.unheld split called.raises called.first joins),
    fun busy => Bool.eq_false_iff.mpr fun rests => ?_⟩
  rcases rests_agenda run rests with idle | ⟨job, agenda, looks⟩
  · exact busy idle
  -- A worker that is about to look has returned from the call, so everybody has been woken up.
  have returned : Returned x since := by
    refine (run.underway split called fun y here => safe y (by rw [split]; simp [here])).resolve_right ?_
    rintro ⟨front, j, same, closing⟩
    rw [agenda] at same
    rcases List.cons_eq_append_iff.mp same with ⟨rfl, first⟩ | ⟨front, rfl, none⟩
    · obtain ⟨rfl, _⟩ := List.cons.inj first
      rcases closing_cases closing with rfl | rfl <;> cases looks
    · exact absurd none.symm (List.append_ne_nil_of_right_ne_nil _ (List.cons_ne_nil _ _))
  have halted := run.halted_within split called managed safe returned
  refine busy (run.rest_ended orderly halted (fun slot member same => ?_) rests)
  refine (run.started safe slot member).resolve_right ?_
  rintro (ended | starting)
  · exact busy (same ▸ ended)
  · exact winding.unstarting run managed starting

theorem Run.others_gone (run : Run config hooks past m) (split : past = before ++ x :: since) (called : CalledWithin before x)
    (managed : ∀ x ∈ past, x.managed) (safe : ∀ x ∈ past, x.hookSafe ∧ x.adapterSafe) (joins : config.joinWorkers = true)
    (returned : Returned x since) (works : dispatches past w) (other : w ≠ x.thread) : m.agenda w = [] := by
  have orderly : ∀ x ∈ past, x.orderly := fun x seen => ⟨managed x seen, (safe x seen).1⟩
  obtain ⟨z, here, mine, halts⟩ := run.returned_halted split called managed safe returned
  have ended := run.others_ended joins orderly (show z ∈ past by rw [split]; simp [here]) halts
  rw [mine] at ended
  rcases works with device | ⟨slot, member, rfl⟩
  · exact ended.2 w device other
  · rcases run.started safe slot member with lands | gone | starting
    · exact ended.1 slot lands other
    · exact gone
    · exact absurd starting ((called.winding run split).unstarting run managed)

theorem Run.gone_within (run : Run config hooks past m) (split : past = before ++ x :: since) (called : CalledWithin before x)
    (idle : m.agenda x.thread = []) : ∃ y ∈ since, y.thread = x.thread ∧ y.leaves := by
  have reached := (run.before ⟨since, by rw [split, List.append_assoc]; rfl⟩).1
  have works : dispatches past x.thread := split ▸ dispatches_more called.worker (x :: since)
  obtain ⟨y, seen, mine, leaves⟩ := (run.staying x.thread works).resolve_left fun ⟨_, looking, _⟩ => by
    rw [idle] at looking
    cases looking
  rw [split] at seen
  rcases List.mem_append.mp seen with old | here
  · -- A worker that has left calls for nothing.
    obtain ⟨front, back, rfl⟩ := List.append_of_mem old
    have apart := (reached.dispatcher_known called.worker).1
    have writes := (run.gone_for_good (split.trans (List.append_assoc ..)) (mine ▸ apart) leaves).1 x (by simp) mine.symm
    rw [called.raises] at writes
    cases writes
  · rcases List.mem_cons.mp here with rfl | here
    · have looks := leaves.1
      rw [called.raises] at looks
      cases looks
    · exact ⟨y, here, mine, leaves⟩

theorem Run.unstaffed (run : Run config hooks past m) {front back : List Moment} (split : past = before ++ x :: (front ++ back))
    (called : CalledWithin before x) (managed : ∀ x ∈ past, x.managed) (safe : ∀ x ∈ past, x.hookSafe ∧ x.adapterSafe)
    (returned : Returned x front) : roster back = [] ∧ deviceCrew back = [] := by
  have reached : ∀ {m t job later}, ⟨m, t, job, later⟩ ∈ back → ∃ more, Run config hooks (before ++ x :: (front ++ more)) m ∧
      m.agenda t = job :: later ∧ ∀ y ∈ before ++ x :: (front ++ more), y ∈ past := fun {m t job later} member => by
    obtain ⟨more, rest, rfl⟩ := List.append_of_mem member
    have start : (before ++ x :: (front ++ more)) ++ [⟨m, t, job, later⟩] <+: past := ⟨rest, by rw [split]; simp⟩
    exact ⟨more, (run.before start).1, (run.before start).2, fun y seen => start.subset (List.mem_append_left _ seen)⟩
  constructor
  · refine List.filterMap_eq_nil_iff.mpr fun z member => Option.eq_none_iff_forall_not_mem.mpr fun slot opens => ?_
    obtain ⟨m, t, job, later⟩ := z
    obtain ⟨more, run, agenda, old⟩ := reached member
    obtain ⟨c, rfl, _⟩ := opens_started opens
    have attends := run.attends (fun y seen => managed y (old y seen)) t
    rw [agenda] at attends
    obtain ⟨j, behind, asks⟩ := attends.1.staffs rfl
    have none := (called.winding run rfl).unasked t j (agenda ▸ List.mem_cons_of_mem _ behind)
    rw [none] at asks
    cases asks
  · refine List.filterMap_eq_nil_iff.mpr fun z member => Option.eq_none_iff_forall_not_mem.mpr fun w mans => ?_
    obtain ⟨m, t, job, later⟩ := z
    obtain ⟨more, run, agenda, old⟩ := reached member
    obtain ⟨rfl, _, _⟩ := mans_started mans
    have managed : ∀ y ∈ before ++ x :: (front ++ more), y.managed := fun y seen => managed y (old y seen)
    have halted := run.halted_within rfl called managed (fun y seen => safe y (old y seen)) (returned.more more)
    have none := run.sealed_lane managed (run.halted_sealed managed halted) t
    rw [agenda, weight_cons] at none
    have one : lifecycleGate.guards (.deviceLane .spawn) = 1 := rfl
    omega

-- Nobody waits in a circle with the worker, and it stands still only when it has ended and the call has returned.
structure Unblocked (x : Moment) (since : List Moment) (m : Machine) : Prop where
  apart : ¬ TransGen m.Waits x.thread x.thread
  goes : m.agenda x.thread ≠ [] → ∃ u, ReflTransGen m.Waits x.thread u ∧ (m.step? u).isSome = true
  settled : m.settled → Returned x since ∧ m.agenda x.thread = []

-- A shutdown that a worker calls for: it returns, and then nobody works any more but that worker. That one calls whom
-- it still had to call; at a look it leaves and counts what it throws away, but what was queued on a stopped lane it takes.
structure ShutWithin (before : List Moment) (x : Moment) (since : List Moment) (m : Machine) : Prop where
  returns : Returned x since ∨ Underway x m
  unblocked : (∀ y ∈ before ++ x :: since, y.lockSafe) → Unblocked x since m
  others : Returned x since → ∀ w, dispatches (before ++ x :: since) w → w ≠ x.thread → m.agenda w = []
  told : (x.machine.agenda x.thread).flatMap Job.owes ++ (roundsOf x.thread since).flatMap Round.calls =
    heardFrom x.thread since ++ (m.agenda x.thread).flatMap Job.owes
  rest : (∀ y ∈ since, y.thread = x.thread → y.job.looks = true → y.leaves) →
    (x.machine.agenda x.thread).flatMap Job.owes = heardFrom x.thread since ++ (m.agenda x.thread).flatMap Job.owes
  looks : ∀ y ∈ since, y.thread = x.thread → y.job.looks = true → FinalLook y
  left : ∀ front y back, since = front ++ y :: back → y.thread = x.thread → y.leaves →
    (∀ z ∈ back, z.thread = x.thread → z.job.writes = true) ∧ ∀ j ∈ m.agenda x.thread, j.writes = true
  gone : m.agenda x.thread = [] → ∃ y ∈ since, y.thread = x.thread ∧ y.leaves
  drained : ∀ front s back slot lane, before ++ x :: since = front ++ s :: back → slot ∈ roster front → slot.worker = x.thread →
    s.job = .dataLane (.requestStop slot.lane) → s.machine.hub.dataLanes.lane? slot.lane = some lane →
    Drained slot s lane.items back m
  unstaffed : ∀ front back, since = front ++ back → Returned x front → roster back = [] ∧ deviceCrew back = []

theorem shut_within (run : Run config hooks past m) (split : past = before ++ x :: since) (called : CalledWithin before x)
    (managed : ∀ x ∈ past, x.managed) (safe : ∀ x ∈ past, x.hookSafe ∧ x.adapterSafe) (joins : config.joinWorkers = true) :
    ShutWithin before x since m := by
  obtain ⟨reached, agenda⟩ := run.before ⟨since, by rw [split, List.append_assoc]; rfl⟩
  have apart := (reached.dispatcher_known called.worker).1
  have returns := run.underway split called fun y here => safe y (by rw [split]; simp [here])
  refine ⟨returns, ?unblocked, ?others, run.told_within split called, run.rest_handed split called, ?looks, ?left,
    run.gone_within split called,
    ?drained, ?unstaffed⟩
  case unblocked =>
    intro unlocked
    obtain ⟨moving, busy⟩ := run.goes_within split called managed safe (fun y seen => unlocked y (split ▸ seen)) joins
    have goes : m.agenda x.thread ≠ [] → _ := fun some => moving.progress (busy some)
    have ended : m.settled → m.agenda x.thread = [] := fun stuck => Classical.byContradiction fun some => by
      obtain ⟨u, _, steps⟩ := goes some
      rw [stuck u] at steps
      cases steps
    refine ⟨moving.acyclic, goes, fun stuck => ⟨returns.resolve_right ?_, ended stuck⟩⟩
    rintro ⟨front, j, same, _⟩
    rw [ended stuck] at same
    exact absurd same.symm (List.append_ne_nil_of_right_ne_nil _ (List.cons_ne_nil _ _))
  case others => exact fun returned w works other => run.others_gone split called managed safe joins returned (split ▸ works) other
  case looks =>
    intro y seen _ looks
    obtain ⟨front, back, rfl⟩ := List.append_of_mem seen
    have start : (before ++ x :: front) ++ [y] <+: past := ⟨back, by rw [split]; simp⟩
    obtain ⟨there, agenda⟩ := run.before start
    exact there.final_look agenda (called.winding there rfl).ending looks
  case left =>
    intro front y back parts mine leaves
    have whole : past = (before ++ x :: front) ++ y :: back := by rw [split, parts]; simp
    exact mine ▸ run.gone_for_good whole (mine ▸ apart) leaves
  case drained =>
    intro front s back slot lane parts member _ stops known
    exact run.drains (split.trans parts) member stops known
  case unstaffed =>
    intro front back parts returned
    exact run.unstaffed (by rw [split, parts]) called managed safe returned

-- A listener calls for the shutdown when the first frame comes. Its lane has been stopped meanwhile, with another frame on it.
def withinSession : List Moment × Machine :=
  act (.report ⟨1⟩ (.disconnected {} ⟨4⟩)) (rounds [(20, 0), (17, 2), (4, 1), (19, 2)])
    (act (.report ⟨1⟩ (.received ⟨4⟩ [8])) (rounds [(9, 0)])
      (act (.report ⟨1⟩ (.received ⟨4⟩ [7])) (rounds [(9, 0), (3, 2)])
        (act (.report ⟨1⟩ (.connected {} ⟨4⟩)) (rounds [(24, 0)])
          (solo quietConfig [] [.run, .addDataListener (.fresh { name := "l", script := [⟨.frame, some 0, [.shutdown]⟩] })]))))

theorem call_within : 95 < withinSession.1.length := by decide +kernel

def withinCall : Moment := withinSession.1.get ⟨95, call_within⟩

theorem within_of_drained : CalledWithin (withinSession.1.take 95) withinCall ∧
    (∀ x ∈ withinSession.1, x.managed ∧ x.hookSafe ∧ x.adapterSafe ∧ x.lockSafe) ∧
    ShutWithin (withinSession.1.take 95) withinCall (withinSession.1.drop 96) withinSession.2 ∧
    withinSession.2.agendas.map List.isEmpty = [true, true, true] ∧
    handedBy ⟨2⟩ (withinSession.1.drop 96) = [.received ⟨4⟩ [8]] ∧ withinSession.2.hub.metrics.discarded = 2 := by
  have run : Run quietConfig [] withinSession.1 withinSession.2 :=
    act_run (act_run (act_run (act_run (solo_run _ _ _) _ _) _ _) _ _) _ _
  have split : withinSession.1 = withinSession.1.take 95 ++ withinCall :: withinSession.1.drop 96 :=
    (List.take_append_drop 95 _).symm.trans (congrArg _ (List.drop_eq_getElem_cons call_within))
  have called : CalledWithin (withinSession.1.take 95) withinCall := by decide +kernel
  have calm : ∀ x ∈ withinSession.1, x.managed ∧ x.hookSafe ∧ x.adapterSafe ∧ x.lockSafe := by decide +kernel
  refine ⟨called, calm, ?_, by decide +kernel⟩
  exact shut_within run split called (fun x seen => (calm x seen).1) (fun x seen => ⟨(calm x seen).2.1, (calm x seen).2.2.1⟩) rfl

-- A panic comes out of a log hook while a lane is stopped; a shutdown that a listener calls for after that does not
-- know its worker.
def outlivedSession : List Moment × Machine :=
  act (.report ⟨1⟩ (.disconnected {} ⟨4⟩)) (rounds [(7, 0), (28, 1)])
    (act (.report ⟨1⟩ (.connected {} ⟨4⟩)) (rounds [(24, 0), (2, 2)])
      (solo quietConfig [hookAtStop] [.run, .addDeviceListener (.fresh { name := "l", script := [⟨.up, none, [.shutdown]⟩] })]))

-- An operation that is hooked onto a record waits for a lock of its own thread, and whoever calls for a shutdown
-- waits for it too.
def hookAtStart : Hook := { start := "[device-lane] starting", ops := [.run] }

def blockedSession : List Moment × Machine :=
  act .run (rounds [(8, 0), (11, 1)])
    (act (.report ⟨1⟩ (.received ⟨4⟩ [7])) (rounds [(9, 0)])
      (act (.report ⟨1⟩ (.connected {} ⟨4⟩)) (rounds [(24, 0)])
        (solo quietConfig [hookAtStart] [.addDataListener (.fresh { name := "l", script := [⟨.frame, none, [.shutdown]⟩] })])))

theorem call_outlived : 64 < outlivedSession.1.length := by decide +kernel

theorem call_blocked : 56 < blockedSession.1.length := by decide +kernel

def outlivedCall : Moment := outlivedSession.1.get ⟨64, call_outlived⟩

def blockedCall : Moment := blockedSession.1.get ⟨56, call_blocked⟩

theorem within_disturbed :
    (Run quietConfig [hookAtStop] outlivedSession.1 outlivedSession.2 ∧ CalledWithin (outlivedSession.1.take 64) outlivedCall ∧
      (∀ x ∈ outlivedSession.1, x.managed ∧ x.adapterSafe) ∧ Returned outlivedCall (outlivedSession.1.drop 65) ∧
      dispatches outlivedSession.1 ⟨2⟩ ∧ (outlivedSession.2.agenda ⟨2⟩).isEmpty = false) ∧
    (Run quietConfig [hookAtStart] blockedSession.1 blockedSession.2 ∧ CalledWithin (blockedSession.1.take 56) blockedCall ∧
      (∀ x ∈ blockedSession.1, x.managed ∧ x.hookSafe ∧ x.adapterSafe) ∧ blockedSession.2.settled ∧
      ¬ Returned blockedCall (blockedSession.1.drop 57)) := by
  obtain ⟨called, managed, works, busy, safe, ended⟩ : CalledWithin (outlivedSession.1.take 64) outlivedCall ∧
      (∀ x ∈ outlivedSession.1, x.managed ∧ x.adapterSafe) ∧ dispatches outlivedSession.1 ⟨2⟩ ∧
      (outlivedSession.2.agenda ⟨2⟩).isEmpty = false ∧ (∀ y ∈ outlivedSession.1.drop 65, y.hookSafe ∧ y.adapterSafe) ∧
      (outlivedSession.2.agenda outlivedCall.thread).isEmpty = true := by decide +kernel
  obtain ⟨calls, calm, stuck, silent⟩ : CalledWithin (blockedSession.1.take 56) blockedCall ∧
      (∀ x ∈ blockedSession.1, x.managed ∧ x.hookSafe ∧ x.adapterSafe) ∧
      (∀ k < blockedSession.2.agendas.length, (blockedSession.2.step? ⟨k⟩).isNone = true) ∧
      ∀ y ∈ blockedSession.1.drop 57, y.job.closing = false := by decide +kernel
  have run : Run quietConfig [hookAtStop] outlivedSession.1 outlivedSession.2 := act_run (act_run (solo_run _ _ _) _ _) _ _
  have split : outlivedSession.1 = outlivedSession.1.take 64 ++ outlivedCall :: outlivedSession.1.drop 65 :=
    (List.take_append_drop 64 _).symm.trans (congrArg _ (List.drop_eq_getElem_cons call_outlived))
  refine ⟨⟨run, called, managed, (run.underway split called safe).resolve_right ?_, works, busy⟩,
    act_run (act_run (act_run (solo_run _ _ _) _ _) _ _) _ _, calls, calm, settled_all stuck, ?_⟩
  · rintro ⟨front, j, same, _⟩
    rw [same] at ended
    simp at ended
  · rintro ⟨y, seen, _, writes, _⟩
    have none := silent y seen
    rw [writes] at none
    cases none

end TransportHub
