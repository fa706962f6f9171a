import TransportHub.Proofs.Routine
/-!
Settling: the workers of a hub whose listeners are passive take their turns, in any order. From its own seat
a worker sees nothing of the others' turns, so what it sees depends on the number of its own turns only.
-/

set_option autoImplicit false

namespace TransportHub

open DataLanes (Slot)

variable {config : Config} {hooks : List Hook} {past more : List Moment} {m m' a b : Machine} {t u w : ThreadId}
  {job : Job} {later : List Job} {id : LaneId}

structure Seat where
  device : Bool
  lane : Option LaneId

-- What a worker sees from its seat, whatever the other workers do.
structure Outlook where
  terminating : Bool
  device : Option DeviceLane
  lane : Option DataLane
  audience : List ListenerId
  specs : List (ListenerSpec Op)

def Machine.outlook (m : Machine) (s : Seat) : Outlook where
  terminating := m.hub.terminating
  device := if s.device then some m.hub.deviceLane else none
  lane := s.lane.bind m.hub.dataLanes.lane?
  audience := m.hub.audience .data
  specs := m.cast.specs

-- What a thread noted, newest first.
def Machine.noted (m : Machine) (w : ThreadId) : List Entry := m.trace.filterMap fun e => if e.1 = w then some e.2 else none

def Job.notes : Job → List Entry
  | .log record => [.logged record]
  | .participant (.hear l callback) => [.heard l callback]
  | _ => []

def Seat.suits (s : Seat) (job : Job) : Prop :=
  (job = .deviceLane .look → s.device = true) ∧ ∀ id, job = .dataLane (.look id) → s.lane = some id

structure Routine (job : Job) (t : ThreadId) (m m' : Machine) (device : DeviceLane) (lanes : List DataLane) (cast : Cast) : Prop where
  hub : ∃ metrics, m'.hub = { m.hub with metrics, deviceLane := device, dataLanes := { m.hub.dataLanes with lanes } }
  joined : m'.cast = cast
  trace : m'.trace = job.notes.map (t, ·) ++ m.trace
  listeners : device.listeners = m.hub.deviceLane.listeners
  device : job ≠ .deviceLane .look → device = m.hub.deviceLane
  lanes : ∀ id : LaneId, job ≠ .dataLane (.look id) → lanes[id.val]? = m.hub.dataLanes.lanes[id.val]?
  specs : cast.specs = m.cast.specs
  cast : ∀ l, (∀ callback, job ≠ .participant (.hear l callback)) → cast.listener? l = m.cast.listener? l

theorem routine_lookDevice (m : Machine) (t : ThreadId) : ∃ device lanes cast,
    Routine (.deviceLane .look) t m (Job.exec m t (.deviceLane .look)).1 device lanes cast := by
  simp only [Job.exec, DeviceLaneJob.exec, DeviceLaneJob.lookAtQueue]
  rcases DeviceLane.look_cases m.hub.terminating m.hub.deviceLane with ⟨_, seen⟩ | ⟨_, _, seen⟩ | ⟨_, _, seen⟩ <;> rw [seen] <;>
    exact ⟨_, _, _, ⟨_, rfl⟩, rfl, rfl, rfl, fun apart => absurd rfl apart, fun _ _ => rfl, rfl, fun _ _ => rfl⟩

theorem routine_lookLane (m : Machine) (t : ThreadId) (other : LaneId) : ∃ device lanes cast,
    Routine (.dataLane (.look other)) t m (Job.exec m t (.dataLane (.look other))).1 device lanes cast := by
  have apart : ∀ (lane : DataLane) (id : LaneId), Job.dataLane (.look other) ≠ .dataLane (.look id) →
      (m.hub.dataLanes.lanes.modify other.val fun _ => lane)[id.val]? = m.hub.dataLanes.lanes[id.val]? := fun lane id apart => by
    have different : other.val ≠ id.val := fun same => apart (by cases other; cases id; cases same; rfl)
    simp [different]
  simp only [Job.exec, DataLaneJob.exec]
  split
  · rename_i lane _
    simp only [DataLaneJob.lookAtLane]
    rcases DataLane.look_cases m.hub.terminating lane with ⟨_, _, seen⟩ | ⟨_, _, seen⟩ | ⟨_, _, _, seen⟩ | ⟨_, _, seen⟩ <;>
      rw [seen] <;> exact ⟨_, _, _, ⟨_, rfl⟩, rfl, rfl, rfl, fun _ => rfl, apart _, rfl, fun _ _ => rfl⟩
  · exact ⟨_, _, _, ⟨_, rfl⟩, rfl, rfl, rfl, fun _ => rfl, fun _ _ => rfl, rfl, fun _ _ => rfl⟩

theorem routine_hear (m : Machine) (t : ThreadId) (l : ListenerId) (callback : Callback) : ∃ device lanes cast,
    Routine (.participant (.hear l callback)) t m (Job.exec m t (.participant (.hear l callback))).1 device lanes cast := by
  have apart : ∀ (new : Listener) (other : ListenerId),
      (∀ about, Job.participant (.hear l callback) ≠ .participant (.hear other about)) →
      (m.cast.setListener l new).listener? other = m.cast.listener? other := fun new other apart => by
    have different : l.val ≠ other.val := fun same => apart callback (by cases l; cases other; cases same; rfl)
    simp [Cast.listener?, Cast.setListener, different]
  simp only [Job.exec, ParticipantJob.exec, ParticipantJob.callListener]
  split
  · rename_i known
    split
    · exact ⟨_, _, _, ⟨_, rfl⟩, rfl, rfl, rfl, fun _ => rfl, fun _ _ => rfl, rfl, fun _ _ => rfl⟩
    · exact ⟨_, _, _, ⟨_, rfl⟩, rfl, rfl, rfl, fun _ => rfl, fun _ _ => rfl, specs_setListener _ _ known rfl, apart _⟩
  · exact ⟨_, _, _, ⟨_, rfl⟩, rfl, rfl, rfl, fun _ => rfl, fun _ _ => rfl, rfl, fun _ _ => rfl⟩

theorem routine_effect (m : Machine) (apart : t ≠ .caller) (routine : job.routine = true) :
    ∃ device lanes cast, Routine job t m (job.exec m t).1 device lanes cast := by
  cases job with
  | log record =>
      rw [Job.exec, Machine.log, if_neg apart]
      exact ⟨_, _, _, ⟨_, rfl⟩, rfl, rfl, rfl, fun _ => rfl, fun _ _ => rfl, rfl, fun _ _ => rfl⟩
  | panic => exact ⟨_, _, _, ⟨_, rfl⟩, rfl, rfl, rfl, fun _ => rfl, fun _ _ => rfl, rfl, fun _ _ => rfl⟩
  | deviceLane job =>
      cases job with
      | look => exact routine_lookDevice m t
      | _ => cases routine
  | dataLane job =>
      cases job with
      | look id => exact routine_lookLane m t id
      | snapshot | handOver | mismatch => exact ⟨_, _, _, ⟨_, rfl⟩, rfl, rfl, rfl, fun _ => rfl, fun _ _ => rfl, rfl, fun _ _ => rfl⟩
      | _ => cases routine
  | participant job =>
      cases job with
      | hear l callback => exact routine_hear m t l callback
      | deliver d =>
          simp only [Job.exec, ParticipantJob.exec]
          split <;> exact ⟨_, _, _, ⟨_, rfl⟩, rfl, rfl, rfl, fun _ => rfl, fun _ _ => rfl, rfl, fun _ _ => rfl⟩
      | delivered d => exact ⟨_, _, _, ⟨_, rfl⟩, rfl, rfl, rfl, fun _ => rfl, fun _ _ => rfl, rfl, fun _ _ => rfl⟩
      | _ => cases routine
  | _ => cases routine

theorem recruits_routine (m : Machine) (routine : job.routine = true) : job.recruits m = [] := by
  cases job with
  | deviceLane job | dataLane job => cases job <;> first | rfl | cases routine
  | perform op => cases routine
  | _ => rfl

-- The workers take their turns, in any order, and nobody else does.
inductive Work (past : List Moment) (m : Machine) : List Moment → Machine → Prop where
  | start : Work past m [] m
  | turn {more : List Moment} {m' m'' : Machine} {t : ThreadId} {job : Job} {later : List Job} (work : Work past m more m')
      (works : dispatches past t) (agenda : m'.agenda t = job :: later) (went : m'.step? t = some m'') :
      Work past m (more ++ [⟨m', t, job, later⟩]) m''

theorem Work.run (work : Work past m more m') (run : Run config hooks past m) : Run config hooks (past ++ more) m' := by
  induction work with
  | start => rwa [List.append_nil]
  | turn work works agenda went ih => exact List.append_assoc .. ▸ ih.step agenda went

theorem Work.play (work : Work past m more m') (schedule : List ThreadId) (works : ∀ t ∈ schedule, dispatches past t) :
    Work past m (more ++ (m'.play schedule).1) (m'.play schedule).2 :=
  play_induct work fun member work agenda went => work.turn (works _ member) agenda went

theorem Run.turned (run : Run config hooks past m) (passive : m.cast.passive) (works : dispatches past t)
    (agenda : m.agenda t = job :: later) (went : m.step? t = some m') :
    (∃ device lanes cast, Routine job t m m' device lanes cast) ∧ (∀ u, u ≠ t → m'.agenda u = m.agenda u) ∧
      m'.agendas.length = m.agendas.length ∧
      ((job = .panic ∧ m'.agenda t = kept later) ∨
        (job ≠ .panic ∧ job.enabled m t = true ∧ m'.agenda t = (job.exec m t).2 ++ later)) := by
  have routine := run.routine passive t works
  rw [agenda] at routine
  rcases step_cases agenda went with ⟨rfl, rfl⟩ | ⟨quiet, enabled, rfl⟩
  · obtain ⟨d, rest, caught, abandons, stands⟩ := routine_caught routine
    have hub : (m.unwind t later).hub = m.hub := by
      unfold Machine.unwind
      rw [abandons, caught]
      rfl
    have trace : (m.unwind t later).trace = m.trace := by
      unfold Machine.unwind
      rw [abandons, caught]
      rfl
    refine ⟨⟨_, _, _, ⟨m.hub.metrics, hub⟩, cast_unwind, trace, rfl, fun _ => rfl, fun _ _ => rfl, rfl, fun _ _ => rfl⟩,
      fun u apart => agenda_unwind_other apart, ?_, .inl ⟨rfl, agenda_unwind_self agenda⟩⟩
    rw [agendas_unwind, List.length_set]
  · obtain ⟨device, lanes, cast, effect⟩ := routine_effect m (run.dispatcher_known works).1 routine.1.kind
    have recruits := recruits_routine m routine.1.kind
    refine ⟨⟨device, lanes, cast, effect.hub, effect.joined, effect.trace, effect.listeners, effect.device,
      effect.lanes, effect.specs,
      effect.cast⟩, fun u apart => ?_, ?_, .inr ⟨quiet, enabled, agenda_carry_self agenda⟩⟩
    · rcases agenda_carry_other job later apart with same | ⟨_, new⟩
      · exact same
      · rw [recruits] at new
        cases new
    · rw [length_agendas_carry, recruits]
      rfl

structure Worked (past : List Moment) (m : Machine) (more : List Moment) (m' : Machine) : Prop where
  hub : ∃ metrics device lanes, device.listeners = m.hub.deviceLane.listeners ∧
    m'.hub = { m.hub with metrics, deviceLane := device, dataLanes := { m.hub.dataLanes with lanes } }
  specs : m'.cast.specs = m.cast.specs
  crew : deviceCrew (past ++ more) = deviceCrew past
  roster : roster (past ++ more) = roster past
  length : m'.agendas.length = m.agendas.length
  others : ∀ u, ¬ dispatches past u → m'.agenda u = m.agenda u
  ended : ∀ u, m.agenda u = [] → m'.agenda u = []

theorem Worked.dispatches (worked : Worked past m more m') : dispatches (past ++ more) = dispatches past := by
  funext u
  simp only [TransportHub.dispatches, worked.crew, worked.roster]

theorem Worked.passive (worked : Worked past m more m') (passive : m.cast.passive) : m'.cast.passive := by
  rw [Cast.passive, worked.specs]
  exact passive

theorem opens_routine (routine : job.routine = true) :
    Moment.opens ⟨m, t, job, later⟩ = none ∧ Moment.mans ⟨m, t, job, later⟩ = none := by
  cases job with
  | deviceLane job | dataLane job => cases job <;> first | exact ⟨rfl, rfl⟩ | cases routine
  | _ => exact ⟨rfl, rfl⟩

theorem Work.worked (work : Work past m more m') (run : Run config hooks past m) (passive : m.cast.passive) :
    Worked past m more m' := by
  induction work with
  | start =>
      refine ⟨⟨_, _, _, rfl, rfl⟩, rfl, ?_, ?_, rfl, fun _ _ => rfl, fun _ => id⟩ <;> rw [List.append_nil]
  | @turn more m' m'' t job later work works agenda went ih =>
      have reached := work.run run
      have passive' := ih.passive passive
      have working : TransportHub.dispatches (past ++ more) t := ih.dispatches ▸ works
      obtain ⟨⟨device, lanes, cast, effect⟩, others, length, own⟩ := reached.turned passive' working agenda went
      have routine := reached.routine passive' t working
      rw [agenda] at routine
      obtain ⟨opens, mans⟩ := @opens_routine m' t job later routine.1.kind
      obtain ⟨metrics, device', lanes', listeners, hub⟩ := ih.hub
      obtain ⟨metrics', hub'⟩ := effect.hub
      refine ⟨⟨metrics', device, lanes, ?_, ?_⟩, ?_, ?_, ?_, length.trans ih.length, fun u idle => ?_, fun u ended => ?_⟩
      · rw [effect.listeners, hub]
        exact listeners
      · rw [hub', hub]
      · rw [effect.joined, effect.specs]
        exact ih.specs
      · rw [← List.append_assoc, ← ih.crew]
        simp [deviceCrew, mans]
      · rw [← List.append_assoc, ← ih.roster]
        simp [TransportHub.roster, opens]
      · rw [others u fun same => idle (same ▸ works)]
        exact ih.others u idle
      · have before := ih.ended u ended
        rw [others u fun same => by rw [← same, before] at agenda; cases agenda]
        exact before

-- A device lane has one worker; ended and started anew by two threads at once it may have more.
def Lone (past : List Moment) (m : Machine) : Prop :=
  ∀ w ∈ deviceCrew past, ∀ u ∈ deviceCrew past, m.agenda w ≠ [] → m.agenda u ≠ [] → w = u

-- In a manager session the device lane is started once.
theorem Run.uncrewed (run : Run config hooks past m) (managed : ∀ x ∈ past, x.managed)
    (agenda : m.agenda t = .deviceLane .spawn :: later) :
    deviceCrew past = [] := by
  refine List.eq_nil_iff_forall_not_mem.mpr fun w member => ?_
  rcases run.manned.crew w member with manned | ⟨x, seen, joins⟩
  · have vacant := run.manned.vacant t (agenda ▸ List.mem_cons_self ..)
    rw [manned] at vacant
    cases vacant
  · rw [run.unstarted managed agenda x seen] at joins
    cases joins

theorem Run.lone (run : Run config hooks past m) (managed : ∀ x ∈ past, x.managed) : Lone past m := by
  have one : ∀ w ∈ deviceCrew past, ∀ u ∈ deviceCrew past, w = u := by
    refine Run.induct_all (G := Moment.managed) (P := fun past _ => ∀ w ∈ deviceCrew past, ∀ u ∈ deviceCrew past, w = u)
      ?construct ?assemble ?call ?client ?carry ?unwind run managed
    case construct | assemble => exact fun _ none => by cases none
    case call => exact fun _ _ before _ => before
    case client => exact fun _ _ _ before => before
    case carry =>
      intro past m t job later run before agenda _ _ managed _ w here u there
      have none : ∀ {new}, Moment.mans ⟨m, t, job, later⟩ = some new → deviceCrew past = [] := fun mans => by
        obtain ⟨rfl, _, _⟩ := mans_started mans
        exact run.uncrewed managed agenda
      rcases mem_deviceCrew_snoc.mp here with old | mans <;> rcases mem_deviceCrew_snoc.mp there with old' | mans'
      · exact before w old u old'
      · rw [none mans'] at old
        cases old
      · rw [none mans] at old'
        cases old'
      · exact Option.some.inj (mans.symm.trans mans')
    case unwind =>
      intro past m t later _ before _ _ _ w here u there
      have old : ∀ {w}, w ∈ deviceCrew (past ++ [⟨m, t, .panic, later⟩]) → w ∈ deviceCrew past :=
        fun here => (mem_deviceCrew_snoc.mp here).resolve_right fun none => by cases none
      exact before w (old here) u (old there)
  exact fun w here u there _ _ => one w here u there

def Moment.tends (x : Moment) : Prop := x.job = .deviceLane .spawn ∨ joinsDeviceLane x.job = true

def Tended (past : List Moment) (m : Machine) : Prop :=
  ∀ w ∈ deviceCrew past, m.agenda w = [] ∨ m.hub.deviceLane.worker = some w ∨
    (m.hub.deviceLane.worker = none ∧ ∃ lane rest, m.agenda .caller = .join lane w :: rest)

theorem Tended.lone (tended : Tended past m) : Lone past m := by
  intro w here u there live live'
  rcases (tended w here).resolve_left live with same | ⟨none, lane, rest, joins⟩ <;>
    rcases (tended u there).resolve_left live' with same' | ⟨none', lane', rest', joins'⟩
  · exact Option.some.inj (same.symm.trans same')
  · rw [same] at none'
    cases none'
  · rw [same'] at none
    cases none
  · rw [joins] at joins'
    cases joins'
    rfl

theorem Run.tended (run : Run config hooks past m) (alone : ∀ x ∈ past, x.tends → x.thread = .caller) : Tended past m := by
  refine Run.induct (G := fun x => x.tends → x.thread = .caller)
    (P := Tended) ?construct ?assemble ?call ?client ?carry ?unwind run alone
  case construct | assemble => exact fun _ none => by cases none
  case call =>
    intro past m op run before idle w member
    rw [agenda_beginWith_other (run.dispatcher_known (.inl member)).1]
    refine (before w member).imp_right (Or.imp_right ?_)
    rintro ⟨_, _, _, joins⟩
    rw [idle] at joins
    cases joins
  case client =>
    intro past m name op run before w member
    rw [agenda_client_old (run.dispatcher_known (.inl member)).2]
    refine (before w member).imp_right (Or.imp_right fun ⟨vacant, lane, rest, joins⟩ => ⟨vacant, lane, rest, ?_⟩)
    rw [agenda_client_old (known_lt (agenda_known joins (List.cons_ne_nil _ _))), joins]
  case carry =>
    intro past m t job later run before agenda _ enabled alone w member
    have ended : ∀ {w}, w ∈ deviceCrew past → m.agenda w = [] → (m.carry t job later).agenda w = [] :=
      fun member ended => run.ended_carry (.inl member) ended agenda
    by_cases spawns : job = .deviceLane .spawn
    · subst spawns
      obtain rfl : t = .caller := alone (.inl rfl)
      have vacant := run.manned.vacant .caller (agenda ▸ List.mem_cons_self ..)
      rcases mem_deviceCrew_snoc.mp member with old | mans
      · rcases before w old with idle | manned | ⟨_, lane, rest, joins⟩
        · exact .inl (ended old idle)
        · rw [vacant] at manned
          cases manned
        · rw [agenda] at joins
          cases joins
      · obtain ⟨_, started, rfl⟩ := mans_started mans
        exact .inr (.inl (spawn_started m .caller started))
    · have old := (mem_deviceCrew_snoc.mp member).resolve_right fun mans => spawns (mans_started mans).1
      have worker := worker_exec m t job spawns
      have hub : (m.carry t job later).hub.deviceLane.worker = if joinsDeviceLane job then none else m.hub.deviceLane.worker := worker
      rcases before w old with idle | manned | ⟨none, lane, rest, joins⟩
      · exact .inl (ended old idle)
      · cases joins : joinsDeviceLane job with
        | false => exact .inr (.inl (by rw [hub, joins]; exact manned))
        | true =>
            obtain rfl : t = .caller := alone (.inr joins)
            obtain rfl : job = .deviceLane .join := by
              cases job with
              | deviceLane job => cases job <;> first | rfl | cases joins
              | _ => cases joins
            refine .inr (.inr ⟨by rw [hub, joins]; rfl, Log.deviceLaneName, later, ?_⟩)
            rw [agenda_carry_self agenda]
            simp [Job.exec, DeviceLaneJob.exec, manned]
      · by_cases mine : t = .caller
        · subst mine
          rw [agenda] at joins
          cases joins
          have apart : w ≠ .caller := (run.dispatcher_known (.inl old)).1
          have exited : m.exited w = true := by
            simpa [Job.enabled, Job.needs, apart] using enabled
          exact .inl (ended old (exited_idle exited))
        · have bound := known_lt (agenda_known joins (List.cons_ne_nil _ _))
          refine .inr (.inr ⟨by rw [hub, none, ite_self], lane, rest, ?_⟩)
          rw [agenda_carry_old (Ne.symm mine) bound, joins]
  case unwind =>
    intro past m t later run before agenda _ w member
    have old := (mem_deviceCrew_snoc.mp member).resolve_right fun none => by cases none
    have same : (m.unwind t later).hub.deviceLane.worker = m.hub.deviceLane.worker := lanes_unwind.worker
    rw [same]
    rcases before w old with idle | manned | ⟨none, lane, rest, joins⟩
    · exact .inl (ended_unwind idle agenda)
    · exact .inr (.inl manned)
    · have apart : ThreadId.caller ≠ t := fun here => by rw [← here, joins] at agenda; cases agenda
      exact .inr (.inr ⟨none, lane, rest, by rw [agenda_unwind_other apart, joins]⟩)

def seat (past : List Moment) (m : Machine) (w : ThreadId) : Seat where
  device := decide (w ∈ deviceCrew past) && !(m.agenda w).isEmpty
  lane := ((roster past).find? fun slot => slot.worker = w).map (·.lane)

theorem seat_device : (seat past m w).device = true ↔ w ∈ deviceCrew past ∧ m.agenda w ≠ [] := by
  simp [seat]

theorem seat_lane (run : Run config hooks past m) : (seat past m w).lane = some id ↔ ⟨id, w⟩ ∈ roster past := by
  simp only [seat, Option.map_eq_some_iff]
  constructor
  · rintro ⟨slot, found, rfl⟩
    have same := List.find?_some found
    cases of_decide_eq_true same
    exact List.mem_of_find?_eq_some found
  · intro member
    cases found : (roster past).find? fun slot => slot.worker = w with
    | none => exact absurd (decide_eq_true rfl) (List.find?_eq_none.mp found _ member)
    | some slot =>
        have same : slot.worker = w := by simpa using List.find?_some found
        obtain rfl := run.rostered.worker slot (List.mem_of_find?_eq_some found) _ member same
        exact ⟨_, rfl, rfl⟩

theorem Work.suits (work : Work past m more m') (run : Run config hooks past m) (passive : m.cast.passive)
    (agenda : m'.agenda w = job :: later) :
    (seat past m w).suits job := by
  have worked := work.worked run passive
  have first := (work.run run).enlisted.2 w
  rw [agenda] at first
  refine ⟨?_, ?_⟩
  · rintro rfl
    refine seat_device.mpr ⟨worked.crew ▸ first.1, fun idle => ?_⟩
    rw [worked.ended w idle] at agenda
    cases agenda
  · rintro id rfl
    exact (seat_lane run).mpr (worked.roster ▸ first.1)

theorem Seat.apart (run : Run config hooks past m) (lone : Lone past m) (apart : t ≠ w) (suits : (seat past m t).suits job) :
    ((seat past m w).device = true → job ≠ .deviceLane .look) ∧
      ∀ id, (seat past m w).lane = some id → job ≠ .dataLane (.look id) := by
  refine ⟨?_, ?_⟩
  · rintro sits rfl
    obtain ⟨crew, live⟩ := seat_device.mp sits
    obtain ⟨crew', live'⟩ := seat_device.mp (suits.1 rfl)
    exact apart (lone t crew' w crew live' live)
  · rintro id sits rfl
    have here := (seat_lane run).mp sits
    have there := (seat_lane run).mp (suits.2 id rfl)
    cases run.rostered.lane _ here _ there rfl
    exact apart rfl

theorem Routine.audience {device : DeviceLane} {lanes : List DataLane} {cast : Cast} (effect : Routine job t m m' device lanes cast)
    (side : Side) :
    m'.hub.audience side = m.hub.audience side := by
  obtain ⟨metrics, hub⟩ := effect.hub
  rw [hub]
  cases side with
  | device => exact congrArg ListenerSet.snapshot effect.listeners
  | data => rfl

theorem Routine.outlook {device : DeviceLane} {lanes : List DataLane} {cast : Cast} (effect : Routine job t m m' device lanes cast)
    {s : Seat} (apart : (s.device = true → job ≠ .deviceLane .look) ∧ ∀ id, s.lane = some id → job ≠ .dataLane (.look id)) :
    m'.outlook s = m.outlook s := by
  obtain ⟨metrics, hub⟩ := effect.hub
  simp only [Machine.outlook, effect.joined, effect.specs, hub]
  congr 1
  · cases sits : s.device with
    | false => rfl
    | true => simp [effect.device (apart.1 sits)]
  · cases sits : s.lane with
    | none => rfl
    | some id => exact effect.lanes id (apart.2 id sits)

theorem Routine.noted {device : DeviceLane} {lanes : List DataLane} {cast : Cast} (effect : Routine job t m m' device lanes cast)
    (w : ThreadId) :
    m'.noted w = (if t = w then job.notes else []) ++ m.noted w := by
  rw [Machine.noted, effect.trace, List.filterMap_append, List.filterMap_map, Function.comp_def]
  congr 1
  split <;> simp

theorem outlook_lookDevice (m : Machine) (t : ThreadId) (s : Seat) : (Job.exec m t (.deviceLane .look)).1.outlook s =
    { m.outlook s with device := if s.device then some (m.hub.deviceLane.look m.hub.terminating).2 else none } := by
  have listeners : (m.hub.deviceLane.look m.hub.terminating).2.listeners = m.hub.deviceLane.listeners := by
    rcases DeviceLane.look_cases m.hub.terminating m.hub.deviceLane with ⟨_, seen⟩ | ⟨_, _, seen⟩ | ⟨_, _, seen⟩ <;> rw [seen]
  simp only [Job.exec, DeviceLaneJob.exec, DeviceLaneJob.lookAtQueue]
  split <;> rfl

theorem outlook_lookLane (m : Machine) (t : ThreadId) {s : Seat} (sits : s.lane = some id) :
    (Job.exec m t (.dataLane (.look id))).1.outlook s =
      { m.outlook s with lane := (m.hub.dataLanes.lane? id).map fun lane => (lane.look m.hub.terminating).2 } := by
  simp only [Job.exec, DataLaneJob.exec]
  cases known : m.hub.dataLanes.lane? id with
  | none => simp [Machine.outlook, sits, known]
  | some lane =>
      have changed : ∀ lane', (m.hub.dataLanes.changeLane id fun _ => lane').lane? id = some lane' := fun lane' => by
        obtain ⟨within, _⟩ := List.getElem?_eq_some_iff.mp known
        simp [DataLanes.changeLane, DataLanes.lane?, within]
      simp only [DataLaneJob.lookAtLane]
      split <;> simp only [Machine.outlook, sits, Option.bind_some] <;> exact congrArg (Outlook.mk _ _ · _ _) (changed _)

structure Outlook.Agree (s : Seat) (a b : Machine) : Prop where
  terminating : a.hub.terminating = b.hub.terminating
  device : s.device = true → a.hub.deviceLane = b.hub.deviceLane
  lane : ∀ id, s.lane = some id → a.hub.dataLanes.lane? id = b.hub.dataLanes.lane? id
  audience : a.hub.audience .data = b.hub.audience .data
  specs : a.cast.specs = b.cast.specs

theorem outlook_agree {s : Seat} (same : a.outlook s = b.outlook s) : Outlook.Agree s a b := by
  simp only [Machine.outlook, Outlook.mk.injEq] at same
  obtain ⟨terminating, device, lane, audience, specs⟩ := same
  refine ⟨terminating, fun sits => ?_, fun id sits => ?_, audience, specs⟩
  · simpa [sits] using device
  · simpa [sits] using lane

theorem outlook_exec {s : Seat} (same : a.outlook s = b.outlook s) (suits : s.suits job) (apart : t ≠ .caller)
    (routine : job.routine = true) :
    (job.exec a t).1.outlook s = (job.exec b t).1.outlook s := by
  have agree := outlook_agree same
  by_cases device : job = .deviceLane .look
  · subst device
    rw [outlook_lookDevice, outlook_lookDevice, same, agree.terminating, agree.device (suits.1 rfl)]
  by_cases lane : ∃ id, job = .dataLane (.look id)
  · obtain ⟨id, rfl⟩ := lane
    have sits := suits.2 id rfl
    rw [outlook_lookLane a t sits, outlook_lookLane b t sits, same, agree.terminating, agree.lane id sits]
  have away : (s.device = true → job ≠ .deviceLane .look) ∧ ∀ id, s.lane = some id → job ≠ .dataLane (.look id) :=
    ⟨fun _ => device, fun id _ here => lane ⟨id, here⟩⟩
  obtain ⟨_, _, _, effect⟩ := routine_effect a apart routine
  obtain ⟨_, _, _, effect'⟩ := routine_effect b apart routine
  rw [effect.outlook away, effect'.outlook away, same]

theorem next_exec {s : Seat} (agree : Outlook.Agree s a b) (suits : s.suits job) (apart : t ≠ .caller) (routine : job.routine = true)
    (deaf : job.hears = false) : (job.exec a t).2 = (job.exec b t).2 := by
  cases job with
  | log record => rw [Job.exec, Machine.log, if_neg apart, Job.exec, Machine.log, if_neg apart]
  | panic => rfl
  | deviceLane job =>
      cases job with
      | look =>
          simp only [Job.exec, DeviceLaneJob.exec, DeviceLaneJob.lookAtQueue]
          rw [agree.terminating, agree.device (suits.1 rfl)]
          split <;> rfl
      | _ => cases routine
  | dataLane job =>
      cases job with
      | look id =>
          simp only [Job.exec, DataLaneJob.exec]
          rw [agree.lane id (suits.2 id rfl)]
          split
          · simp only [DataLaneJob.lookAtLane]
            rw [agree.terminating]
            split <;> rfl
          · rfl
      | snapshot c batch =>
          have audience : a.hub.dataLanes.listeners.snapshot = b.hub.dataLanes.listeners.snapshot := agree.audience
          simp only [Job.exec, DataLaneJob.exec]
          rw [audience]
      | handOver | mismatch => rfl
      | _ => cases routine
  | participant job =>
      cases job with
      | hear => cases deaf
      | deliver d =>
          simp only [Job.exec, ParticipantJob.exec]
          split <;> rfl
      | delivered d => rfl
      | _ => cases routine
  | _ => cases routine

theorem throws_exec {s : Seat} (agree : Outlook.Agree s a b) (suits : s.suits job) (routine : job.routine = true) :
    job.throws a = job.throws b := by
  cases job with
  | deviceLane job =>
      cases job with
      | look => simp only [Job.throws, agree.terminating, agree.device (suits.1 rfl)]
      | _ => cases routine
  | dataLane job =>
      cases job with
      | look id => simp only [Job.throws, Job.thrown, Job.cuts, agree.terminating, agree.lane id (suits.2 id rfl)]
      | _ => rfl
  | _ => rfl

def turnsBy (counts : Job → Bool) (w : ThreadId) (more : List Moment) : List Moment :=
  more.filter fun x => x.thread = w ∧ counts x.job = true

theorem turnsBy_snoc (counts : Job → Bool) (w : ThreadId) (x : Moment) : turnsBy counts w (more ++ [x]) =
    turnsBy counts w more ++ if x.thread = w ∧ counts x.job = true then [x] else [] := by
  simp only [turnsBy, List.filter_append, List.filter_cons, List.filter_nil, decide_eq_true_eq]

structure Next (allowed : Moment → Prop) (past : List Moment) (m : Machine) (more : List Moment) (x : Moment)
    (after : Machine) : Prop where
  work : Work past m more x.machine
  works : dispatches past x.thread
  agenda : x.machine.agenda x.thread = x.job :: x.later
  went : x.machine.step? x.thread = some after
  allowed : ∀ z ∈ more ++ [x], allowed z

-- What one worker sees of the others' turns, and of those of its own that do not count, is nothing; seeing the
-- same it does the same; and it has not come to rest when it sees what it saw before a turn.
structure Independent {α β : Type} (allowed : Moment → Prop) (past : List Moment) (m : Machine) (counts : Job → Bool)
    (view : ThreadId → Machine → α) (key : Moment → β) : Prop where
  hidden : ∀ {more x after}, Next allowed past m more x after → ∀ w, x.thread ≠ w ∨ counts x.job = false →
    view w after = view w x.machine
  alike : ∀ {more more' x y after after'}, Next allowed past m more x after → Next allowed past m more' y after' →
    y.thread = x.thread → counts x.job = true → counts y.job = true → view x.thread x.machine = view x.thread y.machine →
    view x.thread after = view x.thread after' ∧ key x = key y
  rest : ∀ {more more' a y after}, Work past m more a → Next allowed past m more' y after → counts y.job = true →
    view y.thread a = view y.thread y.machine → a.rests y.thread = false

variable {α β : Type} {allowed : Moment → Prop} {counts : Job → Bool} {view : ThreadId → Machine → α} {key : Moment → β}
  {more' : List Moment}

theorem aside_of_not (aside : ¬ (t = w ∧ counts job = true)) : t ≠ w ∨ counts job = false := by
  rw [← Bool.not_eq_true]
  exact Decidable.not_and_iff_or_not.mp aside

theorem allowed_front {x : Moment} (all : ∀ z ∈ more ++ [x], allowed z) : ∀ z ∈ more, allowed z :=
  fun z member => all z (List.mem_append_left _ member)

theorem Work.agree (independent : Independent allowed past m counts view key) (w : ThreadId) (first : Work past m more a)
    (second : Work past m more' b) (all : ∀ z ∈ more, allowed z) (all' : ∀ z ∈ more', allowed z)
    (even : (turnsBy counts w more).length = (turnsBy counts w more').length) :
    view w a = view w b ∧ (turnsBy counts w more).map key = (turnsBy counts w more').map key := by
  induction first generalizing more' b with
  | start =>
      have none : turnsBy counts w more' = [] := List.eq_nil_of_length_eq_zero even.symm
      rw [none]
      refine ⟨?_, rfl⟩
      clear even
      induction second with
      | start => rfl
      | turn work works agenda went ih =>
          rw [turnsBy_snoc, List.append_eq_nil_iff] at none
          have aside := aside_of_not fun turns => absurd none.2 (by rw [if_pos turns]; exact List.cons_ne_nil _ _)
          rw [independent.hidden (x := ⟨_, _, _, _⟩) ⟨work, works, agenda, went, all'⟩ w aside]
          exact ih (allowed_front all') none.1
  | @turn more a a' t job later work works agenda went ih =>
      have next : Next allowed past m more ⟨a, t, job, later⟩ a' := ⟨work, works, agenda, went, all⟩
      rw [turnsBy_snoc] at even ⊢
      by_cases turns : t = w ∧ counts job = true
      · rw [if_pos turns] at even ⊢
        obtain ⟨rfl, counting⟩ := turns
        induction second with
        | start => simp [turnsBy] at even
        | @turn more' b b' u job' later' work' works' agenda' went' ih' =>
            have next' : Next allowed past m more' ⟨b, u, job', later'⟩ b' := ⟨work', works', agenda', went', all'⟩
            rw [turnsBy_snoc] at even ⊢
            by_cases turns : u = t ∧ counts job' = true
            · rw [if_pos turns] at even ⊢
              obtain ⟨rfl, counting'⟩ := turns
              obtain ⟨same, keys⟩ := ih work' (allowed_front all) (allowed_front all') (by simpa using even)
              obtain ⟨after, key⟩ := independent.alike next next' rfl counting counting' same
              exact ⟨after, by rw [List.map_append, List.map_append, keys, List.map_singleton, List.map_singleton, key]⟩
            · rw [if_neg turns, List.append_nil] at even ⊢
              rw [independent.hidden next' t (aside_of_not turns)]
              exact ih' (allowed_front all') even
      · rw [if_neg turns, List.append_nil] at even ⊢
        rw [independent.hidden next w (aside_of_not turns)]
        exact ih second (allowed_front all) all' even

theorem Work.split (second : Work past m more' b) (all' : ∀ z ∈ more', allowed z) {k : Nat}
    (fewer : k < (turnsBy counts w more').length) :
    ∃ front y after, Next allowed past m front y after ∧ y.thread = w ∧ counts y.job = true ∧
      (turnsBy counts w front).length = k := by
  induction second with
  | start => cases fewer
  | @turn more b b' t job later work works agenda went ih =>
      rw [turnsBy_snoc] at fewer
      by_cases before : k < (turnsBy counts w more).length
      · exact ih (allowed_front all') before
      · by_cases turns : t = w ∧ counts job = true
        · rw [if_pos turns, List.length_append, List.length_singleton] at fewer
          exact ⟨more, ⟨b, t, job, later⟩, b', ⟨work, works, agenda, went, all'⟩, turns.1, turns.2, by omega⟩
        · rw [if_neg turns, List.append_nil] at fewer
          exact absurd fewer before

theorem Work.rested (independent : Independent allowed past m counts view key) (first : Work past m more a)
    (second : Work past m more' b) (all : ∀ z ∈ more, allowed z) (all' : ∀ z ∈ more', allowed z) (resting : a.rests w = true) :
    (turnsBy counts w more').length ≤ (turnsBy counts w more).length := by
  refine Nat.le_of_not_lt fun fewer => ?_
  obtain ⟨front, y, after, next, rfl, counting, even⟩ := second.split all' fewer
  have same := (first.agree independent y.thread next.work all (allowed_front next.allowed) even.symm).1
  rw [independent.rest first next counting same] at resting
  cases resting

theorem Work.works (work : Work past m more a) : ∀ x ∈ more, dispatches past x.thread := by
  induction work with
  | start => exact fun _ none => by cases none
  | turn work works agenda went ih => exact List.forall_mem_append.mpr ⟨ih, List.forall_mem_singleton.mpr works⟩

theorem Work.settled (independent : Independent allowed past m counts view key) (first : Work past m more a)
    (second : Work past m more' b) (all : ∀ z ∈ more, allowed z) (all' : ∀ z ∈ more', allowed z) (resting : AtRest past a)
    (resting' : AtRest past b) (w : ThreadId) :
    view w a = view w b ∧ (turnsBy counts w more).map key = (turnsBy counts w more').map key := by
  refine first.agree independent w second all all' ?_
  by_cases works : dispatches past w
  · exact Nat.le_antisymm (second.rested independent first all' all (resting' w works))
      (first.rested independent second all all' (resting w works))
  · have none : ∀ {front c}, Work past m front c → turnsBy counts w front = [] := fun work =>
      List.filter_eq_nil_iff.mpr fun x member here => works ((of_decide_eq_true here).1 ▸ work.works x member)
    rw [none first, none second]

end TransportHub
