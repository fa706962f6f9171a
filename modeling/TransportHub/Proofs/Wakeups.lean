import Mathlib.Logic.Relation
import TransportHub.Proofs.DeviceDeliveries
import TransportHub.Proofs.Teardown
/-!
Wake-ups: no worker sleeps while there is something for it to do. The flag that begins termination is
set without the lock that the workers sleep under, so whoever sets it wakes them afterwards. Each lane is
looked at by itself first, with its locked steps and the flag in whatever order they come; the lanes of a
run take no other steps.
-/

set_option autoImplicit false

namespace TransportHub

open Relation (ReflTransGen)

variable {config : Config} {hooks : List Hook} {past : List Moment} {m : Machine} {t u : ThreadId}
  {job : Job} {later : List Job} {x : Moment} {id : LaneId} {c : ConnectionHandle}

namespace DataLane

-- The steps that a lane and the flag take. A sleeper that somebody wakes looks again; one that wakes up
-- for no reason does so too.
inductive Step : DataLane × Bool → DataLane × Bool → Prop where
  | look {lane : DataLane} {ending : Bool} (alive : lane.exited = false) (awake : lane.parked = false) :
      Step (lane, ending) ((lane.look ending).2, ending)
  | push {lane : DataLane} {ending : Bool} (callback : DataCallback) (accepts : lane.accepts = true) :
      Step (lane, ending) (lane.push callback, ending)
  | requestStop {lane : DataLane} {ending : Bool} : Step (lane, ending) (lane.requestStop, ending)
  | wake {lane : DataLane} {ending : Bool} : Step (lane, ending) (lane.wake, ending)
  | terminate {lane : DataLane} {ending : Bool} : Step (lane, ending) (lane, true)

variable {s s' : DataLane × Bool}

theorem accepts_alive {lane : DataLane} (accepts : lane.accepts = true) : lane.exited = false := by
  simp only [DataLane.accepts, Bool.and_eq_true, Bool.not_eq_true'] at accepts
  exact accepts.2

structure Rested (s : DataLane × Bool) : Prop where
  asleep : s.1.parked = true → s.1.items = [] ∧ s.1.stopping = false
  left : s.1.exited = true → s.1.items = []

theorem Rested.step (rested : Rested s) (step : Step s s') : Rested s' := by
  cases step with
  | @look lane ending alive awake =>
      rcases look_cases ending lane with ⟨_, _, seen⟩ | ⟨empty, _, seen⟩ | ⟨_, empty, going, seen⟩ | ⟨_, _, seen⟩ <;>
        simp only [seen]
      · exact ⟨fun parked => absurd (awake.symm.trans parked) Bool.false_ne_true, fun _ => rfl⟩
      · exact ⟨fun parked => absurd (awake.symm.trans parked) Bool.false_ne_true, fun _ => empty⟩
      · exact ⟨fun _ => ⟨empty, going⟩, fun exited => absurd (alive.symm.trans exited) Bool.false_ne_true⟩
      · exact ⟨fun parked => absurd (awake.symm.trans parked) Bool.false_ne_true, fun _ => rfl⟩
  | push _ accepts =>
      exact ⟨fun parked => (by cases parked), fun exited => absurd ((accepts_alive accepts).symm.trans exited) Bool.false_ne_true⟩
  | requestStop | wake => exact ⟨fun parked => (by cases parked), rested.left⟩
  | terminate => exact ⟨rested.asleep, rested.left⟩

theorem rested (path : ReflTransGen Step ({ connection := c }, false) s) : Rested s := by
  induction path with
  | refl => exact ⟨fun parked => (by cases parked), fun _ => rfl⟩
  | tail _ step before => exact before.step step

theorem awake_step (ending : s.2 = true) (awake : s.1.parked = false) (step : Step s s') : s'.2 = true ∧ s'.1.parked = false := by
  cases step with
  | @look lane flag alive still =>
      refine ⟨ending, ?_⟩
      rcases look_cases flag lane with ⟨_, _, seen⟩ | ⟨_, _, seen⟩ | ⟨running, _, _, seen⟩ | ⟨_, _, seen⟩ <;> simp only [seen]
      · exact still
      · exact still
      · exact absurd (running.symm.trans ending) Bool.false_ne_true
      · exact still
  | push | requestStop | wake => exact ⟨ending, rfl⟩
  | terminate => exact ⟨rfl, awake⟩

theorem awake_path (ending : s.2 = true) (awake : s.1.parked = false) (path : ReflTransGen Step s s') :
    s'.2 = true ∧ s'.1.parked = false := by
  induction path with
  | refl => exact ⟨ending, awake⟩
  | tail _ step before => exact awake_step before.1 before.2 step

theorem look_parks (ending : Bool) (lane : DataLane) (parks : (lane.look ending).1 = .park) : ending = false := by
  rcases look_cases ending lane with ⟨_, _, seen⟩ | ⟨_, _, seen⟩ | ⟨running, _, _, _⟩ | ⟨_, _, seen⟩
  · rw [seen] at parks
    cases parks
  · rw [seen] at parks
    cases parks
  · exact running
  · rw [seen] at parks
    cases parks

theorem left_step (exited : s.1.exited = true) (empty : s.1.items = []) (step : Step s s') :
    s'.1.exited = true ∧ s'.1.items = [] := by
  cases step with
  | look alive => exact absurd (alive.symm.trans exited) Bool.false_ne_true
  | push _ accepts => exact absurd ((accepts_alive accepts).symm.trans exited) Bool.false_ne_true
  | requestStop | wake | terminate => exact ⟨exited, empty⟩

theorem left_path (exited : s.1.exited = true) (empty : s.1.items = []) (path : ReflTransGen Step s s') :
    s'.1.exited = true ∧ s'.1.items = [] := by
  induction path with
  | refl => exact ⟨exited, empty⟩
  | tail _ step before => exact left_step before.1 before.2 step

-- What no order of the steps breaks.
structure Wakeful (s : DataLane × Bool) : Prop where
  asleep : s.1.parked = true → s.1.items = [] ∧ s.1.stopping = false
  woken : s.2 = true → ∀ s', ReflTransGen Step (s.1.wake, s.2) s' → s'.1.parked = false ∧ (s'.1.look s'.2).1 ≠ .park
  left : s.1.exited = true → ∀ s', ReflTransGen Step s s' → s'.1.exited = true ∧ s'.1.items = []

theorem wakeful (path : ReflTransGen Step ({ connection := c }, false) s) : Wakeful s where
  asleep := (rested path).asleep
  woken ending s' onward := by
    have awake := awake_path (s := (s.1.wake, s.2)) ending rfl onward
    exact ⟨awake.2, fun parks => absurd ((look_parks _ _ parks).symm.trans awake.1) Bool.false_ne_true⟩
  left exited s' onward := left_path exited ((rested path).left exited) onward

end DataLane

namespace DeviceLane

-- The device lane with the flag; nothing but the worker itself knows whether it has left.
structure Site where
  lane : DeviceLane
  ending : Bool := false
  gone : Bool := false

def Look.leaves : Look → Bool
  | .leave _ => true
  | _ => false

inductive Step : Site → Site → Prop where
  | look {lane : DeviceLane} {ending : Bool} (awake : lane.parked = false) :
      Step ⟨lane, ending, false⟩ ⟨(lane.look ending).2, ending, (lane.look ending).1.leaves⟩
  | enqueue {s : Site} (callback : DeviceCallback) :
      Step s { s with lane := if s.ending then s.lane else s.lane.push callback }
  | register {s : Site} (listeners : ListenerSet) : Step s { s with lane := { s.lane with listeners } }
  | wake {s : Site} : Step s { s with lane := s.lane.wake }
  | terminate {s : Site} : Step s { s with ending := true }

variable {s s' : Site}

structure Rested (s : Site) : Prop where
  asleep : s.lane.parked = true → s.lane.queue = []
  left : s.gone = true → s.ending = true ∧ s.lane.queue = []

theorem Rested.step (rested : Rested s) (step : Step s s') : Rested s' := by
  cases step with
  | @look lane ending awake =>
      rcases look_cases ending lane with ⟨rfl, seen⟩ | ⟨_, empty, seen⟩ | ⟨_, _, seen⟩ <;> simp only [seen]
      · exact ⟨fun parked => absurd (awake.symm.trans parked) Bool.false_ne_true, fun _ => ⟨rfl, rfl⟩⟩
      · exact ⟨fun _ => empty, fun gone => by cases gone⟩
      · exact ⟨fun parked => absurd (awake.symm.trans parked) Bool.false_ne_true, fun gone => by cases gone⟩
  | enqueue callback =>
      cases ending : s.ending with
      | true => exact ⟨rested.asleep, fun gone => ⟨rfl, (rested.left gone).2⟩⟩
      | false =>
          refine ⟨fun parked => (by cases parked), fun gone => ?_⟩
          exact absurd (ending.symm.trans (rested.left gone).1) Bool.false_ne_true
  | register => exact ⟨rested.asleep, rested.left⟩
  | wake => exact ⟨fun parked => (by cases parked), rested.left⟩
  | terminate => exact ⟨rested.asleep, fun gone => ⟨rfl, (rested.left gone).2⟩⟩

theorem rested (path : ReflTransGen Step ⟨{}, false, false⟩ s) : Rested s := by
  induction path with
  | refl => exact ⟨fun _ => rfl, fun gone => by cases gone⟩
  | tail _ step before => exact before.step step

theorem awake_step (ending : s.ending = true) (awake : s.lane.parked = false) (step : Step s s') :
    s'.ending = true ∧ s'.lane.parked = false := by
  cases step with
  | @look lane flag still =>
      refine ⟨ending, ?_⟩
      rcases look_cases flag lane with ⟨_, seen⟩ | ⟨running, _, seen⟩ | ⟨_, _, seen⟩ <;> simp only [seen]
      · exact still
      · exact absurd (running.symm.trans ending) Bool.false_ne_true
      · exact still
  | enqueue => exact ⟨ending, by rw [if_pos ending]; exact awake⟩
  | register => exact ⟨ending, awake⟩
  | wake => exact ⟨ending, rfl⟩
  | terminate => exact ⟨rfl, awake⟩

theorem awake_path (ending : s.ending = true) (awake : s.lane.parked = false) (path : ReflTransGen Step s s') :
    s'.ending = true ∧ s'.lane.parked = false := by
  induction path with
  | refl => exact ⟨ending, awake⟩
  | tail _ step before => exact awake_step before.1 before.2 step

theorem look_parks (ending : Bool) (lane : DeviceLane) (parks : (lane.look ending).1 = .park) : ending = false := by
  rcases look_cases ending lane with ⟨_, seen⟩ | ⟨running, _, _⟩ | ⟨_, _, seen⟩
  · rw [seen] at parks
    cases parks
  · exact running
  · rw [seen] at parks
    cases parks

theorem left_path (gone : s.gone = true) (left : s.ending = true ∧ s.lane.queue = []) (path : ReflTransGen Step s s') :
    s'.gone = true ∧ s'.ending = true ∧ s'.lane.queue = [] := by
  induction path with
  | refl => exact ⟨gone, left⟩
  | tail _ step before =>
      obtain ⟨gone, ending, empty⟩ := before
      cases step with
      | look => cases gone
      | enqueue => exact ⟨gone, ending, by rw [if_pos ending]; exact empty⟩
      | register | wake => exact ⟨gone, ending, empty⟩
      | terminate => exact ⟨gone, rfl, empty⟩

structure Wakeful (s : Site) : Prop where
  asleep : s.lane.parked = true → s.lane.queue = []
  woken : s.ending = true → ∀ s', ReflTransGen Step { s with lane := s.lane.wake } s' →
    s'.lane.parked = false ∧ (s'.lane.look s'.ending).1 ≠ .park
  left : s.gone = true → ∀ s', ReflTransGen Step s s' → s'.gone = true ∧ s'.lane.queue = []

theorem wakeful (path : ReflTransGen Step ⟨{}, false, false⟩ s) : Wakeful s where
  asleep := (rested path).asleep
  woken ending s' onward := by
    have awake := awake_path (s := { s with lane := s.lane.wake }) ending rfl onward
    exact ⟨awake.2, fun parks => absurd ((look_parks _ _ parks).symm.trans awake.1) Bool.false_ne_true⟩
  left gone s' onward := by
    have left := left_path gone ((rested path).left gone) onward
    exact ⟨left.1, left.2.2⟩

end DeviceLane

theorem raised {lane : DataLane} {before after : Bool} (stays : before = true → after = true) :
    ReflTransGen DataLane.Step (lane, before) (lane, after) := by
  cases after with
  | true => exact .single .terminate
  | false =>
      cases before with
      | true => cases stays rfl
      | false => exact .refl

theorem Run.turn_path (run : Run config hooks past m) (agenda : m.agenda t = job :: later) (enabled : job.enabled m t = true)
    {lane : DataLane} (known : m.hub.dataLanes.lane? id = some lane) :
    ReflTransGen DataLane.Step (lane, m.hub.terminating) (job.turn m id lane, m.hub.terminating) := by
  cases job with
  | dataLane job =>
      cases job with
      | look other =>
          simp only [Job.turn]
          split
          · rename_i same
            subst same
            have first := run.enlisted.2 t
            rw [agenda] at first
            refine .single (.look (Classical.byContradiction fun exited => ?_) ?_)
            · have logs := run.signed_off _ first.1 lane known (by simpa using exited)
              rw [agenda] at logs
              obtain ⟨r, none⟩ := logs _ (List.mem_cons_self ..)
              cases none
            · simp only [Job.enabled, known, Option.any_some, Bool.and_eq_true, Bool.not_eq_true'] at enabled
              exact enabled.2
          · exact .refl
      | push other c callback =>
          simp only [Job.turn]
          split
          · rename_i here
            exact .single (.push callback here.2)
          · exact .refl
      | requestStop =>
          simp only [Job.turn]
          split
          · exact .single .requestStop
          · exact .refl
      | wake =>
          simp only [Job.turn]
          split
          · exact .single .wake
          · exact .refl
      | _ => exact .refl
  | _ => exact .refl

theorem Run.lane_path (run : Run config hooks past m) : ∀ x ∈ past, ∀ id lane, x.machine.hub.dataLanes.lane? id = some lane →
    ∃ lane', m.hub.dataLanes.lane? id = some lane' ∧
      ReflTransGen DataLane.Step (lane, x.machine.hub.terminating) (x.job.turn x.machine id lane, x.machine.hub.terminating) ∧
      ReflTransGen DataLane.Step (x.job.turn x.machine id lane, x.machine.hub.terminating) (lane', m.hub.terminating) := by
  refine Run.induct (G := fun _ => True) (P := fun past m => ∀ x ∈ past, ∀ id lane, x.machine.hub.dataLanes.lane? id = some lane →
      ∃ lane', m.hub.dataLanes.lane? id = some lane' ∧
        ReflTransGen DataLane.Step (lane, x.machine.hub.terminating) (x.job.turn x.machine id lane, x.machine.hub.terminating) ∧
        ReflTransGen DataLane.Step (x.job.turn x.machine id lane, x.machine.hub.terminating) (lane', m.hub.terminating))
    ?construct ?assemble ?call ?client ?carry ?unwind run fun _ _ => trivial
  case construct | assemble => exact fun _ none => by cases none
  case call => exact fun _ _ before _ => before
  case client => exact fun _ _ _ before => before
  case carry =>
    intro past m t job later run before agenda _ enabled _
    refine List.forall_mem_append.mpr ⟨fun x seen id lane known => ?_, List.forall_mem_singleton.mpr fun id lane known => ?_⟩
    · obtain ⟨lane', known', here, path⟩ := before x seen id lane known
      refine ⟨_, by rw [hub_carry]; exact lane_exec m t job known', here, path.trans ?_⟩
      exact (run.turn_path agenda enabled known').trans (raised (terminating_exec m t job))
    · exact ⟨_, by rw [hub_carry]; exact lane_exec m t job known, run.turn_path agenda enabled known,
        raised (terminating_exec m t job)⟩
  case unwind =>
    intro past m t later _ before _ _
    have same : (m.unwind t later).hub.dataLanes.lanes = m.hub.dataLanes.lanes := lanes_unwind.lanes
    refine List.forall_mem_append.mpr ⟨fun x seen id lane known => ?_, List.forall_mem_singleton.mpr fun id lane known => ?_⟩
    · rw [DataLanes.lane?, same, terminating_unwind]
      exact before x seen id lane known
    · rw [DataLanes.lane?, same, terminating_unwind]
      exact ⟨lane, known, .refl, .refl⟩

theorem Run.lane_reached (run : Run config hooks past m) {lane : DataLane} : m.hub.dataLanes.lane? id = some lane →
    ∃ c, ReflTransGen DataLane.Step ({ connection := c }, false) (lane, m.hub.terminating) := by
  refine Run.induct (G := fun _ => True) (P := fun past m => ∀ lane, m.hub.dataLanes.lane? id = some lane →
      ∃ c, ReflTransGen DataLane.Step ({ connection := c }, false) (lane, m.hub.terminating))
    ?construct ?assemble ?call ?client ?carry ?unwind run (fun _ _ => trivial) lane
  case construct | assemble => exact fun _ none => by cases none
  case call => exact fun _ _ before _ => before
  case client => exact fun _ _ _ before => before
  case carry =>
    intro past m t job later run before agenda _ enabled _ lane' known'
    rw [hub_carry] at known' ⊢
    cases known : m.hub.dataLanes.lane? id with
    | some lane =>
        rw [lane_exec m t job known] at known'
        cases known'
        obtain ⟨c, path⟩ := before lane known
        exact ⟨c, path.trans ((run.turn_path agenda enabled known).trans (raised (terminating_exec m t job)))⟩
    | none =>
        obtain ⟨c, _, _, _, rfl⟩ := lane_new m t job known known'
        exact ⟨c, raised fun none => by cases none⟩
  case unwind =>
    intro past m t later _ before _ _ lane known
    rw [DataLanes.lane?, lanes_unwind.lanes] at known
    rw [terminating_unwind]
    exact before lane known

theorem Run.device_woken (run : Run config hooks past m) : ∀ x ∈ past, x.job = .deviceLane .wake →
    x.machine.hub.terminating = true → m.hub.deviceLane.parked = false := by
  refine Run.induct (G := fun _ => True) (P := fun past m => ∀ x ∈ past, x.job = .deviceLane .wake →
      x.machine.hub.terminating = true → m.hub.deviceLane.parked = false)
    ?construct ?assemble ?call ?client ?carry ?unwind run fun _ _ => trivial
  case construct | assemble => exact fun _ none => by cases none
  case call => exact fun _ _ before _ => before
  case client => exact fun _ _ _ before => before
  case carry =>
    intro past m t job later run before _ _ _ _
    refine List.forall_mem_append.mpr ⟨fun x seen wakes ending => ?_, List.forall_mem_singleton.mpr fun wakes _ => ?_⟩
    · exact awake_exec m t job (run.terminating x seen ending) (before x seen wakes ending)
    · have wakes : job = .deviceLane .wake := wakes
      subst wakes
      rfl
  case unwind =>
    intro past m t later _ before _ _
    refine List.forall_mem_append.mpr ⟨fun x seen wakes ending => ?_, List.forall_mem_singleton.mpr fun none => by cases none⟩
    exact lanes_unwind.parked.trans (before x seen wakes ending)

-- The same for the lanes of a run, where queueing on the device lane takes several steps under its lock.
structure WakeupsKept (past : List Moment) (m : Machine) : Prop where
  asleep : m.hub.deviceLane.parked = true → m.hub.deviceLane.queue = []
  woken : ∀ before x after, past = before ++ x :: after → x.job = .deviceLane .wake → x.machine.hub.terminating = true →
    m.hub.deviceLane.parked = false ∧ ∀ y ∈ after, y.job = .deviceLane .look →
      (y.machine.hub.deviceLane.look y.machine.hub.terminating).1 ≠ .park
  left : (∃ x ∈ past, x.departs) → m.hub.deviceLane.queue = [] ∧ ∀ u callback, .deviceLane (.push callback) ∉ m.agenda u
  lanes : ∀ id lane, m.hub.dataLanes.lane? id = some lane →
    ∃ c, ReflTransGen DataLane.Step ({ connection := c }, false) (lane, m.hub.terminating)
  lanesAsleep : ∀ id lane, m.hub.dataLanes.lane? id = some lane → lane.parked = true → lane.items = [] ∧ lane.stopping = false
  lanesWoken : ∀ before x after id, past = before ++ x :: after → x.job = .dataLane (.wake id) →
    x.machine.hub.terminating = true →
    (∀ lane lane', x.machine.hub.dataLanes.lane? id = some lane → m.hub.dataLanes.lane? id = some lane' → lane'.parked = false) ∧
      ∀ y ∈ after, y.job = .dataLane (.look id) → ∀ lane, y.machine.hub.dataLanes.lane? id = some lane →
        (lane.look y.machine.hub.terminating).1 ≠ .park
  lanesLeft : ∀ x ∈ past, ∀ id lane lane', x.machine.hub.dataLanes.lane? id = some lane → lane.exited = true →
    m.hub.dataLanes.lane? id = some lane' → lane'.exited = true ∧ lane'.items = []

theorem Run.terminating_since (run : Run config hooks past m) {before after : List Moment} (split : past = before ++ x :: after)
    (ending : x.machine.hub.terminating = true) : ∀ y ∈ after, y.machine.hub.terminating = true := by
  intro y member
  obtain ⟨front, back, rfl⟩ := List.append_of_mem member
  have start : (before ++ x :: front) ++ [y] <+: past := ⟨back, by rw [split]; simp⟩
  exact (run.before start).1.terminating x (List.mem_append_right _ (List.mem_cons_self ..)) ending

theorem Run.wakeups (run : Run config hooks past m) : WakeupsKept past m where
  asleep parked := (run.deviceBook.parked parked).1
  woken before x after split wakes ending := by
    have seen : x ∈ past := split ▸ List.mem_append_right _ (List.mem_cons_self ..)
    refine ⟨run.device_woken x seen wakes ending, fun y member _ parks => ?_⟩
    have running := DeviceLane.look_parks _ _ parks
    exact absurd (running.symm.trans (run.terminating_since split ending y member)) Bool.false_ne_true
  left departs := ⟨(run.deserted departs).queue, (run.deserted departs).unpushed⟩
  lanes id lane known := run.lane_reached known
  lanesAsleep id lane known := by
    obtain ⟨c, path⟩ := run.lane_reached known
    exact (DataLane.wakeful path).asleep
  lanesWoken before x after id split wakes ending := by
    have seen : x ∈ past := split ▸ List.mem_append_right _ (List.mem_cons_self ..)
    refine ⟨fun lane lane' known known' => ?_, fun y member _ lane _ parks => ?_⟩
    · obtain ⟨_, same, _, path⟩ := run.lane_path x seen id lane known
      cases known'.symm.trans same
      obtain ⟨_, _, reached, _⟩ := run.reached seen
      obtain ⟨c, before⟩ := reached.lane_reached known
      rw [wakes, Job.turn, if_pos rfl] at path
      exact ((DataLane.wakeful before).woken ending _ path).1
    · have running := DataLane.look_parks _ _ parks
      exact absurd (running.symm.trans (run.terminating_since split ending y member)) Bool.false_ne_true
  lanesLeft x seen id lane lane' known exited known' := by
    obtain ⟨_, same, here, path⟩ := run.lane_path x seen id lane known
    cases known'.symm.trans same
    obtain ⟨_, _, reached, _⟩ := run.reached seen
    obtain ⟨c, before⟩ := reached.lane_reached known
    exact (DataLane.wakeful before).left exited _ (here.trans path)

theorem wakeups_kept :
    (∀ s, ReflTransGen DeviceLane.Step ⟨{}, false, false⟩ s → DeviceLane.Wakeful s) ∧
    (∀ c s, ReflTransGen DataLane.Step ({ connection := c }, false) s → DataLane.Wakeful s) ∧
    ∀ config hooks past m, Run config hooks past m → WakeupsKept past m :=
  ⟨fun _ path => DeviceLane.wakeful path, fun _ _ path => DataLane.wakeful path, fun _ _ _ _ run => run.wakeups⟩

-- Both workers sleep when the hub is shut down, and are woken up.
def sleepingSession : List Moment × Machine :=
  act (.report ⟨1⟩ (.connected {} ⟨4⟩)) (rounds [(24, 0), (6, 1), (2, 2)]) (solo quietConfig [] [.run])

def wokenSession : List Moment × Machine := act .shutdown (rounds [(10, 0), (2, 1), (3, 2), (8, 0)]) sleepingSession

theorem wakeups_of_two :
    (WakeupsKept sleepingSession.1 sleepingSession.2 ∧ sleepingSession.2.hub.deviceLane.parked = true ∧
      sleepingSession.2.hub.dataLanes.lanes.map (·.parked) = [true]) ∧
    (WakeupsKept wokenSession.1 wokenSession.2 ∧ wokenSession.2.hub.deviceLane.parked = false ∧
      wokenSession.2.hub.dataLanes.lanes.map (fun lane => (lane.parked, lane.exited)) = [(false, true)] ∧
      wokenSession.2.agendas.all List.isEmpty = true) := by
  refine ⟨⟨wakeups_kept.2.2 _ _ _ _ (act_run (solo_run _ _ _) _ _), ?_⟩,
    wakeups_kept.2.2 _ _ _ _ (act_run (act_run (solo_run _ _ _) _ _) _ _), ?_⟩
  all_goals decide +kernel

end TransportHub
