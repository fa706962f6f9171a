import TransportHub.Proofs.Configuration
import TransportHub.Proofs.Dispatcher
import TransportHub.Proofs.Reconnects
/-!
Connections by themselves. What a dispatcher shows of one connection, and what operations on that connection, on the
listeners and on the whole come to, is a matter of these operations alone: a hub that has but one connection serves
as the reference, and a session with any other connections besides goes the way of the reference.
-/

set_option autoImplicit false

namespace TransportHub

open DataLanes (Slot)

variable {config : Config} {hooks : List Hook} {past more : List Moment} {m m' : Machine} {t u w : ThreadId}
  {job : Job} {later : List Job} {slot : Slot} {id : LaneId} {c d : ConnectionHandle} {op : Op}

-- What is to be seen of one connection. A lane in the map takes callbacks or has been left by its worker; the further
-- requests for threads of the connection are granted or not.
structure View where
  terminating : Bool := false
  closed : Bool := false
  listeners : ListenerSet := {}
  names : List (String × ListenerId) := []
  known : Nat := 0
  lane : Option Bool := none
  refusals : Nat → Option String := fun _ => none

def Machine.view (c : ConnectionHandle) (m : Machine) : View where
  terminating := m.hub.terminating
  closed := m.hub.dataLanes.closed
  listeners := m.hub.dataLanes.listeners
  names := m.cast.dataListenerNames
  known := m.cast.listeners.length
  lane := (m.hub.dataLanes.slots.get? c).map fun slot => m.ready slot.lane
  refusals := m.system.refusal (m.hub.config.dataThread c)

-- The operations that concern a connection.
def Op.about (c : ConnectionHandle) : Op → Bool
  | .dataLanes (.start d) | .dataLanes (.stop d) | .dataLanes (.enqueue d _) => d = c
  | _ => true

namespace View

def resolve (v : View) : Ref (ListenerSpec Op) → ListenerId × View
  | .fresh spec => (⟨v.known⟩, { v with names := (spec.name, ⟨v.known⟩) :: v.names, known := v.known + 1 })
  | .named name =>
      match v.names.lookup name with
      | some l => (l, v)
      | none => (⟨v.known⟩, { v with names := (name, ⟨v.known⟩) :: v.names, known := v.known + 1 })

def answer (config : Config) (c : ConnectionHandle) (v : View) : System.Answer :=
  System.answer ⟨fun _ => v.refusals⟩ (config.dataThread c)

def asked (v : View) : View := { v with refusals := fun n => v.refusals (n + 1) }

def after (config : Config) (c : ConnectionHandle) (v : View) : Op → Reply × View
  | .dataLanes (.start _) =>
      if v.closed then (.done (.error .shuttingDown), v)
      else if v.lane.isSome then (.done (.ok ()), v)
      else match v.answer config c with
        | .started => (.done (.ok ()), { v.asked with lane := some !v.terminating })
        | .refused cause => (.done (.error (.workerSpawn cause)), v.asked)
        | .crashed => (.panicked, v.asked)
  | .dataLanes (.stop _) => (.flag v.lane.isSome, { v with lane := none })
  | .dataLanes (.enqueue _ _) =>
      if v.lane = some true then (.flag true, { v with lane := some !v.terminating }) else (.flag false, v)
  | .dataLanes (.shutdown _) => (.unit, { v with terminating := true, closed := true, lane := none })
  | .terminate => (.unit, { v with terminating := true })
  | .addDataListener ref => (.unit, { (v.resolve ref).2 with listeners := v.listeners.add (v.resolve ref).1 })
  | .removeDataListener ref =>
      (.flag (v.listeners.remove (v.resolve ref).1).1,
        { (v.resolve ref).2 with listeners := (v.listeners.remove (v.resolve ref).1).2 })
  | _ => (.unknownOperation, v)

def queued (c : ConnectionHandle) (v : View) : Op → List DataCallback
  | .dataLanes (.enqueue d callback) => if d = c ∧ v.lane = some true then [callback] else []
  | _ => []

-- The calls of listeners that it brings about.
def calls (c : ConnectionHandle) (v : View) (op : Op) : List (ListenerId × Callback) :=
  if v.terminating then [] else (v.queued c op).flatMap fun callback => v.listeners.snapshot.map (·, .data callback)

end View

variable {v : View}

theorem view_ext {v v' : View} (terminating : v'.terminating = v.terminating) (closed : v'.closed = v.closed)
    (listeners : v'.listeners = v.listeners) (names : v'.names = v.names) (known : v'.known = v.known) (lane : v'.lane = v.lane)
    (refusals : v'.refusals = v.refusals) : v' = v := by
  cases v
  cases v'
  simp_all

theorem Aside.view (aside : Aside m m') (c : ConnectionHandle) : m'.view c = m.view c := by
  have ready : (fun slot : Slot => m'.ready slot.lane) = fun slot => m.ready slot.lane := funext fun slot => aside.ready slot.lane
  exact view_ext aside.terminating aside.closed aside.listeners aside.names aside.known
    (by simp only [Machine.view, aside.slots, ready])
    (by simp only [Machine.view, aside.system, aside.config])

theorem view_answer (configured : m.hub.config = config) (c : ConnectionHandle) :
    (m.view c).answer config c = m.system.answer (config.dataThread c) := by
  subst configured
  rfl

theorem view_occupied (m : Machine) (c : ConnectionHandle) : (m.view c).lane.isSome = m.hub.dataLanes.occupied c := by
  simp only [Machine.view, DataLanes.occupied, Table.contains, Option.isSome_map]

def Job.unseen : Job → Bool
  | .log _ | .acquire _ | .release _ | .answer _ | .resume | .join .. => true
  | .dataLane job => (job matches .start _ | .reap | .retire _ | .find .. | .orphan)
  | _ => false

theorem view_unseen (unseen : job.unseen = true) (c : ConnectionHandle) : (job.exec m .caller).1.view c = m.view c := by
  cases job with
  | log record =>
      simp only [Job.exec, Machine.log]
      split <;> rfl
  | acquire | release | answer | resume | join => rfl
  | dataLane job =>
      cases job with
      | start | reap | retire | find | orphan => rfl
      | _ => cases unseen
  | _ => cases unseen

theorem view_spawn (homes : ∀ slot, m.hub.dataLanes.slots.get? c = some slot → m.hub.serves slot.lane c) (d : ConnectionHandle) :
    (Job.exec m .caller (.dataLane (.spawn d))).1.view c = if c = d then (m.view c).asked else m.view c := by
  have config := (lasting_exec m .caller (.dataLane (.spawn d))).config
  have system : (Job.exec m .caller (.dataLane (.spawn d))).1.system = m.system.advance (m.hub.config.dataThread d) :=
    (books_exec m .caller (.dataLane (.spawn d)) []).system
  have terminating : (Job.exec m .caller (.dataLane (.spawn d))).1.hub.terminating = m.hub.terminating := by
    simp only [Job.exec, DataLaneJob.exec]
    split <;> rfl
  have slots : (Job.exec m .caller (.dataLane (.spawn d))).1.hub.dataLanes.slots = m.hub.dataLanes.slots := by
    simp only [Job.exec, DataLaneJob.exec]
    split <;> rfl
  have lane : ((Job.exec m .caller (.dataLane (.spawn d))).1.view c).lane = (m.view c).lane := by
    simp only [Machine.view, slots]
    cases found : m.hub.dataLanes.slots.get? c with
    | none => rfl
    | some slot =>
        obtain ⟨lane, known, _⟩ := homes slot found
        have after := lane_exec m .caller (.dataLane (.spawn d)) known
        simp only [Option.map_some, Machine.ready, known, after, terminating, Job.turn]
  have still : (Job.exec m .caller (.dataLane (.spawn d))).1.view c =
      { m.view c with refusals := (m.system.advance (m.hub.config.dataThread d)).refusal (m.hub.config.dataThread c) } := by
    refine view_ext terminating ?_ ?_ ?_ ?_ lane (by simp only [Machine.view, config, system])
    all_goals
      simp only [Job.exec, DataLaneJob.exec]
      split <;> rfl
  rw [still]
  by_cases same : c = d
  · subst same
    simp [View.asked, Machine.view, System.advance]
  · rw [if_neg same]
    exact view_ext rfl rfl rfl rfl rfl rfl (by simp [Machine.view, System.advance, dataThread_inj, same])

theorem view_publish (unclosed : m.hub.dataLanes.closed = false) (vacant : m.hub.dataLanes.occupied d = false) :
    (Job.exec m .caller (.dataLane (.publish d slot))).1.view c =
      if c = d then { m.view c with lane := some (m.ready slot.lane) } else m.view c := by
  simp only [Job.exec, DataLaneJob.exec, unclosed, vacant, Bool.false_eq_true, if_false]
  by_cases same : c = d
  · subst same
    rw [if_pos rfl]
    exact view_ext rfl rfl rfl rfl rfl
      (by simp only [Machine.view, Machine.setDataLanes, DataLanes.publish, Table.get?_insert, if_true]; rfl) rfl
  · rw [if_neg same]
    exact view_ext rfl rfl rfl rfl rfl
      (by simp only [Machine.view, Machine.setDataLanes, DataLanes.publish, Table.get?_insert, if_neg same]; rfl) rfl

theorem view_stop (found : m.hub.dataLanes.slots.get? d = some slot) :
    (Job.exec m .caller (.dataLane (.stop d))).1.view c = if c = d then { m.view c with lane := none } else m.view c := by
  simp only [Job.exec, DataLaneJob.exec, DataLanes.withdraw, found]
  by_cases same : c = d
  · subst same
    rw [if_pos rfl]
    exact view_ext rfl rfl rfl rfl rfl (by simp only [Machine.view, Machine.setDataLanes, Table.get?_erase, if_true]; rfl) rfl
  · rw [if_neg same]
    exact view_ext rfl rfl rfl rfl rfl (by simp only [Machine.view, Machine.setDataLanes, Table.get?_erase, if_neg same]; rfl) rfl

theorem view_close (join : Bool) :
    (Job.exec m .caller (.dataLane (.close join))).1.view c = { m.view c with closed := true, lane := none } :=
  view_ext rfl rfl rfl rfl rfl rfl rfl

theorem view_elsewhere {job : DataLaneJob} (homes : ∀ slot, m.hub.dataLanes.slots.get? c = some slot → m.hub.serves slot.lane c)
    (lanes : ∃ lanes metrics, (job.exec m).1.hub = { m.hub with metrics, dataLanes := { m.hub.dataLanes with lanes } })
    (cast : (job.exec m).1.cast = m.cast) (system : (job.exec m).1.system = m.system)
    (apart : ∀ slot lane, m.hub.dataLanes.slots.get? c = some slot → (Job.dataLane job).turn m slot.lane lane = lane) :
    (job.exec m).1.view c = m.view c := by
  obtain ⟨lanes, metrics, hub⟩ := lanes
  have ready : ((job.exec m).1.hub.dataLanes.slots.get? c).map (fun slot => (job.exec m).1.ready slot.lane) =
      (m.hub.dataLanes.slots.get? c).map fun slot => m.ready slot.lane := by
    have slots : (job.exec m).1.hub.dataLanes.slots = m.hub.dataLanes.slots := by rw [hub]
    have terminating : (job.exec m).1.hub.terminating = m.hub.terminating := by rw [hub]
    rw [slots]
    cases found : m.hub.dataLanes.slots.get? c with
    | none => rfl
    | some slot =>
        obtain ⟨lane, known, _⟩ := homes slot found
        have after := lane_dataLane m job known
        rw [apart slot lane found] at after
        simp only [Option.map_some, Machine.ready, known, after, terminating]
  refine view_ext ?_ ?_ ?_ ?_ ?_ ready ?_
  · simp only [Machine.view, hub]
  · simp only [Machine.view, hub]
  · simp only [Machine.view, hub]
  · simp only [Machine.view, cast]
  · simp only [Machine.view, cast]
  · simp only [Machine.view, hub, system]

theorem view_requestStop (homes : ∀ slot, m.hub.dataLanes.slots.get? c = some slot → m.hub.serves slot.lane c)
    (unmapped : ∀ slot, m.hub.dataLanes.slots.get? c = some slot → slot.lane ≠ id) :
    (Job.exec m .caller (.dataLane (.requestStop id))).1.view c = m.view c :=
  view_elsewhere homes ⟨_, m.hub.metrics, rfl⟩ rfl rfl fun slot _ found => if_neg fun same => unmapped slot found same.symm

theorem view_wake (empty : m.hub.dataLanes.slots.get? c = none) : (Job.exec m .caller (.dataLane (.wake id))).1.view c = m.view c :=
  view_elsewhere (fun slot found => by rw [empty] at found; cases found) ⟨_, m.hub.metrics, rfl⟩ rfl rfl
    fun slot lane found => by rw [empty] at found; cases found

theorem exec_push {callback : DataCallback} (accepts : (m.hub.dataLanes.lane? id).any (·.accepts) = true) :
    ∃ lanes metrics, (DataLaneJob.exec m (.push id d callback)).1.hub =
      { m.hub with metrics, dataLanes := { m.hub.dataLanes with lanes } } ∧
      (DataLaneJob.exec m (.push id d callback)).1.cast = m.cast ∧
          (DataLaneJob.exec m (.push id d callback)).1.system = m.system := by
  simp only [DataLaneJob.exec, accepts, if_true]
  exact ⟨_, _, rfl, rfl, rfl⟩

theorem view_push {callback : DataCallback} (homes : ∀ d slot, m.hub.dataLanes.slots.get? d = some slot → m.hub.serves slot.lane d)
    (found : m.hub.dataLanes.slots.get? d = some slot) (accepts : (m.hub.dataLanes.lane? slot.lane).any (·.accepts) = true) :
    (Job.exec m .caller (.dataLane (.push slot.lane d callback))).1.view c =
      if c = d then { m.view c with lane := some !m.hub.terminating } else m.view c := by
  obtain ⟨lanes, metrics, hub, cast, system⟩ := @exec_push m slot.lane d callback accepts
  by_cases same : c = d
  · subst same
    rw [if_pos rfl]
    obtain ⟨lane, known, _⟩ := homes c slot found
    rw [known, Option.any_some] at accepts
    have after := lane_dataLane m (.push slot.lane c callback) known
    rw [Job.turn, if_pos ⟨rfl, accepts⟩] at after
    have takes : (lane.push callback).accepts = true := accepts
    have terminating : (DataLaneJob.exec m (.push slot.lane c callback)).1.hub.terminating = m.hub.terminating := by rw [hub]
    have slots : (DataLaneJob.exec m (.push slot.lane c callback)).1.hub.dataLanes.slots = m.hub.dataLanes.slots := by rw [hub]
    refine view_ext ?_ ?_ ?_ ?_ ?_ ?_ ?_
    · exact terminating
    · simp only [Job.exec, Machine.view, hub]
    · simp only [Job.exec, Machine.view, hub]
    · simp only [Job.exec, Machine.view, cast]
    · simp only [Job.exec, Machine.view, cast]
    · simp only [Job.exec, Machine.view, slots, found, Option.map_some, Machine.ready, after, Option.any_some, takes,
        terminating, Bool.true_and]
      exact congrArg some (Bool.or_false _)
    · simp only [Job.exec, Machine.view, hub, system]
  · rw [if_neg same]
    refine view_elsewhere (fun slot found => homes c slot found) ⟨lanes, metrics, hub⟩ cast system fun slot' lane found' =>
      if_neg fun taken => same ?_
    obtain ⟨one, _⟩ := taken
    exact serves_unique (homes c slot' found') (one ▸ homes d slot found)

theorem view_terminating (staffed : Staffed config past m) (resting : Resting past m) {m' : Machine}
    (hub : m'.hub = { m.hub with terminating := true }) (cast : m'.cast = m.cast) (system : m'.system = m.system) :
    m'.view c = { m.view c with terminating := true } := by
  have ready : (m.hub.dataLanes.slots.get? c).map
      (fun slot => m'.ready slot.lane) = (m.hub.dataLanes.slots.get? c).map fun slot => m.ready slot.lane := by
    cases found : m.hub.dataLanes.slots.get? c with
    | none => rfl
    | some slot =>
        have member := staffed.run.enlisted.1.2 slot (staffed.run.enlisted.1.1 c slot found)
        obtain ⟨lane, known, _⟩ := staffed.homes c slot found
        simp only [Option.map_some, Machine.ready, hub, known, Option.any_some, Bool.not_true, Bool.false_or]
        cases accepts : lane.accepts with
        | false => rfl
        | true => simp [(resting slot member).accepts staffed.run member known accepts]
  refine view_ext ?_ ?_ ?_ ?_ ?_ ?_ ?_
  · simp only [Machine.view, hub]
  · simp only [Machine.view, hub]
  · simp only [Machine.view, hub]
  · simp only [Machine.view, cast]
  · simp only [Machine.view, cast]
  · simp only [Machine.view, hub]
    exact ready
  · simp only [Machine.view, hub, system]

theorem view_resolve (m : Machine) (c : ConnectionHandle) (ref : Ref (ListenerSpec Op)) :
    (m.cast.resolveDataListener ref).1 = ((m.view c).resolve ref).1 ∧
      (m.cast.resolveDataListener ref).2.dataListenerNames = ((m.view c).resolve ref).2.names ∧
      (m.cast.resolveDataListener ref).2.listeners.length = ((m.view c).resolve ref).2.known := by
  cases ref with
  | fresh spec => simp [Cast.resolveDataListener, Cast.resolveListener, Cast.enterListener, View.resolve, Machine.view]
  | named name =>
      simp only [Cast.resolveDataListener, Cast.resolveListener, View.resolve, Machine.view]
      cases m.cast.dataListenerNames.lookup name with
      | some l => exact ⟨rfl, rfl, rfl⟩
      | none => simp [Cast.enterListener]

theorem resolve_keeps (v : View) (ref : Ref (ListenerSpec Op)) : (v.resolve ref).2.terminating = v.terminating ∧
    (v.resolve ref).2.closed = v.closed ∧ (v.resolve ref).2.lane = v.lane ∧ (v.resolve ref).2.refusals = v.refusals := by
  cases ref with
  | fresh spec => exact ⟨rfl, rfl, rfl, rfl⟩
  | named name =>
      simp only [View.resolve]
      split <;> exact ⟨rfl, rfl, rfl, rfl⟩

theorem view_listeners (owned : m.hub.owned = true)
    (changes : (∃ ref, op = .addDataListener ref) ∨ ∃ ref, op = .removeDataListener ref) :
    (m.perform op).1.view c = ((m.view c).after config c op).2 ∧ (m.perform op).2 = [.answer ((m.view c).after config c op).1] := by
  rcases changes with ⟨ref, rfl⟩ | ⟨ref, rfl⟩ <;>
    obtain ⟨l, names, known⟩ := view_resolve m c ref <;> obtain ⟨terminating, closed, lane, refusals⟩ :=
    resolve_keeps (m.view c) ref <;>
    simp only [Machine.perform, owned, if_true, Machine.performOwned, View.after]
  · refine ⟨view_ext terminating.symm closed.symm ?_ names known lane.symm refusals.symm, trivial⟩
    rw [← l]
    rfl
  · refine ⟨view_ext terminating.symm closed.symm ?_ names known lane.symm refusals.symm, ?_⟩
    · rw [← l]
      rfl
    · rw [← l]
      rfl

def aim (config : Config) (c : ConnectionHandle) (v : View) (op : Op) : View := if op.about c then (v.after config c op).2 else v

def Told (config : Config) (c : ConnectionHandle) (v : View) (op : Op) (reply : Reply) : Prop :=
  op.about c = true → reply = (v.after config c op).1

-- The caller's agenda, and whether it has the map, as long as nobody has been woken: each procedure of an operation
-- up to the job that wakes a worker.
inductive Early (past : List Moment) (m : Machine) (v : View) : Op → View → Bool → List Job → Prop where
  | perform (op : Op) (kind : op.dispatcher = true) : Early past m v op v false [.perform op]
  | seekStart (d : ConnectionHandle) :
      Early past m v (.dataLanes (.start d)) v false [.acquire .laneMap, .dataLane (.start d)]
  | start (d : ConnectionHandle) : Early past m v (.dataLanes (.start d)) v true [.dataLane (.start d)]
  | begun (d : ConnectionHandle) (unclosed : m.hub.dataLanes.closed = false) (vacant : m.hub.dataLanes.occupied d = false) :
      Early past m v (.dataLanes (.start d)) v true [.release .laneMap, .dataLane .reap, .dataLane (.spawn d)]
  | reap (d : ConnectionHandle) (unclosed : m.hub.dataLanes.closed = false) (vacant : m.hub.dataLanes.occupied d = false) :
      Early past m v (.dataLanes (.start d)) v false [.dataLane .reap, .dataLane (.spawn d)]
  | joins (d : ConnectionHandle) (unclosed : m.hub.dataLanes.closed = false) (vacant : m.hub.dataLanes.occupied d = false)
      (ws : List ThreadId)
      (gone : ∀ w ∈ ws, m.agenda w = [] ∧ ∃ slot ∈ roster past, slot.worker = w) :
      Early past m v (.dataLanes (.start d)) v false (ws.map DataLaneJob.joinWorker ++ [.dataLane (.spawn d)])
  | seekStop (d : ConnectionHandle) : Early past m v (.dataLanes (.stop d)) v false [.acquire .laneMap, .dataLane (.stop d)]
  | stop (d : ConnectionHandle) : Early past m v (.dataLanes (.stop d)) v true [.dataLane (.stop d)]
  | find (d : ConnectionHandle) (callback : DataCallback) :
      Early past m v (.dataLanes (.enqueue d callback)) v false [.dataLane (.find d callback)]
  | push (d : ConnectionHandle) (callback : DataCallback) (slot : Slot) (found : m.hub.dataLanes.slots.get? d = some slot) :
      Early past m v (.dataLanes (.enqueue d callback)) v false [.dataLane (.push slot.lane d callback)]
  | close (join : Bool) :
      Early past m v (.dataLanes (.shutdown join)) { v with terminating := true } false [.dataLane (.close join), .answer .unit]

inductive Rest (op : Op) (past : List Moment) (m : Machine) (reply : Reply) : Bool → List Job → Prop where
  | answer : Rest op past m reply false [.answer reply]
  | release {rest : List Job} (behind : Rest op past m reply false rest) : Rest op past m reply true (.release .laneMap :: rest)
  | log {held : Bool} {rest : List Job} (record : Log.Record) (behind : Rest op past m reply held rest) :
      Rest op past m reply held (.log record :: rest)
  | resume {held : Bool} {rest : List Job} (behind : Rest op past m reply held rest) : Rest op past m reply held (.resume :: rest)
  | orphan {held : Bool} {rest : List Job} (behind : Rest op past m reply held rest) : Rest op past m reply held
      (.dataLane .orphan :: rest)
  | dismiss {held : Bool} {rest : List Job} (slot : Slot) (member : slot ∈ roster past) (stops : ∃ d, op = .dataLanes (.stop d))
      (unmapped : ∀ d other, m.hub.dataLanes.slots.get? d = some other → other.lane ≠ slot.lane)
      (behind : Rest op past m reply held rest) :
      Rest op past m reply held (.dataLane (.requestStop slot.lane) :: .dataLane (.retire slot.worker) :: rest)
  | retire {held : Bool} {rest : List Job} (w : ThreadId) (dismissed : Dismissed past m w) (behind : Rest op past m reply held rest) :
      Rest op past m reply held (.dataLane (.retire w) :: rest)

def Leaving (past : List Moment) (m : Machine) (ids : List LaneId) (w : ThreadId) : Prop :=
  ∃ slot ∈ roster past, slot.worker = w ∧ (m.agenda w = [] ∨ slot.lane ∈ ids ∨
    ∃ lane, m.hub.dataLanes.lane? slot.lane = some lane ∧ lane.parked = false)

-- The caller's agenda once a worker has been woken, or nobody will be.
inductive Late (config : Config) (c : ConnectionHandle) (v : View) (past : List Moment) (m : Machine) : Op → View → Bool →
    List Job → Prop where
  | seekPublish (d : ConnectionHandle) (slot : Slot) (unclosed : m.hub.dataLanes.closed = false)
      (vacant : m.hub.dataLanes.occupied d = false)
      (home : m.hub.serves slot.lane d) (fresh : m.ready slot.lane = !v.terminating)
        (started : c = d → v.answer config c = .started) :
      Late config c v past m (.dataLanes (.start d)) (if c = d then v.asked else v) false
        [.acquire .laneMap, .dataLane (.publish d slot)]
  | publish (d : ConnectionHandle) (slot : Slot) (unclosed : m.hub.dataLanes.closed = false)
      (vacant : m.hub.dataLanes.occupied d = false)
      (home : m.hub.serves slot.lane d) (fresh : m.ready slot.lane = !v.terminating)
        (started : c = d → v.answer config c = .started) :
      Late config c v past m (.dataLanes (.start d)) (if c = d then v.asked else v) true [.dataLane (.publish d slot)]
  | closing (join : Bool) (ids : List LaneId) (ws : List ThreadId) (empty : ∀ d, m.hub.dataLanes.slots.get? d = none)
      (ending : m.hub.terminating = true) (leaving : ∀ w ∈ ws, Leaving past m ids w) :
      Late config c v past m (.dataLanes (.shutdown join)) (aim config c v (.dataLanes (.shutdown join))) false
        (ids.map (fun id => .dataLane (.wake id)) ++ (ws.map DataLaneJob.joinWorker ++ [.answer .unit]))
  | rest (op : Op) (reply : Reply) {held : Bool} {agenda : List Job} (rest : Rest op past m reply held agenda)
      (told : Told config c v op reply) : Late config c v past m op (aim config c v op) held agenda
  | crash (d : ConnectionHandle) (told : Told config c v (.dataLanes (.start d)) .panicked) :
      Late config c v past m (.dataLanes (.start d)) (aim config c v (.dataLanes (.start d))) false [.panic]

theorem Rest.moves {x : Moment} {reply : Reply} {held : Bool} {agenda : List Job} (rest : Rest op past m reply held agenda)
    (slots : m'.hub.dataLanes.slots = m.hub.dataLanes.slots)
    (stopping : ∀ id lane, m.hub.dataLanes.lane? id = some lane → lane.stopping = true →
      ∃ lane', m'.hub.dataLanes.lane? id = some lane' ∧ lane'.stopping = true) : Rest op (past ++ [x]) m' reply held agenda := by
  induction rest with
  | answer => exact .answer
  | release _ ih => exact .release ih
  | log record _ ih => exact .log record ih
  | resume _ ih => exact .resume ih
  | orphan _ ih => exact .orphan ih
  | dismiss slot member stops unmapped _ ih => exact .dismiss slot (mem_roster_snoc.mpr (.inl member)) stops (slots ▸ unmapped) ih
  | retire w dismissed _ ih => exact .retire w (dismissed.stays stopping) ih

theorem Leaving.stays {x : Moment} {ids : List LaneId} (leaving : Leaving past m ids w) (ended : m.agenda w = [] → m'.agenda w = [])
    (awake : ∀ id lane, m.hub.dataLanes.lane? id = some lane → lane.parked = false →
      ∃ lane', m'.hub.dataLanes.lane? id = some lane' ∧ lane'.parked = false) : Leaving (past ++ [x]) m' ids w := by
  obtain ⟨slot, member, same, ending⟩ := leaving
  refine ⟨slot, mem_roster_snoc.mpr (.inl member), same, ?_⟩
  rcases ending with idle | wakes | ⟨lane, known, up⟩
  · exact .inl (ended idle)
  · exact .inr (.inl wakes)
  · exact .inr (.inr (awake slot.lane lane known up))

theorem Late.aside {x : Moment} {v' : View} {held : Bool} {agenda : List Job} (late : Late config c v past m op v' held agenda)
    (aside : Aside m m') : Late config c v (past ++ [x]) m' op v' held agenda := by
  have occupied : ∀ d, m'.hub.dataLanes.occupied d = m.hub.dataLanes.occupied d := fun d => congrArg (·.contains d) aside.slots
  cases late with
  | seekPublish d slot unclosed vacant home fresh started =>
      exact .seekPublish d slot (aside.closed.trans unclosed) ((occupied d).trans vacant) ((aside.serves slot.lane d).mpr home)
        ((aside.ready slot.lane).trans fresh) started
  | publish d slot unclosed vacant home fresh started =>
      exact .publish d slot (aside.closed.trans unclosed) ((occupied d).trans vacant) ((aside.serves slot.lane d).mpr home)
        ((aside.ready slot.lane).trans fresh) started
  | closing join ids ws empty ending leaving =>
      exact .closing join ids ws (fun d => by rw [aside.slots]; exact empty d) (aside.terminating.trans ending)
        fun w member => (leaving w member).stays (aside.ended w) (aside.awake ending)
  | rest op reply rest told => exact .rest op reply (rest.moves aside.slots aside.stopping) told
  | crash d told => exact .crash d told

theorem Late.listeners {v' : View} {held : Bool} {agenda : List Job} (late : Late config c v past m op v' held agenda) :
    v'.listeners = (aim config c v op).listeners := by
  have start : ∀ d, (aim config c v (.dataLanes (.start d))).listeners = v.listeners := fun d => by
    simp only [aim, View.after]
    by_cases about : Op.about c (.dataLanes (.start d)) = true
    · rw [if_pos about]
      split
      · rfl
      · split
        · rfl
        · split <;> rfl
    · rw [if_neg about]
  have asked : ∀ d, (if c = d then v.asked else v).listeners = v.listeners := fun d => by
    split <;> rfl
  cases late with
  | seekPublish d => exact (asked d).trans (start d).symm
  | publish d => exact (asked d).trans (start d).symm
  | _ => rfl

structure Moment.Silent (x : Moment) : Prop where
  gathers : x.job.gathers x.machine = none
  accepted : ∀ id, x.job.accepted x.machine id = []
  stops : ∀ id, x.job ≠ .dataLane (.requestStop id)

-- What the history of an operation says: it queues nothing on a lane of the connection, or all that it queues on one of
-- them; who gathers listeners finds those that the operation leaves; and lanes are stopped by a stop only.
structure Tally (config : Config) (c : ConnectionHandle) (v : View) (op : Op) (more : List Moment) (m : Machine) : Prop where
  accepted : (v.queued c op = [] ∧ ∀ id, acceptedOn id more = [] ∨ ∃ d, d ≠ c ∧ m.hub.serves id d) ∨
    ∃ home, m.hub.serves home c ∧ acceptedOn home more = v.queued c op ∧ ∀ id, id ≠ home → acceptedOn id more = []
  rounds : ∀ x ∈ more, ∀ r, x.job.gathers x.machine = some r →
    r.listeners = (aim config c v op).listeners.snapshot ∧ r.batch = r.data.map .data
  stops : ∀ x ∈ more, ∀ id, x.job = .dataLane (.requestStop id) → ∃ d, op = .dataLanes (.stop d)

theorem Tally.silent (silent : ∀ x ∈ more, x.Silent) (idle : v.queued c op = []) : Tally config c v op more m where
  accepted := .inl ⟨idle, fun id => .inl (List.flatMap_eq_nil_iff.mpr fun x member => (silent x member).accepted id)⟩
  rounds x member r gathers := by
    rw [(silent x member).gathers] at gathers
    cases gathers
  stops x member id stops := absurd stops ((silent x member).stops id)

theorem Tally.snoc {x : Moment} (tally : Tally config c v op more m) (accepted : ∀ id, x.job.accepted x.machine id = [])
    (serves : ∀ id d, m.hub.serves id d → m'.hub.serves id d)
    (gathers : ∀ r, x.job.gathers x.machine = some r → r.listeners = (aim config c v op).listeners.snapshot ∧
      r.batch = r.data.map .data)
    (stops : ∀ id, x.job = .dataLane (.requestStop id) → ∃ d, op = .dataLanes (.stop d)) : Tally config c v op (more ++ [x]) m' where
  accepted := by
    have same : ∀ id, acceptedOn id (more ++ [x]) = acceptedOn id more := fun id => by rw [acceptedOn_snoc, accepted, List.append_nil]
    simp only [same]
    rcases tally.accepted with ⟨idle, nothing⟩ | ⟨home, serving, here, elsewhere⟩
    · exact .inl ⟨idle, fun id => (nothing id).imp_right fun ⟨d, apart, serving⟩ => ⟨d, apart, serves id d serving⟩⟩
    · exact .inr ⟨home, serves home c serving, here, elsewhere⟩
  rounds y member := (List.mem_append.mp member).elim (tally.rounds y) fun last => List.mem_singleton.mp last ▸ gathers
  stops y member := (List.mem_append.mp member).elim (tally.stops y) fun last => List.mem_singleton.mp last ▸ stops

structure Poised (past more : List Moment) (m : Machine) (held : Bool) : Prop where
  locks : m.locks = if held then [(.laneMap, .caller)] else []
  unharmed : m.panicked .caller = false
  resting : Resting (past ++ more) m
  silent : ∀ x ∈ more, x.Silent

inductive Stage (config : Config) (c : ConnectionHandle) (v : View) (op : Op) (past more : List Moment) (m : Machine) : Prop where
  | early {v' : View} {held : Bool} (shape : Early (past ++ more) m v op v' held (m.agenda .caller)) (view : m.view c = v')
      (poised : Poised past more m held)
  | late {v' : View} {held : Bool} (shape : Late config c v (past ++ more) m op v' held (m.agenda .caller)) (view : m.view c = v')
      (locks : m.locks = if held then [(.laneMap, .caller)] else []) (unharmed : m.panicked .caller = false)
      (tally : Tally config c v op more m)
  | done (idle : m.agenda .caller = []) (view : m.view c = aim config c v op) (locks : m.locks = [])
      (told : Told config c v op m.result) (tally : Tally config c v op more m)

end TransportHub
