import Mathlib.Logic.Function.Iterate
import TransportHub.Proofs.Composure
import TransportHub.Proofs.Gathering
import TransportHub.Proofs.Standing
import TransportHub.Proofs.Waiting
/-!
Races for a lane. What the threads of a gathering count, queue and record adds up, whoever comes first; none of them
blocks the others; and of the lanes that they open one gets into the map at most, while the others are stopped.
-/

set_option autoImplicit false

namespace TransportHub

open DataLanes (Slot)

variable {config : Config} {hooks : List Hook} {past more : List Moment} {start m m' : Machine} {t u w : ThreadId}
  {ts : List ThreadId} {later : ThreadId → List Job} {left : ThreadId → List Job} {plan rest behind next : List Job}
  {job : Job} {x : Moment} {slot : Slot} {id : LaneId} {c : ConnectionHandle}

variable {device? : Option DeviceInfo} {new : Slot → Prop} {r : Reply} {h : Hub}

theorem calm_weightless {f : Job → Nat} (still : ∀ j : Job, j.calm = true → f j = 0) (calm : job.calm = true)
    (behind : ∀ j ∈ next, j = .resume ∨ ∃ record, j = .log record) : 0 + weight f next = f job := by
  rw [still job calm, weight_zero fun j member => still j ?_]
  rcases behind j member with rfl | ⟨record, rfl⟩ <;> rfl

theorem Gathering.tally {α : Type} {q : Hub → α} {f : α → α} {g : Job → Nat} (single : ts.Nodup)
    (moves : ∀ {new : Slot → Prop} {m : Machine} {job : Job} {h : Hub} {next : List Job}, Move c device? new m job h next →
      ∃ k, q h = f^[k] (q m.hub) ∧ k + weight g next = g job)
    (idles : ∀ {m : Machine} {id : LaneId} {job : Job} {h : Hub} {next : List Job}, Dawdling m id job h next → q h = q m.hub)
    (gathering : Gathering ts later start (outset device? c) more m left) (run : Run config hooks past start)
      (ready : Welcoming c start) :
    ∃ k, q m.hub = f^[k] (q start.hub) ∧ k + crowd g ts left = ts.length * weight g (outset device? c) := by
  refine Gathering.induct (P := fun _ h left => ∃ k, q h = f^[k] (q start.hub) ∧
    k + crowd g ts left = ts.length * weight g (outset device? c)) ⟨0, rfl, ?_⟩ ?own ?worker gathering run ready
  · rw [Nat.zero_add, crowd_plan]
  case own =>
    intro more m left t job rest hub next _ before mine first move
    obtain ⟨k, same, count⟩ := before
    obtain ⟨n, goes, adds⟩ := moves move
    refine ⟨n + k, ?_, ?_⟩
    · rw [goes, same, Function.iterate_add_apply]
    · have here := crowd_own (f := g) single mine first next
      omega
  case worker =>
    intro more m left slot job behind hub next _ before _ _ idle
    obtain ⟨k, same, count⟩ := before
    exact ⟨k, (idles idle).trans same, count⟩

def Job.counting : Job → Nat
  | .hub (.connect ..) | .hub (.connectionStarted ..) | .deviceLane (.enqueue _) => 1
  | _ => 0

def Job.queueing : Job → Nat
  | .hub (.connect ..) | .hub (.connectionStarted ..) | .deviceLane (.enqueue _) | .deviceLane (.push _) => 1
  | _ => 0

def Job.recording : Job → Nat
  | .hub (.connect ..) | .hub (.recordConnection ..) => 1
  | _ => 0

def Metrics.count (metrics : Metrics) : Metrics := { metrics with enqueued := metrics.enqueued + 1 }

-- What the report of a connection makes of a part of the hub; a mere start of its lane leaves that alone.
def onReport {α : Type} (device? : Option DeviceInfo) (f : DeviceInfo → α → α) (a : α) : α := device?.elim a (f · a)

theorem Gathering.counted (single : ts.Nodup) (gathering : Gathering ts later start (outset device? c) more m left)
    (run : Run config hooks past start) (ready : Welcoming c start) :
    ∃ k, m.hub.metrics = (onReport device? fun _ => Metrics.count)^[k] start.hub.metrics ∧
      k + crowd Job.counting ts left = ts.length * weight Job.counting (outset device? c) := by
  refine Gathering.tally (q := Hub.metrics) single (fun move => ?_) (fun idle => by cases idle <;> rfl) gathering run ready
  cases move with
  | calm calm behind => exact ⟨0, rfl, calm_weightless (fun j calm => by cases j <;> first | rfl | cases calm) calm behind⟩
  | connects reports => exact ⟨0, rfl, by rw [reports]; rfl⟩
  | reaps => exact ⟨0, rfl, by rw [weight_zero (List.forall_mem_map.mpr fun _ _ => rfl)]; rfl⟩
  | enqueues reports =>
      subst reports
      exact ⟨1, rfl, rfl⟩
  | _ => exact ⟨0, rfl, rfl⟩

theorem Gathering.queued (single : ts.Nodup) (gathering : Gathering ts later start (outset device? c) more m left)
    (run : Run config hooks past start) (ready : Welcoming c start) :
    ∃ k, m.hub.deviceLane = (onReport device? fun device lane => lane.push (.connected device c))^[k] start.hub.deviceLane ∧
      k + crowd Job.queueing ts left = ts.length * weight Job.queueing (outset device? c) := by
  refine Gathering.tally (q := Hub.deviceLane) single (fun move => ?_) (fun idle => by cases idle <;> rfl) gathering run ready
  cases move with
  | calm calm behind => exact ⟨0, rfl, calm_weightless (fun j calm => by cases j <;> first | rfl | cases calm) calm behind⟩
  | connects reports => exact ⟨0, rfl, by rw [reports]; rfl⟩
  | reaps => exact ⟨0, rfl, by rw [weight_zero (List.forall_mem_map.mpr fun _ _ => rfl)]; rfl⟩
  | pushes reports =>
      subst reports
      exact ⟨1, rfl, rfl⟩
  | _ => exact ⟨0, rfl, rfl⟩

theorem Gathering.recorded (single : ts.Nodup) (gathering : Gathering ts later start (outset device? c) more m left)
    (run : Run config hooks past start) (ready : Welcoming c start) :
    ∃ k, m.hub.connections = (onReport device? fun device table => table.insert c device)^[k] start.hub.connections ∧
      k + crowd Job.recording ts left = ts.length * weight Job.recording (outset device? c) := by
  refine Gathering.tally (q := Hub.connections) single (fun move => ?_) (fun idle => by cases idle <;> rfl) gathering run ready
  cases move with
  | calm calm behind => exact ⟨0, rfl, calm_weightless (fun j calm => by cases j <;> first | rfl | cases calm) calm behind⟩
  | connects reports => exact ⟨0, rfl, by rw [reports]; rfl⟩
  | records reports =>
      subst reports
      exact ⟨1, rfl, rfl⟩
  | reaps => exact ⟨0, rfl, by rw [weight_zero (List.forall_mem_map.mpr fun _ _ => rfl)]; rfl⟩
  | _ => exact ⟨0, rfl, rfl⟩

theorem Move.pays (moves : Move c device? new m job h next) :
    1 + weight Job.cost next + 3 * h.dataLanes.retired.length ≤ job.cost + 3 * m.hub.dataLanes.retired.length := by
  cases moves with
  | calm _ _ cheap => omega
  | connects reports =>
      subst reports
      simp [Job.cost, Job.logHub, Plan.startLane, sequel]
  | reaps =>
      have joins : ∀ l : List ThreadId, weight Job.cost (l.map DataLaneJob.joinWorker) = 3 * l.length := fun l => by
        induction l with
        | nil => rfl
        | cons w l ih =>
            rw [List.map_cons, weight_cons, ih, List.length_cons]
            simp only [DataLaneJob.joinWorker, Job.cost]
            omega
      have parts := List.length_eq_length_filter_add (l := m.hub.dataLanes.retired) m.exited
      simp only [joins, DataLanes.reap, Job.cost]
      omega
  | retires =>
      simp only [DataLanes.retire, List.length_append, List.length_singleton, weight_nil, Job.cost]
      omega
  | _ =>
      simp [Job.cost, Job.logDataLane, Job.logDeviceLane, Plan.enqueueDevice, DataLanes.openLane, DataLanes.publish,
        DataLanes.changeLane]

theorem Gathering.spent (single : ts.Nodup) (gathering : Gathering ts later start (outset device? c) more m left)
    (run : Run config hooks past start) (ready : Welcoming c start) :
    more.countP (·.thread ∈ ts) + crowd Job.cost ts left + 3 * m.hub.dataLanes.retired.length ≤
      ts.length * weight Job.cost (outset device? c) + 3 * start.hub.dataLanes.retired.length := by
  refine Gathering.induct (P := fun more h left => more.countP (·.thread ∈ ts) + crowd Job.cost ts left +
      3 * h.dataLanes.retired.length ≤ ts.length * weight Job.cost (outset device? c) + 3 * start.hub.dataLanes.retired.length)
    ?begin ?own ?worker gathering run ready
  case begin => simp [crowd_plan]
  case own =>
    intro more m left t job rest hub next _ before mine first move
    have here := crowd_own (f := Job.cost) single mine first next
    have pays := move.pays
    rw [List.countP_append, List.countP_singleton, if_pos (by simpa using mine)]
    omega
  case worker =>
    intro more m left slot job behind hub next gathering before member _ idle
    have retired : hub.dataLanes.retired = m.hub.dataLanes.retired := by cases idle <;> rfl
    have other : slot.worker ∉ ts := fun mine =>
      Nat.not_lt.mpr (gathering.fresh.2.2 slot member).1 (gathering.fresh.2.1 _ mine).2
    rw [List.countP_append, List.countP_singleton, if_neg (by simpa using other), retired]
    exact before

def Job.prompt (m : Machine) : Job → Prop
  | .join _ w => m.exited w = true ∧ w.val < m.agendas.length
  | .acquire lock => lock.inner = true
  | _ => True

theorem Move.prompt (moves : Move c device? new m job h next) (known : ∀ w ∈ m.hub.dataLanes.retired, w.val < m.agendas.length) :
    ∀ j ∈ next, j.prompt m := by
  cases moves with
  | calm _ behind =>
      intro j member
      rcases behind j member with rfl | ⟨record, rfl⟩ <;> trivial
  | connects reports =>
      subst reports
      simp [Job.prompt, Job.logHub, Plan.startLane, sequel, Lock.inner]
  | reaps =>
      refine List.forall_mem_map.mpr fun w member => ?_
      obtain ⟨retired, exited⟩ := List.mem_filter.mp member
      exact ⟨exited, known w retired⟩
  | _ => simp [Job.prompt, Job.logDataLane, Job.logDeviceLane, Plan.enqueueDevice, Lock.inner]

theorem prompt_step (prompt : job.prompt m) {below : List Job} {first : Job} (agenda : m.agenda t = first :: below)
    (went : m.step? t = some m') :
    job.prompt m' := by
  cases job with
  | join lane w =>
      obtain ⟨exited, known⟩ := prompt
      have idle := exited_iff.mp exited
      have apart : w ≠ t := fun same => by
        rw [same, agenda] at idle
        cases idle
      refine ⟨exited_iff.mpr ?_, Nat.lt_of_lt_of_le known (step_grows agenda went).1⟩
      rcases step_cases agenda went with ⟨rfl, rfl⟩ | ⟨_, _, rfl⟩
      · rw [agenda_unwind_other apart, idle]
      · rw [agenda_carry_old apart known, idle]
  | _ => exact prompt

theorem Gathering.prompt (gathering : Gathering ts later start (outset device? c) more m left) (run : Run config hooks past start)
    (ready : Welcoming c start) : ∀ t ∈ ts, ∀ j ∈ left t, j.prompt m := by
  induction gathering with
  | begin =>
      intro t _
      cases device? <;> simp [outset, Plan.startLane, Job.prompt, Lock.inner]
  | own gathering mine first notPanic enabled unhooked ih =>
      rename_i more m left t job rest
      obtain ⟨ready, _, staged⟩ := gathering.staged run ready
      have agenda := (gathering.fresh.2.1 t mine).1
      rw [first, List.cons_append] at agenda
      have here := staged t mine
      rw [first] at here
      have reached := gathering.run run
      have known : ∀ w ∈ m.hub.dataLanes.retired, w.val < m.agendas.length := fun w retired => by
        obtain ⟨slot, member, rfl⟩ := reached.mustered.1 w retired
        exact (reached.rostered.known slot member).2.2
      have went := step_carry agenda notPanic enabled
      intro u ours j member
      by_cases same : u = t
      · subst same
        rw [Function.update_self] at member
        rcases List.mem_append.mp member with next | behind
        · exact prompt_step ((here.turn ready agenda unhooked).1.prompt known j next) agenda went
        · exact prompt_step (ih u mine j (first ▸ List.mem_cons_of_mem _ behind)) agenda went
      · rw [Function.update_of_ne same] at member
        exact prompt_step (ih u ours j member) agenda went
  | worker gathering _ agenda went ih => exact fun u ours j member => prompt_step (ih u ours j member) agenda went

theorem Gathering.locked (gathering : Gathering ts later start (outset device? c) more m left) (run : Run config hooks past start)
    (ready : Welcoming c start) (free : start.locks = []) :
    (m.locks.map (·.1)).Nodup ∧ (∀ t ∈ ts, squares (m.holdings t) (left t) = true) ∧ ∀ u, u ∉ ts → m.holdings u = [] := by
  induction gathering with
  | begin =>
      have none : ∀ u, start.holdings u = [] := fun u => by simp [Machine.holdings, free]
      refine ⟨by simp [free], fun t _ => ?_, fun u _ => none u⟩
      rw [none]
      cases device? <;> rfl
  | own gathering mine first notPanic enabled unhooked ih =>
      rename_i more m left t job rest
      obtain ⟨single, square, others⟩ := ih
      obtain ⟨here, single, apart⟩ := squares_step
        (first ▸ square t mine) single notPanic enabled fun record writes _ => unhooked record writes
      have holdings : ∀ u, (m.carry t job (rest ++ later t)).holdings u = (job.exec m t).1.holdings u := holdings_same rfl
      refine ⟨single, fun u ours => ?_, fun u other => ?_⟩
      · by_cases same : u = t
        · subst same
          rw [Function.update_self, holdings]
          exact here
        · rw [Function.update_of_ne same, holdings, apart u same]
          exact square u ours
      · rw [holdings, apart u fun same => other (same ▸ mine)]
        exact others u other
  | worker gathering member agenda went ih =>
      rename_i more m m' left slot job behind
      obtain ⟨ready, unaccepting, _⟩ := gathering.staged run ready
      obtain ⟨idles, _⟩ := (gathering.run run).idle (roster_later member)
        (gathering.unaccepted run unaccepting member) ready.running agenda
      have locks : m'.locks = m.locks := by
        rcases step_cases agenda went with ⟨rfl, _⟩ | ⟨_, _, rfl⟩
        · rcases idles with ⟨_, none⟩ | none <;> cases none
        · refine Gate.locks_exec m slot.worker job fun lock => ?_
          rcases idles with ⟨_, rfl⟩ | rfl <;> exact ⟨(fun none => by cases none), fun none => by cases none⟩
      rw [locks]
      exact ⟨ih.1, fun u ours => (holdings_same locks u).symm ▸ ih.2.1 u ours, fun u other =>
        (holdings_same locks u).trans (ih.2.2 u other)⟩

theorem Launching.enabled (launching : Launching c device? new r (job :: rest)) (m : Machine) (t : ThreadId) :
    job.enabled m t = true := by
  cases launching <;> rfl

theorem Gathering.goes (gathering : Gathering ts later start (outset device? c) more m left) (run : Run config hooks past start)
    (ready : Welcoming c start) (free : start.locks = []) (mine : t ∈ ts) (busy : left t ≠ []) :
    ∃ u ∈ ts, (m.step? u).isSome = true := by
  obtain ⟨_, square, others⟩ := gathering.locked run ready free
  obtain ⟨job, rest, first⟩ := List.exists_cons_of_ne_nil busy
  have steps : ∀ {u job rest}, u ∈ ts → left u = job :: rest → job.enabled m u = true → (m.step? u).isSome = true :=
      fun {u job rest} ours first enabled => by
    have agenda := (gathering.fresh.2.1 u ours).1
    rw [first, List.cons_append] at agenda
    by_cases panics : job = .panic
    · rw [panics] at agenda
      rw [step_panic agenda]
      rfl
    · rw [step_carry agenda panics enabled]
      rfl
  obtain ⟨front, back, split, calm, launching⟩ := (gathering.staged run ready).2.2 t mine
  cases front with
  | nil =>
      rw [first, List.nil_append] at split
      rw [← split] at launching
      exact ⟨t, mine, steps mine first (launching.enabled m t)⟩
  | cons j front =>
      rw [first, List.cons_append, List.cons.injEq] at split
      obtain ⟨rfl, _⟩ := split
      have here := calm job (List.mem_cons_self ..)
      have prompt := gathering.prompt run ready t mine job (first ▸ List.mem_cons_self ..)
      cases job with
      | acquire lock =>
          cases open_ : m.free lock with
          | true => exact ⟨t, mine, steps mine first open_⟩
          | false =>
              -- Whoever has the lock is one of the threads, and goes on.
              obtain ⟨u, has⟩ := held_by open_
              have ours : u ∈ ts := Classical.byContradiction fun other => by
                rw [others u other] at has
                cases has
              obtain ⟨job, rest, first⟩ := List.exists_cons_of_ne_nil (l := left u) fun none => by
                have square := square u ours
                rw [none] at square
                rw [List.isEmpty_iff.mp square] at has
                cases has
              by_cases panics : job = .panic
              · have agenda := (gathering.fresh.2.1 u ours).1
                rw [first, panics, List.cons_append] at agenda
                exact ⟨u, ours, by rw [step_panic agenda]; rfl⟩
              · exact ⟨u, ours, steps ours first (squares_goes (first ▸ square u ours) panics has prompt).2⟩
      | join lane w => exact ⟨t, mine, steps mine first (by simp [Job.enabled, Job.needs, prompt.1])⟩
      | log | release | answer | resume => exact ⟨t, mine, steps mine first rfl⟩
      | _ => cases here

def Job.vies : Job → Nat
  | .hub (.connect ..) | .dataLane (.start _) | .dataLane (.spawn _) | .dataLane (.publish ..) => 1
  | _ => 0

structure Sited (c : ConnectionHandle) (ts : List ThreadId) (left : ThreadId → List Job) (h : Hub) (slot : Slot)
    (lane : DataLane) : Prop where
  connection : lane.connection = c
  empty : lane.items = []
  exited : lane.exited = true → lane.stopping = true
  one : crowd (Job.undecided slot) ts left +
    ((if h.dataLanes.slots.get? c = some slot then 1 else 0) + if lane.stopping = true then 1 else 0) = 1

-- The lanes of a gathering: those from before are untouched, and of the new ones at most one gets into the map, if there is none.
structure Sites (c : ConnectionHandle) (ts : List ThreadId) (start : Hub) (more : List Moment) (h : Hub)
    (left : ThreadId → List Job) : Prop where
  old : ∀ id lane, start.dataLanes.lane? id = some lane → h.dataLanes.lane? id = some lane
  sited : ∀ slot ∈ roster more, ∃ lane, h.dataLanes.lane? slot.lane = some lane ∧ Sited c ts left h slot lane
  slots : h.dataLanes.slots = start.dataLanes.slots ∨
    (start.dataLanes.slots.get? c = none ∧ ∃ slot ∈ roster more, h.dataLanes.slots = start.dataLanes.slots.insert c slot)
  found : ∀ t ∈ ts, weight Job.vies (left t) = 0 → (h.dataLanes.slots.get? c).isSome = true

theorem Move.slots (moves : Move c device? new m job h next) : h.dataLanes.slots = m.hub.dataLanes.slots ∨
    (m.hub.dataLanes.slots.get? c = none ∧ ∃ slot, new slot ∧ h.dataLanes.slots = m.hub.dataLanes.slots.insert c slot) := by
  cases moves with
  | wins opened vacant => exact .inr ⟨by simpa [DataLanes.occupied, Table.contains] using vacant, _, opened, rfl⟩
  | _ => exact .inl rfl

theorem Move.found (moves : Move c device? new m job h next) (none : weight Job.vies next = 0) :
    job.vies = 0 ∨ (h.dataLanes.slots.get? c).isSome = true := by
  cases moves with
  | calm calm => exact .inl (by cases job <;> first | rfl | cases calm)
  | connects reports =>
      subst reports
      simp [Job.vies, Job.logHub, Plan.startLane] at none
  | misses | spawns => simp [Job.vies] at none
  | finds occupied | loses _ occupied => exact .inr occupied
  | wins => exact .inr (by simp [DataLanes.publish, Table.get?_insert])
  | _ => exact .inl rfl

theorem Move.aside {lane : DataLane} (moves : Move c device? new m job h next) (known : m.hub.dataLanes.lane? id = some lane)
    (apart : ∀ slot, new slot → slot.lane ≠ id) : h.dataLanes.lane? id = some lane := by
  cases moves with
  | spawns => exact (List.getElem?_append_left (List.getElem?_eq_some_iff.mp known).1).trans known
  | withdraws opened => exact (lane_change m.hub.dataLanes _ id _ known).trans (by rw [if_neg (apart _ opened)])
  | _ => exact known

theorem Move.decides {lane : DataLane} (moves : Move c device? new m job h next)
    (known : m.hub.dataLanes.lane? slot.lane = some lane) (single : ∀ other, new other → other.lane = slot.lane → other = slot) :
    (h.dataLanes.lane? slot.lane = some lane ∧
      weight (Job.undecided slot) next + (if h.dataLanes.slots.get? c = some slot then 1 else 0) =
        job.undecided slot + if m.hub.dataLanes.slots.get? c = some slot then 1 else 0) ∨
      (h.dataLanes.lane? slot.lane = some lane.requestStop ∧ h.dataLanes.slots = m.hub.dataLanes.slots ∧ job.undecided slot = 1 ∧
        weight (Job.undecided slot) next = 0) := by
  cases moves with
  | calm calm behind =>
      have idle := calm_weightless (f := Job.undecided slot) (fun j calm => by cases j <;> first | rfl | cases calm) calm behind
      exact .inl ⟨known, by omega⟩
  | connects reports =>
      subst reports
      exact .inl ⟨known, by simp [Job.undecided, Job.logHub, Plan.startLane, sequel]⟩
  | reaps => exact .inl ⟨known, by rw [weight_zero (List.forall_mem_map.mpr fun _ _ => rfl)]; rfl⟩
  | spawns =>
      have there := (List.getElem?_eq_some_iff.mp known).1
      have apart : ¬ (⟨⟨m.hub.dataLanes.lanes.length⟩, ⟨m.agendas.length⟩⟩ : Slot) = slot := fun same => by
        rw [← same] at there
        exact Nat.lt_irrefl _ there
      refine .inl ⟨(List.getElem?_append_left there).trans known, ?_⟩
      rw [weight_cons, weight_cons, show Job.undecided slot (.dataLane (.publish c _)) = 0 from if_neg apart]
      rfl
  | wins opened vacant =>
      have none : m.hub.dataLanes.slots.get? c = none := by simpa [DataLanes.occupied, Table.contains] using vacant
      refine .inl ⟨known, ?_⟩
      simp [DataLanes.publish, Table.get?_insert, none, Job.undecided, Job.logDataLane]
  | loses opened occupied =>
      rename_i other
      refine .inl ⟨known, ?_⟩
      have same : other.lane = slot.lane ↔ other = slot := ⟨single other opened, fun same => by rw [same]⟩
      simp [Job.undecided, Job.logDataLane, same]
  | withdraws opened =>
      rename_i other
      by_cases here : other.lane = slot.lane
      · refine .inr ⟨(lane_change m.hub.dataLanes _ _ _ known).trans (by rw [if_pos here]), rfl, ?_, rfl⟩
        simp [Job.undecided, here]
      · refine .inl ⟨(lane_change m.hub.dataLanes _ _ _ known).trans (by rw [if_neg here]), ?_⟩
        rw [show (Job.dataLane (.requestStop other.lane)).undecided slot = 0 from if_neg here]
        rfl
  | _ => exact .inl ⟨known, rfl⟩

theorem Sites.own (gathering : Gathering ts later start (outset device? c) more m left) (run : Run config hooks past start)
    (single : ts.Nodup) (sites : Sites c ts start.hub more m.hub left) (mine : t ∈ ts) (first : left t = job :: rest)
    (moves : Move c device? (· ∈ roster more) m job h next) :
    Sites c ts start.hub (more ++ [⟨m, t, job, rest ++ later t⟩]) h (Function.update left t (next ++ rest)) := by
  have reached := gathering.run run
  have fresh := gathering.fresh
  refine ⟨fun id lane known => ?_, fun slot member => ?_, ?_, fun u ours none => ?_⟩
  · refine moves.aside (sites.old id lane known) fun slot member same => ?_
    have new := (fresh.2.2 slot member).2
    rw [same] at new
    exact Nat.not_lt.mpr new (List.getElem?_eq_some_iff.mp known).1
  · have owed := crowd_own (f := Job.undecided slot) single mine first next
    rcases mem_roster_snoc.mp member with old | opens
    · obtain ⟨lane, known, sited⟩ := sites.sited slot old
      have one := sited.one
      have lanes : ∀ other ∈ roster more, other.lane = slot.lane → other = slot := fun other here same =>
        reached.rostered.lane other (roster_later here) slot (roster_later old) same
      rcases moves.decides known lanes with ⟨there, same⟩ | ⟨there, same, before, after⟩
      · exact ⟨lane, there, sited.connection, sited.empty, sited.exited, by omega⟩
      · refine ⟨_, there, sited.connection, sited.empty, fun _ => rfl, ?_⟩
        rw [same]
        simp only [DataLane.requestStop, if_true]
        omega
    · -- Nothing has been decided yet about a lane that comes into being.
      obtain ⟨_, rfl, _, rfl⟩ := opens_started opens
      have known : ∀ other ∈ roster (past ++ more), other.lane.val ≠ m.hub.dataLanes.lanes.length := fun other here =>
        Nat.ne_of_lt (reached.rostered.known other here).1
      have before : crowd (Job.undecided ⟨⟨m.hub.dataLanes.lanes.length⟩, ⟨m.agendas.length⟩⟩) ts left = 0 := sum_zero fun u ours =>
        weight_zero fun j inside => by
          have enlisted := reached.enlisted.2 u
          rw [(fresh.2.1 u ours).1] at enlisted
          obtain ⟨_, _, _, here⟩ := each_mem enlisted (List.mem_append_left _ inside)
          exact reached.undecided_new here
      have out : ¬ m.hub.dataLanes.slots.get? c = some ⟨⟨m.hub.dataLanes.lanes.length⟩, ⟨m.agendas.length⟩⟩ := fun found =>
        known _ (reached.enlisted.1.2 _ (reached.enlisted.1.1 c _ found)) rfl
      cases moves with
      | calm calm => cases calm
      | spawns =>
          refine ⟨{ connection := c }, List.getElem?_concat_length .., rfl, rfl, fun none => (by cases none), ?_⟩
          have adds : weight (Job.undecided ⟨⟨m.hub.dataLanes.lanes.length⟩, ⟨m.agendas.length⟩⟩)
              [.acquire .laneMap, .dataLane (.publish c ⟨⟨m.hub.dataLanes.lanes.length⟩, ⟨m.agendas.length⟩⟩)] = 1 := by
            simp [Job.undecided]
          have spends : (Job.dataLane (.spawn c)).undecided ⟨⟨m.hub.dataLanes.lanes.length⟩, ⟨m.agendas.length⟩⟩ = 0 := rfl
          show crowd _ _ _ + ((if m.hub.dataLanes.slots.get? c = some _ then 1 else 0) + 0) = 1
          rw [if_neg out]
          omega
  · rcases moves.slots with same | ⟨none, slot, member, inserted⟩
    · rw [same]
      refine sites.slots.imp_right ?_
      rintro ⟨vacant, slot, member, inserted⟩
      exact ⟨vacant, slot, mem_roster_snoc.mpr (.inl member), inserted⟩
    · rcases sites.slots with same | ⟨_, other, _, found⟩
      · exact .inr ⟨same ▸ none, slot, mem_roster_snoc.mpr (.inl member), same ▸ inserted⟩
      · rw [found, Table.get?_insert, if_pos rfl] at none
        cases none
  · have stays : (m.hub.dataLanes.slots.get? c).isSome = true → (h.dataLanes.slots.get? c).isSome = true := fun found => by
      rcases moves.slots with same | ⟨_, slot, _, inserted⟩
      · rwa [same]
      · rw [inserted, Table.get?_insert, if_pos rfl]
        rfl
    by_cases same : u = t
    · subst same
      rw [Function.update_self, weight_append, Nat.add_eq_zero_iff] at none
      rcases moves.found none.1 with idle | found
      · exact stays (sites.found u mine (by rw [first, weight_cons, idle, none.2]))
      · exact found
    · rw [Function.update_of_ne same] at none
      exact stays (sites.found u ours none)

theorem Sites.worker (gathering : Gathering ts later start (outset device? c) more m left) (run : Run config hooks past start)
    (sites : Sites c ts start.hub more m.hub left) (member : slot ∈ roster more) (idles : job.idles slot.lane)
    (idle : Dawdling m slot.lane job h next) : Sites c ts start.hub (more ++ [⟨m, slot.worker, job, behind⟩]) h left := by
  have reached := gathering.run run
  have slots : h.dataLanes.slots = m.hub.dataLanes.slots := by cases idle <;> rfl
  have unopened : ∀ other, other ∈ roster (more ++ [⟨m, slot.worker, job, behind⟩]) → other ∈ roster more := fun other here =>
    (mem_roster_snoc.mp here).resolve_right fun opens => by
      obtain ⟨_, rfl, _⟩ := opens_started opens
      rcases idles with ⟨_, none⟩ | none <;> cases none
  refine ⟨fun id lane known => ?_, fun other here => ?_, ?_, fun u ours none => by rw [slots]; exact sites.found u ours none⟩
  · have apart : ¬ slot.lane = id := fun same => by
      have new := (gathering.fresh.2.2 slot member).2
      rw [same] at new
      exact Nat.not_lt.mpr new (List.getElem?_eq_some_iff.mp known).1
    have before := sites.old id lane known
    cases idle with
    | writes => exact before
    | parks | finishes => exact (lane_change m.hub.dataLanes _ id _ before).trans (by rw [if_neg apart])
  · obtain ⟨lane, known, sited⟩ := sites.sited other (unopened other here)
    have one := sited.one
    cases idle with
    | writes => exact ⟨lane, known, sited⟩
    | parks found empty open_ =>
        by_cases same : slot.lane = other.lane
        · rw [same] at found ⊢
          cases known.symm.trans found
          exact ⟨{ lane with parked := true }, (lane_change m.hub.dataLanes _ _ _ known).trans (by rw [if_pos rfl]),
            sited.connection, empty, sited.exited, sited.one⟩
        · exact ⟨lane, (lane_change m.hub.dataLanes _ _ _ known).trans (by rw [if_neg same]),
            sited.connection, sited.empty, sited.exited, sited.one⟩
    | finishes found empty stopping =>
        by_cases same : slot.lane = other.lane
        · rw [same] at found ⊢
          cases known.symm.trans found
          exact ⟨{ lane with exited := true }, (lane_change m.hub.dataLanes _ _ _ known).trans (by rw [if_pos rfl]),
            sited.connection, empty, fun _ => stopping, sited.one⟩
        · exact ⟨lane, (lane_change m.hub.dataLanes _ _ _ known).trans (by rw [if_neg same]),
            sited.connection, sited.empty, sited.exited, sited.one⟩
  · rw [slots]
    exact sites.slots.imp_right fun ⟨vacant, other, there, inserted⟩ => ⟨vacant, other, mem_roster_snoc.mpr (.inl there), inserted⟩

theorem Gathering.sites (single : ts.Nodup) (gathering : Gathering ts later start (outset device? c) more m left)
    (run : Run config hooks past start) (ready : Welcoming c start) : Sites c ts start.hub more m.hub left := by
  refine Gathering.induct (P := fun more h left => Sites c ts start.hub more h left) ?begin ?own ?worker gathering run ready
  case begin =>
    refine ⟨fun _ _ known => known, fun _ none => (by cases none), .inl rfl, fun _ _ none => ?_⟩
    cases device? <;> simp [outset, Plan.startLane, Job.vies] at none
  case own => exact fun gathering sites mine first moves => sites.own gathering run single mine first moves
  case worker => exact fun gathering sites member idles idle => sites.worker gathering run member idles idle

end TransportHub
