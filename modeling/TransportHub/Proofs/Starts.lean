import TransportHub.Proofs.Races
/-!
Starts of one lane by several threads at the same time. However their turns and those of the workers come after each
other, one lane is left in the map, and the connection table, the lanes, the device lane and the metrics are what as
many calls one after the other make of them.
-/

set_option autoImplicit false

namespace TransportHub

open DataLanes (Slot)

variable {config : Config} {hooks : List Hook} {past more since : List Moment} {start m m' : Machine} {t : ThreadId}
  {ts : List ThreadId} {later : ThreadId → List Job} {left : ThreadId → List Job} {plan : List Job}
  {slot : Slot} {c d : ConnectionHandle} {device? : Option DeviceInfo}

def Hub.laneOf (h : Hub) (c : ConnectionHandle) : Option DataLane :=
  (h.dataLanes.slots.get? c).bind fun slot => (h.dataLanes.lane? slot.lane).map DataLane.wake

@[ext]
structure Parts where
  connections : Table DeviceInfo
  lanes : ConnectionHandle → Option DataLane
  deviceLane : DeviceLane
  metrics : Metrics

def Hub.parts (h : Hub) : Parts := ⟨h.connections, h.laneOf, h.deviceLane, h.metrics⟩

def withLane (c : ConnectionHandle) (lanes : ConnectionHandle → Option DataLane) : ConnectionHandle → Option DataLane :=
  Function.update lanes c (some ((lanes c).getD { connection := c }))

def Parts.called (device? : Option DeviceInfo) (c : ConnectionHandle) (parts : Parts) : Parts where
  connections := onReport device? (fun device table => table.insert c device) parts.connections
  lanes := withLane c parts.lanes
  deviceLane := onReport device? (fun device lane => lane.push (.connected device c)) parts.deviceLane
  metrics := onReport device? (fun _ => Metrics.count) parts.metrics

theorem iterate_called {α : Type} {q : Parts → α} {f : α → α} (goes : ∀ parts, q (parts.called device? c) = f (q parts)) (n : Nat)
    (parts : Parts) : q ((Parts.called device? c)^[n] parts) = f^[n] (q parts) :=
  Function.Semiconj.iterate_right (f := q) goes n parts

theorem iterate_withLane (lanes : ConnectionHandle → Option DataLane) (n : Nat) : (withLane c)^[n + 1] lanes = withLane c lanes := by
  induction n with
  | zero => rfl
  | succ n ih =>
      rw [Function.iterate_succ_apply', ih]
      simp [withLane]

theorem queue_iterate (callback : DeviceCallback) (lane : DeviceLane) (n : Nat) :
    ((·.push callback)^[n] lane).queue = lane.queue ++ List.replicate n callback := by
  induction n with
  | zero => exact (List.append_nil _).symm
  | succ n ih =>
      rw [Function.iterate_succ_apply', DeviceLane.push, ih, List.append_assoc, List.replicate_succ']

theorem Gathering.nobody (gathering : Gathering [] later start plan more m left) : more = [] ∧ m = start := by
  induction gathering with
  | begin => exact ⟨rfl, rfl⟩
  | own _ none => cases none
  | worker _ member _ _ ih =>
      rw [ih.1] at member
      cases member

theorem Gathering.winner (single : ts.Nodup) (gathering : Gathering ts later start (outset device? c) more m left)
    (run : Run config hooks past start) (ready : Welcoming c start) (some : ts ≠ []) (ended : ∀ t ∈ ts, left t = []) :
    ∃ slot, m.hub.dataLanes.slots.get? c = .some slot ∧ (start.hub.dataLanes.slots.get? c = .some slot ∨
      (start.hub.dataLanes.slots.get? c = none ∧ slot ∈ roster more)) := by
  have sites := gathering.sites single run ready
  obtain ⟨t, mine⟩ := List.exists_mem_of_ne_nil ts some
  obtain ⟨slot, there⟩ := Option.isSome_iff_exists.mp (sites.found t mine (by rw [ended t mine, weight_nil]))
  refine ⟨slot, there, ?_⟩
  rcases sites.slots with same | ⟨vacant, new, member, inserted⟩
  · exact .inl (same ▸ there)
  · rw [inserted, Table.get?_insert, if_pos rfl] at there
    cases there
    exact .inr ⟨vacant, member⟩

theorem Sites.elsewhere {h : Hub} {ts : List ThreadId} (sites : Sites c ts start.hub more h left) (apart : d ≠ c) :
    h.dataLanes.slots.get? d = start.hub.dataLanes.slots.get? d := by
  rcases sites.slots with same | ⟨_, _, _, inserted⟩
  · rw [same]
  · rw [inserted, Table.get?_insert, if_neg apart]

theorem Sites.kept {h : Hub} (sites : Sites c ts start.hub more h left) (run : Run config hooks past start)
    (same : h.dataLanes.slots.get? d = start.hub.dataLanes.slots.get? d) (there : start.hub.dataLanes.slots.get? d = some slot) :
    h.laneOf d = start.hub.laneOf d := by
  obtain ⟨lane, known, _⟩ := run.booked_roster (run.enlisted.1.2 slot (run.enlisted.1.1 d slot there))
  rw [Hub.laneOf, Hub.laneOf, same, there, Option.bind_some, Option.bind_some, known, sites.old _ _ known]

theorem Sites.settled {h : Hub} (sites : Sites c ts start.hub more h left) (ended : ∀ t ∈ ts, left t = [])
    (member : slot ∈ roster more) :
    ∃ lane, h.dataLanes.lane? slot.lane = some lane ∧ ((h.dataLanes.slots.get? c = some slot ∧ lane.wake = { connection := c }) ∨
      (h.dataLanes.slots.get? c ≠ some slot ∧ lane.stopping = true)) := by
  obtain ⟨lane, known, sited⟩ := sites.sited slot member
  have one := sited.one
  rw [crowd_ended ended, Nat.zero_add] at one
  refine ⟨lane, known, ?_⟩
  by_cases there : h.dataLanes.slots.get? c = some slot
  · rw [if_pos there] at one
    have open_ : lane.stopping = false := by
      cases stopping : lane.stopping with
      | false => rfl
      | true =>
          rw [stopping] at one
          cases one
    have staffed : lane.exited = false := Bool.eq_false_iff.mpr fun exited => by
      rw [sited.exited exited] at open_
      cases open_
    exact .inl ⟨there, by rw [DataLane.wake, sited.connection, sited.empty, open_, staffed]⟩
  · rw [if_neg there] at one
    refine .inr ⟨there, Classical.byContradiction fun open_ => ?_⟩
    rw [if_neg open_] at one
    cases one

theorem Gathering.lanes (single : ts.Nodup) (gathering : Gathering ts later start (outset device? c) more m left)
    (run : Run config hooks past start) (ready : Welcoming c start) (ended : ∀ t ∈ ts, left t = []) :
    m.hub.laneOf = (withLane c)^[ts.length] start.hub.laneOf := by
  by_cases none : ts = []
  · subst none
    rw [gathering.nobody.2]
    rfl
  · obtain ⟨n, count⟩ : ∃ n, ts.length = n + 1 := Nat.exists_eq_succ_of_ne_zero fun zero => none (List.length_eq_zero_iff.mp zero)
    have sites := gathering.sites single run ready
    obtain ⟨slot, there, first⟩ := gathering.winner single run ready none ended
    rw [count, iterate_withLane]
    funext d
    by_cases here : d = c
    · subst here
      rw [withLane, Function.update_self]
      rcases first with old | ⟨vacant, member⟩
      · obtain ⟨lane, known, _⟩ := run.booked_roster (run.enlisted.1.2 slot (run.enlisted.1.1 d slot old))
        have same := sites.kept run (there.trans old.symm) old
        have found : start.hub.laneOf d = some lane.wake := by rw [Hub.laneOf, old, Option.bind_some, known, Option.map_some]
        rw [same, found, Option.getD_some]
      · obtain ⟨lane, known, ⟨_, fresh⟩ | ⟨out, _⟩⟩ := sites.settled ended member
        · have before : start.hub.laneOf d = .none := by rw [Hub.laneOf, vacant, Option.bind_none]
          rw [before, Hub.laneOf, there, Option.bind_some, known, Option.map_some, fresh, Option.getD_none]
        · exact absurd there out
    · rw [withLane, Function.update_of_ne here]
      have same := sites.elsewhere here
      cases found : start.hub.dataLanes.slots.get? d with
      | none => rw [Hub.laneOf, Hub.laneOf, same, found, Option.bind_none, Option.bind_none]
      | some other => exact sites.kept run same found

theorem Gathering.parts (single : ts.Nodup) (gathering : Gathering ts later start (outset device? c) more m left)
    (run : Run config hooks past start) (ready : Welcoming c start) (ended : ∀ t ∈ ts, left t = []) :
    m.hub.parts = (Parts.called device? c)^[ts.length] start.hub.parts := by
  -- Each report does its part of the work once, and a mere start does not.
  have times : ∀ {α : Type} {f : DeviceInfo → α → α} {a : α} {g : Job → Nat} {k : Nat}, k + crowd g ts left = ts.length * weight g
      (outset device? c) →
      (∀ device, device? = some device → weight g (outset device? c) = 1) → (device? = none → weight g (outset device? c) = 0) →
      (onReport device? f)^[k] a = (onReport device? f)^[ts.length] a := fun {α f a g k} count some none => by
    rw [crowd_ended ended, Nat.add_zero] at count
    cases reports : device? with
    | none =>
        have still : onReport .none f a = a := rfl
        rw [Function.iterate_fixed still, Function.iterate_fixed still]
    | some device => rw [count, some device reports, Nat.mul_one]
  refine Parts.ext ?_ ?_ ?_ ?_
  · rw [iterate_called (q := Parts.connections) (f := onReport device? fun device table => table.insert c device) fun _ => rfl]
    obtain ⟨k, same, count⟩ := gathering.recorded single run ready
    exact same.trans (times count (fun _ reports => by rw [reports]; rfl) fun none => by rw [none]; rfl)
  · rw [iterate_called (q := Parts.lanes) (f := withLane c) fun _ => rfl]
    exact gathering.lanes single run ready ended
  · rw [iterate_called (q := Parts.deviceLane)
      (f := onReport device? fun device lane => lane.push (.connected device c)) fun _ => rfl]
    obtain ⟨k, same, count⟩ := gathering.queued single run ready
    exact same.trans (times count (fun _ reports => by rw [reports]; rfl) fun none => by rw [none]; rfl)
  · rw [iterate_called (q := Parts.metrics) (f := onReport device? fun _ => Metrics.count) fun _ => rfl]
    obtain ⟨k, same, count⟩ := gathering.counted single run ready
    exact same.trans (times count (fun _ reports => by rw [reports]; rfl) fun none => by rw [none]; rfl)

inductive InTurn (config : Config) (hooks : List Hook) (device? : Option DeviceInfo) (c : ConnectionHandle) : Nat → Parts →
    Parts → Prop where
  | none {parts : Parts} : InTurn config hooks device? c 0 parts parts
  | next {n : Nat} {parts : Parts} {past more : List Moment} {start m : Machine} {t : ThreadId} {later left : ThreadId → List Job}
      (before : InTurn config hooks device? c n parts start.hub.parts) (run : Run config hooks past start) (ready : Welcoming c start)
      (call : Gathering [t] later start (outset device? c) more m left) (finished : left t = []) :
      InTurn config hooks device? c (n + 1) parts m.hub.parts

theorem InTurn.parts {n : Nat} {first last : Parts} (inTurn : InTurn config hooks device? c n first last) :
    last = (Parts.called device? c)^[n] first := by
  induction inTurn with
  | none => rfl
  | next _ run ready call finished ih =>
      rw [Function.iterate_succ_apply', ← ih]
      exact call.parts (List.nodup_singleton _) run ready (List.forall_mem_singleton.mpr finished)

structure Elected (config : Config) (hooks : List Hook) (c : ConnectionHandle) (past more : List Moment)
    (start m : Machine) (slot : Slot) : Prop where
  there : m.hub.dataLanes.slots.get? c = some slot
  first : start.hub.dataLanes.slots.get? c = some slot ∨ (start.hub.dataLanes.slots.get? c = none ∧ slot ∈ roster more)
  others : ∀ d, d ≠ c → m.hub.dataLanes.slots.get? d = start.hub.dataLanes.slots.get? d
  fresh : slot ∈ roster more → (m.hub.dataLanes.lane? slot.lane).elim [] (·.items) = [] ∧
    (m.agenda slot.worker).flatMap Job.waits = [] ∧ (m.agenda slot.worker).flatMap Job.owes = []
  losers : ∀ loser ∈ roster more, loser ≠ slot → ∀ since m', Run config hooks (past ++ more ++ since) m' →
    Unneeded loser (past ++ more ++ since) m' ∧ since.countP (·.thread = loser.worker) ≤ 3
  placed : ∀ since m', Run config hooks (past ++ more ++ since) m' → ∀ t later callback more' m'',
    Calling t later m' (Plan.enqueueData c callback) more' m'' [] → (∀ x ∈ ownTurns t more', x.unhooked) →
      (∀ x ∈ since ++ more', x.spares c) → m''.hub.terminating = false →
        m''.reply t = .flag true ∧ acceptedOn slot.lane (ownTurns t more') = [callback]
  tended : ∀ since m', Run config hooks (past ++ more ++ since) m' → m'.hub.terminating = false → Tending slot m since m'
  delivered : ∀ since m' ls, Run config hooks (past ++ more ++ since) m' → m'.hub.terminating = false →
    (∀ x ∈ since, x.machine.hub.dataLanes.listeners.snapshot = ls) → m'.agenda slot.worker = [.dataLane (.look slot.lane)] →
      (m'.hub.dataLanes.lane? slot.lane).elim [] (·.items) = [] → heardFrom slot.worker since =
        (m.agenda slot.worker).flatMap Job.owes ++ ((m.agenda slot.worker).flatMap Job.waits ++
          (m.hub.dataLanes.lane? slot.lane).elim [] (·.items) ++ acceptedOn slot.lane since).flatMap fun callback =>
          ls.map (·, .data callback)

theorem Gathering.loser (single : ts.Nodup) (gathering : Gathering ts later start (outset device? c) more m left)
    (run : Run config hooks past start) (ready : Welcoming c start) (ended : ∀ t ∈ ts, left t = []) (member : slot ∈ roster more)
    (lost : m.hub.dataLanes.slots.get? c ≠ some slot) (whole : Run config hooks (past ++ more ++ since) m') :
    Unneeded slot (past ++ more ++ since) m' ∧ since.countP (·.thread = slot.worker) ≤ 3 := by
  have reached := gathering.run run
  have now : slot ∈ roster (past ++ more) := roster_later member
  obtain ⟨lane, known, ⟨there, _⟩ | ⟨_, stopping⟩⟩ := (gathering.sites single run ready).settled ended member
  · exact absurd there lost
  · obtain ⟨_, same, book⟩ := reached.booked_roster now
    cases known.symm.trans same
    obtain ⟨x, seen, stops⟩ := book.stopped.mp stopping
    obtain ⟨before, after, split⟩ := List.append_of_mem seen
    have unaccepted := gathering.unaccepted run (gathering.staged run ready).2.1 member
    rw [split, acceptedOn, List.flatMap_append, List.append_eq_nil_iff, ← acceptedOn] at unaccepted
    -- The lane was there when it was stopped.
    have old : slot ∈ roster before := by
      have start : before ++ [x] <+: past ++ more := ⟨after, by rw [split]; simp⟩
      obtain ⟨earlier, agenda⟩ := reached.before start
      have enlisted := earlier.enlisted.2 x.thread
      rw [agenda, stops] at enlisted
      obtain ⟨other, inside, same⟩ := enlisted.1
      have here : other ∈ roster (past ++ more) := by
        rw [split, roster, List.filterMap_append]
        exact List.mem_append_left _ inside
      exact reached.rostered.lane other here slot now same ▸ inside
    have parts : past ++ more ++ since = before ++ x :: (after ++ since) := by rw [split, List.append_assoc]; rfl
    obtain ⟨none, few⟩ := whole.let_go before x (after ++ since) parts old stops unaccepted.1
    have finally_ : slot ∈ roster (past ++ more ++ since) := by
      rw [roster, List.filterMap_append]
      exact List.mem_append_left _ now
    refine ⟨whole.unneeded finally_ none ⟨x, List.mem_append_left _ seen, stops⟩, ?_⟩
    rw [List.countP_append] at few
    omega

theorem Run.places (run : Run config hooks past m) (there : m.hub.dataLanes.slots.get? c = some slot)
    (reached : Run config hooks (past ++ since) start) {later : List Job} {callback : DataCallback}
    (calling : Calling t later start (Plan.enqueueData c callback) more m' []) (unhooked : ∀ x ∈ ownTurns t more, x.unhooked)
    (spared : ∀ x ∈ since ++ more, x.spares c) (running : m'.hub.terminating = false) :
    m'.reply t = .flag true ∧ acceptedOn slot.lane (ownTurns t more) = [callback] := by
  have whole := calling.run reached
  refine enqueue_placed calling fun x own => ?_
  obtain ⟨inside, _⟩ := mem_ownTurns.mp own
  obtain ⟨front, back, rfl⟩ := List.append_of_mem inside
  have start : (past ++ since ++ front) ++ [x] <+: past ++ since ++ (front ++ x :: back) := ⟨back, by simp⟩
  have before := (whole.before start).1
  have still : standing c (past ++ (since ++ front)) = some slot := by
    rw [List.append_assoc] at before
    refine before.stands ((run.mapped c).symm.trans there) fun y seen => spared y ?_
    rw [← List.append_assoc]
    exact List.mem_append_left _ seen
  have found : x.machine.hub.dataLanes.slots.get? c = some slot := by rw [before.mapped c, List.append_assoc, still]
  have open_ : x.machine.hub.terminating = false := Bool.eq_false_iff.mpr fun ending =>
    Bool.false_ne_true (running.symm.trans (whole.terminating x (List.mem_append_right _ inside) ending))
  exact ⟨unhooked x own, found, before.welcomes found open_⟩

theorem Gathering.elected (single : ts.Nodup) (gathering : Gathering ts later start (outset device? c) more m left)
    (run : Run config hooks past start) (ready : Welcoming c start) (some : ts ≠ []) (ended : ∀ t ∈ ts, left t = []) :
    ∃ slot, Elected config hooks c past more start m slot := by
  have reached := gathering.run run
  have sites := gathering.sites single run ready
  obtain ⟨slot, there, first⟩ := gathering.winner single run ready some ended
  have tended : ∀ since m', Run config hooks (past ++ more ++ since) m' → m'.hub.terminating = false → Tending slot m since m' :=
    fun since m' whole running => reached.tending whole (reached.enlisted.1.2 slot (reached.enlisted.1.1 c slot there)) running
  refine ⟨slot, there, first, fun d apart => sites.elsewhere apart, fun member => ?_, fun loser member lost since m' whole => ?_,
    fun since m' whole t later callback more' m'' calling unhooked spared running => ?_, tended,
    fun since m' ls whole running steady idle empty => (tended since m' whole running).complete idle empty steady⟩
  · obtain ⟨lane, known, ⟨_, fresh⟩ | ⟨out, _⟩⟩ := sites.settled ended member
    · have unaccepted := gathering.unaccepted run (gathering.staged run ready).2.1 member
      have idles := (reached.idling slot (roster_later member) unaccepted).2.1
      have silent : ∀ {α : Type} {f : Job → List α}, (∀ record, f (.log record) = []) → (∀ id, f (.dataLane (.look id)) = []) →
          (m.agenda slot.worker).flatMap f = [] := fun log look => List.flatMap_eq_nil_iff.mpr fun job inside => by
        rcases idles job inside with ⟨record, rfl⟩ | rfl
        · exact log record
        · exact look _
      refine ⟨?_, silent (fun _ => rfl) fun _ => rfl, silent (fun _ => rfl) fun _ => rfl⟩
      rw [known]
      exact congrArg DataLane.items fresh
    · exact absurd there out
  · exact gathering.loser single run ready ended member (fun found => lost (Option.some.inj (found.symm.trans there))) whole
  · exact reached.places there whole calling unhooked spared running

-- What several calls at the same time come to, once they are over: one lane; and for a report one row, and one
-- callback for each call. Calls that follow one another come to the same.
structure Merged (config : Config) (hooks : List Hook) (device? : Option DeviceInfo) (c : ConnectionHandle) (n : Nat)
    (past more : List Moment) (start m : Machine) : Prop where
  elected : 0 < n → ∃ slot, Elected config hooks c past more start m slot
  row : ∀ device, device? = some device → 0 < n → ∀ d, m.hub.connections.get? d =
    if d = c then some device else start.hub.connections.get? d
  queue : ∀ device, device? = some device → m.hub.deviceLane.queue = start.hub.deviceLane.queue ++ List.replicate n
    (.connected device c)
  parts : m.hub.parts = (Parts.called device? c)^[n] start.hub.parts
  inTurn : ∀ last, InTurn config hooks device? c n start.hub.parts last → m.hub.parts = last

-- As long as one of the calls is not over, one of the threads can go on, and they do so only so often.
structure Concurrent (config : Config) (hooks : List Hook) (device? : Option DeviceInfo) (c : ConnectionHandle) (ts : List ThreadId)
    (past more : List Moment) (start m : Machine) (left : ThreadId → List Job) : Prop where
  goes : start.locks = [] → ∀ t ∈ ts, left t ≠ [] → ∃ u ∈ ts, (m.step? u).isSome = true
  bounded : more.countP (·.thread ∈ ts) ≤ 27 * ts.length + 3 * start.hub.dataLanes.retired.length
  returned : ∀ t ∈ ts, left t = [] → device? = none → m.reply t = .done (.ok ())
  merged : (∀ t ∈ ts, left t = []) → Merged config hooks device? c ts.length past more start m

theorem table_iterate {α : Type} (table : Table α) (a : α) (n : Nat) : ((·.insert c a)^[n + 1] table).get? d =
    if d = c then some a else table.get? d := by
  induction n with
  | zero => exact Table.get?_insert ..
  | succ n ih =>
      rw [Function.iterate_succ_apply', Table.get?_insert, ih]
      split <;> rfl

theorem starts_agree (run : Run config hooks past start) (single : ts.Nodup) (ready : Welcoming c start)
    (gathering : Gathering ts later start (outset device? c) more m left) :
    Concurrent config hooks device? c ts past more start m left where
  goes free t mine busy := gathering.goes run ready free mine busy
  bounded := by
    have spent := gathering.spent single run ready
    have cheap : weight Job.cost (outset device? c) ≤ 27 := by cases device? <;> simp [outset, Plan.startLane, Job.cost]
    have all := Nat.mul_le_mul_left ts.length cheap
    omega
  returned t mine finished silent := by
    obtain ⟨front, back, split, _, launching⟩ := (gathering.staged run ready).2.2 t mine
    rw [finished] at split
    obtain ⟨rfl, rfl⟩ := List.append_eq_nil_iff.mp split.symm
    simp only [answerAfter] at launching
    generalize m.reply t = reply at launching ⊢
    subst silent
    cases launching with
    | started => rfl
    | ended reports => cases reports
  merged ended := by
    have parts := gathering.parts single run ready ended
    refine ⟨fun some => gathering.elected single run ready (List.length_pos_iff.mp some) ended, fun device reports some d => ?_,
      fun device reports => ?_, parts, fun last inTurn => parts.trans inTurn.parts.symm⟩
    · obtain ⟨n, count⟩ := Nat.exists_eq_succ_of_ne_zero (Nat.ne_of_gt some)
      have same := congrArg Parts.connections parts
      rw [iterate_called (q := Parts.connections)
        (f := onReport device? fun device table => table.insert c device) fun _ => rfl, reports,
        count] at same
      exact (congrArg (Table.get? · d) same).trans (table_iterate ..)
    · have same := congrArg Parts.deviceLane parts
      rw [iterate_called (q := Parts.deviceLane)
        (f := onReport device? fun device lane => lane.push (.connected device c)) fun _ => rfl,
        reports] at same
      exact (congrArg DeviceLane.queue same).trans (queue_iterate ..)

def gathers (ts : List ThreadId) (later : ThreadId → List Job) : List ThreadId → List Moment → Machine → Bool
  | [], _, _ => true
  | t :: rest, more, m =>
      match m.agenda t, m.step? t with
      | job :: behind, some next =>
          (if t ∈ ts then decide ((later t).length ≤ behind.length) && decide
            (Moment.unhooked ⟨m, t, job, behind⟩) && !(job matches .panic)
            else (roster more).any (·.worker = t)) && gathers ts later rest (more ++ [⟨m, t, job, behind⟩]) next
      | _, _ => true

theorem Gathering.play (gathering : Gathering ts later start plan more m left) (schedule : List ThreadId)
    (here : gathers ts later schedule more m = true) :
    ∃ left, Gathering ts later start plan (more ++ (m.play schedule).1) (m.play schedule).2 left := by
  induction schedule generalizing more m left with
  | nil => exact ⟨left, by rwa [Machine.play, List.append_nil]⟩
  | cons t rest ih =>
      cases agenda : m.agenda t with
      | nil => exact ⟨left, by simpa [Machine.play, agenda] using gathering⟩
      | cons job behind =>
          cases went : m.step? t with
          | none => exact ⟨left, by simpa [Machine.play, agenda, went] using gathering⟩
          | some next =>
              simp only [gathers, agenda, went, Bool.and_eq_true] at here
              obtain ⟨turn, onward⟩ := here
              rw [play_cons agenda went]
              have goes : ∀ {left'}, Gathering ts later start plan (more ++ [⟨m, t, job, behind⟩]) next left' →
                  ∃ left, Gathering ts later start plan (more ++ (⟨m, t, job, behind⟩ :: (next.play rest).1))
                  (next.play rest).2 left := fun step => by
                have played := ih step onward
                simpa only [List.append_assoc, List.singleton_append] using played
              by_cases mine : t ∈ ts
              · rw [if_pos mine, Bool.and_eq_true, Bool.and_eq_true, decide_eq_true_eq, decide_eq_true_eq] at turn
                obtain ⟨⟨short, unhooked⟩, quiet⟩ := turn
                have placed := (gathering.fresh.2.1 t mine).1
                rw [agenda] at placed
                rcases first : left t with _ | ⟨j, tail⟩
                · have long := congrArg List.length placed
                  rw [first, List.nil_append, List.length_cons] at long
                  omega
                · rw [first, List.cons_append, List.cons.injEq] at placed
                  obtain ⟨rfl, rfl⟩ := placed
                  rcases step_cases agenda went with ⟨rfl, _⟩ | ⟨notPanic, enabled, rfl⟩
                  · cases quiet
                  · exact goes (gathering.own mine first notPanic enabled unhooked)
              · rw [if_neg mine, List.any_eq_true] at turn
                obtain ⟨slot, member, same⟩ := turn
                have same : slot.worker = t := by simpa using same
                subst same
                exact goes (gathering.worker member agenda went)

-- Two threads report one connection, and each of them opens a lane before the other one has put its own into the map.
def racing : List Moment × Machine :=
  act (.connectAtOnce 2 {} ⟨4⟩) (rounds [(1, 0)]) (solo quietConfig [] [.addDataListener (.named "a")])

def raced : List Moment × Machine := racing.2.play (rounds [(8, 1), (1, 3), (8, 2), (11, 2), (2, 4), (13, 1), (4, 3)])

-- The same two reports one after the other.
def reportedFirst : List Moment × Machine := racing.2.play (rounds [(19, 1)])

def reportedNext : List Moment × Machine := reportedFirst.2.play (rounds [(14, 2)])

theorem starts_of_two : (∃ left, (∀ t ∈ [⟨1⟩, ⟨2⟩], left t = []) ∧
      Concurrent quietConfig [] (some {}) ⟨4⟩ [⟨1⟩, ⟨2⟩] racing.1 raced.1 racing.2 raced.2 left) ∧
    InTurn quietConfig [] (some {}) ⟨4⟩ 2 racing.2.hub.parts reportedNext.2.hub.parts ∧
    roster raced.1 = [⟨⟨0⟩, ⟨3⟩⟩, ⟨⟨1⟩, ⟨4⟩⟩] ∧ raced.2.hub.dataLanes.slots.get? ⟨4⟩ = some ⟨⟨1⟩, ⟨4⟩⟩ ∧ raced.2.exited ⟨3⟩ = true ∧
    raced.2.hub.deviceLane.queue = [.connected {} ⟨4⟩, .connected {} ⟨4⟩] := by
  have run : Run quietConfig [] racing.1 racing.2 := act_run (solo_run _ _ _) _ _
  have ready : Welcoming ⟨4⟩ racing.2 := ⟨by decide +kernel, by decide +kernel, by decide +kernel, fun _ => rfl⟩
  have ended : ∀ {ts : List ThreadId} {start m : Machine} {more : List Moment} {left : ThreadId → List Job},
      Gathering ts (fun _ => []) start (outset (some {}) ⟨4⟩) more m left → (∀ t ∈ ts, m.agenda t = []) → ∀ t ∈ ts, left t = [] :=
    fun gathering idle t mine => by
      have placed := (gathering.fresh.2.1 t mine).1
      rw [idle t mine, List.append_nil] at placed
      exact placed.symm
  refine ⟨?_, ?_, by decide +kernel⟩
  · have begin : Gathering [⟨1⟩, ⟨2⟩] (fun _ => []) racing.2 (outset (some {}) ⟨4⟩) [] racing.2 fun _ => outset (some {}) ⟨4⟩ :=
      .begin (List.forall_mem_cons.mpr ⟨rfl, List.forall_mem_singleton.mpr rfl⟩) (List.cons_ne_nil _ _)
    obtain ⟨left, gathering⟩ := begin.play (rounds [(8, 1), (1, 3), (8, 2), (11, 2), (2, 4), (13, 1), (4, 3)]) (by decide +kernel)
    exact ⟨left, ended gathering (by decide +kernel), starts_agree run (by decide) ready gathering⟩
  · have begin : Gathering [⟨1⟩] (fun _ => []) racing.2 (outset (some {}) ⟨4⟩) [] racing.2 fun _ => outset (some {}) ⟨4⟩ :=
      .begin (List.forall_mem_singleton.mpr rfl) (List.cons_ne_nil _ _)
    obtain ⟨left, first⟩ := begin.play (rounds [(19, 1)]) (by decide +kernel)
    have begin : Gathering [⟨2⟩] (fun _ => []) reportedFirst.2 (outset (some {}) ⟨4⟩) [] reportedFirst.2 fun _ =>
        outset (some {}) ⟨4⟩ :=
      .begin (List.forall_mem_singleton.mpr rfl) (List.cons_ne_nil _ _)
    obtain ⟨left', second⟩ := begin.play (rounds [(14, 2)]) (by decide +kernel)
    have one := InTurn.next .none run ready first (ended first (by decide +kernel) _ (List.mem_singleton.mpr rfl))
    exact one.next (first.run run) (first.staged run ready).1 second (ended second (by decide +kernel) _ (List.mem_singleton.mpr rfl))

end TransportHub
