import TransportHub.Proofs.Audience
import TransportHub.Proofs.Calls
import TransportHub.Proofs.Epochs
/-!
Draining: what becomes of a lane that was asked to stop. It takes nothing new, its worker takes what is queued
in one batch and throws nothing away, and hands all of it over before it exits, whenever termination begins.
-/

set_option autoImplicit false

namespace TransportHub

open DataLanes (Slot)

variable {config : Config} {hooks : List Hook} {past before since more : List Moment} {start m : Machine} {t : ThreadId}
  {job : Job} {later : List Job} {x : Moment} {slot : Slot} {id : LaneId} {c : ConnectionHandle} {lane : DataLane}
  {callback : DataCallback} {queued : List DataCallback}

def batchesFrom (id : LaneId) (past : List Moment) : List (List DataCallback) :=
  (past.map fun x => x.job.taken x.machine id).filter (· ≠ [])

theorem batchesFrom_snoc : batchesFrom id (past ++ [x]) =
    batchesFrom id past ++ if x.job.taken x.machine id = [] then [] else [x.job.taken x.machine id] := by
  simp only [batchesFrom, List.map_append, List.filter_append, List.map_cons, List.map_nil]
  split
  · rename_i none
    simp [none]
  · rename_i some
    simp [some]

theorem flatten_batches : (batchesFrom id past).flatten = takenFrom id past := by
  rw [takenFrom, List.flatMap_def, batchesFrom, List.flatten_filter_ne_nil]

structure Detached (id : LaneId) (queued : List DataCallback) (since : List Moment) (lane : DataLane) : Prop where
  stopping : lane.stopping = true
  batches : (batchesFrom id since = [] ∧ lane.items = queued) ∨ (batchesFrom id since = [queued] ∧ lane.items = [])
  refused : ∀ y ∈ since, y.job.accepted y.machine id = []
  kept : ∀ y ∈ since, y.job.thrown y.machine id = []

theorem Detached.same {lane' : DataLane} (detached : Detached id queued since lane) (accepted : x.job.accepted x.machine id = [])
    (taken : x.job.taken x.machine id = []) (thrown : x.job.thrown x.machine id = []) (items : lane'.items = lane.items)
    (stopping : lane'.stopping = true) : Detached id queued (since ++ [x]) lane' where
  stopping := stopping
  batches := by
    rw [batchesFrom_snoc, if_pos taken, List.append_nil, items]
    exact detached.batches
  refused := List.forall_mem_append.mpr ⟨detached.refused, List.forall_mem_singleton.mpr accepted⟩
  kept := List.forall_mem_append.mpr ⟨detached.kept, List.forall_mem_singleton.mpr thrown⟩

theorem Detached.look (detached : Detached id queued since lane) (agreed : x.job = .dataLane (.look id))
    (known : x.machine.hub.dataLanes.lane? id = some lane) :
    Detached id queued (since ++ [x]) (lane.look x.machine.hub.terminating).2 := by
  have taken : x.job.taken x.machine id = (lane.look x.machine.hub.terminating).1.batch := by
    rw [agreed]
    simp [Job.taken, known]
  have thrown : x.job.thrown x.machine id = [] := by
    rw [agreed]
    simp [Job.thrown, Job.cuts, known, detached.stopping]
  have accepted : x.job.accepted x.machine id = [] := by
    rw [agreed]
    rfl
  rcases DataLane.look_cases x.machine.hub.terminating lane with
    ⟨_, open_, _⟩ | ⟨_, _, seen⟩ | ⟨_, _, open_, _⟩ | ⟨full, _, seen⟩
  · rw [detached.stopping] at open_
    cases open_
  · rw [seen] at taken ⊢
    exact detached.same accepted taken thrown rfl detached.stopping
  · rw [detached.stopping] at open_
    cases open_
  · -- The batch is what was queued when the lane was stopped: a batch taken before would have left nothing.
    have first := detached.batches.resolve_right fun later => full later.2
    rw [seen] at taken ⊢
    refine ⟨detached.stopping, .inr ⟨?_, rfl⟩, ?_, ?_⟩
    · rw [batchesFrom_snoc, if_neg (taken ▸ full), taken, first.1, ← first.2]
      rfl
    · exact List.forall_mem_append.mpr ⟨detached.refused, List.forall_mem_singleton.mpr accepted⟩
    · exact List.forall_mem_append.mpr ⟨detached.kept, List.forall_mem_singleton.mpr thrown⟩

theorem Detached.turn (detached : Detached id queued since lane) (known : m.hub.dataLanes.lane? id = some lane) :
    Detached id queued (since ++ [⟨m, t, job, later⟩]) (job.turn m id lane) := by
  have stopping := detached.stopping
  have unmoved {lane' : DataLane} (items : lane'.items = lane.items) (kind : job.taken m id = [] ∧ job.thrown m id = [])
      (stopping : lane'.stopping = true) (accepted : job.accepted m id = []) :
      Detached id queued (since ++ [⟨m, t, job, later⟩]) lane' := detached.same accepted kind.1 kind.2 items stopping
  cases job with
  | dataLane job =>
      cases job with
      | look other =>
          by_cases here : other = id
          · subst here
            simp only [Job.turn, if_true]
            exact detached.look rfl known
          · simp only [Job.turn, if_neg here]
            exact unmoved rfl ⟨if_neg here, by simp [Job.thrown, Job.cuts, here]⟩ stopping rfl
      | push other c callback =>
          have shut : ¬ (other = id ∧ lane.accepts = true) := by simp [DataLane.accepts, stopping]
          simp only [Job.turn, if_neg shut]
          exact unmoved rfl ⟨rfl, rfl⟩ stopping (if_neg (by rw [known]; exact shut))
      | requestStop other | wake other =>
          simp only [Job.turn]
          split
          · exact unmoved rfl ⟨rfl, rfl⟩ (by simp [DataLane.requestStop, DataLane.wake, stopping]) rfl
          · exact unmoved rfl ⟨rfl, rfl⟩ stopping rfl
      | _ => exact unmoved rfl ⟨rfl, rfl⟩ stopping rfl
  | _ => exact unmoved rfl ⟨rfl, rfl⟩ stopping rfl

theorem Run.detached (run : Run config hooks past m) : ∀ before x since, past = before ++ x :: since →
    x.job = .dataLane (.requestStop id) → ∀ lane, x.machine.hub.dataLanes.lane? id = some lane →
      ∃ now, m.hub.dataLanes.lane? id = some now ∧ Detached id lane.items since now := by
  refine Run.induct (G := fun _ => True) (P := fun past m => ∀ before x since, past = before ++ x :: since →
      x.job = .dataLane (.requestStop id) → ∀ lane, x.machine.hub.dataLanes.lane? id = some lane →
        ∃ now, m.hub.dataLanes.lane? id = some now ∧ Detached id lane.items since now)
    ?construct ?assemble ?call ?client ?carry ?unwind run fun _ _ => trivial
  case construct | assemble =>
    exact fun before _ _ split => absurd split.symm (List.append_ne_nil_of_right_ne_nil _ (List.cons_ne_nil _ _))
  case call => exact fun _ _ before _ => before
  case client => exact fun _ _ _ before => before
  case carry =>
    intro past m t job later _ held agenda _ _ _ before x since split stops lane known
    rcases split_snoc split with ⟨_, rfl, rfl⟩ | ⟨front, rfl, old⟩
    · refine ⟨lane.requestStop, ?_, rfl, .inl ⟨rfl, rfl⟩, fun _ none => (by cases none), fun _ none => by cases none⟩
      have turn := lane_exec m t job known
      rw [show job = .dataLane (.requestStop id) from stops] at turn ⊢
      rw [hub_carry, turn]
      simp only [Job.turn, if_true]
    · obtain ⟨now, there, detached⟩ := held before x front old stops lane known
      exact ⟨_, by rw [hub_carry, lane_exec m t job there], detached.turn there⟩
  case unwind =>
    intro past m t later _ held agenda _ before x since split stops lane known
    have same : (m.unwind t later).hub.dataLanes.lane? id = m.hub.dataLanes.lane? id :=
      congrArg (·[id.val]?) lanes_unwind.lanes
    rcases split_snoc split with ⟨_, rfl, rfl⟩ | ⟨front, rfl, old⟩
    · cases stops
    · obtain ⟨now, there, detached⟩ := held before x front old stops lane known
      exact ⟨now, same.trans there, detached.turn there⟩

-- What becomes of a lane from the moment on at which it is stopped, unless its worker has left it: the worker hands
-- over what it has taken and what is queued, in order, and calls the listeners of its rounds about all of it.
structure Drained (slot : Slot) (x : Moment) (queued : List DataCallback) (since : List Moment) (m : Machine) : Prop where
  inOrder : (x.machine.agenda slot.worker).flatMap Job.pending ++ queued = handedBy slot.worker since ++
    ((m.agenda slot.worker).flatMap Job.pending ++ (m.hub.dataLanes.lane? slot.lane).elim [] (·.items))
  whole : m.exited slot.worker = true ∨ (m.hub.dataLanes.lane? slot.lane).any (·.exited) = true →
    handedBy slot.worker since = (x.machine.agenda slot.worker).flatMap Job.pending ++ queued
  once : batchesFrom slot.lane since <+: [queued]
  rounds : (x.machine.agenda slot.worker).flatMap Job.waits ++ takenFrom slot.lane since =
    (roundsOf slot.worker since).flatMap Round.data ++ (m.agenda slot.worker).flatMap Job.waits
  told : (x.machine.agenda slot.worker).flatMap Job.owes ++ (roundsOf slot.worker since).flatMap Round.calls =
    heardFrom slot.worker since ++ (m.agenda slot.worker).flatMap Job.owes
  kept : ∀ y ∈ since, y.job = .dataLane (.look slot.lane) →
    (y.job.exec y.machine y.thread).1.hub.metrics.discarded = y.machine.hub.metrics.discarded

theorem Run.told_since (first : Run config hooks before start) (run : Run config hooks (before ++ since) m) (w : ThreadId) :
    (start.agenda w).flatMap Job.owes ++ (roundsOf w since).flatMap Round.calls = heardFrom w since ++
      (m.agenda w).flatMap Job.owes := by
  have law := run.called w
  rw [roundsOf_append, heardFrom_append, List.flatMap_append, first.called w] at law
  simpa only [List.append_assoc, List.append_cancel_left_eq] using law

theorem Run.conveyed_since (first : Run config hooks before start) (run : Run config hooks (before ++ since) m)
    (member : slot ∈ roster before) :
    (start.agenda slot.worker).flatMap Job.pending ++ takenFrom slot.lane since =
        handedBy slot.worker since ++ (m.agenda slot.worker).flatMap Job.pending ∧
      (start.agenda slot.worker).flatMap Job.waits ++ takenFrom slot.lane since =
        (roundsOf slot.worker since).flatMap Round.data ++ (m.agenda slot.worker).flatMap Job.waits ∧
      (start.agenda slot.worker).flatMap Job.owes ++ (roundsOf slot.worker since).flatMap Round.calls =
        heardFrom slot.worker since ++ (m.agenda slot.worker).flatMap Job.owes := by
  have now : slot ∈ roster (before ++ since) := by
    rw [roster, List.filterMap_append]
    exact List.mem_append_left _ member
  have taken : takenFrom slot.lane (before ++ since) = takenFrom slot.lane before ++ takenFrom slot.lane since := List.flatMap_append
  have handed : handedBy slot.worker (before ++ since) = handedBy slot.worker before ++ handedBy slot.worker since :=
    List.flatMap_append
  refine ⟨?_, ?_, first.told_since run slot.worker⟩
  · have law := run.worked slot now
    rw [taken, handed, first.worked slot member] at law
    simpa only [List.append_assoc, List.append_cancel_left_eq] using law
  · have law := run.batched slot now
    rw [taken, roundsOf_append, List.flatMap_append, first.batched slot member] at law
    simpa only [List.append_assoc, List.append_cancel_left_eq] using law

theorem Run.since_stop (run : Run config hooks past m) (split : past = before ++ x :: since) (member : slot ∈ roster before)
    (stops : x.job = .dataLane (.requestStop slot.lane)) :
    (x.machine.agenda slot.worker).flatMap Job.pending ++ takenFrom slot.lane since =
        handedBy slot.worker since ++ (m.agenda slot.worker).flatMap Job.pending ∧
      (x.machine.agenda slot.worker).flatMap Job.waits ++ takenFrom slot.lane since =
        (roundsOf slot.worker since).flatMap Round.data ++ (m.agenda slot.worker).flatMap Job.waits ∧
      (x.machine.agenda slot.worker).flatMap Job.owes ++ (roundsOf slot.worker since).flatMap Round.calls =
        heardFrom slot.worker since ++ (m.agenda slot.worker).flatMap Job.owes := by
  have reached := (run.before ⟨since, by rw [split, List.append_assoc]; rfl⟩).1
  have idle : x.job.taken x.machine slot.lane = [] ∧ x.job.hands = [] ∧ x.job.gathers x.machine = none ∧ x.job.reaches = [] := by
    rw [stops]
    exact ⟨rfl, rfl, rfl, rfl⟩
  have whole : Run config hooks (before ++ x :: since) m := split ▸ run
  have laws := reached.conveyed_since whole member
  simpa only [takenFrom, handedBy, roundsOf, heardFrom, List.flatMap_cons, List.filterMap_cons, idle.1, idle.2.1, idle.2.2.1,
    idle.2.2.2, ite_self, List.nil_append] using laws

theorem Run.drains (run : Run config hooks past m) (split : past = before ++ x :: since) (member : slot ∈ roster before)
    (stops : x.job = .dataLane (.requestStop slot.lane)) (known : x.machine.hub.dataLanes.lane? slot.lane = some lane) :
    Drained slot x lane.items since m := by
  have now : slot ∈ roster past := by
    rw [split, roster, List.filterMap_append]
    exact List.mem_append_left _ member
  obtain ⟨handed, rounds, told⟩ := run.since_stop split member stops
  obtain ⟨last, there, detached⟩ := run.detached before x since split stops lane known
  have queued : lane.items = takenFrom slot.lane since ++ last.items := by
    rw [← flatten_batches]
    rcases detached.batches with ⟨none, same⟩ | ⟨one, empty⟩
    · rw [none, same]
      rfl
    · rw [one, empty, List.flatten_singleton, List.append_nil]
  have inOrder : (x.machine.agenda slot.worker).flatMap Job.pending ++ lane.items =
      handedBy slot.worker since ++ ((m.agenda slot.worker).flatMap Job.pending ++ last.items) := by
    rw [queued, ← List.append_assoc, handed, List.append_assoc]
  refine ⟨by rw [there]; exact inOrder, ?_, ?_, rounds, told, ?_⟩
  · intro gone
    have exited : last.exited = true := by
      rcases gone with ended | left
      · cases running : last.exited with
        | true => rfl
        | false =>
            have look := run.looking slot now last there running
            rw [exited_idle ended] at look
            cases look
      · simpa [there] using left
    obtain ⟨_, same, book⟩ := run.booked_roster now
    cases there.symm.trans same
    rw [run.drained slot now last there exited, book.empty exited] at inOrder
    simpa only [List.append_nil] using inOrder.symm
  · rcases detached.batches with ⟨none, _⟩ | ⟨one, _⟩
    · rw [none]
      exact List.nil_prefix
    · exact one ▸ List.prefix_rfl
  · intro y inside looks
    have thrown := detached.kept y inside
    rw [discarded_adds]
    rw [looks] at thrown ⊢
    simp only [Job.throws, thrown, List.length_nil, Nat.add_zero]

theorem Run.shut_out (run : Run config hooks past m) (split : past = before ++ x :: since)
    (pushes : x.job = .dataLane (.push id c callback))
    (shut : wasStopped id before ∨ (x.machine.hub.dataLanes.lane? id).any (·.exited) = true) :
    x.job.exec x.machine x.thread = (x.machine, DataLaneJob.refuse c callback) := by
  have refuses : (x.machine.hub.dataLanes.lane? id).any (·.accepts) = false := by
    have book := (run.before ⟨since, by rw [split, List.append_assoc]; rfl⟩).1.booked id
    cases known : x.machine.hub.dataLanes.lane? id with
    | none => rfl
    | some lane =>
        rw [Booked, known] at book
        rw [known] at shut
        rcases shut with stopped | exited
        · simp [DataLane.accepts, book.stopped.mpr stopped]
        · simp_all [DataLane.accepts]
  rw [pushes]
  simp only [Job.exec, DataLaneJob.exec, refuses, Bool.false_eq_true, if_false]

-- An enqueue is answered: with yes when its callback was accepted, with no when it was turned down and counted.
inductive Enqueued (own : List Moment) : Reply → Prop where
  | accepted (accepts : total (fun y => y.job.accepts y.machine) own = 1) (refuses : total (fun y => y.job.refuses y.machine) own = 0)
      (orphans : total (fun y => orphaning y.job) own = 0) : Enqueued own (.flag true)
  | refused (accepts : total (fun y => y.job.accepts y.machine) own = 0) (refuses : total (fun y => y.job.refuses y.machine) own = 1)
      (orphans : total (fun y => orphaning y.job) own = 1) : Enqueued own (.flag false)

structure Counted (own : List Moment) (accepts refuses orphans : Nat) : Prop where
  accepts : total (fun y => y.job.accepts y.machine) own = accepts
  refuses : total (fun y => y.job.refuses y.machine) own = refuses
  orphans : total (fun y => orphaning y.job) own = orphans

theorem Counted.turn {own : List Moment} {a b o : Nat} (tally : Counted own a b o) (x : Moment) :
    Counted (own ++ [x]) (a + x.job.accepts x.machine) (b + x.job.refuses x.machine) (o + orphaning x.job) := by
  refine ⟨?_, ?_, ?_⟩ <;> rw [total_append, total_single]
  · rw [tally.accepts]
  · rw [tally.refuses]
  · rw [tally.orphans]

theorem calm_uncounted (m : Machine) (calm : job.calm = true) : job.accepts m = 0 ∧ job.refuses m = 0 ∧ orphaning job = 0 := by
  cases job with
  | log | acquire | release | answer | resume | join => exact ⟨rfl, rfl, rfl⟩
  | _ => cases calm

inductive Enqueueing (c : ConnectionHandle) (callback : DataCallback) : Reply → List Moment → List Job → Prop where
  | finds {r : Reply} {own : List Moment} (tally : Counted own 0 0 0) : Enqueueing c callback r own [.dataLane (.find c callback)]
  | pushes {r : Reply} {own : List Moment} (id : LaneId) (tally : Counted own 0 0 0) :
      Enqueueing c callback r own [.dataLane (.push id c callback)]
  | orphans {r : Reply} {own : List Moment} (tally : Counted own 0 1 0) :
      Enqueueing c callback r own [.dataLane .orphan, .answer (.flag false)]
  | accepted {own : List Moment} (tally : Counted own 1 0 0) : Enqueueing c callback (.flag true) own []
  | refused {own : List Moment} (tally : Counted own 0 1 1) : Enqueueing c callback (.flag false) own []

theorem enqueue_answered (calling : Calling t later start (Plan.enqueueData c callback) more m [])
    (unhooked : ∀ x ∈ ownTurns t more, x.unhooked) : Enqueued (ownTurns t more) (m.reply t) := by
  have log : ∀ r, ∀ j ∈ [Job.logDataLane c r], j.calm = true := fun r j member => by
    rw [List.mem_singleton.mp member]
    rfl
  have ending : ∃ front back, [] = front ++ back ∧ (∀ j ∈ front, j.calm = true) ∧
      Enqueueing c callback (answerAfter (m.reply t) front) (ownTurns t more) back := by
    refine Calling.decisions (fun _ => id) [] [.dataLane (.find c callback)] rfl
      ⟨fun _ none => (by cases none), .finds ⟨rfl, rfl, rfl⟩⟩ (fun key => by cases key <;> rfl) ?aside ?goes calling unhooked
    case aside =>
      intro r own back x key calm
      obtain ⟨accepts, refuses, orphans⟩ := calm_uncounted x.machine calm
      cases key with
      | finds tally | pushes _ tally | orphans tally | accepted tally | refused tally =>
          have tally := tally.turn x
          rw [accepts, refuses, orphans] at tally
          first
            | exact .finds tally
            | exact .pushes _ tally
            | exact .orphans tally
            | exact .accepted tally
            | exact .refused tally
    case goes =>
      intro m own job rest key _ _ _
      generalize m.reply t = r at key ⊢
      cases key with
      | finds tally =>
          have tally := tally.turn ⟨m, t, .dataLane (.find c callback), later⟩
          cases found : m.hub.dataLanes.slots.get? c with
          | some slot =>
              refine ⟨[], [.dataLane (.push slot.lane c callback)], by simp [Job.exec, DataLaneJob.exec, found],
                fun _ none => (by cases none), .pushes _ ?_⟩
              simpa [Job.accepts, Job.refuses, orphaning, found] using tally
          | none =>
              refine ⟨[Job.logDataLane c (.dropped callback)], [.dataLane .orphan, .answer (.flag false)],
                by simp [Job.exec, DataLaneJob.exec, found, DataLaneJob.refuse], log _, .orphans ?_⟩
              simpa [Job.accepts, Job.refuses, orphaning, found] using tally
      | pushes id tally =>
          have tally := tally.turn ⟨m, t, .dataLane (.push id c callback), later⟩
          cases accepts : (m.hub.dataLanes.lane? id).any (·.accepts) with
          | true =>
              refine ⟨[Job.logDataLane c (.queued callback), .answer (.flag true)], [],
                by simp [Job.exec, DataLaneJob.exec, accepts], by simp [Job.logDataLane, Job.calm], .accepted ?_⟩
              simpa [Job.accepts, Job.refuses, orphaning, accepts] using tally
          | false =>
              refine ⟨[Job.logDataLane c (.dropped callback)], [.dataLane .orphan, .answer (.flag false)],
                by simp [Job.exec, DataLaneJob.exec, accepts, DataLaneJob.refuse], log _, .orphans ?_⟩
              simpa [Job.accepts, Job.refuses, orphaning, accepts] using tally
      | orphans tally =>
          have tally := tally.turn ⟨m, t, .dataLane .orphan, .answer (.flag false) :: later⟩
          exact ⟨[.answer (.flag false)], [], rfl, by simp [Job.calm], .refused tally⟩
  obtain ⟨front, back, split, _, key⟩ := ending
  obtain ⟨rfl, rfl⟩ := List.append_eq_nil_iff.mp split.symm
  simp only [answerAfter] at key
  generalize m.reply t = reply at key ⊢
  cases key with
  | accepted tally => exact .accepted tally.accepts tally.refuses tally.orphans
  | refused tally => exact .refused tally.accepts tally.refuses tally.orphans

-- A stopped lane is drained, whenever termination begins, and turns down what comes late. An enqueue that is turned
-- down counts one orphan; only a panic that comes out of a hooked operation can keep it from that.
structure Draining (config : Config) (hooks : List Hook) (past : List Moment) (m : Machine) : Prop where
  drained : ∀ before x since slot lane, past = before ++ x :: since → slot ∈ roster before →
    x.job = .dataLane (.requestStop slot.lane) → x.machine.hub.dataLanes.lane? slot.lane = some lane → lane.exited = false →
      Drained slot x lane.items since m
  served : ∀ id lane, m.hub.dataLanes.lane? id = some lane → ∃ slot ∈ roster past, slot.lane = id
  late : ∀ before x since id c callback, past = before ++ x :: since → x.job = .dataLane (.push id c callback) →
    wasStopped id before ∨ (x.machine.hub.dataLanes.lane? id).any (·.exited) = true →
      x.job.exec x.machine x.thread = (x.machine, DataLaneJob.refuse c callback)
  counted : ∀ x ∈ past, (x.job.exec x.machine x.thread).1.hub.metrics.orphaned = x.machine.hub.metrics.orphaned + orphaning x.job
  answered : ∀ t later c callback more m', Calling t later m (Plan.enqueueData c callback) more m' [] →
    (∀ x ∈ ownTurns t more, x.unhooked) → Enqueued (ownTurns t more) (m'.reply t)

theorem stopped_lanes_drain (run : Run config hooks past m) : Draining config hooks past m where
  drained _ _ _ _ _ split member stops known _ := run.drains split member stops known
  served id lane known := by
    refine run.rostered.every id ?_
    obtain ⟨bound, _⟩ := List.getElem?_eq_some_iff.mp known
    exact bound
  late _ _ _ _ _ _ split pushes shut := run.shut_out split pushes shut
  counted x _ := orphaned_adds x.machine x.thread x.job
  answered _ _ _ _ _ _ calling unhooked := enqueue_answered calling unhooked

-- A lane that is stopped after termination has begun, while its worker has one frame in hand and another one is queued.
def drainedSession : List Moment × Machine :=
  act (.report ⟨1⟩ (.disconnected {} ⟨4⟩)) (rounds [(14, 0), (18, 1)])
    (act .terminate (rounds [(2, 0)])
      (act (.report ⟨1⟩ (.received ⟨4⟩ [8])) (rounds [(9, 0)])
        (act (.report ⟨1⟩ (.received ⟨4⟩ [7])) (rounds [(9, 0), (3, 1)])
          (solo quietConfig [] [.report ⟨1⟩ (.connected {} ⟨4⟩), .addDataListener (.named "a")]))))

theorem stop_within : 59 < drainedSession.1.length := by decide +kernel

def drainedStop : Moment := drainedSession.1.get ⟨59, stop_within⟩

theorem drained_after_termination : drainedStop.machine.hub.terminating = true ∧
    Drained ⟨⟨0⟩, ⟨1⟩⟩ drainedStop [.received ⟨4⟩ [8]] (drainedSession.1.drop 60) drainedSession.2 ∧
    handedBy ⟨1⟩ (drainedSession.1.drop 60) = [.received ⟨4⟩ [7], .received ⟨4⟩ [8]] ∧
    heardFrom ⟨1⟩ (drainedSession.1.drop 60) = [(⟨0⟩, .data (.received ⟨4⟩ [7])), (⟨0⟩, .data (.received ⟨4⟩ [8]))] := by
  have run : Run quietConfig [] drainedSession.1 drainedSession.2 :=
    act_run (act_run (act_run (act_run (solo_run _ _ _) _ _) _ _) _ _) _ _
  have split : drainedSession.1 = drainedSession.1.take 59 ++ drainedStop :: drainedSession.1.drop 60 :=
    (List.take_append_drop 59 _).symm.trans (congrArg _ (List.drop_eq_getElem_cons stop_within))
  refine ⟨by decide +kernel, ?_, by decide +kernel⟩
  exact (stopped_lanes_drain run).drained _ _ _ ⟨⟨0⟩, ⟨1⟩⟩ ⟨⟨4⟩, [.received ⟨4⟩ [8]], false, false, false⟩ split (by decide +kernel)
    (stopsLane_iff.mp (by decide +kernel)) (by decide +kernel) rfl

end TransportHub
