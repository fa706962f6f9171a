import Mathlib.Data.List.Basic
import Mathlib.Data.List.Flatten
import Mathlib.Data.List.Induction
import TransportHub.Proofs.Audience
import TransportHub.Proofs.Epochs
import TransportHub.Proofs.Silence
/-!
Reconnects: a connection that comes back gets a new lane with a worker of its own. Where the worker of
the lane before has delivered everything by then, listeners hear about the connection in the order of
its reports, over all its lanes; where it has not, two workers deliver for one connection.
-/

set_option autoImplicit false

namespace TransportHub

open DataLanes (Slot)

variable {config : Config} {hooks : List Hook} {past : List Moment} {m : Machine} {t u w : ThreadId}
  {job : Job} {later : List Job} {x : Moment} {slot : Slot} {c : ConnectionHandle} {l : ListenerId}

def Moment.connects (c : ConnectionHandle) (x : Moment) : Option Slot :=
  match x.job with
  | .dataLane (.publish other _) => if other = c then x.publishes else none
  | _ => none

def epochsOf (c : ConnectionHandle) (past : List Moment) : List Slot := past.filterMap (Moment.connects c)

-- What a worker has to deliver: what waits on its lane, what it has taken and not handed over, and the
-- calls of single listeners that are left.
def Machine.toDeliver (m : Machine) (slot : Slot) : List DataCallback :=
  (m.hub.dataLanes.lane? slot.lane).elim [] (·.items) ++ (m.agenda slot.worker).flatMap Job.pending ++
    ((m.agenda slot.worker).flatMap Job.owes).filterMap (·.2.data?)

-- The lane takes nothing any more, and its worker has delivered everything.
structure Machine.Spent (m : Machine) (slot : Slot) : Prop where
  shut : (m.hub.dataLanes.lane? slot.lane).any (·.accepts) = false
  done : m.toDeliver slot = []

-- The connection is put into the map again only when its lanes so far are spent.
def Successive (c : ConnectionHandle) (past : List Moment) : Prop :=
  ∀ before x after, past = before ++ x :: after → (x.connects c).isSome →
    ∀ earlier ∈ epochsOf c before, x.machine.Spent earlier

instance : Decidable (m.Spent slot) :=
  decidable_of_iff ((m.hub.dataLanes.lane? slot.lane).any (·.accepts) = false ∧ m.toDeliver slot = [])
    ⟨fun both => ⟨both.1, both.2⟩, fun spent => ⟨spent.shut, spent.done⟩⟩

def turnsFrom (c : ConnectionHandle) (lanes : List Slot) : List Moment → Bool
  | [] => true
  | x :: rest => (x.connects c).all (fun _ => lanes.all fun slot => x.machine.Spent slot) &&
      turnsFrom c (lanes ++ (x.connects c).toList) rest

theorem turnsFrom_iff (lanes : List Slot) : turnsFrom c lanes past = true ↔
    ∀ before x after, past = before ++ x :: after → (x.connects c).isSome →
      ∀ earlier ∈ lanes ++ epochsOf c before, x.machine.Spent earlier := by
  induction past generalizing lanes with
  | nil => exact ⟨fun _ before x after split => absurd split (by simp), fun _ => rfl⟩
  | cons first rest ih =>
      have onward : ∀ before, lanes ++ (first.connects c).toList ++ epochsOf c before = lanes ++ epochsOf c (first :: before) := by
        intro before
        rw [List.append_assoc, epochsOf, epochsOf, List.filterMap_cons]
        cases first.connects c <;> rfl
      rw [turnsFrom, Bool.and_eq_true, ih]
      constructor
      · rintro ⟨here, later⟩ before x after split connects
        rcases List.cons_eq_append_iff.mp split with ⟨rfl, same⟩ | ⟨back, rfl, same⟩
        · obtain ⟨rfl, -⟩ := List.cons.inj same
          obtain ⟨slot, connects⟩ := Option.isSome_iff_exists.mp connects
          rw [connects] at here
          simpa [epochsOf] using here
        · rw [← onward]
          exact later back x after same connects
      · intro all
        refine ⟨?_, fun before x after split connects => ?_⟩
        · cases connects : first.connects c with
          | none => rfl
          | some slot => simpa [epochsOf] using all [] first rest rfl (by rw [connects]; rfl)
        · rw [onward]
          exact all (first :: before) x after (by rw [split]; rfl) connects

instance : Decidable (Successive c past) :=
  decidable_of_iff (turnsFrom c [] past = true) ((turnsFrom_iff []).trans (by simp only [List.nil_append]; rfl))

theorem connects_job (connects : x.connects c = some slot) :
    x.job = .dataLane (.publish c slot) ∧ x.publishes = some slot := by
  obtain ⟨m, t, job, later⟩ := x
  cases job with
  | dataLane job =>
      cases job with
      | publish other given =>
          simp only [Moment.connects] at connects
          split at connects
          · rename_i same
            obtain ⟨_, agreed, _⟩ := publishes_job connects
            cases agreed
            exact ⟨by rw [same], connects⟩
          · cases connects
      | _ => cases connects
  | _ => cases connects

theorem epochsOf_snoc : epochsOf c (past ++ [x]) = epochsOf c past ++ (x.connects c).toList := by
  unfold epochsOf
  rw [List.filterMap_append]
  cases here : x.connects c <;> simp [here]

theorem epochs_published (member : slot ∈ epochsOf c past) : slot ∈ published past := by
  obtain ⟨x, seen, connects⟩ := List.mem_filterMap.mp member
  exact List.mem_filterMap.mpr ⟨x, seen, (connects_job connects).2⟩

theorem Run.epochs_roster (run : Run config hooks past m) (member : slot ∈ epochsOf c past) : slot ∈ roster past :=
  run.enlisted.1.2 slot (epochs_published member)

theorem serves_unique {h : Hub} {id : LaneId} {d : ConnectionHandle} (one : h.serves id c) (other : h.serves id d) : c = d := by
  obtain ⟨lane, known, rfl⟩ := one
  obtain ⟨_, again, rfl⟩ := other
  rw [known] at again
  cases again
  rfl

theorem Run.epochs_serve (run : Run config hooks past m) (managed : ∀ x ∈ past, x.managed) :
    slot ∈ epochsOf c past ↔ slot ∈ published past ∧ m.hub.serves slot.lane c := by
  have served : ∀ x ∈ past, ∀ d, x.job = .dataLane (.publish d slot) → m.hub.serves slot.lane d := by
    intro x seen d publish
    obtain ⟨earlier, start, reached, agenda⟩ := run.reached seen
    have first := (reached.aligned fun y here => managed y (start.subset (List.mem_append_left _ here))).2 x.thread
    rw [agenda, publish] at first
    exact run.stays (Q := fun h => h.serves slot.lane d) serves_exec (fun _ here => here) x seen first.1
  constructor
  · intro member
    obtain ⟨x, seen, connects⟩ := List.mem_filterMap.mp member
    exact ⟨epochs_published member, served x seen c (connects_job connects).1⟩
  · rintro ⟨member, serves⟩
    obtain ⟨⟨machine, thread, job, rest⟩, seen, publishes⟩ := List.mem_filterMap.mp member
    obtain ⟨d, rfl, _⟩ := publishes_job publishes
    refine List.mem_filterMap.mpr ⟨_, seen, ?_⟩
    exact (if_pos (serves_unique (served _ seen d rfl) serves)).trans publishes

theorem Run.accepted_home (run : Run config hooks past m) (managed : ∀ x ∈ past, x.managed) (member : slot ∈ roster past)
    {callback : DataCallback} (accepted : callback ∈ acceptedOn slot.lane past) : slot ∈ epochsOf callback.connection past := by
  obtain ⟨lane, known⟩ := lane_known (run.rostered.known slot member).1
  have ours := run.reported_ours managed ⟨lane, known, rfl⟩ callback
    ((run.reports slot.lane).split ▸ List.mem_append_left _ accepted)
  exact (run.epochs_serve managed).mpr
    ⟨run.slot_published member (List.ne_nil_of_mem accepted), lane, known, ours.symm⟩

theorem Run.accepted_ours (run : Run config hooks past m) (managed : ∀ x ∈ past, x.managed) (member : slot ∈ epochsOf c past) :
    ∀ callback ∈ acceptedOn slot.lane past, callback.connection = c := fun callback accepted =>
  run.reported_ours managed ((run.epochs_serve managed).mp member).2 callback
    ((run.reports slot.lane).split ▸ List.mem_append_left _ accepted)

theorem mem_calls {r : Round} {call : ListenerId × Callback} {callback : DataCallback} (member : call ∈ r.calls)
    (data : call.2.data? = some callback) : callback ∈ r.data := by
  obtain ⟨brought, inside, told⟩ := List.mem_flatMap.mp member
  obtain ⟨_, _, rfl⟩ := List.mem_map.mp told
  exact List.mem_filterMap.mpr ⟨brought, inside, data⟩

theorem Run.delivers_accepted (run : Run config hooks past m) (member : slot ∈ roster past) {callback : DataCallback}
    (here : callback ∈ m.toDeliver slot) : callback ∈ acceptedOn slot.lane past := by
  obtain ⟨lane, known, book⟩ := run.booked_roster member
  have taken : callback ∈ takenFrom slot.lane past → callback ∈ acceptedOn slot.lane past := fun taken => by
    rw [book.balance]
    exact List.mem_append_left _ (List.mem_append_left _ taken)
  rw [Machine.toDeliver, known, List.mem_append, List.mem_append] at here
  rcases here with (waits | pending) | owed
  · rw [book.balance]
    exact List.mem_append_right _ waits
  · refine taken ?_
    rw [run.worked slot member]
    exact List.mem_append_right _ pending
  · obtain ⟨call, owes, data⟩ := List.mem_filterMap.mp owed
    have called : call ∈ (roundsOf slot.worker past).flatMap Round.calls := by
      rw [run.called]
      exact List.mem_append_right _ owes
    obtain ⟨r, gathered, inside⟩ := List.mem_flatMap.mp called
    refine taken ?_
    rw [run.batched slot member]
    exact List.mem_append_left _ (List.mem_flatMap.mpr ⟨r, gathered, mem_calls inside data⟩)

theorem pending_parts (none : job.pending = []) : job.hands = [] ∧ job.waits = [] := by
  cases job with
  | dataLane job => cases job <;> first | exact ⟨rfl, none⟩ | exact ⟨rfl, rfl⟩
  | participant job => exact ⟨none, rfl⟩
  | _ => exact ⟨rfl, rfl⟩

theorem owes_reaches (none : job.owes.filterMap (·.2.data?) = []) : job.reaches.filterMap (·.2.data?) = [] := by
  cases job with
  | participant job => cases job <;> first | exact none | rfl
  | _ => rfl

theorem look_batch_nil {lane : DataLane} (terminating : Bool) (empty : lane.items = []) : (lane.look terminating).1.batch = [] := by
  rcases DataLane.look_cases terminating lane with ⟨_, _, seen⟩ | ⟨_, _, seen⟩ | ⟨_, _, _, seen⟩ | ⟨full, _, seen⟩
  · rw [seen]; rfl
  · rw [seen]; rfl
  · rw [seen]; rfl
  · exact absurd empty full

theorem Machine.Spent.quiet (spent : x.machine.Spent slot) (agenda : x.machine.agenda x.thread = x.job :: x.later) :
    (x.job.accepted x.machine slot.lane = [] ∧ x.job.taken x.machine slot.lane = [] ∧ x.job.thrown x.machine slot.lane = []) ∧
      (x.thread = slot.worker → x.job.hands = [] ∧ (x.job.gathers x.machine).elim [] Round.data = [] ∧
        x.job.reaches.filterMap (·.2.data?) = []) := by
  obtain ⟨m, t, job, later⟩ := x
  obtain ⟨shut, done⟩ := spent
  rw [Machine.toDeliver, List.append_eq_nil_iff, List.append_eq_nil_iff] at done
  obtain ⟨⟨items, pending⟩, owes⟩ := done
  refine ⟨?_, ?_⟩
  · cases known : m.hub.dataLanes.lane? slot.lane with
    | none =>
        refine ⟨?_, ?_, ?_⟩
        · unfold Job.accepted
          split <;> simp [known]
        · unfold Job.taken
          split <;> simp [known]
        · simp [Job.thrown, known]
    | some lane =>
        rw [known] at items shut
        have closed : lane.accepts = false := shut
        have empty : lane.items = [] := items
        refine ⟨?_, ?_, ?_⟩
        · unfold Job.accepted
          split <;> simp [known, closed]
        · unfold Job.taken
          split <;> simp [known, look_batch_nil m.hub.terminating empty]
        · simp [Job.thrown, known, empty]
  · rintro rfl
    rw [agenda, List.flatMap_cons, List.append_eq_nil_iff] at pending
    rw [agenda, List.flatMap_cons, List.filterMap_append, List.append_eq_nil_iff] at owes
    rw [gathers_data]
    exact ⟨(pending_parts pending.1).1, (pending_parts pending.1).2, owes_reaches owes.1⟩

theorem calls_data {r : Round} (none : r.data = []) : r.calls.filterMap (·.2.data?) = [] := by
  refine List.filterMap_eq_nil_iff.mpr fun call member => Option.eq_none_iff_forall_ne_some.mpr fun callback data => ?_
  have inside := mem_calls member data
  rw [none] at inside
  cases inside

theorem turn_accepts {lane : DataLane} {id : LaneId} (shut : lane.accepts = false) : (job.turn m id lane).accepts = false := by
  cases job with
  | dataLane job =>
      cases job with
      | requestStop other =>
          simp only [Job.turn]
          split
          · rfl
          · exact shut
      | wake other =>
          simp only [Job.turn]
          split <;> exact shut
      | push other c callback =>
          simp only [Job.turn]
          rw [if_neg fun both => absurd (shut.symm.trans both.2) Bool.false_ne_true]
          exact shut
      | look other =>
          simp only [Job.turn]
          split
          · rcases DataLane.look_cases m.hub.terminating lane with
              ⟨_, _, seen⟩ | ⟨_, _, seen⟩ | ⟨_, _, _, seen⟩ | ⟨_, _, seen⟩ <;> rw [seen]
            · simp [DataLane.accepts]
            · simp [DataLane.accepts]
            · exact shut
            · exact shut
          · exact shut
      | _ => exact shut
  | _ => exact shut

-- Spent is spent: the books of the worker balance, and a step adds nothing to either side.
theorem Run.spent_next (run : Run config hooks past x.machine) (next : Run config hooks (past ++ [x]) m)
    (agenda : x.machine.agenda x.thread = x.job :: x.later) (member : slot ∈ roster past) (spent : x.machine.Spent slot) :
    m.Spent slot := by
  obtain ⟨⟨accepted, taken, thrown⟩, quiet⟩ := spent.quiet agenda
  obtain ⟨lane, known, book⟩ := run.booked_roster member
  have after : slot ∈ roster (past ++ [x]) := mem_roster_snoc.mpr (.inl member)
  obtain ⟨lane', known', book'⟩ := next.booked_roster after
  have shut : ∃ lane, m.hub.dataLanes.lane? slot.lane = some lane ∧ lane.accepts = false := by
    refine next.stays (Q := fun h => ∃ lane, h.dataLanes.lane? slot.lane = some lane ∧ lane.accepts = false)
      (fun m t job ⟨lane, known, shut⟩ => ⟨_, lane_exec m t job known, turn_accepts shut⟩) (fun _ here => here) x
      (List.mem_append_right _ (List.mem_singleton.mpr rfl)) ⟨lane, known, by simpa [known] using spent.shut⟩
  have done := spent.done
  rw [Machine.toDeliver, known, List.append_eq_nil_iff, List.append_eq_nil_iff] at done
  obtain ⟨⟨empty, handed⟩, called⟩ := done
  refine ⟨?_, ?_⟩
  · obtain ⟨same, there, closed⟩ := shut
    rw [there]
    exact closed
  rw [Machine.toDeliver, known', List.append_eq_nil_iff, List.append_eq_nil_iff]
  refine ⟨⟨?_, ?_⟩, ?_⟩
  · have balance := book'.balance
    rw [acceptedOn_snoc, takenFrom_snoc, thrownFrom_snoc, accepted, taken, thrown, book.balance] at balance
    have none : lane.items = [] := empty
    simpa [none] using balance
  · have silent : (if x.thread = slot.worker then x.job.hands else []) = [] := by
      split
      · exact (quiet ‹_›).1
      · rfl
    have worked := next.worked slot after
    rw [takenFrom_snoc, handedBy_snoc, taken, silent, run.worked slot member, handed] at worked
    simpa using worked
  · have told := congrArg (List.filterMap (·.2.data?)) (next.called slot.worker)
    have before := congrArg (List.filterMap (·.2.data?)) (run.called slot.worker)
    have silent : (if x.thread = slot.worker then x.job.reaches else []).filterMap (·.2.data?) = [] := by
      split
      · exact (quiet ‹_›).2.2
      · rfl
    have idle : ((if x.thread = slot.worker then x.job.gathers x.machine else none).toList.flatMap Round.calls).filterMap
        (·.2.data?) = [] := by
      split
      · have batch := (quiet ‹_›).2.1
        cases gathers : x.job.gathers x.machine with
        | none => rfl
        | some r =>
            rw [gathers] at batch
            simpa using calls_data batch
      · rfl
    rw [roundsOf_snoc, heardFrom_snoc] at told
    simp only [List.flatMap_append, List.filterMap_append, silent, idle, called, List.append_nil] at told before
    rw [before] at told
    exact List.self_eq_append_right.mp told

theorem Machine.Spent.same {m' : Machine} (spent : m.Spent slot) (hub : m'.hub = m.hub)
    (agenda : m'.agenda slot.worker = m.agenda slot.worker) : m'.Spent slot := by
  refine ⟨?_, ?_⟩
  · rw [hub]
    exact spent.shut
  · rw [Machine.toDeliver, hub, agenda]
    exact spent.done

theorem Successive.front (successive : Successive c (past ++ [x])) : Successive c past :=
  fun before y after split => successive before y (after ++ [x]) (by simp [split])

theorem Run.spent_before (run : Run config hooks past m) (successive : Successive c past) :
    ∀ slot ∈ (epochsOf c past).dropLast, m.Spent slot := by
  induction run with
  | construct | assemble => exact fun _ none => by cases none
  | call op run idle ih =>
      intro slot member
      have known := run.epochs_roster (List.dropLast_subset _ member)
      exact (ih successive slot member).same rfl (agenda_beginWith_other (run.rostered.apart known) _)
  | client name op run ih =>
      intro slot member
      have known := run.rostered.known slot (run.epochs_roster (List.dropLast_subset _ member))
      exact (ih successive slot member).same rfl (agenda_client_old known.2.2)
  | @step past m m' t job later run agenda went ih =>
      intro slot member
      rw [epochsOf_snoc] at member
      have next := run.step agenda went
      cases connects : Moment.connects c ⟨m, t, job, later⟩ with
      | none =>
          rw [connects, Option.toList_none, List.append_nil] at member
          exact run.spent_next next agenda (run.epochs_roster (List.dropLast_subset _ member)) (ih successive.front slot member)
      | some opened =>
          rw [connects, Option.toList_some, List.dropLast_concat] at member
          exact run.spent_next next agenda (run.epochs_roster member)
            (successive past _ [] rfl (by rw [connects]; rfl) slot member)

-- What happens to a connection, lane by lane: where only the last lane is concerned at any time, the whole
-- is one lane's part after the other.
theorem flatMap_turns {α : Type} {f : Moment → List α} {part : Slot → Moment → List α}
    (parts : ∀ slot x, part slot x = f x ∨ part slot x = [])
    (silent : ∀ x, (x.connects c).isSome → f x = [])
    (homes : ∀ before x after, past = before ++ x :: after → f x ≠ [] → ∃ slot ∈ epochsOf c before, part slot x = f x)
    (spent : ∀ before x after, past = before ++ x :: after → ∀ slot ∈ (epochsOf c before).dropLast, part slot x = [])
    (fresh : ∀ before x after slot, past = before ++ x :: after → x.connects c = some slot → before.flatMap (part slot) = []) :
    past.flatMap f = (epochsOf c past).flatMap fun slot => past.flatMap (part slot) := by
  induction past using List.reverseRecOn with
  | nil => rfl
  | append_singleton past x ih =>
      have before := ih
        (fun front y back split => homes front y (back ++ [x]) (by simp [split]))
        (fun front y back split => spent front y (back ++ [x]) (by simp [split]))
        (fun front y back slot split => fresh front y (back ++ [x]) slot (by simp [split]))
      rw [epochsOf_snoc, flatMap_snoc, before]
      simp only [flatMap_snoc]
      cases connects : x.connects c with
      | some slot =>
          have none := silent x (by rw [connects]; rfl)
          have idle : ∀ other, part other x = [] := fun other => (parts other x).elim (·.trans none) id
          simp only [idle, none, List.append_nil, Option.toList_some, List.flatMap_append, List.flatMap_singleton,
            fresh past x [] slot rfl connects]
      | none =>
          rw [Option.toList_none, List.append_nil]
          rcases List.eq_nil_or_concat (epochsOf c past) with empty | ⟨front, last, split⟩
          · have none : f x = [] := Classical.byContradiction fun some => by
              obtain ⟨_, member, _⟩ := homes past x [] rfl some
              rw [empty] at member
              cases member
            rw [empty, none]
            rfl
          · rw [List.concat_eq_append] at split
            have quiet : ∀ slot ∈ front, part slot x = [] := fun slot member =>
              spent past x [] rfl slot (by rw [split, List.dropLast_concat]; exact member)
            have mine : part last x = f x := by
              refine (parts last x).elim id fun none => ?_
              refine none.trans (Classical.byContradiction fun some => ?_)
              obtain ⟨slot, member, same⟩ := homes past x [] rfl (Ne.symm some)
              rw [split] at member
              rcases List.mem_append.mp member with old | here
              · exact some ((quiet slot old).symm.trans same)
              · rw [List.mem_singleton.mp here] at same
                exact some (none.symm.trans same)
            have rest : front.flatMap (fun slot => past.flatMap (part slot) ++ part slot x) =
                front.flatMap fun slot => past.flatMap (part slot) :=
              List.flatMap_congr fun slot member => by rw [quiet slot member, List.append_nil]
            rw [split, List.flatMap_append, List.flatMap_append, rest, List.flatMap_singleton, List.flatMap_singleton, mine,
              List.append_assoc]

theorem Run.connects_fresh (run : Run config hooks past x.machine) (agenda : x.machine.agenda x.thread = x.job :: x.later)
    (connects : x.connects c = some slot) : slot ∈ roster past ∧ acceptedOn slot.lane past = [] := by
  have enlisted := run.enlisted
  have first := enlisted.2 x.thread
  rw [agenda, (connects_job connects).1] at first
  refine ⟨first.1, Classical.byContradiction fun some => ?_⟩
  have pending : .dataLane (.publish c slot) ∈ x.machine.agenda x.thread := by
    rw [agenda, (connects_job connects).1]
    exact List.mem_cons_self ..
  exact run.unpresented (published_landed (run.slot_published first.1 some)) pending

theorem Run.unheard (run : Run config hooks past m) (member : slot ∈ roster past) (none : acceptedOn slot.lane past = []) :
    (heardFrom slot.worker past).filterMap (·.2.data?) = [] := by
  obtain ⟨_, _, book⟩ := run.booked_roster member
  have balance := book.balance
  rw [none, eq_comm, List.append_eq_nil_iff, List.append_eq_nil_iff, run.batched slot member, List.append_eq_nil_iff] at balance
  have empty : ∀ r ∈ roundsOf slot.worker past, r.data = [] := List.flatMap_eq_nil_iff.mp balance.1.1.1
  have called := congrArg (List.filterMap (·.2.data?)) (run.called slot.worker)
  rw [List.filterMap_flatMap, List.flatMap_eq_nil_iff.mpr fun r member => calls_data (empty r member), List.filterMap_append,
    eq_comm, List.append_eq_nil_iff] at called
  exact called.1

def toldOf (l : ListenerId) (c : ConnectionHandle) (call : ListenerId × Callback) : Option DataCallback :=
  if call.1 = l then call.2.data?.filter (·.connection = c) else none

def Job.admits (m : Machine) : Job → List DataCallback
  | .dataLane (.push id _ callback) => if (m.hub.dataLanes.lane? id).any (·.accepts) then [callback] else []
  | _ => []

def acceptedFor (c : ConnectionHandle) (past : List Moment) : List DataCallback :=
  past.flatMap fun x => (x.job.admits x.machine).filter (·.connection = c)

def heardBy (l : ListenerId) (c : ConnectionHandle) (past : List Moment) : List DataCallback :=
  past.flatMap fun x => x.job.reaches.filterMap (toldOf l c)

theorem toldOf_none {calls : List (ListenerId × Callback)} (none : calls.filterMap (·.2.data?) = []) :
    calls.filterMap (toldOf l c) = [] := by
  refine List.filterMap_eq_nil_iff.mpr fun call member => ?_
  have silent : call.2.data? = Option.none := List.filterMap_eq_nil_iff.mp none call member
  simp [toldOf, silent]

theorem toldOf_some {call : ListenerId × Callback} {callback : DataCallback} (tells : toldOf l c call = some callback) :
    call.2.data? = some callback ∧ callback.connection = c := by
  unfold toldOf at tells
  split at tells
  · obtain ⟨data, ours⟩ := Option.filter_eq_some_iff.mp tells
    exact ⟨data, of_decide_eq_true ours⟩
  · cases tells

theorem Run.turns {α : Type} {f : Moment → List α} {g : Slot → Moment → List α}
    (parts : ∀ slot x, g slot x = f x ∨ g slot x = []) (silent : ∀ x, (x.connects c).isSome → f x = [])
    (homes : ∀ {before x}, Run config hooks before x.machine → (∀ y ∈ before, y.managed) →
      x.machine.agenda x.thread = x.job :: x.later → f x ≠ [] → ∃ slot ∈ epochsOf c before, g slot x = f x)
    (spent : ∀ {x slot}, x.machine.Spent slot → x.machine.agenda x.thread = x.job :: x.later → g slot x = [])
    (fresh : ∀ {before m slot}, Run config hooks before m → slot ∈ roster before → acceptedOn slot.lane before = [] →
      before.flatMap (g slot) = [])
    (run : Run config hooks past m) (managed : ∀ x ∈ past, x.managed) (successive : Successive c past) :
    past.flatMap f = (epochsOf c past).flatMap fun slot => past.flatMap (g slot) := by
  have reached : ∀ {before x after}, past = before ++ x :: after →
      Run config hooks before x.machine ∧ x.machine.agenda x.thread = x.job :: x.later := fun {_ _ after} split =>
    run.before ⟨after, by rw [split, List.append_assoc]; rfl⟩
  have old : ∀ {before x after}, past = before ++ x :: after → ∀ y ∈ before, y.managed := fun split y here =>
    managed y (split ▸ List.mem_append_left _ here)
  refine flatMap_turns parts silent (fun before x after split some => ?_) (fun before x after split slot member => ?_)
    (fun before x after slot split connects => ?_)
  · exact homes (reached split).1 (old split) (reached split).2 some
  · have early : Successive c before := fun front y back inner => successive front y (back ++ x :: after) (by simp [split, inner])
    exact spent ((reached split).1.spent_before early slot member) (reached split).2
  · obtain ⟨member, none⟩ := (reached split).1.connects_fresh (reached split).2 connects
    exact fresh (reached split).1 member none

theorem Run.accepted_turns (run : Run config hooks past m) (managed : ∀ x ∈ past, x.managed) (successive : Successive c past) :
    acceptedFor c past = (epochsOf c past).flatMap fun slot => acceptedOn slot.lane past := by
  have turns := Run.turns (f := fun x => (x.job.admits x.machine).filter (·.connection = c))
    (g := fun slot x => (x.job.accepted x.machine slot.lane).filter (·.connection = c)) ?parts ?silent ?homes ?spent ?fresh
    run managed successive
  case parts =>
    intro slot x
    obtain ⟨machine, thread, job, rest⟩ := x
    cases job with
    | dataLane job =>
        cases job with
        | push id d callback =>
            by_cases mine : id = slot.lane
            · subst mine
              exact .inl (by simp [Job.accepted, Job.admits])
            · exact .inr (by simp [Job.accepted, mine])
        | _ => exact .inl rfl
    | _ => exact .inl rfl
  case silent =>
    intro x connects
    obtain ⟨slot, connects⟩ := Option.isSome_iff_exists.mp connects
    simp only [(connects_job connects).1, Job.admits, List.filter_nil]
  case homes =>
    intro before x earlier old agenda some
    obtain ⟨machine, thread, job, rest⟩ := x
    cases job with
    | dataLane job =>
        cases job with
        | push id d callback =>
            have first := (earlier.aligned old).2 thread
            have enlisted := earlier.enlisted.2 thread
            rw [agenda] at first enlisted
            obtain ⟨slot, member, rfl⟩ := enlisted.1
            have ours : callback.connection = c := by
              by_contra other
              simp only [Job.admits] at some
              split at some <;> simp [other] at some
            refine ⟨slot, (earlier.epochs_serve old).mpr ⟨member, ?_⟩, ?_⟩
            · rw [← ours, first.1.1]
              exact first.1.2
            · simp [Job.accepted, Job.admits]
        | _ => exact absurd rfl some
    | _ => exact absurd rfl some
  case spent =>
    intro x slot spent agenda
    rw [(spent.quiet agenda).1.1, List.filter_nil]
  case fresh =>
    intro before m slot _ _ none
    rw [← List.filter_flatMap, ← acceptedOn, none, List.filter_nil]
  rw [acceptedFor, turns]
  refine List.flatMap_congr fun slot member => ?_
  rw [← List.filter_flatMap]
  exact List.filter_eq_self.mpr fun callback here => decide_eq_true (run.accepted_ours managed member callback here)

theorem reaches_hear {call : ListenerId × Callback} (member : call ∈ job.reaches) :
    job = .participant (.hear call.1 call.2) ∧ job.owes = job.reaches := by
  cases job with
  | participant job =>
      cases job with
      | hear =>
          cases List.mem_singleton.mp member
          exact ⟨rfl, rfl⟩
      | _ => cases member
  | _ => cases member

theorem Run.heard_turns (run : Run config hooks past m) (managed : ∀ x ∈ past, x.managed) (successive : Successive c past) :
    heardBy l c past = (epochsOf c past).flatMap fun slot => (heardFrom slot.worker past).filterMap (toldOf l c) := by
  have turns := Run.turns (f := fun x => x.job.reaches.filterMap (toldOf l c))
    (g := fun slot x => (if x.thread = slot.worker then x.job.reaches else []).filterMap (toldOf l c))
    ?parts ?silent ?homes ?spent ?fresh run managed successive
  case parts =>
    intro slot x
    by_cases mine : x.thread = slot.worker
    · exact .inl (by rw [if_pos mine])
    · exact .inr (by rw [if_neg mine]; rfl)
  case silent =>
    intro x connects
    obtain ⟨slot, connects⟩ := Option.isSome_iff_exists.mp connects
    rw [(connects_job connects).1]
    rfl
  case homes =>
    intro before x earlier old agenda some
    obtain ⟨callback, tells⟩ := List.exists_mem_of_ne_nil _ some
    obtain ⟨call, member, tells⟩ := List.mem_filterMap.mp tells
    obtain ⟨data, ours⟩ := toldOf_some tells
    obtain ⟨hears, owes⟩ := reaches_hear member
    have traced := earlier.traced x.thread
    rw [agenda, hears] at traced
    obtain ⟨slot, known, worker⟩ := traced.1.worker (by simp [Job.carriesData, data])
    have here : callback ∈ x.machine.toDeliver slot := by
      refine List.mem_append_right _ (List.mem_filterMap.mpr ⟨call, ?_, data⟩)
      rw [worker, agenda, List.flatMap_cons, owes]
      exact List.mem_append_left _ member
    have home := earlier.accepted_home old known (earlier.delivers_accepted known here)
    rw [ours] at home
    exact ⟨slot, home, by rw [if_pos worker.symm]⟩
  case spent =>
    intro x slot spent agenda
    split
    · exact toldOf_none ((spent.quiet agenda).2 ‹_›).2.2
    · rfl
  case fresh =>
    intro before m slot earlier member none
    rw [← List.filterMap_flatMap, ← heardFrom]
    exact toldOf_none (earlier.unheard member none)
  rw [heardBy, turns]
  refine List.flatMap_congr fun slot _ => ?_
  rw [heardFrom, List.filterMap_flatMap]

def Steady (l : ListenerId) (n : Nat) (c : ConnectionHandle) (past : List Moment) : Prop :=
  ∀ before x after r, past = before ++ x :: after → x.job.gathers x.machine = some r →
    (∃ callback ∈ r.data, callback.connection = c) → (registered .data before).count l = n

theorem data_side {r : Round} (gathers : job.gathers m = some r) (some : r.data ≠ []) : r.side = .data := by
  have other : ∀ batch : List DeviceCallback, (batch.map Callback.device).filterMap Callback.data? = [] := fun batch => by
    rw [List.filterMap_map]
    exact List.filterMap_eq_nil_iff.mpr fun _ _ => rfl
  cases job with
  | deviceLane job =>
      cases job with
      | look =>
          simp only [Job.gathers] at gathers
          split at gathers
          · cases gathers
            exact absurd (other _) some
          · cases gathers
      | _ => cases gathers
  | dataLane job =>
      cases job with
      | snapshot =>
          cases gathers
          rfl
      | _ => cases gathers
  | _ => cases gathers

theorem toldOf_listeners (listeners : List ListenerId) (callback : DataCallback) (ours : callback.connection = c) :
    (listeners.map (·, Callback.data callback)).filterMap (toldOf l c) = List.replicate (listeners.count l) callback := by
  induction listeners with
  | nil => rfl
  | cons first rest ih =>
      rw [List.map_cons, List.filterMap_cons, ih]
      by_cases same : first = l
      · subst same
        simp [toldOf, Callback.data?, Option.filter, ours, List.replicate_succ]
      · simp [toldOf, same]

theorem toldOf_batch (batch : List Callback) (listeners : List ListenerId)
    (ours : ∀ callback ∈ batch.filterMap Callback.data?, callback.connection = c) :
    (batch.flatMap fun callback => listeners.map (·, callback)).filterMap (toldOf l c) =
      (batch.filterMap Callback.data?).flatMap (List.replicate (listeners.count l)) := by
  induction batch with
  | nil => rfl
  | cons first rest ih =>
      rw [List.flatMap_cons, List.filterMap_append]
      cases first with
      | data callback =>
          rw [toldOf_listeners listeners callback (ours callback (List.mem_cons_self ..)),
            ih fun other member => ours other (List.mem_cons_of_mem _ member)]
          rfl
      | device callback =>
          have silent : (listeners.map (·, Callback.device callback)).filterMap (toldOf l c) = [] := by
            refine List.filterMap_eq_nil_iff.mpr fun call member => ?_
            obtain ⟨_, _, rfl⟩ := List.mem_map.mp member
            simp [toldOf, Callback.data?]
          rw [silent, ih ours]
          rfl

theorem Run.lane_told {n : Nat} (run : Run config hooks past m) (managed : ∀ x ∈ past, x.managed)
    (member : slot ∈ epochsOf c past) (steady : Steady l n c past) :
    (takenFrom slot.lane past).flatMap (List.replicate n) = (heardFrom slot.worker past).filterMap (toldOf l c) ++
      ((m.agenda slot.worker).flatMap Job.owes).filterMap (toldOf l c) ++
      ((m.agenda slot.worker).flatMap Job.waits).flatMap (List.replicate n) := by
  have known := run.epochs_roster member
  obtain ⟨_, _, book⟩ := run.booked_roster known
  have each : ∀ r ∈ roundsOf slot.worker past, r.calls.filterMap (toldOf l c) = r.data.flatMap (List.replicate n) := by
    intro r gathered
    have ours : ∀ callback ∈ r.data, callback.connection = c := fun callback inside => by
      refine run.accepted_ours managed member callback ?_
      rw [book.balance, run.batched slot known]
      exact List.mem_append_left _ (List.mem_append_left _ (List.mem_append_left _ (List.mem_flatMap.mpr ⟨r, gathered, inside⟩)))
    rw [Round.calls, toldOf_batch r.batch r.listeners ours, ← Round.data]
    cases data : r.data with
    | nil => rfl
    | cons first rest =>
        obtain ⟨x, seen, here⟩ := List.mem_filterMap.mp gathered
        obtain ⟨before, after, split⟩ := List.append_of_mem seen
        split at here
        · have count := steady before x after r split here ⟨first, by simp [data], ours first (by simp [data])⟩
          have listeners := (gathers_audience here).trans
            ((run.before ⟨after, by rw [split, List.append_assoc]; rfl⟩).1.audience r.side)
          rw [data_side here (by simp [data])] at listeners
          rw [listeners, count]
        · cases here
  have called := congrArg (List.filterMap (toldOf l c)) (run.called slot.worker)
  rw [List.filterMap_flatMap, List.flatMap_congr each, List.filterMap_append] at called
  rw [run.batched slot known, List.flatMap_append, List.flatMap_assoc, called]

theorem flatMap_last {α β : Type} {l : List α} {f g : α → List β} (none : ∀ a ∈ l.dropLast, g a = []) :
    (l.flatMap fun a => f a ++ g a) = l.flatMap f ++ l.flatMap g := by
  rcases List.eq_nil_or_concat l with rfl | ⟨front, last, rfl⟩
  · rfl
  · rw [List.concat_eq_append, List.dropLast_concat] at none
    have idle : front.flatMap g = [] := List.flatMap_eq_nil_iff.mpr none
    have same : (front.flatMap fun a => f a ++ g a) = front.flatMap f :=
      List.flatMap_congr fun a member => by rw [none a member, List.append_nil]
    rw [List.concat_eq_append, List.flatMap_append, List.flatMap_append, List.flatMap_append, same, idle]
    simp only [List.flatMap_singleton, List.nil_append, List.append_assoc]

-- The calls about a connection that a listener has to expect, and the callbacks of the connection that
-- are not on their way to listeners yet. By the law of turns below at most one lane has any.
def owedTo (l : ListenerId) (c : ConnectionHandle) (past : List Moment) (m : Machine) : List DataCallback :=
  (epochsOf c past).flatMap fun slot => ((m.agenda slot.worker).flatMap Job.owes).filterMap (toldOf l c)

def Machine.waitingOn (m : Machine) (slot : Slot) : List DataCallback :=
  (m.agenda slot.worker).flatMap Job.waits ++ (m.hub.dataLanes.lane? slot.lane).elim [] (·.items)

def waitingFor (c : ConnectionHandle) (past : List Moment) (m : Machine) : List DataCallback :=
  (epochsOf c past).flatMap m.waitingOn

-- A connection in turns: at most one worker has callbacks of it to deliver, and a listener hears about it
-- in the order in which its lanes have accepted, lane after lane. Only what termination threw away is
-- left out.
structure InTurns (c : ConnectionHandle) (past : List Moment) (m : Machine) : Prop where
  single : ∀ a ∈ roster past, ∀ b ∈ roster past, (∃ callback ∈ m.toDeliver a, callback.connection = c) →
    (∃ callback ∈ m.toDeliver b, callback.connection = c) → a = b
  ordered : ∀ l n, Steady l n c past →
    (heardBy l c past ++ owedTo l c past m).Sublist ((acceptedFor c past).flatMap (List.replicate n))
  complete : (∀ slot ∈ epochsOf c past, thrownFrom slot.lane past = []) → ∀ l n, Steady l n c past →
    (acceptedFor c past).flatMap (List.replicate n) =
      heardBy l c past ++ owedTo l c past m ++ (waitingFor c past m).flatMap (List.replicate n)

theorem Machine.Spent.idle (spent : m.Spent slot) :
    ((m.agenda slot.worker).flatMap Job.owes).filterMap (toldOf l c) = [] ∧ m.waitingOn slot = [] := by
  have done := spent.done
  rw [Machine.toDeliver, List.append_eq_nil_iff, List.append_eq_nil_iff] at done
  obtain ⟨⟨items, pending⟩, owes⟩ := done
  refine ⟨toldOf_none owes, List.append_eq_nil_iff.mpr ⟨?_, items⟩⟩
  exact List.flatMap_eq_nil_iff.mpr fun job member => (pending_parts (List.flatMap_eq_nil_iff.mp pending job member)).2

theorem connection_in_turns (run : Run config hooks past m) (managed : ∀ x ∈ past, x.managed) (successive : Successive c past) :
    InTurns c past m := by
  have spent := run.spent_before successive
  have gathered : ∀ l : ListenerId, heardBy l c past ++ owedTo l c past m = (epochsOf c past).flatMap fun slot =>
      (heardFrom slot.worker past).filterMap (toldOf l c) ++ ((m.agenda slot.worker).flatMap Job.owes).filterMap (toldOf l c) := by
    intro l
    rw [run.heard_turns managed successive, flatMap_last fun slot member => (spent slot member).idle.1]
    rfl
  have spread : ∀ n, (acceptedFor c past).flatMap (List.replicate n) =
      (epochsOf c past).flatMap fun slot => (acceptedOn slot.lane past).flatMap (List.replicate n) := fun n => by
    rw [run.accepted_turns managed successive, List.flatMap_assoc]
  refine ⟨?_, fun l n steady => ?_, fun none l n steady => ?_⟩
  · intro a known b known' busy busy'
    have last : ∀ slot ∈ roster past, (∃ callback ∈ m.toDeliver slot, callback.connection = c) →
        (epochsOf c past).getLast? = some slot := by
      rintro slot known ⟨callback, here, rfl⟩
      have home := run.accepted_home managed known (run.delivers_accepted known here)
      rcases List.eq_nil_or_concat (epochsOf callback.connection past) with none | ⟨front, last, split⟩
      · rw [none] at home
        cases home
      · rw [List.concat_eq_append] at split
        rw [split] at home spent ⊢
        rw [List.dropLast_concat] at spent
        rcases List.mem_append.mp home with old | now
        · rw [(spent slot old).done] at here
          cases here
        · rw [List.getLast?_concat, List.mem_singleton.mp now]
    exact Option.some.inj ((last a known busy).symm.trans (last b known' busy'))
  · rw [gathered, spread]
    refine List.Sublist.flatMap_right _ fun slot member => List.IsPrefix.sublist ?_
    obtain ⟨_, _, book⟩ := run.booked_roster (run.epochs_roster member)
    rw [book.balance, List.flatMap_append, List.flatMap_append, run.lane_told managed member steady]
    simp only [List.append_assoc]
    exact (List.prefix_append_right_inj _).mpr (List.prefix_append _ _)
  · have waits : ∀ slot ∈ (epochsOf c past).dropLast, (m.waitingOn slot).flatMap (List.replicate n) = [] := fun slot member => by
      rw [(spent slot member).idle (l := l) (c := c) |>.2]
      rfl
    have split : ∀ slot ∈ epochsOf c past, (acceptedOn slot.lane past).flatMap (List.replicate n) =
        (heardFrom slot.worker past).filterMap (toldOf l c) ++ ((m.agenda slot.worker).flatMap Job.owes).filterMap (toldOf l c) ++
          (m.waitingOn slot).flatMap (List.replicate n) := by
      intro slot member
      obtain ⟨lane, known, book⟩ := run.booked_roster (run.epochs_roster member)
      have told := run.lane_told managed member steady
      rw [book.balance, none slot member, List.append_nil, List.flatMap_append, told, Machine.waitingOn, known, List.flatMap_append]
      simp only [List.append_assoc, Option.elim_some]
    rw [gathered, spread, List.flatMap_congr split, flatMap_last waits, waitingFor, List.flatMap_assoc]

-- A connection that is reported again, with a frame for each of its lanes.
def reportUp (turns worker : Nat) (done : List Moment × Machine) : List Moment × Machine :=
  act (.report ⟨1⟩ (.connected {} ⟨4⟩)) (rounds [(turns, 0), (2, worker)]) done

def reportDown (turns : List (Nat × Nat)) (done : List Moment × Machine) : List Moment × Machine :=
  act (.report ⟨1⟩ (.disconnected {} ⟨4⟩)) (rounds turns) done

def reportFrame (data : Payload) (turns : List (Nat × Nat)) (done : List Moment × Machine) : List Moment × Machine :=
  act (.report ⟨1⟩ (.received ⟨4⟩ data)) (rounds turns) done

def frameTaken : List Moment × Machine :=
  reportFrame [1] [(9, 0), (2, 1)] (reportUp 24 1 (solo quietConfig [] [.addDataListener (.fresh { name := "l" })]))

theorem reports_run {done : List Moment × Machine} (run : Run config hooks done.1 done.2) (turns : Nat) (lone : List (Nat × Nat))
    (data : Payload) (last : List (Nat × Nat)) (worker : Nat) :
    Run config hooks (reportFrame data last (reportUp turns worker (reportDown lone done))).1
      (reportFrame data last (reportUp turns worker (reportDown lone done))).2 :=
  act_run (act_run (act_run run _ _) _ _) _ _

theorem frameTaken_run : Run quietConfig [] frameTaken.1 frameTaken.2 := act_run (act_run (solo_run _ _ _) _ _) _ _

-- The worker of the first lane ends before the connection is reported again.
def reconnected : List Moment × Machine := reportFrame [2] [(9, 0), (8, 2)] (reportUp 25 2 (reportDown [(20, 0), (11, 1)] frameTaken))

theorem turns_of_reconnected : InTurns ⟨4⟩ reconnected.1 reconnected.2 ∧
    epochsOf ⟨4⟩ reconnected.1 = [⟨⟨0⟩, ⟨1⟩⟩, ⟨⟨1⟩, ⟨2⟩⟩] ∧ registered .data reconnected.1 = [⟨0⟩] ∧
    heardBy ⟨0⟩ ⟨4⟩ reconnected.1 = [.received ⟨4⟩ [1], .received ⟨4⟩ [2]] := by
  refine ⟨connection_in_turns (reports_run frameTaken_run _ _ _ _ _) ?_ ?_, ?_⟩ <;> decide +kernel

-- The worker of the first lane is still busy with its frame: the worker of the next one overtakes it.
def overtaken (last : List (Nat × Nat)) : List Moment × Machine :=
  reportFrame [2] ((9, 0) :: last) (reportUp 24 2 (reportDown [(20, 0)] frameTaken))

theorem reconnect_overtakes : Run quietConfig [] (overtaken []).1 (overtaken []).2 ∧
    (∀ x ∈ (overtaken [(8, 2), (8, 1)]).1, x.managed) ∧ roster (overtaken []).1 = [⟨⟨0⟩, ⟨1⟩⟩, ⟨⟨1⟩, ⟨2⟩⟩] ∧
    (overtaken []).2.hub.dataLanes.lanes.all (fun lane => !lane.exited) = true ∧
    .received ⟨4⟩ [1] ∈ (overtaken []).2.toDeliver ⟨⟨0⟩, ⟨1⟩⟩ ∧ .received ⟨4⟩ [2] ∈ (overtaken []).2.toDeliver ⟨⟨1⟩, ⟨2⟩⟩ ∧
    Run quietConfig [] (overtaken [(8, 2), (8, 1)]).1 (overtaken [(8, 2), (8, 1)]).2 ∧
    registered .data (overtaken [(8, 2), (8, 1)]).1 = [⟨0⟩] ∧
    acceptedFor ⟨4⟩ (overtaken [(8, 2), (8, 1)]).1 = [.received ⟨4⟩ [1], .received ⟨4⟩ [2]] ∧
    heardBy ⟨0⟩ ⟨4⟩ (overtaken [(8, 2), (8, 1)]).1 = [.received ⟨4⟩ [2], .received ⟨4⟩ [1]] := by
  refine ⟨reports_run frameTaken_run _ _ _ _ _, ?_, ?_, ?_, ?_, ?_, reports_run frameTaken_run _ _ _ _ _, ?_⟩ <;> decide +kernel

end TransportHub
