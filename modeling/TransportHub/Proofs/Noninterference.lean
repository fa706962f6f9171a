import TransportHub.Proofs.Procedures
/-!
Noninterference. A session of a dispatcher does to one connection what the reference makes of the operations on that
connection, on the listeners and on the whole: with the same results, and with the same calls of listeners by the
workers of its lanes. Two sessions that differ in operations on other connections only can therefore not be told apart
by what happens to this one.
-/

set_option autoImplicit false

namespace TransportHub

open DataLanes (Slot)

variable {config : Config} {past more : List Moment} {m m' : Machine} {t u w : ThreadId}
  {job : Job} {later : List Job} {slot : Slot} {id : LaneId} {c d : ConnectionHandle} {op : Op} {v : View} {x : Moment}
  {system : System}

def crewOf (c : ConnectionHandle) (past : List Moment) (m : Machine) : List ThreadId :=
  ((roster past).filter fun slot => (m.hub.dataLanes.lane? slot.lane).any fun lane => lane.connection = c).map (·.worker)

def callsFor (c : ConnectionHandle) (past : List Moment) (m : Machine) : List (ListenerId × Callback) :=
  past.flatMap fun x => if x.thread ∈ crewOf c past m then x.job.reaches else []

theorem mem_crewOf : w ∈ crewOf c past m ↔ ∃ slot ∈ roster past, slot.worker = w ∧ m.hub.serves slot.lane c := by
  simp only [crewOf, List.mem_map, List.mem_filter, Option.any_eq_true, decide_eq_true_eq, Hub.serves]
  constructor
  · rintro ⟨slot, ⟨member, serving⟩, rfl⟩
    exact ⟨slot, member, rfl, serving⟩
  · rintro ⟨slot, member, rfl, serving⟩
    exact ⟨slot, ⟨member, serving⟩, rfl⟩

theorem Goes.keeps {P : Machine → Prop} (step : ∀ {m m' t job later}, m.agenda t = job :: later → m.step? t = some m' → P m → P m')
    (goes : Goes m more m') (first : P m) :
    P m' ∧ ∀ x ∈ more, P x.machine := by
  induction goes with
  | start => exact ⟨first, fun x none => by cases none⟩
  | turn goes agenda went ih =>
      exact ⟨step agenda went ih.1, List.forall_mem_append.mpr ⟨ih.2, List.forall_mem_singleton.mpr ih.1⟩⟩

theorem serves_step (agenda : m.agenda t = job :: later) (went : m.step? t = some m') (serves : m.hub.serves id c) :
    m'.hub.serves id c := by
  rcases step_cases agenda went with ⟨_, rfl⟩ | ⟨_, _, rfl⟩
  · rcases hub_unwind m t later with hub | hub <;> rw [hub] <;> exact serves
  · exact serves_exec m t job serves

theorem threads_step {n : Nat} (agenda : m.agenda t = job :: later) (went : m.step? t = some m') (bound : n ≤ m.agendas.length) :
    n ≤ m'.agendas.length := by
  rcases step_cases agenda went with ⟨_, rfl⟩ | ⟨_, _, rfl⟩
  · rwa [agendas_unwind, List.length_set]
  · rw [length_agendas_carry]
    exact Nat.le_add_right_of_le bound

theorem ending_step (agenda : m.agenda t = job :: later) (went : m.step? t = some m') (ending : m.hub.terminating = true) :
    m'.hub.terminating = true := by
  rcases step_cases agenda went with ⟨_, rfl⟩ | ⟨_, _, rfl⟩
  · rwa [terminating_unwind]
  · exact terminating_exec m t job ending

theorem Ready.quiet (ready : Ready config past m) (w : ThreadId) :
    (m.agenda w).flatMap Job.owes = [] ∧ (m.agenda w).flatMap Job.waits = [] := by
  by_cases idle : m.agenda w = []
  · rw [idle]
    exact ⟨rfl, rfl⟩
  · have apart : w ≠ .caller := fun same => idle (same ▸ ready.idle)
    obtain ⟨slot, member, rfl⟩ := ready.staffed.staff w apart idle
    rcases ready.resting slot member with ended | ⟨looks, _⟩
    · exact absurd ended idle
    · rw [looks]
      exact ⟨rfl, rfl⟩

theorem Ready.drained (ready : Ready config past m) (id : LaneId) : acceptedOn id past = takenFrom id past ++ thrownFrom id past := by
  have run := ready.staffed.run
  have booked := run.booked id
  unfold Booked at booked
  cases known : m.hub.dataLanes.lane? id with
  | none =>
      rw [known] at booked
      rw [booked.accepted, booked.taken, booked.thrown]
      rfl
  | some lane =>
      rw [known] at booked
      obtain ⟨slot, member, rfl⟩ := run.rostered.every id (List.getElem?_eq_some_iff.mp known).1
      have empty : lane.items = [] := by
        rcases ready.resting slot member with ended | ⟨_, lane', known', parked⟩
        · refine booked.empty (Classical.byContradiction fun going => ?_)
          have looks := run.looking slot member lane known (Bool.eq_false_iff.mpr going)
          rw [ended] at looks
          cases looks
        · cases known.symm.trans known'
          exact (run.wakeups.lanesAsleep slot.lane lane known parked).1
      rw [booked.balance, empty, List.append_nil]

structure Passage (config : Config) (op : Op) (past : List Moment) (m : Machine) (more : List Moment) (m' : Machine) : Prop where
  before : Ready config past m
  goes : Goes (m.beginWith [.perform op]) more m'
  after : Ready config (past ++ more) m'

namespace Passage

variable (passage : Passage config op past m more m')
include passage

theorem serves (serving : m.hub.serves id d) : m'.hub.serves id d := (passage.goes.keeps serves_step serving).1

theorem grown : (∀ x ∈ more, m.agendas.length ≤ x.machine.agendas.length) := by
  refine (passage.goes.keeps threads_step ?_).2
  rw [agendas_beginWith, List.length_set]

theorem ending (ending : m.hub.terminating = true) : ∀ x ∈ more, x.machine.hub.terminating = true :=
  (passage.goes.keeps (P := fun m => m.hub.terminating = true) ending_step ending).2

theorem slots (member : slot ∈ roster (past ++ more)) : slot ∈ roster past ∨
    (m.agendas.length ≤ slot.worker.val ∧ m.hub.dataLanes.lane? slot.lane = none) := by
  by_cases old : slot ∈ roster past
  · exact .inl old
  · right
    rw [roster, List.filterMap_append] at member
    obtain ⟨x, inside, opens⟩ := List.mem_filterMap.mp ((List.mem_append.mp member).resolve_left old)
    obtain ⟨_, _, _, rfl⟩ := opens_started opens
    refine ⟨passage.grown x inside, ?_⟩
    cases known : m.hub.dataLanes.lane? ⟨x.machine.hub.dataLanes.lanes.length⟩ with
    | none => rfl
    | some lane =>
        obtain ⟨other, before, same⟩ := passage.before.staffed.run.rostered.every _ (List.getElem?_eq_some_iff.mp known).1
        have here : other ∈ roster (past ++ more) := by
          rw [roster, List.filterMap_append]
          exact List.mem_append_left _ before
        have one := passage.after.staffed.run.rostered.lane other here _ (by rw [roster, List.filterMap_append]; exact member) same
        exact absurd (one ▸ before) old

theorem crew (known : u.val < m.agendas.length) : u ∈ crewOf c (past ++ more) m' ↔ u ∈ crewOf c past m := by
  rw [mem_crewOf, mem_crewOf]
  constructor
  · rintro ⟨slot, member, rfl, serving⟩
    rcases passage.slots member with old | ⟨new, _⟩
    · obtain ⟨lane, there⟩ := lane_known (passage.before.staffed.run.rostered.known slot old).1
      have serves : m.hub.serves slot.lane lane.connection := ⟨lane, there, rfl⟩
      exact ⟨slot, old, rfl, serves_unique serving (passage.serves serves) ▸ serves⟩
    · exact absurd known (Nat.not_lt.mpr new)
  · rintro ⟨slot, member, rfl, serving⟩
    refine ⟨slot, ?_, rfl, passage.serves serving⟩
    rw [roster, List.filterMap_append]
    exact List.mem_append_left _ member

theorem batched (member : slot ∈ roster (past ++ more)) :
    takenFrom slot.lane more = (roundsOf slot.worker more).flatMap Round.data := by
  have after := passage.after.staffed.run.batched slot member
  rw [(passage.after.quiet slot.worker).2, List.append_nil, takenFrom, List.flatMap_append, roundsOf_append,
    List.flatMap_append] at after
  rcases passage.slots member with old | ⟨new, unknown⟩
  · have before := passage.before.staffed.run.batched slot old
    rw [(passage.before.quiet slot.worker).2, List.append_nil] at before
    exact List.append_cancel_left ((congrArg (· ++ takenFrom slot.lane more) before.symm).trans after)
  · have rounds : roundsOf slot.worker past = [] := List.filterMap_eq_nil_iff.mpr fun x seen => if_neg fun mine => by
      have known := passage.before.staffed.run.threads_known x seen
      rw [mine] at known
      exact absurd known (Nat.not_lt.mpr new)
    have booked := passage.before.staffed.run.booked slot.lane
    rw [Booked, unknown] at booked
    have none : past.flatMap (fun x => x.job.taken x.machine slot.lane) = [] := booked.taken
    rw [rounds, none] at after
    exact after

theorem called (w : ThreadId) : (roundsOf w more).flatMap Round.calls = heardFrom w more := by
  have before := passage.before.staffed.run.called w
  have after := passage.after.staffed.run.called w
  rw [(passage.before.quiet w).1, List.append_nil] at before
  rw [(passage.after.quiet w).1, List.append_nil, roundsOf_append, heardFrom_append, List.flatMap_append, before] at after
  exact List.append_cancel_left after

theorem taken_nothing (nothing : acceptedOn id more = []) : takenFrom id more = [] := by
  have before := passage.before.drained id
  have after := passage.after.drained id
  rw [acceptedOn, List.flatMap_append, takenFrom, List.flatMap_append, thrownFrom, List.flatMap_append] at after
  rw [show past.flatMap (fun x => x.job.accepted x.machine id) = _ from before,
    show more.flatMap (fun x => x.job.accepted x.machine id) = [] from nothing] at after
  have lengths := congrArg List.length after
  simp only [List.length_append, List.length_nil, takenFrom, thrownFrom] at lengths ⊢
  exact List.eq_nil_of_length_eq_zero (by omega)

end Passage

theorem queued_some (queued : v.queued c op ≠ []) :
    ∃ callback, op = .dataLanes (.enqueue c callback) ∧ v.queued c op = [callback] := by
  unfold View.queued at queued ⊢
  split at queued
  · rename_i d callback
    split at queued
    · rename_i both
      exact ⟨callback, by rw [both.1], if_pos both⟩
    · exact absurd rfl queued
  · exact absurd rfl queued

theorem queued_listeners (queued : v.queued c op ≠ []) : (aim config c v op).listeners = v.listeners := by
  obtain ⟨callback, rfl, _⟩ := queued_some queued
  simp only [aim, View.after]
  repeat' split
  all_goals rfl

theorem Came.unstopped (came : Came config c v op past more m) (queued : v.queued c op ≠ [])
    (accepted : acceptedOn id more = v.queued c op) :
    ¬ wasStopped id (past ++ more) := by
  have run := came.ready.staffed.run
  obtain ⟨callback, rfl, _⟩ := queued_some queued
  rintro ⟨y, seen, stops⟩
  rcases List.mem_append.mp seen with before | since
  · obtain ⟨x, inside, accepts⟩ : ∃ x ∈ more, x.job.accepted x.machine id ≠ [] := Classical.byContradiction fun none =>
      queued (accepted.symm.trans (List.flatMap_eq_nil_iff.mpr fun x inside =>
        Classical.byContradiction fun accepts => none ⟨x, inside, accepts⟩))
    obtain ⟨front, back, rfl⟩ := List.append_of_mem inside
    have start : (past ++ front) ++ [x] <+: past ++ (front ++ x :: back) := ⟨back, by simp⟩
    obtain ⟨d, pushed, pushes⟩ : ∃ d pushed, x.job = .dataLane (.push id d pushed) := Classical.byContradiction fun apart =>
      accepts (tries_apart x.machine fun d pushed same => apart ⟨d, pushed, same⟩).2
    have booked := (run.before start).1.booked id
    rw [pushes] at accepts
    unfold Booked at booked
    cases known : x.machine.hub.dataLanes.lane? id with
    | none => simp [Job.accepted, known] at accepts
    | some lane =>
        rw [known] at booked
        have stopping := booked.stopped.mpr ⟨y, List.mem_append_left _ before, stops⟩
        simp [Job.accepted, known, DataLane.accepts, stopping] at accepts
  · obtain ⟨d, none⟩ := came.tally.stops y since id stops
    cases none

namespace Passage

theorem taken (passage : Passage config op past m more m') (came : Came config c (m.view c) op past more m')
    (accepted : acceptedOn id more = (m.view c).queued c op) :
    takenFrom id more = if m.hub.terminating then [] else (m.view c).queued c op := by
  by_cases nothing : (m.view c).queued c op = []
  · rw [passage.taken_nothing (accepted.trans nothing), nothing, ite_self]
  · have unstopped := came.unstopped nothing accepted
    have run := came.ready.staffed.run
    cases ending : m.hub.terminating with
    | true =>
        refine List.flatMap_eq_nil_iff.mpr fun x inside => Classical.byContradiction fun takes => ?_
        obtain ⟨front, back, rfl⟩ := List.append_of_mem inside
        have start : (past ++ front) ++ [x] <+: past ++ (front ++ x :: back) := ⟨back, by simp⟩
        have booked := (run.before start).1.booked id
        have looks : x.job = .dataLane (.look id) := Classical.byContradiction fun apart => takes (taken_apart apart)
        rw [looks] at takes
        unfold Booked at booked
        cases known : x.machine.hub.dataLanes.lane? id with
        | none => simp [Job.taken, known] at takes
        | some lane =>
            rw [known] at booked
            have going : ¬ lane.stopping = true := fun stopping => by
              obtain ⟨y, seen, stops⟩ := booked.stopped.mp stopping
              exact unstopped ⟨y, by simpa using (List.mem_append.mp seen).imp_right fun inside => .inl inside, stops⟩
            have leaves : lane.look true = (.leave lane.items.length, { lane with items := [], exited := true }) := by
              simp [DataLane.look, going]
            rw [Job.taken, if_pos rfl, known, Option.elim_some, passage.ending ending x inside, leaves] at takes
            exact takes rfl
    | false =>
        have still : m'.hub.terminating = false := by
          obtain ⟨callback, rfl, _⟩ := queued_some nothing
          have after : m'.hub.terminating = (aim config c (m.view c) (.dataLanes (.enqueue c callback))).terminating :=
            congrArg View.terminating came.view
          rw [after, aim]
          simp only [View.after]
          split
          · split <;> exact ending
          · exact ending
        have uncut : ¬ wasCut id (past ++ more) := by
          rintro ⟨x, seen, cuts⟩
          exact Bool.false_ne_true (still.symm.trans (run.terminating x seen (cuts_ending cuts)))
        have whole := passage.before.drained id
        have after := passage.after.drained id
        have thrown : thrownFrom id (past ++ more) = [] :=
          List.flatMap_eq_nil_iff.mpr fun x seen => if_neg fun cuts => uncut ⟨x, seen, cuts⟩
        have earlier : thrownFrom id past = [] := List.flatMap_eq_nil_iff.mpr fun x seen =>
          List.flatMap_eq_nil_iff.mp thrown x (List.mem_append_left _ seen)
        rw [earlier, List.append_nil] at whole
        rw [thrown, List.append_nil, acceptedOn, takenFrom, List.flatMap_append, List.flatMap_append] at after
        have rest := List.append_cancel_left ((congrArg (· ++ acceptedOn id more) whole.symm).trans after)
        rw [if_neg Bool.false_ne_true, ← accepted]
        exact rest.symm

end Passage

theorem calls_single {crew : List ThreadId} (member : w ∈ crew) (others : ∀ u ∈ crew, u ≠ w → heardFrom u more = []) :
    (more.flatMap fun x => if x.thread ∈ crew then x.job.reaches else []) = heardFrom w more := by
  refine List.flatMap_congr fun x inside => ?_
  by_cases mine : x.thread = w
  · rw [if_pos (mine ▸ member), if_pos mine]
  · rw [if_neg mine]
    split
    · rename_i crewed
      have none := List.flatMap_eq_nil_iff.mp (others x.thread crewed mine) x inside
      rwa [if_pos rfl] at none
    · rfl

namespace Passage

variable (passage : Passage config op past m more m') (came : Came config c (m.view c) op past more m')
include passage came

theorem heard (member : slot ∈ roster (past ++ more)) : heardFrom slot.worker more =
    (takenFrom slot.lane more).flatMap fun callback => (aim config c (m.view c) op).listeners.snapshot.map (·, .data callback) := by
  have each : ∀ r ∈ roundsOf slot.worker more, r.calls =
      r.data.flatMap fun callback => (aim config c (m.view c) op).listeners.snapshot.map (·, .data callback) := fun r gathered => by
    obtain ⟨x, inside, here⟩ := List.mem_filterMap.mp gathered
    split at here
    · obtain ⟨listeners, batch⟩ := came.tally.rounds x inside r here
      rw [Round.calls, listeners, batch, List.flatMap_map]
    · cases here
  rw [← passage.called, List.flatMap_congr each, passage.batched member, List.flatMap_assoc]

theorem heard_nothing (member : slot ∈ roster (past ++ more)) (nothing : acceptedOn slot.lane more = []) :
    heardFrom slot.worker more = [] := by
  rw [passage.heard came member, passage.taken_nothing nothing]
  rfl

theorem heard_queued (member : slot ∈ roster (past ++ more)) (accepted : acceptedOn slot.lane more = (m.view c).queued c op) :
    heardFrom slot.worker more = (m.view c).calls c op := by
  rw [passage.heard came member, passage.taken came accepted, View.calls]
  have same : (m.view c).terminating = m.hub.terminating := rfl
  rw [same]
  split
  · rfl
  · by_cases nothing : (m.view c).queued c op = []
    · rw [nothing]
      rfl
    · rw [queued_listeners nothing]

theorem calls : callsFor c (past ++ more) m' = callsFor c past m ++ (m.view c).calls c op := by
  have run := came.ready.staffed.run
  have earlier : (past.flatMap fun x => if x.thread ∈ crewOf c (past ++ more) m' then x.job.reaches else []) = callsFor c past m :=
    List.flatMap_congr fun x seen => by
      simp only [passage.crew (passage.before.staffed.run.threads_known x seen)]
  have now : (more.flatMap fun x => if x.thread ∈ crewOf c (past ++ more) m' then x.job.reaches else []) = (m.view c).calls c op := by
    rcases came.tally.accepted with ⟨idle, nothing⟩ | ⟨home, serving, here, elsewhere⟩
    · have silent : ∀ u ∈ crewOf c (past ++ more) m', heardFrom u more = [] := fun u crewed => by
        obtain ⟨slot, member, rfl, serves⟩ := mem_crewOf.mp crewed
        refine passage.heard_nothing came member ((nothing slot.lane).resolve_right ?_)
        rintro ⟨d, apart, other⟩
        exact apart (serves_unique other serves)
      have calls : (m.view c).calls c op = [] := by
        rw [View.calls, idle]
        exact ite_self []
      rw [calls]
      refine List.flatMap_eq_nil_iff.mpr fun x inside => ?_
      split
      · rename_i crewed
        have none := List.flatMap_eq_nil_iff.mp (silent x.thread crewed) x inside
        rwa [if_pos rfl] at none
      · rfl
    · obtain ⟨lane, known, ours⟩ := serving
      obtain ⟨slot, member, rfl⟩ := run.rostered.every home (List.getElem?_eq_some_iff.mp known).1
      rw [← passage.heard_queued came member here]
      refine calls_single (mem_crewOf.mpr ⟨slot, member, rfl, lane, known, ours⟩) fun u crewed apart => ?_
      obtain ⟨other, inside, rfl, _⟩ := mem_crewOf.mp crewed
      refine passage.heard_nothing came inside (elsewhere other.lane fun same => apart ?_)
      rw [run.rostered.lane other inside slot member same]
  rw [callsFor, List.flatMap_append, earlier, now]

end Passage

structure Account where
  view : View := {}
  results : List (Op × Reply) := []
  calls : List (ListenerId × Callback) := []

def Account.next (config : Config) (c : ConnectionHandle) (a : Account) (op : Op) : Account where
  view := (a.view.after config c op).2
  results := a.results ++ [(op, (a.view.after config c op).1)]
  calls := a.calls ++ a.view.calls c op

def alone (config : Config) (refusals : Nat → Option String) (c : ConnectionHandle) (ops : List Op) : Account :=
  ops.foldl (Account.next config c) { view := { refusals } }

def accountOf (c : ConnectionHandle) (done : List (Op × Reply)) (past : List Moment) (m : Machine) : Account where
  view := m.view c
  results := done.filter fun call => call.1.about c
  calls := callsFor c past m

theorem Goes.passive (goes : Goes m more m') : m'.cast.passive → m.cast.passive := by
  induction goes with
  | start => exact id
  | turn _ agenda went ih => exact fun passive => ih (passive_step agenda went passive)

theorem accountOf_begins (empty : roster past = []) : accountOf c [] past m = { view := m.view c } := by
  have calls : callsFor c past m = [] := by
    simp only [callsFor, crewOf, empty, List.filter_nil, List.map_nil, List.not_mem_nil, if_false]
    exact List.flatMap_eq_nil_iff.mpr fun _ _ => rfl
  simp only [accountOf, calls, List.filter_nil]

theorem Passage.accounts {done : List (Op × Reply)} (passage : Passage config op past m more m')
    (came : Came config c (m.view c) op past more m') :
    accountOf c (done ++ [(op, m'.result)]) (past ++ more) m' =
      if op.about c then (accountOf c done past m).next config c op else accountOf c done past m := by
  simp only [accountOf, List.filter_append, came.view, passage.calls came, aim]
  cases about : op.about c with
  | true =>
      have told := came.told about
      simp [about, Account.next, told]
  | false =>
      have calls : (m.view c).calls c op = [] := by
        have idle : (m.view c).queued c op = [] := Classical.byContradiction fun queued => by
          obtain ⟨callback, rfl, _⟩ := queued_some queued
          simp [Op.about] at about
        rw [View.calls, idle]
        exact ite_self []
      simp [about, calls]

theorem Dispatched.accounts {done : List (Op × Reply)} {system : System} (dispatched : Dispatched config system done past m) :
    m.cast.passive → Ready config past m ∧ ∀ c, accountOf c done past m =
      alone config (system.refusal (config.dataThread c)) c ((done.map (·.1)).filter (·.about c)) := by
  induction dispatched with
  | assemble goes settled =>
      intro _
      obtain ⟨ready, view, empty⟩ := assembled_ready goes settled
      refine ⟨ready, fun c => ?_⟩
      rw [accountOf_begins empty, view]
      rfl
  | @call done past more m m' op dispatched kind goes settled ih =>
      intro passive
      obtain ⟨ready, accounts⟩ := ih (goes.passive passive)
      have came := fun c => ready.came kind c goes settled passive
      have passage : Passage config op past m more m' := ⟨ready, goes, (came ⟨0⟩).ready⟩
      refine ⟨passage.after, fun c => ?_⟩
      rw [passage.accounts (came c), accounts c, List.map_append, List.filter_append, alone, alone, List.foldl_append]
      cases about : op.about c <;> simp [about]

theorem sessions_indistinguishable (c : ConnectionHandle) {done done' : List (Op × Reply)} {past past' : List Moment}
    {m m' : Machine} {system system' : System} (dispatched : Dispatched config system done past m)
    (dispatched' : Dispatched config system' done' past' m')
    (alike : system.refusal (config.dataThread c) = system'.refusal (config.dataThread c)) (passive : m.cast.passive)
    (passive' : m'.cast.passive) (same : (done.map (·.1)).filter (·.about c) = (done'.map (·.1)).filter (·.about c)) :
    (m.agenda .caller = [] ∧ m'.agenda .caller = []) ∧
      done.filter (fun call => call.1.about c) = done'.filter (fun call => call.1.about c) ∧
        callsFor c past m = callsFor c past' m' := by
  obtain ⟨ready, accounts⟩ := dispatched.accounts passive
  obtain ⟨ready', accounts'⟩ := dispatched'.accounts passive'
  have one : accountOf c done past m = accountOf c done' past' m' := by rw [accounts c, accounts' c, same, alike]
  exact ⟨⟨ready.idle, ready'.idle⟩, congrArg Account.results one, congrArg Account.calls one⟩

-- A session, latest operation first, each with the turns that the threads take.
def dispatching (config : Config) (system : System) : List (Op × List (Nat × Nat)) → List (Op × Reply) × List Moment × Machine
  | [] => ([], assembled config system)
  | (op, turns) :: before =>
      let (done, past, m) := dispatching config system before
      let played := (m.beginWith [.perform op]).play (rounds turns)
      (done ++ [(op, played.2.result)], past ++ played.1, played.2)

theorem dispatching_ops (acts : List (Op × List (Nat × Nat))) :
    (dispatching config system acts).1.map (·.1) = (acts.map (·.1)).reverse := by
  induction acts with
  | nil => rfl
  | cons act before ih => simp [dispatching, ih]

def dispatchable (config : Config) (system : System) : List (Op × List (Nat × Nat)) → Bool
  | [] => true
  | (op, turns) :: before => dispatchable config system before && op.dispatcher &&
      let m := (dispatching config system ((op, turns) :: before)).2.2
      (List.range m.agendas.length).all fun k => (m.step? ⟨k⟩).isNone

theorem dispatching_dispatched (acts : List (Op × List (Nat × Nat))) (able : dispatchable config system acts = true) :
    Dispatched config system (dispatching config system acts).1 (dispatching config system acts).2.1
      (dispatching config system acts).2.2 := by
  have settles : ∀ m : Machine, (List.range m.agendas.length).all (fun k => (m.step? ⟨k⟩).isNone) = true → m.settled := fun m stuck =>
    settled_all fun k known => List.all_eq_true.mp stuck k (List.mem_range.mpr known)
  induction acts with
  | nil =>
      refine .assemble (Goes.start.turn (t := .caller) rfl rfl) (settles _ rfl)
  | cons act before ih =>
      obtain ⟨op, turns⟩ := act
      rw [dispatchable, Bool.and_eq_true, Bool.and_eq_true] at able
      exact .call op (ih able.1.1) able.1.2 (Goes.start.play (rounds turns)) (settles _ able.2)

def frame (c : ConnectionHandle) (byte : UInt8) : Op := .dataLanes (.enqueue c (.received c [byte]))

def sharedSystem : System where
  refusal name n := if name = quietConfig.dataThread ⟨7⟩ ∧ n = 1 then some "no thread left" else none

def sharedSession : List (Op × List (Nat × Nat)) :=
  [(.dataLanes (.shutdown true), [(7, 0)]), (frame ⟨4⟩ 6, [(7, 0)]), (frame ⟨4⟩ 5, [(6, 0), (4, 2)]), (frame ⟨7⟩ 4, [(6, 0)]),
    (.terminate, [(2, 0)]), (frame ⟨4⟩ 3, [(6, 0), (10, 2)]), (.dataLanes (.start ⟨7⟩), [(10, 0)]),
    (.dataLanes (.stop ⟨7⟩), [(9, 0), (2, 1)]), (frame ⟨7⟩ 2, [(6, 0), (10, 1)]), (frame ⟨4⟩ 1, [(6, 0), (10, 2)]),
    (.dataLanes (.start ⟨4⟩), [(12, 0), (2, 2)]), (.dataLanes (.start ⟨7⟩), [(12, 0), (2, 1)]),
    (.addDataListener (.fresh { name := "l" }), [(2, 0)])]

def loneSession : List (Op × List (Nat × Nat)) :=
  [(.dataLanes (.shutdown true), [(5, 0)]), (frame ⟨4⟩ 6, [(7, 0)]), (frame ⟨4⟩ 5, [(6, 0), (4, 1)]), (.terminate, [(2, 0)]),
    (frame ⟨4⟩ 3, [(6, 0), (10, 1)]), (frame ⟨4⟩ 1, [(6, 0), (10, 1)]), (.dataLanes (.start ⟨4⟩), [(12, 0), (2, 1)]),
    (.addDataListener (.fresh { name := "l" }), [(2, 0)])]

def sharedOutcome : List (Op × Reply) × List Moment × Machine := dispatching quietConfig sharedSystem sharedSession

def loneOutcome : List (Op × Reply) × List Moment × Machine := dispatching quietConfig (.usual quietConfig) loneSession

theorem frames_undisturbed : (Dispatched quietConfig sharedSystem sharedOutcome.1 sharedOutcome.2.1 sharedOutcome.2.2 ∧
      Dispatched quietConfig (.usual quietConfig) loneOutcome.1 loneOutcome.2.1 loneOutcome.2.2) ∧
    (sharedOutcome.2.2.cast.passive ∧ loneOutcome.2.2.cast.passive) ∧ (sharedOutcome.1.length = 13 ∧ loneOutcome.1.length = 8) ∧
    (sharedOutcome.1.map (·.1)).filter (·.about ⟨4⟩) = (loneOutcome.1.map (·.1)).filter (·.about ⟨4⟩) ∧
    sharedOutcome.1.filter (fun call => call.1.about ⟨4⟩) = loneOutcome.1.filter (fun call => call.1.about ⟨4⟩) ∧
    callsFor ⟨4⟩ sharedOutcome.2.1 sharedOutcome.2.2 = callsFor ⟨4⟩ loneOutcome.2.1 loneOutcome.2.2 ∧
    callsFor ⟨4⟩ loneOutcome.2.1 loneOutcome.2.2 = [(⟨0⟩, .data (.received ⟨4⟩ [1])), (⟨0⟩, .data (.received ⟨4⟩ [3]))] := by
  have shared : Dispatched quietConfig sharedSystem _ _ _ := dispatching_dispatched sharedSession (by decide +kernel)
  have lone : Dispatched quietConfig (.usual quietConfig) _ _ _ := dispatching_dispatched loneSession (by decide +kernel)
  have passive : sharedOutcome.2.2.cast.passive := by decide +kernel
  have passive' : loneOutcome.2.2.cast.passive := by decide +kernel
  have same : (sharedOutcome.1.map (·.1)).filter (·.about ⟨4⟩) = (loneOutcome.1.map (·.1)).filter (·.about ⟨4⟩) := by
    rw [sharedOutcome, loneOutcome, dispatching_ops, dispatching_ops]
    rfl
  have alike : sharedSystem.refusal (quietConfig.dataThread ⟨4⟩) = (System.usual quietConfig).refusal (quietConfig.dataThread ⟨4⟩) :=
    funext fun n => by
      have other : quietConfig.dataThread ⟨4⟩ ≠ quietConfig.dataThread ⟨7⟩ := by decide +kernel
      simp only [sharedSystem, other, false_and, if_false]
      rfl
  obtain ⟨-, results, calls⟩ := sessions_indistinguishable ⟨4⟩ shared lone alike passive passive' same
  exact ⟨⟨shared, lone⟩, ⟨passive, passive'⟩, ⟨by decide +kernel, by decide +kernel⟩, same, results, calls, by decide +kernel⟩

end TransportHub
