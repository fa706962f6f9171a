import TransportHub.Proofs.Balance
/-!
Deliveries of the device lane, end to end: what was queued is what the first worker of the lane began to
hand over, what it has taken and not begun with, what was thrown away, and what waits, in this order.
-/

set_option autoImplicit false

namespace TransportHub

variable {config : Config} {hooks : List Hook} {past : List Moment} {m : Machine} {t u w : ThreadId}
  {job : Job} {later : List Job} {x : Moment}

def Callback.device? : Callback → Option DeviceCallback
  | .device callback => some callback
  | .data _ => none

def Job.queues : Job → List DeviceCallback
  | .deviceLane (.push callback) => [callback]
  | _ => []

def Job.tells : Job → List DeviceCallback
  | .participant (.deliver d) => if d.called = 0 then d.callback.device?.toList else []
  | _ => []

def Job.throwsAway (m : Machine) : Job → List DeviceCallback
  | .deviceLane .look => if m.hub.terminating then m.hub.deviceLane.queue else []
  | _ => []

def queuedDevice (past : List Moment) : List DeviceCallback := past.flatMap (·.job.queues)

def toldDevice (past : List Moment) : List DeviceCallback := past.flatMap (·.job.tells)

def thrownDevice (past : List Moment) : List DeviceCallback := past.flatMap fun x => x.job.throwsAway x.machine

def Machine.toTell (m : Machine) (w : ThreadId) : List DeviceCallback := (m.agenda w).flatMap Job.tells

theorem tells_called {d : Delivery} (called : 0 < d.called) : (Job.participant (.deliver d)).tells = [] :=
  if_neg (Nat.ne_of_gt called)

theorem tells_undelivered (job : Job) : job.tells.length ≤ undelivered job := by
  cases job with
  | participant job =>
      cases job with
      | deliver d =>
          simp only [Job.tells, undelivered]
          split
          · cases d.callback <;> simp [Callback.device?]
          · exact Nat.le_refl 0
      | _ => exact Nat.zero_le _
  | _ => exact Nat.zero_le _

theorem tells_crew (here : job.tells ≠ []) : job.crew = true := by
  refine undelivered_crew fun none => here (List.length_eq_zero_iff.mp ?_)
  have bound := tells_undelivered job
  omega

theorem untold {agenda : List Job} (none : weight undelivered agenda = 0) : agenda.flatMap Job.tells = [] := by
  refine List.flatMap_eq_nil_iff.mpr fun job member => List.length_eq_zero_iff.mp ?_
  have bound := tells_undelivered job
  have here := weight_mem (f := undelivered) member
  omega

theorem fresh_untold {agenda : List Job} (fresh : Fresh config u agenda) : agenda.flatMap Job.tells = [] :=
  untold (inner_undelivered.fresh config u agenda fresh)

theorem tells_exec (m : Machine) (t : ThreadId) (job : Job) (fair : job.fair) (apart : job ≠ .deviceLane .look) :
    (job.exec m t).2.flatMap Job.tells = [] := by
  refine List.flatMap_eq_nil_iff.mpr fun j member => Classical.byContradiction fun here => ?_
  have leads := leads_exec m t job j member
  cases j with
  | participant j =>
      cases j with
      | deliver d =>
          rcases deliver_origin leads with rfl | ⟨c, callback, listeners, rfl⟩ | ⟨other, rfl⟩
          · exact apart rfl
          · simp only [Job.exec, DataLaneJob.exec, DataLaneJob.deliverOne, Job.deliver] at member
            have data : d.callback = .data callback := by
              split at member <;> simp [Job.logDataLane] at member <;> rw [member]
            simp [Job.tells, data, Callback.device?] at here
          · simp only [Job.exec, ParticipantJob.exec, List.mem_singleton, Job.participant.injEq,
              ParticipantJob.deliver.injEq] at member
            subst member
            exact here (tells_called (Nat.lt_of_le_of_lt (Nat.zero_le _) fair.1))
      | _ => exact here rfl
  | _ => exact here rfl

theorem tells_look (m : Machine) (t : ThreadId) : (Job.exec m t (.deviceLane .look)).2.flatMap Job.tells =
    if m.hub.terminating then [] else m.hub.deviceLane.queue := by
  simp only [Job.exec, DeviceLaneJob.exec, DeviceLaneJob.lookAtQueue]
  rcases DeviceLane.look_cases m.hub.terminating m.hub.deviceLane with
    ⟨ending, seen⟩ | ⟨running, empty, seen⟩ | ⟨running, _, seen⟩ <;> rw [seen] <;> dsimp only
  · rw [ending]
    split <;> rfl
  · rw [running, empty]
    rfl
  · have each : ∀ listeners, (m.hub.deviceLane.queue.map fun callback =>
        Job.deliver Log.deviceLaneName (.device callback) listeners).flatMap Job.tells = m.hub.deviceLane.queue := by
      intro listeners
      rw [List.flatMap_map]
      exact List.flatMap_singleton' _
    rw [running, List.flatMap_append, List.flatMap_cons, each]
    exact List.append_nil _

def Job.windsUp : Job → Bool
  | .registry job => (job matches .withdraw _ .shutdown)
  | .deviceLane job => (job matches .join)
  | .hub job => (job matches .stopAdapters)
  | _ => false

theorem performed_windsUp (m : Machine) (t : ThreadId) {op : Op} {j : Job} (member : j ∈ (Job.exec m t (.perform op)).2)
    (here : j.windsUp = true) : (Job.exec m t (.perform op)).1.hub.terminating = true := by
  have leads := leads_exec m t (.perform op) j member
  cases j with
  | deviceLane j =>
      cases j with
      | join =>
          cases op with
          | deviceLane op =>
              simp only [Job.exec, Machine.perform] at member ⊢
              split at member
              · cases op with
                | shutdown => simp [*, Machine.performOwned, DeviceLaneOp.exec, Machine.endHolds]
                | _ => simp [Machine.performOwned, DeviceLaneOp.exec, Plan.startDeviceLane, Plan.enqueueDevice] at member
              · simp at member
          | _ => cases leads
      | _ => cases here
  | registry j =>
      cases j with
      | withdraw id errand =>
          cases op with
          | registry op =>
              simp only [Job.exec, Machine.perform] at member
              split at member
              · cases op <;> simp [Machine.performOwned, RegistryOp.exec, Plan.withdraw, Plan.replace] at member
                rw [member.2] at here
                cases here
              · simp at member
          | removeAdapter =>
              simp only [Job.exec, Machine.perform] at member
              split at member
              · simp [Machine.performOwned, Plan.removeAdapter, Plan.withdraw] at member
                rw [member.2] at here
                cases here
              · simp at member
          | _ => cases leads
      | _ => cases here
  | hub j => cases j <;> first | cases leads | cases here
  | _ => cases here

theorem windsUp_source {j : Job} (leads : job.leads j = true) (here : j.windsUp = true) :
    job = .hub .stopAdapters ∨ job = .hub .raiseTermination ∨ ∃ op, job = .perform op := by
  cases j with
  | registry j | deviceLane j | hub j =>
      cases j <;> first
        | (cases here; done)
        | (dsimp only [Job.leads] at leads
           split at leads <;> first
             | exact .inl rfl
             | exact .inr (.inl rfl)
             | exact .inr (.inr ⟨_, rfl⟩)
             | cases leads)
  | _ => cases here

theorem windsUp_next (m : Machine) (t : ThreadId) (job : Job) {j : Job} (member : j ∈ (job.exec m t).2)
    (here : j.windsUp = true) :
    job = .hub .stopAdapters ∨ (job.exec m t).1.hub.terminating = true := by
  rcases windsUp_source (leads_exec m t job j member) here with rfl | rfl | ⟨op, rfl⟩
  · exact .inl rfl
  · exact .inr (Once.raised m t).1
  · exact .inr (performed_windsUp m t member here)

theorem Run.windsUp_ending (run : Run config hooks past m) (u : ThreadId) :
    ∀ job ∈ m.agenda u, job.windsUp = true → m.hub.terminating = true := by
  have fresh : ∀ {u agenda}, Fresh config u agenda → ∀ job ∈ agenda, job.windsUp = false := fun fresh =>
    fresh.all (fun _ => rfl) rfl (fun _ => rfl) (fun _ _ => rfl) rfl fun _ => rfl
  have each := (Run.sustain (G := fun _ => True) (I := fun _ _ => True)
    (P := fun _ h _ job _ => job.windsUp = true → h.terminating = true)
    trivial ?fresh ?carry ?panic ?caught run fun _ _ => trivial).2 u
  · intro job member
    obtain ⟨_, _, _, here⟩ := each_mem each member
    exact here
  case fresh =>
    have none : ∀ {u agenda} (h : Hub), Fresh config u agenda →
        Each (fun job _ => job.windsUp = true → h.terminating = true) agenda :=
      fun h begins => each_of_forall fun job member _ here => by
        rw [fresh begins job member] at here
        cases here
    exact fun _ h => ⟨none h .construction, none h .assembly, fun u op => none h (.operation u op)⟩
  case carry =>
    intro past m t job later run _ each agenda _ _ _
    have first := each t
    rw [agenda] at first
    have still : m.hub.terminating = true → (job.exec m t).1.hub.terminating = true := terminating_exec m t job
    refine ⟨trivial, fun _ _ _ before here => still (before here), each_of_forall fun j member _ here => ?_, ?_⟩
    · rcases windsUp_next m t job member here with rfl | ending
      · exact still (first.1 rfl)
      · exact ending
    · intro u agenda _ started recruit
      refine each_of_forall fun j member _ here => ?_
      rw [fresh (fresh_recruits started (List.mem_of_getElem? recruit)) j member] at here
      cases here
  case panic =>
    intro past m t later h _ _ _ _ hub
    exact ⟨trivial, fun _ _ _ before here => by rcases hub with rfl | rfl <;> exact before here⟩
  case caught => exact fun _ _ u d rest each => ⟨fun none => (by cases none), fun none => (by cases none), each.2⟩

theorem deviceCrew_snoc : deviceCrew (past ++ [x]) = deviceCrew past ++ x.mans.toList := by
  unfold deviceCrew
  rw [List.filterMap_append]
  cases mans : x.mans <;> simp [mans]

theorem mans_apart (apart : x.job ≠ .deviceLane .spawn) : x.mans = none := by
  cases mans : x.mans with
  | none => rfl
  | some w => exact absurd (mans_started mans).1 apart

theorem Run.crew_worker (run : Run config hooks past m) :
    m.hub.terminating = false → deviceCrew past = m.hub.deviceLane.worker.toList := by
  refine Run.induct (G := fun _ => True)
    (P := fun past m => m.hub.terminating = false → deviceCrew past = m.hub.deviceLane.worker.toList)
    ?construct ?assemble ?call ?client ?carry ?unwind run fun _ _ => trivial
  case construct | assemble => exact fun _ => rfl
  case call => exact fun _ _ before _ => before
  case client => exact fun _ _ _ before => before
  case carry =>
    intro past m t job later run before agenda _ _ _ running
    have ran := running_before running
    have pending : job ∈ m.agenda t := agenda ▸ List.mem_cons_self ..
    rw [deviceCrew_snoc, hub_carry, before ran]
    by_cases spawns : job = .deviceLane .spawn
    · subst spawns
      rw [run.manned.vacant t pending]
      cases mans : Moment.mans ⟨m, t, .deviceLane .spawn, later⟩ with
      | some w =>
          obtain ⟨_, started, rfl⟩ := mans_started mans
          rw [spawn_started m t started]
          rfl
      | none =>
          have vacant := run.manned.vacant t pending
          simp only [Job.exec, DeviceLaneJob.exec]
          split
          · rename_i started
            rw [Moment.mans, if_pos started] at mans
            cases mans
          · exact congrArg Option.toList vacant.symm
          · exact congrArg Option.toList vacant.symm
    · have joins : joinsDeviceLane job = false := Bool.eq_false_iff.mpr fun joins => by
        have ending := run.windsUp_ending t job pending (by
          cases job with
          | deviceLane job => cases job <;> first | rfl | cases joins
          | _ => cases joins)
        rw [ran] at ending
        cases ending
      rw [mans_apart (x := ⟨m, t, job, later⟩) spawns, worker_exec m t job spawns, joins]
      exact List.append_nil _
  case unwind =>
    intro past m t later run before _ _ running
    have none : Moment.mans ⟨m, t, .panic, later⟩ = none := rfl
    rw [deviceCrew_snoc, none, before (terminating_unwind.symm.trans running)]
    have same : (m.unwind t later).hub.deviceLane.worker = m.hub.deviceLane.worker := lanes_unwind.worker
    rw [same]
    exact List.append_nil _

structure Undisturbed (job : Job) (m : Machine) (t : ThreadId) : Prop where
  queue : (job.exec m t).1.hub.deviceLane.queue = m.hub.deviceLane.queue ++ job.queues
  parked : (job.exec m t).1.hub.deviceLane.parked = true → m.hub.deviceLane.parked = true ∧ job.queues = []
  thrown : job.throwsAway m = []

theorem undisturbed (m : Machine) (t : ThreadId) (job : Job) (apart : job ≠ .deviceLane .look) : Undisturbed job m t := by
  by_cases device : ∃ j, job = .deviceLane j
  · obtain ⟨j, rfl⟩ := device
    cases j with
    | look => exact absurd rfl apart
    | push | wake => exact ⟨by simp [Job.exec, DeviceLaneJob.exec, DeviceLane.push, DeviceLane.wake, Job.queues],
        fun none => (by cases none), rfl⟩
    | spawn =>
        refine ⟨?_, fun parked => ⟨?_, rfl⟩, rfl⟩
        · simp only [Job.exec, DeviceLaneJob.exec, Job.queues, List.append_nil]
          split <;> rfl
        · simp only [Job.exec, DeviceLaneJob.exec] at parked
          split at parked <;> exact parked
    | _ => exact ⟨(List.append_nil _).symm, fun parked => ⟨parked, rfl⟩, rfl⟩
  · obtain ⟨queue, _, parked⟩ := deviceLane_exec m t job fun j same => device ⟨j, same⟩
    have none : job.queues = [] ∧ job.throwsAway m = [] := by
      cases job with
      | deviceLane j => exact absurd ⟨j, rfl⟩ device
      | _ => exact ⟨rfl, rfl⟩
    exact ⟨by rw [queue, none.1, List.append_nil], fun here => ⟨parked ▸ here, none.1⟩, none.2⟩

-- The first worker of the lane. Others come when termination has begun, and find that it has.
def teller (past : List Moment) : Option ThreadId := (deviceCrew past).head?

theorem teller_snoc : teller (past ++ [x]) = (teller past).or x.mans := by
  unfold teller
  rw [deviceCrew_snoc, List.head?_append, Option.head?_toList]

theorem teller_stays (first : teller past = some w) : teller (past ++ [x]) = some w := by
  rw [teller_snoc, first]
  rfl

def inHand (past : List Moment) (m : Machine) : List DeviceCallback := (teller past).elim [] m.toTell

-- The history of the device lane. Nobody but its first worker has anything to hand over.
structure DeviceBook (past : List Moment) (m : Machine) : Prop where
  tellers : ∀ u, m.toTell u ≠ [] → teller past = some u
  balance : queuedDevice past = toldDevice past ++ inHand past m ++ thrownDevice past ++ m.hub.deviceLane.queue
  parked : m.hub.deviceLane.parked = true → m.hub.deviceLane.queue = [] ∧ ∀ u, m.toTell u = []

theorem toTell_moves {m' : Machine} (moves : m'.agenda u = m.agenda u ∨ (m.agenda u = [] ∧ Fresh config u (m'.agenda u))) :
    m'.toTell u = m.toTell u := by
  unfold Machine.toTell
  rcases moves with same | ⟨idle, fresh⟩
  · rw [same]
  · rw [fresh_untold fresh, idle]
    rfl

theorem toTell_carry (agenda : m.agenda t = job :: later) :
    (m.carry t job later).toTell t = (job.exec m t).2.flatMap Job.tells ++ later.flatMap Job.tells := by
  unfold Machine.toTell
  rw [agenda_carry_self agenda, List.flatMap_append]

theorem toTell_head (agenda : m.agenda t = job :: later) : m.toTell t = job.tells ++ later.flatMap Job.tells := by
  unfold Machine.toTell
  rw [agenda, List.flatMap_cons]

theorem DeviceBook.moved {m' : Machine} (book : DeviceBook past m)
    (moves : ∀ u, m'.agenda u = m.agenda u ∨ (m.agenda u = [] ∧ Fresh config u (m'.agenda u)))
    (lane : m'.hub.deviceLane = m.hub.deviceLane) : DeviceBook past m' := by
  have same : ∀ u, m'.toTell u = m.toTell u := fun u => toTell_moves (moves u)
  have whole : m'.toTell = m.toTell := funext same
  refine ⟨fun u here => book.tellers u (same u ▸ here), ?_, fun parked => ?_⟩
  · unfold inHand
    rw [whole, lane]
    exact book.balance
  · rw [lane] at parked ⊢
    rw [whole]
    exact book.parked parked

theorem DeviceBook.hand {m' : Machine} (book : DeviceBook past m) (job : Job) (later : List Job)
    (head : m.toTell t = job.tells ++ m'.toTell t) (others : ∀ u, u ≠ t → m'.toTell u = m.toTell u) :
    (∀ u, m'.toTell u ≠ [] → teller (past ++ [⟨m, t, job, later⟩]) = some u) ∧
      inHand past m = job.tells ++ inHand (past ++ [⟨m, t, job, later⟩]) m' := by
  have silent : teller past ≠ some t → m.toTell t = [] := fun apart =>
    Classical.byContradiction fun here => apart (book.tellers t here)
  refine ⟨fun u here => teller_stays (book.tellers u ?_), ?_⟩
  · by_cases mine : u = t
    · subst mine
      rw [head]
      exact List.append_ne_nil_of_right_ne_nil _ here
    · exact others u mine ▸ here
  · unfold inHand
    cases first : teller past with
    | some w =>
        rw [teller_stays first, Option.elim_some, Option.elim_some]
        by_cases mine : w = t
        · exact mine ▸ head
        · have none := silent fun same => mine (Option.some.inj (first.symm.trans same))
          rw [head] at none
          rw [others w mine, (List.append_eq_nil_iff.mp none).1]
          rfl
    | none =>
        have idle : ∀ u, m.toTell u = [] := fun u => Classical.byContradiction fun here => by
          rw [book.tellers u here] at first
          cases first
        have none := idle t
        rw [head] at none
        obtain ⟨tells, left⟩ := List.append_eq_nil_iff.mp none
        have after : ∀ u, m'.toTell u = [] := fun u => by
          by_cases mine : u = t
          · exact mine ▸ left
          · exact (others u mine).trans (idle u)
        rw [tells, teller_snoc, first]
        cases Moment.mans ⟨m, t, job, later⟩ with
        | none => rfl
        | some w => exact (after w).symm

theorem DeviceBook.carry (run : Run config hooks past m) (book : DeviceBook past m) (agenda : m.agenda t = job :: later)
    (apart : job ≠ .deviceLane .look) : DeviceBook (past ++ [⟨m, t, job, later⟩]) (m.carry t job later) := by
  have fair := run.fair t
  rw [agenda] at fair
  have mine : (m.carry t job later).toTell t = later.flatMap Job.tells := by
    rw [toTell_carry agenda, tells_exec m t job fair.1 apart]
    rfl
  have others : ∀ u, u ≠ t → (m.carry t job later).toTell u = m.toTell u := fun u other =>
    toTell_moves (run.carry_fresh job later other)
  have still := undisturbed m t job apart
  obtain ⟨tellers, hand⟩ := book.hand job later (by rw [mine]; exact toTell_head agenda) others
  refine ⟨tellers, ?_, fun parked => ?_⟩
  · unfold queuedDevice toldDevice thrownDevice
    rw [flatMap_snoc, flatMap_snoc, flatMap_snoc, still.thrown, hub_carry, still.queue]
    have balance := book.balance
    unfold queuedDevice toldDevice thrownDevice at balance
    rw [balance, hand]
    simp only [List.append_assoc, List.append_nil]
  · rw [hub_carry] at parked ⊢
    obtain ⟨parked, none⟩ := still.parked parked
    obtain ⟨empty, idle⟩ := book.parked parked
    refine ⟨by rw [still.queue, empty, none]; rfl, fun u => ?_⟩
    by_cases self : u = t
    · subst self
      have whole := idle u
      rw [toTell_head agenda] at whole
      rw [mine]
      exact (List.append_eq_nil_iff.mp whole).2
    · exact (others u self).trans (idle u)

theorem thrown_departs (here : thrownDevice past ≠ []) : ∃ x ∈ past, x.departs := by
  refine Classical.byContradiction fun none => here (List.flatMap_eq_nil_iff.mpr fun x seen => ?_)
  obtain ⟨m, t, job, later⟩ := x
  cases job with
  | deviceLane job =>
      cases job with
      | look => exact if_neg fun ending => none ⟨_, seen, rfl, ending⟩
      | _ => rfl
  | _ => rfl

theorem Run.unthrown (run : Run config hooks past m) (running : m.hub.terminating = false) : thrownDevice past = [] :=
  Classical.byContradiction fun here => by
    have ending := (run.deserted (thrown_departs here)).ending
    rw [running] at ending
    cases ending

theorem DeviceBook.look (run : Run config hooks past m) (book : DeviceBook past m)
    (agenda : m.agenda t = .deviceLane .look :: later) (awake : m.hub.deviceLane.parked = false) :
    DeviceBook (past ++ [⟨m, t, .deviceLane .look, later⟩]) (m.carry t (.deviceLane .look) later) := by
  have last := run.looks_last t
  have crewed := run.enlisted.2 t
  rw [agenda] at last crewed
  have behind : later.flatMap Job.tells = [] := by
    rw [last.1.1 rfl]
    rfl
  have before : m.toTell t = [] := by
    rw [toTell_head agenda, behind]
    rfl
  have mine := toTell_carry agenda
  rw [behind, List.append_nil, tells_look] at mine
  have others : ∀ u, u ≠ t → (m.carry t (.deviceLane .look) later).toTell u = m.toTell u := fun u other =>
    toTell_moves (run.carry_fresh _ later other)
  have crew : teller (past ++ [⟨m, t, .deviceLane .look, later⟩]) = teller past := by
    rw [teller_snoc, mans_apart (x := ⟨m, t, .deviceLane .look, later⟩) fun none => by cases none]
    exact Option.or_none
  have queue : (m.carry t (.deviceLane .look) later).hub.deviceLane.queue = [] := by
    simp only [hub_carry, Job.exec, DeviceLaneJob.exec, DeviceLaneJob.lookAtQueue]
    rcases DeviceLane.look_cases m.hub.terminating m.hub.deviceLane with
      ⟨_, seen⟩ | ⟨_, empty, seen⟩ | ⟨_, _, seen⟩ <;> rw [seen] <;> first | rfl | exact empty
  have counted : queuedDevice (past ++ [⟨m, t, .deviceLane .look, later⟩]) = queuedDevice past ∧
      toldDevice (past ++ [⟨m, t, .deviceLane .look, later⟩]) = toldDevice past := by
    constructor <;> exact (flatMap_snoc _ _ _).trans (List.append_nil _)
  have thrown : thrownDevice (past ++ [⟨m, t, .deviceLane .look, later⟩]) =
      thrownDevice past ++ if m.hub.terminating then m.hub.deviceLane.queue else [] := flatMap_snoc _ _ _
  cases ending : m.hub.terminating with
  | true =>
      -- What waits is thrown away, whoever still has to hand something over.
      have whole : (m.carry t (.deviceLane .look) later).toTell = m.toTell := funext fun u => by
        by_cases self : u = t
        · rw [self, mine, before, ending]
          rfl
        · exact others u self
      refine ⟨fun u here => ?_, ?_, fun parked => ?_⟩
      · rw [crew]
        exact book.tellers u (whole ▸ here)
      · have balance := book.balance
        unfold inHand at balance ⊢
        rw [counted.1, counted.2, thrown, ending, crew, whole, queue, balance]
        simp only [if_true, List.append_assoc, List.append_nil]
      · have parked : m.hub.deviceLane.parked = true := by
          simpa [hub_carry, Job.exec, DeviceLaneJob.exec, DeviceLaneJob.lookAtQueue, DeviceLane.look, ending] using parked
        exact ⟨queue, fun u => whole ▸ (book.parked parked).2 u⟩
  | false =>
      -- The worker that looks is the only one, and it has handed over all it had.
      have first : teller past = some t := by
        have known := run.crew_worker ending
        have member : t ∈ deviceCrew past := crewed.1
        unfold teller
        rw [known] at member ⊢
        rw [Option.head?_toList]
        exact Option.mem_toList.mp member
      have none : ∀ u, m.toTell u = [] := fun u => Classical.byContradiction fun here => by
        have same := Option.some.inj ((book.tellers u here).symm.trans first)
        exact here (same ▸ before)
      rw [ending] at mine
      simp only [Bool.false_eq_true, if_false] at mine
      refine ⟨fun u here => ?_, ?_, fun parked => ?_⟩
      · by_cases self : u = t
        · rw [crew, first, self]
        · exact absurd ((others u self).trans (none u)) here
      · have balance := book.balance
        unfold inHand at balance ⊢
        rw [first, Option.elim_some, before, run.unthrown ending] at balance
        rw [counted.1, counted.2, thrown, ending, crew, first, Option.elim_some, mine, queue, balance, run.unthrown ending]
        simp
      · have empty : m.hub.deviceLane.queue = [] := by
          rcases DeviceLane.look_cases m.hub.terminating m.hub.deviceLane with
            ⟨on, _⟩ | ⟨_, empty, _⟩ | ⟨_, _, seen⟩
          · rw [ending] at on
            cases on
          · exact empty
          · simp only [hub_carry, Job.exec, DeviceLaneJob.exec, DeviceLaneJob.lookAtQueue, seen] at parked
            have still : m.hub.deviceLane.parked = true := parked
            rw [awake] at still
            cases still
        refine ⟨queue, fun u => ?_⟩
        by_cases self : u = t
        · rw [self, mine, empty]
        · exact (others u self).trans (none u)

theorem Run.deviceBook (run : Run config hooks past m) : DeviceBook past m := by
  refine Run.induct (G := fun _ => True) (P := DeviceBook)
    ?construct ?assemble ?call ?client ?carry ?unwind run fun _ _ => trivial
  case construct | assemble =>
    intro system
    have idle : ∀ {system jobs} (_ : Fresh config .caller jobs) u,
        ((Machine.initial config hooks system).beginWith jobs).toTell u = [] := by
      intro system jobs fresh u
      unfold Machine.toTell
      rcases initial_fresh config hooks u fresh with same | begins
      · rw [same]
        rfl
      · exact fresh_untold begins
    first
      | exact ⟨fun u here => absurd (idle .construction u) here, rfl, fun _ => ⟨rfl, idle .construction⟩⟩
      | exact ⟨fun u here => absurd (idle .assembly u) here, rfl, fun _ => ⟨rfl, idle .assembly⟩⟩
  case call =>
    intro past m op _ before idle
    exact before.moved (call_fresh config idle op) rfl
  case client =>
    intro past m name op _ before
    exact before.moved (client_fresh config m name op) rfl
  case carry =>
    intro past m t job later run before agenda _ enabled _
    by_cases looks : job = .deviceLane .look
    · subst looks
      refine before.look run agenda ?_
      simp only [Job.enabled, Bool.and_eq_true, Bool.not_eq_true'] at enabled
      exact enabled.2
    · exact before.carry run agenda looks
  case unwind =>
    intro past m t later run before agenda _
    have queue : (m.unwind t later).hub.deviceLane.queue = m.hub.deviceLane.queue := lanes_unwind.queue
    have parks : (m.unwind t later).hub.deviceLane.parked = m.hub.deviceLane.parked := lanes_unwind.parked
    have head : (m.unwind t later).toTell t = m.toTell t := by
      unfold Machine.toTell
      rw [agenda_unwind_self agenda, agenda]
      exact run.flatMap_unwind (fun _ => tells_crew) (fun _ => rfl) (fun _ => tells_called) agenda
    have others : ∀ u, u ≠ t → (m.unwind t later).toTell u = m.toTell u := fun u other => by
      unfold Machine.toTell
      rw [agenda_unwind_other other]
    obtain ⟨tellers, hand⟩ := before.hand .panic later head.symm others
    refine ⟨tellers, ?_, fun parked => ?_⟩
    · have counted : queuedDevice (past ++ [⟨m, t, .panic, later⟩]) = queuedDevice past ∧
          toldDevice (past ++ [⟨m, t, .panic, later⟩]) = toldDevice past ∧
          thrownDevice (past ++ [⟨m, t, .panic, later⟩]) = thrownDevice past :=
        ⟨(flatMap_snoc _ _ _).trans (List.append_nil _), (flatMap_snoc _ _ _).trans (List.append_nil _),
          (flatMap_snoc _ _ _).trans (List.append_nil _)⟩
      rw [counted.1, counted.2.1, counted.2.2, queue, before.balance, hand]
      rfl
    · obtain ⟨empty, idle⟩ := before.parked (parks ▸ parked)
      refine ⟨queue.trans empty, fun u => ?_⟩
      by_cases self : u = t
      · rw [self, head, idle t]
      · exact (others u self).trans (idle u)

theorem Run.tells_first (run : Run config hooks past m) : ∀ x ∈ past, x.job.tells ≠ [] → teller past = some x.thread := by
  intro x seen here
  obtain ⟨earlier, start, reached, agenda⟩ := run.reached seen
  have first := reached.deviceBook.tellers x.thread (by
    rw [toTell_head agenda]
    exact List.append_ne_nil_of_left_ne_nil here _)
  obtain ⟨rest, rfl⟩ := start
  unfold teller deviceCrew at *
  rw [List.filterMap_append, List.filterMap_append, List.head?_append, List.head?_append, first]
  rfl

-- How many callbacks a job throws away, but for those that wait on the device lane.
def Job.throwsElse (m : Machine) : Job → Nat
  | .deviceLane .look => 0
  | job => job.throws m

theorem throws_parts (m : Machine) (job : Job) : job.throws m = (job.throwsAway m).length + job.throwsElse m := by
  cases job with
  | deviceLane job =>
      cases job with
      | look =>
          simp only [Job.throws, Job.throwsAway, Job.throwsElse]
          split <;> rfl
      | _ => exact (Nat.zero_add _).symm
  | _ => exact (Nat.zero_add _).symm

theorem Run.thrown_counted (run : Run config hooks past m) : m.hub.metrics.discarded =
    (thrownDevice past).length + total (fun x => x.job.throwsElse x.machine) past := by
  have parts : (fun x : Moment => x.job.throws x.machine) =
      fun x => (x.job.throwsAway x.machine).length + x.job.throwsElse x.machine := funext fun x => throws_parts x.machine x.job
  rw [run.discarded, parts, total_add]
  unfold thrownDevice
  rw [List.length_flatMap]
  rfl

-- From the queue of the device lane to the listeners: each callback that was queued is handed over once
-- and in order, as long as termination has not begun, and is counted if it is thrown away then.
structure DeviceLaneTold (past : List Moment) (m : Machine) : Prop where
  inOrder : toldDevice past <+: queuedDevice past
  byOne : ∀ x ∈ past, x.job.tells ≠ [] → teller past = some x.thread
  parked : m.hub.deviceLane.parked = true → m.hub.terminating = false → toldDevice past = queuedDevice past
  ended : ∀ w, teller past = some w → m.agenda w = [] → queuedDevice past = toldDevice past ++ thrownDevice past
  counted : m.hub.metrics.discarded = (thrownDevice past).length + total (fun x => x.job.throwsElse x.machine) past
  departed : ∀ w ∈ deviceCrew past, m.agenda w = [] → ∃ x ∈ past, x.departs
  deserted : (∃ x ∈ past, x.departs) →
    m.hub.deviceLane.queue = [] ∧ ∀ u callback, .deviceLane (.push callback) ∉ m.agenda u

theorem device_lane_told (run : Run config hooks past m) : DeviceLaneTold past m := by
  have book := run.deviceBook
  have departed : ∀ w ∈ deviceCrew past, m.agenda w = [] → ∃ x ∈ past, x.departs := fun w member gone =>
    (run.attended w member).resolve_left fun look => by
      rw [gone] at look
      cases look
  refine ⟨?_, run.tells_first, fun parked running => ?_, fun w first gone => ?_, run.thrown_counted, departed,
    fun departs => ?_⟩
  · rw [book.balance, List.append_assoc, List.append_assoc]
    exact List.prefix_append ..
  · obtain ⟨empty, idle⟩ := book.parked parked
    have hand : inHand past m = [] := by
      unfold inHand
      cases teller past with
      | none => rfl
      | some w => exact idle w
    rw [book.balance, hand, run.unthrown running, empty]
    simp only [List.append_nil]
  · have hand : inHand past m = [] := by
      unfold inHand Machine.toTell
      rw [first, Option.elim_some, gone]
      rfl
    have left := run.deserted (departed w (List.mem_of_mem_head? first) gone)
    rw [book.balance, hand, left.queue]
    simp only [List.append_nil]
  · have left := run.deserted departs
    refine ⟨left.queue, fun u callback inside => ?_⟩
    have bound := weight_mem (f := queueGate.guards) inside
    rw [left.pushes u] at bound
    exact absurd bound (Nat.not_succ_le_zero 0)

theorem served_told : DeviceLaneTold servedSession.1 servedSession.2 ∧ teller servedSession.1 = some ⟨1⟩ ∧
    (servedSession.2.agenda ⟨1⟩).isEmpty = true ∧ (queuedDevice servedSession.1).length = 2 ∧
    (toldDevice servedSession.1).length = 1 ∧ (thrownDevice servedSession.1).length = 1 := by
  refine ⟨device_lane_told (act_run (act_run (act_run (solo_run _ _ _) _ _) _ _) _ _), ?_⟩
  decide +kernel

end TransportHub
