import TransportHub.Proofs.Deliveries
/-!
Audiences: who hears a callback. A worker puts a batch and the registrations of that moment together,
and calls each of these listeners about each callback of the batch, in order, whatever happens to the
registrations meanwhile.
-/

set_option autoImplicit false

namespace TransportHub

open DataLanes (Slot)

variable {config : Config} {hooks : List Hook} {past : List Moment} {m : Machine} {t u w : ThreadId}
  {job : Job} {later : List Job} {x : Moment} {slot : Slot} {l : ListenerId}

-- The device lane and the data lanes have listeners of their own.
inductive Side where
  | device
  | data
deriving DecidableEq

def Hub.audience (h : Hub) : Side → List ListenerId
  | .device => h.deviceLane.listeners.snapshot
  | .data => h.dataLanes.listeners.snapshot

-- The listener that a step registers, and the one whose registrations it drops.
def Moment.joins (side : Side) (x : Moment) : Option ListenerId :=
  if x.machine.hub.owned then
    match side, x.job with
    | .device, .perform (.addDeviceListener ref) => some (x.machine.cast.resolveDeviceListener ref).1
    | .data, .perform (.addDataListener ref) => some (x.machine.cast.resolveDataListener ref).1
    | _, _ => none
  else none

def Moment.quits (side : Side) (x : Moment) : Option ListenerId :=
  if x.machine.hub.owned then
    match side, x.job with
    | .device, .perform (.removeDeviceListener ref) => some (x.machine.cast.resolveDeviceListener ref).1
    | .data, .perform (.removeDataListener ref) => some (x.machine.cast.resolveDataListener ref).1
    | _, _ => none
  else none

def registered (side : Side) : List Moment → List ListenerId
  | [] => []
  | x :: rest => (x.joins side).toList.filter (fun l => rest.all fun y => y.quits side ≠ some l) ++ registered side rest

theorem registered_snoc (side : Side) : registered side (past ++ [x]) =
    (registered side past).filter (fun l => x.quits side ≠ some l) ++ (x.joins side).toList := by
  induction past with
  | nil => simp [registered]
  | cons first rest ih =>
      simp only [List.cons_append, registered, ih, List.filter_append, List.filter_filter, List.append_assoc]
      congr 1
      refine List.filter_congr fun l _ => ?_
      simp [Bool.and_comm]

theorem mem_registered (side : Side) : l ∈ registered side past ↔
    ∃ front y back, past = front ++ y :: back ∧ y.joins side = some l ∧ ∀ z ∈ back, z.quits side ≠ some l := by
  induction past with
  | nil => simp [registered]
  | cons first rest ih =>
      simp only [registered, List.mem_append, List.mem_filter, Option.mem_toList, List.all_eq_true, decide_eq_true_eq, ih]
      constructor
      · rintro (⟨joins, stays⟩ | ⟨front, y, back, rfl, joins, stays⟩)
        · exact ⟨[], first, rest, rfl, joins, stays⟩
        · exact ⟨first :: front, y, back, rfl, joins, stays⟩
      · rintro ⟨front, y, back, split, joins, stays⟩
        rcases List.cons_eq_append_iff.mp split with ⟨rfl, same⟩ | ⟨tail, rfl, same⟩
        · obtain ⟨rfl, rfl⟩ := List.cons.inj same
          exact .inl ⟨joins, stays⟩
        · exact .inr ⟨tail, y, back, same, joins, stays⟩

theorem audience_deviceLane (m : Machine) (job : DeviceLaneJob) (side : Side) :
    (job.exec m).1.hub.audience side = m.hub.audience side := by
  cases side with
  | data => simp only [Hub.audience, dataLanes_deviceLane]
  | device =>
      cases job with
      | look =>
          simp only [DeviceLaneJob.exec, DeviceLaneJob.lookAtQueue]
          rcases DeviceLane.look_cases m.hub.terminating m.hub.deviceLane with
            ⟨_, seen⟩ | ⟨_, _, seen⟩ | ⟨_, _, seen⟩ <;> rw [seen] <;> rfl
      | spawn =>
          simp only [DeviceLaneJob.exec]
          split <;> rfl
      | _ => rfl

theorem audience_dataLane (m : Machine) (job : DataLaneJob) (side : Side) :
    (job.exec m).1.hub.audience side = m.hub.audience side := by
  cases job with
  | look id =>
      simp only [DataLaneJob.exec, DataLaneJob.lookAtLane]
      repeat' split
      all_goals cases side <;> rfl
  | stop c =>
      simp only [DataLaneJob.exec, DataLanes.withdraw]
      cases m.hub.dataLanes.slots.get? c <;> cases side <;> rfl
  | _ =>
      simp only [DataLaneJob.exec, DataLanes.openLane]
      repeat' split
      all_goals cases side <;> rfl

theorem audience_hub (m : Machine) (t : ThreadId) (job : HubJob) (side : Side) :
    (job.exec m t).1.hub.audience side = m.hub.audience side := by
  cases job with
  | raiseTermination | laneStarted =>
      simp only [HubJob.exec]
      repeat' split
      all_goals cases side <;> rfl
  | _ => cases side <;> rfl

theorem audience_registry (m : Machine) (job : RegistryJob) (side : Side) :
    (job.exec m).1.hub.audience side = m.hub.audience side := by
  cases job with
  | withdraw | replace =>
      simp only [RegistryJob.exec]
      split <;> cases side <;> rfl
  | _ => cases side <;> rfl

theorem audience_participant (m : Machine) (t : ThreadId) (job : ParticipantJob) (side : Side) :
    (job.exec m t).1.hub.audience side = m.hub.audience side := by
  cases job with
  | deliver d =>
      simp only [ParticipantJob.exec]
      split <;> cases side <;> rfl
  | _ => rw [hub_participant m t _ rfl]

theorem audience_perform (op : Op) (perform : x.job = .perform op) (side : Side) :
    (x.machine.perform op).1.hub.audience side =
      (x.machine.hub.audience side).filter (fun l => x.quits side ≠ some l) ++ (x.joins side).toList := by
  have all : ∀ registrations : List ListenerId, registrations.filter (fun _ => true) = registrations := fun _ =>
    List.filter_eq_self.mpr fun _ _ => rfl
  unfold Moment.joins Moment.quits
  rw [perform]
  cases op with
  | addDeviceListener | addDataListener =>
      simp only [Machine.perform, Machine.performOwned]
      split <;> cases side <;> simp [Hub.audience, all]
  | removeDeviceListener | removeDataListener =>
      simp only [Machine.perform, Machine.performOwned]
      split <;> cases side <;> simp [Hub.audience, all, eq_comm]
  | connectAtOnce =>
      simp only [Machine.perform, Machine.performOwned]
      split <;> cases side <;> simp [Hub.audience, all, hub_spawnReporters]
  | registry op | deviceLane op | dataLanes op =>
      cases op <;>
        simp only [Machine.perform, Machine.performOwned, RegistryOp.exec, DeviceLaneOp.exec, DataLanesOp.exec] <;>
        (repeat' split) <;> cases side <;> simp [Hub.audience, all, Machine.endHolds]
  | context name query =>
      simp only [Machine.perform]
      split
      · cases query <;> cases side <;> simp [Hub.audience, all, ContextQuery.exec]
      · cases side <;> simp [Hub.audience, all]
  | _ =>
      simp only [Machine.perform, Machine.performOwned, ContextQuery.exec]
      (repeat' split) <;> cases side <;> simp [Hub.audience, all, Machine.releaseHeld]

theorem audience_exec (m : Machine) (t : ThreadId) (job : Job) (later : List Job) (side : Side) :
    (job.exec m t).1.hub.audience side = (m.hub.audience side).filter
      (fun l => Moment.quits side ⟨m, t, job, later⟩ ≠ some l) ++ (Moment.joins side ⟨m, t, job, later⟩).toList := by
  by_cases perform : ∃ op, job = .perform op
  · obtain ⟨op, rfl⟩ := perform
    exact audience_perform (x := ⟨m, t, .perform op, later⟩) op rfl side
  have apart : ∀ op, job ≠ .perform op := fun op same => perform ⟨op, same⟩
  have joins : Moment.joins side ⟨m, t, job, later⟩ = none := by
    unfold Moment.joins
    repeat' split
    all_goals first | rfl | exact absurd ‹_› (apart _)
  have quits : Moment.quits side ⟨m, t, job, later⟩ = none := by
    unfold Moment.quits
    repeat' split
    all_goals first | rfl | exact absurd ‹_› (apart _)
  rw [joins, quits, Option.toList_none, List.append_nil, List.filter_eq_self.mpr fun _ _ => decide_eq_true (by simp)]
  cases job with
  | log record => rw [Job.exec, hub_log]
  | perform op => exact absurd rfl (apart op)
  | registry job => exact audience_registry m job side
  | deviceLane job => exact audience_deviceLane m job side
  | dataLane job => exact audience_dataLane m job side
  | participant job => exact audience_participant m t job side
  | hub job => exact audience_hub m t job side
  | hold =>
      simp only [Job.exec]
      split <;> rfl
  | _ => rfl

theorem Run.audience (run : Run config hooks past m) (side : Side) : m.hub.audience side = registered side past := by
  refine Run.induct (G := fun _ => True) (P := fun past m => m.hub.audience side = registered side past)
    ?construct ?assemble ?call ?client ?carry ?unwind run fun _ _ => trivial
  case construct | assemble => exact fun {_} => by cases side <;> rfl
  case call => exact fun _ _ before _ => before
  case client => exact fun _ _ _ before => before
  case carry =>
    intro past m t job later _ before _ _ _ _
    rw [hub_carry, audience_exec m t job later side, before, registered_snoc]
  case unwind =>
    intro past m t later _ before _ _
    have same : (m.unwind t later).hub.audience side = m.hub.audience side := by
      rcases hub_unwind m t later with hub | hub
      · rw [hub]
      · rw [hub]
        cases side <;> rfl
    rw [same, before, registered_snoc]
    simp [Moment.joins, Moment.quits, List.filter_eq_self.mpr]

-- A batch of callbacks, put together with the listeners to call about each of them.
structure Round where
  side : Side
  batch : List Callback
  listeners : List ListenerId

def Round.calls (r : Round) : List (ListenerId × Callback) :=
  r.batch.flatMap fun callback => r.listeners.map (·, callback)

-- A worker of the device lane takes the batch and the listeners at once; a worker of a data lane has
-- taken its batch before.
def Job.gathers (m : Machine) : Job → Option Round
  | .deviceLane .look =>
      match (m.hub.deviceLane.look m.hub.terminating).1 with
      | .take batch listeners => some ⟨.device, batch.map .device, listeners⟩
      | _ => none
  | .dataLane (.snapshot _ batch) => some ⟨.data, batch.map .data, m.hub.dataLanes.listeners.snapshot⟩
  | _ => none

def Job.reaches : Job → List (ListenerId × Callback)
  | .participant (.hear l callback) => [(l, callback)]
  | _ => []

def Job.owes : Job → List (ListenerId × Callback)
  | .dataLane (.handOver _ callback listeners) => listeners.map (·, .data callback)
  | .participant (.deliver d) | .participant (.delivered d) => (d.listeners.drop d.called).map (·, d.callback)
  | job => job.reaches

def roundsOf (w : ThreadId) (past : List Moment) : List Round :=
  past.filterMap fun x => if x.thread = w then x.job.gathers x.machine else none

def heardFrom (w : ThreadId) (past : List Moment) : List (ListenerId × Callback) :=
  past.flatMap fun x => if x.thread = w then x.job.reaches else []

theorem roundsOf_snoc (w : ThreadId) : roundsOf w (past ++ [x]) =
    roundsOf w past ++ (if x.thread = w then x.job.gathers x.machine else none).toList := by
  unfold roundsOf
  rw [List.filterMap_append]
  cases here : (if x.thread = w then x.job.gathers x.machine else none) <;> simp [here]

theorem heardFrom_snoc (w : ThreadId) : heardFrom w (past ++ [x]) =
    heardFrom w past ++ if x.thread = w then x.job.reaches else [] := flatMap_snoc _ past x

theorem owes_source {j : Job} (leads : job.leads j = true) (here : j.owes ≠ []) :
    job = .deviceLane .look ∨ (∃ c batch, job = .dataLane (.snapshot c batch)) ∨
      (∃ c callback listeners, job = .dataLane (.handOver c callback listeners)) ∨
      (∃ d, job = .participant (.deliver d)) ∨ ∃ d, job = .participant (.delivered d) := by
  cases j with
  | dataLane j =>
      cases j with
      | handOver => exact .inr (.inl (handOver_origin leads))
      | _ => exact absurd rfl here
  | participant j =>
      cases j with
      | hear => exact .inr (.inr (.inr (.inl (hear_origin leads))))
      | delivered => exact .inr (.inr (.inr (.inl (delivered_origin leads))))
      | deliver =>
          rcases deliver_origin leads with looks | hands | called
          · exact .inl looks
          · exact .inr (.inr (.inl hands))
          · exact .inr (.inr (.inr (.inr called)))
      | _ => exact absurd rfl here
  | _ => exact absurd rfl here

theorem owes_gathers {r : Round} (gathers : job.gathers m = some r) :
    job.owes = [] ∧ job.reaches = [] ∧ (job.exec m t).2.flatMap Job.owes = r.calls := by
  cases job with
  | deviceLane job =>
      cases job with
      | look =>
          refine ⟨rfl, rfl, ?_⟩
          simp only [Job.gathers] at gathers
          simp only [Job.exec, DeviceLaneJob.exec, DeviceLaneJob.lookAtQueue]
          rcases DeviceLane.look_cases m.hub.terminating m.hub.deviceLane with
            ⟨_, seen⟩ | ⟨_, _, seen⟩ | ⟨_, _, seen⟩ <;> rw [seen] at gathers ⊢ <;> cases gathers
          simp [Round.calls, Job.owes, Job.reaches, Job.deliver, Job.logDeviceLane, List.flatMap_map]
      | _ => cases gathers
  | dataLane job =>
      cases job with
      | snapshot c batch =>
          refine ⟨rfl, rfl, ?_⟩
          cases gathers
          simp [Job.exec, DataLaneJob.exec, Round.calls, Job.owes, Job.reaches, Job.logDataLane, List.flatMap_map]
      | _ => cases gathers
  | _ => cases gathers

theorem owes_exec (m : Machine) (t : ThreadId) (job : Job) (gathers : job.gathers m = none) :
    job.owes = job.reaches ++ (job.exec m t).2.flatMap Job.owes := by
  by_cases source : job = .deviceLane .look ∨ (∃ c callback listeners, job = .dataLane (.handOver c callback listeners)) ∨
      (∃ d, job = .participant (.deliver d)) ∨ ∃ d, job = .participant (.delivered d)
  · rcases source with rfl | ⟨c, callback, listeners, rfl⟩ | ⟨d, rfl⟩ | ⟨d, rfl⟩
    · simp only [Job.gathers] at gathers
      simp only [Job.exec, DeviceLaneJob.exec, DeviceLaneJob.lookAtQueue]
      rcases DeviceLane.look_cases m.hub.terminating m.hub.deviceLane with
        ⟨_, seen⟩ | ⟨_, _, seen⟩ | ⟨_, _, seen⟩ <;> rw [seen] at gathers ⊢
      · simp only [List.flatMap_append]
        split <;> rfl
      · rfl
      · cases gathers
    · simp only [Job.exec, DataLaneJob.exec, DataLaneJob.deliverOne, List.flatMap_append]
      split <;> simp [Job.owes, Job.reaches, Job.deliver, Job.logDataLane]
    · simp only [Job.exec, ParticipantJob.exec, Job.owes, Job.reaches, List.nil_append]
      cases found : d.listeners[d.called]? with
      | none => rw [List.drop_eq_nil_of_le (List.getElem?_eq_none_iff.mp found)]; rfl
      | some l =>
          obtain ⟨within, same⟩ := List.getElem?_eq_some_iff.mp found
          rw [List.drop_eq_getElem_cons within, same]
          simp [Job.owes, Job.reaches]
    · simp [Job.exec, ParticipantJob.exec, Job.owes, Job.reaches]
  · have none : (job.exec m t).2.flatMap Job.owes = [] := by
      refine List.flatMap_eq_nil_iff.mpr fun j member => Classical.byContradiction fun here => ?_
      rcases owes_source (leads_exec m t job j member) here with look | ⟨c, batch, rfl⟩ | other
      · exact source (.inl look)
      · cases gathers
      · exact source (.inr other)
    rw [none, List.append_nil]
    cases job with
    | dataLane job =>
        cases job with
        | handOver => exact absurd (.inr (.inl ⟨_, _, _, rfl⟩)) source
        | _ => rfl
    | participant job =>
        cases job with
        | deliver => exact absurd (.inr (.inr (.inl ⟨_, rfl⟩))) source
        | delivered => exact absurd (.inr (.inr (.inr ⟨_, rfl⟩))) source
        | _ => rfl
    | _ => rfl

def Job.sounds : Job → Bool
  | .participant job => (job matches .hear ..)
  | _ => false

theorem cut_either {front back : List Job} (member : job ∈ cut (front ++ back)) : job ∈ front ∨ job ∈ cut back := by
  induction front with
  | nil => exact .inr member
  | cons first rest ih =>
      by_cases caught : ∃ d, first = .participant (.delivered d)
      · obtain ⟨d, rfl⟩ := caught
        cases member
      · rw [List.cons_append, cut] at member
        · rcases List.mem_cons.mp member with rfl | member
          · exact .inl (List.mem_cons_self ..)
          · exact (ih member).imp_left (List.mem_cons_of_mem _)
        · exact fun d same => caught ⟨d, same⟩

def Exposed (agenda : List Job) : Prop := ∃ j ∈ cut agenda, j.sounds = true

theorem each_unexposed {front back : List Job} (deaf : ∀ j ∈ front, j.sounds = false) (behind : ¬ Exposed back) :
    Each (fun _ rest => ¬ Exposed (rest ++ back)) front := by
  induction front with
  | nil => trivial
  | cons job rest ih =>
      have tail : ∀ j ∈ rest, j.sounds = false := fun j member => deaf j (List.mem_cons_of_mem _ member)
      refine ⟨fun ⟨j, member, sounds⟩ => ?_, ih tail⟩
      rcases cut_either member with here | later
      · rw [tail j here] at sounds
        cases sounds
      · exact behind ⟨j, later, sounds⟩

-- The call of a listener is what a thread does next, or next after the record of it, which no hook is
-- on. So no panic ever cuts one off.
theorem Run.heralded (run : Run config hooks past m) (u : ThreadId) :
    Each (fun job rest => Exposed rest → u ≠ .caller ∧ ∃ r, job = .log r) (m.agenda u) := by
  refine Run.each (G := fun _ => True) (P := fun u job rest => Exposed rest → u ≠ .caller ∧ ∃ r, job = .log r)
    ?fresh ?next ?caught run (fun _ _ => trivial) u
  case fresh =>
    intro u agenda fresh
    have deaf : ∀ j ∈ agenda, j.sounds = false :=
      fresh.all (fun _ => rfl) rfl (fun _ => rfl) (fun _ _ => rfl) rfl fun _ => rfl
    have nothing : ¬ Exposed [] := by rintro ⟨_, ⟨⟩, _⟩
    refine each_imp (fun job rest none exposed => absurd exposed ?_) (each_unexposed deaf nothing)
    rwa [List.append_nil] at none
  case next =>
    intro past m t job later run each agenda _ _ _
    have here := each t
    have apart := run.apart t
    rw [agenda] at here apart
    by_cases exposed : Exposed later
    · obtain ⟨started, r, rfl⟩ := here.1 exposed
      simp only [Job.exec, Machine.log, if_neg started]
      trivial
    by_cases delivers : ∃ d, job = .participant (.deliver d)
    · obtain ⟨d, rfl⟩ := delivers
      simp only [Job.exec, ParticipantJob.exec]
      split
      · trivial
      · exact ⟨fun _ => ⟨apart.1.1 rfl, _, rfl⟩, fun behind => (by obtain ⟨_, ⟨⟩, _⟩ := behind),
          fun behind => absurd behind exposed, trivial⟩
    · have deaf : ∀ j ∈ (job.exec m t).2, j.sounds = false := by
        intro j member
        cases sounds : j.sounds with
        | false => rfl
        | true =>
            have leads := leads_exec m t job j member
            refine absurd ?_ delivers
            cases j with
            | participant j =>
                cases j with
                | hear => exact hear_origin leads
                | _ => cases sounds
            | _ => cases sounds
      exact each_imp (fun _ _ none behind => absurd behind none) (each_unexposed deaf exposed)
  case caught =>
    intro u d rest each
    have behind : ¬ Exposed rest := fun exposed => by
      obtain ⟨_, r, none⟩ := each.1 exposed
      cases none
    have deaf : ∀ j ∈ ParticipantJob.afterPanic d, j.sounds = false := by simp [ParticipantJob.afterPanic, Job.sounds]
    exact each_append.mpr ⟨each_imp (fun _ _ none exposed => absurd exposed none) (each_unexposed deaf behind), each.2⟩

theorem Run.owes_unwind (run : Run config hooks past m) (agenda : m.agenda t = .panic :: later) :
    (kept later).flatMap Job.owes = later.flatMap Job.owes := by
  have heralded := run.heralded t
  rw [agenda] at heralded
  refine flatMap_kept (fun job inside => ?_) (fun _ => rfl) fun _ _ => rfl
  have crew := run.crew_stays agenda job inside
  have deaf : job.sounds = false := Classical.byContradiction fun hears => by
    obtain ⟨_, r, none⟩ := heralded.1 ⟨job, inside, by simpa using hears⟩
    cases none
  cases job with
  | dataLane job => cases job <;> first | rfl | cases crew
  | participant job => cases job <;> first | rfl | (cases crew; done) | cases deaf
  | _ => rfl

theorem fresh_owes {agenda : List Job} (fresh : Fresh config u agenda) : agenda.flatMap Job.owes = [] := by
  cases fresh <;> rfl

theorem Run.gathers_last (run : Run config hooks past m) (agenda : m.agenda t = job :: later) {r : Round}
    (gathers : job.gathers m = some r) : later.flatMap Job.owes = [] := by
  have last := run.looks_last t
  rw [agenda] at last
  cases job with
  | deviceLane job =>
      cases job with
      | look => rw [last.1.1 rfl]; rfl
      | _ => cases gathers
  | dataLane job =>
      cases job with
      | snapshot c batch =>
          obtain ⟨id, rfl⟩ := last.1.2 c batch rfl
          rfl
      | _ => cases gathers
  | _ => cases gathers

theorem Run.called (run : Run config hooks past m) (w : ThreadId) :
    (roundsOf w past).flatMap Round.calls = heardFrom w past ++ (m.agenda w).flatMap Job.owes := by
  have moves : ∀ {past : List Moment} {m m' : Machine},
      (m'.agenda w = m.agenda w ∨ (m.agenda w = [] ∧ Fresh config w (m'.agenda w))) →
      (roundsOf w past).flatMap Round.calls = heardFrom w past ++ (m.agenda w).flatMap Job.owes →
      (roundsOf w past).flatMap Round.calls = heardFrom w past ++ (m'.agenda w).flatMap Job.owes := by
    rintro past m m' (same | ⟨idle, fresh⟩) before
    · rw [same, before]
    · rw [before, idle, fresh_owes fresh]
      rfl
  refine Run.induct (G := fun _ => True) (P := fun past m =>
      (roundsOf w past).flatMap Round.calls = heardFrom w past ++ (m.agenda w).flatMap Job.owes)
    ?construct ?assemble ?call ?client ?carry ?unwind run fun _ _ => trivial
  case construct =>
    intro system
    rcases initial_fresh config hooks w .construction with idle | fresh
    · rw [idle]
      rfl
    · rw [fresh_owes fresh]
      rfl
  case assemble =>
    intro system
    rcases initial_fresh config hooks w .assembly with idle | fresh
    · rw [idle]
      rfl
    · rw [fresh_owes fresh]
      rfl
  case call => exact fun op run before idle => moves (call_fresh config idle op w) before
  case client => exact fun name op run before => moves (client_fresh config _ name op w) before
  case carry =>
    intro past m t job later run before agenda _ _ _
    rw [roundsOf_snoc, heardFrom_snoc]
    by_cases mine : t = w
    · subst mine
      rw [agenda] at before
      rw [if_pos rfl, if_pos rfl, agenda_carry_self agenda, List.flatMap_append, List.flatMap_append, before]
      cases gathers : job.gathers m with
      | some r =>
          obtain ⟨none, silent, next⟩ := owes_gathers (t := t) gathers
          rw [next, run.gathers_last agenda gathers, silent, List.flatMap_cons, none, run.gathers_last agenda gathers]
          simp
      | none =>
          rw [List.flatMap_cons, owes_exec m t job gathers]
          simp
    · rw [if_neg mine, if_neg mine]
      simp only [Option.toList_none, List.append_nil]
      exact moves (run.carry_fresh job later fun same => mine same.symm) before
  case unwind =>
    intro past m t later run before agenda _
    have none : Job.panic.gathers m = none ∧ Job.panic.reaches = [] := ⟨rfl, rfl⟩
    rw [roundsOf_snoc, heardFrom_snoc, none.1, none.2, ite_self, ite_self, Option.toList_none, List.append_nil, List.append_nil]
    by_cases mine : t = w
    · subst mine
      rw [agenda] at before
      rw [agenda_unwind_self agenda, run.owes_unwind agenda]
      exact before
    · rw [agenda_unwind_other fun same => mine same.symm]
      exact before

-- A worker of a data lane has taken a batch and has not gathered the listeners for it yet.
def Job.waits : Job → List DataCallback
  | .dataLane (.snapshot _ batch) => batch
  | _ => []

def Round.data (r : Round) : List DataCallback := r.batch.filterMap Callback.data?

theorem roundsOf_flatMap {α : Type} (f : Round → List α) (w : ThreadId) : (roundsOf w past).flatMap f =
    past.flatMap fun x => if x.thread = w then (x.job.gathers x.machine).elim [] f else [] := by
  induction past with
  | nil => rfl
  | cons x rest ih =>
      rw [List.flatMap_cons, ← ih, roundsOf, List.filterMap_cons]
      by_cases mine : x.thread = w
      · rw [if_pos mine, if_pos mine]
        cases x.job.gathers x.machine <;> rfl
      · rw [if_neg mine, if_neg mine]
        rfl

theorem looks_gathers (m : Machine) (looks : job.looks = true) :
    (job.gathers m).elim [] Round.data = [] ∧ job.waits = [] := by
  cases job with
  | dataLane job => cases job <;> first | exact ⟨rfl, rfl⟩ | cases looks
  | deviceLane job =>
      cases job with
      | look =>
          refine ⟨?_, rfl⟩
          simp only [Job.gathers]
          split
          · refine List.filterMap_eq_nil_iff.mpr fun callback member => ?_
            obtain ⟨device, _, rfl⟩ := List.mem_map.mp member
            rfl
          · rfl
      | _ => cases looks
  | _ => cases looks

theorem gathers_data (m : Machine) (job : Job) : (job.gathers m).elim [] Round.data = job.waits := by
  cases looks : job.looks with
  | true =>
      obtain ⟨gathers, waits⟩ := looks_gathers m looks
      rw [gathers, waits]
  | false =>
      cases job with
      | deviceLane job => cases job <;> first | rfl | cases looks
      | dataLane job =>
          cases job with
          | snapshot c batch =>
              have whole : (batch.map Callback.data).filterMap Callback.data? = batch := by
                rw [List.filterMap_map]
                exact List.filterMap_some
              exact whole
          | _ => rfl
      | _ => rfl

theorem waits_next (m : Machine) (t : ThreadId) (job : Job) (looks : job.looks = false) :
    (job.exec m t).2.flatMap Job.waits = [] := by
  refine List.flatMap_eq_nil_iff.mpr fun j member => Classical.byContradiction fun here => ?_
  have leads := leads_exec m t job j member
  cases j with
  | dataLane j =>
      cases j with
      | snapshot =>
          obtain ⟨id, rfl⟩ := snapshot_origin leads
          cases looks
      | _ => exact here rfl
  | _ => exact here rfl

theorem waits_exec (m : Machine) (t : ThreadId) (job : Job) (looks : job.looks = false) :
    job.waits = (job.gathers m).elim [] Round.data ++ (job.exec m t).2.flatMap Job.waits := by
  rw [waits_next m t job looks, List.append_nil, gathers_data]

theorem Run.batched (run : Run config hooks past m) : ∀ slot ∈ roster past, takenFrom slot.lane past =
    (roundsOf slot.worker past).flatMap Round.data ++ (m.agenda slot.worker).flatMap Job.waits := by
  intro slot member
  rw [roundsOf_flatMap]
  refine Run.conveyed (h := fun m job => (job.gathers m).elim [] Round.data) (fun _ _ => rfl) (fun _ => rfl)
    (fun m t job _ => waits_exec m t job)
    (fun x id looks mine => ⟨looks_gathers _ looks, ?_⟩) (fun run agenda => ?_) run slot member
  · exact flatMap_look (fun _ => rfl) (fun _ looks => (looks_gathers x.machine looks).2) (fun _ _ => rfl) (fun _ _ _ => rfl)
      x looks mine
  · refine run.flatMap_unwind (fun job here => ?_) (fun _ => rfl) (fun _ _ => rfl) agenda
    cases job with
    | dataLane job => cases job <;> first | rfl | exact absurd rfl here
    | _ => exact absurd rfl here

theorem joins_quits {side : Side} (joins : x.joins side = some l) : x.quits side = none := by
  unfold Moment.joins at joins
  unfold Moment.quits
  split at joins
  · rw [if_pos ‹_›]
    split at joins
    · rename_i same
      rw [same]
    · rename_i same
      rw [same]
    · cases joins
  · cases joins

theorem registered_front {side : Side} {front back : List Moment} (none : ∀ z ∈ back, z.joins side ≠ some l)
    (member : l ∈ registered side (front ++ back)) : l ∈ registered side front := by
  induction back generalizing front with
  | nil => rwa [List.append_nil] at member
  | cons z rest ih =>
      rw [List.append_cons] at member
      have before := ih (fun y here => none y (List.mem_cons_of_mem _ here)) member
      rw [registered_snoc, List.mem_append, List.mem_filter, Option.mem_toList] at before
      exact (before.resolve_right (none z (List.mem_cons_self ..))).1

-- The listeners of a round are the registrations of its moment.
structure Gathered (before : List Moment) (r : Round) : Prop where
  listeners : r.listeners = registered r.side before
  joined : ∀ front y back l, before = front ++ y :: back → y.joins r.side = some l →
    (∀ z ∈ back, z.quits r.side ≠ some l) → l ∈ r.listeners
  dropped : ∀ front y back l, before = front ++ y :: back → y.quits r.side = some l →
    (∀ z ∈ back, z.joins r.side ≠ some l) → l ∉ r.listeners

theorem gathered_registered {before : List Moment} {r : Round} (listeners : r.listeners = registered r.side before) :
    Gathered before r := by
  refine ⟨listeners, fun front y back l split joins stays => ?_, fun front y back l split quits stays member => ?_⟩
  · rw [listeners]
    exact (mem_registered _).mpr ⟨front, y, back, split, joins, stays⟩
  · rw [listeners, split, List.append_cons] at member
    have last := registered_front stays member
    rw [registered_snoc, List.mem_append, List.mem_filter, decide_eq_true_eq, Option.mem_toList] at last
    rcases last with ⟨_, stayed⟩ | joins
    · exact stayed quits
    · rw [joins_quits joins] at quits
      cases quits

theorem gathers_audience {r : Round} (gathers : job.gathers m = some r) : r.listeners = m.hub.audience r.side := by
  cases job with
  | deviceLane job =>
      cases job with
      | look =>
          simp only [Job.gathers] at gathers
          rcases DeviceLane.look_cases m.hub.terminating m.hub.deviceLane with
            ⟨_, seen⟩ | ⟨_, _, seen⟩ | ⟨_, _, seen⟩ <;> rw [seen] at gathers <;> cases gathers
          rfl
      | _ => cases gathers
  | dataLane job =>
      cases job with
      | snapshot c batch =>
          cases gathers
          rfl
      | _ => cases gathers
  | _ => cases gathers

theorem roundsOf_append (w : ThreadId) (front back : List Moment) :
    roundsOf w (front ++ back) = roundsOf w front ++ roundsOf w back := List.filterMap_append

theorem heardFrom_append (w : ThreadId) (front back : List Moment) :
    heardFrom w (front ++ back) = heardFrom w front ++ heardFrom w back := List.flatMap_append

theorem Run.called_since (run : Run config hooks past m) {before after : List Moment} {r : Round}
    (split : past = before ++ x :: after) (gathers : x.job.gathers x.machine = some r) :
    r.calls ++ (roundsOf x.thread after).flatMap Round.calls =
      heardFrom x.thread after ++ (m.agenda x.thread).flatMap Job.owes := by
  have start : before ++ [x] <+: past := ⟨after, by rw [split, List.append_assoc]; rfl⟩
  obtain ⟨reached, agenda⟩ := run.before start
  have idle := owes_gathers (t := x.thread) gathers
  have settled := reached.called x.thread
  rw [agenda, List.flatMap_cons, idle.1, reached.gathers_last agenda gathers, List.append_nil, List.append_nil] at settled
  have now := run.called x.thread
  rw [split, List.append_cons, roundsOf_append, heardFrom_append, roundsOf_snoc, heardFrom_snoc, if_pos rfl, if_pos rfl, gathers,
    idle.2.1, List.append_nil, List.flatMap_append, List.flatMap_append, settled, List.append_assoc, List.append_assoc] at now
  simpa using List.append_cancel_left now

-- Whom a callback reaches: a round calls each listener registered at its moment about each callback of its
-- batch, and a thread calls nobody but for its rounds, one after the other.
structure ListenersCalled (past : List Moment) (m : Machine) : Prop where
  gathered : ∀ before x after r, past = before ++ x :: after → x.job.gathers x.machine = some r → Gathered before r
  since : ∀ before x after r, past = before ++ x :: after → x.job.gathers x.machine = some r →
    r.calls ++ (roundsOf x.thread after).flatMap Round.calls = heardFrom x.thread after ++ (m.agenda x.thread).flatMap Job.owes
  rounds : ∀ w, (roundsOf w past).flatMap Round.calls = heardFrom w past ++ (m.agenda w).flatMap Job.owes
  settled : ∀ w, (∀ job ∈ (m.agenda w).head?, job.looks = true) → (m.agenda w).flatMap Job.owes = []
  batches : ∀ slot ∈ roster past, takenFrom slot.lane past =
    (roundsOf slot.worker past).flatMap Round.data ++ (m.agenda slot.worker).flatMap Job.waits

theorem listeners_called (run : Run config hooks past m) : ListenersCalled past m where
  gathered before x after r split gathers := by
    have start : before ++ [x] <+: past := ⟨after, by rw [split, List.append_assoc]; rfl⟩
    refine gathered_registered ?_
    rw [gathers_audience gathers, (run.before start).1.audience]
  since _ _ _ _ split gathers := run.called_since split gathers
  rounds := run.called
  settled w first := by
    have last := run.looks_last w
    cases agenda : m.agenda w with
    | nil => rfl
    | cons job later =>
        rw [agenda] at last first
        have looks := first job rfl
        rw [last.1.1 looks]
        cases job with
        | deviceLane => rfl
        | dataLane job => cases job <;> first | rfl | cases looks
        | _ => cases looks
  batches := run.batched

def departingListener : ListenerSpec Op :=
  { name := "a", script := [⟨.frame, some 0, [.removeDataListener (.named "a"), .addDataListener (.named "b")]⟩] }

def departingSession : List Moment × Machine :=
  act (.report ⟨1⟩ (.received ⟨4⟩ [9])) (rounds [(9, 0), (9, 1)])
    (act (.report ⟨1⟩ (.received ⟨4⟩ [8])) (rounds [(9, 0), (24, 1)])
      (act (.report ⟨1⟩ (.received ⟨4⟩ [7])) (rounds [(9, 0)])
        (act (.report ⟨1⟩ (.connected {} ⟨4⟩)) (rounds [(24, 0), (2, 1)])
          (solo quietConfig [] [.addDataListener (.fresh departingListener)]))))

theorem called_of_departing : ListenersCalled departingSession.1 departingSession.2 ∧
    (roundsOf ⟨1⟩ departingSession.1).map (fun r => (r.listeners, r.batch.length)) = [([⟨0⟩], 2), ([⟨1⟩], 1)] ∧
    (heardFrom ⟨1⟩ departingSession.1).map (·.1) = [⟨0⟩, ⟨0⟩, ⟨1⟩] ∧
    registered .data departingSession.1 = [⟨1⟩] := by
  refine ⟨listeners_called (act_run (act_run (act_run (act_run (solo_run _ _ _) _ _) _ _) _ _) _ _), ?_⟩
  decide +kernel

end TransportHub
