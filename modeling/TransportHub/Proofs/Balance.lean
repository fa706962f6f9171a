import TransportHub.Proofs.DeviceWorker
import TransportHub.Proofs.Epochs
/-!
The balance after a shutdown. Once the hub is halted by somebody who is no worker, all workers have
ended; every callback that was counted was handed over or thrown away, unless the device lane never had
a worker.
-/

set_option autoImplicit false

namespace TransportHub

open DataLanes (Slot)

variable {config : Config} {hooks : List Hook} {past : List Moment} {m : Machine} {t u w : ThreadId}
  {job : Job} {later : List Job} {x : Moment} {slot : Slot} {id : LaneId}

def Job.begins : Job → Nat
  | .participant (.deliver d) => if d.called = 0 then 1 else 0
  | _ => 0

theorem weight_ones {α : Type} {f : Job → Nat} {g : α → Job} (one : ∀ a, f (g a) = 1) (l : List α) :
    weight f (l.map g) = l.length := by
  induction l with
  | nil => rfl
  | cons a rest ih =>
      rw [List.map_cons, weight_cons, one, ih, List.length_cons]
      exact Nat.add_comm 1 rest.length

theorem undelivered_look (m : Machine) (t : ThreadId) (job : Job) (looks : job.looks = true) :
    job.takes m = weight undelivered (job.exec m t).2 := by
  cases job with
  | deviceLane job =>
      cases job with
      | look =>
          simp only [Job.exec, DeviceLaneJob.exec, DeviceLaneJob.lookAtQueue, Job.takes]
          rcases DeviceLane.look_cases m.hub.terminating m.hub.deviceLane with
            ⟨_, seen⟩ | ⟨_, _, seen⟩ | ⟨_, _, seen⟩ <;> rw [seen] <;> dsimp only
          · split <;> rfl
          · rfl
          · rw [List.cons_append, weight_cons, weight_append, weight_ones fun _ => rfl]
            simp [DeviceLane.Look.batch, undelivered, Job.logDeviceLane]
      | _ => cases looks
  | dataLane job =>
      cases job with
      | look id =>
          simp only [Job.exec, DataLaneJob.exec, Job.takes]
          cases m.hub.dataLanes.lane? id with
          | none => rfl
          | some lane =>
              simp only [DataLaneJob.lookAtLane, Option.elim_some]
              rcases DataLane.look_cases m.hub.terminating lane with
                ⟨_, _, seen⟩ | ⟨_, _, seen⟩ | ⟨_, _, _, seen⟩ | ⟨_, _, seen⟩ <;> rw [seen] <;> dsimp only
              · split <;> rfl
              · rfl
              · rfl
              · simp [DataLane.Look.batch, undelivered]
      | _ => cases looks
  | _ => cases looks

theorem undelivered_exec (m : Machine) (t : ThreadId) (job : Job) (fair : job.fair) :
    job.takes m + undelivered job = job.begins + weight undelivered (job.exec m t).2 := by
  cases crew : job.crew with
  | false =>
      have none : undelivered job = 0 := Classical.byContradiction fun here => by
        rw [undelivered_crew here] at crew
        cases crew
      have next : weight undelivered (job.exec m t).2 = 0 := weight_next_apart (S := fun job => job.crew = true)
        (fun leads here => crew_source leads (undelivered_crew here)) m t job fun same => by
          rw [crew] at same
          cases same
      rw [none, next]
      cases job with
      | deviceLane job | dataLane job | participant job => cases job <;> first | rfl | cases crew
      | _ => rfl
  | true =>
      cases job with
      | deviceLane job =>
          cases job with
          | look => exact (undelivered_look m t (.deviceLane .look) rfl).trans (Nat.zero_add _).symm
          | _ => cases crew
      | dataLane job =>
          cases job with
          | look id => exact (undelivered_look m t (.dataLane (.look id)) rfl).trans (Nat.zero_add _).symm
          | snapshot c batch =>
              simp only [Job.exec, DataLaneJob.exec, weight_cons, weight_ones (f := undelivered) (g := fun callback =>
                Job.dataLane (.handOver c callback m.hub.dataLanes.listeners.snapshot)) fun _ => rfl]
              simp [Job.takes, Job.begins, undelivered, Job.logDataLane]
          | handOver c callback listeners =>
              simp only [Job.exec, DataLaneJob.exec, DataLaneJob.deliverOne]
              split <;> rfl
          | mismatch => rfl
          | _ => cases crew
      | participant job =>
          cases job with
          | deliver d =>
              simp only [Job.exec, ParticipantJob.exec, Job.takes, Job.begins, undelivered, Nat.zero_add]
              cases d.listeners[d.called]? <;> rfl
          | delivered d =>
              have called : d.called ≠ 0 := Nat.ne_of_gt (Nat.lt_of_le_of_lt (Nat.zero_le _) fair.1)
              simp [Job.exec, ParticipantJob.exec, Job.takes, Job.begins, undelivered, called]
          | _ => cases crew
      | _ => cases crew

theorem Run.handed (run : Run config hooks past m) : total (fun x => x.job.takes x.machine) past =
    total (fun x => x.job.begins) past + m.load undelivered := by
  have law := run.ledger (a := fun x => x.job.takes x.machine) (b := fun x => x.job.begins) (q := fun _ => 0)
    (r := fun _ => 0) inner_undelivered rfl (fun _ => ⟨rfl, rfl⟩) (fun _ _ _ => ⟨rfl, rfl⟩)
    (fun {_ m t job _} run agenda _ _ => by
      have fair := run.fair t
      rw [agenda] at fair
      have step := undelivered_exec m t job fair.1
      simp only
      omega)
  have none : total (lost undelivered) past = 0 := total_lost_zero fun x member job dropped =>
    Classical.byContradiction fun here => by
      have crew := undelivered_crew here
      rw [run.crew_kept member job dropped] at crew
      cases crew
  omega

-- What comes of a look that took something.
def Job.carries : Job → Bool
  | .dataLane job => (job matches .snapshot .. | .handOver .. | .mismatch)
  | .participant job => (job matches .hear .. | .deliver _ | .delivered _)
  | _ => false

theorem undelivered_carries (here : undelivered job ≠ 0) : job.carries = true := by
  cases job with
  | dataLane job | participant job => cases job <;> first | rfl | exact absurd rfl here
  | _ => exact absurd rfl here

theorem fresh_unburdened {agenda : List Job} (fresh : Fresh config u agenda) : ∀ job ∈ agenda, job.carries = false :=
  fresh.all (fun _ => rfl) rfl (fun _ => rfl) (fun _ _ => rfl) rfl fun _ => rfl

theorem look_unburdened (m : Machine) (t : ThreadId) (job : Job) (looks : job.looks = true) (idle : job.takes m = 0) :
    weight (fun j => if j.carries then 1 else 0) (job.exec m t).2 = 0 := by
  cases job with
  | deviceLane job =>
      cases job with
      | look =>
          simp only [Job.exec, DeviceLaneJob.exec, DeviceLaneJob.lookAtQueue]
          simp only [Job.takes] at idle
          rcases DeviceLane.look_cases m.hub.terminating m.hub.deviceLane with
            ⟨_, seen⟩ | ⟨_, _, seen⟩ | ⟨_, waits, seen⟩ <;> rw [seen] at idle ⊢
          · dsimp only
            split <;> rfl
          · rfl
          · exact absurd (List.length_eq_zero_iff.mp idle) waits
      | _ => cases looks
  | dataLane job =>
      cases job with
      | look id =>
          simp only [Job.exec, DataLaneJob.exec]
          simp only [Job.takes] at idle
          cases known : m.hub.dataLanes.lane? id with
          | none => rfl
          | some lane =>
              simp only [known, Option.elim_some] at idle
              simp only [DataLaneJob.lookAtLane]
              rcases DataLane.look_cases m.hub.terminating lane with
                ⟨_, _, seen⟩ | ⟨_, _, seen⟩ | ⟨_, _, _, seen⟩ | ⟨waits, _, seen⟩ <;> rw [seen] at idle ⊢
              · dsimp only
                split <;> rfl
              · rfl
              · rfl
              · exact absurd (List.length_eq_zero_iff.mp idle) waits
      | _ => cases looks
  | _ => cases looks

theorem carries_source (m : Machine) (t : ThreadId) (job : Job) {j : Job} (member : j ∈ (job.exec m t).2)
    (carries : j.carries = true) :
    job.carries = true ∨ job.takes m ≠ 0 := by
  cases carrying : job.carries with
  | true => exact .inl rfl
  | false =>
      have leads := leads_exec m t job j member
      have looks : job.looks = true := by
        cases j with
        | dataLane j | participant j =>
            cases j <;> first
              | (cases carries; done)
              | (dsimp only [Job.leads] at leads; split at leads <;> first | rfl | cases carrying | cases leads)
        | _ => cases carries
      refine .inr fun idle => ?_
      have none := look_unburdened m t job looks idle
      have one := weight_mem (f := fun j => if j.carries then 1 else 0) member
      simp only [carries, if_true] at one
      omega

theorem Run.burdened (run : Run config hooks past m) (u : ThreadId) : Each (fun job _ => job.carries = true →
    ∃ x ∈ past, x.thread = u ∧ x.job.takes x.machine ≠ 0) (m.agenda u) := by
  refine (Run.sustain (G := fun _ => True) (I := fun _ _ => True)
    (P := fun past _ u job _ => job.carries = true → ∃ x ∈ past, x.thread = u ∧ x.job.takes x.machine ≠ 0)
    trivial ?fresh ?carry ?panic ?caught run fun _ _ => trivial).2 u
  case fresh =>
    exact fun _ _ => ⟨⟨fun none => (by cases none), fun none => (by cases none), trivial⟩, ⟨fun none => (by cases none), trivial⟩,
      fun _ _ => ⟨fun none => (by cases none), trivial⟩⟩
  case carry =>
    intro past m t job later run _ each agenda _ _ _
    have first := each t
    rw [agenda] at first
    refine ⟨trivial, fun _ _ _ before here => seen_before (before here), each_of_forall fun j member _ here => ?_, ?_⟩
    · rcases carries_source m t job member here with carries | took
      · exact seen_before (first.1 carries)
      · exact ⟨_, List.mem_append_right _ (List.mem_singleton.mpr rfl), rfl, took⟩
    · intro u agenda _ started recruit
      have fresh : Fresh config u agenda := fresh_recruits started (List.mem_of_getElem? recruit)
      refine each_of_forall fun j member _ here => ?_
      rw [fresh_unburdened fresh j member] at here
      cases here
  case panic =>
    exact fun _ _ _ _ _ => ⟨trivial, fun _ _ _ before here => seen_before (before here)⟩
  case caught => exact fun _ _ u d rest each => ⟨fun none => (by cases none), fun _ => each.1 rfl, each.2⟩

theorem Run.taker (run : Run config hooks past m) (seen : x ∈ past) (took : x.job.takes x.machine ≠ 0) :
    x.thread ∈ deviceCrew past ∨ ∃ slot ∈ published past, slot.worker = x.thread := by
  obtain ⟨earlier, start, reached, agenda⟩ := run.reached seen
  have first := reached.enlisted.2 x.thread
  rw [agenda] at first
  have older : ∀ y ∈ earlier, y ∈ past := fun y inside => start.subset (List.mem_append_left _ inside)
  obtain ⟨machine, thread, looker, rest⟩ := x
  cases looker with
  | deviceLane job =>
      cases job with
      | look =>
          obtain ⟨y, inside, mans⟩ := List.mem_filterMap.mp first.1
          exact .inl (List.mem_filterMap.mpr ⟨y, older y inside, mans⟩)
      | _ => exact absurd rfl took
  | dataLane job =>
      cases job with
      | look id =>
          obtain ⟨y, inside, opens⟩ := List.mem_filterMap.mp first.1
          have listed : ⟨id, thread⟩ ∈ roster past := List.mem_filterMap.mpr ⟨y, older y inside, opens⟩
          have taken : takenFrom id past ≠ [] := fun none => by
            have here := List.flatMap_eq_nil_iff.mp none _ seen
            simp only [Job.taken, if_true] at here
            simp only [Job.takes] at took
            cases known : machine.hub.dataLanes.lane? id with
            | none => exact took (by rw [known]; rfl)
            | some lane =>
                rw [known] at here took
                exact took (congrArg List.length here)
          obtain ⟨lane, _, book⟩ := run.booked_roster listed
          refine .inr ⟨⟨id, thread⟩, run.slot_published listed fun none => taken ?_, rfl⟩
          have balance := book.balance
          rw [none] at balance
          exact (List.append_eq_nil_iff.mp (List.append_eq_nil_iff.mp balance.symm).1).1
      | _ => exact absurd rfl took
  | _ => exact absurd rfl took

-- A shutdown is over that was called by somebody who is no worker.
def Concluded (past : List Moment) : Prop := ∃ x ∈ past, x.job = .hub .halt ∧ ¬ dispatches past x.thread

instance (job : Job) : Decidable (job = .hub .halt) :=
  decidable_of_iff ((job matches .hub .halt) = true) <| by
    cases job with
    | hub job => cases job <;> simp
    | _ => simp

instance (past : List Moment) (t : ThreadId) : Decidable (dispatches past t) :=
  inferInstanceAs (Decidable (t ∈ deviceCrew past ∨ ∃ slot ∈ roster past, slot.worker = t))

instance (past : List Moment) : Decidable (Concluded past) :=
  inferInstanceAs (Decidable (∃ x ∈ past, x.job = .hub .halt ∧ ¬ dispatches past x.thread))

structure Vacated (past : List Moment) (m : Machine) : Prop where
  lanes : ∀ slot ∈ landed past, m.agenda slot.worker = []
  device : ∀ w ∈ deviceCrew past, m.agenda w = []

theorem Run.others_ended (run : Run config hooks past m) (joins : config.joinWorkers = true) (orderly : ∀ x ∈ past, x.orderly)
    (seen : x ∈ past) (halts : x.job = .hub .halt) :
    (∀ slot ∈ landed past, slot.worker ≠ x.thread → m.agenda slot.worker = []) ∧
      ∀ w ∈ deviceCrew past, w ≠ x.thread → m.agenda w = [] := by
  have managed : ∀ x ∈ past, x.managed := fun x member => (orderly x member).1
  refine ⟨fun slot member other => ?_, fun w member other => ?_⟩
  · exact (run.lanes_waited joins orderly slot member).resolve_right fun barred =>
      (barred x.thread other.symm).behind x seen rfl halts
  · exact (run.device_waited joins managed w member).resolve_right fun barred =>
      (barred x.thread other.symm).behind x seen rfl halts

theorem Run.vacated (run : Run config hooks past m) (joins : config.joinWorkers = true) (orderly : ∀ x ∈ past, x.orderly)
    (concluded : Concluded past) : Vacated past m := by
  obtain ⟨x, seen, halts, outside⟩ := concluded
  have ended := run.others_ended joins orderly seen halts
  refine ⟨fun slot member => ended.1 slot member fun same => ?_, fun w member => ended.2 w member fun same => ?_⟩
  · exact outside (.inr ⟨slot, run.landed_roster member, same⟩)
  · exact outside (.inl (same ▸ member))

theorem Run.lane_empty (run : Run config hooks past m) (vacated : Vacated past m) {lane : DataLane}
    (known : m.hub.dataLanes.lane? id = some lane) : lane.items = [] := by
  obtain ⟨slot, member, rfl⟩ := run.rostered.every id (List.getElem?_eq_some_iff.mp known).1
  have book := run.booked_roster member
  obtain ⟨lane', known', book⟩ := book
  cases known.symm.trans known'
  by_cases used : acceptedOn slot.lane past = []
  · have balance := book.balance
    rw [used] at balance
    exact (List.append_eq_nil_iff.mp balance.symm).2
  · have ended := vacated.lanes slot (published_landed (run.slot_published member used))
    cases exited : lane.exited with
    | true => exact book.empty exited
    | false =>
        have look := run.looking slot member lane known exited
        rw [ended] at look
        cases look

theorem Run.unburdened (run : Run config hooks past m) (vacated : Vacated past m) (member : job ∈ m.agenda u) :
    job.carries = false := by
  cases carries : job.carries with
  | false => rfl
  | true =>
      obtain ⟨_, _, _, burdened⟩ := each_mem (run.burdened u) member
      obtain ⟨x, seen, rfl, took⟩ := burdened carries
      have ended : m.agenda x.thread = [] := by
        rcases run.taker seen took with device | ⟨slot, inside, same⟩
        · exact vacated.device x.thread device
        · exact same ▸ vacated.lanes slot (published_landed inside)
      rw [ended] at member
      cases member

theorem Run.handed_all (run : Run config hooks past m) (vacated : Vacated past m) : m.load undelivered = 0 :=
  load_zero fun u job member => Classical.byContradiction fun here => by
    have carries := undelivered_carries here
    rw [run.unburdened vacated member] at carries
    cases carries

theorem Run.deserted_lane (run : Run config hooks past m) (vacated : Vacated past m) (manned : deviceCrew past ≠ []) :
    Deserted m := by
  obtain ⟨w, member⟩ := List.exists_mem_of_ne_nil _ manned
  refine run.deserted ((run.attended w member).resolve_left fun look => ?_)
  rw [vacated.device w member] at look
  cases look

-- After a shutdown every callback that was counted was handed to the listeners or thrown away, but for
-- those on a device lane that never had a worker, and for reports that are about to be thrown away.
structure ShutdownBalance (past : List Moment) (m : Machine) : Prop where
  enqueued : m.hub.metrics.enqueued = m.hub.metrics.discarded + total (fun x => x.job.begins) past +
    m.hub.deviceLane.queue.length + m.load underway
  manned : deviceCrew past ≠ [] → m.hub.deviceLane.queue = [] ∧ ∀ u callback, .deviceLane (.push callback) ∉ m.agenda u

theorem shutdown_balance (run : Run config hooks past m) (joins : config.joinWorkers = true)
    (managed : ∀ x ∈ past, x.managed) (hooked : ∀ x ∈ past, x.hookSafe) (concluded : Concluded past) :
    ShutdownBalance past m := by
  have vacated := run.vacated joins (fun x member => ⟨managed x member, hooked x member⟩) concluded
  refine ⟨?_, fun manned => ?_⟩
  · have lanes : (m.hub.dataLanes.lanes.map (·.items.length)).sum = 0 := sum_zero fun lane inside => by
      obtain ⟨i, known⟩ := List.getElem?_of_mem inside
      have empty : lane.items = [] := run.lane_empty vacated (show m.hub.dataLanes.lane? ⟨i⟩ = some lane from known)
      rw [empty, List.length_nil]
    have waiting : m.hub.waiting = m.hub.deviceLane.queue.length := by rw [Hub.waiting, lanes, Nat.add_zero]
    have law := run.enqueued
    have handed := run.handed
    have rest := run.handed_all vacated
    have lost := (run.nothing_lost hooked).1
    omega
  · have deserted := run.deserted_lane vacated manned
    refine ⟨deserted.queue, fun u callback inside => ?_⟩
    have bound := weight_mem (f := queueGate.guards) inside
    rw [deserted.pushes u] at bound
    exact absurd bound (Nat.not_succ_le_zero 0)

def turns (caller worker more : Nat) : List ThreadId :=
  List.replicate caller .caller ++ List.replicate worker ⟨1⟩ ++ List.replicate more .caller

-- The worker delivers the first of two reports and throws the second away.
def servedSession : List Moment × Machine :=
  act .shutdown (turns 10 3 6) (act (.report ⟨1⟩ (.disconnected {} ⟨4⟩)) (turns 18 0 0)
    (act (.report ⟨1⟩ (.disconnected {} ⟨4⟩)) (turns 18 6 0) (solo quietConfig [] [.run])))

theorem served_balance : ShutdownBalance servedSession.1 servedSession.2 ∧ deviceCrew servedSession.1 = [⟨1⟩] ∧
    servedSession.2.hub.metrics.enqueued = 2 ∧ servedSession.2.hub.metrics.discarded = 1 := by
  refine ⟨shutdown_balance (act_run (act_run (act_run (solo_run _ _ _) _ _) _ _) _ _) rfl ?_ ?_ ?_, ?_⟩
  all_goals decide +kernel

-- A hub that was never started leaves on the device lane what was reported to it.
def unservedSession : List Moment × Machine := solo quietConfig [] [.shutdown, .report ⟨1⟩ (.disconnected {} ⟨4⟩)]

theorem unserved_left_over : Run quietConfig [] unservedSession.1 unservedSession.2 ∧
    (∀ x ∈ unservedSession.1, x.managed ∧ x.hookSafe ∧ x.adapterSafe) ∧ Concluded unservedSession.1 ∧
    unservedSession.2.agendas.all List.isEmpty = true ∧ unservedSession.2.hub.metrics.enqueued = 1 ∧
    unservedSession.2.hub.metrics.discarded = 0 ∧ total (fun x => x.job.begins) unservedSession.1 = 0 := by
  refine ⟨solo_run _ _ _, ?_⟩
  decide +kernel

end TransportHub
