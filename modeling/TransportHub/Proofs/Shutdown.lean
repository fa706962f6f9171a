import TransportHub.Proofs.Aftermath
import TransportHub.Proofs.Balance
import TransportHub.Proofs.Links
/-!
What a shutdown leaves behind. One that comes to its end leaves nothing registered, nothing connected and
nobody asleep; one that a panic cuts short is never made up for.
-/

set_option autoImplicit false

namespace TransportHub

open DataLanes (Slot)

variable {config : Config} {hooks : List Hook} {past : List Moment} {m : Machine} {t u : ThreadId}
  {job : Job} {later : List Job} {x : Moment} {id : LaneId} {c : ConnectionHandle} {slot : Slot} {k : Job → Bool}

theorem Run.performed (single : Once k) (always : ∀ ids join, weight (Job.ends k) (HubJob.shutDownAll ids join) = 1)
    (run : Run config hooks past m) (managed : ∀ x ∈ past, x.managed) :
    (if m.hub.terminating then 1 else 0) =
      total (fun x => if k x.job then 1 else 0) past + m.load (Job.ends k) + total (lost (Job.ends k)) past := by
  have law := run.balance (G := Moment.managed) (a := fun _ => 0) (b := fun x => if k x.job then 1 else 0)
    (q := fun h => if h.terminating then 1 else 0) (r := fun _ => 0) single.inner rfl (fun _ => ⟨rfl, rfl⟩)
    (fun _ _ _ => ⟨rfl, by simp [single.panic]⟩) ?carry managed
  · rw [total_none] at law
    omega
  case carry =>
    intro past m t job later _ _ _ _ here
    by_cases raises : job = .hub .raiseTermination
    · subst raises
      obtain ⟨on, next⟩ := Once.raised m t
      have logs : (Job.logHub .shuttingDown).ends k = 0 := Once.ends_none (single.trails _ rfl) fun none => by cases none
      have takes : (Job.acquire .lifecycle).ends k = 0 := Once.ends_none (single.locks _).1 fun none => by cases none
      have gives : (Job.release .lifecycle).ends k = 0 := Once.ends_none (single.locks _).2 fun none => by cases none
      have stops : (Job.hub .stopAdapters).ends k = 1 := rfl
      have raise : (Job.hub .raiseTermination).ends k = 0 := Once.ends_none single.apart.1 fun none => by cases none
      rw [next, on, single.apart.1, raise]
      cases m.hub.terminating <;> simp [logs, takes, gives, stops]
    · have still := (steady_exec m t job here).terminating raises
      rw [still]
      by_cases stops : job = .hub .stopAdapters
      · subst stops
        have next : weight (Job.ends k) ((Job.hub .stopAdapters).exec m t).2 = 1 := always _ _
        have one : (Job.hub .stopAdapters).ends k = 1 := rfl
        rw [single.apart.2, one, next]
        simp only [Bool.false_eq_true, if_false]
      · have none : weight (Job.ends k) (job.exec m t).2 = 0 := weight_next_apart single.ends_source m t job fun source => by
          rcases source with raise | stop | ⟨op, same, foreign⟩
          · exact raises raise
          · exact stops stop
          · rw [here op same] at foreign
            cases foreign
        have same : job.ends k = if k job then 1 else 0 := by
          unfold Job.ends
          split
          · exact absurd rfl stops
          · rfl
        rw [none, same]
        dsimp only
        omega

theorem weight_withdraws
    (apart : ∀ job : Job, (∃ id, job = .registry (.withdraw id .shutdown)) ∨ job = .acquire .registry → job.ends k = 0)
    (ids : List AdapterId) : weight (Job.ends k) (ids.flatMap (Plan.withdraw · .shutdown)) = 0 :=
  weight_zero fun job member => apart job (withdraws_cases member).symm

theorem halting_always (ids : List AdapterId) (join : Bool) : weight (Job.ends halts) (HubJob.shutDownAll ids join) = 1 := by
  rw [shutdown_split, weight_append, weight_withdraws]
  · cases join <;> rfl
  · rintro job (⟨id, rfl⟩ | rfl) <;> rfl

theorem closing_always (ids : List AdapterId) (join : Bool) : weight (Job.ends closesLanes) (HubJob.shutDownAll ids join) = 1 := by
  rw [shutdown_split, weight_append, weight_withdraws]
  · cases join <;> rfl
  · rintro job (⟨id, rfl⟩ | rfl) <;> rfl

theorem halting_once : Once halts where
  source leads here := .inl (teardown_source leads (.inr here))
  once ids join := Nat.le_of_eq (halting_always ids join)
  fresh _ _ _ fresh _ member := (fresh_final fresh member).2.2
  trails _ trails := (trails_final trails).2.2
  locks _ := ⟨rfl, rfl⟩
  apart := ⟨rfl, rfl⟩
  panic := rfl
  delivered _ := rfl

theorem Run.closed_slots (run : Run config hooks past m) (closed : m.hub.dataLanes.closed = true) : m.hub.dataLanes.slots = {} := by
  refine Table.ext_get? fun c => ?_
  refine Run.induct (G := fun _ => True) (P := fun _ m => m.hub.dataLanes.closed = true → m.hub.dataLanes.slots.get? c = none)
    ?construct ?assemble ?call ?client ?carry ?unwind run (fun _ _ => trivial) closed
  case construct | assemble => exact fun none => by cases none
  case call => exact fun _ _ before _ => before
  case client => exact fun _ _ _ before => before
  case carry =>
    intro past m t job later _ before _ _ _ _ closed
    rw [hub_carry, slots_maps ⟨m, t, job, later⟩ c]
    rw [hub_carry, closed_exec, Bool.or_eq_true] at closed
    have empty : closesLanes job = false → m.hub.dataLanes.slots.get? c = none := fun open_ =>
      before (closed.resolve_right fun closes => by rw [open_] at closes; cases closes)
    cases job with
    | dataLane job =>
        cases job with
        | close => rfl
        | publish other slot =>
            have shut : m.hub.dataLanes.closed = true := closed.resolve_right fun none => by cases none
            have unpublished : Moment.publishes ⟨m, t, .dataLane (.publish other slot), later⟩ = none :=
              by simp [Moment.publishes, shut]
            simp only [Moment.maps, unpublished, empty rfl]
            split <;> rfl
        | stop other =>
            simp only [Moment.maps, empty rfl]
            split <;> rfl
        | _ => exact empty rfl
    | _ => exact empty rfl
  case unwind =>
    intro past m t later _ before _ _ closed
    rw [lanes_unwind.slots]
    exact before (lanes_unwind.closed ▸ closed)

theorem Run.closed_ends (run : Run config hooks past m) (managed : ∀ x ∈ past, x.managed) (closed : m.hub.dataLanes.closed = true) :
    m.hub.terminating = true := by
  obtain ⟨x, seen, closes⟩ := run.closed.mp closed
  have once := run.ends_once closing_final.toOnce managed
  have one := total_mem (g := fun x => if closesLanes x.job then 1 else 0) seen
  simp only [closes, if_true] at one
  split at once
  · assumption
  · omega

def wakesLane : Job → Bool
  | .dataLane job => (job matches .wake _)
  | _ => false

theorem wake_source {j : Job} (leads : job.leads j = true) (wakes : wakesLane j = true) : closesLanes job = true := by
  cases j with
  | dataLane j =>
      cases j with
      | wake id =>
          obtain ⟨join, rfl⟩ := wake_origin leads
          rfl
      | _ => cases wakes
  | _ => cases wakes

theorem Run.wakes_first (run : Run config hooks past m) (u : ThreadId) :
    Each (fun job rest => wakesLane job = false → ∀ j ∈ rest, wakesLane j = false) (m.agenda u) := by
  have alone : ∀ {agenda : List Job}, (∀ j ∈ agenda, wakesLane j = false) →
      Each (fun job rest => wakesLane job = false → ∀ j ∈ rest, wakesLane j = false) agenda := by
    intro agenda none
    induction agenda with
    | nil => trivial
    | cons job rest ih =>
        have behind := fun j member => none j (List.mem_cons_of_mem _ member)
        exact ⟨fun _ => behind, ih behind⟩
  refine Run.each (G := fun _ => True) (P := fun _ job rest => wakesLane job = false → ∀ j ∈ rest, wakesLane j = false)
    ?fresh ?next ?caught run (fun _ _ => trivial) u
  case fresh =>
    intro u agenda fresh
    exact alone (fresh.all (fun _ => rfl) rfl (fun _ => rfl) (fun _ _ => rfl) rfl fun _ => rfl)
  case next =>
    intro past m t job later _ each agenda _ _ _
    have here := each t
    rw [agenda] at here
    cases wakes : wakesLane job with
    | true =>
        cases job with
        | dataLane job => cases job <;> trivial
        | _ => cases wakes
    | false =>
        have behind := here.1 wakes
        by_cases closes : ∃ join, job = .dataLane (.close join)
        · obtain ⟨join, rfl⟩ := closes
          simp only [Job.exec, DataLaneJob.exec]
          refine each_append.mpr ⟨each_of_forall fun j member _ unwoken => ?_, ?_⟩
          · obtain ⟨slot, _, rfl⟩ := List.mem_map.mp member
            cases unwoken
          · have joins : ∀ j ∈ (if join = true then (m.hub.dataLanes.close.2.1 ++ m.hub.dataLanes.close.1.map (·.worker)).map
                DataLaneJob.joinWorker else []), wakesLane j = false := by
              intro j member
              split at member
              · obtain ⟨worker, _, rfl⟩ := List.mem_map.mp member
                rfl
              · cases member
            exact each_imp (fun j rest lonely unwoken k member => (List.mem_append.mp member).elim (lonely unwoken k)
              (behind k)) (alone joins)
        · have none : ∀ j ∈ (job.exec m t).2, wakesLane j = false := fun j member => by
            cases here : wakesLane j with
            | false => rfl
            | true =>
                have closing := wake_source (leads_exec m t job j member) here
                cases job with
                | dataLane job => cases job <;> first | exact absurd ⟨_, rfl⟩ closes | cases closing
                | _ => cases closing
          exact each_imp (fun j rest lonely unwoken k member => (List.mem_append.mp member).elim (lonely unwoken k)
            (behind k)) (alone none)
  case caught =>
    intro u d rest each
    have behind := each.1 rfl
    exact ⟨fun _ j member => (List.mem_cons.mp member).elim (fun same => same ▸ rfl) (behind j), fun _ => behind, each.2⟩

theorem Run.halts_behind (run : Run config hooks past m) (managed : ∀ x ∈ past, x.managed) (u : ThreadId) :
    Each (fun job rest => closesLanes job = true ∨ wakesLane job = true → ∃ j ∈ rest, halts j = true) (m.agenda u) := by
  refine Run.each (G := Moment.managed) (P := fun _ job rest => closesLanes job = true ∨ wakesLane job = true →
    ∃ j ∈ rest, halts j = true)
    ?fresh ?next ?caught run managed u
  case fresh =>
    intro u agenda fresh
    have open_ : ∀ j ∈ agenda, (closesLanes j || wakesLane j) = false :=
      fresh.all (fun _ => rfl) rfl (fun _ => rfl) (fun _ _ => rfl) rfl fun _ => rfl
    refine each_of_forall fun j member rest closes => ?_
    rw [← Bool.or_eq_true, open_ j member] at closes
    cases closes
  case next =>
    intro past m t job later _ each agenda _ _ here
    have mine := each t
    rw [agenda] at mine
    by_cases stops : job = .hub .stopAdapters
    · subst stops
      simp only [Job.exec, HubJob.exec, shutdown_split]
      refine each_append.mpr ⟨each_of_forall fun j _ _ _ => ⟨.hub .halt, by simp, rfl⟩,
        fun _ => ⟨.hub .halt, by simp, rfl⟩, fun _ => ⟨.hub .halt, by simp, rfl⟩, ?_⟩
      refine each_of_forall fun j member _ closes => ?_
      have neither : closesLanes j = false ∧ wakesLane j = false := by
        rcases List.mem_append.mp (show j ∈ (if m.hub.config.joinWorkers = true then [Job.deviceLane .join] else []) ++
            [.hub .clearConnections, .hub .halt, Job.logHub .shutDown] from member) with joins | last
        · split at joins
          · cases List.mem_singleton.mp joins
            exact ⟨rfl, rfl⟩
          · cases joins
        · simp only [List.mem_cons, List.not_mem_nil, or_false] at last
          rcases last with rfl | rfl | rfl <;> exact ⟨rfl, rfl⟩
      rw [neither.1, neither.2] at closes
      rcases closes with none | none <;> cases none
    · refine each_of_forall fun j member rest closes => ?_
      have leads := leads_exec m t job j member
      rcases closes with closes | wakes
      · rcases final_source leads (.inl closes) with stop | ⟨op, same, foreign⟩
        · exact absurd stop stops
        · rw [here op same] at foreign
          cases foreign
      · obtain ⟨j, member, halts⟩ := mine.1 (.inl (wake_source leads wakes))
        exact ⟨j, List.mem_append_right _ member, halts⟩
  case caught =>
    intro u d rest each
    refine ⟨fun none => ?_, fun none => ?_, each.2⟩ <;> rcases none with none | none <;> cases none

def Job.rouses (id : LaneId) : Job → Bool
  | .dataLane (.requestStop other) | .dataLane (.wake other) => other = id
  | .dataLane (.publish _ slot) => slot.lane = id
  | _ => false

theorem rouses_cases (rouses : job.rouses id = true) : wakesLane job = true ∨ job.links = true := by
  cases job with
  | dataLane job =>
      cases job with
      | wake => exact .inl rfl
      | requestStop | publish => exact .inr rfl
      | _ => cases rouses
  | _ => cases rouses

def Alert (id : LaneId) (m : Machine) : Prop :=
  (∃ lane, m.hub.dataLanes.lane? id = some lane ∧ lane.parked = false ∧ (lane.stopping = true ∨ m.hub.terminating = true)) ∨
    (∃ c slot, m.hub.dataLanes.slots.get? c = some slot ∧ slot.lane = id) ∨ ∃ u, ∃ job ∈ m.agenda u, job.rouses id = true

theorem awake_turn (id : LaneId) (job : Job) {lane : DataLane} (awake : lane.parked = false)
    (bound : lane.stopping = true ∨ m.hub.terminating = true) :
    (job.turn m id lane).parked = false ∧ ((job.turn m id lane).stopping = true ∨ m.hub.terminating = true) := by
  cases job with
  | dataLane j =>
      cases j with
      | requestStop | wake | push =>
          simp only [Job.turn]
          split
          · simp [DataLane.requestStop, DataLane.wake, DataLane.push, bound]
          · exact ⟨awake, bound⟩
      | look other =>
          simp only [Job.turn]
          split
          · rcases DataLane.look_cases m.hub.terminating lane with
              ⟨_, _, seen⟩ | ⟨_, _, seen⟩ | ⟨running, _, going, seen⟩ | ⟨_, _, seen⟩ <;> rw [seen]
            · exact ⟨awake, bound⟩
            · exact ⟨awake, bound⟩
            · rw [running, going] at bound
              rcases bound with none | none <;> cases none
            · exact ⟨awake, bound⟩
          · exact ⟨awake, bound⟩
      | _ => exact ⟨awake, bound⟩
  | _ => exact ⟨awake, bound⟩

theorem Run.wakes_ending (run : Run config hooks past m) (managed : ∀ x ∈ past, x.managed) (pending : job ∈ m.agenda u)
    (wakes : wakesLane job = true) : m.hub.terminating = true ∧ ∀ x ∈ past, x.job ≠ .hub .halt := by
  obtain ⟨front, back, split, behind⟩ := each_mem (run.halts_behind managed u) pending
  obtain ⟨j, member, here⟩ := behind (.inr wakes)
  have due : j.ends halts = 1 := by rw [halts_job here]; rfl
  have inside : j ∈ m.agenda u := by rw [split]; exact List.mem_append_right _ (List.mem_cons_of_mem _ member)
  have once := run.ends_once halting_once managed
  have bound := Nat.le_trans (weight_mem (f := Job.ends halts) inside) (load_mem u)
  refine ⟨?_, fun x seen same => ?_⟩
  · split at once
    · assumption
    · omega
  · have one := total_mem (g := fun x => if halts x.job then 1 else 0) seen
    have halting : halts x.job = true := by rw [same]; rfl
    simp only [halting, if_true] at one
    split at once <;> omega

theorem Alert.carry {lane : DataLane} (alert : Alert id m) (run : Run config hooks past m) (managed : ∀ x ∈ past, x.managed)
    (known : m.hub.dataLanes.lane? id = some lane) (agenda : m.agenda t = job :: later) : Alert id (m.carry t job later) := by
  have next : ∀ j ∈ (job.exec m t).2, j ∈ (m.carry t job later).agenda t := fun j member => by
    rw [agenda_carry_self agenda]
    exact List.mem_append_left _ member
  have turns : (m.carry t job later).hub.dataLanes.lane? id = some (job.turn m id lane) := by rw [hub_carry, lane_exec m t job known]
  rcases alert with ⟨lane', known', awake, bound⟩ | ⟨c, slot, here, rfl⟩ | ⟨u, j, member, rouses⟩
  · cases known.symm.trans known'
    obtain ⟨awake, bound⟩ := awake_turn id job awake bound
    exact .inl ⟨_, turns, awake, bound.imp_right (terminating_exec m t job)⟩
  · rcases slot_moves m t job later here with still | ⟨_, wakes⟩ | ⟨_, _, stops⟩
    · exact .inr (.inl ⟨c, slot, still, rfl⟩)
    · exact .inr (.inr ⟨t, _, next _ wakes, decide_eq_true rfl⟩)
    · exact .inr (.inr ⟨t, _, next _ stops, decide_eq_true rfl⟩)
  · rcases mem_agenda_carry run agenda member with still | ⟨rfl, rfl⟩
    · exact .inr (.inr ⟨u, j, still, rouses⟩)
    · cases j with
      | dataLane j =>
          cases j with
          | requestStop other =>
              refine .inl ⟨_, turns, ?_⟩
              simp [Job.turn, of_decide_eq_true rouses, DataLane.requestStop]
          | wake other =>
              have ending := terminating_exec m u (.dataLane (.wake other)) (run.wakes_ending managed member rfl).1
              refine .inl ⟨_, turns, ?_, .inr ending⟩
              simp [Job.turn, of_decide_eq_true rouses, DataLane.wake]
          | publish c slot =>
              cases of_decide_eq_true rouses
              cases vacant : Moment.publishes ⟨m, u, .dataLane (.publish c slot), later⟩ with
              | some new =>
                  have maps := slots_maps ⟨m, u, .dataLane (.publish c slot), later⟩ c
                  simp only [Moment.maps, vacant, if_true] at maps
                  obtain ⟨_, same, _⟩ := publishes_job vacant
                  cases same
                  exact .inr (.inl ⟨c, slot, maps, rfl⟩)
              | none =>
                  refine .inr (.inr ⟨u, .dataLane (.requestStop slot.lane), next _ ?_, decide_eq_true rfl⟩)
                  simp only [Moment.publishes, Bool.or_eq_true] at vacant
                  simp only [Job.exec, DataLaneJob.exec]
                  split
                  · simp
                  · split
                    · simp
                    · simp_all
          | _ => cases rouses
      | _ => cases rouses

theorem Run.alert (run : Run config hooks past m) (orderly : ∀ x ∈ past, x.orderly) :
    ∀ id lane, m.hub.dataLanes.lane? id = some lane → Alert id m := by
  refine Run.induct_all (G := Moment.orderly) (P := fun _ m => ∀ id lane, m.hub.dataLanes.lane? id = some lane → Alert id m)
    ?construct ?assemble ?call ?client ?carry ?unwind run orderly
  case construct | assemble => exact fun id lane none => by cases none
  case call =>
    intro past m op _ before idle id lane known
    exact (before id lane known).imp_right (Or.imp_right
      (Exists.imp fun _ => Exists.imp fun _ => And.imp_left (mem_agenda_call idle op)))
  case client =>
    intro past m name op _ before id lane known
    exact (before id lane known).imp_right (Or.imp_right
      (Exists.imp fun _ => Exists.imp fun _ => And.imp_left (mem_agenda_client name op)))
  case carry =>
    intro past m t job later run before agenda _ _ old _ id lane known
    cases here : m.hub.dataLanes.lane? id with
    | some lane => exact (before id lane here).carry run (fun x seen => (old x seen).1) here agenda
    | none =>
        obtain ⟨c, rfl, started, place, _⟩ := lane_new m t job here known
        refine .inr (.inr ⟨t, .dataLane (.publish c ⟨id, ⟨m.threads.length⟩⟩), ?_, decide_eq_true rfl⟩)
        obtain ⟨val⟩ := id
        cases place
        rw [agenda_carry_self agenda]
        simp only [Job.exec, DataLaneJob.exec, started, DataLanes.openLane, Machine.spawn]
        exact List.mem_append_left _ (List.mem_cons_of_mem _ (List.mem_singleton.mpr rfl))
  case unwind =>
    intro past m t later run before agenda old now id lane known
    have lanes : (m.unwind t later).hub.dataLanes.lane? id = m.hub.dataLanes.lane? id := by
      simp only [DataLanes.lane?, lanes_unwind.lanes]
    rcases before id lane (lanes ▸ known) with ⟨lane', known', awake, bound⟩ | ⟨c, slot, found, same⟩ | ⟨u, j, member, rouses⟩
    · exact .inl ⟨lane', lanes.trans known', awake, bound.imp_right terminating_unwind.trans⟩
    · exact .inr (.inl ⟨c, slot, by rw [lanes_unwind.slots]; exact found, same⟩)
    · refine .inr (.inr ⟨u, j, ?_, rouses⟩)
      by_cases wakes : wakesLane j = true
      · by_cases mine : u = t
        · -- a thread that panics has no worker left to wake
          subst mine
          have first := run.wakes_first u
          rw [agenda] at first member
          rcases List.mem_cons.mp member with rfl | behind
          · cases rouses
          · rw [first.1 rfl j behind] at wakes
            cases wakes
        · rwa [agenda_unwind_other mine]
      · have pinned : Fence.queues.pinned j = true := by
          cases j with
          | dataLane j => cases j <;> first | rfl | exact absurd rfl wakes | cases rouses
          | _ => cases rouses
        refine mem_agenda_unwind agenda member (fun inside => ?_) (fun d same => ?_) fun same => ?_
        · rw [run.queues_stay agenda now.2 j inside] at pinned
          cases pinned
        · subst same
          cases rouses
        · subst same
          cases rouses

theorem Run.lanes_awake (run : Run config hooks past m) (orderly : ∀ x ∈ past, x.orderly) (halted : ∃ x ∈ past, x.job = .hub .halt)
    (unlinking : m.unlinking) : ∀ lane ∈ m.hub.dataLanes.lanes, lane.parked = false := by
  intro lane member
  have managed : ∀ x ∈ past, x.managed := fun x seen => (orderly x seen).1
  obtain ⟨i, known⟩ := List.getElem?_of_mem member
  have known : m.hub.dataLanes.lane? ⟨i⟩ = some lane := known
  rcases run.alert orderly ⟨i⟩ lane known with ⟨lane', known', awake, _⟩ | ⟨c, slot, found, _⟩ | ⟨u, j, pending, rouses⟩
  · cases known.symm.trans known'
    exact awake
  · obtain ⟨x, seen, here⟩ := halted
    rw [run.closed_slots (run.closed_before managed ⟨x, seen, .inr here⟩), Table.get?_empty] at found
    cases found
  · obtain ⟨x, seen, here⟩ := halted
    rcases rouses_cases rouses with wakes | links
    · exact absurd here ((run.wakes_ending managed pending wakes).2 x seen)
    · rw [unlinking u j pending] at links
      cases links

-- What a shutdown that came to its end leaves behind.
structure Dismantled (past : List Moment) (m : Machine) : Prop where
  unregistered : ∀ id, m.hub.registry.contains id = false
  stopped : (issued past).length < UInt32.size →
    ∀ id, Unhurt id past → m.quiet → 0 < total (fun x => x.job.assigns x.machine id) past →
    total (fun x => x.job.stops id) past = 1
  devices : m.hub.registry.aggregate = []
  closed : m.hub.dataLanes.closed = true
  slots : m.hub.dataLanes.slots = {}
  connections : (∀ x ∈ past, x.hookSafe) → m.unlinking → m.hub.connections = {}
  deviceAwake : m.hub.deviceLane.parked = false
  lanesAwake : (∀ x ∈ past, x.hookSafe) → m.unlinking → ∀ lane ∈ m.hub.dataLanes.lanes, lane.parked = false

theorem Run.dismantled (run : Run config hooks past m) (managed : ∀ x ∈ past, x.managed)
    (halted : ∃ x ∈ past, x.job = .hub .halt) : Dismantled past m := by
  have emptied := run.emptied managed halted
  have gone : ∀ id, m.hub.registry.contains id = false := fun id => by
    rw [← Bool.not_eq_true, Registry.contains_eq_true_iff, emptied]
    exact List.not_mem_nil
  have closed := run.closed_before managed (halted.imp fun _ here => ⟨here.1, .inr here.2⟩)
  refine ⟨gone, fun few id unhurt quiet => ((run.course managed (run.counted few) id).life unhurt).unregistered quiet (gone id), ?_,
    closed, run.closed_slots closed, fun hooked => run.forgotten managed hooked halted, (run.device_awake managed halted).2,
    fun hooked => run.lanes_awake (fun x seen => ⟨managed x seen, hooked x seen⟩) halted⟩
  have none : m.hub.registry.entries = [] := List.map_eq_nil_iff.mp emptied
  simp [Registry.aggregate, none]

-- As soon as termination has begun the shutdown is over, under way, or cut short by a panic; nobody makes
-- up for one that was cut short.
structure ShutdownOutcome (past : List Moment) (m : Machine) : Prop where
  one : m.hub.terminating = true → total (fun x => if halts x.job then 1 else 0) past + m.load (Job.ends halts) +
    total (lost (Job.ends halts)) past = 1
  complete : (∃ x ∈ past, x.job = .hub .halt) → Dismantled past m
  cut : 0 < total (lost (Job.ends closesLanes)) past → m.hub.dataLanes.closed = false ∧ m.load (Job.ends closesLanes) = 0 ∧
    ∀ x ∈ past, x.job ≠ .hub .clearConnections ∧ x.job ≠ .hub .halt

theorem shutdown_outcome (run : Run config hooks past m) (managed : ∀ x ∈ past, x.managed) : ShutdownOutcome past m where
  one ending := by
    have law := run.performed halting_once halting_always managed
    rw [if_pos ending] at law
    exact law.symm
  complete := run.dismantled managed
  cut lost := by
    have law := run.performed closing_final.toOnce closing_always managed
    have bound : (if m.hub.terminating then 1 else 0) ≤ 1 := by split <;> omega
    have open_ : m.hub.dataLanes.closed = false := by
      cases closed : m.hub.dataLanes.closed with
      | false => rfl
      | true =>
          obtain ⟨x, seen, closes⟩ := run.closed.mp closed
          have one := total_mem (g := fun x => if closesLanes x.job then 1 else 0) seen
          simp only [closes, if_true] at one
          omega
    refine ⟨open_, by omega, fun x seen => ?_⟩
    refine ⟨fun here => ?_, fun here => ?_⟩
    · rw [run.closed_before managed ⟨x, seen, .inl here⟩] at open_
      cases open_
    · rw [run.closed_before managed ⟨x, seen, .inr here⟩] at open_
      cases open_

-- A connection is reported, and its worker goes to sleep.
def connectedSession (stops : Op) : List Moment × Machine :=
  act (.report ⟨1⟩ (.connected {} ⟨4⟩)) (turns 24 2 0) (solo quietConfig [] [stops])

def dismantledSession : List Moment × Machine := act .shutdown (turns 18 3 7) (connectedSession (.addAdapter (.named "a")))

theorem shutdown_of_one : ShutdownOutcome dismantledSession.1 dismantledSession.2 ∧
    (∃ x ∈ dismantledSession.1, x.job = .hub .halt) ∧
    (connectedSession (.addAdapter (.named "a"))).2.hub.dataLanes.lanes.map (·.parked) = [true] ∧
    dismantledSession.2.hub.dataLanes.lanes.map (·.parked) = [false] ∧
    (issued dismantledSession.1).length = 1 ∧
      total (fun x => x.job.stops ⟨1⟩) dismantledSession.1 = 1 ∧ dismantledSession.2.agendas.all List.isEmpty = true := by
  refine ⟨shutdown_outcome (act_run (act_run (solo_run _ _ _) _ _) _ _) ?_, ?_⟩
  all_goals decide +kernel

-- The adapter panics when it is stopped; shutting down again, or giving the hub up, does not help.
def cutSession : List Moment × Machine :=
  act .drop (turns 40 0 0) (act .shutdown (turns 40 0 0) (act .shutdown (turns 40 0 0) (connectedSession (faulty "a" .stop))))

theorem shutdown_cut_short : Run quietConfig [] cutSession.1 cutSession.2 ∧ (∀ x ∈ cutSession.1, x.managed ∧ x.hookSafe) ∧
    cutSession.2.agenda .caller = [] ∧ (∀ agenda ∈ cutSession.2.agendas, ∀ job ∈ agenda, job.links = false) ∧
    (cutSession.1.filter (·.job matches .perform .shutdown)).length = 2 ∧
    cutSession.2.hub.connections.get? ⟨4⟩ = some {} ∧ cutSession.2.hub.dataLanes.closed = false ∧
    cutSession.2.hub.dataLanes.lanes.map (·.parked) = [true] := by
  refine ⟨act_run (act_run (act_run (act_run (solo_run _ _ _) _ _) _ _) _ _) _ _, ?_⟩
  decide +kernel

end TransportHub
