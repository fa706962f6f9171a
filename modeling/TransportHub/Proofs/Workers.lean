import TransportHub.Proofs.Closing
import TransportHub.Proofs.Epochs
/-!
The workers that a shutdown waits for: those of the lanes that ever found the map open, and those of the
device lane. When the hub is halted they have all ended.
-/

set_option autoImplicit false

namespace TransportHub

open DataLanes (Slot)

variable {config : Config} {hooks : List Hook} {past : List Moment} {m : Machine} {t u w : ThreadId}
  {job : Job} {later : List Job} {slot : Slot}

theorem closed_exec (m : Machine) (t : ThreadId) (job : Job) :
    (job.exec m t).1.hub.dataLanes.closed = (m.hub.dataLanes.closed || closesLanes job) := by
  rcases dataLane_or job with ⟨j, rfl⟩ | apart
  · cases j with
    | stop c =>
        simp only [Job.exec, DataLaneJob.exec, DataLanes.withdraw, closesLanes]
        cases m.hub.dataLanes.slots.get? c <;> simp
    | spawn | publish | push | look =>
        simp only [Job.exec, DataLaneJob.exec, DataLaneJob.lookAtLane, closesLanes]
        repeat' split
        all_goals exact (Bool.or_false _).symm
    | close join => exact (Bool.or_true _).symm
    | _ => exact (Bool.or_false _).symm
  · have same := (dataLanes_exec m t job apart).2.2.1
    have none : closesLanes job = false := by
      cases job with
      | dataLane j => exact absurd rfl (apart j)
      | _ => rfl
    rw [same, none, Bool.or_false]

theorem Run.closed (run : Run config hooks past m) :
    m.hub.dataLanes.closed = true ↔ ∃ x ∈ past, closesLanes x.job = true := by
  refine Run.induct (G := fun _ => True) (P := fun past m => m.hub.dataLanes.closed = true ↔ ∃ x ∈ past, closesLanes x.job = true)
    ?construct ?assemble ?call ?client ?carry ?unwind run fun _ _ => trivial
  case construct | assemble => exact ⟨fun none => (by cases none), by rintro ⟨_, ⟨⟩, _⟩⟩
  case call => exact fun _ _ before _ => before
  case client => exact fun _ _ _ before => before
  case carry =>
    intro past m t job later _ before _ _ _ _
    rw [hub_carry, closed_exec, Bool.or_eq_true, before]
    simp [or_and_right, exists_or]
  case unwind =>
    intro past m t later _ before _ _
    rw [lanes_unwind.closed, before]
    simp [or_and_right, exists_or, closesLanes]

theorem retired_exec (m : Machine) (t : ThreadId) (job : Job) (here : w ∈ m.hub.dataLanes.retired) :
    w ∈ (job.exec m t).1.hub.dataLanes.retired ∨ closesLanes job = true ∨ m.exited w = true := by
  rcases dataLane_or job with ⟨j, rfl⟩ | apart
  · cases j with
    | reap =>
        cases exited : m.exited w with
        | true => exact .inr (.inr rfl)
        | false => exact .inl (List.mem_filter.mpr ⟨here, by simp [exited]⟩)
    | retire worker => exact .inl (List.mem_append_left _ here)
    | stop c =>
        simp only [Job.exec, DataLaneJob.exec, DataLanes.withdraw]
        cases m.hub.dataLanes.slots.get? c <;> exact .inl here
    | spawn | publish | push | look =>
        simp only [Job.exec, DataLaneJob.exec, DataLaneJob.lookAtLane]
        repeat' split
        all_goals exact .inl here
    | close join => exact .inr (.inl rfl)
    | _ => exact .inl here
  · rw [(dataLanes_exec m t job apart).2.2.2]
    exact .inl here

def Placed (slot : Slot) (m : Machine) : Prop :=
  m.hub.dataLanes.closed = true ∨ (∃ c, m.hub.dataLanes.slots.get? c = some slot) ∨ slot.worker ∈ m.hub.dataLanes.retired ∨
    (∃ u, .dataLane (.retire slot.worker) ∈ m.agenda u) ∨ m.agenda slot.worker = []

theorem slot_moves (m : Machine) (t : ThreadId) (job : Job) (later : List Job) {c : ConnectionHandle}
    (here : m.hub.dataLanes.slots.get? c = some slot) :
    (job.exec m t).1.hub.dataLanes.slots.get? c = some slot ∨
      (closesLanes job = true ∧ .dataLane (.wake slot.lane) ∈ (job.exec m t).2) ∨
      (job = .dataLane (.stop c) ∧ .dataLane (.retire slot.worker) ∈ (job.exec m t).2 ∧
        .dataLane (.requestStop slot.lane) ∈ (job.exec m t).2) := by
  have maps := slots_maps ⟨m, t, job, later⟩ c
  rw [here] at maps
  rw [maps]
  cases job with
  | dataLane j =>
      cases j with
      | publish other new =>
          by_cases same : other = c
          · subst same
            have occupied : m.hub.dataLanes.occupied other = true := by
              simp [DataLanes.occupied, Table.contains, here]
            simp [Moment.maps, Moment.publishes, occupied]
          · simp [Moment.maps, same]
      | stop other =>
          by_cases same : other = c
          · subst same
            refine .inr (.inr ⟨rfl, ?_⟩)
            simp [Job.exec, DataLaneJob.exec, DataLanes.withdraw, here]
          · simp [Moment.maps, same]
      | close join =>
          have inside : slot ∈ m.hub.dataLanes.slots.values := List.mem_map.mpr ⟨_, (Table.get?_eq_some_iff ..).mp here, rfl⟩
          exact .inr (.inl ⟨rfl, List.mem_append_left _ (List.mem_map.mpr ⟨slot, inside, rfl⟩)⟩)
      | _ => exact .inl rfl
  | _ => exact .inl rfl

theorem mem_agenda_carry (run : Run config hooks past m) (agenda : m.agenda t = job :: later) {j : Job} (here : j ∈ m.agenda u) :
    j ∈ (m.carry t job later).agenda u ∨ (u = t ∧ j = job) := by
  by_cases mine : u = t
  · subst mine
    rw [agenda] at here
    rw [agenda_carry_self agenda]
    rcases List.mem_cons.mp here with same | behind
    · exact .inr ⟨rfl, same⟩
    · exact .inl (List.mem_append_right _ behind)
  · rcases run.carry_fresh job later mine with same | ⟨idle, _⟩
    · exact .inl (same ▸ here)
    · rw [idle] at here
      cases here

theorem mem_agenda_call {j : Job} (idle : m.agenda .caller = []) (op : Op) (here : j ∈ m.agenda u) :
    j ∈ (m.beginWith [.perform op]).agenda u := by
  rwa [agenda_beginWith_other fun caller => by rw [caller, idle] at here; cases here]

theorem mem_agenda_client {j : Job} (name : String) (op : Op) (here : j ∈ m.agenda u) :
    j ∈ (m.spawn name [.perform op]).2.agenda u := by
  rwa [agenda_client_old (known_lt (agenda_known rfl fun none => by rw [none] at here; cases here))]

theorem mem_agenda_unwind {j : Job} (agenda : m.agenda t = .panic :: later) (here : j ∈ m.agenda u) (outside : j ∉ cut later)
    (unmarked : ∀ d, j ≠ .participant (.delivered d)) (notPanic : j ≠ .panic) : j ∈ (m.unwind t later).agenda u := by
  by_cases mine : u = t
  · subst mine
    rw [agenda] at here
    rw [agenda_unwind_self agenda]
    exact mem_kept ((List.mem_cons.mp here).resolve_left notPanic) outside unmarked
  · rwa [agenda_unwind_other mine]

theorem Placed.carry (run : Run config hooks past m) (placed : Placed slot m) (member : slot ∈ roster past)
    (agenda : m.agenda t = job :: later) : Placed slot (m.carry t job later) := by
  have works : dispatches past slot.worker := .inr ⟨slot, member, rfl⟩
  have closes : closesLanes job = true → Placed slot (m.carry t job later) := fun closing => by
    refine .inl ?_
    rw [hub_carry, closed_exec, closing, Bool.or_true]
  rcases placed with closed | ⟨c, here⟩ | retired | ⟨u, pending⟩ | ended
  · refine .inl ?_
    rw [hub_carry, closed_exec, closed]
    rfl
  · rcases slot_moves m t job later here with still | ⟨closing, _⟩ | ⟨_, next, _⟩
    · exact .inr (.inl ⟨c, still⟩)
    · exact closes closing
    · refine .inr (.inr (.inr (.inl ⟨t, ?_⟩)))
      rw [agenda_carry_self agenda]
      exact List.mem_append_left _ next
  · rcases retired_exec m t job retired with still | closing | exited
    · exact .inr (.inr (.inl still))
    · exact closes closing
    · exact .inr (.inr (.inr (.inr (run.ended_carry works (exited_idle exited) agenda))))
  · rcases mem_agenda_carry run agenda pending with still | ⟨rfl, rfl⟩
    · exact .inr (.inr (.inr (.inl ⟨u, still⟩)))
    · exact .inr (.inr (.inl (List.mem_append_right _ (List.mem_singleton.mpr rfl))))
  · exact .inr (.inr (.inr (.inr (run.ended_carry works ended agenda))))

theorem Run.placed (run : Run config hooks past m) (hooked : ∀ x ∈ past, x.hookSafe) : ∀ slot ∈ landed past, Placed slot m := by
  refine Run.induct (G := Moment.hookSafe) (P := fun past m => ∀ slot ∈ landed past, Placed slot m)
    ?construct ?assemble ?call ?client ?carry ?unwind run hooked
  case construct | assemble => exact fun _ none => by cases none
  case call =>
    intro past m op run before idle slot member
    refine (before slot member).imp_right (Or.imp_right (Or.imp_right (Or.imp ?_ ?_)))
    · exact Exists.imp fun _ => mem_agenda_call idle op
    · rw [agenda_beginWith_other (run.rostered.apart (run.landed_roster member))]
      exact id
  case client =>
    intro past m name op run before slot member
    refine (before slot member).imp_right (Or.imp_right (Or.imp_right (Or.imp ?_ ?_)))
    · exact Exists.imp fun _ => mem_agenda_client name op
    · rw [agenda_client_old (run.rostered.known slot (run.landed_roster member)).2.2]
      exact id
  case carry =>
    intro past m t job later run before agenda _ _ _ slot member
    rcases mem_landed_snoc.mp member with old | lands
    · exact (before slot old).carry run (run.landed_roster old) agenda
    · obtain ⟨c, rfl, unclosed⟩ := lands_job lands
      cases occupied : m.hub.dataLanes.occupied c with
      | false =>
          refine .inr (.inl ⟨c, ?_⟩)
          have maps := slots_maps ⟨m, t, .dataLane (.publish c slot), later⟩ c
          rw [hub_carry, maps]
          simp [Moment.maps, Moment.publishes, unclosed, occupied]
      | true =>
          refine .inr (.inr (.inr (.inl ⟨t, ?_⟩)))
          rw [agenda_carry_self agenda]
          simp [Job.exec, DataLaneJob.exec, unclosed, occupied]
  case unwind =>
    intro past m t later run before agenda here slot member
    have old := (mem_landed_snoc.mp member).resolve_right fun none => by cases none
    rcases before slot old with closed | ⟨c, found⟩ | retired | ⟨u, pending⟩ | ended
    · exact .inl (lanes_unwind.closed.trans closed)
    · exact .inr (.inl ⟨c, by rw [lanes_unwind.slots]; exact found⟩)
    · exact .inr (.inr (.inl (by rw [lanes_unwind.retired]; exact retired)))
    · refine .inr (.inr (.inr (.inl ⟨u, mem_agenda_unwind agenda pending (fun inside => ?_) (fun _ none => by cases none)
        fun none => by cases none⟩)))
      cases run.queues_stay agenda here _ inside
    · exact .inr (.inr (.inr (.inr (ended_unwind ended agenda))))

theorem Run.closes_joining (run : Run config hooks past m) (managed : ∀ x ∈ past, x.managed) (u : ThreadId) :
    Each (fun job _ => ∀ join, job = .dataLane (.close join) → join = config.joinWorkers) (m.agenda u) := by
  refine Run.each (G := Moment.managed) (P := fun _ job _ => ∀ join, job = .dataLane (.close join) → join = config.joinWorkers)
    ?fresh ?next ?caught run managed u
  case fresh =>
    intro u agenda fresh
    refine each_of_forall fun job member rest join same => ?_
    have none := closing_final.fresh config u agenda fresh job member
    rw [same] at none
    cases none
  case next =>
    intro past m t job later run _ _ _ _ here
    refine each_of_forall fun j member rest join same => ?_
    subst same
    rcases final_source (leads_exec m t job _ member) (.inl rfl) with rfl | ⟨op, rfl, foreign⟩
    · simp only [Job.exec, HubJob.exec, HubJob.shutDownAll, run.configured] at member
      rcases List.mem_append.mp member with member | member
      · rcases List.mem_append.mp member with member | member
        · rcases List.mem_append.mp member with member | member
          · rcases withdraws_cases member with none | ⟨_, none⟩ <;> cases none
          · simp only [List.mem_cons, List.not_mem_nil, or_false, reduceCtorEq, false_or, Job.dataLane.injEq,
              DataLaneJob.close.injEq] at member
            exact member
        · split at member
          · cases List.mem_singleton.mp member
          · cases member
      · simp [Job.logHub] at member
    · rw [here op rfl] at foreign
      cases foreign
  case caught =>
    exact fun _ _ _ each => ⟨fun _ none => (by cases none), fun _ none => (by cases none), each.2⟩

def Moment.orderly (x : Moment) : Prop := x.managed ∧ x.hookSafe

theorem guarded_none {G : Gate} (kept : G.Kept m) (free : m.free G.lock = true) (here : job ∈ m.agenda u) : G.guards job = 0 := by
  have none := kept.open free u
  have bound := weight_mem (f := G.guards) here
  omega

theorem Run.final_first {k : Job → Bool} (single : Once k) (run : Run config hooks past m) (managed : ∀ x ∈ past, x.managed)
    (agenda : m.agenda t = job :: later) (here : k job = true) : ∀ x ∈ past, k x.job = false := by
  intro x seen
  cases before : k x.job with
  | false => rfl
  | true =>
      have once := run.ends_once single managed
      have one := total_mem (g := fun x => if k x.job then 1 else 0) seen
      simp only [before, if_true] at one
      have two : 1 ≤ m.load (Job.ends k) := by
        have bound := load_mem (f := Job.ends k) (m := m) t
        have pending : job.ends k = 1 := by
          unfold Job.ends
          split
          · rfl
          · exact if_pos here
        rw [agenda, weight_cons, pending] at bound
        omega
      split at once <;> omega

theorem Run.closing_waits (run : Run config hooks past m) (joins : config.joinWorkers = true) (orderly : ∀ x ∈ past, x.orderly)
    (agenda : m.agenda t = job :: later) (enabled : job.enabled m t = true) (closes : closesLanes job = true)
    (member : slot ∈ landed past) :
    m.agenda slot.worker = [] ∨ ∃ lane, .join lane slot.worker ∈ (job.exec m t).2 := by
  have managed : ∀ x ∈ past, x.managed := fun x member => (orderly x member).1
  have first := run.closes_joining managed t
  rw [agenda] at first
  cases job with
  | dataLane job =>
      cases job with
      | close join =>
          have joining : join = true := (first.1 join rfl).trans joins
          subst joining
          have free : m.free .laneMap = true := by simpa [Job.enabled, Job.needs] using enabled
          rcases run.placed (fun x member => (orderly x member).2) slot member with closed | ⟨c, found⟩ | retired |
            ⟨u, pending⟩ | ended
          · obtain ⟨x, seen, before⟩ := run.closed.mp closed
            rw [run.final_first closing_final.toOnce managed agenda rfl x seen] at before
            cases before
          · refine .inr ⟨Log.dataLaneName, ?_⟩
            have inside : slot ∈ m.hub.dataLanes.slots.values := List.mem_map.mpr ⟨_, (Table.get?_eq_some_iff ..).mp found, rfl⟩
            simp only [Job.exec, DataLaneJob.exec, DataLanes.close, if_true]
            exact List.mem_append_right _ (List.mem_map.mpr
              ⟨slot.worker, List.mem_append_right _ (List.mem_map.mpr ⟨slot, inside, rfl⟩), rfl⟩)
          · refine .inr ⟨Log.dataLaneName, ?_⟩
            simp only [Job.exec, DataLaneJob.exec, DataLanes.close, if_true]
            exact List.mem_append_right _ (List.mem_map.mpr ⟨slot.worker, List.mem_append_left _ retired, rfl⟩)
          · cases guarded_none (laneMapGate_sound.run run managed) free pending
          · exact .inl ended
      | _ => cases closes
  | _ => cases closes

theorem Run.lanes_waited (run : Run config hooks past m) (joins : config.joinWorkers = true) (orderly : ∀ x ∈ past, x.orderly) :
    ∀ slot ∈ landed past, m.agenda slot.worker = [] ∨
      ∀ u, u ≠ slot.worker → Barred closesLanes (some slot.worker) past m u := by
  have waited := run.waited (G := Moment.orderly) (S := fun past w => ∃ slot ∈ landed past, slot.worker = w) closing_final joins
    (by rintro _ ⟨_, ⟨⟩, _⟩) ?works ?new ?waits orderly
  case works =>
    rintro past m w run ⟨slot, member, rfl⟩
    exact .inr ⟨slot, run.landed_roster member, rfl⟩
  case new =>
    rintro past m t job later w run agenda _ _ ⟨slot, member, rfl⟩
    rcases mem_landed_snoc.mp member with old | lands
    · exact .inl ⟨slot, old, rfl⟩
    · obtain ⟨c, rfl, open_⟩ := lands_job lands
      refine .inr (List.forall_mem_append.mpr ⟨fun y seen => ?_, List.forall_mem_singleton.mpr rfl⟩)
      cases closes : closesLanes y.job with
      | false => rfl
      | true =>
          rw [run.closed.mpr ⟨y, seen, closes⟩] at open_
          cases open_
  case waits =>
    rintro past m t job later w run agenda old _ enabled closes ⟨slot, member, rfl⟩
    exact run.closing_waits joins old agenda enabled closes member
  exact fun slot member => waited slot.worker ⟨slot, member, rfl⟩

end TransportHub
