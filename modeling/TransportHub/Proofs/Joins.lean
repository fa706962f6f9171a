import TransportHub.Proofs.Stirring
/-!
Joins: who waits for workers. A worker is waited for within the start of a lane, or by the one shutdown there is,
which has woken everybody before. So when nobody is inside the start of a lane, only one thread waits for
workers and none of them sleeps, and whoever has something to do goes on or waits for somebody who does.
-/

set_option autoImplicit false

namespace TransportHub

open DataLanes (Slot)

variable {config : Config} {hooks : List Hook} {past : List Moment} {m : Machine} {t u w : ThreadId}
  {job : Job} {later rest : List Job} {x : Moment} {slot : Slot} {h : Hub}

-- Looks at how the start of a lane ended, and stands behind all that the start consists of.
def Job.asks : Job → Bool
  | .hub job => (job matches .connectionStarted ..)
  | _ => false

def Job.staffs : Job → Bool
  | .dataLane job => (job matches .start _ | .reap | .spawn _ | .publish ..)
  | _ => false

structure Hub.Roused (h : Hub) : Prop where
  ending : h.terminating = true
  closed : h.dataLanes.closed = true
  awake : h.deviceLane.parked = false

def Halting (rest : List Job) : Prop := (∃ j ∈ rest, halts j = true) ∧ ∀ r tail, rest ≠ .answer r :: tail

structure Job.Attends (h : Hub) (job : Job) (rest : List Job) : Prop where
  staffs : job.staffs = true → ∃ j ∈ rest, j.asks = true
  ends : closesLanes job = true ∨ joinsDeviceLane job = true → Halting rest
  joins : ∀ lane w, job = .join lane w → (∃ j ∈ rest, j.asks = true) ∨ (Halting rest ∧ h.Roused)

def Job.carefree (job : Job) : Bool := !job.staffs && !closesLanes job && !joinsDeviceLane job && !(job matches .join ..)

theorem Job.attends_carefree (carefree : job.carefree = true) : job.Attends h rest := by
  simp only [Job.carefree, Bool.and_eq_true, Bool.not_eq_true'] at carefree
  obtain ⟨⟨⟨staffs, closes⟩, joins⟩, apart⟩ := carefree
  refine ⟨fun here => ?_, fun here => ?_, fun lane w same => ?_⟩
  · rw [staffs] at here
    cases here
  · rw [closes, joins] at here
    rcases here with none | none <;> cases none
  · subst same
    cases apart

theorem attends_asked (carefree : ∀ j ∈ rest, closesLanes j = false ∧ joinsDeviceLane j = false)
    (asked : ∃ j ∈ later, j.asks = true) :
    Each (fun j behind => j.Attends h (behind ++ later)) rest := by
  refine each_of_forall fun j member behind => ?_
  have found : ∃ j ∈ behind ++ later, j.asks = true := asked.imp fun _ => And.imp_left (List.mem_append_right _)
  refine ⟨fun _ => found, fun here => ?_, fun _ _ _ => .inl found⟩
  rw [(carefree j member).1, (carefree j member).2] at here
  rcases here with none | none <;> cases none

theorem attends_joins (workers : List ThreadId) (halting : Halting later) (roused : h.Roused) :
    Each (fun j behind => j.Attends h (behind ++ later)) (workers.map DataLaneJob.joinWorker) := by
  induction workers with
  | nil => trivial
  | cons w workers ih =>
      refine ⟨⟨fun none => (by cases none), fun none => (by rcases none with none | none <;> cases none),
        fun _ _ _ => .inr ⟨⟨?_, ?_⟩, roused⟩⟩, ih⟩
      · exact halting.1.imp fun _ => And.imp_left (List.mem_append_right _)
      · cases workers with
        | nil => exact halting.2
        | cons v workers => exact fun r tail same => by cases same

theorem carefree_source {j : Job} (leads : job.leads j = true) (here : j.carefree = false) :
    job.staffs = true ∨ closesLanes job = true ∨ joinsDeviceLane job = true ∨ job = .hub .stopAdapters ∨
      (∃ d c, job = .hub (.connect d c)) ∨ ∃ op, job = .perform op ∧ op.managed = false := by
  cases j with
  | join lane w =>
      rcases join_origin leads with rfl | ⟨c, slot, rfl⟩ | rfl | ⟨join, rfl⟩
      · exact .inr (.inr (.inl rfl))
      · exact .inl rfl
      · exact .inl rfl
      · exact .inr (.inl rfl)
  | dataLane j =>
      cases j with
      | start | reap | spawn | publish =>
          cases job with
          | dataLane job =>
              cases job <;> first
                | exact .inl rfl
                | cases leads
          | hub job =>
              cases job <;> first
                | exact .inr (.inr (.inr (.inr (.inl ⟨_, _, rfl⟩))))
                | cases leads
          | perform op =>
              cases op with
              | dataLanes op => exact .inr (.inr (.inr (.inr (.inr ⟨_, rfl, rfl⟩))))
              | _ => cases leads
          | _ => cases leads
      | close =>
          rcases final_source leads (.inl rfl) with stops | ⟨op, same, foreign⟩
          · exact .inr (.inr (.inr (.inl stops)))
          · exact .inr (.inr (.inr (.inr (.inr ⟨op, same, foreign⟩))))
      | _ => cases here
  | deviceLane j =>
      cases j with
      | join =>
          rcases final_source leads (.inr rfl) with stops | ⟨op, same, foreign⟩
          · exact .inr (.inr (.inr (.inl stops)))
          · exact .inr (.inr (.inr (.inr (.inr ⟨op, same, foreign⟩))))
      | _ => cases here
  | _ => cases here

theorem attends_connect (m : Machine) (t : ThreadId) (d : DeviceInfo) (c : ConnectionHandle) :
    Each (fun j behind => j.Attends h (behind ++ later)) ((Job.hub (.connect d c)).exec m t).2 := by
  simp only [Job.exec, HubJob.exec]
  split
  · exact ⟨Job.attends_carefree rfl, trivial⟩
  · refine ⟨Job.attends_carefree rfl, Job.attends_carefree rfl, Job.attends_carefree rfl,
      ⟨fun _ => ?_, ?_, ?_⟩, Job.attends_carefree rfl, trivial⟩
    · exact ⟨.hub (.connectionStarted d c), List.mem_append_left _ (List.mem_singleton.mpr rfl), rfl⟩
    · exact fun none => by rcases none with none | none <;> cases none
    · exact fun _ _ none => by cases none

theorem halting_behind (front : List Job) (apart : ∀ r tail, front ≠ .answer r :: tail) (later : List Job) :
    Halting (front ++ .hub .clearConnections :: .hub .halt :: Job.logHub .shutDown :: later) := by
  refine ⟨⟨.hub .halt, by simp, rfl⟩, fun r tail same => ?_⟩
  cases front with
  | nil => cases same
  | cons j front =>
      rw [List.cons_append] at same
      exact apart r front (by rw [(List.cons.inj same).1])

theorem attends_stop (m : Machine) (t : ThreadId) :
    Each (fun j behind => j.Attends h (behind ++ later)) ((Job.hub .stopAdapters).exec m t).2 := by
  have waits : ∀ {j : Job} {behind : List Job}, (closesLanes j = true ∨ joinsDeviceLane j = true) → Halting behind →
      j.Attends h behind := by
    intro j behind ends halting
    refine ⟨fun staffs => ?_, fun _ => halting, fun lane w same => ?_⟩
    · cases j with
      | dataLane j =>
          cases j with
          | close => cases staffs
          | _ => rcases ends with none | none <;> cases none
      | _ => cases staffs
    · subst same
      rcases ends with none | none <;> cases none
  simp only [Job.exec, HubJob.exec, shutdown_split]
  refine each_append.mpr ⟨each_of_forall fun j member behind => Job.attends_carefree ?_, Job.attends_carefree rfl,
    waits (.inl rfl) ?_, ?_⟩
  · rcases withdraws_cases member with rfl | ⟨id, rfl⟩ <;> rfl
  · cases m.hub.config.joinWorkers with
    | true => exact halting_behind [.deviceLane .join] (fun _ _ none => by cases none) later
    | false => exact halting_behind [] (fun _ _ none => by cases none) later
  · cases m.hub.config.joinWorkers with
    | true =>
        exact ⟨waits (.inr rfl) (halting_behind [] (fun _ _ none => by cases none) later), Job.attends_carefree rfl,
          Job.attends_carefree rfl, Job.attends_carefree rfl, trivial⟩
    | false => exact ⟨Job.attends_carefree rfl, Job.attends_carefree rfl, Job.attends_carefree rfl, trivial⟩

theorem roused_exec (m : Machine) (t : ThreadId) (job : Job) (roused : m.hub.Roused) : (job.exec m t).1.hub.Roused where
  ending := terminating_exec m t job roused.ending
  closed := by
    rw [closed_exec, roused.closed]
    rfl
  awake := awake_exec m t job roused.ending roused.awake

theorem Run.attends (run : Run config hooks past m) (managed : ∀ x ∈ past, x.managed) (u : ThreadId) :
    Each (Job.Attends m.hub) (m.agenda u) := by
  refine (Run.sustain (G := Moment.managed) (I := fun past _ => ∀ x ∈ past, x.managed) (P := fun _ h _ => Job.Attends h)
    (fun _ none => by cases none) ?fresh ?carry ?panic ?caught run managed).2 u
  case fresh =>
    exact fun _ _ => ⟨⟨Job.attends_carefree rfl, Job.attends_carefree rfl, trivial⟩, ⟨Job.attends_carefree rfl, trivial⟩,
      fun _ _ => ⟨Job.attends_carefree rfl, trivial⟩⟩
  case carry =>
    intro past m t job later run managed each agenda _ _ here
    have first := each t
    rw [agenda] at first
    refine ⟨List.forall_mem_append.mpr ⟨managed, List.forall_mem_singleton.mpr here⟩, fun u j rest before => ?_, ?_,
      fun u agenda _ started recruit => ?_⟩
    · exact ⟨before.staffs, before.ends, fun lane w same => (before.joins lane w same).imp_right
        (And.imp_right (roused_exec m t job))⟩
    · by_cases stops : job = .hub .stopAdapters
      · subst stops
        exact attends_stop m t
      by_cases connects : ∃ d c, job = .hub (.connect d c)
      · obtain ⟨d, c, rfl⟩ := connects
        exact attends_connect m t d c
      by_cases closes : ∃ join, job = .dataLane (.close join)
      · obtain ⟨join, rfl⟩ := closes
        have woken := (run.device_roused managed).1 t (by rw [agenda]; rfl)
        have roused : (Job.exec m t (.dataLane (.close join))).1.hub.Roused := ⟨woken.1, rfl, woken.2⟩
        simp only [Job.exec, DataLaneJob.exec] at roused ⊢
        refine each_append.mpr ⟨each_of_forall fun j member behind => Job.attends_carefree ?_, ?_⟩
        · obtain ⟨slot, _, rfl⟩ := List.mem_map.mp member
          rfl
        · split
          · exact attends_joins _ (first.1.ends (.inl rfl)) roused
          · trivial
      by_cases joins : job = .deviceLane .join
      · subst joins
        have woken := (run.device_roused managed).1 t (by rw [agenda]; rfl)
        have closed := (run.shut managed).1 t (by rw [agenda]; rfl)
        have roused : (Job.exec m t (.deviceLane .join)).1.hub.Roused := ⟨woken.1, closed, woken.2⟩
        have halting := first.1.ends (.inr rfl)
        simp only [Job.exec, DeviceLaneJob.exec] at roused ⊢
        cases m.hub.deviceLane.worker with
        | none => trivial
        | some w => exact ⟨⟨fun none => (by cases none), fun none => (by rcases none with none | none <;> cases none),
            fun _ _ _ => .inr ⟨halting, roused⟩⟩, trivial⟩
      have unending : closesLanes job = false ∧ joinsDeviceLane job = false := by
        cases job with
        | dataLane job => cases job <;> first | exact ⟨rfl, rfl⟩ | exact absurd ⟨_, rfl⟩ closes
        | deviceLane job => cases job <;> first | exact ⟨rfl, rfl⟩ | exact absurd rfl joins
        | _ => exact ⟨rfl, rfl⟩
      cases staffs : job.staffs with
      | true =>
          refine attends_asked (fun j member => ?_) (first.1.staffs staffs)
          have source : ¬ (closesLanes j = true ∨ joinsDeviceLane j = true) := fun ends => by
            rcases final_source (leads_exec m t job j member) ends with same | ⟨op, same, foreign⟩
            · exact stops same
            · rw [here op same] at foreign
              cases foreign
          exact ⟨Bool.eq_false_iff.mpr fun closes => source (.inl closes), Bool.eq_false_iff.mpr fun joins => source (.inr joins)⟩
      | false =>
          refine each_of_forall fun j member _ => Job.attends_carefree ?_
          cases carefree : j.carefree with
          | true => rfl
          | false =>
              rcases carefree_source (leads_exec m t job j member) carefree with same | same | same | same | same |
                ⟨op, same, foreign⟩
              · rw [staffs] at same
                cases same
              · rw [unending.1] at same
                cases same
              · rw [unending.2] at same
                cases same
              · exact absurd same stops
              · exact absurd same connects
              · rw [here op same] at foreign
                cases foreign
    · have fresh : Fresh config u agenda := fresh_recruits started (List.mem_of_getElem? recruit)
      cases fresh <;> first
        | exact ⟨Job.attends_carefree rfl, Job.attends_carefree rfl, trivial⟩
        | exact ⟨Job.attends_carefree rfl, trivial⟩
  case panic =>
    intro past m t later h _ managed _ here hub
    refine ⟨List.forall_mem_append.mpr ⟨managed, List.forall_mem_singleton.mpr here⟩, fun u j rest before => ?_⟩
    have same : m.hub.Roused → h.Roused := fun roused => by rcases hub with rfl | rfl <;>
      exact ⟨roused.ending, roused.closed, roused.awake⟩
    exact ⟨before.staffs, before.ends, fun lane w here => (before.joins lane w here).imp_right (And.imp_right same)⟩
  case caught => exact fun _ _ u d rest each => ⟨Job.attends_carefree rfl, Job.attends_carefree rfl, each.2⟩

-- Termination has begun, and nobody is inside the start of a lane.
structure Winding (m : Machine) : Prop where
  ending : m.hub.terminating = true
  unasked : ∀ u, ∀ job ∈ m.agenda u, job.asks = false

theorem asks_next (ending : m.hub.terminating = true) {j : Job} (member : j ∈ (job.exec m t).2) : j.asks = false := by
  cases asks : j.asks with
  | false => rfl
  | true =>
      cases j with
      | hub j =>
          cases j with
          | connectionStarted d c =>
              obtain ⟨d, k, rfl⟩ := asks_source member
              simp [Job.exec, HubJob.exec, ending, Job.logHub] at member
          | _ => cases asks
      | _ => cases asks

theorem asks_fresh_none {agenda : List Job} (fresh : Fresh config u agenda) : ∀ job ∈ agenda, job.asks = false :=
  fresh.all (fun _ => rfl) rfl (fun _ => rfl) (fun _ _ => rfl) rfl fun _ => rfl

theorem Winding.moved {m' : Machine} (winding : Winding m) (ending : m'.hub.terminating = true)
    (moves : ∀ u, m'.agenda u = m.agenda u ∨ (m.agenda u = [] ∧ Fresh config u (m'.agenda u))) : Winding m' where
  ending := ending
  unasked u job member := by
    rcases moves u with same | ⟨_, fresh⟩
    · exact winding.unasked u job (same ▸ member)
    · exact asks_fresh_none fresh _ member

theorem Winding.carry (winding : Winding m) (run : Run config hooks past m) (agenda : m.agenda t = job :: later) :
    Winding (m.carry t job later) where
  ending := terminating_exec m t job winding.ending
  unasked u j member := by
    rcases run.carried agenda member with ⟨_, next⟩ | ⟨old, _⟩ | ⟨_, fresh, inside⟩
    · exact asks_next winding.ending next
    · exact winding.unasked u j old
    · exact asks_fresh_none fresh _ inside

theorem Winding.unwind (winding : Winding m) (run : Run config hooks past m) (agenda : m.agenda t = .panic :: later) :
    Winding (m.unwind t later) where
  ending := terminating_unwind.trans winding.ending
  unasked u j member := by
    rcases run.agenda_unwound agenda u with trails | ⟨_, same⟩
    · have trails := trails j member
      cases j with
      | hub j => cases j <;> cases trails
      | _ => rfl
    · exact winding.unasked u j (same ▸ member)

theorem Run.undivided (run : Run config hooks past m) (u : ThreadId) :
    Each (fun job rest => u ≠ .caller → job.reports = false → ∀ j ∈ rest, j.asks = false) (m.agenda u) := by
  refine Run.each (G := fun _ => True) (P := fun u job rest => u ≠ .caller → job.reports = false → ∀ j ∈ rest, j.asks = false)
    ?fresh ?next ?caught run (fun _ _ => trivial) u
  case fresh =>
    intro u agenda fresh
    refine each_split fun front job rest split _ _ j member => asks_fresh_none fresh _ ?_
    rw [split]
    exact List.mem_append_right _ (List.mem_cons_of_mem _ member)
  case next =>
    intro past m t job later _ each agenda _ _ _
    have first := each t
    rw [agenda] at first
    refine each_split fun front j rest split apart unreported k member => ?_
    have next : j ∈ (job.exec m t).2 := by
      rw [split]
      exact List.mem_append_right _ (List.mem_cons_self ..)
    cases reports : job.reports with
    | true =>
        rw [reports_next m apart reports j next] at unreported
        cases unreported
    | false =>
        rcases List.mem_append.mp member with inside | behind
        · cases asks : k.asks with
          | false => rfl
          | true =>
              have here : k ∈ (job.exec m t).2 := by
                rw [split]
                exact List.mem_append_right _ (List.mem_cons_of_mem _ inside)
              cases k with
              | hub k =>
                  cases k with
                  | connectionStarted d c =>
                      obtain ⟨d, k, rfl⟩ := asks_source here
                      cases reports
                  | _ => cases asks
              | _ => cases asks
        · exact first.1 apart reports k behind
  case caught =>
    intro u d rest each
    exact ⟨fun _ none => (by cases none), fun apart _ => each.1 apart rfl, each.2⟩

theorem Run.winds (run : Run config hooks past m) {before since : List Moment} (split : past = before ++ x :: since)
    (raises : x.job = .hub .raiseTermination) (alone : ∀ u, ∀ job ∈ x.machine.agenda u, job.asks = false) : Winding m := by
  refine Run.induct_since (G := fun _ => True) (P := fun _ m => Winding m) ?begins ?call ?client ?carry ?unwind run split
    (fun none => by rw [raises] at none; cases none) fun _ _ => trivial
  case begins =>
    obtain ⟨reached, agenda⟩ := run.before ⟨since, by rw [split, List.append_assoc]; rfl⟩
    obtain ⟨m, t, job, later⟩ := x
    have here : job = .hub .raiseTermination := raises
    subst here
    have raised := Once.raised m t
    refine ⟨raised.1, fun u j member => ?_⟩
    rcases reached.carried agenda member with ⟨_, next⟩ | ⟨old, _⟩ | ⟨_, fresh, inside⟩
    · rw [raised.2] at next
      split at next
      · cases next
      · simp only [List.mem_cons, List.not_mem_nil, or_false] at next
        rcases next with rfl | rfl | rfl | rfl <;> rfl
    · exact alone u j old
    · exact asks_fresh_none fresh _ inside
  case call => exact fun op _ winding idle => winding.moved winding.ending (call_fresh config idle op)
  case client => exact fun name op _ winding => winding.moved winding.ending (client_fresh config _ name op)
  case carry => exact fun run winding agenda _ _ _ => winding.carry run agenda
  case unwind => exact fun run winding agenda _ => winding.unwind run agenda

theorem Run.unheld (run : Run config hooks past m) {before since : List Moment} (split : past = before ++ x :: since)
    (raises : x.job = .hub .raiseTermination) (first : x.machine.hub.terminating = false) (joins : config.joinWorkers = true) :
    m.loose := by
  refine Run.induct_since (G := fun _ => True) (P := fun _ m => m.loose) ?begins ?call ?client ?carry ?unwind run split
    (fun none => by rw [raises] at none; cases none) fun _ _ => trivial
  case begins =>
    have waits : x.machine.hub.config.joinWorkers = true := by
      rw [(run.before ⟨since, by rw [split, List.append_assoc]; rfl⟩).1.configured, joins]
    refine Machine.loose.changeThread ?_ x.thread fun _ => rfl
    rw [raises]
    simp only [HubJob.exec, Machine.setHub, first, waits, Bool.false_eq_true, if_false, if_true]
    exact loose_endHolds _
  case call => exact fun _ _ loose _ => loose.changeThread .caller fun _ => rfl
  case client => exact fun name _ _ loose => loose.spawn name _
  case carry => exact fun _ loose _ _ _ _ => loose.carry ..
  case unwind => exact fun _ loose _ _ => loose.unwind ..

theorem Run.halts_alone (run : Run config hooks past m) (managed : ∀ x ∈ past, x.managed) (mine : ∃ j ∈ m.agenda t, halts j = true)
    (yours : ∃ j ∈ m.agenda u, halts j = true) : t = u := by
  have due : ∀ {v}, (∃ j ∈ m.agenda v, halts j = true) → 1 ≤ weight (Job.ends halts) (m.agenda v) := by
    rintro v ⟨j, member, here⟩
    have one := weight_mem (f := Job.ends halts) member
    rwa [halts_job here] at one
  refine Classical.byContradiction fun apart => ?_
  have both := load_two (f := Job.ends halts) (m := m) apart
  have once := run.ends_once halting_once managed
  have mine := due mine
  have yours := due yours
  split at once <;> omega

theorem Winding.halting (winding : Winding m) (run : Run config hooks past m) (managed : ∀ x ∈ past, x.managed) {lane : String}
    (agenda : m.agenda t = .join lane w :: later) : Halting later ∧ m.hub.Roused := by
  have attends := run.attends managed t
  rw [agenda] at attends
  refine (attends.1.joins lane w rfl).resolve_left fun ⟨j, member, asks⟩ => ?_
  rw [winding.unasked t j (agenda ▸ List.mem_cons_of_mem _ member)] at asks
  cases asks

theorem Winding.unstarting (winding : Winding m) (run : Run config hooks past m) (managed : ∀ x ∈ past, x.managed) :
    ¬ Starting m w := by
  have unasked : ∀ {u : ThreadId} {rest : List Job}, (∀ j ∈ rest, j ∈ m.agenda u) → ¬ ∃ j ∈ rest, j.asks = true := by
    rintro u rest inside ⟨j, member, asks⟩
    rw [winding.unasked u j (inside j member)] at asks
    cases asks
  rintro ⟨u, _, ⟨c, lane, pending⟩ | ⟨front, back, split⟩⟩
  · obtain ⟨front, back, split, attends⟩ := each_mem (run.attends managed u) pending
    exact unasked (fun j member => by rw [split]; exact List.mem_append_right _ (List.mem_cons_of_mem _ member)) (attends.staffs rfl)
  · have attends := run.attends managed u
    rw [← split, List.append_assoc] at attends
    have here := (each_append.mp attends).2.1
    rcases here.joins _ w rfl with asked | ⟨⟨_, silent⟩, _⟩
    · refine unasked (u := u) (fun j member => ?_) asked
      rw [← split, List.append_assoc]
      exact List.mem_append_right _ (List.mem_cons_of_mem _ member)
    · exact silent _ _ rfl

theorem Winding.sleepless (winding : Winding m) (run : Run config hooks past m) (orderly : ∀ x ∈ past, x.orderly)
    (adapted : ∀ x ∈ past, x.adapterSafe) {lane : String} (agenda : m.agenda t = .join lane w :: later) (busy : m.agenda u ≠ []) :
    m.rests u = false := by
  have managed : ∀ x ∈ past, x.managed := fun x seen => (orderly x seen).1
  obtain ⟨halting, roused⟩ := winding.halting run managed agenda
  have woken : ∀ v, ∀ job ∈ m.agenda v, wakesLane job = false := fun v job pending => by
    cases wakes : wakesLane job with
    | false => rfl
    | true =>
        -- Whoever has somebody to wake is going to halt the hub, so it is the one that waits; but that one has woken everybody.
        obtain ⟨front, back, split, halts⟩ := each_mem (run.halts_behind managed v) pending
        have yours : ∃ j ∈ m.agenda v, TransportHub.halts j = true := (halts (.inr wakes)).imp fun j here =>
          ⟨by rw [split]; exact List.mem_append_right _ (List.mem_cons_of_mem _ here.1), here.2⟩
        have mine : ∃ j ∈ m.agenda t, TransportHub.halts j = true := halting.1.imp fun j here =>
          ⟨agenda ▸ List.mem_cons_of_mem _ here.1, here.2⟩
        obtain rfl := run.halts_alone managed mine yours
        have first := run.wakes_first t
        rw [agenda] at first pending
        rcases List.mem_cons.mp pending with rfl | behind
        · cases wakes
        · rw [first.1 rfl job behind] at wakes
          cases wakes
  cases rests : m.rests u with
  | false => rfl
  | true =>
      have enlisted := run.enlisted.2 u
      unfold Machine.rests at rests
      split at rests
      · exact absurd ‹_› busy
      · rw [roused.awake] at rests
        cases rests
      · rename_i id rest look
        rw [look] at enlisted
        rcases run.started (fun x seen => ⟨(orderly x seen).2, adapted x seen⟩) _ enlisted.1 with lands | ended | starting
        · cases known : m.hub.dataLanes.lane? id with
          | none =>
              rw [known] at rests
              cases rests
          | some lane =>
              rw [known, Option.any_some, run.roused_all orderly roused.closed woken lands known] at rests
              cases rests
        · exact absurd ended busy
        · exact absurd starting (winding.unstarting run managed)
      · cases rests

theorem Winding.joiner (winding : Winding m) (run : Run config hooks past m) (managed : ∀ x ∈ past, x.managed) {lane : String}
    (agenda : m.agenda t = .join lane w :: later) : ¬ Every Job.reports (m.agenda t) := by
  obtain ⟨⟨⟨j, member, halts⟩, _⟩, _⟩ := winding.halting run managed agenda
  intro reports
  have here := reports j (agenda ▸ List.mem_cons_of_mem _ member)
  rw [halts_job halts] at here
  cases here

theorem depth_two
    (lingers : ∀ later, (∀ lane w, m.agenda t ≠ .join lane w :: later) ∧ ∀ threads, m.agenda t ≠ .await threads :: later) :
    2 ≤ m.depth t := by
  cases agenda : m.agenda t with
  | nil => simp only [Machine.depth, agenda]; decide
  | cons job later =>
      rw [depth_eq agenda]
      refine depth_lingers ?_
      cases job with
      | join lane w => exact absurd agenda ((lingers later).1 lane w)
      | await threads => exact absurd agenda ((lingers later).2 threads)
      | _ => rfl

theorem Winding.moving (winding : Winding m) (run : Run config hooks past m) (orderly : ∀ x ∈ past, x.orderly)
    (adapted : ∀ x ∈ past, x.adapterSafe) (unlocked : ∀ x ∈ past, x.lockSafe) (loose : m.loose) : Moving m := by
  have managed : ∀ x ∈ past, x.managed := fun x seen => (orderly x seen).1
  refine ⟨run.squared unlocked, loose.2, fun t u lane later agenda apart busy =>
    ⟨winding.sleepless run orderly adapted agenda busy, ?_⟩,
    fun t u threads later agenda among busy => ⟨?_, ?_⟩⟩
  · -- Two threads do not wait for workers at the same time.
    have mine := (winding.halting run managed agenda).1.1
    cases first : m.agenda u with
    | nil => exact absurd first busy
    | cons job rest =>
        rw [depth_eq first]
        cases job with
        | join other w =>
            have yours := (winding.halting run managed first).1.1
            have same := run.halts_alone managed (t := t) (u := u)
              (mine.imp fun j here => ⟨agenda ▸ List.mem_cons_of_mem _ here.1, here.2⟩)
              (yours.imp fun j here => ⟨first ▸ List.mem_cons_of_mem _ here.1, here.2⟩)
            exact absurd same.symm apart
        | await threads => exact Nat.le_refl 1
        | _ => exact Nat.le_trans (by decide) (depth_lingers rfl)
  · have reporting := run.awaited t threads (agenda ▸ List.mem_cons_self ..) u among
    cases rests : m.rests u with
    | false => rfl
    | true =>
        rcases rests_agenda run rests with idle | ⟨job, alone, looks⟩
        · exact absurd idle busy
        · have reports := reporting.reports job (by rw [alone]; exact List.mem_singleton.mpr rfl)
          cases job with
          | deviceLane job | dataLane job => cases job <;> first | (cases reports; done) | cases looks
          | _ => cases looks
  · have reporting := run.awaited t threads (agenda ▸ List.mem_cons_self ..) u among
    refine depth_two fun rest => ⟨fun lane w first => winding.joiner run managed first reporting.reports, fun others first => ?_⟩
    have reports := reporting.reports (.await others) (first ▸ List.mem_cons_self ..)
    cases reports

end TransportHub
