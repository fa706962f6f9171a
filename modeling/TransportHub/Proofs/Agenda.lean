import TransportHub.Proofs.Run
/-!
Agendas: what the threads of a machine still have to do, and what a step makes of it. A step puts the
jobs that come next in front of its own thread's agenda, may start threads, and leaves every other
agenda alone.
-/

set_option autoImplicit false

namespace TransportHub

def Machine.each {α : Type} (m : Machine) (f : Thread → α) : List α := m.threads.map f

def Machine.agendas (m : Machine) : List (List Job) := m.each (·.agenda)

def Job.recruits (m : Machine) : Job → List (List Job)
  | .deviceLane .spawn =>
      if m.system.answer m.hub.config.deviceThread = .started then [Plan.deviceWorker] else []
  | .dataLane (.spawn c) =>
      if m.system.answer (m.hub.config.dataThread c) = .started then
        [Plan.dataWorker c ⟨m.hub.dataLanes.lanes.length⟩]
      else []
  | .perform (.connectAtOnce threads device c) =>
      if m.hub.owned then List.replicate threads [.hub (.connect device c)] else []
  | _ => []

attribute [simp] Machine.setHub Machine.setRegistry Machine.setDeviceLane Machine.setDataLanes
  Machine.setMetrics Machine.note Machine.take Machine.giveBack Machine.giveBackAll Machine.answered

section Each

variable {α : Type} {f : Thread → α} {g : List Job → α} {u : ThreadId}

theorem each_changeThread (m : Machine) (t : ThreadId) (change : Thread → Thread)
    (kept : ∀ thread, f (change thread) = f thread) : (m.changeThread t change).each f = m.each f := by
  unfold Machine.changeThread Machine.each
  apply List.ext_getElem?
  intro i
  simp only [List.getElem?_map, List.getElem?_modify]
  cases m.threads[i]? with
  | none => rfl
  | some thread => by_cases here : t.val = i <;> simp [here, kept]

-- Most updates leave the threads alone; simp opens them and finds what was to be seen before.
@[simp] theorem each_mk (hub : Hub) (cast : Cast) (hooks : List Hook) (system : System)
    (locks : List (Lock × ThreadId)) (holding : Bool) (threads : List Thread)
    (trace : List (ThreadId × Entry)) :
    Machine.each ⟨hub, cast, hooks, system, locks, holding, threads, trace⟩ f = threads.map f :=
  rfl

@[simp] theorem map_threads (m : Machine) : m.threads.map f = m.each f := rfl

theorem each_spawn (starts : ∀ name agenda, f { name, agenda } = g agenda) (m : Machine) (name : String)
    (agenda : List Job) : (m.spawn name agenda).2.each f = m.each f ++ [g agenda] := by
  simp [Machine.spawn, starts]

theorem each_spawnReporters (starts : ∀ name agenda, f { name, agenda } = g agenda) (m : Machine)
    (device : DeviceInfo) (c : ConnectionHandle) (threads : Nat) :
    (m.spawnReporters device c threads).2.each f =
      m.each f ++ (List.replicate threads [.hub (.connect device c)]).map g := by
  induction threads generalizing m with
  | zero => simp [Machine.spawnReporters]
  | succ threads ih => simp [Machine.spawnReporters, ih, each_spawn starts, List.replicate_succ]

theorem each_endHolds (unheld : ∀ thread held, f { thread with held } = f thread) (m : Machine) :
    m.endHolds.each f = m.each f := by
  simp only [Machine.endHolds, Machine.each, List.map_map]
  exact List.map_congr_left fun thread _ => unheld thread false

theorem each_releaseHeld (unheld : ∀ thread held, f { thread with held } = f thread) (m : Machine)
    (name? : Option String) : (m.releaseHeld name?).2.each f = m.each f := by
  simp only [Machine.releaseHeld, Machine.each, List.map_map]
  refine List.map_congr_left fun thread _ => ?_
  by_cases held : Machine.held name? thread = true <;> simp [held, unheld]

theorem each_log (m : Machine) (t : ThreadId) (record : Log.Record) : (m.log t record).1.each f = m.each f := by
  unfold Machine.log
  by_cases caller : t = .caller
  · simp [caller]
  · simp [caller]

theorem each_participant (m : Machine) (t : ThreadId) (job : ParticipantJob) :
    (job.exec m t).1.each f = m.each f := by
  cases job with
  | call id key call =>
      simp only [ParticipantJob.exec, ParticipantJob.callAdapter]
      repeat' split
      all_goals simp_all
  | hear id callback =>
      simp only [ParticipantJob.exec, ParticipantJob.callListener]
      repeat' split
      all_goals simp
  | deliver d =>
      simp only [ParticipantJob.exec]
      split <;> simp
  | _ => simp [ParticipantJob.exec]

theorem each_deviceLane (starts : ∀ name agenda, f { name, agenda } = g agenda) (m : Machine) (job : DeviceLaneJob) :
    (job.exec m).1.each f = m.each f ++ ((Job.deviceLane job).recruits m).map g := by
  cases job with
  | spawn =>
      simp only [DeviceLaneJob.exec, Job.recruits]
      split <;> simp_all [Machine.spawn]
  | look =>
      simp only [DeviceLaneJob.exec, DeviceLaneJob.lookAtQueue, Job.recruits]
      split <;> simp
  | _ => simp [DeviceLaneJob.exec, Job.recruits]

theorem each_dataLane (starts : ∀ name agenda, f { name, agenda } = g agenda) (m : Machine) (job : DataLaneJob) :
    (job.exec m).1.each f = m.each f ++ ((Job.dataLane job).recruits m).map g := by
  cases job with
  | spawn c =>
      simp only [DataLaneJob.exec, Job.recruits, DataLanes.openLane]
      split <;> simp_all [Machine.spawn]
  | publish | stop | push =>
      simp only [DataLaneJob.exec, Job.recruits]
      repeat' split
      all_goals simp
  | look lane =>
      simp only [DataLaneJob.exec, DataLaneJob.lookAtLane, Job.recruits]
      repeat' split
      all_goals simp
  | _ => simp [DataLaneJob.exec, Job.recruits]

theorem each_registry (m : Machine) (job : RegistryJob) : (job.exec m).1.each f = m.each f := by
  cases job with
  | withdraw | replace =>
      simp only [RegistryJob.exec]
      split <;> simp
  | _ => simp [RegistryJob.exec]

theorem each_hub (unheld : ∀ thread held, f { thread with held } = f thread) (m : Machine) (t : ThreadId)
    (job : HubJob) : (job.exec m t).1.each f = m.each f := by
  cases job with
  | raiseTermination | laneStarted =>
      simp only [HubJob.exec]
      repeat' split
      all_goals simp [each_endHolds unheld]
  | _ => simp [HubJob.exec]

theorem each_perform (unheld : ∀ thread held, f { thread with held } = f thread)
    (starts : ∀ name agenda, f { name, agenda } = g agenda) (m : Machine) (op : Op) :
    (m.perform op).1.each f = m.each f ++ ((Job.perform op).recruits m).map g := by
  cases op with
  | contextReport | context | setType | release =>
      simp only [Machine.perform, Job.recruits, ContextQuery.exec]
      repeat' split
      all_goals simp [each_releaseHeld unheld]
  | registry op =>
      cases op <;> simp only [Machine.perform, Machine.performOwned, RegistryOp.exec, Job.recruits] <;>
        split <;> simp
  | deviceLane op =>
      cases op <;> simp only [Machine.perform, Machine.performOwned, DeviceLaneOp.exec, Job.recruits] <;>
        split <;> simp [each_endHolds unheld]
  | dataLanes op =>
      cases op <;> simp only [Machine.perform, Machine.performOwned, DataLanesOp.exec, Job.recruits] <;>
        repeat' split
      all_goals simp [each_endHolds unheld]
  | connectAtOnce threads device c =>
      simp only [Machine.perform, Machine.performOwned, Job.recruits]
      split <;> simp [each_spawnReporters starts]
  | _ =>
      simp only [Machine.perform, Machine.performOwned, ContextQuery.exec, Job.recruits]
      split <;> simp

theorem each_exec (unheld : ∀ thread held, f { thread with held } = f thread)
    (starts : ∀ name agenda, f { name, agenda } = g agenda) (m : Machine) (t : ThreadId) (job : Job)
    (unanswered : (∀ reply, job ≠ .answer reply) ∨ ∀ thread reply, f { thread with reply } = f thread) :
    (job.exec m t).1.each f = m.each f ++ (job.recruits m).map g := by
  cases job with
  | log record => simp [Job.exec, Job.recruits, each_log]
  | answer reply =>
      have kept := unanswered.resolve_left fun none => none reply rfl
      simp [Job.exec, Job.recruits, each_changeThread, kept]
  | hold =>
      by_cases holding : m.holding = true
      · simp [Job.exec, Job.recruits, holding, each_changeThread, unheld]
      · simp [Job.exec, Job.recruits, holding]
  | perform op => exact each_perform unheld starts m op
  | registry job => simp [Job.exec, Job.recruits, each_registry]
  | deviceLane job => exact each_deviceLane starts m job
  | dataLane job => exact each_dataLane starts m job
  | participant job => simp [Job.exec, Job.recruits, each_participant]
  | hub job => simp [Job.exec, Job.recruits, each_hub unheld]
  | _ => simp [Job.exec, Job.recruits]

end Each

variable {config : Config} {hooks : List Hook} {system : System} {past : List Moment} {m m' : Machine}
  {t u : ThreadId} {job : Job} {later : List Job}

theorem agenda_eq (m : Machine) (t : ThreadId) : m.agenda t = m.agendas[t.val]?.getD [] := by
  unfold Machine.agenda Machine.thread? Machine.agendas Machine.each
  rw [List.getElem?_map]
  cases m.threads[t.val]? <;> rfl

theorem agendas_setAgenda (m : Machine) (t : ThreadId) (agenda : List Job) :
    (m.setAgenda t agenda).agendas = m.agendas.set t.val agenda := by
  unfold Machine.setAgenda Machine.changeThread Machine.agendas Machine.each
  apply List.ext_getElem?
  intro i
  simp only [List.getElem?_map, List.getElem?_modify, List.getElem?_set, List.length_map]
  by_cases here : t.val = i
  · subst here
    by_cases known : t.val < m.threads.length
    · simp [known]
    · simp [known]
  · simp [here]

theorem agendas_changeThread (m : Machine) (t : ThreadId) (change : Thread → Thread)
    (kept : ∀ thread, (change thread).agenda = thread.agenda) : (m.changeThread t change).agendas = m.agendas :=
  each_changeThread m t change kept

@[simp] theorem agendas_spawn (m : Machine) (name : String) (agenda : List Job) :
    (m.spawn name agenda).2.agendas = m.agendas ++ [agenda] :=
  each_spawn (f := (·.agenda)) (g := id) (fun _ _ => rfl) m name agenda

theorem agendas_exec (m : Machine) (t : ThreadId) (job : Job) :
    (job.exec m t).1.agendas = m.agendas ++ job.recruits m := by
  have same := each_exec (f := (·.agenda)) (g := id) (fun _ _ => rfl) (fun _ _ => rfl) m t job (.inr fun _ _ => rfl)
  rwa [List.map_id] at same

-- What a panic drops: everything up to the call that catches it.
def cut : List Job → List Job
  | [] | .participant (.delivered _) :: _ => []
  | job :: rest => job :: cut rest

theorem cut_mem {later : List Job} (member : job ∈ cut later) : job ∈ later := by
  fun_induction cut later with
  | case1 => cases member
  | case2 => cases member
  | case3 first rest other ih =>
      rcases List.mem_cons.mp member with rfl | member
      · exact List.mem_cons_self ..
      · exact List.mem_cons_of_mem _ (ih member)

theorem cut_open {later : List Job} (member : job ∈ cut later) (d : Delivery) :
    job ≠ .participant (.delivered d) := by
  fun_induction cut later with
  | case1 => cases member
  | case2 => cases member
  | case3 first rest other ih =>
      rcases List.mem_cons.mp member with rfl | member
      · exact other d
      · exact ih member

def Moment.dropped (x : Moment) : List Job :=
  match x.job with
  | .panic => cut x.later
  | _ => []

theorem dropped_carry (notPanic : job ≠ .panic) : Moment.dropped ⟨m, t, job, later⟩ = [] := by
  unfold Moment.dropped
  split
  · exact absurd ‹_› notPanic
  · rfl

def kept (later : List Job) : List Job := (Machine.caught? later).getD []

theorem unwound (later : List Job) :
    (∃ d rest, later = cut later ++ .participant (.delivered d) :: rest ∧
      kept later = ParticipantJob.afterPanic d ++ rest) ∨ (later = cut later ∧ kept later = []) := by
  fun_induction cut later with
  | case1 => exact .inr ⟨rfl, rfl⟩
  | case2 d rest => exact .inl ⟨d, rest, rfl, rfl⟩
  | case3 job rest other ih =>
      have same : kept (job :: rest) = kept rest := by
        simp only [kept, Machine.caught?]
      rw [same]
      rcases ih with ⟨d, tail, split, left⟩ | ⟨split, left⟩
      · exact .inl ⟨d, tail, congrArg (List.cons job) split, left⟩
      · exact .inr ⟨congrArg (List.cons job) split, left⟩

theorem agendas_carry (m : Machine) (t : ThreadId) (job : Job) (later : List Job) :
    (m.carry t job later).agendas =
      (m.agendas ++ job.recruits m).set t.val ((job.exec m t).2 ++ later) := by
  simp only [Machine.carry, agendas_setAgenda, agendas_exec]

theorem agendas_unwind (m : Machine) (t : ThreadId) (later : List Job) :
    (m.unwind t later).agendas = m.agendas.set t.val (kept later) := by
  have before : (if Machine.abandons later then (HubJob.detach.exec (m.giveBackAll t) t).1 else m.giveBackAll t).agendas =
      m.agendas := by
    split <;> rfl
  unfold Machine.unwind
  cases caught : Machine.caught? later with
  | some agenda => simp only [kept, caught, agendas_setAgenda, before, Option.getD_some]
  | none =>
      have emptied : ∀ m' : Machine, m'.changeThread t ({ · with agenda := [], panicked := true }) =
          (m'.changeThread t ({ · with panicked := true })).setAgenda t [] := by
        intro m'
        simp [Machine.changeThread, Machine.setAgenda, List.modify_modify_eq, Function.comp_def]
      simp only [kept, caught, emptied, agendas_setAgenda, agendas_changeThread, before, Option.getD_none, implies_true]

theorem agenda_known {agenda : List Job} (here : m.agenda t = agenda) (busy : agenda ≠ []) :
    m.agendas[t.val]? = some agenda := by
  rw [agenda_eq] at here
  cases found : m.agendas[t.val]? with
  | none =>
      rw [found] at here
      exact absurd here.symm busy
  | some known =>
      rw [found] at here
      exact congrArg some here

theorem known_lt {agenda : List Job} (known : m.agendas[t.val]? = some agenda) :
    t.val < m.agendas.length := by
  obtain ⟨bound, _⟩ := List.getElem?_eq_some_iff.mp known
  exact bound

theorem ne_val (different : u ≠ t) : t.val ≠ u.val := by
  intro same
  apply different
  cases t
  cases u
  exact congrArg ThreadId.mk same.symm

theorem agenda_carry_self (agenda : m.agenda t = job :: later) :
    (m.carry t job later).agenda t = (job.exec m t).2 ++ later := by
  have bound := known_lt (agenda_known agenda (List.cons_ne_nil _ _))
  rw [agenda_eq, agendas_carry, List.getElem?_set_self]
  · rfl
  · rw [List.length_append]
    exact Nat.lt_add_right _ bound

theorem agenda_carry_other (job : Job) (later : List Job) (different : u ≠ t) :
    (m.carry t job later).agenda u = m.agenda u ∨
      (m.agendas.length ≤ u.val ∧
        (job.recruits m)[u.val - m.agendas.length]? = some ((m.carry t job later).agenda u)) := by
  rw [agenda_eq, agenda_eq, agendas_carry, List.getElem?_set_ne (ne_val different)]
  by_cases old : u.val < m.agendas.length
  · exact .inl (by rw [List.getElem?_append_left old])
  · rw [List.getElem?_append_right (Nat.le_of_not_lt old),
      List.getElem?_eq_none (Nat.le_of_not_lt old)]
    cases fresh : (job.recruits m)[u.val - m.agendas.length]? with
    | none => exact .inl rfl
    | some agenda => exact .inr ⟨Nat.le_of_not_lt old, rfl⟩

theorem agenda_carry_old (different : u ≠ t) (old : u.val < m.agendas.length) :
    (m.carry t job later).agenda u = m.agenda u := by
  rw [agenda_eq, agenda_eq, agendas_carry, List.getElem?_set_ne (ne_val different),
    List.getElem?_append_left old]

theorem agenda_unwind_self (agenda : m.agenda t = .panic :: later) :
    (m.unwind t later).agenda t = kept later := by
  have bound := known_lt (agenda_known agenda (List.cons_ne_nil _ _))
  rw [agenda_eq, agendas_unwind, List.getElem?_set_self bound]
  rfl

theorem agenda_unwind_other (different : u ≠ t) : (m.unwind t later).agenda u = m.agenda u := by
  rw [agenda_eq, agenda_eq, agendas_unwind, List.getElem?_set_ne (ne_val different)]

theorem mem_unwind (agenda : m.agenda t = .panic :: later) (member : job ∈ (m.unwind t later).agenda u) :
    job ∈ m.agenda u ∨ ∃ d, job ∈ ParticipantJob.afterPanic d := by
  by_cases mine : u = t
  · subst mine
    rw [agenda_unwind_self agenda] at member
    rcases unwound later with ⟨d, rest, split, left⟩ | ⟨_, left⟩
    · rw [left] at member
      rcases List.mem_append.mp member with caught | behind
      · exact .inr ⟨d, caught⟩
      · refine .inl ?_
        rw [agenda, split]
        exact List.mem_cons_of_mem _ (List.mem_append_right _ (List.mem_cons_of_mem _ behind))
    · rw [left] at member
      cases member
  · rw [agenda_unwind_other mine] at member
    exact .inl member

theorem agendas_beginWith (m : Machine) (jobs : List Job) :
    (m.beginWith jobs).agendas = m.agendas.set ThreadId.caller.val jobs := by
  have two : m.beginWith jobs =
      (m.changeThread .caller ({ · with reply := .unit, panicked := false })).setAgenda .caller jobs := by
    simp [Machine.beginWith, Machine.changeThread, Machine.setAgenda, List.modify_modify_eq,
      Function.comp_def]
  rw [two, agendas_setAgenda, agendas_changeThread]
  intro thread
  rfl

theorem agenda_beginWith_other (different : u ≠ .caller) (jobs : List Job) :
    (m.beginWith jobs).agenda u = m.agenda u := by
  rw [agenda_eq, agenda_eq, agendas_beginWith, List.getElem?_set_ne (ne_val different)]

theorem agenda_beginWith_caller (jobs : List Job) :
    (m.beginWith jobs).agenda .caller = jobs ∨ (m.beginWith jobs).agenda .caller = [] := by
  rw [agenda_eq, agendas_beginWith]
  by_cases known : ThreadId.caller.val < m.agendas.length
  · exact .inl (by rw [List.getElem?_set_self known]; rfl)
  · have absent : (m.agendas.set ThreadId.caller.val jobs).length ≤ ThreadId.caller.val := by
      rw [List.length_set]
      exact Nat.le_of_not_lt known
    exact .inr (by rw [List.getElem?_eq_none absent]; rfl)

theorem agenda_client (name : String) (agenda : List Job) :
    (m.spawn name agenda).2.agenda u = m.agenda u ∨ (m.spawn name agenda).2.agenda u = agenda := by
  rw [agenda_eq, agenda_eq, agendas_spawn]
  by_cases old : u.val < m.agendas.length
  · exact .inl (by rw [List.getElem?_append_left old])
  · rw [List.getElem?_append_right (Nat.le_of_not_lt old),
      List.getElem?_eq_none (Nat.le_of_not_lt old)]
    cases fresh : [agenda][u.val - m.agendas.length]? with
    | none => exact .inl rfl
    | some found => exact .inr (List.mem_singleton.mp (List.mem_of_getElem? fresh))

theorem agenda_client_old {name : String} {agenda : List Job} (old : u.val < m.agendas.length) :
    (m.spawn name agenda).2.agenda u = m.agenda u := by
  rw [agenda_eq, agenda_eq, agendas_spawn, List.getElem?_append_left old]

-- Properties of every job together with what stands behind it on the agenda.
def Each (P : Job → List Job → Prop) : List Job → Prop
  | [] => True
  | job :: rest => P job rest ∧ Each P rest

theorem each_append {P : Job → List Job → Prop} {front back : List Job} :
    Each P (front ++ back) ↔ Each (fun job rest => P job (rest ++ back)) front ∧ Each P back := by
  induction front with
  | nil => simp [Each]
  | cons job rest ih => simp [Each, ih, and_assoc]

theorem each_of_forall {P : Job → List Job → Prop} {agenda : List Job}
    (all : ∀ job ∈ agenda, ∀ rest, P job rest) : Each P agenda := by
  induction agenda with
  | nil => trivial
  | cons job rest ih =>
      exact ⟨all job (List.mem_cons_self ..) rest, ih fun j member => all j (List.mem_cons_of_mem _ member)⟩

theorem each_mem {P : Job → List Job → Prop} {agenda : List Job} (each : Each P agenda)
    (member : job ∈ agenda) : ∃ front back, agenda = front ++ job :: back ∧ P job back := by
  obtain ⟨front, back, rfl⟩ := List.append_of_mem member
  exact ⟨front, back, rfl, (each_append.mp each).2.1⟩

-- The agendas that threads of a run begin with.
inductive Fresh (config : Config) : ThreadId → List Job → Prop where
  | construction : Fresh config .caller (Machine.construction config)
  | assembly : Fresh config .caller Machine.assembly
  | operation (t : ThreadId) (op : Op) : Fresh config t [.perform op]
  | deviceWorker (t : ThreadId) (started : t ≠ .caller) : Fresh config t Plan.deviceWorker
  | dataWorker (t : ThreadId) (started : t ≠ .caller) (c : ConnectionHandle) (lane : LaneId) :
      Fresh config t (Plan.dataWorker c lane)
  | reporter (t : ThreadId) (started : t ≠ .caller) (device : DeviceInfo) (c : ConnectionHandle) :
      Fresh config t [.hub (.connect device c)]

theorem Fresh.all {P : Job → Prop} {agenda : List Job} (fresh : Fresh config u agenda) (log : ∀ record, P (.log record))
    (establish : P (.hub .establish)) (perform : ∀ op, P (.perform op)) (connect : ∀ device c, P (.hub (.connect device c)))
    (lookAtQueue : P (.deviceLane .look)) (lookAtLane : ∀ id, P (.dataLane (.look id))) : ∀ job ∈ agenda, P job := by
  cases fresh with
  | construction => exact List.forall_mem_cons.mpr ⟨log _, List.forall_mem_singleton.mpr establish⟩
  | assembly => exact List.forall_mem_singleton.mpr establish
  | operation => exact List.forall_mem_singleton.mpr (perform _)
  | deviceWorker => exact List.forall_mem_cons.mpr ⟨log _, List.forall_mem_singleton.mpr lookAtQueue⟩
  | dataWorker => exact List.forall_mem_cons.mpr ⟨log _, List.forall_mem_singleton.mpr (lookAtLane _)⟩
  | reporter => exact List.forall_mem_singleton.mpr (connect _ _)

def Job.fresh : Job → Bool
  | .log _ | .perform _ | .hub .establish | .hub (.connect ..) | .deviceLane .look | .dataLane (.look _) => true
  | _ => false

theorem Fresh.jobs {agenda : List Job} (fresh : Fresh config u agenda) : ∀ job ∈ agenda, job.fresh = true :=
  fresh.all (fun _ => rfl) rfl (fun _ => rfl) (fun _ _ => rfl) rfl fun _ => rfl

theorem fresh_recruits {agenda : List Job} (started : t ≠ .caller) (member : agenda ∈ job.recruits m) :
    Fresh config t agenda := by
  unfold Job.recruits at member
  split at member
  · split at member
    · exact List.mem_singleton.mp member ▸ .deviceWorker _ started
    · cases member
  · split at member
    · exact List.mem_singleton.mp member ▸ .dataWorker _ started _ _
    · cases member
  · split at member
    · exact (List.mem_replicate.mp member).2 ▸ .reporter _ started _ _
    · cases member
  · cases member

theorem initial_agenda (config : Config) (hooks : List Hook) (u : ThreadId) (jobs : List Job) :
    (u = .caller ∧ ((Machine.initial config hooks system).beginWith jobs).agenda u = jobs) ∨
      ((Machine.initial config hooks system).beginWith jobs).agenda u = [] := by
  by_cases caller : u = .caller
  · subst caller
    exact (agenda_beginWith_caller jobs).imp_left fun same => ⟨rfl, same⟩
  · rw [agenda_beginWith_other caller]
    cases u with
    | mk val =>
        cases val with
        | zero => exact .inr rfl
        | succ val => exact .inr rfl

theorem Run.caller_known (run : Run config hooks past m) : 0 < m.agendas.length := by
  refine Run.induct (G := fun _ => True) (P := fun _ m => 0 < m.agendas.length)
    ?construct ?assemble ?call ?client ?carry ?unwind run fun _ _ => trivial
  case construct | assemble =>
    intro system
    rw [agendas_beginWith, List.length_set]
    exact Nat.one_pos
  case call =>
    intro past m op _ known _
    rwa [agendas_beginWith, List.length_set]
  case client =>
    intro past m name op _ known
    rw [agendas_spawn, List.length_append]
    exact Nat.lt_add_right _ known
  case carry =>
    intro past m t job later _ known _ _ _ _
    rw [agendas_carry, List.length_set, List.length_append]
    exact Nat.lt_add_right _ known
  case unwind =>
    intro past m t later _ known _ _
    rwa [agendas_unwind, List.length_set]

theorem hub_unwind (m : Machine) (t : ThreadId) (later : List Job) :
    (m.unwind t later).hub = m.hub ∨ (m.unwind t later).hub = { m.hub with attached := false } := by
  unfold Machine.unwind
  by_cases left : Machine.abandons later = true
  · refine .inr ?_
    simp only [left, if_true]
    split <;> rfl
  · refine .inl ?_
    simp only [left, Bool.false_eq_true, if_false]
    split <;> rfl

theorem terminating_unwind : (m.unwind t later).hub.terminating = m.hub.terminating := by
  rcases hub_unwind m t later with hub | hub <;> rw [hub]

theorem registry_unwind : (m.unwind t later).hub.registry = m.hub.registry := by
  rcases hub_unwind m t later with hub | hub <;> rw [hub]

theorem connections_unwind : (m.unwind t later).hub.connections = m.hub.connections := by
  rcases hub_unwind m t later with hub | hub <;> rw [hub]

theorem each_imp {P Q : Job → List Job → Prop} {agenda : List Job}
    (imp : ∀ job rest, P job rest → Q job rest) (each : Each P agenda) : Each Q agenda := by
  induction agenda with
  | nil => trivial
  | cons job rest ih => exact ⟨imp job rest each.1, ih each.2⟩

-- A property of the hub together with a property of every job on every agenda; both may look at the
-- history. A step has to keep what holds of the jobs that stay where they are.
theorem Run.sustain {G : Moment → Prop} {I : List Moment → Hub → Prop}
    {P : List Moment → Hub → ThreadId → Job → List Job → Prop}
    (start : I [] { config, owned := false })
    (fresh : ∀ past h, Each (P past h .caller) (Machine.construction config) ∧
      Each (P past h .caller) Machine.assembly ∧ ∀ u op, Each (P past h u) [.perform op])
    (carry : ∀ {past m t job later}, Run config hooks past m → I past m.hub →
      (∀ u, Each (P past m.hub u) (m.agenda u)) → m.agenda t = job :: later → job ≠ .panic →
      job.enabled m t = true → G ⟨m, t, job, later⟩ →
      I (past ++ [⟨m, t, job, later⟩]) (job.exec m t).1.hub ∧
      (∀ u j rest, P past m.hub u j rest → P (past ++ [⟨m, t, job, later⟩]) (job.exec m t).1.hub u j rest) ∧
      Each (fun j rest => P (past ++ [⟨m, t, job, later⟩]) (job.exec m t).1.hub t j (rest ++ later))
        (job.exec m t).2 ∧
      ∀ u agenda, m.agendas.length ≤ u.val → u ≠ .caller →
        (job.recruits m)[u.val - m.agendas.length]? = some agenda →
        Each (P (past ++ [⟨m, t, job, later⟩]) (job.exec m t).1.hub u) agenda)
    (panic : ∀ {past m t later h}, Run config hooks past m → I past m.hub → m.agenda t = .panic :: later →
      G ⟨m, t, .panic, later⟩ → (h = m.hub ∨ h = { m.hub with attached := false }) →
      I (past ++ [⟨m, t, .panic, later⟩]) h ∧
      ∀ u j rest, P past m.hub u j rest → P (past ++ [⟨m, t, .panic, later⟩]) h u j rest)
    (caught : ∀ past h u d rest, Each (P past h u) (.participant (.delivered d) :: rest) →
      Each (P past h u) (ParticipantJob.afterPanic d ++ rest))
    (run : Run config hooks past m) (all : ∀ x ∈ past, G x) :
    I past m.hub ∧ ∀ u, Each (P past m.hub u) (m.agenda u) := by
  refine Run.induct (G := G) (P := fun past m => I past m.hub ∧ ∀ u, Each (P past m.hub u) (m.agenda u))
    ?construct ?assemble ?call ?client ?carry ?unwind run all
  case construct =>
    intro system
    refine ⟨start, fun u => ?_⟩
    rcases initial_agenda config hooks u (Machine.construction config) with ⟨caller, same⟩ | same
    · rw [same, caller]
      exact (fresh _ _).1
    · rw [same]
      trivial
  case assemble =>
    intro system
    refine ⟨start, fun u => ?_⟩
    rcases initial_agenda config hooks u Machine.assembly with ⟨caller, same⟩ | same
    · rw [same, caller]
      exact (fresh _ _).2.1
    · rw [same]
      trivial
  case call =>
    intro past m op _ before _
    refine ⟨before.1, fun u => ?_⟩
    by_cases caller : u = .caller
    · subst caller
      rcases agenda_beginWith_caller (m := m) [.perform op] with same | same
      · rw [same]
        exact (fresh _ _).2.2 _ op
      · rw [same]
        trivial
    · rw [agenda_beginWith_other caller]
      exact before.2 u
  case client =>
    intro past m name op _ before
    refine ⟨before.1, fun u => ?_⟩
    rcases agenda_client (m := m) (u := u) name [.perform op] with same | same
    · rw [same]
      exact before.2 u
    · rw [same]
      exact (fresh _ _).2.2 _ op
  case carry =>
    intro past m t job later run before agenda notPanic enabled here
    obtain ⟨hub, keep, next, recruits⟩ := carry run before.1 before.2 agenda notPanic enabled here
    refine ⟨hub, fun u => ?_⟩
    by_cases same : u = t
    · subst same
      have whole := before.2 u
      rw [agenda] at whole
      rw [agenda_carry_self agenda]
      exact each_append.mpr ⟨next, each_imp (keep u) whole.2⟩
    · rcases agenda_carry_other (m := m) job later same with old | ⟨new, recruit⟩
      · rw [old]
        exact each_imp (keep u) (before.2 u)
      · have started : u ≠ .caller := by
          intro caller
          rw [caller] at new
          exact Nat.not_lt.mpr new run.caller_known
        exact recruits u _ new started recruit
  case unwind =>
    intro past m t later run before agenda here
    obtain ⟨hub, keep⟩ := panic run before.1 agenda here (hub_unwind m t later)
    refine ⟨hub, fun u => ?_⟩
    by_cases same : u = t
    · subst same
      have whole := before.2 u
      rw [agenda] at whole
      rw [agenda_unwind_self agenda]
      rcases unwound later with ⟨d, tail, split, left⟩ | ⟨_, left⟩
      · have rest := whole.2
        rw [split] at rest
        rw [left]
        exact caught _ _ u d tail (each_imp (keep u) (each_append.mp rest).2)
      · rw [left]
        trivial
    · rw [agenda_unwind_other same]
      exact each_imp (keep u) (before.2 u)

theorem Run.each {G : Moment → Prop} {P : ThreadId → Job → List Job → Prop}
    (fresh : ∀ u agenda, Fresh config u agenda → Each (P u) agenda)
    (next : ∀ {past m t job later}, Run config hooks past m → (∀ u, Each (P u) (m.agenda u)) →
      m.agenda t = job :: later → job ≠ .panic → job.enabled m t = true →
      G ⟨m, t, job, later⟩ → Each (fun j rest => P t j (rest ++ later)) (job.exec m t).2)
    (caught : ∀ u d rest, Each (P u) (.participant (.delivered d) :: rest) →
      Each (P u) (ParticipantJob.afterPanic d ++ rest))
    (run : Run config hooks past m) (all : ∀ x ∈ past, G x) : ∀ u, Each (P u) (m.agenda u) := by
  refine (Run.sustain (G := G) (I := fun _ _ => True) (P := fun _ _ => P) trivial ?fresh ?carry ?panic
    (fun _ _ => caught) run all).2
  case fresh =>
    exact fun _ _ => ⟨fresh _ _ .construction, fresh _ _ .assembly, fun u op => fresh _ _ (.operation u op)⟩
  case carry =>
    intro past m t job later run _ each agenda notPanic enabled here
    refine ⟨trivial, fun _ _ _ holds => holds, next run each agenda notPanic enabled here, ?_⟩
    intro u agenda _ started recruit
    exact fresh _ _ (fresh_recruits started (List.mem_of_getElem? recruit))
  case panic => exact fun _ _ _ _ _ => ⟨trivial, fun _ _ _ holds => holds⟩

theorem initial_fresh (config : Config) (hooks : List Hook) (u : ThreadId) {jobs : List Job} (fresh : Fresh config .caller jobs) :
    ((Machine.initial config hooks system).beginWith jobs).agenda u = [] ∨
      Fresh config u (((Machine.initial config hooks system).beginWith jobs).agenda u) := by
  rcases initial_agenda config hooks u jobs with ⟨rfl, same⟩ | same
  · exact .inr (same.symm ▸ fresh)
  · exact .inl same

theorem initial_begins {P : Job → Prop} (begins : ∀ u agenda, Fresh config u agenda → ∀ job ∈ agenda, P job) (hooks : List Hook)
    {jobs : List Job} (fresh : Fresh config .caller jobs) (u : ThreadId) :
    ∀ job ∈ ((Machine.initial config hooks system).beginWith jobs).agenda u, P job := by
  rcases initial_fresh config hooks u fresh with idle | fresh
  · rw [idle]
    exact fun _ none => by cases none
  · exact begins u _ fresh

theorem call_fresh (config : Config) (idle : m.agenda .caller = []) (op : Op) (u : ThreadId) :
    (m.beginWith [.perform op]).agenda u = m.agenda u ∨
      (m.agenda u = [] ∧ Fresh config u ((m.beginWith [.perform op]).agenda u)) := by
  by_cases caller : u = .caller
  · subst caller
    rcases agenda_beginWith_caller (m := m) [.perform op] with same | same
    · exact .inr ⟨idle, same.symm ▸ .operation _ op⟩
    · exact .inl (same.trans idle.symm)
  · exact .inl (agenda_beginWith_other caller _)

theorem client_fresh (config : Config) (m : Machine) (name : String) (op : Op) (u : ThreadId) :
    (m.spawn name [.perform op]).2.agenda u = m.agenda u ∨
      (m.agenda u = [] ∧ Fresh config u ((m.spawn name [.perform op]).2.agenda u)) := by
  by_cases old : u.val < m.agendas.length
  · exact .inl (agenda_client_old old)
  · have none : m.agenda u = [] := by
      rw [agenda_eq, List.getElem?_eq_none (Nat.le_of_not_lt old)]
      rfl
    rcases agenda_client (m := m) (u := u) name [.perform op] with same | same
    · exact .inl same
    · exact .inr ⟨none, same.symm ▸ .operation u op⟩

theorem Run.carry_fresh (run : Run config hooks past m) (job : Job) (later : List Job) (different : u ≠ t) :
    (m.carry t job later).agenda u = m.agenda u ∨
      (m.agenda u = [] ∧ Fresh config u ((m.carry t job later).agenda u)) := by
  rcases agenda_carry_other (m := m) job later different with old | ⟨new, recruit⟩
  · exact .inl old
  · refine .inr ⟨?_, fresh_recruits (fun caller => ?_) (List.mem_of_getElem? recruit)⟩
    · rw [agenda_eq, List.getElem?_eq_none new]
      rfl
    · rw [caller] at new
      exact Nat.not_lt.mpr new run.caller_known

theorem Run.carried (run : Run config hooks past m) (agenda : m.agenda t = job :: later) {j : Job}
    (member : j ∈ (m.carry t job later).agenda u) :
    (u = t ∧ j ∈ (job.exec m t).2) ∨ (j ∈ m.agenda u ∧ (u = t → j ∈ later)) ∨
      ∃ jobs, Fresh config u jobs ∧ j ∈ jobs := by
  by_cases mine : u = t
  · subst mine
    rw [agenda_carry_self agenda] at member
    rcases List.mem_append.mp member with next | behind
    · exact .inl ⟨rfl, next⟩
    · exact .inr (.inl ⟨agenda ▸ List.mem_cons_of_mem _ behind, fun _ => behind⟩)
  · rcases run.carry_fresh job later mine with same | ⟨_, fresh⟩
    · exact .inr (.inl ⟨same ▸ member, fun same => absurd same mine⟩)
    · exact .inr (.inr ⟨_, fresh, member⟩)

theorem exited_idle (exited : m.exited t = true) : m.agenda t = [] := by
  unfold Machine.exited at exited
  unfold Machine.agenda
  cases known : m.thread? t with
  | none => rfl
  | some thread =>
      rw [known] at exited
      exact List.isEmpty_iff.mp exited

def Machine.settled (m : Machine) : Prop := ∀ t, m.step? t = none

theorem settled_all (stuck : ∀ k < m.agendas.length, (m.step? ⟨k⟩).isNone = true) : m.settled := by
  rintro ⟨k⟩
  by_cases known : k < m.agendas.length
  · exact Option.isNone_iff_eq_none.mp (stuck k known)
  · have idle : m.agenda ⟨k⟩ = [] := by
      rw [agenda_eq, List.getElem?_eq_none (Nat.not_lt.mp known)]
      rfl
    rw [Machine.step?, idle]

end TransportHub
