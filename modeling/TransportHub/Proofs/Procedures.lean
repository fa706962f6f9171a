import TransportHub.Proofs.Isolation
/-!
The procedures of a dispatcher, step by step: each step of the caller or of a worker leaves what is to be seen of one
connection on the way of the reference. When no thread can go on any more, the caller is done.
-/

set_option autoImplicit false

namespace TransportHub

open DataLanes (Slot)

variable {config : Config} {past more : List Moment} {m m' : Machine} {t u w : ThreadId}
  {job : Job} {later : List Job} {slot : Slot} {id : LaneId} {c d : ConnectionHandle} {op : Op} {v v' : View} {held : Bool}

theorem accepted_routine (routine : job.routine = true) (m : Machine) (id : LaneId) : job.accepted m id = [] := by
  cases job with
  | dataLane job => cases job <;> first | rfl | cases routine
  | _ => rfl

theorem Staffed.gathers (staffed : Staffed config past m) (member : slot ∈ roster past)
    (agenda : m.agenda slot.worker = job :: later) {r : Round} (gathers : job.gathers m = some r) :
    r.listeners = m.hub.dataLanes.listeners.snapshot ∧ r.batch = r.data.map .data := by
  cases job with
  | deviceLane job =>
      cases job with
      | look =>
          have enlisted := staffed.run.enlisted.2 slot.worker
          rw [agenda] at enlisted
          exact absurd rfl (staffed.run.crews_apart _ enlisted.1 slot member)
      | _ => cases gathers
  | dataLane job =>
      cases job with
      | snapshot c batch =>
          cases gathers
          have whole : (batch.map Callback.data).filterMap Callback.data? = batch := by
            rw [List.filterMap_map]
            exact List.filterMap_some
          exact ⟨rfl, congrArg _ whole.symm⟩
      | _ => cases gathers
  | _ => cases gathers

theorem Stage.worker (stage : Stage config c v op past more m) (staffed : Staffed config (past ++ more) m) (passive : m.cast.passive)
    (member : slot ∈ roster (past ++ more)) (agenda : m.agenda slot.worker = job :: later) (went : m.step? slot.worker = some m') :
    Stage config c v op past (more ++ [⟨m, slot.worker, job, later⟩]) m' := by
  have aside := staffed.run.aside passive member agenda went
  have routine := staffed.run.routine passive slot.worker (.inr ⟨slot, member, rfl⟩)
  rw [agenda] at routine
  have kind := routine.1.kind
  have snoc : ∀ v', m.view c = v' → v'.listeners = (aim config c v op).listeners → Tally config c v op more m →
      Tally config c v op (more ++ [⟨m, slot.worker, job, later⟩]) m' := fun v' view listeners tally => by
    refine tally.snoc (accepted_routine kind m) (fun id d => (aside.serves id d).mpr) (fun r gathers => ?_) fun id stops => ?_
    · rw [← listeners, ← view]
      exact staffed.gathers member agenda gathers
    · rw [show job = _ from stops] at kind
      cases kind
  cases stage with
  | early shape view poised =>
      rw [(poised.resting slot member).stuck] at went
      cases went
  | late shape view locks unharmed tally =>
      refine .late ?_ ((aside.view c).trans view) (aside.locks.trans locks) (aside.panicked.trans unharmed)
        (snoc _ view shape.listeners tally)
      rw [aside.agenda, ← List.append_assoc]
      exact shape.aside aside
  | done idle view locks told tally =>
      exact .done (aside.agenda.trans idle) ((aside.view c).trans view) (aside.locks.trans locks) (aside.result ▸ told)
        (snoc _ view rfl tally)

theorem silent_gentle (gentle : job.gentle = true) (gathers : job.gathers m = none) : Moment.Silent ⟨m, t, job, later⟩ := by
  refine ⟨gathers, fun id => ?_, fun id stops => ?_⟩
  · cases job with
    | dataLane job => cases job <;> first | rfl | cases gentle
    | _ => rfl
  · rw [show job = _ from stops] at gentle
    cases gentle

theorem Stage.early_carry {after : Machine} {next : List Job} {before : Bool} (staffed : Staffed config (past ++ more) m)
    (poised : Poised past more m before) (agenda : m.agenda .caller = job :: later) (exec : job.exec m .caller = (after, next))
    (gentle : job.gentle = true) (gathers : job.gathers m = none)
    (shape : Early (past ++ more ++ [⟨m, .caller, job, later⟩]) (m.carry .caller job later) v op v' held (next ++ later))
    (view : after.view c = v') (locks : after.locks = if held then [(.laneMap, .caller)] else []) :
    Stage config c v op past (more ++ [⟨m, .caller, job, later⟩]) (m.carry .caller job later) := by
  have carried : m.carry .caller job later = after.setAgenda .caller (next ++ later) := by simp only [Machine.carry, exec]
  have shape : Early (past ++ (more ++ [⟨m, .caller, job, later⟩])) (m.carry .caller job later) v op v' held
      ((m.carry .caller job later).agenda .caller) := by
    rw [agenda_carry_self agenda, exec, ← List.append_assoc]
    exact shape
  refine .early shape ?view ⟨?locks, (panicked_carry staffed.run.caller_known).trans poised.unharmed, ?resting, ?silent⟩
  case view =>
    rw [carried]
    exact view
  case locks =>
    rw [carried]
    exact locks
  case resting =>
    rw [← List.append_assoc]
    exact poised.resting.carry staffed.run gentle
  case silent => exact List.forall_mem_append.mpr ⟨poised.silent, List.forall_mem_singleton.mpr (silent_gentle gentle gathers)⟩

theorem Stage.late_carry {after : Machine} {next : List Job} (staffed : Staffed config (past ++ more) m)
    (unharmed : m.panicked .caller = false) (agenda : m.agenda .caller = job :: later) (exec : job.exec m .caller = (after, next))
    (shape : Late config c v (past ++ more ++ [⟨m, .caller, job, later⟩]) (m.carry .caller job later) op v' held (next ++ later))
    (view : after.view c = v') (locks : after.locks = if held then [(.laneMap, .caller)] else [])
    (tally : Tally config c v op (more ++ [⟨m, .caller, job, later⟩]) (m.carry .caller job later)) :
    Stage config c v op past (more ++ [⟨m, .caller, job, later⟩]) (m.carry .caller job later) := by
  have carried : m.carry .caller job later = after.setAgenda .caller (next ++ later) := by simp only [Machine.carry, exec]
  have shape : Late config c v (past ++ (more ++ [⟨m, .caller, job, later⟩])) (m.carry .caller job later) op v' held
      ((m.carry .caller job later).agenda .caller) := by
    rw [agenda_carry_self agenda, exec, ← List.append_assoc]
    exact shape
  refine .late shape ?view ?locks ((panicked_carry staffed.run.caller_known).trans unharmed) tally
  case view =>
    rw [carried]
    exact view
  case locks =>
    rw [carried]
    exact locks

theorem arrives {reply : Reply} {final : View} (about : op.about c = decide (d = c))
    (here : c = d → v.after config c op = (reply, final)) (away : c ≠ d → final = v) :
    final = aim config c v op ∧ Told config c v op reply := by
  by_cases same : c = d
  · have about : op.about c = true := about.trans (decide_eq_true same.symm)
    rw [aim, if_pos about, here same]
    exact ⟨rfl, fun _ => by rw [here same]⟩
  · have about : op.about c = false := about.trans (decide_eq_false fun other => same other.symm)
    rw [aim, about, away same]
    exact ⟨rfl, fun none => by rw [about] at none; cases none⟩

theorem Early.performs (kind : op.dispatcher = true) (staffed : Staffed config (past ++ more) m) (poised : Poised past more m false)
    (agenda : m.agenda .caller = [.perform op]) (view : m.view c = v) :
    Stage config c v op past (more ++ [⟨m, .caller, .perform op, []⟩]) (m.carry .caller (.perform op) []) := by
  have performs : m.perform op = m.performOwned op := perform_dispatcher kind staffed.owned
  have answer : (m.perform op).2 = [.answer (v.after config c op).1] → op.about c = true → v.queued c op = [] →
      (m.perform op).1.view c = (v.after config c op).2 →
      Stage config c v op past (more ++ [⟨m, .caller, .perform op, []⟩]) (m.carry .caller (.perform op) []) := by
    intro answers about idle view
    have exec : (Job.perform op).exec m .caller = ((m.perform op).1, [.answer (v.after config c op).1]) := Prod.ext rfl answers
    refine .late_carry staffed poised.unharmed agenda exec (.rest op _ .answer fun _ => rfl) ?_
      ((books_perform m op).locks.trans poised.locks) (.silent ?_ idle)
    · rw [aim, if_pos about]
      exact view
    · exact List.forall_mem_append.mpr ⟨poised.silent, List.forall_mem_singleton.mpr (silent_gentle rfl rfl)⟩
  cases op with
  | dataLanes op =>
      cases op with
      | start d => exact .early_carry staffed poised agenda performs rfl rfl (.seekStart d) view poised.locks
      | stop d => exact .early_carry staffed poised agenda performs rfl rfl (.seekStop d) view poised.locks
      | enqueue d callback => exact .early_carry staffed poised agenda performs rfl rfl (.find d callback) view poised.locks
      | shutdown join =>
          refine .early_carry staffed poised agenda performs rfl rfl (.close join) ?_ ?_
          · rw [← view]
            cases join
            · exact view_terminating staffed poised.resting rfl rfl rfl
            · exact view_terminating staffed poised.resting rfl rfl rfl
          · cases join <;> exact poised.locks
  | addDataListener ref =>
      obtain ⟨after, told⟩ := @view_listeners config m c _ staffed.owned (.inl ⟨ref, rfl⟩)
      rw [view] at after told
      exact answer told rfl rfl after
  | removeDataListener ref =>
      obtain ⟨after, told⟩ := @view_listeners config m c _ staffed.owned (.inr ⟨ref, rfl⟩)
      rw [view] at after told
      exact answer told rfl rfl after
  | terminate =>
      refine answer (by rw [performs]; rfl) rfl rfl ?_
      rw [performs, ← view]
      exact view_terminating staffed poised.resting rfl rfl rfl
  | _ => cases kind

theorem Early.starts (staffed : Staffed config (past ++ more) m) (poised : Poised past more m true)
    (agenda : m.agenda .caller = [.dataLane (.start d)]) (view : m.view c = v) :
    Stage config c v (.dataLanes (.start d)) past (more ++ [⟨m, .caller, .dataLane (.start d), []⟩])
      (m.carry .caller (.dataLane (.start d)) []) := by
  have silent : ∀ x ∈ more ++ [⟨m, .caller, .dataLane (.start d), []⟩], x.Silent :=
    List.forall_mem_append.mpr ⟨poised.silent, List.forall_mem_singleton.mpr (silent_gentle rfl rfl)⟩
  subst view
  cases closed : m.hub.dataLanes.closed with
  | true =>
      have exec : Job.exec m .caller (.dataLane (.start d)) =
          (m, [Job.logDataLane d .closed, .release .laneMap, .answer (.done (.error .shuttingDown))]) := by
        simp only [Job.exec, DataLaneJob.exec, closed, if_true]
      obtain ⟨same, told⟩ := @arrives config c d (.dataLanes (.start d)) (m.view c) (.done (.error .shuttingDown)) (m.view c) rfl
        (fun _ => by simp [View.after, Machine.view, closed]) fun _ => rfl
      exact .late_carry staffed poised.unharmed agenda exec (.rest _ _ (.log _ (.release .answer)) told) same poised.locks
        (.silent silent rfl)
  | false =>
      cases occupied : m.hub.dataLanes.occupied d with
      | true =>
          have exec : Job.exec m .caller (.dataLane (.start d)) =
              (m, [Job.logDataLane d .occupied, .release .laneMap, .answer (.done (.ok ()))]) := by
            simp [Job.exec, DataLaneJob.exec, closed, occupied]
          obtain ⟨same, told⟩ := @arrives config c d (.dataLanes (.start d)) (m.view c) (.done (.ok ())) (m.view c) rfl
            (fun same => by
              subst same
              have unclosed : (m.view c).closed = false := closed
              simp [View.after, unclosed, view_occupied, occupied]) fun _ => rfl
          exact .late_carry staffed poised.unharmed agenda exec (.rest _ _ (.log _ (.release .answer)) told) same poised.locks
            (.silent silent rfl)
      | false =>
          have exec : Job.exec m .caller (.dataLane (.start d)) =
              (m, [.release .laneMap, .dataLane .reap, .dataLane (.spawn d)]) := by
            simp [Job.exec, DataLaneJob.exec, closed, occupied]
          exact .early_carry staffed poised agenda exec rfl rfl (.begun d closed occupied) rfl poised.locks

theorem locks_given (locks : m.locks = [(.laneMap, .caller)]) : (m.giveBack .laneMap).locks = [] := by
  simp [Machine.giveBack, locks]

theorem locks_taken (locks : m.locks = []) : (m.take .caller .laneMap).locks = [(.laneMap, .caller)] := by
  simp [Machine.take, locks]

theorem Early.reaps (staffed : Staffed config (past ++ more) m) (poised : Poised past more m false)
    (agenda : m.agenda .caller = [.dataLane .reap, .dataLane (.spawn d)]) (view : m.view c = v)
    (unclosed : m.hub.dataLanes.closed = false) (vacant : m.hub.dataLanes.occupied d = false) :
    Stage config c v (.dataLanes (.start d)) past (more ++ [⟨m, .caller, .dataLane .reap, [.dataLane (.spawn d)]⟩])
      (m.carry .caller (.dataLane .reap) [.dataLane (.spawn d)]) := by
  have exec : Job.exec m .caller (.dataLane .reap) =
      ((Job.exec m .caller (.dataLane .reap)).1, (m.hub.dataLanes.retired.filter m.exited).map DataLaneJob.joinWorker) := rfl
  refine .early_carry staffed poised agenda exec rfl rfl
    (.joins d ?closed ?vacant _ fun w member => ?gone) view poised.locks
  case closed => exact unclosed
  case vacant => exact vacant
  obtain ⟨retired, exited⟩ := List.mem_filter.mp member
  obtain ⟨slot, inside, rfl, _⟩ := staffed.retired w retired
  refine ⟨?_, slot, mem_roster_snoc.mpr (.inl inside), rfl⟩
  rw [agenda_carry_old (staffed.run.rostered.apart inside) (staffed.run.rostered.known slot inside).2.2]
  exact exited_idle exited

theorem Staffed.unharmed (staffed : Staffed config past m) (member : slot ∈ roster past) : m.panicked slot.worker = false :=
  (staffed.run.composed slot member).1

theorem exec_join (staffed : Staffed config past m) (member : slot ∈ roster past) :
    (DataLaneJob.joinWorker slot.worker).exec m .caller = (m, []) := by
  have apart := staffed.run.rostered.apart member
  simp only [DataLaneJob.joinWorker, Job.exec, if_neg apart, (staffed.run.composed slot member).1, Bool.false_eq_true, if_false]

theorem Early.joined {ws : List ThreadId} (staffed : Staffed config (past ++ more) m) (poised : Poised past more m false)
    (agenda : m.agenda .caller = (w :: ws).map DataLaneJob.joinWorker ++ [.dataLane (.spawn d)]) (view : m.view c = v)
    (unclosed : m.hub.dataLanes.closed = false) (vacant : m.hub.dataLanes.occupied d = false)
    (gone : ∀ u ∈ w :: ws, m.agenda u = [] ∧ ∃ slot ∈ roster (past ++ more), slot.worker = u) :
    Stage config c v (.dataLanes (.start d)) past
      (more ++ [⟨m, .caller, DataLaneJob.joinWorker w, ws.map DataLaneJob.joinWorker ++ [.dataLane (.spawn d)]⟩])
      (m.carry .caller (DataLaneJob.joinWorker w) (ws.map DataLaneJob.joinWorker ++ [.dataLane (.spawn d)])) := by
  obtain ⟨_, slot, member, rfl⟩ := gone w (List.mem_cons_self ..)
  have exec := exec_join staffed member
  refine .early_carry staffed poised agenda exec rfl rfl (.joins d ?closed ?vacant ws fun u inside => ?gone) view poised.locks
  case closed =>
    rw [hub_carry, exec]
    exact unclosed
  case vacant =>
    rw [hub_carry, exec]
    exact vacant
  obtain ⟨idle, other, member, rfl⟩ := gone u (List.mem_cons_of_mem _ inside)
  refine ⟨?_, other, mem_roster_snoc.mpr (.inl member), rfl⟩
  rw [agenda_carry_old (staffed.run.rostered.apart member) (staffed.run.rostered.known other member).2.2]
  exact idle

theorem silent_spawn (m : Machine) (t : ThreadId) (later : List Job) (d : ConnectionHandle) :
    Moment.Silent ⟨m, t, .dataLane (.spawn d), later⟩ :=
  ⟨rfl, fun _ => rfl, fun _ none => by cases none⟩

theorem Early.spawns (staffed : Staffed config (past ++ more) m) (poised : Poised past more m false)
    (agenda : m.agenda .caller = [.dataLane (.spawn d)]) (view : m.view c = v)
    (unclosed : m.hub.dataLanes.closed = false) (vacant : m.hub.dataLanes.occupied d = false) :
    Stage config c v (.dataLanes (.start d)) past (more ++ [⟨m, .caller, .dataLane (.spawn d), []⟩])
      (m.carry .caller (.dataLane (.spawn d)) []) := by
  have silent : ∀ x ∈ more ++ [⟨m, .caller, .dataLane (.spawn d), []⟩], x.Silent :=
    List.forall_mem_append.mpr ⟨poised.silent, List.forall_mem_singleton.mpr (silent_spawn ..)⟩
  have asked := @view_spawn m c (fun slot => staffed.homes c slot) d
  subst view
  have shut : (m.view c).closed = false := unclosed
  have tally : ∀ {m' : Machine}, Tally config c (m.view c) (.dataLanes (.start d))
      (more ++ [⟨m, .caller, .dataLane (.spawn d), []⟩]) m' :=
    .silent silent rfl
  have answers := view_answer staffed.run.configured c
  cases spawn : m.system.answer (config.dataThread d) with
  | started =>
      have exec : Job.exec m .caller (.dataLane (.spawn d)) = ((Job.exec m .caller (.dataLane (.spawn d))).1,
          [.acquire .laneMap, .dataLane (.publish d ⟨⟨m.hub.dataLanes.lanes.length⟩, ⟨m.threads.length⟩⟩)]) := by
        simp only [Job.exec, DataLaneJob.exec, staffed.run.configured, spawn]
        rfl
      have opened : (m.carry .caller (.dataLane (.spawn d)) []).hub.dataLanes.lane? ⟨m.hub.dataLanes.lanes.length⟩ = some
          { connection := d } := by
        simp only [hub_carry, Job.exec, DataLaneJob.exec, staffed.run.configured, spawn]
        exact List.getElem?_concat_length
      refine .late_carry staffed poised.unharmed agenda exec (.seekPublish d _ ?_ ?_ ⟨_, opened, rfl⟩ ?_ ?_) asked ?_ tally
      · simp only [hub_carry, Job.exec, DataLaneJob.exec, staffed.run.configured, spawn]
        exact unclosed
      · simp only [hub_carry, Job.exec, DataLaneJob.exec, staffed.run.configured, spawn]
        exact vacant
      · have terminating : (m.carry .caller (.dataLane (.spawn d)) []).hub.terminating = m.hub.terminating := by
          simp only [hub_carry, Job.exec, DataLaneJob.exec, staffed.run.configured, spawn]
          rfl
        simp [Machine.ready, opened, terminating, DataLane.accepts, Machine.view]
      · rintro rfl
        rw [answers, spawn]
      · simp only [Job.exec, DataLaneJob.exec, staffed.run.configured, spawn]
        exact poised.locks
  | refused cause =>
      have exec : Job.exec m .caller (.dataLane (.spawn d)) = (m.answered (config.dataThread d),
          [Job.logDataLane d (.cannotStart cause), .answer (.done (.error (.workerSpawn cause)))]) := by
        simp only [Job.exec, DataLaneJob.exec, staffed.run.configured, spawn]
      rw [exec] at asked
      obtain ⟨same, told⟩ := @arrives config c d (.dataLanes (.start d)) (m.view c) (.done (.error (.workerSpawn cause)))
        (if c = d then (m.view c).asked else m.view c) rfl
        (fun same => by
          subst same
          simp [View.after, shut, view_occupied, vacant, answers, spawn]) fun apart => if_neg apart
      exact .late_carry staffed poised.unharmed agenda exec (.rest _ _ (.log _ .answer) told) (asked.trans same) poised.locks tally
  | crashed =>
      have exec : Job.exec m .caller (.dataLane (.spawn d)) = (m.answered (config.dataThread d), [.panic]) := by
        simp only [Job.exec, DataLaneJob.exec, staffed.run.configured, spawn]
      rw [exec] at asked
      obtain ⟨same, told⟩ := @arrives config c d (.dataLanes (.start d)) (m.view c) .panicked
        (if c = d then (m.view c).asked else m.view c) rfl
        (fun same => by
          subst same
          simp [View.after, shut, view_occupied, vacant, answers, spawn]) fun apart => if_neg apart
      exact .late_carry staffed poised.unharmed agenda exec (.crash d told) (asked.trans same) poised.locks tally

theorem Early.halts (staffed : Staffed config (past ++ more) m) (poised : Poised past more m true)
    (agenda : m.agenda .caller = [.dataLane (.stop d)]) (view : m.view c = v) :
    Stage config c v (.dataLanes (.stop d)) past (more ++ [⟨m, .caller, .dataLane (.stop d), []⟩])
      (m.carry .caller (.dataLane (.stop d)) []) := by
  have silent : ∀ x ∈ more ++ [⟨m, .caller, .dataLane (.stop d), []⟩], x.Silent :=
    List.forall_mem_append.mpr ⟨poised.silent, List.forall_mem_singleton.mpr (silent_gentle rfl rfl)⟩
  subst view
  cases found : m.hub.dataLanes.slots.get? d with
  | none =>
      have exec : Job.exec m .caller (.dataLane (.stop d)) =
          (m, [Job.logDataLane d .noWorker, .release .laneMap, .answer (.flag false)]) := by
        simp only [Job.exec, DataLaneJob.exec, DataLanes.withdraw, found]
      obtain ⟨same, told⟩ := @arrives config c d (.dataLanes (.stop d)) (m.view c) (.flag false) (m.view c) rfl
        (fun same => by
          subst same
          have empty : (m.view c).lane = none := by simp only [Machine.view, found, Option.map_none]
          simp only [View.after, empty, Option.isSome_none]
          exact congrArg _ (view_ext rfl rfl rfl rfl rfl empty.symm rfl)) fun _ => rfl
      exact .late_carry staffed poised.unharmed agenda exec (.rest _ _ (.log _ (.release .answer)) told) same poised.locks
        (.silent silent rfl)
  | some slot =>
      have member := staffed.run.enlisted.1.2 slot (staffed.run.enlisted.1.1 d slot found)
      have exec : Job.exec m .caller (.dataLane (.stop d)) = ((Job.exec m .caller (.dataLane (.stop d))).1,
          [Job.logDataLane d .stopping, .dataLane (.requestStop slot.lane), .dataLane (.retire slot.worker), .release .laneMap,
            .answer (.flag true)]) := by
        simp only [Job.exec, DataLaneJob.exec, DataLanes.withdraw, found]
      obtain ⟨same, told⟩ := @arrives config c d (.dataLanes (.stop d)) (m.view c) (.flag true)
        (if c = d then { m.view c with lane := none } else m.view c) rfl
        (fun same => by
          subst same
          have busy : (m.view c).lane.isSome = true := by simp only [Machine.view, found, Option.map_some, Option.isSome_some]
          simp only [View.after, busy, if_true]) fun apart => if_neg apart
      refine .late_carry staffed poised.unharmed agenda exec
        (.rest _ _ (.log _ (.dismiss slot (mem_roster_snoc.mpr (.inl member)) ⟨d, rfl⟩
        (fun e other kept same => ?_) (.release .answer))) told)
        ((view_stop found).trans same) ?_ (.silent silent rfl)
      · have old : m.hub.dataLanes.slots.get? e = some other ∧ e ≠ d := by
          simp only [hub_carry, Job.exec, DataLaneJob.exec, DataLanes.withdraw, found, Machine.setDataLanes, Table.get?_erase] at kept
          split at kept
          · cases kept
          · exact ⟨kept, ‹_›⟩
        have one := staffed.homes d slot found
        rw [← same] at one
        exact old.2 (serves_unique (staffed.homes e other old.1) one)
      · simp only [Job.exec, DataLaneJob.exec, DataLanes.withdraw, found]
        exact poised.locks

theorem Early.finds {callback : DataCallback} (staffed : Staffed config (past ++ more) m) (poised : Poised past more m false)
    (agenda : m.agenda .caller = [.dataLane (.find d callback)]) (view : m.view c = v) :
    Stage config c v (.dataLanes (.enqueue d callback)) past (more ++ [⟨m, .caller, .dataLane (.find d callback), []⟩])
      (m.carry .caller (.dataLane (.find d callback)) []) := by
  subst view
  cases found : m.hub.dataLanes.slots.get? d with
  | some slot =>
      have exec : Job.exec m .caller (.dataLane (.find d callback)) = (m, [.dataLane (.push slot.lane d callback)]) := by
        simp only [Job.exec, DataLaneJob.exec, found]
      refine .early_carry staffed poised agenda exec rfl rfl (.push d callback slot ?_) rfl poised.locks
      rw [hub_carry, exec]
      exact found
  | none =>
      have exec : Job.exec m .caller (.dataLane (.find d callback)) = (m, DataLaneJob.refuse d callback) := by
        simp only [Job.exec, DataLaneJob.exec, found]
      have closed : ∀ same : c = d, (m.view c).lane ≠ some true := fun same opened => by
        simp only [Machine.view, same, found, Option.map_none] at opened
        cases opened
      obtain ⟨same, told⟩ := @arrives config c d (.dataLanes (.enqueue d callback)) (m.view c) (.flag false) (m.view c) rfl
        (fun same => by rw [View.after, if_neg (closed same)]) fun _ => rfl
      refine .late_carry staffed poised.unharmed agenda exec
        (.rest _ _ (.log _ (.orphan .answer)) told) same poised.locks (.silent ?_ ?_)
      · exact List.forall_mem_append.mpr ⟨poised.silent, List.forall_mem_singleton.mpr (silent_gentle rfl rfl)⟩
      · exact if_neg fun both => closed both.1.symm both.2

theorem Resting.ready (resting : Resting past m) (run : Run config [] past m) (member : slot ∈ roster past) :
    m.ready slot.lane = (m.hub.dataLanes.lane? slot.lane).any (·.accepts) := by
  obtain ⟨lane, known⟩ := lane_known (run.rostered.known slot member).1
  rw [Machine.ready, known, Option.any_some, Option.any_some]
  cases accepts : lane.accepts with
  | false => rfl
  | true => simp [(resting slot member).accepts run member known accepts]

theorem Early.pushes {callback : DataCallback} (staffed : Staffed config (past ++ more) m) (poised : Poised past more m false)
    (agenda : m.agenda .caller = [.dataLane (.push slot.lane d callback)]) (view : m.view c = v)
    (found : m.hub.dataLanes.slots.get? d = some slot) :
    Stage config c v (.dataLanes (.enqueue d callback)) past (more ++ [⟨m, .caller, .dataLane (.push slot.lane d callback), []⟩])
      (m.carry .caller (.dataLane (.push slot.lane d callback)) []) := by
  have member := staffed.run.enlisted.1.2 slot (staffed.run.enlisted.1.1 d slot found)
  have ready := poised.resting.ready staffed.run member
  have lane : ∀ same : c = d, (m.view c).lane = some (m.ready slot.lane) := fun same => by
    simp only [Machine.view, same, found, Option.map_some]
  subst view
  cases accepts : (m.hub.dataLanes.lane? slot.lane).any (·.accepts) with
  | true =>
      have exec : Job.exec m .caller (.dataLane (.push slot.lane d callback)) =
          ((Job.exec m .caller (.dataLane (.push slot.lane d callback))).1,
          [Job.logDataLane d (.queued callback), .answer (.flag true)]) := by
        simp only [Job.exec, DataLaneJob.exec, accepts, if_true]
      obtain ⟨same, told⟩ := @arrives config c d (.dataLanes (.enqueue d callback)) (m.view c) (.flag true)
        (if c = d then { m.view c with lane := some !m.hub.terminating } else m.view c) rfl
        (fun same => by
          rw [if_pos same, View.after, if_pos ((lane same).trans (congrArg some (ready.trans accepts)))]
          rfl) fun apart => if_neg apart
      refine .late_carry staffed poised.unharmed agenda exec (.rest _ _ (.log _ .answer) told)
        ((view_push staffed.homes found accepts).trans same)
        ?locks ⟨?accepted, ?rounds, ?stops⟩
      case locks =>
        simp only [Job.exec, DataLaneJob.exec, accepts, if_true]
        exact poised.locks
      case accepted =>
        have after : ∀ id, acceptedOn id (more ++ [⟨m, .caller, .dataLane (.push slot.lane d callback), []⟩]) =
            (Job.dataLane (.push slot.lane d callback)).accepted m id := fun id => by
          have earlier : acceptedOn id more = [] := List.flatMap_eq_nil_iff.mpr fun x member => (poised.silent x member).accepted id
          rw [acceptedOn_snoc, earlier, List.nil_append]
        have elsewhere : ∀ id, id ≠ slot.lane → (Job.dataLane (.push slot.lane d callback)).accepted m id = [] := fun id apart =>
          if_neg fun both => apart both.1.symm
        have home := serves_exec m .caller (.dataLane (.push slot.lane d callback)) (staffed.homes d slot found)
        simp only [after]
        by_cases same : d = c
        · have here : (Job.dataLane (.push slot.lane d callback)).accepted m slot.lane = [callback] := if_pos ⟨rfl, accepts⟩
          have queued : (m.view c).queued c (.dataLanes (.enqueue d callback)) = [callback] :=
            if_pos ⟨same, (lane same.symm).trans (congrArg some (ready.trans accepts))⟩
          exact .inr ⟨slot.lane, same ▸ home, here.trans queued.symm, elsewhere⟩
        · refine .inl ⟨if_neg fun both => same both.1, fun id => ?_⟩
          by_cases here : id = slot.lane
          · exact .inr ⟨d, same, here ▸ home⟩
          · exact .inl (elsewhere id here)
      case rounds =>
        refine List.forall_mem_append.mpr ⟨fun x member r gathers => ?_, List.forall_mem_singleton.mpr fun r none => by cases none⟩
        rw [(poised.silent x member).gathers] at gathers
        cases gathers
      case stops =>
        exact List.forall_mem_append.mpr ⟨fun x member id stops => absurd stops ((poised.silent x member).stops id),
          List.forall_mem_singleton.mpr fun id none => by cases none⟩
  | false =>
      have exec : Job.exec m .caller (.dataLane (.push slot.lane d callback)) = (m, DataLaneJob.refuse d callback) := by
        simp only [Job.exec, DataLaneJob.exec, accepts, Bool.false_eq_true, if_false]
      have closed : ∀ same : c = d, (m.view c).lane ≠ some true := fun same opened => by
        rw [lane same, ready, accepts] at opened
        cases opened
      obtain ⟨same, told⟩ := @arrives config c d (.dataLanes (.enqueue d callback)) (m.view c) (.flag false) (m.view c) rfl
        (fun same => by rw [View.after, if_neg (closed same)]) fun _ => rfl
      refine .late_carry staffed poised.unharmed agenda exec
        (.rest _ _ (.log _ (.orphan .answer)) told) same poised.locks (.silent ?_ ?_)
      · refine List.forall_mem_append.mpr ⟨poised.silent, List.forall_mem_singleton.mpr
          ⟨rfl, fun id => ?_, fun _ none => by cases none⟩⟩
        refine if_neg fun both => ?_
        rw [← both.1, accepts] at both
        cases both.2
      · exact if_neg fun both => closed both.1.symm both.2

theorem AtEase.dismissed (atEase : AtEase m slot) (run : Run config [] past m) {lane : DataLane}
    (known : m.hub.dataLanes.lane? slot.lane = some lane) (stopping : lane.stopping = true) : m.agenda slot.worker = [] := by
  rcases atEase with ended | ⟨_, lane', known', parked⟩
  · exact ended
  · cases known.symm.trans known'
    have running := (run.wakeups.lanesAsleep slot.lane lane known parked).2
    rw [stopping] at running
    cases running

theorem Staffed.leaving (staffed : Staffed config past m) (resting : Resting past m) (join : Bool) :
    ∀ w ∈ (if join then m.hub.dataLanes.retired ++ m.hub.dataLanes.slots.values.map (·.worker) else []),
      Leaving past m (m.hub.dataLanes.slots.values.map (·.lane)) w := by
  intro w member
  cases join with
  | false => cases member
  | true =>
      rcases List.mem_append.mp member with retired | mapped
      · obtain ⟨slot, inside, rfl, lane, known, stopping⟩ := staffed.retired w retired
        exact ⟨slot, inside, rfl, .inl ((resting slot inside).dismissed staffed.run known stopping)⟩
      · obtain ⟨slot, value, rfl⟩ := List.mem_map.mp mapped
        obtain ⟨⟨d, _⟩, row, rfl⟩ := List.mem_map.mp value
        have found := (Table.get?_eq_some_iff ..).mpr row
        exact ⟨_, staffed.run.enlisted.1.2 _ (staffed.run.enlisted.1.1 d _ found), rfl,
          .inr (.inl (List.mem_map.mpr ⟨_, value, rfl⟩))⟩

theorem ended_carry (run : Run config [] past m) (member : slot ∈ roster past) (ended : m.agenda slot.worker = []) :
    (m.carry .caller job later).agenda slot.worker = [] := by
  rw [agenda_carry_old (run.rostered.apart member) (run.rostered.known slot member).2.2]
  exact ended

theorem Early.closes {join : Bool} (staffed : Staffed config (past ++ more) m) (poised : Poised past more m false)
    (agenda : m.agenda .caller = [.dataLane (.close join), .answer .unit]) (view : m.view c = { v with terminating := true }) :
    Stage config c v (.dataLanes (.shutdown join)) past (more ++ [⟨m, .caller, .dataLane (.close join), [.answer .unit]⟩])
      (m.carry .caller (.dataLane (.close join)) [.answer .unit]) := by
  have silent : ∀ x ∈ more ++ [⟨m, .caller, .dataLane (.close join), [.answer .unit]⟩], x.Silent :=
    List.forall_mem_append.mpr ⟨poised.silent, List.forall_mem_singleton.mpr (silent_gentle rfl rfl)⟩
  have leaving := staffed.leaving poised.resting join
  have exec : Job.exec m .caller (.dataLane (.close join)) = ((Job.exec m .caller (.dataLane (.close join))).1,
      (m.hub.dataLanes.slots.values.map (·.lane)).map (fun id => .dataLane (.wake id)) ++
        (if join then m.hub.dataLanes.retired ++ m.hub.dataLanes.slots.values.map (·.worker) else
        []).map DataLaneJob.joinWorker) := by
    cases join <;> simp [Job.exec, DataLaneJob.exec, DataLanes.close]
  generalize (if join then m.hub.dataLanes.retired ++ m.hub.dataLanes.slots.values.map (·.worker) else []) = ws at exec leaving
  generalize m.hub.dataLanes.slots.values.map (·.lane) = ids at exec leaving
  have shape : Late config c v (past ++ more ++ [⟨m, .caller, .dataLane (.close join), [.answer .unit]⟩])
      (m.carry .caller (.dataLane (.close join)) [.answer .unit]) (.dataLanes (.shutdown join))
      (aim config c v (.dataLanes (.shutdown join))) false
      (ids.map (fun id => .dataLane (.wake id)) ++ (ws.map DataLaneJob.joinWorker ++ [.answer .unit])) := by
    refine .closing join ids ws (fun d => rfl) (congrArg View.terminating view) fun w member => ?_
    obtain ⟨slot, inside, same, _⟩ := leaving w member
    refine (leaving w member).stays ?_ fun id lane known awake => ⟨lane, known, awake⟩
    rw [← same]
    exact ended_carry staffed.run inside
  rw [← List.append_assoc] at shape
  refine .late_carry staffed poised.unharmed agenda exec shape ?_ poised.locks (.silent silent rfl)
  rw [view_close, view]
  rfl

theorem Early.step (shape : Early (past ++ more) m v op v' held (job :: later)) (staffed : Staffed config (past ++ more) m)
    (poised : Poised past more m held) (agenda : m.agenda .caller = job :: later) (view : m.view c = v')
    (went : m.step? .caller = some m') :
    Stage config c v op past (more ++ [⟨m, .caller, job, later⟩]) m' := by
  generalize whole : job :: later = jobs at shape
  have carried : job ≠ .panic → m' = m.carry .caller job later := fun quiet => by
    rcases step_cases agenda went with ⟨panics, _⟩ | ⟨_, _, same⟩
    · exact absurd panics quiet
    · exact same
  cases shape with
  | perform op kind =>
      cases whole
      rw [carried fun none => by cases none]
      exact Early.performs kind staffed poised agenda view
  | seekStart d =>
      cases whole
      rw [carried fun none => by cases none]
      exact .early_carry staffed poised agenda rfl rfl rfl (.start d) view (locks_taken poised.locks)
  | start d =>
      cases whole
      rw [carried fun none => by cases none]
      exact Early.starts staffed poised agenda view
  | begun d unclosed vacant =>
      cases whole
      rw [carried fun none => by cases none]
      exact .early_carry staffed poised agenda rfl rfl rfl (.reap d unclosed vacant) view (locks_given poised.locks)
  | reap d unclosed vacant =>
      cases whole
      rw [carried fun none => by cases none]
      exact Early.reaps staffed poised agenda view unclosed vacant
  | joins d unclosed vacant ws gone =>
      cases ws with
      | nil =>
          cases whole
          rw [carried fun none => by cases none]
          exact Early.spawns staffed poised agenda view unclosed vacant
      | cons w ws =>
          cases whole
          rw [carried fun none => by cases none]
          exact Early.joined staffed poised agenda view unclosed vacant gone
  | seekStop d =>
      cases whole
      rw [carried fun none => by cases none]
      exact .early_carry staffed poised agenda rfl rfl rfl (.stop d) view (locks_taken poised.locks)
  | stop d =>
      cases whole
      rw [carried fun none => by cases none]
      exact Early.halts staffed poised agenda view
  | find d callback =>
      cases whole
      rw [carried fun none => by cases none]
      exact Early.finds staffed poised agenda view
  | push d callback slot found =>
      cases whole
      rw [carried fun none => by cases none]
      exact Early.pushes staffed poised agenda view found
  | close join =>
      cases whole
      rw [carried fun none => by cases none]
      exact Early.closes staffed poised agenda view

theorem Late.answers {reply : Reply} (staffed : Staffed config (past ++ more) m) (agenda : m.agenda .caller = [.answer reply])
    (view : m.view c = aim config c v op) (locks : m.locks = []) (unharmed : m.panicked .caller = false)
    (told : Told config c v op reply) (tally : Tally config c v op more m) :
    Stage config c v op past (more ++ [⟨m, .caller, .answer reply, []⟩]) (m.carry .caller (.answer reply) []) := by
  have result : (m.carry .caller (.answer reply) []).result = reply := by
    have still : (m.carry .caller (.answer reply) []).panicked .caller = false :=
      (panicked_carry staffed.run.caller_known).trans unharmed
    rw [Machine.result, still, if_neg Bool.false_ne_true, reply_answer agenda]
  refine .done (agenda_carry_self agenda) view locks (result.symm ▸ told) ?_
  exact tally.snoc (fun _ => rfl) (fun _ _ => id) (fun r none => by cases none) fun id none => by cases none

theorem Late.crashes (staffed : Staffed config (past ++ more) m) (agenda : m.agenda .caller = [.panic])
    (view : m.view c = aim config c v op) (locks : m.locks = []) (told : Told config c v op .panicked)
    (tally : Tally config c v op more m) :
    Stage config c v op past (more ++ [⟨m, .caller, .panic, []⟩]) (m.unwind .caller []) := by
  have panicked : (m.unwind .caller []).panicked .caller = true := by
    have known : m.threads[ThreadId.caller.val]?.isSome = true := by
      have caller := staffed.run.caller_known
      rw [Machine.agendas, Machine.each, List.length_map] at caller
      exact Option.isSome_iff_exists.mpr ⟨_, List.getElem?_eq_getElem caller⟩
    obtain ⟨thread, known⟩ := Option.isSome_iff_exists.mp known
    simp [Machine.unwind, Machine.abandons, Machine.caught?, Machine.giveBackAll, Machine.changeThread, Machine.panicked,
      Machine.thread?, known]
  have result : (m.unwind .caller []).result = .panicked := if_pos panicked
  refine .done ((agenda_unwind_self agenda).trans rfl) view ?_ (result.symm ▸ told) ?_
  · rw [Gate.locks_unwind, locks]
    rfl
  · exact tally.snoc (fun _ => rfl) (fun _ _ => id) (fun r none => by cases none) fun id none => by cases none

theorem Rest.quiet {reply : Reply} (rest : Rest op past m reply held (job :: later)) : job ≠ .panic := by
  rintro rfl
  cases rest

theorem Rest.step {reply : Reply} (rest : Rest op (past ++ more) m reply held (job :: later))
    (staffed : Staffed config (past ++ more) m) (agenda : m.agenda .caller = job :: later) (view : m.view c = aim config c v op)
    (locks : m.locks = if held then [(.laneMap, .caller)] else []) (unharmed : m.panicked .caller = false)
    (told : Told config c v op reply) (tally : Tally config c v op more m) :
    Stage config c v op past (more ++ [⟨m, .caller, job, later⟩]) (m.carry .caller job later) := by
  have homes := fun slot => staffed.homes c slot
  have tallied : (∀ id, job.accepted m id = []) → job.gathers m = none →
      (∀ id, job = .dataLane (.requestStop id) → ∃ d, op = .dataLanes (.stop d)) →
      Tally config c v op (more ++ [⟨m, .caller, job, later⟩]) (m.carry .caller job later) := fun accepted gathers stops =>
    tally.snoc accepted (fun id d => serves_exec m .caller job)
      (fun r some => by rw [show job.gathers m = _ from some] at gathers; cases gathers) stops
  have stopping : ∀ id lane, m.hub.dataLanes.lane? id = some lane → lane.stopping = true →
      ∃ lane', (m.carry .caller job later).hub.dataLanes.lane? id = some lane' ∧ lane'.stopping = true :=
      fun id lane known stopping =>
    ⟨_, lane_exec m .caller job known, turn_stopping stopping⟩
  cases rest with
  | answer => exact Late.answers staffed agenda view locks unharmed told tally
  | release behind =>
      exact .late_carry staffed unharmed agenda rfl (.rest op reply (behind.moves rfl stopping) told) view (locks_given locks)
        (tallied (fun _ => rfl) rfl fun id none => by cases none)
  | log record behind =>
      have exec : (Job.log record).exec m .caller = ((m.log .caller record).1, [.resume]) := by
        simp [Job.exec, Machine.log, staffed.run.unhooked, Machine.note]
      have same : (m.carry .caller (.log record) later).hub = m.hub := hub_log m .caller record
      have rest : Rest op (past ++ more ++ [⟨m, .caller, .log record, later⟩])
          (m.carry .caller (.log record) later) reply held later :=
        behind.moves (by rw [same]) stopping
      have unseen := @view_unseen m (.log record) rfl c
      refine .late_carry staffed unharmed agenda exec (.rest op reply (.resume rest) told) (unseen.trans view) ?_
        (tallied (fun _ => rfl) rfl fun id none => by cases none)
      exact (Gate.locks_exec m .caller (.log record) fun lock =>
        ⟨(fun none => by cases none), fun none => by cases none⟩).trans locks
  | resume behind =>
      exact .late_carry staffed unharmed agenda rfl (.rest op reply (behind.moves rfl stopping) told) view locks
        (tallied (fun _ => rfl) rfl fun id none => by cases none)
  | orphan behind =>
      exact .late_carry staffed unharmed agenda rfl (.rest op reply (behind.moves rfl stopping) told) view locks
        (tallied (fun _ => rfl) rfl fun id none => by cases none)
  | dismiss slot member stops unmapped behind =>
      obtain ⟨lane, known⟩ := lane_known (staffed.run.rostered.known slot member).1
      have stopped := lane_exec m .caller (.dataLane (.requestStop slot.lane)) known
      rw [Job.turn, if_pos rfl] at stopped
      exact .late_carry staffed unharmed agenda rfl
        (.rest op reply (.retire slot.worker ⟨slot, mem_roster_snoc.mpr (.inl member), rfl, _, stopped, rfl⟩
        (behind.moves rfl stopping)) told)
        ((view_requestStop homes (unmapped c)).trans view) locks (tallied (fun _ => rfl) rfl fun id _ => stops)
  | retire w dismissed behind =>
      exact .late_carry staffed unharmed agenda rfl (.rest op reply (behind.moves rfl stopping) told) view locks
        (tallied (fun _ => rfl) rfl fun id none => by cases none)

theorem Leaving.woken {x : Moment} {ids : List LaneId} (leaving : Leaving past m (id :: ids) w) (run : Run config [] past m) :
    Leaving (past ++ [x]) (m.carry .caller (.dataLane (.wake id)) later) ids w := by
  obtain ⟨slot, inside, rfl, ending⟩ := leaving
  refine ⟨slot, mem_roster_snoc.mpr (.inl inside), rfl, ?_⟩
  have turned : ∀ lane, m.hub.dataLanes.lane? slot.lane = some lane → slot.lane = id ∨ lane.parked = false →
      ∃ lane', (m.carry .caller (.dataLane (.wake id)) later).hub.dataLanes.lane? slot.lane = some lane' ∧ lane'.parked = false := by
    intro lane known either
    refine ⟨_, lane_exec m .caller (.dataLane (.wake id)) known, ?_⟩
    simp only [Job.turn]
    split
    · rfl
    · exact either.resolve_left fun same => ‹¬ id = slot.lane› same.symm
  rcases ending with idle | member | ⟨lane, known, awake⟩
  · exact .inl (ended_carry run inside idle)
  · rcases List.mem_cons.mp member with here | behind
    · obtain ⟨lane, known⟩ := lane_known (run.rostered.known slot inside).1
      exact .inr (.inr (turned lane known (.inl here)))
    · exact .inr (.inl behind)
  · exact .inr (.inr (turned lane known (.inr awake)))

theorem Late.publishes (staffed : Staffed config (past ++ more) m) (agenda : m.agenda .caller = [.dataLane (.publish d slot)])
    (view : m.view c = if c = d then v.asked else v) (locks : m.locks = [(.laneMap, .caller)]) (unharmed : m.panicked .caller = false)
    (unclosed : m.hub.dataLanes.closed = false) (vacant : m.hub.dataLanes.occupied d = false)
      (fresh : m.ready slot.lane = !v.terminating)
    (started : c = d → v.answer config c = .started)
    (tally : Tally config c v (.dataLanes (.start d)) (more ++ [⟨m, .caller, .dataLane (.publish d slot), []⟩])
      (m.carry .caller (.dataLane (.publish d slot)) [])) :
    Stage config c v (.dataLanes (.start d)) past (more ++ [⟨m, .caller, .dataLane (.publish d slot), []⟩])
      (m.carry .caller (.dataLane (.publish d slot)) []) := by
  have exec : Job.exec m .caller (.dataLane (.publish d slot)) = ((Job.exec m .caller (.dataLane (.publish d slot))).1,
      [Job.logDataLane d .started, .release .laneMap, .answer (.done (.ok ()))]) := by
    simp [Job.exec, DataLaneJob.exec, unclosed, vacant]
  have empty : c = d → v.closed = false ∧ v.lane = none := by
    rintro rfl
    rw [if_pos rfl] at view
    refine ⟨(congrArg View.closed view).symm.trans unclosed, (congrArg View.lane view).symm.trans ?_⟩
    exact Option.isNone_iff_eq_none.mp (by rw [← Option.not_isSome, view_occupied, vacant]; rfl)
  obtain ⟨same, told⟩ := @arrives config c d (.dataLanes (.start d)) v (.done (.ok ()))
    (if c = d then { m.view c with lane := some (m.ready slot.lane) } else m.view c) rfl
    (fun same => by
      obtain ⟨shut, none⟩ := empty same
      rw [view, if_pos same, if_pos same]
      simp [View.after, shut, none, started same, fresh]) fun apart => by rw [if_neg apart, view, if_neg apart]
  refine .late_carry staffed unharmed agenda exec (.rest _ _ (.log _ (.release .answer)) told)
    ((view_publish unclosed vacant).trans same) ?_ tally
  simp only [Job.exec, DataLaneJob.exec, unclosed, vacant]
  exact locks

theorem Late.step (shape : Late config c v (past ++ more) m op v' held (job :: later)) (staffed : Staffed config (past ++ more) m)
    (agenda : m.agenda .caller = job :: later) (view : m.view c = v') (locks : m.locks = if held then [(.laneMap, .caller)] else [])
    (unharmed : m.panicked .caller = false) (tally : Tally config c v op more m) (went : m.step? .caller = some m') :
    Stage config c v op past (more ++ [⟨m, .caller, job, later⟩]) m' := by
  generalize whole : job :: later = jobs at shape
  have carried : job ≠ .panic → m' = m.carry .caller job later := fun quiet => by
    rcases step_cases agenda went with ⟨panics, _⟩ | ⟨_, _, same⟩
    · exact absurd panics quiet
    · exact same
  have tallied : (∀ id, job.accepted m id = []) → job.gathers m = none → (∀ id, job ≠ .dataLane (.requestStop id)) →
      Tally config c v op (more ++ [⟨m, .caller, job, later⟩]) (m.carry .caller job later) := fun accepted gathers stops =>
    tally.snoc accepted (fun id d => serves_exec m .caller job)
      (fun r some => by rw [show job.gathers m = _ from some] at gathers; cases gathers)
      fun id same => absurd same (stops id)
  cases shape with
  | seekPublish d slot unclosed vacant home fresh started =>
      cases whole
      rw [carried fun none => by cases none]
      refine .late_carry staffed unharmed agenda rfl (.publish d slot ?closed ?vacant ?home ?fresh started) view (locks_taken locks)
        (tallied (fun _ => rfl) rfl fun _ none => by cases none)
      case closed => exact unclosed
      case vacant => exact vacant
      case home => exact home
      case fresh => exact fresh
  | publish d slot unclosed vacant home fresh started =>
      cases whole
      rw [carried fun none => by cases none]
      exact Late.publishes staffed agenda view locks unharmed unclosed vacant fresh started
        (tallied (fun _ => rfl) rfl fun _ none => by cases none)
  | closing join ids ws empty ending leaving =>
      cases ids with
      | cons id ids =>
          cases whole
          rw [carried fun none => by cases none]
          have woken := @view_wake m id c (empty c)
          refine .late_carry staffed unharmed agenda rfl
            (.closing join ids ws ?empty ?ending fun w member => (leaving w member).woken staffed.run)
            (woken.trans view) locks (tallied (fun _ => rfl) rfl fun _ none => by cases none)
          case empty => exact empty
          case ending => exact ending
      | nil =>
          cases ws with
          | cons w ws =>
              cases whole
              rw [carried fun none => by cases none]
              obtain ⟨slot, inside, rfl, _⟩ := leaving w (List.mem_cons_self ..)
              have exec := exec_join staffed inside
              refine .late_carry staffed unharmed agenda exec (.closing join [] ws ?empty ?ending fun w member => ?leaving) view locks
                (tallied (fun _ => rfl) rfl fun _ none => by cases none)
              case empty =>
                rw [hub_carry, exec]
                exact empty
              case ending =>
                rw [hub_carry, exec]
                exact ending
              case leaving =>
                obtain ⟨other, inside, same, _⟩ := leaving w (List.mem_cons_of_mem _ member)
                refine (leaving w (List.mem_cons_of_mem _ member)).stays
                  (fun ended => ?_) fun id lane known awake => ⟨lane, ?_, awake⟩
                · rw [← same] at ended ⊢
                  exact ended_carry staffed.run inside ended
                · rw [hub_carry, exec]
                  exact known
          | nil =>
              cases whole
              rw [carried fun none => by cases none]
              exact Late.answers staffed agenda view locks unharmed (fun _ => rfl) tally
  | rest op reply rest told =>
      subst whole
      rw [carried rest.quiet]
      exact rest.step staffed agenda view locks unharmed told tally
  | crash d told =>
      cases whole
      rw [step_panic agenda] at went
      cases went
      exact Late.crashes staffed agenda view locks told tally

theorem Early.dispatching (shape : Early past m v op v' held (job :: later)) : job.dispatching past m := by
  generalize whole : job :: later = jobs at shape
  cases shape with
  | perform op kind =>
      cases whole
      exact kind
  | joins d unclosed vacant ws gone => cases ws <;> cases whole <;> trivial
  | _ =>
      cases whole
      trivial

theorem Late.dispatching (shape : Late config c v past m op v' held (job :: later)) (quiet : job ≠ .panic) :
    job.dispatching past m := by
  generalize whole : job :: later = jobs at shape
  cases shape with
  | publish d slot unclosed vacant home =>
      cases whole
      exact home
  | closing join ids ws => cases ids <;> first | (cases whole; trivial) | (cases ws <;> cases whole <;> trivial)
  | rest op reply rest =>
      subst whole
      cases rest with
      | retire w dismissed => exact dismissed
      | _ => trivial
  | crash d told =>
      cases whole
      exact absurd rfl quiet
  | _ =>
      cases whole
      trivial

theorem Late.crashing (shape : Late config c v past m op v' held (job :: later)) (panics : job = .panic) : later = [] := by
  subst panics
  generalize whole : Job.panic :: later = jobs at shape
  cases shape with
  | closing join ids ws => cases ids <;> first | cases whole | (cases ws <;> cases whole)
  | rest op reply rest =>
      subst whole
      exact absurd rfl rest.quiet
  | crash d told =>
      cases whole
      rfl
  | _ => cases whole

theorem Staffed.crash (staffed : Staffed config past m) (agenda : m.agenda .caller = [.panic]) :
    Staffed config (past ++ [⟨m, .caller, .panic, []⟩]) (m.unwind .caller []) := by
  refine ⟨staffed.run.step agenda (step_panic agenda), staffed.owned, fun u apart busy => ?_, staffed.homes, fun w retired => ?_⟩
  · rw [agenda_unwind_other apart] at busy
    obtain ⟨slot, member, works⟩ := staffed.staff u apart busy
    exact ⟨slot, mem_roster_snoc.mpr (.inl member), works⟩
  · exact (staffed.retired w retired).stays fun id lane known stopping => ⟨lane, known, stopping⟩

theorem Stage.caller (stage : Stage config c v op past more m) (staffed : Staffed config (past ++ more) m)
    (agenda : m.agenda .caller = job :: later) (went : m.step? .caller = some m') :
    Staffed config (past ++ (more ++ [⟨m, .caller, job, later⟩])) m' ∧
      Stage config c v op past (more ++ [⟨m, .caller, job, later⟩]) m' := by
  have hub : (job ≠ .panic → job.dispatching (past ++ more) m) → (job = .panic → later = []) →
      Staffed config (past ++ (more ++ [⟨m, .caller, job, later⟩])) m' := fun dispatching last => by
    rw [← List.append_assoc]
    rcases step_cases agenda went with ⟨rfl, rfl⟩ | ⟨quiet, enabled, rfl⟩
    · cases last rfl
      exact staffed.crash agenda
    · exact staffed.carry agenda quiet enabled (dispatching quiet)
  cases stage with
  | early shape view poised =>
      rw [agenda] at shape
      exact ⟨hub (fun _ => shape.dispatching) fun panics => by rw [panics] at shape; exact shape.dispatching.elim,
        shape.step staffed poised agenda view went⟩
  | late shape view locks unharmed tally =>
      rw [agenda] at shape
      exact ⟨hub shape.dispatching shape.crashing, shape.step staffed agenda view locks unharmed tally went⟩
  | done idle =>
      rw [idle] at agenda
      cases agenda

theorem idle_exited (idle : m.agenda t = []) : m.exited t = true := by
  unfold Machine.agenda at idle
  unfold Machine.exited Thread.ended
  cases known : m.thread? t with
  | none => rfl
  | some thread =>
      rw [known] at idle
      exact List.isEmpty_iff.mpr idle

theorem enabled_join (ended : m.agenda w = []) : (DataLaneJob.joinWorker w).enabled m .caller = true := by
  simp [DataLaneJob.joinWorker, Job.enabled, Job.needs, idle_exited ended]

theorem Early.busy : ¬ Early past m v op v' held [] := by
  generalize whole : [] = jobs
  intro shape
  cases shape with
  | joins d unclosed vacant ws => cases ws <;> cases whole
  | _ => cases whole

theorem Late.busy : ¬ Late config c v past m op v' held [] := by
  generalize whole : [] = jobs
  intro shape
  cases shape with
  | closing join ids ws => cases ids <;> first | cases whole | (cases ws <;> cases whole)
  | rest op reply rest =>
      subst whole
      cases rest
  | _ => cases whole

theorem Early.moves (shape : Early past m v op v' held (job :: later))
    (locks : m.locks = if held then [(.laneMap, .caller)] else []) :
    job.enabled m .caller = true := by
  generalize whole : job :: later = jobs at shape
  cases shape with
  | perform op kind =>
      cases whole
      cases op <;> first | rfl | cases kind
  | joins d unclosed vacant ws gone =>
      cases ws with
      | nil =>
          cases whole
          rfl
      | cons w ws =>
          cases whole
          exact enabled_join (gone w (List.mem_cons_self ..)).1
  | _ =>
      cases whole
      simp [Job.enabled, Job.needs, Machine.free, locks]

theorem Rest.moves_on {reply : Reply} (rest : Rest op past m reply held (job :: later)) : job.enabled m .caller = true := by
  cases rest <;> rfl

theorem Late.moves (shape : Late config c v past m op v' held (job :: later))
    (locks : m.locks = if held then [(.laneMap, .caller)] else []) (atEase : Resting past m) : job.enabled m .caller = true := by
  generalize whole : job :: later = jobs at shape
  cases shape with
  | closing join ids ws empty ending leaving =>
      cases ids with
      | cons id ids =>
          cases whole
          rfl
      | nil =>
          cases ws with
          | nil =>
              cases whole
              rfl
          | cons w ws =>
              cases whole
              obtain ⟨slot, inside, rfl, idle | none | ⟨lane, known, awake⟩⟩ := leaving w (List.mem_cons_self ..)
              · exact enabled_join idle
              · cases none
              · rcases atEase slot inside with idle | ⟨_, lane', known', parked⟩
                · exact enabled_join idle
                · cases known.symm.trans known'
                  rw [awake] at parked
                  cases parked
  | rest op reply rest =>
      subst whole
      exact rest.moves_on
  | _ =>
      cases whole
      simp [Job.enabled, Job.needs, Machine.free, locks]

theorem Staffed.resting (staffed : Staffed config past m) (passive : m.cast.passive) (settled : m.settled) : Resting past m :=
  fun slot member => staffed.run.at_ease passive member (settled slot.worker)

theorem Stage.settled (stage : Stage config c v op past more m) (staffed : Staffed config (past ++ more) m) (passive : m.cast.passive)
    (settled : m.settled) : m.agenda .caller = [] ∧ m.view c = aim config c v op ∧ m.locks = [] ∧ Told config c v op m.result ∧
      Tally config c v op more m := by
  have stuck : ∀ job later, m.agenda .caller = job :: later → ¬ job.enabled m .caller = true := fun job later agenda enabled => by
    have still := settled .caller
    by_cases panics : job = .panic
    · rw [panics] at agenda
      rw [step_panic agenda] at still
      cases still
    · rw [step_carry agenda panics enabled] at still
      cases still
  cases stage with
  | early shape view poised =>
      cases agenda : m.agenda .caller with
      | nil =>
          rw [agenda] at shape
          exact absurd shape Early.busy
      | cons job later =>
          rw [agenda] at shape
          exact absurd (shape.moves poised.locks) (stuck job later agenda)
  | late shape view locks unharmed tally =>
      cases agenda : m.agenda .caller with
      | nil =>
          rw [agenda] at shape
          exact absurd shape Late.busy
      | cons job later =>
          rw [agenda] at shape
          exact absurd (shape.moves locks (staffed.resting passive settled)) (stuck job later agenda)
  | done idle view locks told tally => exact ⟨idle, view, locks, told, tally⟩

structure Ready (config : Config) (past : List Moment) (m : Machine) : Prop where
  staffed : Staffed config past m
  resting : Resting past m
  idle : m.agenda .caller = []
  locks : m.locks = []

theorem panicked_begin (jobs : List Job) : (m.beginWith jobs).panicked .caller = false := by
  simp only [Machine.panicked, Machine.thread?, Machine.beginWith, Machine.changeThread, List.getElem?_modify]
  cases m.threads[ThreadId.caller.val]? <;> rfl

theorem Ready.begins (ready : Ready config past m) (op : Op) (kind : op.dispatcher = true) (c : ConnectionHandle) :
    Staffed config (past ++ []) (m.beginWith [.perform op]) ∧ Stage config c (m.view c) op past [] (m.beginWith [.perform op]) := by
  have agenda : (m.beginWith [.perform op]).agenda .caller = [.perform op] := by
    have known : ThreadId.caller.val < m.agendas.length := ready.staffed.run.caller_known
    rw [agenda_eq, agendas_beginWith, List.getElem?_set_self known]
    rfl
  rw [List.append_nil]
  refine ⟨⟨ready.staffed.run.call op ready.idle, ready.staffed.owned,
    fun u apart busy => ?_, ready.staffed.homes, ready.staffed.retired⟩, ?_⟩
  · rw [agenda_beginWith_other apart] at busy
    exact ready.staffed.staff u apart busy
  · have shape : Early (past ++ []) (m.beginWith [.perform op]) (m.view c) op (m.view c) false
      ((m.beginWith [.perform op]).agenda .caller) := by
      rw [agenda]
      exact .perform op kind
    refine .early shape rfl ⟨ready.locks, panicked_begin _, fun slot member => ?_, fun x none => by cases none⟩
    rw [List.append_nil] at member
    have atEase := ready.resting slot member
    rwa [AtEase, ← agenda_beginWith_other (ready.staffed.run.rostered.apart member) [.perform op]] at atEase

theorem Ready.goes (ready : Ready config past m) (kind : op.dispatcher = true) (c : ConnectionHandle)
    (goes : Goes (m.beginWith [.perform op]) more m') : m'.cast.passive →
    Staffed config (past ++ more) m' ∧ Stage config c (m.view c) op past more m' := by
  induction goes with
  | start => exact fun _ => ready.begins op kind c
  | @turn more m' m'' t job later goes agenda went ih =>
      intro passive
      have before := passive_step agenda went passive
      obtain ⟨staffed, stage⟩ := ih before
      by_cases mine : t = .caller
      · subst mine
        exact stage.caller staffed agenda went
      · obtain ⟨slot, member, rfl⟩ := staffed.staff t mine (by rw [agenda]; exact List.cons_ne_nil _ _)
        refine ⟨?_, stage.worker staffed before member agenda went⟩
        rw [← List.append_assoc]
        exact staffed.turn before member agenda went

structure Came (config : Config) (c : ConnectionHandle) (v : View) (op : Op) (past more : List Moment) (m : Machine) : Prop where
  ready : Ready config (past ++ more) m
  view : m.view c = aim config c v op
  told : Told config c v op m.result
  tally : Tally config c v op more m

theorem Ready.came (ready : Ready config past m) (kind : op.dispatcher = true) (c : ConnectionHandle)
    (goes : Goes (m.beginWith [.perform op]) more m') (settled : m'.settled) (passive : m'.cast.passive) :
    Came config c (m.view c) op past more m' := by
  obtain ⟨staffed, stage⟩ := ready.goes kind c goes passive
  obtain ⟨idle, view, locks, told, tally⟩ := stage.settled staffed passive settled
  exact ⟨⟨staffed, staffed.resting passive settled, idle, locks⟩, view, told, tally⟩

-- The parts of a hub that have just been put together.
def assembled (config : Config) (system : System) : List Moment × Machine :=
  ([⟨opening config [] system false, .caller, .hub .establish, []⟩],
    (opening config [] system false).carry .caller (.hub .establish) [])

theorem assembled_idle (config : Config) (system : System) (u : ThreadId) : (assembled config system).2.agenda u = [] := by
  obtain ⟨u⟩ := u
  cases u <;> rfl

theorem assembling {system : System} (goes : Goes (opening config [] system false) past m) :
    (past, m) = ([], opening config [] system false) ∨ (past, m) = assembled config system := by
  induction goes with
  | start => exact .inl rfl
  | @turn more m' m'' t job later goes agenda went ih =>
      rcases ih with same | same
      · cases same
        obtain ⟨t⟩ := t
        cases t with
        | zero =>
            cases agenda
            cases went
            exact .inr rfl
        | succ t => cases agenda
      · cases same
        have none := (assembled_idle config system t).symm.trans agenda
        cases none

theorem assembled_ready {system : System} (goes : Goes (opening config [] system false) past m) (settled : m.settled) :
    Ready config past m ∧ (∀ c, m.view c = { refusals := system.refusal (config.dataThread c) }) ∧ roster past = [] := by
  rcases assembling goes with same | same
  · cases same
    cases settled .caller
  · have run := goes.run .assemble
    cases same
    refine ⟨⟨⟨run, rfl, fun u _ busy => absurd (assembled_idle config system u) busy, fun d slot none => (by cases none),
      fun w none => by cases none⟩,
      fun slot none => (by cases none), assembled_idle config system _, rfl⟩, fun c => rfl, rfl⟩

end TransportHub
