import TransportHub.Proofs.Waiting
/-!
Who does not go on of his own: threads that are held, reporters that somebody waits for, and workers that
sleep. Nobody is held once a shutdown has ended all holds, a reporter does nothing but report its connection,
and whoever is known to sleep stands before a look and has nothing else to do.
-/

set_option autoImplicit false

namespace TransportHub

open DataLanes (Slot)

variable {config : Config} {hooks : List Hook} {past : List Moment} {m m' : Machine} {t u w : ThreadId}
  {job : Job} {later : List Job} {x : Moment} {slot : Slot} {id : LaneId} {lane : DataLane}

def Machine.loose (m : Machine) : Prop := m.holding = false ∧ ∀ thread ∈ m.threads, thread.held = false

theorem Machine.loose.changeThread (loose : m.loose) (t : ThreadId) {change : Thread → Thread}
    (kept : ∀ thread, (change thread).held = thread.held) : (m.changeThread t change).loose := by
  refine ⟨loose.1, fun thread member => ?_⟩
  obtain ⟨i, known⟩ := List.getElem?_of_mem member
  simp only [Machine.changeThread, List.getElem?_modify] at known
  cases before : m.threads[i]? with
  | none =>
      rw [before] at known
      cases known
  | some old =>
      rw [before] at known
      obtain rfl : (if t.val = i then change old else old) = thread := Option.some.inj known
      have held := loose.2 old (List.mem_of_getElem? before)
      split
      · rw [kept, held]
      · exact held

theorem Machine.loose.spawn (loose : m.loose) (name : String) (agenda : List Job) : (m.spawn name agenda).2.loose :=
  ⟨loose.1, List.forall_mem_append.mpr ⟨loose.2, List.forall_mem_singleton.mpr rfl⟩⟩

theorem loose_endHolds (m : Machine) : m.endHolds.loose :=
  ⟨rfl, fun thread member => by
    obtain ⟨_, _, rfl⟩ := List.mem_map.mp member
    rfl⟩

theorem Machine.loose.releaseHeld (loose : m.loose) (name? : Option String) : (m.releaseHeld name?).2.loose :=
  ⟨loose.1, fun thread member => by
    obtain ⟨old, inside, rfl⟩ := List.mem_map.mp member
    split
    · rfl
    · exact loose.2 old inside⟩

theorem Machine.loose.spawnReporters (loose : m.loose) (device : DeviceInfo) (c : ConnectionHandle) (threads : Nat) :
    (m.spawnReporters device c threads).2.loose := by
  induction threads generalizing m with
  | zero => exact loose
  | succ threads ih => exact ih (loose.spawn ..)

theorem Machine.loose.perform (loose : m.loose) (op : Op) : (m.perform op).1.loose := by
  cases op with
  | registry op =>
      cases op <;> simp only [Machine.perform, Machine.performOwned, RegistryOp.exec] <;> split <;> exact loose
  | deviceLane op | dataLanes op =>
      cases op <;> simp only [Machine.perform, Machine.performOwned, DeviceLaneOp.exec, DataLanesOp.exec] <;> repeat' split
      all_goals first | exact loose | exact loose_endHolds _
  | context name query =>
      simp only [Machine.perform]
      split
      · cases query <;> exact loose
      · exact loose
  | release name? => exact loose.releaseHeld name?
  | connectAtOnce threads device c =>
      simp only [Machine.perform, Machine.performOwned]
      split
      · exact loose.spawnReporters device c threads
      · exact loose
  | _ =>
      simp only [Machine.perform, Machine.performOwned, ContextQuery.exec]
      repeat' split
      all_goals exact loose

theorem Machine.loose.exec (loose : m.loose) (t : ThreadId) (job : Job) : (job.exec m t).1.loose := by
  cases job with
  | perform op => exact loose.perform op
  | answer => exact loose.changeThread t fun _ => rfl
  | hold =>
      simp only [Job.exec, loose.1]
      exact loose
  | log record =>
      simp only [Job.exec, Machine.log]
      split <;> exact loose
  | registry job =>
      cases job with
      | withdraw | replace =>
          simp only [Job.exec, RegistryJob.exec]
          split <;> exact loose
      | _ => exact loose
  | deviceLane job =>
      cases job with
      | spawn =>
          simp only [Job.exec, DeviceLaneJob.exec]
          split
          · exact loose.spawn ..
          · exact loose
          · exact loose
      | look =>
          simp only [Job.exec, DeviceLaneJob.exec, DeviceLaneJob.lookAtQueue]
          split <;> exact loose
      | _ => exact loose
  | dataLane job =>
      cases job with
      | spawn c =>
          simp only [Job.exec, DataLaneJob.exec]
          split
          · exact loose.spawn ..
          · exact loose
          · exact loose
      | stop c =>
          simp only [Job.exec, DataLaneJob.exec, DataLanes.withdraw]
          cases m.hub.dataLanes.slots.get? c <;> exact loose
      | publish | push | look =>
          simp only [Job.exec, DataLaneJob.exec, DataLaneJob.lookAtLane]
          repeat' split
          all_goals exact loose
      | _ => exact loose
  | participant job =>
      cases job with
      | call | hear | deliver =>
          simp only [Job.exec, ParticipantJob.exec, ParticipantJob.callAdapter, ParticipantJob.callListener]
          repeat' split
          all_goals exact loose
      | _ => exact loose
  | hub job =>
      cases job with
      | raiseTermination =>
          simp only [Job.exec, HubJob.exec]
          split
          · exact loose
          · split
            · exact loose_endHolds _
            · exact loose
      | laneStarted =>
          simp only [Job.exec, HubJob.exec]
          split <;> exact loose
      | _ => exact loose
  | _ => exact loose

theorem Machine.loose.carry (loose : m.loose) (t : ThreadId) (job : Job) (later : List Job) : (m.carry t job later).loose :=
  (loose.exec t job).changeThread t fun _ => rfl

theorem Machine.loose.unwind (loose : m.loose) (t : ThreadId) (later : List Job) : (m.unwind t later).loose := by
  unfold Machine.unwind
  repeat' split
  all_goals exact Machine.loose.changeThread (m := { m with locks := _, hub := _ }) loose t fun _ => rfl

def Job.reports : Job → Bool
  | .log _ | .acquire _ | .release _ | .answer _ | .panic | .join .. => true
  | .deviceLane job => (job matches .enqueue _ | .discard | .push _)
  | .dataLane job => (job matches .start _ | .reap | .spawn _ | .publish .. | .requestStop _ | .retire _)
  | .hub job => (job matches .connect .. | .recordConnection .. | .connectionStarted .. | .forgetConnection _)
  | _ => false

theorem reports_next (m : Machine) (apart : t ≠ .caller) (reports : job.reports = true) : Every Job.reports (job.exec m t).2 := by
  by_cases writes : ∃ record, job = .log record
  · obtain ⟨record, rfl⟩ := writes
    simp only [Job.exec, Machine.log, if_neg apart]
    exact every_nil _
  · intro j member
    have leads := leads_exec m t job j member
    cases j with
    | registry j | deviceLane j | dataLane j | participant j | hub j =>
        cases j <;> first
          | rfl
          | cases leads
          | (exfalso
             dsimp only [Job.leads] at leads
             split at leads <;> first
               | cases reports
               | cases leads
               | (split at leads <;> first
                   | cases reports
                   | cases leads))
    | resume | hold | enter | perform | leave | held | await =>
        dsimp only [Job.leads] at leads
        split at leads <;> first
          | (cases reports; done)
          | (cases leads; done)
          | exact absurd ⟨_, rfl⟩ writes
    | _ => rfl

theorem spawnReporters_known (m : Machine) (device : DeviceInfo) (c : ConnectionHandle) (threads : Nat) :
    ∀ r ∈ (m.spawnReporters device c threads).1, m.agendas.length ≤ r.val ∧ r.val < m.agendas.length + threads := by
  induction threads generalizing m with
  | zero => exact fun _ none => by cases none
  | succ threads ih =>
      intro r member
      rcases List.mem_cons.mp member with rfl | member
      · have same : m.agendas.length = m.threads.length := List.length_map ..
        dsimp only [Machine.spawn]
        omega
      · have known := ih (m.spawn "reporter" [.hub (.connect device c)]).2 r member
        rw [agendas_spawn, List.length_append, List.length_singleton] at known
        omega

structure Reporting (m : Machine) (r : ThreadId) : Prop where
  apart : r ≠ .caller
  known : r.val < m.agendas.length
  reports : Every Job.reports (m.agenda r)

theorem Reporting.carry (reporting : Reporting m u) (agenda : m.agenda t = job :: later) : Reporting (m.carry t job later) u := by
  refine ⟨reporting.apart, ?_, ?_⟩
  · rw [length_agendas_carry]
    exact Nat.lt_add_right _ reporting.known
  · by_cases mine : u = t
    · subst mine
      have reports := reporting.reports
      rw [agenda, every_cons] at reports
      rw [agenda_carry_self agenda]
      exact (every_append ..).mpr ⟨reports_next m reporting.apart reports.1, reports.2⟩
    · rw [agenda_carry_old mine reporting.known]
      exact reporting.reports

theorem Reporting.unwind (reporting : Reporting m u) (agenda : m.agenda t = .panic :: later) : Reporting (m.unwind t later) u := by
  refine ⟨reporting.apart, ?_, ?_⟩
  · rw [agendas_unwind, List.length_set]
    exact reporting.known
  · by_cases mine : u = t
    · subst mine
      have reports := reporting.reports
      rw [agenda, every_cons] at reports
      rw [agenda_unwind_self agenda]
      -- A report catches no panic.
      rcases unwound later with ⟨d, rest, split, _⟩ | ⟨_, left⟩
      · rw [split] at reports
        cases reports.2 _ (List.mem_append_right _ (List.mem_cons_self ..))
      · rw [left]
        exact every_nil _
    · rw [agenda_unwind_other mine]
      exact reporting.reports

theorem await_next (m : Machine) (t : ThreadId) (job : Job) {threads : List ThreadId} (member : .await threads ∈ (job.exec m t).2) :
    ∃ n device c, job = .perform (.connectAtOnce n device c) ∧ m.hub.owned = true ∧ threads = (m.spawnReporters device c n).1 := by
  obtain ⟨n, device, c, rfl⟩ := await_origin (leads_exec m t job _ member)
  simp only [Job.exec, Machine.perform, Machine.performOwned] at member
  split at member
  · rename_i owned
    simp only [List.mem_cons, List.not_mem_nil, or_false, reduceCtorEq, Job.await.injEq] at member
    exact ⟨n, device, c, rfl, owned, member⟩
  · simp at member

theorem fresh_unawaited {agenda : List Job} {threads : List ThreadId} (fresh : Fresh config u agenda) : .await threads ∉ agenda :=
  fun member => by
  cases fresh.jobs _ member

theorem Run.awaited (run : Run config hooks past m) : ∀ t threads, .await threads ∈ m.agenda t → ∀ r ∈ threads, Reporting m r := by
  refine Run.induct (G := fun _ => True) (P := fun _ m => ∀ t threads, .await threads ∈ m.agenda t → ∀ r ∈ threads, Reporting m r)
    ?construct ?assemble ?call ?client ?carry ?unwind run fun _ _ => trivial
  case construct =>
    intro system t threads member
    rcases initial_fresh config hooks t .construction with idle | fresh
    · rw [idle] at member
      cases member
    · exact absurd member (fresh_unawaited fresh)
  case assemble =>
    intro system t threads member
    rcases initial_fresh config hooks t .assembly with idle | fresh
    · rw [idle] at member
      cases member
    · exact absurd member (fresh_unawaited fresh)
  case call =>
    intro past m op _ before idle t threads member r among
    rcases call_fresh config idle op t with same | ⟨_, fresh⟩
    · have reporting := before t threads (same ▸ member) r among
      refine ⟨reporting.apart, ?_, ?_⟩
      · rw [agendas_beginWith, List.length_set]
        exact reporting.known
      · rw [agenda_beginWith_other reporting.apart]
        exact reporting.reports
    · exact absurd member (fresh_unawaited fresh)
  case client =>
    intro past m name op _ before t threads member r among
    rcases client_fresh config m name op t with same | ⟨_, fresh⟩
    · have reporting := before t threads (same ▸ member) r among
      refine ⟨reporting.apart, ?_, ?_⟩
      · rw [agendas_spawn, List.length_append]
        exact Nat.lt_add_right _ reporting.known
      · rw [agenda_client_old reporting.known]
        exact reporting.reports
    · exact absurd member (fresh_unawaited fresh)
  case carry =>
    intro past m t job later run before agenda _ _ _ u threads member r among
    rcases run.carried agenda member with ⟨rfl, next⟩ | ⟨old, _⟩ | ⟨jobs, fresh, inside⟩
    · obtain ⟨n, device, c, rfl, owned, rfl⟩ := await_next m u job next
      have fresh := spawnReporters_known m device c n r among
      have positive := run.caller_known
      have mine := known_lt (agenda_known agenda (List.cons_ne_nil _ _))
      have recruits : (Job.perform (.connectAtOnce n device c)).recruits m = List.replicate n
        [.hub (.connect device c)] := if_pos owned
      have apart : r ≠ u := fun same => by
        rw [same] at fresh
        omega
      refine ⟨fun caller => ?_, ?_, ?_⟩
      · rw [caller] at fresh
        exact Nat.not_lt.mpr fresh.1 positive
      · rw [length_agendas_carry, recruits, List.length_replicate]
        exact fresh.2
      · rw [agenda_eq, agendas_carry, List.getElem?_set_ne (ne_val apart), recruits, List.getElem?_append_right fresh.1,
          List.getElem?_replicate, if_pos (by omega)]
        exact every_one rfl
    · exact (before u threads old r among).carry agenda
    · exact absurd inside (fresh_unawaited fresh)
  case unwind =>
    intro past m t later run before agenda _ u threads member r among
    exact (before u threads (run.outlived agenda rfl member).2 r among).unwind agenda

end TransportHub
