import TransportHub.Proofs.Metrics
/-!
The event sink: every data event that is reported to the hub looks for the lane of its connection, and
every connection that finds no lane gets one.
-/

set_option autoImplicit false

namespace TransportHub

def Report.data? : Report → Option DataCallback
  | .received c data => some (.received c data)
  | .completed c sequence status => some (.completed c sequence status)
  | _ => none

def Job.brings (m : Machine) (callback : DataCallback) : Job → Nat
  | .perform (.report _ report) => if m.hub.owned ∧ report.data? = some callback then 1 else 0
  | .perform (.contextReport name report) =>
      if m.attached ∧ ((m.cast.namedAdapter? name).bind (·.2.context)).isSome ∧ report.data? = some callback then 1 else 0
  | .participant (.complete key c sequence status) =>
      if m.attached ∧ ((m.cast.adapter? key).bind (·.context)).isSome ∧ .completed c sequence status = callback then 1 else 0
  | .perform (.dataLanes (.enqueue _ other)) => if m.hub.owned ∧ other = callback then 1 else 0
  | _ => 0

def sought (callback : DataCallback) : Job → Nat
  | .dataLane (.find _ other) => if other = callback then 1 else 0
  | _ => 0

variable {config : Config} {hooks : List Hook} {past : List Moment} {m : Machine} {t : ThreadId} {job : Job}

theorem inner_sought (callback : DataCallback) : Inner (sought callback) :=
  ⟨fun _ _ _ fresh => by cases fresh <;> rfl, rfl, fun _ => rfl⟩

theorem sought_source (callback : DataCallback) {job j : Job} (leads : job.leads j = true) (here : sought callback j ≠ 0) :
    (∃ op, job = .perform op) ∨ ∃ key c sequence status, job = .participant (.complete key c sequence status) := by
  cases j with
  | dataLane j =>
      cases j with
      | find =>
          dsimp only [Job.leads] at leads
          split at leads <;> first
            | exact .inl ⟨_, rfl⟩
            | exact .inr ⟨_, _, _, _, rfl⟩
            | cases leads
      | _ => exact absurd rfl here
  | _ => exact absurd rfl here

theorem sought_report (source : AdapterId) (report : Report) (callback : DataCallback) :
    weight (sought callback) (Plan.report source report) = if report.data? = some callback then 1 else 0 := by
  cases report with
  | received | completed =>
      simp only [Plan.report, Plan.enqueueData, Job.logHub, weight_cons, weight_nil, sought, Report.data?, Option.some.injEq]
      split <;> rfl
  | _ => rfl

theorem sought_through (m : Machine) (id : AdapterId) (report : Report) (callback : DataCallback) :
    weight (sought callback) (ParticipantJob.reportThrough m id report) =
      if m.attached ∧ report.data? = some callback then 1 else 0 := by
  unfold ParticipantJob.reportThrough
  split
  · rename_i reached
    rw [weight_append, sought_report]
    simp [reached, sought]
  · rename_i cut
    simp [cut, sought]

theorem sought_perform (m : Machine) (op : Op) (callback : DataCallback) :
    weight (sought callback) (m.perform op).2 = (Job.perform op).brings m callback := by
  cases op with
  | report source report =>
      simp only [Machine.perform, Machine.performOwned, Job.brings]
      split
      · rename_i owned
        rw [weight_append, sought_report]
        simp [owned, sought]
      · rename_i given
        simp [given, sought]
  | contextReport name report =>
      simp only [Machine.perform, Job.brings]
      cases (m.cast.namedAdapter? name).bind (·.2.context) with
      | none => simp [sought]
      | some id =>
          simp only [weight_append, sought_through]
          simp [sought]
  | dataLanes op =>
      cases op with
      | enqueue c other =>
          simp only [Machine.perform, Machine.performOwned, DataLanesOp.exec, Job.brings, Plan.enqueueData]
          split
          · rename_i owned
            simp [owned, sought]
          · rename_i given
            simp [given, sought]
      | _ =>
          simp only [Machine.perform, Machine.performOwned, DataLanesOp.exec]
          split <;> rfl
  | registry op | deviceLane op =>
      cases op <;> simp only [Machine.perform, Machine.performOwned, RegistryOp.exec, DeviceLaneOp.exec] <;> split <;> rfl
  | context name query =>
      simp only [Machine.perform]
      split
      · cases query <;> rfl
      · rfl
  | setType | release =>
      simp only [Machine.perform]
      repeat' split
      all_goals rfl
  | _ =>
      simp only [Machine.perform, Machine.performOwned, ContextQuery.exec]
      split <;> rfl

theorem sought_next (m : Machine) (t : ThreadId) (job : Job) (callback : DataCallback) :
    weight (sought callback) (job.exec m t).2 = job.brings m callback := by
  by_cases source : (∃ op, job = .perform op) ∨ ∃ key c sequence status, job = .participant (.complete key c sequence status)
  · rcases source with ⟨op, rfl⟩ | ⟨key, c, sequence, status, rfl⟩
    · exact sought_perform m op callback
    · simp only [Job.exec, ParticipantJob.exec, Job.brings]
      cases (m.cast.adapter? key).bind (·.context) with
      | none => simp
      | some id =>
          simp only [sought_through]
          simp [Report.data?]
  · have none : job.brings m callback = 0 := by
      cases job with
      | perform op => exact absurd (.inl ⟨_, rfl⟩) source
      | participant job =>
          cases job with
          | complete => exact absurd (.inr ⟨_, _, _, _, rfl⟩) source
          | _ => rfl
      | _ => rfl
    rw [none]
    exact weight_next_apart (sought_source callback) m t job source

theorem Run.sought (run : Run config hooks past m) (hooked : ∀ x ∈ past, x.hookSafe) (callback : DataCallback) :
    total (fun x => x.job.brings x.machine callback) past =
      total (fun x => TransportHub.sought callback x.job) past + m.load (TransportHub.sought callback) := by
  have law := run.ledger (a := fun x => x.job.brings x.machine callback)
    (b := fun x => TransportHub.sought callback x.job) (q := fun _ => 0) (r := fun _ => 0)
    (inner_sought callback) rfl (fun _ => ⟨rfl, rfl⟩) (fun _ _ _ => ⟨rfl, rfl⟩) (fun {_ m t job _} _ _ _ _ => by
      have next := sought_next m t job callback
      simp only
      omega)
  rw [total_lost_zero fun x member job dropped => ?_] at law
  · omega
  · have loose := run.queues_kept member (hooked x member) job dropped
    cases job with
    | dataLane job => cases job <;> first | rfl | cases loose
    | _ => rfl

def Job.arrives (m : Machine) (c : ConnectionHandle) : Job → Nat
  | .dataLane (.start other) =>
      if other = c ∧ m.hub.dataLanes.closed = false ∧ m.hub.dataLanes.occupied c = false then 1 else 0
  | _ => 0

def Job.founds (c : ConnectionHandle) : Job → Nat
  | .dataLane (.publish other _) => if other = c then 1 else 0
  | _ => 0

def Job.unmanned (m : Machine) (c : ConnectionHandle) : Job → Nat
  | .dataLane (.spawn other) => if other = c ∧ m.system.answer (m.hub.config.dataThread c) ≠ .started then 1 else 0
  | _ => 0

def founding (c : ConnectionHandle) : Job → Nat
  | .dataLane (.spawn other) | .dataLane (.publish other _) => if other = c then 1 else 0
  | _ => 0

variable {c : ConnectionHandle}

theorem inner_founding (c : ConnectionHandle) : Inner (founding c) :=
  ⟨fun _ _ _ fresh => by cases fresh <;> rfl, rfl, fun _ => rfl⟩

theorem founding_source (c : ConnectionHandle) {job j : Job} (leads : job.leads j = true) (here : founding c j ≠ 0) :
    (∃ other, job = .dataLane (.start other)) ∨ ∃ other, job = .dataLane (.spawn other) := by
  cases j with
  | dataLane j =>
      cases j with
      | spawn | publish =>
          dsimp only [Job.leads] at leads
          split at leads <;> first
            | exact .inl ⟨_, rfl⟩
            | exact .inr ⟨_, rfl⟩
            | cases leads
      | _ => exact absurd rfl here
  | _ => exact absurd rfl here

theorem founding_next (m : Machine) (t : ThreadId) (job : Job) (c : ConnectionHandle) :
    job.arrives m c + founding c job = job.founds c + job.unmanned m c + weight (founding c) (job.exec m t).2 := by
  by_cases source : (∃ other, job = .dataLane (.start other)) ∨ ∃ other, job = .dataLane (.spawn other)
  · rcases source with ⟨other, rfl⟩ | ⟨other, rfl⟩
    · simp only [Job.exec, DataLaneJob.exec, Job.arrives, Job.founds, Job.unmanned, founding]
      by_cases same : other = c
      · subst same
        cases m.hub.dataLanes.closed <;> cases m.hub.dataLanes.occupied other <;> simp [founding, Job.logDataLane]
      · simp only [same, false_and, if_false]
        repeat' split
        all_goals simp [founding, same, Job.logDataLane]
    · simp only [Job.exec, DataLaneJob.exec, Job.arrives, Job.founds, Job.unmanned, founding]
      by_cases same : other = c
      · subst same
        cases m.system.answer (m.hub.config.dataThread other) <;> simp [founding, Job.logDataLane]
      · simp only [same, false_and, if_false]
        split <;> simp [founding, same, Job.logDataLane]
  · rw [weight_next_apart (founding_source c) m t job source]
    cases job with
    | dataLane job =>
        cases job with
        | start => exact absurd (.inl ⟨_, rfl⟩) source
        | spawn => exact absurd (.inr ⟨_, rfl⟩) source
        | publish other slot =>
            simp only [Job.arrives, Job.founds, Job.unmanned, founding]
            omega
        | _ => rfl
    | _ => rfl

theorem Run.founded (run : Run config hooks past m) (hooked : ∀ x ∈ past, x.hookSafe) (c : ConnectionHandle) :
    total (fun x => x.job.arrives x.machine c) past =
      total (fun x => x.job.founds c) past + total (fun x => x.job.unmanned x.machine c) past + m.load (founding c) := by
  have law := run.ledger (a := fun x => x.job.arrives x.machine c)
    (b := fun x => x.job.founds c + x.job.unmanned x.machine c) (q := fun _ => 0) (r := fun _ => 0)
    (inner_founding c) rfl (fun _ => ⟨rfl, rfl⟩) (fun _ _ _ => ⟨rfl, rfl⟩) (fun {_ m t job _} _ _ _ _ => by
      have next := founding_next m t job c
      simp only
      omega)
  rw [total_add, total_lost_zero fun x member job dropped => ?_] at law
  · omega
  · have loose := run.queues_kept member (hooked x member) job dropped
    cases job with
    | dataLane job => cases job <;> first | rfl | cases loose
    | _ => rfl

end TransportHub
