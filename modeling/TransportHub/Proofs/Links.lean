import TransportHub.Proofs.Replies
import TransportHub.Proofs.Teardown
/-!
Links: the rows of the connection table. A row is what the last job about its connection made of it; a
connection that is entered after the map of the lanes was closed is taken off the table again.
-/

set_option autoImplicit false

namespace TransportHub

variable {config : Config} {hooks : List Hook} {past : List Moment} {m : Machine} {t u : ThreadId}
  {job : Job} {later : List Job} {x : Moment} {c : ConnectionHandle} {d : DeviceInfo}

def Job.link (c : ConnectionHandle) : Job → Option (Option DeviceInfo)
  | .hub (.recordConnection d other) => if other = c then some (some d) else none
  | .hub (.forgetConnection other) => if other = c then some none else none
  | .hub .clearConnections => some none
  | _ => none

-- The row of a connection by the history.
def row (c : ConnectionHandle) (past : List Moment) : Option DeviceInfo :=
  past.foldl (fun before x => (x.job.link c).getD before) none

theorem row_snoc : row c (past ++ [x]) = (x.job.link c).getD (row c past) := by
  simp [row]

theorem link_exec (m : Machine) (t : ThreadId) (job : Job) (managed : ∀ op, job = .perform op → op.managed = true) :
    (job.exec m t).1.hub.connections.get? c = (job.link c).getD (m.hub.connections.get? c) := by
  cases relinks : job.relinks with
  | false =>
      rw [(steady_exec m t job managed).connections relinks]
      cases job with
      | hub job => cases job <;> first | rfl | cases relinks
      | _ => rfl
  | true =>
      cases job with
      | hub job =>
          cases job with
          | recordConnection d other =>
              simp only [Job.exec, HubJob.exec, Machine.setHub, Table.get?_insert, Job.link]
              by_cases same : other = c
              · simp [same]
              · simp [same, Ne.symm same]
          | forgetConnection other =>
              simp only [Job.exec, HubJob.exec, Machine.setHub, Table.get?_erase, Job.link]
              by_cases same : other = c
              · simp [same]
              · simp [same, Ne.symm same]
          | clearConnections => rfl
          | _ => cases relinks
      | _ => cases relinks

theorem Run.linked (run : Run config hooks past m) (managed : ∀ x ∈ past, x.managed) (c : ConnectionHandle) :
    m.hub.connections.get? c = row c past := by
  refine Run.induct (G := Moment.managed) (P := fun past m => m.hub.connections.get? c = row c past)
    ?construct ?assemble ?call ?client ?carry ?unwind run managed
  case construct | assemble => exact rfl
  case call => exact fun _ _ before _ => before
  case client => exact fun _ _ _ before => before
  case carry =>
    intro past m t job later _ before _ _ _ here
    rw [row_snoc, ← before, hub_carry]
    exact link_exec m t job here
  case unwind =>
    intro past m t later _ before _ _
    rw [row_snoc, ← before, connections_unwind]
    rfl

def Job.Enters (job : Job) (rest : List Job) : Prop :=
  ∀ d c, job = .hub (.recordConnection d c) →
    ∃ tail, rest = .acquire .laneMap :: .dataLane (.start c) :: .hub (.connectionStarted d c) :: tail

theorem Run.enters (run : Run config hooks past m) (u : ThreadId) : Each Job.Enters (m.agenda u) := by
  have free : ∀ {j : Job} {rest : List Job}, (∀ d c, j ≠ .hub (.recordConnection d c)) → j.Enters rest :=
    fun apart d c same => absurd same (apart d c)
  refine Run.each (G := fun _ => True) (P := fun _ => Job.Enters) ?fresh ?next ?caught run (fun _ _ => trivial) u
  case fresh =>
    intro u agenda fresh
    refine each_of_forall fun j member rest => free fun d c same => ?_
    subst same
    cases fresh.jobs _ member
  case next =>
    intro past m t job later _ _ _ _ _ _
    by_cases connects : ∃ d c, job = .hub (.connect d c)
    · obtain ⟨d, c, rfl⟩ := connects
      simp only [Job.exec, HubJob.exec]
      split
      · exact ⟨free fun _ _ none => (by cases none), trivial⟩
      · refine ⟨free fun _ _ none => (by cases none), fun d' c' same => ?_, free fun _ _ none => (by cases none),
          free fun _ _ none => (by cases none), free fun _ _ none => (by cases none), trivial⟩
        cases same
        exact ⟨later, rfl⟩
    · refine each_of_forall fun j member rest => free fun d c same => connects ?_
      subst same
      exact recordConnection_origin (leads_exec m t job _ member)
  case caught =>
    exact fun u d rest each => ⟨free fun _ _ none => (by cases none), free fun _ _ none => (by cases none), each.2⟩

-- What a thread has before it that has entered a connection too late: it will be told so, and then takes
-- the connection off the table. Operations hooked onto what it writes meanwhile come in front.
inductive Doomed (c : ConnectionHandle) (reply : Reply) : List Job → Prop where
  | enter (d : DeviceInfo) (rest : List Job) :
      Doomed c reply (.acquire .laneMap :: .dataLane (.start c) :: .hub (.connectionStarted d c) :: rest)
  | start (d : DeviceInfo) (rest : List Job) : Doomed c reply (.dataLane (.start c) :: .hub (.connectionStarted d c) :: rest)
  | log (record : Log.Record) (d : DeviceInfo) (rest : List Job) : Doomed c reply (.log record :: .release .laneMap ::
      .answer (.done (.error .shuttingDown)) :: .hub (.connectionStarted d c) :: rest)
  | hooked (front : List Job) (d : DeviceInfo) (rest : List Job) : Doomed c reply (front ++ .resume :: .release .laneMap ::
      .answer (.done (.error .shuttingDown)) :: .hub (.connectionStarted d c) :: rest)
  | release (d : DeviceInfo) (rest : List Job) : Doomed c reply (.release .laneMap ::
      .answer (.done (.error .shuttingDown)) :: .hub (.connectionStarted d c) :: rest)
  | answer (d : DeviceInfo) (rest : List Job) :
      Doomed c reply (.answer (.done (.error .shuttingDown)) :: .hub (.connectionStarted d c) :: rest)
  | told (d : DeviceInfo) (rest : List Job) (told : reply.error? = some .shuttingDown) :
      Doomed c reply (.hub (.connectionStarted d c) :: rest)
  | forget (rest : List Job) : Doomed c reply (.hub (.forgetConnection c) :: rest)

theorem Doomed.carry (doomed : Doomed c (m.reply t) (m.agenda t)) (agenda : m.agenda t = job :: later)
    (closed : m.hub.dataLanes.closed = true) (apart : job ≠ .hub (.forgetConnection c)) :
    Doomed c ((m.carry t job later).reply t) ((m.carry t job later).agenda t) := by
  rw [agenda_carry_self agenda]
  rw [agenda] at doomed
  generalize whole : job :: later = rest at doomed
  cases doomed with
  | enter d rest =>
      cases whole
      exact .start d rest
  | start d rest =>
      cases whole
      simp only [Job.exec, DataLaneJob.exec, closed, if_true]
      exact .log _ d rest
  | log record d rest =>
      cases whole
      simp only [Job.exec, Machine.log]
      split
      · rw [List.append_assoc]
        exact .hooked _ d rest
      · exact .release d rest
  | hooked front d rest =>
      cases front with
      | nil =>
          cases whole
          exact .release d rest
      | cons first front =>
          cases whole
          show Doomed c _ ((job.exec m t).2 ++ (front ++ _))
          rw [← List.append_assoc]
          exact .hooked _ d rest
  | release d rest =>
      cases whole
      exact .answer d rest
  | answer d rest =>
      cases whole
      refine .told d rest ?_
      rw [reply_answer agenda]
      rfl
  | told d rest told =>
      cases whole
      simp only [Job.exec, HubJob.exec, told]
      exact .forget _
  | forget rest =>
      cases whole
      exact absurd rfl apart

theorem kept_front {front tail : List Job} (outside : job ∉ cut (front ++ job :: tail))
    (unmarked : ∀ d, job ≠ .participant (.delivered d)) :
    ∃ first, kept (front ++ job :: tail) = first ++ job :: tail := by
  induction front with
  | nil =>
      refine absurd ?_ outside
      rw [List.nil_append, cut]
      · exact List.mem_cons_self ..
      · exact fun d same => unmarked d same
  | cons j front ih =>
      by_cases catches : ∃ d, j = .participant (.delivered d)
      · obtain ⟨d, rfl⟩ := catches
        exact ⟨ParticipantJob.afterPanic d ++ front, (List.append_assoc ..).symm⟩
      · have other : ∀ d, j ≠ .participant (.delivered d) := fun d same => catches ⟨d, same⟩
        rw [List.cons_append, cut] at outside
        · have same : kept (j :: (front ++ job :: tail)) = kept (front ++ job :: tail) := by simp only [kept, Machine.caught?]
          rw [List.cons_append, same]
          exact ih fun member => outside (List.mem_cons_of_mem _ member)
        · exact fun d same => other d same

theorem Doomed.unwind (doomed : Doomed c (m.reply t) (m.agenda t)) (agenda : m.agenda t = .panic :: later)
    (hooked : Moment.hookSafe ⟨m, t, .panic, later⟩) : Doomed c ((m.unwind t later).reply t) ((m.unwind t later).agenda t) := by
  rw [agenda_unwind_self agenda]
  rw [agenda] at doomed
  generalize whole : Job.panic :: later = rest at doomed
  cases doomed with
  | hooked front d rest =>
      cases front with
      | nil => cases whole
      | cons first front =>
          cases whole
          obtain ⟨first, kept⟩ := kept_front (fun passed => hooked _ passed rfl) (fun _ none => by cases none)
          exact kept ▸ .hooked first d rest
  | _ => cases whole

theorem Doomed.busy {reply : Reply} {rest : List Job} (doomed : Doomed c reply rest) : rest ≠ [] := by
  cases doomed with
  | hooked front => exact List.append_ne_nil_of_right_ne_nil _ (List.cons_ne_nil _ _)
  | _ => exact List.cons_ne_nil _ _

theorem link_cases (c : ConnectionHandle) (job : Job) :
    job.link c = none ∨ job.link c = some none ∨ ∃ d, job = .hub (.recordConnection d c) := by
  cases job with
  | hub job =>
      cases job with
      | recordConnection d other =>
          by_cases same : other = c
          · exact .inr (.inr ⟨d, by rw [same]⟩)
          · exact .inl (if_neg same)
      | forgetConnection other =>
          by_cases same : other = c
          · exact .inr (.inl (if_pos same))
          · exact .inl (if_neg same)
      | clearConnections => exact .inr (.inl rfl)
      | _ => exact .inl rfl
  | _ => exact .inl rfl

theorem Run.doomed (run : Run config hooks past m) (managed : ∀ x ∈ past, x.managed) (hooked : ∀ x ∈ past, x.hookSafe)
    (cleared : ∃ x ∈ past, x.job = .hub .clearConnections) (c : ConnectionHandle) (known : m.hub.connections.get? c ≠ none) :
    ∃ u, Doomed c (m.reply u) (m.agenda u) := by
  refine Run.induct_all (G := fun x => x.managed ∧ x.hookSafe) (P := fun past m =>
      (∃ x ∈ past, x.job = .hub .clearConnections) → m.hub.connections.get? c ≠ none → ∃ u, Doomed c (m.reply u) (m.agenda u))
    ?construct ?assemble ?call ?client ?carry ?unwind run (fun x seen => ⟨managed x seen, hooked x seen⟩) cleared known
  case construct | assemble => rintro _ ⟨_, ⟨⟩, _⟩
  case call =>
    intro past m op _ before idle cleared known
    obtain ⟨u, doomed⟩ := before cleared known
    have apart : u ≠ .caller := by
      rintro rfl
      exact doomed.busy idle
    exact ⟨u, by rw [agenda_beginWith_other apart, reply_beginWith apart]; exact doomed⟩
  case client =>
    intro past m name op _ before cleared known
    obtain ⟨u, doomed⟩ := before cleared known
    have there := known_lt (agenda_known rfl doomed.busy)
    exact ⟨u, by rw [agenda_client_old there, reply_client there]; exact doomed⟩
  case carry =>
    intro past m t job later run before agenda notPanic enabled old now cleared known
    rw [hub_carry, link_exec m t job now.1] at known
    have cleared := (seen_snoc.mp cleared).resolve_right fun clears => by
      cases clears
      exact known rfl
    have closed := run.closed_before (fun x seen => (old x seen).1) (cleared.imp fun _ here => ⟨here.1, .inl here.2⟩)
    rcases link_cases c job with none | forgets | ⟨d, rfl⟩
    · rw [none] at known
      obtain ⟨u, doomed⟩ := before cleared known
      by_cases mine : u = t
      · subst mine
        refine ⟨u, doomed.carry agenda closed fun same => ?_⟩
        rw [same] at none
        simp [Job.link] at none
      · have there := known_lt (agenda_known rfl doomed.busy)
        exact ⟨u, by rw [agenda_carry_old mine there, reply_carry there (.inl mine)]; exact doomed⟩
    · rw [forgets] at known
      exact absurd rfl known
    · have enters := run.enters t
      rw [agenda] at enters
      obtain ⟨tail, rfl⟩ := enters.1 d c rfl
      refine ⟨t, ?_⟩
      rw [agenda_carry_self agenda]
      exact .enter d tail
  case unwind =>
    intro past m t later run before agenda _ now cleared known
    rw [connections_unwind] at known
    obtain ⟨u, doomed⟩ := before ((seen_snoc.mp cleared).resolve_right fun none => by cases none) known
    by_cases mine : u = t
    · subst mine
      exact ⟨u, doomed.unwind agenda now.2⟩
    · exact ⟨u, by rw [agenda_unwind_other mine, reply_unwind mine]; exact doomed⟩

def Job.links : Job → Bool
  | .hub job => (job matches .connect .. | .recordConnection .. | .connectionStarted .. | .forgetConnection _ | .disconnected ..)
  | .dataLane job => (job matches .start _ | .reap | .spawn _ | .publish .. | .stop _ | .requestStop _ | .retire _)
  | _ => false

def Machine.unlinking (m : Machine) : Prop := ∀ u, ∀ job ∈ m.agenda u, job.links = false

theorem Doomed.links {reply : Reply} {rest : List Job} (doomed : Doomed c reply rest) : ∃ job ∈ rest, job.links = true := by
  cases doomed with
  | forget rest => exact ⟨_, List.mem_cons_self .., rfl⟩
  | told d rest told => exact ⟨_, List.mem_cons_self .., rfl⟩
  | enter d rest | start d rest | release d rest | answer d rest => exact ⟨.hub (.connectionStarted d c), by simp, rfl⟩
  | log record d rest => exact ⟨.hub (.connectionStarted d c), by simp, rfl⟩
  | hooked front d rest => exact ⟨.hub (.connectionStarted d c), by simp, rfl⟩

theorem Run.forgotten (run : Run config hooks past m) (managed : ∀ x ∈ past, x.managed) (hooked : ∀ x ∈ past, x.hookSafe)
    (halted : ∃ x ∈ past, x.job = .hub .halt) (unlinking : m.unlinking) : m.hub.connections = {} := by
  refine Table.ext_get? fun c => Classical.byContradiction fun known => ?_
  obtain ⟨u, doomed⟩ := run.doomed managed hooked (run.cleared_before managed halted) c known
  obtain ⟨job, member, links⟩ := doomed.links
  rw [unlinking u job member] at links
  cases links

end TransportHub
