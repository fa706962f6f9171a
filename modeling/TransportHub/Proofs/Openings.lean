import TransportHub.Proofs.Composure
import TransportHub.Proofs.Links
/-!
Openings: what stands on the agenda of a thread that has entered a connection into the table and is about
to put a lane for it into the map, or that has given the lane up and is about to take the connection off
the table. Nothing comes in between on that thread.
-/

set_option autoImplicit false

namespace TransportHub

open DataLanes (Slot)

variable {config : Config} {hooks : List Hook} {past : List Moment} {m : Machine} {t u : ThreadId}
  {job : Job} {later : List Job} {slot : Slot} {c : ConnectionHandle}

def Job.records (c : ConnectionHandle) : Job → Bool
  | .hub (.recordConnection _ other) => other = c
  | _ => false

def Job.opensLane (c : ConnectionHandle) : Job → Bool
  | .dataLane (.start other) | .dataLane (.spawn other) | .dataLane (.publish other _) => other = c
  | _ => false

def Job.partsWith (c : ConnectionHandle) : Job → Bool
  | .dataLane (.stop other) => other = c
  | _ => false

def Job.forgets (c : ConnectionHandle) : Job → Bool
  | .hub (.forgetConnection other) => other = c
  | _ => false

theorem records_job (records : job.records c = true) : ∃ d, job = .hub (.recordConnection d c) := by
  cases job with
  | hub job =>
      cases job with
      | recordConnection d other => exact ⟨d, by rw [of_decide_eq_true records]⟩
      | _ => cases records
  | _ => cases records

theorem partsWith_job (parts : job.partsWith c = true) : job = .dataLane (.stop c) := by
  cases job with
  | dataLane job =>
      cases job with
      | stop other => rw [of_decide_eq_true parts]
      | _ => cases parts
  | _ => cases parts

theorem forgets_job (forgets : job.forgets c = true) : job = .hub (.forgetConnection c) := by
  cases job with
  | hub job =>
      cases job with
      | forgetConnection other => rw [of_decide_eq_true forgets]
      | _ => cases forgets
  | _ => cases forgets

-- A thread has entered a connection and is going to put a lane for it into the map.
def Opens (c : ConnectionHandle) (agenda : List Job) : Prop := (Fence.order (Job.records c) (Job.opensLane c)).exposed agenda = true

-- A thread has given up the lane of a connection and is going to take the connection off the table.
def Closes (c : ConnectionHandle) (agenda : List Job) : Prop := (Fence.order (Job.partsWith c) (Job.forgets c)).exposed agenda = true

theorem not_exposed {F : Fence} {agenda : List Job} (loose : ∀ job ∈ agenda, F.pinned job = false) : ¬ F.exposed agenda = true := by
  rw [Fence.exposed_unpinned loose]
  exact Bool.false_ne_true

theorem each_split {P : Job → List Job → Prop} {agenda : List Job}
    (all : ∀ front job rest, agenda = front ++ job :: rest → P job rest) :
    Each P agenda := by
  induction agenda with
  | nil => trivial
  | cons job rest ih =>
      exact ⟨all [] job rest rfl, ih fun front j tail same => all (job :: front) j tail (congrArg (List.cons job) same)⟩

def Job.halfway (u : ThreadId) (c : ConnectionHandle) : Job → Prop
  | .acquire lock | .release lock => lock = .laneMap
  | .dataLane job => job = .reap
  | .join lane w => lane = Log.dataLaneName ∧ w ≠ u
  | .hub (.recordConnection _ other) => other = c
  | _ => False

theorem opensLane_source {j : Job} (leads : job.leads j = true) (opens : j.opensLane c = true) :
    (∃ d k, job = .hub (.connect d k)) ∨ (∃ op, job = .perform op ∧ op.managed = false) ∨
      ∃ k, job = .dataLane (.start k) ∨ job = .dataLane (.spawn k) := by
  cases j with
  | dataLane j =>
      cases j with
      | start k | spawn k | publish k slot =>
          dsimp only [Job.leads] at leads
          split at leads <;> first | (cases leads; done) | simp [Op.managed]
      | _ => cases opens
  | _ => cases opens

theorem records_source {j : Job} (leads : job.leads j = true) (records : j.records c = true) : ∃ d k, job = .hub (.connect d k) := by
  obtain ⟨d, rfl⟩ := records_job records
  exact recordConnection_origin leads

theorem halfway_next (run : Run config hooks past m) (agenda : m.agenda t = job :: later) (halfway : job.halfway t c) :
    ∀ j ∈ (job.exec m t).2, j.halfway t c := by
  cases job with
  | acquire | release => exact fun _ none => by cases none
  | dataLane job =>
      cases halfway
      intro j member
      simp only [Job.exec, DataLaneJob.exec, DataLanes.reap, List.mem_map, List.mem_filter] at member
      obtain ⟨w, ⟨_, exited⟩, rfl⟩ := member
      refine ⟨rfl, fun mine => ?_⟩
      subst mine
      rw [exited_idle exited] at agenda
      cases agenda
  | join lane w =>
      obtain ⟨rfl, apart⟩ := halfway
      have musters := run.mustered.2 t
      rw [agenda] at musters
      obtain ⟨slot, member, rfl⟩ := musters.1 rfl
      have unhurt := (run.composed slot member).1
      simp [Job.exec, apart, unhurt]
  | hub job =>
      cases job with
      | recordConnection => exact fun _ none => by cases none
      | _ => cases halfway
  | _ => cases halfway

theorem Run.halfway (run : Run config hooks past m) (managed : ∀ x ∈ past, x.managed) (u : ThreadId) :
    Each (fun job rest => ∀ c, Opens c rest → job.halfway u c) (m.agenda u) := by
  refine Run.each (G := Moment.managed) (P := fun u job rest => ∀ c, Opens c rest →
    job.halfway u c) ?fresh ?next ?caught run managed u
  case fresh =>
    intro u agenda fresh
    cases fresh <;> first
      | exact ⟨fun _ opens => absurd opens Bool.false_ne_true, fun _ opens => absurd opens Bool.false_ne_true, trivial⟩
      | exact ⟨fun _ opens => absurd opens Bool.false_ne_true, trivial⟩
  case next =>
    intro past m t job later run each agenda _ _ here
    have first := each t
    rw [agenda] at first
    by_cases connects : ∃ d k, job = .hub (.connect d k)
    · obtain ⟨d, k, rfl⟩ := connects
      have none : ∀ {c}, ¬ Opens c later := fun opens => first.1 _ opens
      have start : ∀ {c}, Opens c (.dataLane (.start k) :: .hub (.connectionStarted d k) :: later) → k = c := fun opens =>
        (Fence.exposed_cons opens).2.elim of_decide_eq_true fun behind => absurd behind none
      simp only [Job.exec, HubJob.exec]
      split
      · exact ⟨fun _ opens => absurd opens none, trivial⟩
      · refine ⟨fun c opens => ?_, fun _ opens => start opens, fun _ _ => rfl, fun _ opens => absurd opens none,
          fun _ opens => absurd opens none, trivial⟩
        obtain ⟨apart, opens⟩ := Fence.exposed_cons opens
        exact absurd (start (opens.resolve_left Bool.false_ne_true)) (of_decide_eq_false apart)
    by_cases opening : ∃ k, job = .dataLane (.start k) ∨ job = .dataLane (.spawn k)
    · obtain ⟨k, rfl | rfl⟩ := opening
      · have none : ∀ {c}, ¬ Opens c later := fun opens => by cases first.1 _ opens
        simp only [Job.exec, DataLaneJob.exec]
        repeat' split
        · exact ⟨fun _ opens => absurd opens none, fun _ opens => absurd opens none, fun _ opens => absurd opens none, trivial⟩
        · exact ⟨fun _ opens => absurd opens none, fun _ opens => absurd opens none, fun _ opens => absurd opens none, trivial⟩
        · exact ⟨fun _ _ => rfl, fun _ _ => rfl, fun _ opens => absurd opens none, trivial⟩
      · have none : ∀ {c}, ¬ Opens c later := fun opens => by cases first.1 _ opens
        simp only [Job.exec, DataLaneJob.exec]
        split
        · exact ⟨fun _ _ => rfl, fun _ opens => absurd opens none, trivial⟩
        · exact ⟨fun _ opens => absurd opens none, fun _ opens => absurd opens none, trivial⟩
        · exact ⟨fun _ opens => absurd opens none, trivial⟩
    -- no other job brings in an opening, so one that is pending was pending behind this job
    · refine each_split fun front j rest split c opens => ?_
      rcases Fence.exposed_either opens with inside | behind
      · obtain ⟨k, member, kind⟩ := exposed_order inside
        rcases opensLane_source (leads_exec m t job k (split ▸ by simp [member])) kind with found | ⟨op, rfl, foreign⟩ | found
        · exact absurd found connects
        · rw [here op rfl] at foreign
          cases foreign
        · exact absurd found opening
      · exact halfway_next run agenda (first.1 c behind) j (split ▸ by simp)
  case caught =>
    intro u d rest each
    have none : ∀ c, ¬ Opens c rest := fun c opens => each.1 c opens
    exact ⟨fun c opens => absurd opens (none c), fun c opens => absurd opens (none c), each.2⟩

def Job.decides (h : Hub) : Job → Prop
  | .panic => True
  | .dataLane job => (job matches .start _ | .spawn _ | .publish ..) = true
  | .answer reply => reply.error? = some .shuttingDown → h.dataLanes.closed = true
  | _ => False

def Asks (rest : List Job) : Prop := ∃ d c tail, rest = .hub (.connectionStarted d c) :: tail

theorem asks_nil : ¬ Asks [] := by rintro ⟨_, _, _, ⟨⟩⟩

theorem decides_next (m : Machine) (t : ThreadId) (decides : job.decides m.hub) :
    (job.exec m t).2 = [] ∧ (∃ reply, job = .answer reply) ∨ job = .panic ∨ ∃ front j, (job.exec m t).2 = front ++ [j] ∧
      j.decides m.hub := by
  cases job with
  | panic => exact .inr (.inl rfl)
  | answer reply => exact .inl ⟨rfl, reply, rfl⟩
  | dataLane job =>
      refine .inr (.inr ?_)
      cases job with
      | start c =>
          simp only [Job.exec, DataLaneJob.exec]
          split
          · exact ⟨[_, _], _, rfl, fun _ => ‹_›⟩
          · split
            · exact ⟨[_, _], _, rfl, fun none => by cases none⟩
            · exact ⟨[_, _], _, rfl, rfl⟩
      | spawn c =>
          simp only [Job.exec, DataLaneJob.exec]
          split
          · exact ⟨[_], _, rfl, rfl⟩
          · exact ⟨[_], _, rfl, fun none => by cases none⟩
          · exact ⟨[], _, rfl, trivial⟩
      | publish c slot =>
          simp only [Job.exec, DataLaneJob.exec]
          split
          · exact ⟨[_, _, _, _], _, rfl, fun _ => ‹_›⟩
          · split
            · exact ⟨[_, _, _, _], _, rfl, fun none => by cases none⟩
            · exact ⟨[_, _], _, rfl, fun none => by cases none⟩
      | _ => cases decides
  | _ => cases decides

theorem asks_source {d : DeviceInfo} (member : .hub (.connectionStarted d c) ∈ (job.exec m t).2) : ∃ d k, job = .hub (.connect d k) :=
  connectionStarted_origin (leads_exec m t job _ member)

theorem decides_exec {j : Job} (decides : j.decides m.hub) : j.decides (job.exec m t).1.hub := by
  cases j with
  | answer reply =>
      intro refused
      rw [closed_exec, decides refused]
      rfl
  | panic => trivial
  | dataLane => exact decides
  | _ => cases decides

theorem Run.decided (run : Run config hooks past m) (managed : ∀ x ∈ past, x.managed) (u : ThreadId) :
    Each (fun job rest => Asks rest → job.decides m.hub) (m.agenda u) := by
  have other : ∀ {job : Job} {rest : List Job}, (∀ d c, job ≠ .hub (.connectionStarted d c)) → ¬ Asks (job :: rest) := by
    rintro job rest apart ⟨d, c, tail, same⟩
    exact apart d c (List.cons.inj same).1
  refine (Run.sustain (G := Moment.managed) (I := fun _ _ => True) (P := fun _ h _ job rest => Asks rest → job.decides h)
    trivial ?fresh ?carry ?unwind ?caught run managed).2 u
  case fresh =>
    exact fun _ _ => ⟨⟨fun asks => absurd asks (other fun _ _ none => by cases none), fun asks => absurd asks asks_nil, trivial⟩,
      ⟨fun asks => absurd asks asks_nil, trivial⟩, fun _ _ => ⟨fun asks => absurd asks asks_nil, trivial⟩⟩
  case carry =>
    intro past m t job later run _ each agenda notPanic _ here
    have first := each t
    rw [agenda] at first
    refine ⟨trivial, fun _ _ _ decides asks => decides_exec (decides asks), ?_, fun u agenda _ started recruit => ?_⟩
    · by_cases connects : ∃ d k, job = .hub (.connect d k)
      · obtain ⟨d, k, rfl⟩ := connects
        have none : ¬ Asks later := fun asks => first.1 asks
        simp only [Job.exec, HubJob.exec]
        split
        · exact ⟨fun asks => absurd asks none, trivial⟩
        · exact ⟨fun asks => absurd asks (other fun _ _ none => by cases none),
            fun asks => absurd asks (other fun _ _ none => by cases none),
            fun asks => absurd asks (other fun _ _ none => by cases none), fun _ => rfl, fun asks => absurd asks none, trivial⟩
      · refine each_split fun front j rest split asks => ?_
        cases rest with
        | nil =>
            rcases decides_next m t (first.1 asks) with ⟨none, _⟩ | same | ⟨front', k, last, decides⟩
            · rw [none] at split
              exact absurd split.symm (List.append_ne_nil_of_right_ne_nil _ (List.cons_ne_nil _ _))
            · exact absurd same notPanic
            · obtain ⟨_, same⟩ := List.append_inj' (last.symm.trans split) rfl
              cases same
              exact decides_exec decides
        | cons k more =>
            obtain ⟨d, c, tail, same⟩ := asks
            exact absurd (asks_source (m := m) (t := t) (by rw [split, ← (List.cons.inj same).1]; simp)) connects
    · have fresh : Fresh config u agenda := fresh_recruits started (List.mem_of_getElem? recruit)
      cases fresh <;> first
        | exact ⟨fun asks => absurd asks (other fun _ _ none => by cases none), fun asks => absurd asks asks_nil, trivial⟩
        | exact ⟨fun asks => absurd asks asks_nil, trivial⟩
  case unwind =>
    intro past m t later h _ _ _ _ hub
    refine ⟨trivial, fun _ j _ decides asks => ?_⟩
    rcases hub with rfl | rfl
    · exact decides asks
    · cases j with
      | answer => exact decides asks
      | panic => trivial
      | dataLane => exact decides asks
      | _ => cases decides asks
  case caught =>
    intro past h u d rest each
    exact ⟨fun asks => absurd asks (other fun _ _ none => by cases none), fun asks => absurd (each.1 asks) id, each.2⟩

theorem asks_fresh {agenda : List Job} (fresh : Fresh config u agenda) : ¬ Asks agenda := by
  rintro ⟨d, c, tail, rfl⟩
  cases fresh

theorem Run.told (run : Run config hooks past m) (managed : ∀ x ∈ past, x.managed) (asks : Asks (m.agenda u))
    (told : (m.reply u).error? = some .shuttingDown) : m.hub.dataLanes.closed = true := by
  have start : ∀ {system jobs}, Fresh config .caller jobs →
      ∀ u, ¬ Asks (((Machine.initial config hooks system).beginWith jobs).agenda u) :=
    fun begins u => (initial_fresh config hooks u begins).elim (fun idle => idle ▸ asks_nil) asks_fresh
  refine Run.induct_all (G := Moment.managed) (P := fun _ m =>
      ∀ u, Asks (m.agenda u) → (m.reply u).error? = some .shuttingDown → m.hub.dataLanes.closed = true)
    ?construct ?assemble ?call ?client ?carry ?unwind run managed u asks told
  case construct => exact fun u asks => absurd asks (start .construction u)
  case assemble => exact fun u asks => absurd asks (start .assembly u)
  case call =>
    intro past m op _ before idle u asks told
    rcases call_fresh config idle op u with same | ⟨_, fresh⟩
    · rw [same] at asks
      have apart : u ≠ .caller := by
        rintro rfl
        exact asks_nil (idle ▸ asks)
      exact before u asks (reply_beginWith apart _ ▸ told)
    · exact absurd asks (asks_fresh fresh)
  case client =>
    intro past m name op _ before u asks told
    rcases client_fresh config m name op u with same | ⟨_, fresh⟩
    · rw [same] at asks
      obtain ⟨d, c, tail, agenda⟩ := asks
      have known := known_lt (agenda_known agenda (List.cons_ne_nil _ _))
      exact before u ⟨d, c, tail, agenda⟩ (reply_client known name _ ▸ told)
    · exact absurd asks (asks_fresh fresh)
  case carry =>
    intro past m t job later run before agenda notPanic _ old _ u asks told
    rw [hub_carry, closed_exec, Bool.or_eq_true]
    by_cases mine : u = t
    · subst mine
      have decided := run.decided old u
      rw [agenda] at decided
      rw [agenda_carry_self agenda] at asks
      cases next : (job.exec m u).2 with
      | nil =>
          rw [next] at asks
          rcases decides_next m u (decided.1 asks) with ⟨_, reply, rfl⟩ | same | ⟨front, j, last, _⟩
          · rw [reply_answer agenda] at told
            exact .inl (decided.1 asks told)
          · exact absurd same notPanic
          · rw [next] at last
            exact absurd last.symm (List.append_ne_nil_of_right_ne_nil _ (List.cons_ne_nil _ _))
      | cons k more =>
          rw [next] at asks
          obtain ⟨d, c, tail, same⟩ := asks
          have first : k = .hub (.connectionStarted d c) := (List.cons.inj same).1
          subst first
          obtain ⟨_, _, rfl⟩ := asks_source (by rw [next]; exact List.mem_cons_self ..)
          simp only [Job.exec, HubJob.exec] at next
          split at next <;> cases next
    · rcases run.carry_fresh job later mine with same | ⟨_, fresh⟩
      · rw [same] at asks
        obtain ⟨d, c, tail, there⟩ := asks
        have known := known_lt (agenda_known there (List.cons_ne_nil _ _))
        exact .inl (before u ⟨d, c, tail, there⟩ (reply_carry known (.inl mine) ▸ told))
      · exact absurd asks (asks_fresh fresh)
  case unwind =>
    intro past m t later run before agenda _ _ u asks told
    rw [lanes_unwind.closed]
    rcases run.agenda_unwound agenda u with trails | ⟨mine, same⟩
    · obtain ⟨d, c, tail, here⟩ := asks
      rw [here] at trails
      cases ((every_cons ..).mp trails).1
    · rw [same] at asks
      exact before u asks (reply_unwind mine ▸ told)

def Job.severs : Job → Bool
  | .dataLane (.stop _) | .hub (.forgetConnection _) => true
  | _ => false

-- They come one directly after the other, and neither comes alone.
def Job.Parts (c : ConnectionHandle) (job : Job) (rest : List Job) : Prop :=
  (Closes c rest → job = .dataLane (.stop c)) ∧ (job = .dataLane (.stop c) → ∃ tail, rest = .hub (.forgetConnection c) :: tail)

theorem closes_severs {agenda : List Job} (loose : ∀ job ∈ agenda, job.severs = false) : ¬ Closes c agenda :=
  not_exposed fun job member => Bool.not_eq_true _ ▸ fun forgets => by
    have whole := loose job member
    rw [forgets_job forgets] at whole
    cases whole

theorem Job.Parts.loose {rest : List Job} (whole : job.severs = false) (behind : ¬ Closes c rest) : job.Parts c rest :=
  ⟨fun closes => absurd closes behind, fun same => by rw [same] at whole; cases whole⟩

theorem parts_loose {agenda : List Job} (loose : ∀ job ∈ agenda, job.severs = false) : Each (Job.Parts c) agenda := by
  induction agenda with
  | nil => trivial
  | cons job rest ih =>
      have tail : ∀ j ∈ rest, j.severs = false := fun j member => loose j (List.mem_cons_of_mem _ member)
      exact ⟨.loose (loose job (List.mem_cons_self ..)) (closes_severs tail), ih tail⟩

theorem parts_report (source : AdapterId) (r : Report) {more : List Job} (loose : ∀ job ∈ more, job.severs = false) :
    Each (Job.Parts c) (Plan.report source r ++ more) := by
  cases r with
  | disconnected d k =>
      have none : ¬ Closes c (.hub (.disconnected d k) :: more) := closes_severs (List.forall_mem_cons.mpr ⟨rfl, loose⟩)
      have last : Closes c (.hub (.forgetConnection k) :: .hub (.disconnected d k) :: more) → k = c := fun closes =>
        (Fence.exposed_cons closes).2.elim of_decide_eq_true fun closes => absurd closes none
      have whole : ¬ Closes c (.dataLane (.stop k) :: .hub (.forgetConnection k) :: .hub
          (.disconnected d k) :: more) := fun closes => by
        obtain ⟨apart, closes⟩ := Fence.exposed_cons closes
        exact absurd (last (closes.resolve_left Bool.false_ne_true)) (of_decide_eq_false apart)
      refine ⟨.loose rfl fun closes => ?_, .loose rfl whole, ⟨fun closes => by rw [last closes], fun same => ?_⟩,
        ⟨fun closes => absurd closes none, fun same => (by cases same)⟩, parts_loose (List.forall_mem_cons.mpr ⟨rfl, loose⟩)⟩
      · exact whole ((Fence.exposed_cons closes).2.resolve_left Bool.false_ne_true)
      · cases same
        exact ⟨_, rfl⟩
  | listUpdated | connected | received | completed =>
      refine parts_loose (List.forall_mem_append.mpr ⟨?_, loose⟩)
      simp [Plan.report, Plan.replace, Plan.enqueueData, Job.logHub, Job.severs]

theorem report_next (m : Machine) (t : ThreadId)
    (reports : (∃ id r, job = .perform (.report id r)) ∨ ∃ name r, job = .perform (.contextReport name r)) :
    (∃ source r more, (job.exec m t).2 = Plan.report source r ++ more ∧ ∀ j ∈ more, j.severs = false) ∨
      ∀ j ∈ (job.exec m t).2, j.severs = false := by
  rcases reports with ⟨id, r, rfl⟩ | ⟨name, r, rfl⟩
  · simp only [Job.exec, Machine.perform, Machine.performOwned]
    split
    · exact .inl ⟨id, r, _, rfl, List.forall_mem_singleton.mpr rfl⟩
    · exact .inr (List.forall_mem_singleton.mpr rfl)
  · simp only [Job.exec, Machine.perform, ParticipantJob.reportThrough]
    split
    · split
      · exact .inl ⟨_, r, _, List.append_assoc .., List.forall_mem_cons.mpr ⟨rfl, List.forall_mem_singleton.mpr rfl⟩⟩
      · exact .inr (List.forall_mem_cons.mpr ⟨rfl, List.forall_mem_singleton.mpr rfl⟩)
    · exact .inr (List.forall_mem_singleton.mpr rfl)

theorem severs_source {j : Job} (leads : job.leads j = true) (severs : j.severs = true)
    (managed : ∀ op, job = .perform op → op.managed = true) :
    ((∃ id r, job = .perform (.report id r)) ∨ ∃ name r, job = .perform (.contextReport name r)) ∨
      ∃ d k, job = .hub (.connectionStarted d k) := by
  cases j with
  | hub j =>
      cases j with
      | forgetConnection k =>
          dsimp only [Job.leads] at leads
          split at leads <;> first | (cases leads; done) | simp
      | _ => cases severs
  | dataLane j =>
      cases j with
      | stop k =>
          dsimp only [Job.leads] at leads
          split at leads
          · exact .inl (.inl ⟨_, _, rfl⟩)
          · exact .inl (.inr ⟨_, _, rfl⟩)
          · cases managed _ rfl
          · cases leads
      | _ => cases severs
  | _ => cases severs

theorem parts_exec (c : ConnectionHandle) (m : Machine) (t : ThreadId) (job : Job)
    (managed : ∀ op, job = .perform op → op.managed = true) :
    Each (Job.Parts c) (job.exec m t).2 := by
  by_cases loose : ∀ j ∈ (job.exec m t).2, j.severs = false
  · exact parts_loose loose
  · obtain ⟨j, member, severs⟩ : ∃ j ∈ (job.exec m t).2, j.severs = true := Classical.byContradiction fun none =>
      loose fun j member => Bool.not_eq_true _ ▸ fun severs => none ⟨j, member, severs⟩
    rcases severs_source (leads_exec m t job j member) severs managed with reports | ⟨d, k, rfl⟩
    · rcases report_next m t reports with ⟨source, r, more, next, loose⟩ | loose
      · exact next ▸ parts_report source r loose
      · exact parts_loose loose
    -- a refused connection is taken off the table first of all
    · simp only [Job.exec, HubJob.exec]
      split
      · exact ⟨⟨fun closes => absurd closes Bool.false_ne_true, fun same => (by cases same)⟩,
          parts_loose (List.forall_mem_singleton.mpr rfl)⟩
      all_goals exact parts_loose (by simp [Plan.enqueueDevice, Job.logHub, Job.severs])

def Job.withholds (c : ConnectionHandle) (job : Job) (rest : List Job) : Prop :=
  (∃ reply, job = .answer reply) ∨ job = .dataLane (.stop c) ∨ .release .laneMap ∈ job :: rest

theorem withholds_stop (m : Machine) (t : ThreadId) :
    Each (fun job rest => job.withholds c (rest ++ later)) ((Job.dataLane (.stop c)).exec m t).2 := by
  have held : ∀ {job : Job} {rest : List Job}, .release .laneMap ∈ rest → job.withholds c (rest ++ later) := fun member =>
    .inr (.inr (.tail _ (List.mem_append_left _ member)))
  simp only [Job.exec, DataLaneJob.exec, DataLanes.withdraw]
  cases m.hub.dataLanes.slots.get? c with
  | none => exact ⟨held (by simp), .inr (.inr (.head _)), .inl ⟨_, rfl⟩, trivial⟩
  | some slot => exact ⟨held (by simp), held (by simp), held (by simp), .inr (.inr (.head _)), .inl ⟨_, rfl⟩, trivial⟩

theorem Run.withholding (run : Run config hooks past m) (managed : ∀ x ∈ past, x.managed) (c : ConnectionHandle) (u : ThreadId) :
    Each (fun job rest => Closes c rest → job.withholds c rest) (m.agenda u) := by
  refine Run.each (G := Moment.managed) (P := fun _ job rest => Closes c rest →
    job.withholds c rest) ?fresh ?next ?caught run managed u
  case fresh =>
    intro u agenda fresh
    cases fresh <;> first
      | exact ⟨fun closes => absurd closes Bool.false_ne_true, fun closes => absurd closes Bool.false_ne_true, trivial⟩
      | exact ⟨fun closes => absurd closes Bool.false_ne_true, trivial⟩
  case next =>
    intro past m t job later _ each agenda _ _ here
    have first := each t
    rw [agenda] at first
    by_cases stops : job = .dataLane (.stop c)
    · subst stops
      exact each_imp (fun _ _ withholds _ => withholds) (withholds_stop m t)
    · have behind : Closes c later → (job.exec m t).2 = [] ∨ .release .laneMap ∈ later := fun closes => by
        rcases first.1 closes with ⟨reply, rfl⟩ | same | held
        · exact .inl rfl
        · exact absurd same stops
        · rcases List.mem_cons.mp held with rfl | held
          · exact .inl rfl
          · exact .inr held
      by_cases idle : (job.exec m t).2 = []
      · rw [idle]
        trivial
      · refine each_imp (fun j rest parts closes => ?_) (parts_exec c m t job here)
        rcases Fence.exposed_either closes with inside | closes
        · exact .inr (.inl (parts.1 inside))
        · exact .inr (.inr (.tail _ (List.mem_append_right _ ((behind closes).resolve_left idle))))
  case caught =>
    intro u d rest each
    have held : Closes c rest → .release .laneMap ∈ rest := fun closes => by
      rcases each.1 closes with ⟨_, none⟩ | none | held
      · cases none
      · cases none
      · exact (List.mem_cons.mp held).resolve_left fun none => by cases none
    exact ⟨fun closes => .inr (.inr (.tail _ (.tail _ (held closes)))), fun closes => .inr (.inr (.tail _ (held closes))), each.2⟩

-- So no thread puts a lane into the map meanwhile.
theorem Run.publishes_apart (run : Run config hooks past m) (managed : ∀ x ∈ past, x.managed)
    (agenda : m.agenda t = .dataLane (.publish c slot) :: later) {k : ConnectionHandle} : ¬ Closes k later := by
  intro closes
  have withholding := run.withholding managed k t
  rw [agenda] at withholding
  have held : .release .laneMap ∈ later := by
    rcases withholding.1 closes with ⟨_, none⟩ | none | held
    · cases none
    · cases none
    · exact (List.mem_cons.mp held).resolve_left fun none => by cases none
  have kept := laneHeldGate_sound.run run managed
  have count := kept.count t
  have level := kept.level t
  have single := Nat.le_trans (Gate.count_le_single m.locks .laneMap t) kept.single
  rw [agenda] at count level
  have behind := Gate.level_all level.2
  have guards := weight_mem (f := laneHeldGate.guards) held
  have one : laneHeldGate.guards (.release .laneMap) = 1 := rfl
  have owes : laneHeldGate.owes (.dataLane (.publish c slot)) = 1 := rfl
  have takes : laneHeldGate.takes (.dataLane (.publish c slot)) = 0 := rfl
  have lock : laneHeldGate.lock = .laneMap := rfl
  simp only [Gate.Level, weight_cons, owes, takes, lock] at count behind single
  omega

theorem Run.parting (run : Run config hooks past m) (managed : ∀ x ∈ past, x.managed) (c : ConnectionHandle) (u : ThreadId) :
    Each (fun job rest => job = .dataLane (.stop c) → ∃ tail, rest = .hub (.forgetConnection c) :: tail) (m.agenda u) := by
  refine Run.each (G := Moment.managed) (P := fun _ job rest => job = .dataLane (.stop c) →
    ∃ tail, rest = .hub (.forgetConnection c) :: tail)
    ?fresh ?next ?caught run managed u
  case fresh =>
    intro u agenda fresh
    cases fresh <;> first
      | exact ⟨fun none => (by cases none), fun none => (by cases none), trivial⟩
      | exact ⟨fun none => (by cases none), trivial⟩
  case next =>
    intro past m t job later _ _ _ _ _ here
    refine each_imp (fun j rest parts same => ?_) (parts_exec c m t job here)
    obtain ⟨tail, rfl⟩ := parts.2 same
    exact ⟨tail ++ later, rfl⟩
  case caught => exact fun _ _ _ each => ⟨fun none => (by cases none), fun none => (by cases none), each.2⟩

end TransportHub
