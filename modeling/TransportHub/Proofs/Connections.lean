import TransportHub.Proofs.Openings
import TransportHub.Proofs.Shutdown
/-!
Connections: the table of the connections and the map of their lanes, which are changed one after the
other and never together. A connection is entered before its lane comes into the map, and its lane leaves
the map before it is taken off the table; so the two agree as long as the end of a connection is not
reported while another thread is still reporting its beginning.
-/

set_option autoImplicit false

namespace TransportHub

open DataLanes (Slot)

variable {config : Config} {hooks : List Hook} {past : List Moment} {m : Machine} {t u : ThreadId}
  {job : Job} {later : List Job} {slot : Slot} {c : ConnectionHandle} {x : Moment}

-- The table and the map agree about a connection, and go on doing so when those who are inside a report of
-- it have done what they are about to do.
structure InStep (c : ConnectionHandle) (m : Machine) : Prop where
  entered : m.hub.dataLanes.slots.get? c ≠ none → m.hub.connections.get? c ≠ none
  opening : ∀ u, Opens c (m.agenda u) → m.hub.connections.get? c ≠ none
  closing : ∀ u, Closes c (m.agenda u) → m.hub.dataLanes.slots.get? c = none

def Moment.crosses (c : ConnectionHandle) (x : Moment) : Prop := ∃ u, u ≠ x.thread ∧
  ((∃ slot, x.job = .dataLane (.publish c slot)) ∧ Closes c (x.machine.agenda u) ∨
    x.job = .hub (.forgetConnection c) ∧ Opens c (x.machine.agenda u))

def Settled (c : ConnectionHandle) (m : Machine) : Prop :=
  (m.hub.dataLanes.slots.get? c ≠ none → m.hub.connections.get? c ≠ none) ∧ ∀ u, ¬ Opens c (m.agenda u) ∧ ¬ Closes c (m.agenda u)

-- Two reports of a connection have crossed since the table and the map last agreed about it.
def Crossed (c : ConnectionHandle) (past : List Moment) : Prop :=
  ∃ earlier x rest, past = earlier ++ x :: rest ∧ x.crosses c ∧ ∀ y ∈ rest, ¬ Settled c y.machine

theorem Settled.inStep (settled : Settled c m) : InStep c m where
  entered := settled.1
  opening u opens := absurd opens (settled.2 u).1
  closing u closes := absurd closes (settled.2 u).2

theorem opens_fresh {agenda : List Job} (fresh : Fresh config u agenda) : ¬ Opens c agenda := by
  cases fresh <;> exact Bool.false_ne_true

theorem closes_fresh {agenda : List Job} (fresh : Fresh config u agenda) : ¬ Closes c agenda := by
  cases fresh <;> exact Bool.false_ne_true

theorem Run.unwound_idle (run : Run config hooks past m) (agenda : m.agenda t = .panic :: later) :
    ¬ Opens c (kept later) ∧ ¬ Closes c (kept later) := by
  have trails := run.trails_kept agenda
  refine ⟨not_exposed fun job member => ?_, not_exposed fun job member => ?_⟩
  all_goals
    have here := trails job member
    cases job with
    | dataLane j => cases j <;> first | rfl | cases here
    | hub => cases here
    | _ => rfl

theorem opens_next (m : Machine) (t : ThreadId) (job : Job) (managed : ∀ op, job = .perform op → op.managed = true)
    (opens : Opens c (job.exec m t).2) : job.opensLane c = true := by
  obtain ⟨j, member, kind⟩ := exposed_order opens
  rcases opensLane_source (leads_exec m t job j member) kind with ⟨d, k, rfl⟩ | ⟨op, rfl, foreign⟩ | ⟨k, rfl | rfl⟩
  · simp only [Job.exec, HubJob.exec] at opens
    split at opens
    · exact absurd opens Bool.false_ne_true
    · obtain ⟨apart, opens⟩ := Fence.exposed_cons ((Fence.exposed_cons opens).2.resolve_left Bool.false_ne_true)
      have start := (Fence.exposed_cons
        ((Fence.exposed_cons (opens.resolve_left Bool.false_ne_true)).2.resolve_left Bool.false_ne_true)).2
      rcases start with same | none
      · exact absurd (of_decide_eq_true same) (of_decide_eq_false apart)
      · exact absurd none Bool.false_ne_true
  · rw [managed op rfl] at foreign
    cases foreign
  all_goals
    simp only [Job.exec, DataLaneJob.exec] at member
    repeat' split at member
    all_goals simp only [List.mem_cons, List.not_mem_nil, or_false] at member
    all_goals rcases member with rfl | rfl | rfl <;> first | exact kind | cases kind

theorem Run.closes_next (run : Run config hooks past m) (managed : ∀ x ∈ past, x.managed) (agenda : m.agenda t = job :: later)
    (here : ∀ op, job = .perform op → op.managed = true) (closes : Closes c (job.exec m t).2) : m.hub.dataLanes.closed = true := by
  have parts := parts_exec c m t job here
  have source := leads_exec m t job
  have head : ∃ rest, (job.exec m t).2 = .hub (.forgetConnection c) :: rest := by
    cases next : (job.exec m t).2 with
    | nil =>
        rw [next] at closes
        exact absurd closes Bool.false_ne_true
    | cons j rest =>
        rw [next] at parts closes
        obtain ⟨unmarked, first⟩ := Fence.exposed_cons closes
        have forgets : j.forgets c = true := first.resolve_right fun behind => by
          rw [parts.1.1 behind] at unmarked
          exact absurd rfl (of_decide_eq_false unmarked)
        exact ⟨rest, by rw [forgets_job forgets]⟩
  obtain ⟨rest, next⟩ := head
  rcases severs_source (source _ (next ▸ List.mem_cons_self ..)) rfl here with reports | ⟨d, k, rfl⟩
  · rcases report_next m t reports with ⟨_, r, more, made, _⟩ | loose
    · rw [made] at next
      cases r <;> cases next
    · exact absurd closes (closes_severs loose)
  · refine run.told managed ⟨d, k, later, agenda⟩ ?_
    simp only [Job.exec, HubJob.exec] at next
    split at next
    · assumption
    · cases next
    · cases next

theorem erased_by (erases : job.link c = some none) : job = .hub (.forgetConnection c) ∨ job = .hub .clearConnections := by
  cases job with
  | hub job =>
      cases job with
      | forgetConnection other =>
          simp only [Job.link] at erases
          split at erases
          · rename_i same
            exact .inl (by rw [same])
          · cases erases
      | recordConnection d other =>
          simp only [Job.link] at erases
          split at erases <;> cases erases
      | clearConnections => exact .inr rfl
      | _ => cases erases
  | _ => cases erases

theorem Run.opens_carry (run : Run config hooks past m) (agenda : m.agenda t = job :: later)
    (managed : ∀ op, job = .perform op → op.managed = true) (opens : Opens c ((m.carry t job later).agenda u)) :
    Opens c (m.agenda u) ∨ (u = t ∧ job.records c = true) := by
  by_cases mine : u = t
  · subst mine
    cases records : job.records c with
    | true => exact .inr ⟨rfl, rfl⟩
    | false =>
        refine .inl ?_
        rw [agenda_carry_self agenda] at opens
        rw [agenda, Opens, Fence.exposed, Bool.and_eq_true, Bool.not_eq_true', Bool.or_eq_true]
        exact ⟨records, (Fence.exposed_either opens).imp (opens_next m u job managed) id⟩
  · rcases run.carry_fresh job later mine with same | ⟨_, fresh⟩
    · exact .inl (same ▸ opens)
    · exact absurd opens (opens_fresh fresh)

theorem Run.closes_carry (run : Run config hooks past m) (managed : ∀ x ∈ past, x.managed) (agenda : m.agenda t = job :: later)
    (here : ∀ op, job = .perform op → op.managed = true) (closes : Closes c ((m.carry t job later).agenda u))
    (unclosed : m.hub.dataLanes.closed = false) :
    Closes c (m.agenda u) ∨ (u = t ∧ job.partsWith c = true) := by
  by_cases mine : u = t
  · subst mine
    cases parts : job.partsWith c with
    | true => exact .inr ⟨rfl, rfl⟩
    | false =>
        refine .inl ?_
        rw [agenda_carry_self agenda] at closes
        rw [agenda, Closes, Fence.exposed, Bool.and_eq_true, Bool.not_eq_true', Bool.or_eq_true]
        refine ⟨parts, .inr ((Fence.exposed_either closes).resolve_left fun next => ?_)⟩
        rw [run.closes_next managed agenda here next] at unclosed
        cases unclosed
  · rcases run.carry_fresh job later mine with same | ⟨_, fresh⟩
    · exact .inl (same ▸ closes)
    · exact absurd closes (closes_fresh fresh)

theorem InStep.carry (inStep : InStep c m) (run : Run config hooks past m) (old : ∀ x ∈ past, x.managed)
    (now : Moment.managed ⟨m, t, job, later⟩) (agenda : m.agenda t = job :: later) (went : m.step? t = some (m.carry t job later))
    (uncrossed : ¬ Moment.crosses c ⟨m, t, job, later⟩) :
    (m.carry t job later).hub.dataLanes.closed = true ∨ InStep c (m.carry t job later) := by
  cases closed : (m.carry t job later).hub.dataLanes.closed with
  | true => exact .inl rfl
  | false =>
    have managed : ∀ x ∈ past ++ [⟨m, t, job, later⟩], x.managed :=
      List.forall_mem_append.mpr ⟨old, List.forall_mem_singleton.mpr now⟩
    have unclosed : m.hub.dataLanes.closed = false := by
      rw [hub_carry, closed_exec, Bool.or_eq_false_iff] at closed
      exact closed.1
    have links : (m.carry t job later).hub.connections.get? c = (job.link c).getD (m.hub.connections.get? c) := link_exec m t job now
    have erased : job.link c = some none → job = .hub (.forgetConnection c) := fun erases => by
      refine (erased_by erases).resolve_right fun clears => ?_
      have after := (run.step agenda went).closed_before managed
        ⟨_, List.mem_append_right _ (List.mem_singleton.mpr rfl), .inl clears⟩
      rw [closed] at after
      cases after
    refine .inr ⟨fun found => ?_, fun u opens => ?_, fun u closes => ?_⟩
    · rw [links]
      rcases link_cases c job with none | erases | ⟨d, rfl⟩
      · rw [none]
        obtain ⟨slot, found⟩ := Option.ne_none_iff_exists'.mp found
        rcases slot_exec m t job later found with before | ⟨rfl, _⟩
        · exact inStep.entered (by rw [before]; exact Option.some_ne_none _)
        · refine inStep.opening t ?_
          rw [agenda]
          simp [Opens, Fence.exposed, Fence.order, Job.records, Job.opensLane]
      · have forgets := erased erases
        subst forgets
        have gone := inStep.closing t (by rw [agenda]; simp [Closes, Fence.exposed, Fence.order, Job.partsWith, Job.forgets])
        exact absurd gone found
      · simp [Job.link]
    · rw [links]
      rcases link_cases c job with none | erases | ⟨d, rfl⟩
      · rw [none]
        refine inStep.opening u ((run.opens_carry agenda now opens).resolve_right fun opened => ?_)
        obtain ⟨d, rfl⟩ := records_job opened.2
        simp [Job.link] at none
      · have forgets := erased erases
        subst forgets
        have before := (run.opens_carry agenda now opens).resolve_right fun none => by cases none.2
        by_cases mine : u = t
        · subst mine
          have halfway := run.halfway old u
          rw [agenda] at before halfway
          exact (halfway.1 c ((Fence.exposed_cons before).2.resolve_left Bool.false_ne_true)).elim
        · exact absurd ⟨u, mine, .inr ⟨rfl, before⟩⟩ uncrossed
      · simp [Job.link]
    · refine Classical.byContradiction fun found => ?_
      obtain ⟨slot, found⟩ := Option.ne_none_iff_exists'.mp found
      rcases slot_exec m t job later found with here | ⟨rfl, _⟩
      · rcases run.closes_carry old agenda now closes unclosed with before | ⟨_, parts⟩
        · rw [inStep.closing u before] at here
          cases here
        · have gone := slots_maps ⟨m, t, job, later⟩ c
          rw [partsWith_job parts] at gone
          simp only [Moment.maps, if_true] at gone
          rw [partsWith_job parts, hub_carry, gone] at found
          cases found
      · have before := (run.closes_carry old agenda now closes unclosed).resolve_right fun none => by cases none.2
        by_cases mine : u = t
        · subst mine
          rw [agenda] at before
          exact run.publishes_apart old agenda ((Fence.exposed_cons before).2.resolve_left Bool.false_ne_true)
        · exact absurd ⟨u, mine, .inl ⟨⟨slot, rfl⟩, before⟩⟩ uncrossed

theorem InStep.unwind (inStep : InStep c m) (run : Run config hooks past m) (agenda : m.agenda t = .panic :: later) :
    InStep c (m.unwind t later) := by
  obtain ⟨unopened, unclosed⟩ := run.unwound_idle (c := c) agenda
  refine ⟨?_, fun u opens => ?_, fun u closes => ?_⟩
  · rw [lanes_unwind.slots, connections_unwind]
    exact inStep.entered
  · rw [connections_unwind]
    by_cases mine : u = t
    · subst mine
      rw [agenda_unwind_self agenda] at opens
      exact absurd opens unopened
    · exact inStep.opening u (agenda_unwind_other mine ▸ opens)
  · rw [lanes_unwind.slots]
    by_cases mine : u = t
    · subst mine
      rw [agenda_unwind_self agenda] at closes
      exact absurd closes unclosed
    · exact inStep.closing u (agenda_unwind_other mine ▸ closes)

theorem InStep.same {m' : Machine} (inStep : InStep c m) (hub : m'.hub = m.hub)
    (agendas : ∀ u, m'.agenda u = m.agenda u ∨ (m.agenda u = [] ∧ Fresh config u (m'.agenda u))) : InStep c m' where
  entered := by rw [hub]; exact inStep.entered
  opening u opens := by
    rw [hub]
    rcases agendas u with same | ⟨_, fresh⟩
    · exact inStep.opening u (same ▸ opens)
    · exact absurd opens (opens_fresh fresh)
  closing u closes := by
    rw [hub]
    rcases agendas u with same | ⟨_, fresh⟩
    · exact inStep.closing u (same ▸ closes)
    · exact absurd closes (closes_fresh fresh)

theorem Crossed.snoc (crossed : Crossed c past) (apart : ¬ Settled c x.machine) : Crossed c (past ++ [x]) := by
  obtain ⟨earlier, y, rest, rfl, crosses, since⟩ := crossed
  refine ⟨earlier, y, rest ++ [x], by simp, crosses, fun z seen => ?_⟩
  rcases List.mem_append.mp seen with seen | now
  · exact since z seen
  · exact List.mem_singleton.mp now ▸ apart

theorem Run.inStep (run : Run config hooks past m) (managed : ∀ x ∈ past, x.managed) (c : ConnectionHandle) :
    m.hub.dataLanes.closed = true ∨ InStep c m ∨ Crossed c past := by
  have start : ∀ {system jobs}, Fresh config .caller jobs →
      InStep c ((Machine.initial config hooks system).beginWith jobs) := fun begins => by
    refine Settled.inStep ⟨fun found => absurd (Table.get?_empty c) found, fun u => ?_⟩
    rcases initial_fresh config hooks u begins with idle | fresh
    · rw [idle]
      exact ⟨Bool.false_ne_true, Bool.false_ne_true⟩
    · exact ⟨opens_fresh fresh, closes_fresh fresh⟩
  refine Run.induct_all (G := Moment.managed) (P := fun past m => m.hub.dataLanes.closed = true ∨ InStep c m ∨ Crossed c past)
    ?construct ?assemble ?call ?client ?carry ?unwind run managed
  case construct => exact .inr (.inl (start .construction))
  case assemble => exact .inr (.inl (start .assembly))
  case call =>
    intro past m op _ before idle
    exact before.imp_right (Or.imp_left fun inStep => inStep.same rfl (call_fresh config idle op))
  case client =>
    intro past m name op _ before
    exact before.imp_right (Or.imp_left fun inStep => inStep.same rfl (client_fresh config m name op))
  case carry =>
    intro past m t job later run before agenda notPanic enabled old now
    have onward : InStep c m → (m.carry t job later).hub.dataLanes.closed = true ∨ InStep c (m.carry t job later) ∨
        Crossed c (past ++ [⟨m, t, job, later⟩]) := fun inStep => by
      by_cases crosses : Moment.crosses c ⟨m, t, job, later⟩
      · exact .inr (.inr ⟨past, _, [], rfl, crosses, fun _ none => by cases none⟩)
      · exact (inStep.carry run old now agenda (step_carry agenda notPanic enabled) crosses).imp_right .inl
    rcases before with closed | inStep | crossed
    · refine .inl ?_
      rw [hub_carry, closed_exec, closed]
      rfl
    · exact onward inStep
    · by_cases settled : Settled c m
      · exact onward settled.inStep
      · exact .inr (.inr (crossed.snoc settled))
  case unwind =>
    intro past m t later run before agenda _ _
    rcases before with closed | inStep | crossed
    · exact .inl (lanes_unwind.closed.trans closed)
    · exact .inr (.inl (inStep.unwind run agenda))
    · by_cases settled : Settled c m
      · exact .inr (.inl (settled.inStep.unwind run agenda))
      · exact .inr (.inr (crossed.snoc settled))

-- A connection was last entered by `x`, and `rest` is what has happened since.
def Latest (c : ConnectionHandle) (past : List Moment) (x : Moment) (rest : List Moment) : Prop :=
  (∃ earlier, past = earlier ++ x :: rest) ∧ x.job.records c = true ∧ ∀ y ∈ rest, y.job.link c = none

-- The thread for a lane is not started; starting it fails or panics.
def Moment.unstarted (c : ConnectionHandle) (x : Moment) : Prop :=
  x.job = .dataLane (.spawn c) ∧ x.machine.system.answer (x.machine.hub.config.dataThread c) ≠ .started

-- A connection in the table has a lane in the map, or whoever entered it is opening one or could not, or
-- somebody is about to take the connection off the table.
def Served (c : ConnectionHandle) (past : List Moment) (m : Machine) : Prop :=
  m.hub.dataLanes.slots.get? c ≠ none ∨ (∃ u, .hub (.forgetConnection c) ∈ m.agenda u) ∨
    ∃ x rest, Latest c past x rest ∧ (Opens c (m.agenda x.thread) ∨ ∃ y ∈ rest, y.thread = x.thread ∧ y.unstarted c)

theorem Latest.snoc {y : Moment} {rest : List Moment} (latest : Latest c past x rest) (none : y.job.link c = none) :
    Latest c (past ++ [y]) x (rest ++ [y]) := by
  obtain ⟨⟨earlier, rfl⟩, records, since⟩ := latest
  exact ⟨⟨earlier, by simp⟩, records, List.forall_mem_append.mpr ⟨since, List.forall_mem_singleton.mpr none⟩⟩

theorem opens_onward (opens : job.opensLane c = true) (unclosed : m.hub.dataLanes.closed = false) :
    (job.exec m t).1.hub.dataLanes.slots.get? c ≠ none ∨ Opens c (job.exec m t).2 ∨ Moment.unstarted c ⟨m, t, job, later⟩ := by
  cases job with
  | dataLane job =>
      cases job with
      | start other =>
          cases of_decide_eq_true opens
          simp only [Job.exec, DataLaneJob.exec, unclosed, Bool.false_eq_true, if_false]
          split
          · rename_i occupied
            refine .inl fun none => ?_
            simp [DataLanes.occupied, Table.contains, none] at occupied
          · exact .inr (.inl (by simp [Opens, Fence.exposed, Fence.order, Job.records, Job.opensLane]))
      | spawn other =>
          cases of_decide_eq_true opens
          refine .inr ?_
          simp only [Job.exec, DataLaneJob.exec]
          split
          · exact .inl (by simp [Opens, Fence.exposed, Fence.order, Job.records, Job.opensLane])
          · rename_i refused
            exact .inr ⟨rfl, by simp [refused]⟩
          · rename_i crashed
            exact .inr ⟨rfl, by simp [crashed]⟩
      | publish other slot =>
          cases of_decide_eq_true opens
          refine .inl ?_
          simp only [Job.exec, DataLaneJob.exec, unclosed, Bool.false_eq_true, if_false]
          split
          · rename_i occupied
            intro none
            simp [DataLanes.occupied, Table.contains, none] at occupied
          · simp [DataLanes.publish, Table.get?_insert]
      | _ => cases opens
  | _ => cases opens

theorem Served.carry (served : Served c past m) (run : Run config hooks past m) (managed : ∀ x ∈ past, x.managed)
    (agenda : m.agenda t = job :: later) (unclosed : (m.carry t job later).hub.dataLanes.closed = false) (still : job.link c = none) :
    Served c (past ++ [⟨m, t, job, later⟩]) (m.carry t job later) := by
  rw [hub_carry, closed_exec, Bool.or_eq_false_iff] at unclosed
  rcases served with found | ⟨u, pending⟩ | ⟨x, rest, latest, opening⟩
  · obtain ⟨slot, found⟩ := Option.ne_none_iff_exists'.mp found
    rcases slot_moves m t job later found with here | ⟨closes, _⟩ | ⟨rfl, _⟩
    · exact .inl (by rw [hub_carry, here]; exact Option.some_ne_none _)
    · rw [unclosed.2] at closes
      cases closes
    · have parting := run.parting managed c t
      rw [agenda] at parting
      obtain ⟨tail, rfl⟩ := parting.1 rfl
      refine .inr (.inl ⟨t, ?_⟩)
      rw [agenda_carry_self agenda]
      exact List.mem_append_right _ (List.mem_cons_self ..)
  · rcases mem_agenda_carry run agenda pending with here | ⟨_, rfl⟩
    · exact .inr (.inl ⟨u, here⟩)
    · simp [Job.link] at still
  · have later' := latest.snoc (y := ⟨m, t, job, later⟩) still
    rcases opening with opens | ⟨y, seen, same, failed⟩
    · by_cases mine : x.thread = t
      · rw [mine, agenda] at opens
        have goes : Opens c ((job.exec m t).2 ++ later) → Opens c ((m.carry t job later).agenda x.thread) := fun opens => by
          rw [mine, agenda_carry_self agenda]
          exact opens
        rcases (Fence.exposed_cons opens).2 with here | behind
        · rcases opens_onward here unclosed.1 with found | next | failed
          · exact .inl found
          · exact .inr (.inr ⟨x, _, later', .inl (goes (Fence.exposed_front next))⟩)
          · exact .inr (.inr ⟨x, _, later', .inr ⟨_, List.mem_append_right _ (List.mem_singleton.mpr rfl), mine.symm, failed⟩⟩)
        · have halfway := run.halfway managed t
          rw [agenda] at halfway
          refine .inr (.inr ⟨x, _, later', .inl (goes (Fence.exposed_behind (fun j member => ?_) behind))⟩)
          cases records : j.records c with
          | false => exact records
          | true =>
              obtain ⟨d, k, rfl⟩ := records_source (leads_exec m t job j member) records
              exact (halfway.1 c behind).elim
      · refine .inr (.inr ⟨x, _, later', .inl ?_⟩)
        rcases run.carry_fresh job later mine with same | ⟨idle, _⟩
        · exact same ▸ opens
        · rw [idle] at opens
          exact absurd opens Bool.false_ne_true
    · exact .inr (.inr ⟨x, _, later', .inr ⟨y, List.mem_append_left _ seen, same, failed⟩⟩)

theorem Served.unwind (served : Served c past m) (run : Run config hooks past m) (managed : ∀ x ∈ past, x.managed)
    (agenda : m.agenda t = .panic :: later) (hooked : Moment.hookSafe ⟨m, t, .panic, later⟩)
    (adapted : Moment.adapterSafe ⟨m, t, .panic, later⟩) :
    Served c (past ++ [⟨m, t, .panic, later⟩]) (m.unwind t later) := by
  rcases served with found | ⟨u, pending⟩ | ⟨x, rest, latest, opening⟩
  · exact .inl (by rw [lanes_unwind.slots]; exact found)
  · refine .inr (.inl ⟨u, mem_agenda_unwind agenda pending
      (fun inside => ?_) (fun _ none => by cases none) fun none => by cases none⟩)
    cases run.procedures_stay agenda hooked adapted _ inside
  · have later' := latest.snoc (y := ⟨m, t, .panic, later⟩) rfl
    rcases opening with opens | ⟨y, seen, same, failed⟩
    · refine .inr (.inr ⟨x, _, later', .inl ?_⟩)
      by_cases mine : x.thread = t
      · have halfway := run.halfway managed t
        rw [mine, agenda] at opens
        rw [agenda] at halfway
        exact (halfway.1 c ((Fence.exposed_cons opens).2.resolve_left Bool.false_ne_true)).elim
      · rw [agenda_unwind_other mine]
        exact opens
    · exact .inr (.inr ⟨x, _, later', .inr ⟨y, List.mem_append_left _ seen, same, failed⟩⟩)

theorem Served.same {m' : Machine} (served : Served c past m) (hub : m'.hub = m.hub)
    (agendas : ∀ u, m'.agenda u = m.agenda u ∨ (m.agenda u = [] ∧ Fresh config u (m'.agenda u))) : Served c past m' := by
  have still : ∀ {u}, m.agenda u ≠ [] → m'.agenda u = m.agenda u := fun {u} busy => (agendas u).resolve_right fun idle => busy idle.1
  rcases served with found | ⟨u, pending⟩ | ⟨x, rest, latest, opens | failed⟩
  · exact .inl (hub ▸ found)
  · exact .inr (.inl ⟨u, by rw [still (List.ne_nil_of_mem pending)]; exact pending⟩)
  · refine .inr (.inr ⟨x, rest, latest, .inl ?_⟩)
    rw [still fun idle => by rw [idle] at opens; exact absurd opens Bool.false_ne_true]
    exact opens
  · exact .inr (.inr ⟨x, rest, latest, .inr failed⟩)

theorem Run.served (run : Run config hooks past m) (managed : ∀ x ∈ past, x.managed) (safe : ∀ x ∈ past, x.hookSafe ∧ x.adapterSafe)
    (known : m.hub.connections.get? c ≠ none) : m.hub.dataLanes.closed = true ∨ Served c past m := by
  refine Run.induct_all (G := fun x => x.managed ∧ x.hookSafe ∧ x.adapterSafe) (P := fun past m =>
      m.hub.connections.get? c ≠ none → m.hub.dataLanes.closed = true ∨ Served c past m)
    ?construct ?assemble ?call ?client ?carry ?unwind run (fun x seen => ⟨managed x seen, safe x seen⟩) known
  case construct | assemble => exact fun known => absurd (Table.get?_empty c) known
  case call =>
    intro past m op _ before idle known
    exact (before known).imp_right fun served => served.same rfl (call_fresh config idle op)
  case client =>
    intro past m name op _ before known
    exact (before known).imp_right fun served => served.same rfl (client_fresh config m name op)
  case carry =>
    intro past m t job later run before agenda _ _ old now known
    cases closed : (m.carry t job later).hub.dataLanes.closed with
    | true => exact .inl rfl
    | false =>
        refine .inr ?_
        rw [hub_carry, link_exec m t job now.1] at known
        rcases link_cases c job with none | erases | ⟨d, rfl⟩
        · rw [none] at known
          refine ((before known).resolve_left fun shut => ?_).carry run (fun x seen => (old x seen).1) agenda closed none
          rw [hub_carry, closed_exec, shut] at closed
          cases closed
        · rw [erases] at known
          exact absurd rfl known
        · have enters := run.enters t
          rw [agenda] at enters
          obtain ⟨tail, rfl⟩ := enters.1 d c rfl
          refine .inr (.inr ⟨_, [], ⟨⟨past, rfl⟩, decide_eq_true rfl, fun _ none => by cases none⟩, .inl ?_⟩)
          rw [agenda_carry_self agenda]
          simp [Job.exec, HubJob.exec, Opens, Fence.exposed, Fence.order, Job.records, Job.opensLane]
  case unwind =>
    rintro past m t later run before agenda old ⟨_, hooked, adapted⟩ known
    rw [connections_unwind] at known
    rw [lanes_unwind.closed]
    exact (before known).imp_right fun served => served.unwind run (fun x seen => (old x seen).1) agenda hooked adapted

theorem Run.carried_out (run : Run config hooks past m) (safe : ∀ x ∈ past, x.hookSafe ∧ x.adapterSafe) {j : Job}
    (pinned : Fence.procedures.pinned j = true) (unmarked : ∀ d, j ≠ .participant (.delivered d)) {earlier rest : List Moment}
    (split : past = earlier ++ x :: rest) (brings : j ∈ (x.job.exec x.machine x.thread).2) :
    (∃ y ∈ rest, y.thread = x.thread ∧ y.job = j) ∨ j ∈ m.agenda x.thread := by
  refine Run.induct (G := fun x => x.hookSafe ∧ x.adapterSafe) (P := fun past m => ∀ rest, past = earlier ++ x :: rest →
      (∃ y ∈ rest, y.thread = x.thread ∧ y.job = j) ∨ j ∈ m.agenda x.thread)
    ?construct ?assemble ?call ?client ?carry ?unwind run safe rest split
  case construct | assemble => exact fun rest split => absurd split.symm (List.append_ne_nil_of_right_ne_nil _ (List.cons_ne_nil _ _))
  case call =>
    intro past m op _ before idle rest split
    exact (before rest split).imp_right (mem_agenda_call idle op)
  case client =>
    intro past m name op _ before rest split
    exact (before rest split).imp_right (mem_agenda_client name op)
  case carry =>
    intro past m t job later run before agenda _ _ _ rest split
    rcases split_snoc split with ⟨_, rfl, rfl⟩ | ⟨front, rfl, rfl⟩
    · refine .inr ?_
      rw [agenda_carry_self agenda]
      exact List.mem_append_left _ brings
    · rcases before front rfl with done | pending
      · exact .inl (seen_before done)
      · rcases mem_agenda_carry run agenda pending with here | ⟨same, rfl⟩
        · exact .inr here
        · exact .inl ⟨_, List.mem_append_right _ (List.mem_singleton.mpr rfl), same.symm, rfl⟩
  case unwind =>
    rintro past m t later run before agenda ⟨hooked, adapted⟩ rest split
    rcases split_snoc split with ⟨_, rfl, rfl⟩ | ⟨front, rfl, rfl⟩
    · cases brings
    · rcases before front rfl with done | pending
      · exact .inl (seen_before done)
      · refine .inr (mem_agenda_unwind agenda pending (fun inside => ?_) unmarked fun same => ?_)
        · rw [run.procedures_stay agenda hooked adapted j inside] at pinned
          cases pinned
        · rw [same] at pinned
          cases pinned

def Moment.ends (c : ConnectionHandle) (x : Moment) : Prop := .dataLane (.stop c) ∈ (x.job.exec x.machine x.thread).2

theorem Run.parted (run : Run config hooks past m) (managed : ∀ x ∈ past, x.managed) (c : ConnectionHandle) (u : ThreadId) :
    Each (fun job _ => job.forgets c = true → m.hub.dataLanes.closed = true ∨ ∃ y ∈ past, y.thread = u ∧ y.ends c) (m.agenda u) := by
  refine (Run.sustain (G := Moment.managed) (I := fun past _ => ∀ x ∈ past, x.managed)
    (P := fun past h u job _ => job.forgets c = true → h.dataLanes.closed = true ∨ ∃ y ∈ past, y.thread = u ∧ y.ends c)
    (fun _ none => by cases none) ?fresh ?carry ?unwind ?caught run managed).2 u
  case fresh =>
    exact fun _ _ => ⟨⟨fun none => (by cases none), fun none => (by cases none), trivial⟩, ⟨fun none => (by cases none), trivial⟩,
      fun _ _ => ⟨fun none => (by cases none), trivial⟩⟩
  case carry =>
    intro past m t job later run managed _ agenda _ _ here
    refine ⟨List.forall_mem_append.mpr ⟨managed, List.forall_mem_singleton.mpr here⟩, fun u j _ parted forgets => ?_, ?_,
      fun u agenda _ started recruit => ?_⟩
    · refine (parted forgets).imp (fun closed => ?_) seen_before
      rw [closed_exec, closed]
      rfl
    · refine each_of_forall fun j member _ forgets => ?_
      by_cases parts : .dataLane (.stop c) ∈ (job.exec m t).2
      · exact .inr ⟨⟨m, t, job, later⟩, List.mem_append_right _ (List.mem_singleton.mpr rfl), rfl, parts⟩
      · refine .inl ?_
        have closes : Closes c (job.exec m t).2 := Fence.exposed_mem (fun k inside => ?_) member forgets
        · rw [closed_exec, run.closes_next managed agenda here closes]
          rfl
        · cases stops : k.partsWith c with
          | false => exact stops
          | true => exact absurd (partsWith_job stops ▸ inside) parts
    · have fresh : Fresh config u agenda := fresh_recruits started (List.mem_of_getElem? recruit)
      cases fresh <;> first
        | exact ⟨fun none => (by cases none), fun none => (by cases none), trivial⟩
        | exact ⟨fun none => (by cases none), trivial⟩
  case unwind =>
    intro past m t later h _ managed _ here hub
    refine ⟨List.forall_mem_append.mpr ⟨managed, List.forall_mem_singleton.mpr here⟩, fun u j _ parted forgets => ?_⟩
    refine (parted forgets).imp (fun closed => ?_) seen_before
    rcases hub with rfl | rfl <;> exact closed
  case caught => exact fun _ _ _ _ _ each => ⟨fun none => (by cases none), fun none => (by cases none), each.2⟩

theorem nodup_keys {α : Type} (table : Table α) : table.keys.Nodup :=
  List.pairwise_map.mpr (table.ascending.imp fun less same => by simp [same] at less)

theorem opensLane_links (opens : job.opensLane c = true) : job.links = true := by
  cases job with
  | dataLane job => cases job <;> first | rfl | cases opens
  | _ => cases opens

-- What the table of the connections and the map of their lanes say about each other and about what has been
-- reported.
structure Connections (past : List Moment) (m : Machine) : Prop where
  entered : ∀ c, m.hub.dataLanes.slots.get? c ≠ none → m.hub.connections.get? c ≠ none ∨ Crossed c past
  single : m.hub.dataLanes.slots.keys.Nodup
  carries : ∀ c slot, m.hub.dataLanes.slots.get? c = some slot → m.hub.serves slot.lane c
  served : (∀ x ∈ past, x.hookSafe ∧ x.adapterSafe) → m.unlinking → ∀ c, m.hub.connections.get? c ≠ none →
    m.hub.dataLanes.slots.get? c ≠ none ∨ m.hub.terminating = true ∨
      ∃ x rest, Latest c past x rest ∧ ∃ y ∈ rest, y.thread = x.thread ∧ y.unstarted c
  device : ∀ c, m.hub.connections.get? c = row c past
  recorded : (∀ x ∈ past, x.hookSafe ∧ x.adapterSafe) → m.unlinking → ∀ earlier x rest d c, past = earlier ++ x :: rest →
    x.job = .hub (.connect d c) → x.machine.hub.terminating = false →
    ∃ y ∈ rest, y.thread = x.thread ∧ y.job = .hub (.recordConnection d c)
  forgotten : (∀ x ∈ past, x.hookSafe ∧ x.adapterSafe) → m.unlinking → ∀ earlier x rest c, past = earlier ++ x :: rest → x.ends c →
    ∃ y ∈ rest, y.thread = x.thread ∧ y.job = .hub (.forgetConnection c)
  parted : ∀ earlier x rest c, past = earlier ++ x :: rest → x.job = .hub (.forgetConnection c) → x.machine.hub.terminating = false →
    ∃ y ∈ earlier, y.thread = x.thread ∧ y.ends c
  closed : (∃ x ∈ past, x.job = .hub .halt) → m.hub.dataLanes.slots = {} ∧
    ((∀ x ∈ past, x.hookSafe) → m.unlinking → m.hub.connections = {})

theorem Run.unserved (run : Run config hooks past m) (managed : ∀ x ∈ past, x.managed) (safe : ∀ x ∈ past, x.hookSafe ∧ x.adapterSafe)
    (unlinking : m.unlinking) (known : m.hub.connections.get? c ≠ none) :
    m.hub.dataLanes.slots.get? c ≠ none ∨ m.hub.terminating = true ∨
      ∃ x rest, Latest c past x rest ∧ ∃ y ∈ rest, y.thread = x.thread ∧ y.unstarted c := by
  rcases run.served managed safe known with closed | found | ⟨u, pending⟩ | ⟨x, rest, latest, opens | failed⟩
  · exact .inr (.inl (run.closed_ends managed closed))
  · exact .inl found
  · cases unlinking u _ pending
  · obtain ⟨job, member, kind⟩ := exposed_order opens
    have links := opensLane_links kind
    rw [unlinking _ job member] at links
    cases links
  · exact .inr (.inr ⟨x, rest, latest, failed⟩)

theorem Run.linked_out (run : Run config hooks past m) (safe : ∀ x ∈ past, x.hookSafe ∧ x.adapterSafe) (unlinking : m.unlinking)
    {j : HubJob} (pinned : Fence.procedures.pinned (.hub j) = true) (links : (Job.hub j).links = true) {earlier rest : List Moment}
    (split : past = earlier ++ x :: rest) (brings : .hub j ∈ (x.job.exec x.machine x.thread).2) :
    ∃ y ∈ rest, y.thread = x.thread ∧ y.job = .hub j :=
  (run.carried_out safe pinned (fun _ none => by cases none) split brings).resolve_right fun pending => by
    rw [unlinking _ _ pending] at links
    cases links

theorem connections_agree (run : Run config hooks past m) (managed : ∀ x ∈ past, x.managed) : Connections past m where
  entered c found := by
    rcases run.inStep managed c with closed | inStep | crossed
    · rw [run.closed_slots closed] at found
      exact absurd (Table.get?_empty c) found
    · exact .inl (inStep.entered found)
    · exact .inr crossed
  single := nodup_keys _
  carries := (run.aligned managed).1.slots
  served safe unlinking _ known := run.unserved managed safe unlinking known
  device := run.linked managed
  recorded safe unlinking earlier x rest d c split connects going := by
    refine run.linked_out safe unlinking rfl rfl split ?_
    simp [connects, Job.exec, HubJob.exec, going]
  forgotten safe unlinking earlier x rest c split ends := by
    have here := managed x (split ▸ List.mem_append_right _ (List.mem_cons_self ..))
    obtain ⟨front, back, next, parts⟩ := each_mem (parts_exec c x.machine x.thread x.job here) ends
    obtain ⟨tail, rfl⟩ := parts.2 rfl
    exact run.linked_out safe unlinking rfl rfl split (by rw [next]; simp)
  parted earlier x rest c split forgets going := by
    have start : earlier ++ [x] <+: past := ⟨rest, by rw [split]; simp⟩
    obtain ⟨reached, agenda⟩ := run.before start
    have old : ∀ y ∈ earlier, y.managed := fun y seen => managed y (split ▸ List.mem_append_left _ seen)
    have parted := reached.parted old c x.thread
    rw [agenda, forgets] at parted
    refine (parted.1 (decide_eq_true rfl)).resolve_left fun closed => ?_
    rw [reached.closed_ends old closed] at going
    cases going
  closed halted := by
    have closed := run.closed_before managed (halted.imp fun _ here => ⟨here.1, .inr here.2⟩)
    exact ⟨run.closed_slots closed, fun hooked unlinking => run.forgotten managed hooked halted unlinking⟩

-- Two connections are reported, and the end of the first.
def reportedSession : List Moment × Machine :=
  act (.report ⟨1⟩ (.disconnected {} ⟨4⟩)) (turns 40 0 0)
    (act (.report ⟨1⟩ (.connected {} ⟨5⟩)) (turns 40 0 0) (connectedSession (.addAdapter (.named "a"))))

-- A thread is inside the report of a third connection when the hub is shut down, and goes on afterwards.
def closedSession : List Moment × Machine :=
  act .shutdown (rounds [(3, 3), (18, 0), (2, 1), (4, 2), (8, 0), (10, 3)])
    (joined "app" (.report ⟨1⟩ (.connected {} ⟨6⟩)) reportedSession)

-- The thread for the lane of the second connection is refused while the lane of the first is up.
def refusedSession : List Moment × Machine :=
  act (.report ⟨1⟩ (.connected {} ⟨5⟩)) (turns 40 0 0) (act (.report ⟨1⟩ (.connected {} ⟨4⟩)) (turns 40 0 0)
    (act (.addAdapter (.named "a")) (turns 40 0 0) (opened quietConfig []
      ⟨fun name n => if name = quietConfig.dataThread ⟨5⟩ ∧ n = 0 then some "no thread left" else none⟩)))

theorem connections_of_three : (Connections closedSession.1 closedSession.2 ∧ Connections refusedSession.1 refusedSession.2) ∧
    (reportedSession.2.hub.connections.keys = [⟨5⟩] ∧ reportedSession.2.hub.dataLanes.slots.keys = [⟨5⟩]) ∧
    (∀ x ∈ closedSession.1, x.managed ∧ x.hookSafe ∧ x.adapterSafe) ∧ (closedSession.1.filter (halts ·.job)).length = 1 ∧
    (closedSession.1.filter fun x => x.job.records ⟨6⟩ && x.machine.hub.dataLanes.closed).length = 1 ∧
    (closedSession.2.hub.connections.keys = [] ∧ closedSession.2.hub.dataLanes.slots.keys = []) ∧
    closedSession.2.agendas.all List.isEmpty = true ∧
    (∀ x ∈ refusedSession.1, x.managed ∧ x.hookSafe ∧ x.adapterSafe) ∧ refusedSession.2.hub.connections.keys = [⟨4⟩, ⟨5⟩] ∧
    refusedSession.2.hub.dataLanes.slots.keys = [⟨4⟩] ∧ refusedSession.2.hub.terminating = false ∧
    refusedSession.2.agendas.map List.isEmpty = [true, false] := by
  refine ⟨⟨connections_agree (act_run (joined_run (act_run (act_run (act_run (solo_run _ _ _) _ _) _ _) _ _) _ _) _ _) ?_,
    connections_agree (act_run (act_run (act_run (opened_run _ _ _) _ _) _ _) _ _) ?_⟩, ?_⟩
  all_goals decide +kernel

def hookAtStop : Hook := { start := "[data-lane][ch=4] stopping", ops := [.panic] }

-- The end of a connection is reported, and a panic comes out of a log hook on the way.
def halfEnded : List Moment × Machine :=
  solo quietConfig [hookAtStop] [.report ⟨1⟩ (.disconnected {} ⟨4⟩), .report ⟨1⟩ (.connected {} ⟨4⟩)]

-- The end of a connection is reported by one thread while another reports its beginning.
def crossedSession : List Moment × Machine :=
  act (.report ⟨1⟩ (.disconnected {} ⟨4⟩)) (rounds [(9, 0), (21, 1), (9, 0)])
    (joined "app" (.report ⟨1⟩ (.connected {} ⟨4⟩)) (solo quietConfig [] []))

theorem connections_apart :
    (Run quietConfig [hookAtStop] halfEnded.1 halfEnded.2 ∧ (∀ x ∈ halfEnded.1, x.managed ∧ x.adapterSafe) ∧
      (∀ agenda ∈ halfEnded.2.agendas, ∀ job ∈ agenda, job.links = false) ∧ halfEnded.2.hub.terminating = false ∧
      (halfEnded.1.filter (·.job matches .dataLane (.spawn _))).map
        (·.machine.system.answer (quietConfig.dataThread ⟨4⟩)) = [.started] ∧
      halfEnded.2.hub.connections.keys = [⟨4⟩] ∧ halfEnded.2.hub.dataLanes.slots.keys = []) ∧
    (Run quietConfig [] crossedSession.1 crossedSession.2 ∧ (∀ x ∈ crossedSession.1, x.managed ∧ x.hookSafe ∧ x.adapterSafe) ∧
      (∀ agenda ∈ crossedSession.2.agendas, ∀ job ∈ agenda, job.links = false) ∧ crossedSession.2.hub.terminating = false ∧
      crossedSession.2.hub.connections.keys = [] ∧ crossedSession.2.hub.dataLanes.slots.keys = [⟨4⟩]) := by
  refine ⟨⟨solo_run _ _ _, ?_⟩, act_run (joined_run (solo_run _ _ _) _ _) _ _, ?_⟩
  all_goals decide +kernel

end TransportHub
