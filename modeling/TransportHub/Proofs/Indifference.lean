import Mathlib.Data.List.Basic
import TransportHub.Proofs.Hushed
import TransportHub.Proofs.Finality
import TransportHub.Proofs.Composure
/-!
Panics of listeners are nobody else's business. Two runs of one session, in which the threads take the same
turns and only the listeners' panics differ, call the same listeners on each thread, leave the hub in the same
state and answer every operation alike; the counts of calls that returned and of calls that panicked differ,
but not their sum.
-/

set_option autoImplicit false

namespace TransportHub

open DataLanes (Slot)

variable {config : Config} {hooks : List Hook} {past : List Moment} {m m' : Machine} {t u w : ThreadId}
  {job : Job} {later : List Job}

-- What a delivery leaves on an agenda: the call of a listener, the place where it ends, and the record of its panic.
def Job.moved (job : Job) : Bool := job.laments || job.catches || job.hears

theorem moved_source {j : Job} (leads : job.leads j = true) (moved : j.moved = true) : ∃ d, job = .participant (.deliver d) := by
  cases j with
  | log record =>
      have laments : (Job.log record).laments = true := by simpa [Job.moved, Job.catches, Job.hears] using moved
      unfold Job.laments at laments
      split at laments
      · rename_i same
        cases same
        cases leads
      · cases laments
  | participant j =>
      cases j with
      | hear => exact hear_origin leads
      | delivered => exact delivered_origin leads
      | _ => cases moved
  | _ => cases moved

theorem fresh_unmoved {agenda : List Job} (fresh : Fresh config u agenda) : ∀ j ∈ agenda, j.moved = false := by
  cases fresh <;> simp [Machine.construction, Machine.assembly, Plan.deviceWorker, Plan.dataWorker, Job.logHub, Job.logDeviceLane,
    Job.logDataLane, Job.moved, Job.laments, Job.catches, Job.hears]

theorem Run.moved_dispatches (run : Run config hooks past m) :
    ∀ u, Each (fun job _ => job.moved = true → dispatches past u) (m.agenda u) := by
  refine (Run.sustain (G := fun _ => True) (I := fun _ _ => True)
    (P := fun past _ u job _ => job.moved = true → dispatches past u) trivial ?fresh ?carry ?panic ?caught run fun _ _ => trivial).2
  case fresh =>
    exact fun past h => ⟨⟨fun none => (by cases none), fun none => (by cases none), trivial⟩, ⟨fun none => (by cases none), trivial⟩,
      fun u op => ⟨fun none => (by cases none), trivial⟩⟩
  case carry =>
    intro past m t job later run _ before agenda _ _ _
    refine ⟨trivial, fun u j rest here moved => dispatches_snoc (here moved), each_of_forall fun j member rest moved => ?_,
      fun u agenda _ apart recruit => each_of_forall fun j member rest moved => ?_⟩
    · obtain ⟨d, rfl⟩ := moved_source (leads_exec m t job j member) moved
      have enlisted := run.enlisted.2 t
      rw [agenda] at enlisted
      exact dispatches_snoc (enlisted_dispatches enlisted.1 rfl)
    · have fresh : Fresh m.hub.config u agenda := fresh_recruits apart (List.mem_of_getElem? recruit)
      rw [fresh_unmoved fresh j member] at moved
      cases moved
  case panic => exact fun _ _ _ _ _ => ⟨trivial, fun u j rest here moved => dispatches_snoc (here moved)⟩
  case caught => exact fun past h u d rest before => ⟨fun _ => before.1 rfl, fun none => (by cases none), before.2⟩

theorem unmoved (calm : job.moved = false) : job.laments = false ∧ job.catches = false ∧ job.hears = false := by
  simpa [Job.moved, and_assoc] using calm

theorem Run.unhushed (run : Run config hooks past m) (idle : ¬ dispatches past u) :
    (∀ j ∈ m.agenda u, j.moved = false) ∧ hush (m.agenda u) = (m.agenda u).map Job.hushed := by
  have plain : ∀ j ∈ m.agenda u, j.moved = false := fun j member => by
    obtain ⟨front, back, split, bears⟩ := each_mem (run.moved_dispatches u) member
    exact Bool.eq_false_iff.mpr fun moved => idle (bears moved)
  refine ⟨plain, ?_⟩
  have whole : hush (m.agenda u ++ []) = _ := hush_append (fun j member => (unmoved (plain j member)).1)
    (.inr fun j member => (unmoved (plain j (by simpa using member))).2.1)
  simpa [hush] using whole

theorem hush_busy {agenda : List Job} (routine : Each Job.Routine agenda) (busy : agenda ≠ []) : hush agenda ≠ [] := by
  induction agenda with
  | nil => exact absurd rfl busy
  | cons job rest ih =>
      by_cases panics : job = .panic
      · subst panics
        rw [hush]
        split
        · refine ih routine.2 fun none => ?_
          rcases routine.1.panic rfl with next | ⟨_, next⟩ <;> (rw [none] at next; cases next)
        · exact List.cons_ne_nil _ _
      · rw [hush]
        · split
          · rename_i laments
            obtain ⟨d, next⟩ := routine.1.record laments
            cases rest with
            | nil => cases next
            | cons first rest =>
                cases next
                exact List.cons_ne_nil _ _
          · exact List.cons_ne_nil _ _
        · exact panics

theorem Run.hush_idle (run : Run config hooks past m) (passive : m.cast.passive) (u : ThreadId) :
    (hush (m.agenda u)).isEmpty = (m.agenda u).isEmpty := by
  cases agenda : m.agenda u with
  | nil => rfl
  | cons job rest =>
      have busy : hush (m.agenda u) ≠ [] := by
        by_cases works : dispatches past u
        · exact hush_busy (run.routine passive u works) (by rw [agenda]; exact List.cons_ne_nil _ _)
        · rw [(run.unhushed works).2, agenda]
          exact List.cons_ne_nil _ _
      rw [agenda] at busy
      exact List.isEmpty_eq_false_iff.mpr busy

theorem Run.hushed_exited (run : Run config hooks past m) (passive : m.cast.passive) : m.hushed.exited = m.exited := by
  funext u
  have same := run.hush_idle passive u
  simp only [Machine.agenda] at same
  simp only [Machine.exited, Machine.thread?, Machine.hushed, List.getElem?_map] at same ⊢
  cases known : m.threads[u.val]? with
  | none => rfl
  | some thread =>
      rw [known] at same
      exact same

theorem Run.unlocked (run : Run config hooks past m) :
    m.cast.passive → ∀ p ∈ m.locks, p.2.val < m.agendas.length ∧ ¬ dispatches past p.2 := by
  refine Run.induct (G := fun _ => True)
    (P := fun past m => m.cast.passive → ∀ p ∈ m.locks, p.2.val < m.agendas.length ∧ ¬ dispatches past p.2)
    ?construct ?assemble ?call ?client ?carry ?unwind run fun _ _ => trivial
  case construct | assemble => exact fun _ _ none => by cases none
  case call =>
    intro past m op run before idle passive p member
    obtain ⟨known, apart⟩ := before passive p member
    exact ⟨by rw [agendas_beginWith, List.length_set]; exact known, apart⟩
  case client =>
    intro past m name op run before passive p member
    obtain ⟨known, apart⟩ := before passive p member
    exact ⟨by rw [agendas_spawn, List.length_append]; omega, apart⟩
  case carry =>
    intro past m t job later run before agenda quiet _ _ passive p member
    have passive := passive_before passive (specs_exec m t job)
    have old : p.2.val < m.agendas.length → ¬ dispatches past p.2 →
        p.2.val < (m.carry t job later).agendas.length ∧ ¬ dispatches (past ++ [⟨m, t, job, later⟩]) p.2 := fun known apart => by
      refine ⟨by rw [length_agendas_carry]; omega, fun works => ?_⟩
      rcases dispatches_new works with works | mans | ⟨slot, opens, same⟩
      · exact apart works
      · obtain ⟨_, _, same⟩ := mans_started mans
        rw [same] at known
        exact absurd known (Nat.lt_irrefl _)
      · obtain ⟨c, _, _, rfl⟩ := opens_started opens
        rw [← same] at known
        exact absurd known (Nat.lt_irrefl _)
    have locks : (m.carry t job later).locks = (job.exec m t).1.locks := rfl
    rw [locks] at member
    by_cases takes : ∃ lock, job = .acquire lock
    · obtain ⟨lock, rfl⟩ := takes
      rcases List.mem_cons.mp member with rfl | member
      · refine old (known_lt (agenda_known agenda (List.cons_ne_nil _ _))) fun works => ?_
        have routine := run.routine passive t works
        rw [agenda] at routine
        cases routine.1.kind
      · exact old (before passive p member).1 (before passive p member).2
    · have still : p ∈ m.locks := by
        by_cases gives : ∃ lock, job = .release lock
        · obtain ⟨lock, rfl⟩ := gives
          exact (List.mem_filter.mp member).1
        · rwa [Gate.locks_exec m t job fun lock => ⟨fun same => takes ⟨lock, same⟩, fun same => gives ⟨lock, same⟩⟩] at member
      exact old (before passive p still).1 (before passive p still).2
  case unwind =>
    intro past m t later run before agenda _ passive p member
    rw [cast_unwind] at passive
    rw [Gate.locks_unwind] at member
    obtain ⟨known, apart⟩ := before passive p (List.mem_filter.mp member).1
    exact ⟨by rw [agendas_unwind, List.length_set]; exact known, fun works => apart (dispatches_panic works)⟩

theorem setAgenda_self (m : Machine) (t : ThreadId) : m.setAgenda t (m.agenda t) = m := by
  have threads : m.threads.modify t.val (fun thread => { thread with agenda := m.agenda t }) = m.threads := by
    refine List.ext_getElem? fun k => ?_
    rw [List.getElem?_modify]
    by_cases here : t.val = k
    · subst here
      simp only [Machine.agenda, Machine.thread?, if_true]
      cases m.threads[t.val]? <;> rfl
    · simp [here]
  show { m with threads := m.threads.modify t.val fun thread => { thread with agenda := m.agenda t } } = m
  rw [threads]

theorem Run.hushed_record (run : Run config hooks past m) (agenda : m.agenda t = job :: later) (laments : job.laments = true)
    (went : m.step? t = some m') : m'.hushed = m.hushed := by
  have bears := run.moved_dispatches t
  rw [agenda] at bears
  have works := bears.1 (by simp [Job.moved, laments])
  rcases step_cases agenda went with ⟨rfl, _⟩ | ⟨_, _, rfl⟩
  · cases laments
  · cases job with
    | log record =>
        have silent : (Entry.logged record).hushed = none := by
          unfold Job.laments at laments
          split at laments
          · rename_i same
            cases same
            rfl
          · cases laments
        have exec : (Job.log record).exec m t = (m.note t (.logged record), []) := by
          rw [Job.exec, Machine.log, if_neg (run.dispatcher_known works).1]
        have noted : (m.note t (.logged record)).hushed = m.hushed := by
          simp [Machine.note, Machine.hushed, silent]
        have rest : hush later = m.hushed.agenda t := by
          rw [hushed_agenda, agenda, hush, if_pos laments]
          exact Job.noConfusion
        rw [Machine.carry, exec, hushed_setAgenda, noted, List.nil_append, rest, setAgenda_self]
    | _ => cases laments

theorem hush_panics {front : List Job} (panics : ∀ job ∈ front, job = .panic) (d : Delivery) :
    hush (front ++ .participant (.delivered d) :: later) = hush (.participant (.delivered d) :: later) := by
  induction front with
  | nil => rfl
  | cons job rest ih =>
      obtain rfl := panics job (List.mem_cons_self ..)
      have catches : (rest ++ .participant (.delivered d) :: later).any Job.catches = true := by simp [Job.catches]
      rw [List.cons_append, hush, if_pos catches, ih fun j member => panics j (List.mem_cons_of_mem _ member)]

theorem hush_panic (routine : Each Job.Routine (.panic :: later)) : ∃ d rest,
    hush (.panic :: later) = .participant (.delivered { d with panics := 0 }) :: hush rest ∧
      Machine.caught? later = some (ParticipantJob.afterPanic d ++ rest) ∧ Machine.abandons later = false := by
  obtain ⟨front, d, rest, rfl, panics, _⟩ := routine_panics routine
  refine ⟨d, rest, ?_, (caught_panics panics).1, (caught_panics panics).2⟩
  rw [← List.cons_append, hush_panics (List.forall_mem_cons.mpr ⟨rfl, panics⟩)]
  rfl

theorem Run.hushed_caught (run : Run config hooks past m) (passive : m.cast.passive) (works : dispatches past t)
    (agenda : m.agenda t = .panic :: later) : m.hushed.step? t = some (m.unwind t later).hushed := by
  have routine := run.routine passive t works
  rw [agenda] at routine
  obtain ⟨d, rest, hushed, caught, abandons⟩ := hush_panic routine
  have unlocked : m.giveBackAll t = m := by
    have keeps : m.locks.filter (·.2 ≠ t) = m.locks :=
      List.filter_eq_self.mpr fun p member => decide_eq_true fun same => (run.unlocked passive p member).2 (same ▸ works)
    show { m with locks := m.locks.filter (·.2 ≠ t) } = m
    rw [keeps]
  have unwound : m.unwind t later = m.setAgenda t (ParticipantJob.afterPanic d ++ rest) := by
    unfold Machine.unwind
    rw [unlocked, abandons, caught]
    rfl
  have here : m.hushed.agenda t = .participant (.delivered { d with panics := 0 }) :: hush rest := by
    rw [hushed_agenda, agenda, hushed]
  rw [step_carry here Job.noConfusion rfl, unwound, hushed_setAgenda]
  rfl

theorem caught_none (plain : ∀ j ∈ later, j.catches = false) : Machine.caught? later = none := by
  fun_induction Machine.caught? later with
  | case1 => rfl
  | case2 d rest => cases plain _ (List.mem_cons_self ..)
  | case3 job rest _ ih => exact ih fun j member => plain j (List.mem_cons_of_mem _ member)

theorem hushed_abandons (later : List Job) : Machine.abandons (later.map Job.hushed) = Machine.abandons later := by
  fun_induction Machine.abandons later with
  | case1 => rfl
  | case2 => rfl
  | case3 => rfl
  | case4 job rest unmarked undetached ih =>
      rw [List.map_cons, ← ih]
      cases job with
      | participant job => cases job <;> first | rfl | exact absurd rfl (unmarked _)
      | hub job => cases job <;> first | rfl | exact absurd rfl undetached
      | _ => rfl

theorem Run.hushed_unwind (run : Run config hooks past m) (idle : ¬ dispatches past t) (agenda : m.agenda t = .panic :: later) :
    m.hushed.step? t = some (m.unwind t later).hushed := by
  obtain ⟨plain, hushed⟩ := run.unhushed idle
  rw [agenda] at plain hushed
  have here : m.hushed.agenda t = .panic :: later.map Job.hushed := by
    rw [hushed_agenda, agenda, hushed]
    rfl
  have uncaught := caught_none fun j member => (unmoved (plain j (List.mem_cons_of_mem _ member))).2.1
  have uncaught' : Machine.caught? (later.map Job.hushed) = none := caught_none fun j member => by
    obtain ⟨j, inside, rfl⟩ := List.mem_map.mp member
    have calm := (unmoved (plain j (List.mem_cons_of_mem _ inside))).2.1
    cases j with
    | participant j => cases j <;> first | rfl | cases calm
    | _ => rfl
  rw [step_panic here]
  unfold Machine.unwind
  rw [hushed_abandons, uncaught, uncaught']
  have stopped : ∀ m : Machine, (m.changeThread t fun thread => { thread with agenda := [], panicked := true }).hushed =
      m.hushed.changeThread t fun thread => { thread with agenda := [], panicked := true } :=
      fun m => hushed_changeThread m t fun _ => rfl
  simp only [stopped]
  split <;> rfl

theorem hushed_hear (m : Machine) (t : ThreadId) (l : ListenerId) (callback : Callback) :
    Job.exec m.hushed t (.participant (.hear l callback)) = ((Job.exec m t (.participant (.hear l callback))).1.hushed, []) := by
  have noted : m.hushed.note t (.heard l callback) = (m.note t (.heard l callback)).hushed := by
    simp [Machine.note, Machine.hushed, Entry.hushed]
  have cast : (m.note t (.heard l callback)).hushed.cast = m.cast.hushed := rfl
  have cast' : (m.note t (.heard l callback)).cast = m.cast := rfl
  simp only [Job.exec, ParticipantJob.exec, noted, cast, cast', hushed_listener]
  cases m.cast.listener? l with
  | none => rfl
  | some listener =>
      have silent : listener.hushed.spec.silent = listener.spec.silent := rfl
      have met : listener.hushed.meet callback.event = ([], (listener.meet callback.event).2.hushed) := rfl
      simp only [Option.map_some, ParticipantJob.callListener, silent, met, cast, cast', ← hushed_setListener]
      split <;> rfl

theorem leads_calm {j : Job} (leads : job.leads j = true) : j.laments = false := by
  cases j with
  | log record =>
      unfold Job.laments
      split
      · rename_i same
        cases same
        cases leads
      · rfl
  | _ => rfl

theorem hush_cons (notPanic : job ≠ .panic) (calm : job.laments = false) : hush (job :: later) = job.hushed :: hush later := by
  rw [hush, calm]
  · rfl
  · exact notPanic

theorem hushed_quiet (notPanic : job ≠ .panic) : job.hushed ≠ .panic := by
  cases job with
  | panic => exact absurd rfl notPanic
  | participant job => cases job <;> exact Job.noConfusion
  | _ => exact Job.noConfusion

theorem Run.hushed_heard (run : Run config hooks past m) (passive : m.cast.passive) {l : ListenerId} {callback : Callback}
    (agenda : m.agenda t = .participant (.hear l callback) :: later) :
    m.hushed.step? t = some (m.carry t (.participant (.hear l callback)) later).hushed := by
  have bears := run.moved_dispatches t
  rw [agenda] at bears
  have routine := run.routine passive t (bears.1 rfl)
  rw [agenda] at routine
  obtain ⟨d, ends⟩ := routine.1.hear rfl
  obtain ⟨rest, rfl⟩ : ∃ rest, later = .participant (.delivered d) :: rest := by
    cases later with
    | nil => cases ends
    | cons first rest => exact ⟨rest, congrArg (· :: rest) (Option.some.inj ends)⟩
  have here : m.hushed.agenda t = .participant (.hear l callback) :: hush (.participant (.delivered d) :: rest) := by
    rw [hushed_agenda, agenda, hush_cons Job.noConfusion rfl]
    rfl
  rw [step_carry here Job.noConfusion rfl, Machine.carry, Machine.carry, hushed_hear, hushed_setAgenda,
    hush_panics (heard_panics passive t l callback)]
  rfl

theorem Run.hushed_step (run : Run config hooks past m) (passive : m.cast.passive) (agenda : m.agenda t = job :: later)
    (calm : job.laments = false) (went : m.step? t = some m') : m.hushed.step? t = some m'.hushed := by
  rcases step_cases agenda went with ⟨rfl, rfl⟩ | ⟨notPanic, enabled, rfl⟩
  · by_cases works : dispatches past t
    · exact run.hushed_caught passive works agenda
    · exact run.hushed_unwind works agenda
  · by_cases hears : job.hears = true
    · obtain ⟨l, callback, rfl⟩ : ∃ l callback, job = .participant (.hear l callback) := by
        cases job with
        | participant job => cases job <;> first | exact ⟨_, _, rfl⟩ | cases hears
        | _ => cases hears
      exact run.hushed_heard passive agenda
    · have deaf := Bool.eq_false_iff.mpr hears
      have exited := run.hushed_exited passive
      have fair := run.fair t
      rw [agenda] at fair
      have here : m.hushed.agenda t = job.hushed :: hush later := by rw [hushed_agenda, agenda, hush_cons notPanic calm]
      have commutes : Commutes m t job := commutes_exec exited t fair.1 deaf calm
      have leads := leads_exec m t job
      have apart : (∀ j ∈ (job.exec m t).2, j ≠ .panic) ∨ ∀ j ∈ (job.exec m t).2 ++ later, j.catches = false := by
        by_cases works : dispatches past t
        · have routine := run.routine passive t works
          rw [agenda] at routine
          exact .inl (quiet_next m (run.dispatcher_known works).1 routine.1.kind notPanic deaf)
        · have plain := (run.unhushed works).1
          rw [agenda] at plain
          refine .inr fun j member => Bool.eq_false_iff.mpr fun catches => ?_
          have moved : j.moved = true := by simp [Job.moved, catches]
          rcases List.mem_append.mp member with new | old
          · obtain ⟨d, rfl⟩ := moved_source (leads j new) moved
            have enlisted := run.enlisted.2 t
            rw [agenda] at enlisted
            exact works (enlisted_dispatches enlisted.1 rfl)
          · rw [plain j (List.mem_cons_of_mem _ old)] at moved
            cases moved
      rw [step_carry here (hushed_quiet notPanic) (by rw [hushed_enabled exited]; exact enabled), Machine.carry,
        Machine.carry, commutes,
        hushed_setAgenda, hush_append (fun j member => leads_calm (leads j member)) apart]

-- What happens to a hub from outside: the caller begins an operation, a further thread of the application comes to
-- perform one, and a thread takes a turn. The turns in which panics of listeners are recorded are told apart.
inductive Act where
  | call (op : Op)
  | client (name : String) (op : Op)
  | turn (t : ThreadId)
  | record (t : ThreadId)

-- A hub that is about to be constructed, or whose parts are about to be put together.
def opening (config : Config) (hooks : List Hook) (system : System) (managed : Bool) : Machine :=
  (Machine.initial config hooks system).beginWith (if managed then Machine.construction config else Machine.assembly)

def taken (t : ThreadId) (laments : Bool) (done : List Moment × Machine) : Option (List Moment × Machine) :=
  match done.2.agenda t, done.2.step? t with
  | job :: later, some next => if job.laments = laments then some (done.1 ++ [⟨done.2, t, job, later⟩], next) else none
  | _, _ => none

def Act.follow (done : List Moment × Machine) : Act → Option (List Moment × Machine)
  | .call op => if (done.2.agenda .caller).isEmpty then some (done.1, done.2.beginWith [.perform op]) else none
  | .client name op => some (joined name op done)
  | .turn t => taken t false done
  | .record t => taken t true done

-- What has happened, latest first, says how the session went.
def replay (start : Machine) : List Act → Option (List Moment × Machine)
  | [] => some ([], start)
  | act :: before => (replay start before).bind act.follow

theorem taken_some {laments : Bool} {done done' : List Moment × Machine} (went : taken t laments done = some done') :
    ∃ job later next, done.2.agenda t = job :: later ∧ done.2.step? t = some next ∧ job.laments = laments ∧
      done' = (done.1 ++ [⟨done.2, t, job, later⟩], next) := by
  unfold taken at went
  split at went
  · rename_i job later next agenda stepped
    split at went
    · rename_i same
      exact ⟨job, later, next, agenda, stepped, same, (Option.some.inj went).symm⟩
    · cases went
  · cases went

theorem taken_step (agenda : m.agenda t = job :: later) (went : m.step? t = some m') :
    taken t job.laments (past, m) = some (past ++ [⟨m, t, job, later⟩], m') := by
  unfold taken
  simp only [agenda, went, if_true]

theorem replay_run {system : System} {managed : Bool} {acts : List Act} {done : List Moment × Machine}
    (replayed : replay (opening config hooks system managed) acts = some done) : Run config hooks done.1 done.2 := by
  induction acts generalizing done with
  | nil =>
      cases replayed
      cases managed
      · exact .assemble
      · exact .construct
  | cons act before ih =>
      obtain ⟨earlier, there, follows⟩ := Option.bind_eq_some_iff.mp replayed
      have run := ih there
      cases act with
      | call op =>
          simp only [Act.follow] at follows
          split at follows
          · rename_i idle
            cases follows
            exact run.call op (List.isEmpty_iff.mp idle)
          · cases follows
      | client name op =>
          cases follows
          exact run.client name op
      | turn t | record t =>
          obtain ⟨job, later, next, agenda, went, _, rfl⟩ := taken_some follows
          exact run.step agenda went

theorem Run.replayed (run : Run config hooks past m) :
    ∃ system managed acts, replay (opening config hooks system managed) acts = some (past, m) := by
  induction run with
  | construct => exact ⟨_, true, [], rfl⟩
  | assemble => exact ⟨_, false, [], rfl⟩
  | call op _ idle ih =>
      obtain ⟨system, managed, acts, before⟩ := ih
      exact ⟨system, managed, .call op :: acts, by simp [replay, before, Act.follow, idle]⟩
  | client name op _ ih =>
      obtain ⟨system, managed, acts, before⟩ := ih
      exact ⟨system, managed, .client name op :: acts, by simp [replay, before, Act.follow, joined]⟩
  | @step past m _ t job later _ agenda went ih =>
      obtain ⟨system, managed, acts, before⟩ := ih
      have follows : taken t job.laments (past, m) = _ := taken_step agenda went
      refine ⟨system, managed, (if job.laments then .record t else .turn t) :: acts, ?_⟩
      rw [replay, before, Option.bind_some]
      cases laments : job.laments <;> (rw [laments] at follows; exact follows)

theorem hush_calm (agenda : List Job) : ∀ j ∈ hush agenda, j.laments = false := by
  fun_induction hush agenda with
  | case1 => exact fun _ member => by cases member
  | case2 rest _ ih | case4 job rest _ _ ih => exact ih
  | case3 rest _ ih => exact List.forall_mem_cons.mpr ⟨rfl, ih⟩
  | case5 job rest _ calm ih =>
      refine List.forall_mem_cons.mpr ⟨?_, ih⟩
      cases job with
      | log => exact Bool.eq_false_iff.mpr calm
      | participant job => cases job <;> rfl
      | _ => rfl

def Act.hushed : Act → Act
  | .call op => .call op.hushed
  | .client name op => .client name op.hushed
  | act => act

def Act.recorded : Act → Bool
  | .record _ => true
  | _ => false

-- In a hushed session no panic is recorded.
def hushedActs (acts : List Act) : List Act := (acts.filter (!·.recorded)).map Act.hushed

-- A step of the hushed hub does what is first on the hushed agenda.
def Moment.hushed (x : Moment) : Moment :=
  match hush (x.job :: x.later) with
  | job :: later => ⟨x.machine.hushed, x.thread, job, later⟩
  | [] => x

def hushedHistory (past : List Moment) : List Moment := (past.filter fun x => !x.job.laments).map Moment.hushed

theorem hushedHistory_snoc {x : Moment} :
    hushedHistory (past ++ [x]) = hushedHistory past ++ if x.job.laments then [] else [x.hushed] := by
  cases laments : x.job.laments <;> simp [hushedHistory, laments]

theorem passive_step (agenda : m.agenda t = job :: later) (went : m.step? t = some m') (passive : m'.cast.passive) :
    m.cast.passive := by
  rcases step_cases agenda went with ⟨rfl, rfl⟩ | ⟨_, _, rfl⟩
  · rwa [cast_unwind] at passive
  · exact passive_before passive (specs_exec m t job)

theorem replay_hushed {system : System} {managed : Bool} {acts : List Act}
    (replayed : replay (opening config hooks system managed) acts = some (past, m)) (passive : m.cast.passive) :
    replay (opening config (hooks.map Hook.hushed) system managed) (hushedActs acts) = some (hushedHistory past, m.hushed) := by
  induction acts generalizing past m with
  | nil =>
      cases replayed
      cases managed <;> rfl
  | cons act before ih =>
      obtain ⟨⟨earlier, n⟩, there, follows⟩ := Option.bind_eq_some_iff.mp replayed
      cases act with
      | call op =>
          simp only [Act.follow] at follows
          split at follows
          · rename_i idle
            cases follows
            have begun : (n.beginWith [.perform op]).hushed = n.hushed.beginWith [.perform op.hushed] :=
              hushed_changeThread n .caller fun _ => rfl
            have idle' : (n.hushed.agenda .caller).isEmpty = true := by rw [hushed_agenda, List.isEmpty_iff.mp idle]; rfl
            show ((replay _ (hushedActs before)).bind _) = _
            rw [ih there passive, begun, Option.bind_some, Act.hushed, Act.follow, if_pos idle']
          · cases follows
      | client name op =>
          cases follows
          have joined : (n.spawn name [.perform op]).2.hushed = (n.hushed.spawn name [.perform op.hushed]).2 := by
            simp [Machine.spawn, Machine.hushed, Thread.hushed, hush, Job.laments, Job.hushed]
          show ((replay _ (hushedActs before)).bind _) = _
          rw [ih there passive, joined]
          rfl
      | turn t =>
          obtain ⟨job, later, next, agenda, went, calm, same⟩ := taken_some follows
          cases same
          have before := passive_step agenda went passive
          have went' := (replay_run there).hushed_step before agenda calm went
          have same : n.hushed.agenda t = hush (job :: later) := by rw [hushed_agenda, agenda]
          show ((replay _ (hushedActs _)).bind _) = _
          rw [ih there before, Option.bind_some, hushedHistory_snoc, if_neg (by rw [calm]; decide), Moment.hushed]
          cases here : hush (job :: later) with
          | nil =>
              rw [here] at same
              rw [Machine.step?, same] at went'
              cases went'
          | cons first rest =>
              have first_calm := hush_calm (job :: later) first (here ▸ List.mem_cons_self ..)
              have step : taken t first.laments (hushedHistory earlier, n.hushed) = _ := taken_step (same.trans here) went'
              rwa [first_calm] at step
      | record t =>
          obtain ⟨job, later, next, agenda, went, laments, same⟩ := taken_some follows
          cases same
          rw [hushedHistory_snoc, if_pos laments, List.append_nil, (replay_run there).hushed_record agenda laments went]
          exact ih there (passive_step agenda went passive)

def Shadowed (x : Moment) : Prop := x.hushed.machine = x.machine.hushed ∧ x.hushed.thread = x.thread ∧
  (x.hushed.job = x.job.hushed ∨ (x.job = .panic ∧ ∃ d, x.hushed.job = .participant (.delivered d)))

theorem Run.shadowed (run : Run config hooks past m) (passive : m.cast.passive) (agenda : m.agenda t = job :: later)
    (calm : job.laments = false) : Shadowed ⟨m, t, job, later⟩ := by
  unfold Shadowed Moment.hushed
  by_cases panics : job = .panic
  · subst panics
    by_cases works : dispatches past t
    · have routine := run.routine passive t works
      rw [agenda] at routine
      obtain ⟨d, rest, hushed, _⟩ := hush_panic routine
      simp only [hushed]
      exact ⟨trivial, trivial, .inr ⟨trivial, _, rfl⟩⟩
    · have hushed := (run.unhushed works).2
      rw [agenda, List.map_cons] at hushed
      simp only [hushed]
      exact ⟨trivial, trivial, .inl trivial⟩
  · simp only [hush_cons panics calm]
    exact ⟨trivial, trivial, .inl trivial⟩

theorem Run.shadows (run : Run config hooks past m) : m.cast.passive → ∀ x ∈ past, x.job.laments = false → Shadowed x := by
  induction run with
  | construct | assemble => exact fun _ _ none => by cases none
  | call _ _ _ ih | client _ _ _ ih => exact ih
  | step run agenda went ih =>
      intro passive
      have before := passive_step agenda went passive
      exact List.forall_mem_append.mpr ⟨ih before, List.forall_mem_singleton.mpr fun calm => run.shadowed before agenda calm⟩

theorem flatMap_hushed {α : Type} (f : Moment → List α) (silent : ∀ x : Moment, x.job.laments = true → f x = [])
    (same : ∀ x : Moment, Shadowed x → f x.hushed = f x) (shadowed : ∀ x ∈ past, x.job.laments = false → Shadowed x) :
    (hushedHistory past).flatMap f = past.flatMap f := by
  induction past with
  | nil => rfl
  | cons x rest ih =>
      have behind := ih fun y member => shadowed y (List.mem_cons_of_mem _ member)
      have cons : hushedHistory (x :: rest) = (if x.job.laments then [] else [x.hushed]) ++ hushedHistory rest := by
        cases laments : x.job.laments <;> simp [hushedHistory, laments]
      rw [cons, List.flatMap_append, List.flatMap_cons, behind]
      cases laments : x.job.laments with
      | true => rw [silent x laments]; rfl
      | false =>
          have here := same x (shadowed x (List.mem_cons_self ..) laments)
          simp [here]

theorem filterMap_hushed {α : Type} (f : Moment → Option α) (silent : ∀ x : Moment, x.job.laments = true → f x = none)
    (same : ∀ x : Moment, Shadowed x → f x.hushed = f x) (shadowed : ∀ x ∈ past, x.job.laments = false → Shadowed x) :
    (hushedHistory past).filterMap f = past.filterMap f := by
  rw [List.filterMap_eq_flatMap_toList, List.filterMap_eq_flatMap_toList]
  exact flatMap_hushed _ (fun x laments => by rw [silent x laments]; rfl) (fun x here => by rw [same x here]) shadowed

theorem lament_log (laments : job.laments = true) : ∃ record, job = .log record := by
  cases job with
  | log record => exact ⟨record, rfl⟩
  | _ => cases laments

theorem gathers_hushed (m : Machine) (job : Job) : job.hushed.gathers m.hushed = job.gathers m := by
  cases job with
  | participant job => cases job <;> rfl
  | deviceLane job => cases job <;> rfl
  | dataLane job => cases job <;> rfl
  | _ => rfl

theorem heardFrom_hushed (shadowed : ∀ x ∈ past, x.job.laments = false → Shadowed x) (w : ThreadId) :
    heardFrom w (hushedHistory past) = heardFrom w past := by
  refine flatMap_hushed _ (fun x laments => ?_) (fun x here => ?_) shadowed
  · obtain ⟨record, same⟩ := lament_log laments
    rw [same]
    exact ite_self _
  · obtain ⟨_, thread, job | ⟨panics, d, job⟩⟩ := here
    · rw [thread, job]
      congr 1
      cases x.job with
      | participant job => cases job <;> rfl
      | _ => rfl
    · rw [thread, job, panics]
      rfl

theorem roundsOf_hushed (shadowed : ∀ x ∈ past, x.job.laments = false → Shadowed x) (w : ThreadId) :
    roundsOf w (hushedHistory past) = roundsOf w past := by
  refine filterMap_hushed _ (fun x laments => ?_) (fun x here => ?_) shadowed
  · obtain ⟨record, same⟩ := lament_log laments
    rw [same]
    exact ite_self _
  · obtain ⟨machine, thread, job | ⟨panics, d, job⟩⟩ := here
    · rw [thread, job, machine, gathers_hushed]
    · rw [thread, job, panics]
      rfl

theorem answersOf_hushed (shadowed : ∀ x ∈ past, x.job.laments = false → Shadowed x) (u : ThreadId) :
    answersOf u (hushedHistory past) = answersOf u past := by
  refine filterMap_hushed _ (fun x laments => ?_) (fun x here => ?_) shadowed
  · obtain ⟨record, same⟩ := lament_log laments
    simp only [Moment.answer?, same]
  · obtain ⟨_, thread, job | ⟨panics, d, job⟩⟩ := here
    · simp only [Moment.answer?, thread, job]
      cases x.job with
      | participant job => cases job <;> rfl
      | _ => rfl
    · simp only [Moment.answer?, job, panics]

theorem crew_hushed (shadowed : ∀ x ∈ past, x.job.laments = false → Shadowed x) :
    deviceCrew (hushedHistory past) = deviceCrew past ∧ roster (hushedHistory past) = roster past := by
  have length : ∀ m : Machine, m.hushed.threads.length = m.threads.length := fun m => List.length_map ..
  refine ⟨filterMap_hushed _ (fun x laments => ?_) (fun x here => ?_) shadowed, filterMap_hushed _ (fun x laments => ?_)
    (fun x here => ?_) shadowed⟩
  · obtain ⟨record, same⟩ := lament_log laments
    simp only [Moment.mans, same]
  · obtain ⟨machine, _, job | ⟨panics, d, job⟩⟩ := here
    · simp only [Moment.mans, machine, job, length]
      cases x.job with
      | participant job => cases job <;> rfl
      | deviceLane job => cases job <;> rfl
      | _ => rfl
    · simp only [Moment.mans, job, panics]
  · obtain ⟨record, same⟩ := lament_log laments
    simp only [Moment.opens, same]
  · obtain ⟨machine, _, job | ⟨panics, d, job⟩⟩ := here
    · simp only [Moment.opens, machine, job, length]
      cases x.job with
      | participant job => cases job <;> rfl
      | dataLane job => cases job <;> rfl
      | _ => rfl
    · simp only [Moment.opens, job, panics]

theorem panicked_new (agenda : m.agenda t = job :: later) (new : m.agendas.length ≤ u.val) :
    (m.carry t job later).panicked u = false := by
  rw [panicked_eq, Machine.carry, memos_setAgenda]
  by_cases answers : ∃ reply, job = .answer reply
  · obtain ⟨reply, rfl⟩ := answers
    have same : (Job.exec m t (.answer reply)).1.memos.length = m.agendas.length := by
      simp only [Job.exec, Machine.changeThread, Machine.memos, Machine.agendas, Machine.each, List.length_map, List.length_modify]
    rw [List.getElem?_eq_none (same ▸ new)]
    rfl
  · obtain ⟨threads, more⟩ := more_exec m t job fun reply same => answers ⟨reply, same⟩
    rw [more, List.getElem?_append_right (by rwa [length_memos])]
    cases new : (List.replicate threads (Reply.unit, false))[u.val - m.memos.length]? with
    | none => rfl
    | some memo => rw [(List.mem_replicate.mp (List.mem_of_getElem? new)).2]; rfl

theorem Run.unharmed (run : Run config hooks past m) : m.cast.passive → ∀ w, dispatches past w → m.panicked w = false := by
  refine Run.induct (G := fun _ => True) (P := fun past m => m.cast.passive → ∀ w, dispatches past w → m.panicked w = false)
    ?construct ?assemble ?call ?client ?carry ?unwind run fun _ _ => trivial
  case construct | assemble => rintro _ _ w (none | ⟨_, none, _⟩) <;> cases none
  case call =>
    intro past m op run before _ passive w works
    rw [panicked_eq, Machine.beginWith, memos_other _ _ _ (run.dispatcher_known works).1, ← panicked_eq]
    exact before passive w works
  case client =>
    intro past m name op run before passive w works
    rw [panicked_eq, memos_spawn, List.getElem?_append_left
      (by rw [length_memos]; exact (run.dispatcher_known works).2), ← panicked_eq]
    exact before passive w works
  case carry =>
    intro past m t job later run before agenda _ _ _ passive w works
    rcases dispatches_new works with old | mans | ⟨slot, opens, rfl⟩
    · rw [panicked_carry (run.dispatcher_known old).2]
      exact before (passive_before passive (specs_exec m t job)) w old
    · obtain ⟨_, _, rfl⟩ := mans_started mans
      exact panicked_new agenda (Nat.le_refl _)
    · obtain ⟨_, _, _, rfl⟩ := opens_started opens
      exact panicked_new agenda (Nat.le_refl _)
  case unwind =>
    intro past m t later run before agenda _ passive w works
    have old := dispatches_panic works
    rw [cast_unwind] at passive
    by_cases mine : w = t
    · subst mine
      have routine := run.routine passive w old
      rw [agenda] at routine
      obtain ⟨_, _, caught, _⟩ := routine_caught routine
      rw [panicked_caught (by rw [caught]; rfl)]
      exact before passive w old
    · rw [panicked_eq, memo_unwind mine, ← panicked_eq]
      exact before passive w old

-- What a run of a hub and another one in which other calls of listeners panic have in common.
structure Alike (past past' : List Moment) (m m' : Machine) : Prop where
  heard : ∀ w, heardFrom w past = heardFrom w past'
  rounds : ∀ w, roundsOf w past = roundsOf w past'
  called : ∀ w, (roundsOf w past).flatMap Round.calls = heardFrom w past ++ (m.agenda w).flatMap Job.owes
  crew : ∀ w, dispatches past w ↔ dispatches past' w
  hub : { m.hub with metrics := {} } = { m'.hub with metrics := {} }
  enqueued : m.hub.metrics.enqueued = m'.hub.metrics.enqueued
  discarded : m.hub.metrics.discarded = m'.hub.metrics.discarded
  orphaned : m.hub.metrics.orphaned = m'.hub.metrics.orphaned
  mismatches : m.hub.metrics.mismatches = m'.hub.metrics.mismatches
  delivered : m.hub.metrics.delivered + m.hub.metrics.panics = m'.hub.metrics.delivered + m'.hub.metrics.panics
  answers : ∀ u, answersOf u past = answersOf u past'
  replies : ∀ u, m.reply u = m'.reply u ∧ m.panicked u = m'.panicked u
  exited : m.exited = m'.exited
  unharmed : ∀ w, dispatches past w → m.panicked w = false ∧ m'.panicked w = false

theorem panics_unnoticed {hooks' : List Hook} {system : System} {managed : Bool} {acts acts' : List Act} {past' : List Moment}
    (sameHooks : hooks.map Hook.hushed = hooks'.map Hook.hushed) (sameActs : hushedActs acts = hushedActs acts')
    (replayed : replay (opening config hooks system managed) acts = some (past, m))
    (replayed' : replay (opening config hooks' system managed) acts' = some (past', m'))
    (passive : m.cast.passive) (passive' : m'.cast.passive) : Alike past past' m m' := by
  have run := replay_run replayed
  have run' := replay_run replayed'
  have shadows := run.shadows passive
  have shadows' := run'.shadows passive'
  have hushed := replay_hushed replayed passive
  rw [sameHooks, sameActs, replay_hushed replayed' passive'] at hushed
  obtain ⟨history, machine⟩ := Prod.mk.inj (Option.some.inj hushed.symm)
  have hub := congrArg Machine.hub machine
  have metrics := congrArg Hub.metrics hub
  have crew : ∀ w, dispatches past w ↔ dispatches past' w := fun w => by
    have same := crew_hushed shadows
    have same' := crew_hushed shadows'
    unfold dispatches
    rw [← same.1, ← same.2, history, same'.1, same'.2]
  exact {
    heard := fun w => by rw [← heardFrom_hushed shadows, history, heardFrom_hushed shadows']
    rounds := fun w => by rw [← roundsOf_hushed shadows, history, roundsOf_hushed shadows']
    called := run.called
    crew
    hub := congrArg (fun hub : Hub => { hub with metrics := {} }) hub
    enqueued := (congrArg Metrics.enqueued metrics :)
    discarded := (congrArg Metrics.discarded metrics :)
    orphaned := (congrArg Metrics.orphaned metrics :)
    mismatches := (congrArg Metrics.mismatches metrics :)
    delivered := (congrArg Metrics.delivered metrics :)
    answers := fun u => by rw [← answersOf_hushed shadows, history, answersOf_hushed shadows']
    replies := fun u => ⟨by rw [← hushed_reply, machine, hushed_reply], by rw [← hushed_panicked, machine, hushed_panicked]⟩
    exited := by rw [← run.hushed_exited passive, machine, run'.hushed_exited passive']
    unharmed := fun w works => ⟨run.unharmed passive w works, run'.unharmed passive' w ((crew w).mp works)⟩ }

def turnsAt (count t : Nat) : List Act := List.replicate count (.turn ⟨t⟩)

def frameActs (l : ListenerSpec Op) (told : List Act) : List Act :=
  told ++ turnsAt 9 0 ++ .call (.report ⟨1⟩ (.received ⟨4⟩ [7])) :: turnsAt 2 1 ++ turnsAt 24 0 ++
    .call (.report ⟨1⟩ (.connected {} ⟨4⟩)) :: turnsAt 2 0 ++ .call (.addDataListener (.fresh { name := "b" })) ::
      turnsAt 2 0 ++ .call (.addDataListener (.fresh l)) :: turnsAt 3 0

def startledActs : List Act :=
  frameActs { name := "a", script := [⟨.frame, some 0, [.panic]⟩] } (turnsAt 6 1 ++ .record ⟨1⟩ :: turnsAt 8 1)

def composedActs : List Act := frameActs { name := "a" } (turnsAt 14 1)

def quietOpening : Machine := opening quietConfig [] (.usual quietConfig) true

def startled : List Moment × Machine := (replay quietOpening startledActs).getD ([], quietOpening)

def unstartled : List Moment × Machine := (replay quietOpening composedActs).getD ([], quietOpening)

theorem startled_unnoticed : Alike startled.1 unstartled.1 startled.2 unstartled.2 ∧
    heardFrom ⟨1⟩ startled.1 = [(⟨0⟩, .data (.received ⟨4⟩ [7])), (⟨1⟩, .data (.received ⟨4⟩ [7]))] ∧
    startled.2.hub.metrics.panics = 1 ∧ unstartled.2.hub.metrics.panics = 0 := by
  have replayed : ∀ {acts : List Act}, (replay quietOpening acts).isSome = true →
      replay quietOpening acts = some ((replay quietOpening acts).getD ([], quietOpening)) := fun there => by
      obtain ⟨done, same⟩ := Option.isSome_iff_exists.mp there
      rw [same]
      rfl
  have same : hushedActs startledActs = hushedActs composedActs := rfl
  exact ⟨panics_unnoticed rfl same (replayed
    (by decide +kernel)) (replayed (by decide +kernel)) (by decide +kernel) (by decide +kernel),
    by decide +kernel⟩

end TransportHub
