import Mathlib.Data.List.Nodup
import TransportHub.Proofs.Locks
/-!
Custody: which locks a thread has at each point of its agenda. Every job says which locks it is done with
and which of them it gives back, all that it leads to included; so an agenda can be read from the locks that
its thread has, the latest first, and ends without any. Nothing is waited for while one of the inner locks is
held, and under the outer ones nothing but an inner lock.
-/

set_option autoImplicit false

namespace TransportHub

variable {config : Config} {hooks : List Hook} {system : System} {past : List Moment} {m : Machine} {t u : ThreadId}
  {job : Job} {later front back : List Job} {held rest : List Lock} {lock : Lock} {x : Moment}

def Lock.inner : Lock → Bool
  | .publish | .lifecycle => false
  | _ => true

-- What a job does about the locks of its thread, with all that it leads to.
inductive Custody where
  -- It may be done whatever is held, and leaves that as it is.
  | keeps
  | takes (lock : Lock)
  -- It gives back the lock that was taken last.
  | gives (lock : Lock)
  -- It is done with these locks and no others, and gives them all back.
  | clears (locks : List Lock)
  -- It is done with this lock and no other, and keeps it.
  | within (lock : Lock)

def Custody.after : Custody → List Lock → Option (List Lock)
  | keeps, held => some held
  | takes lock, held => if held.all (!·.inner) && (lock.inner || held.isEmpty) then some (lock :: held) else none
  | gives _, [] => none
  | gives lock, first :: rest => if first = lock then some rest else none
  | clears locks, held => if held = locks then some [] else none
  | within lock, held => if held = [lock] then some held else none

def Job.custody : Job → Custody
  | .log _ | .resume | .answer _ => .keeps
  | .acquire lock => .takes lock
  | .release lock => .gives lock
  | .registry job =>
      match job with
      | .enrol .. | .store .. => .keeps
      | .reserve _ _ .hub => .clears [.registry, .lifecycle]
      | .withdraw _ .hub | .replace _ _ .hub => .clears [.registry, .publish]
      | _ => .clears [.registry]
  | .deviceLane job =>
      match job with
      | .discard | .push _ => .keeps
      | .enqueue _ => .gives .deviceQueue
      | .start | .spawn => .gives .deviceWorker
      | _ => .clears []
  | .dataLane job =>
      match job with
      | .requestStop _ | .retire _ => .keeps
      | .start _ | .publish .. | .stop _ => .clears [.laneMap]
      | _ => .clears []
  | .hub job =>
      match job with
      | .publishList | .publishAggregate => .within .publish
      | .add _ | .claimNew .. | .run | .laneStarted | .claimAll => .clears [.lifecycle]
      | _ => .clears []
  | _ => .clears []

-- From these locks on, an agenda takes and gives back what it may, and ends without any; a panic gives
-- everything back.
def squares : List Lock → List Job → Bool
  | held, [] => held.isEmpty
  | _, .panic :: _ => true
  | held, job :: rest => (job.custody.after held).any (squares · rest)

theorem squares_cons (notPanic : job ≠ .panic) : squares held (job :: later) = (job.custody.after held).any (squares · later) := by
  cases job with
  | panic => exact absurd rfl notPanic
  | _ => rfl

theorem squares_idle (idle : ∀ j ∈ front, j.custody.after [] = some []) (behind : squares [] back = true) :
    squares [] (front ++ back) = true := by
  induction front with
  | nil => exact behind
  | cons j rest ih =>
      by_cases panics : j = .panic
      · rw [panics]
        rfl
      · rw [List.cons_append, squares_cons panics, idle j (List.mem_cons_self ..), Option.any_some]
        exact ih fun k member => idle k (List.mem_cons_of_mem _ member)

theorem plain_idle (plain : job.plain) : job.custody.after [] = some [] := by
  cases job with
  | acquire lock | release lock => cases lock <;> cases plain
  | registry j =>
      cases j with
      | reserve _ _ errand | withdraw _ errand | replace _ _ errand => cases errand <;> cases plain
      | _ => rfl
  | deviceLane j | dataLane j | hub j => cases j <;> first | rfl | cases plain
  | _ => rfl

theorem ungated_custody (gated : job.gated = false) (apart : ∀ lock, job ≠ .acquire lock ∧ job ≠ .release lock) :
    job.custody = .keeps ∨ job.custody = .clears [] := by
  cases job with
  | acquire lock => exact absurd rfl (apart lock).1
  | release lock => exact absurd rfl (apart lock).2
  | registry j | deviceLane j | dataLane j | hub j =>
      cases j <;> first
        | exact .inl rfl
        | exact .inr rfl
        | cases gated
  | log | resume | answer => exact .inl rfl
  | _ => exact .inr rfl

theorem keeps_next (keeps : job.custody = .keeps) (m : Machine) (t : ThreadId) :
    (job.exec m t).2 = [] ∨ ∃ record, job = .log record := by
  cases job with
  | log record => exact .inr ⟨record, rfl⟩
  | registry j =>
      cases j with
      | reserve _ _ errand | withdraw _ errand | replace _ _ errand => cases errand <;> cases keeps
      | _ => exact .inl rfl
  | deviceLane j | dataLane j | hub j => cases j <;> first | exact .inl rfl | cases keeps
  | resume | answer => exact .inl rfl
  | _ => cases keeps

theorem squares_resumes (resumes : ∀ j ∈ front, j = .resume) (behind : squares held back = true) :
    squares held (front ++ back) = true := by
  induction front with
  | nil => exact behind
  | cons j rest ih =>
      rw [resumes j (List.mem_cons_self ..)]
      exact ih fun k member => resumes k (List.mem_cons_of_mem _ member)

theorem squares_withdraws (ids : List AdapterId) (behind : squares [] back = true) :
    squares [] (ids.flatMap (Plan.withdraw · .shutdown) ++ back) = true := by
  induction ids with
  | nil => exact behind
  | cons id rest ih => exact ih

theorem squares_perform (m : Machine) (op : Op) (behind : squares [] later = true) :
    squares [] ((m.perform op).2 ++ later) = true := by
  cases op with
  | report source r =>
      simp only [Machine.perform, Machine.performOwned]
      split
      · cases r <;> exact behind
      · exact behind
  | contextReport name r =>
      simp only [Machine.perform, ParticipantJob.reportThrough]
      split
      · split
        · cases r <;> exact behind
        · exact behind
      · exact behind
  | registry op | deviceLane op | dataLanes op =>
      cases op <;> simp only [Machine.perform, Machine.performOwned, RegistryOp.exec, DeviceLaneOp.exec, DataLanesOp.exec] <;>
        split <;> exact behind
  | context name query =>
      simp only [Machine.perform]
      split
      · cases query <;> exact behind
      · exact behind
  | setType | release =>
      simp only [Machine.perform]
      repeat' split
      all_goals exact behind
  | _ =>
      simp only [Machine.perform, Machine.performOwned, ContextQuery.exec]
      split <;> exact behind

theorem squares_plain (plain : ∀ j ∈ front, j.plain) (behind : squares [] back = true) : squares [] (front ++ back) = true :=
  squares_idle (fun j member => plain_idle (plain j member)) behind

theorem squares_hub (m : Machine) (t : ThreadId) (job : HubJob) (gated : (Job.hub job).gated = true)
    (done : (Job.hub job).custody.after held = some rest) (behind : squares rest later = true) :
    squares held ((job.exec m t).2 ++ later) = true := by
  cases job with
  | claimNew id adapter =>
      obtain ⟨rfl, rfl⟩ : held = [.lifecycle] ∧ rest = [] := by simpa [Job.custody, Custody.after, eq_comm] using done
      simp only [HubJob.exec, List.append_assoc]
      generalize (if m.hub.running then m.hub.registry.beginStart id else (none, m.hub.registry)).1 = claimed
      have runs : ∀ j ∈ claimed.elim [] (Plan.runAdapter id), j.plain := by
        cases claimed with
        | none => exact fun _ none => by cases none
        | some key => exact plain_runAdapter id key
      have behind : squares [] (claimed.elim [] (Plan.runAdapter id) ++ .answer (.added (.ok id)) :: later) = true :=
        squares_plain runs behind
      exact behind
  | claimAll =>
      obtain ⟨rfl, rfl⟩ : held = [.lifecycle] ∧ rest = [] := by simpa [Job.custody, Custody.after, eq_comm] using done
      simp only [HubJob.exec, List.append_assoc]
      have runs : ∀ j ∈ m.hub.registry.beginStartAll.1.flatMap (fun c => Plan.runAdapter c.1 c.2), j.plain := fun j member => by
        obtain ⟨claim, _, member⟩ := List.mem_flatMap.mp member
        exact plain_runAdapter _ _ j member
      have behind : squares [] (m.hub.registry.beginStartAll.1.flatMap (fun c => Plan.runAdapter c.1 c.2) ++
          .answer (.done (.ok ())) :: later) = true := squares_plain runs behind
      exact behind
  | stopAdapters =>
      obtain ⟨rfl, rfl⟩ : held = [] ∧ rest = [] := by simpa [Job.custody, Custody.after, eq_comm] using done
      simp only [HubJob.exec, HubJob.shutDownAll, List.append_assoc]
      refine squares_withdraws _ ?_
      split <;> exact behind
  | add | run | laneStarted =>
      obtain ⟨rfl, rfl⟩ : held = [.lifecycle] ∧ rest = [] := by simpa [Job.custody, Custody.after, eq_comm] using done
      simp only [HubJob.exec]
      split <;> first
        | exact behind
        | (split <;> exact behind)
  | publishList | publishAggregate =>
      obtain ⟨rfl, rfl⟩ : held = [.publish] ∧ held = rest := by simpa [Job.custody, Custody.after] using done
      simp only [HubJob.exec]
      first
        | exact behind
        | (split <;> exact behind)
  | raiseTermination | connect | connectionStarted | disconnected =>
      obtain ⟨rfl, rfl⟩ : held = [] ∧ rest = [] := by simpa [Job.custody, Custody.after, eq_comm] using done
      simp only [HubJob.exec]
      split <;> exact behind
  | _ => cases gated

theorem squares_registry (m : Machine) (job : RegistryJob) (gated : (Job.registry job).gated = true)
    (done : (Job.registry job).custody.after held = some rest) (behind : squares rest later = true) :
    squares held ((job.exec m).2 ++ later) = true := by
  cases job with
  | reserve deviceType adapter errand =>
      cases errand <;> simp only [Job.custody, Custody.after, Option.ite_none_right_eq_some, Option.some.injEq] at done <;>
        obtain ⟨rfl, rfl⟩ := done <;> exact behind
  | withdraw id errand =>
      simp only [RegistryJob.exec]
      cases errand <;> simp only [Job.custody, Custody.after, Option.ite_none_right_eq_some, Option.some.injEq] at done <;>
        obtain ⟨rfl, rfl⟩ := done
      · split <;> exact behind
      · split
        · rename_i w _ _
          simp only [RegistryJob.afterWithdrawal, List.append_assoc]
          have stop : squares [] (Plan.stopWithdrawn id w ++ .answer (.done (.ok ())) :: later) = true :=
            squares_plain (plain_stopWithdrawn id w) behind
          split <;> exact stop
        · exact behind
      · split
        · have stop := squares_plain (plain_stopWithdrawn id ‹_›) behind
          exact stop
        · exact behind
  | replace id devices errand =>
      simp only [RegistryJob.exec]
      cases errand <;> simp only [Job.custody, Custody.after, Option.ite_none_right_eq_some, Option.some.injEq] at done <;>
        obtain ⟨rfl, rfl⟩ := done <;> split <;> exact behind
  | _ => cases gated

theorem squares_deviceLane (m : Machine) (job : DeviceLaneJob) (gated : (Job.deviceLane job).gated = true)
    (done : (Job.deviceLane job).custody.after held = some rest) (behind : squares rest later = true) :
    squares held ((job.exec m).2 ++ later) = true := by
  cases held with
  | nil => cases job <;> first | (simp [Job.custody, Custody.after] at done; done) | cases gated
  | cons first others =>
      cases job with
      | enqueue | start | spawn =>
          simp only [Job.custody, Custody.after, Option.ite_none_right_eq_some, Option.some.injEq] at done
          obtain ⟨rfl, rfl⟩ := done
          simp only [DeviceLaneJob.exec]
          split <;> first | exact behind | rfl
      | _ => cases gated

theorem squares_dataLane (m : Machine) (job : DataLaneJob) (gated : (Job.dataLane job).gated = true)
    (done : (Job.dataLane job).custody.after held = some rest) (behind : squares rest later = true) :
    squares held ((job.exec m).2 ++ later) = true := by
  cases job with
  | start | spawn | publish =>
      simp only [Job.custody, Custody.after, Option.ite_none_right_eq_some, Option.some.injEq] at done
      obtain ⟨rfl, rfl⟩ := done
      simp only [DataLaneJob.exec]
      repeat' split
      all_goals first | exact behind | rfl
  | stop c =>
      simp only [Job.custody, Custody.after, Option.ite_none_right_eq_some, Option.some.injEq] at done
      obtain ⟨rfl, rfl⟩ := done
      simp only [DataLaneJob.exec, DataLanes.withdraw]
      cases m.hub.dataLanes.slots.get? c <;> exact behind
  | _ => cases gated

theorem squares_exec (m : Machine) (t : ThreadId) (apart : ∀ lock, job ≠ .acquire lock ∧ job ≠ .release lock)
    (hooked : ∀ record, job = .log record → held ≠ [] → ∀ j ∈ (m.log t record).2, j = .resume)
    (done : job.custody.after held = some rest) (behind : squares rest later = true) :
    squares held ((job.exec m t).2 ++ later) = true := by
  cases gated : job.gated with
  | true =>
      cases job with
      | perform op =>
          obtain ⟨rfl, rfl⟩ : held = [] ∧ rest = [] := by simpa [Job.custody, Custody.after, eq_comm] using done
          exact squares_perform m op behind
      | hub job => exact squares_hub m t job gated done behind
      | registry job => exact squares_registry m job gated done behind
      | deviceLane job => exact squares_deviceLane m job gated done behind
      | dataLane job => exact squares_dataLane m job gated done behind
      | _ => cases gated
  | false =>
      by_cases empty : held = []
      · subst empty
        have same : rest = [] := by
          rcases ungated_custody gated apart with keeps | clears
          · rw [keeps] at done
            exact (Option.some.inj done).symm
          · rw [clears] at done
            exact (Option.some.inj done).symm
        subst same
        refine squares_plain (fun j member => Classical.byContradiction fun here => ?_) behind
        rw [gated_source (leads_exec m t job j member) here] at gated
        cases gated
      · rcases ungated_custody gated apart with keeps | clears
        · rw [keeps] at done
          obtain rfl : held = rest := Option.some.inj done
          rcases keeps_next keeps m t with none | ⟨record, rfl⟩
          · rw [none]
            exact behind
          · exact squares_resumes (hooked record rfl empty) behind
        · rw [clears] at done
          simp [Custody.after, empty] at done

def Machine.holdings (m : Machine) (t : ThreadId) : List Lock := (m.locks.filter (·.2 = t)).map (·.1)

theorem mem_holdings : lock ∈ m.holdings t ↔ (lock, t) ∈ m.locks := by
  simp [Machine.holdings]

theorem holdings_take (m : Machine) (t : ThreadId) (lock : Lock) (u : ThreadId) :
    (m.take t lock).holdings u = if u = t then lock :: m.holdings u else m.holdings u := by
  unfold Machine.holdings Machine.take
  by_cases mine : u = t
  · subst mine
    simp
  · have other : ¬ t = u := fun same => mine same.symm
    simp [mine, other]

theorem holdings_giveBack (m : Machine) (lock : Lock) (u : ThreadId) :
    (m.giveBack lock).holdings u = (m.holdings u).filter (· ≠ lock) := by
  unfold Machine.holdings Machine.giveBack
  rw [List.filter_map, List.filter_filter, List.filter_filter]
  refine congrArg (List.map _) (List.filter_congr fun entry _ => ?_)
  simp [Bool.and_comm]

theorem holdings_unwind : (m.unwind t later).holdings u = if u = t then [] else m.holdings u := by
  unfold Machine.holdings
  rw [Gate.locks_unwind, List.filter_filter]
  split
  · subst_vars
    rw [List.map_eq_nil_iff, List.filter_eq_nil_iff]
    simp
  · refine congrArg (List.map _) (List.filter_congr fun entry _ => ?_)
    by_cases here : entry.2 = u <;> simp [*]

theorem holdings_same {m' : Machine} (locks : m'.locks = m.locks) (u : ThreadId) : m'.holdings u = m.holdings u := by
  unfold Machine.holdings
  rw [locks]

theorem holder_alone (single : (m.locks.map (·.1)).Nodup) (mine : lock ∈ m.holdings t) (yours : lock ∈ m.holdings u) : t = u :=
  congrArg Prod.snd (List.inj_on_of_nodup_map single (mem_holdings.mp mine) (mem_holdings.mp yours) rfl)

-- No operation is hooked onto a record that a thread writes while it has a lock.
def Moment.lockSafe (x : Moment) : Prop := ∀ record, x.job = .log record → x.machine.holdings x.thread ≠ [] →
  ∀ j ∈ (x.machine.log x.thread record).2, j = .resume

instance (x : Moment) : Decidable x.lockSafe :=
  decidable_of_iff ((match x.job with
    | .log record => x.machine.holdings x.thread = [] || (x.machine.log x.thread record).2.all (· matches .resume)
    | _ => true) = true) <| by
    unfold Moment.lockSafe
    cases x.job <;> simp [List.all_eq_true, or_iff_not_imp_left]
    refine imp_congr_right fun _ => forall₂_congr fun j _ => ?_
    cases j <;> simp

structure Squared (m : Machine) : Prop where
  single : (m.locks.map (·.1)).Nodup
  square : ∀ u, squares (m.holdings u) (m.agenda u) = true

theorem Squared.idle (squared : Squared m) (idle : m.agenda u = []) : m.holdings u = [] := by
  have square := squared.square u
  rw [idle] at square
  exact List.isEmpty_iff.mp square

theorem Squared.begins (squared : Squared m) {m' : Machine} (holdings : m'.holdings u = m.holdings u)
    (moves : m'.agenda u = m.agenda u ∨ (m.agenda u = [] ∧ Fresh config u (m'.agenda u))) :
    squares (m'.holdings u) (m'.agenda u) = true := by
  rw [holdings]
  rcases moves with same | ⟨idle, fresh⟩
  · rw [same]
    exact squared.square u
  · rw [squared.idle idle, ← List.append_nil (m'.agenda u)]
    exact squares_plain (plain_fresh fresh) rfl

theorem Squared.initial {jobs : List Job} (fresh : Fresh config .caller jobs) :
    Squared ((Machine.initial config hooks system).beginWith jobs) := by
  refine ⟨List.nodup_nil, fun u => ?_⟩
  have none : ((Machine.initial config hooks system).beginWith jobs).holdings u = [] := rfl
  rw [none]
  rcases initial_fresh config hooks u fresh with idle | fresh
  · rw [idle]
    rfl
  · rw [← List.append_nil (Machine.agenda _ u)]
    exact squares_plain (plain_fresh fresh) rfl

theorem Squared.first (squared : Squared m) (agenda : m.agenda t = job :: later) (notPanic : job ≠ .panic) :
    ∃ rest, job.custody.after (m.holdings t) = some rest ∧ squares rest later = true := by
  have square := squared.square t
  rw [agenda, squares_cons notPanic, Option.any_eq_true] at square
  exact square

theorem squares_step (square : squares (m.holdings t) (job :: back) = true) (single : (m.locks.map (·.1)).Nodup)
    (notPanic : job ≠ .panic) (enabled : job.enabled m t = true) (safe : Moment.lockSafe ⟨m, t, job, later⟩) :
    squares ((job.exec m t).1.holdings t) ((job.exec m t).2 ++ back) = true ∧ ((job.exec m t).1.locks.map (·.1)).Nodup ∧
      ∀ u, u ≠ t → (job.exec m t).1.holdings u = m.holdings u := by
  rw [squares_cons notPanic, Option.any_eq_true] at square
  obtain ⟨rest, done, behind⟩ := square
  by_cases acquires : ∃ lock, job = .acquire lock
  · obtain ⟨lock, rfl⟩ := acquires
    have free : m.free lock = true := by simpa [Job.enabled, Job.needs] using enabled
    have new : lock ∉ m.locks.map (·.1) := by
      simp only [Machine.free, Bool.not_eq_true', List.any_eq_false, decide_eq_true_eq] at free
      exact fun inside => by
        obtain ⟨entry, member, same⟩ := List.mem_map.mp inside
        exact free entry member same
    refine ⟨?_, List.nodup_cons.mpr ⟨new, single⟩, fun u own => (holdings_take m t lock u).trans (if_neg own)⟩
    simp only [Job.custody, Custody.after, Option.ite_none_right_eq_some, Option.some.injEq] at done
    have mine : ((Job.acquire lock).exec m t).1.holdings t = rest := (holdings_take m t lock t).trans ((if_pos rfl).trans done.2)
    rw [mine]
    exact behind
  by_cases releases : ∃ lock, job = .release lock
  · obtain ⟨lock, rfl⟩ := releases
    have given : ∀ u, ((Job.release lock).exec m t).1.holdings u = (m.holdings u).filter (· ≠ lock) := holdings_giveBack m lock
    have has : m.holdings t = lock :: rest := by
      cases held : m.holdings t with
      | nil =>
          rw [held] at done
          cases done
      | cons first others =>
          rw [held] at done
          simp only [Job.custody, Custody.after, Option.ite_none_right_eq_some, Option.some.injEq] at done
          rw [done.1, done.2]
    refine ⟨?_, single.sublist (List.filter_sublist.map _), fun u own => ?_⟩
    · have apart : (m.holdings t).Nodup := single.sublist (List.filter_sublist.map _)
      rw [has, List.nodup_cons] at apart
      have left : (lock :: rest).filter (· ≠ lock) = rest := by
        rw [List.filter_cons_of_neg (by simp), List.filter_eq_self]
        exact fun other member => decide_eq_true fun same => apart.1 (same ▸ member)
      rw [given, has, left]
      exact behind
    · refine (given u).trans (List.filter_eq_self.mpr fun other member => decide_eq_true fun same => own ?_)
      exact holder_alone single (same ▸ member) (has ▸ List.mem_cons_self ..)
  · have apart : ∀ lock, job ≠ .acquire lock ∧ job ≠ .release lock := fun lock =>
      ⟨fun same => acquires ⟨lock, same⟩, fun same => releases ⟨lock, same⟩⟩
    have locks := Gate.locks_exec m t job apart
    refine ⟨?_, locks ▸ single, fun u _ => holdings_same locks u⟩
    rw [holdings_same locks]
    exact squares_exec m t apart safe done behind

theorem Squared.carry (squared : Squared m) (run : Run config hooks past m) (agenda : m.agenda t = job :: later)
    (notPanic : job ≠ .panic) (enabled : job.enabled m t = true) (safe : Moment.lockSafe ⟨m, t, job, later⟩) :
    Squared (m.carry t job later) := by
  obtain ⟨mine, single, others⟩ := squares_step (agenda ▸ squared.square t) squared.single notPanic enabled safe
  have holdings : ∀ u, (m.carry t job later).holdings u = (job.exec m t).1.holdings u := holdings_same rfl
  refine ⟨single, fun u => ?_⟩
  by_cases own : u = t
  · subst own
    rw [holdings, agenda_carry_self agenda]
    exact mine
  · exact squared.begins ((holdings u).trans (others u own)) (run.carry_fresh job later own)

theorem Run.squared (run : Run config hooks past m) (safe : ∀ x ∈ past, x.lockSafe) : Squared m := by
  refine Run.induct (G := Moment.lockSafe) (P := fun _ m => Squared m) ?construct ?assemble ?call ?client ?carry ?unwind run safe
  case construct => exact Squared.initial .construction
  case assemble => exact Squared.initial .assembly
  case call => exact fun op _ squared idle => ⟨squared.single, fun u => squared.begins rfl (call_fresh config idle op u)⟩
  case client => exact fun name op _ squared => ⟨squared.single, fun u => squared.begins rfl (client_fresh config _ name op u)⟩
  case carry => exact fun run squared agenda notPanic enabled here => squared.carry run agenda notPanic enabled here
  case unwind =>
    intro past m t later run squared agenda _
    refine ⟨?_, fun u => ?_⟩
    · rw [Gate.locks_unwind]
      exact squared.single.sublist (List.filter_sublist.map _)
    · rw [holdings_unwind]
      split
      · rename_i own
        subst own
        rw [agenda_unwind_self agenda, ← List.append_nil (kept later)]
        exact squares_plain (fun job member => plain_trails (run.trails_kept agenda job member)) rfl
      · rename_i other
        rw [agenda_unwind_other other]
        exact squared.square u

def Job.wants : Job → Option Lock
  | .acquire lock => some lock
  | job => job.needs

theorem squares_goes (square : squares (m.holdings t) (job :: later) = true) (notPanic : job ≠ .panic) (holds : lock ∈ m.holdings t)
    (inner : lock.inner = true) : job.wants = none ∧ job.enabled m t = true := by
  rw [squares_cons notPanic, Option.any_eq_true] at square
  obtain ⟨rest, done, _⟩ := square
  have none : m.holdings t ≠ [] := List.ne_nil_of_mem holds
  cases job with
  | acquire wanted =>
      simp only [Job.custody, Custody.after, Option.ite_none_right_eq_some, Bool.and_eq_true, List.all_eq_true] at done
      have outer := done.1.1 lock holds
      rw [inner] at outer
      cases outer
  | registry j | deviceLane j | dataLane j | hub j =>
      cases j <;> first
        | exact ⟨rfl, rfl⟩
        | (exfalso
           simp only [Job.custody, Custody.after, Option.ite_none_right_eq_some] at done
           rw [done.1] at holds
           first
             | (cases holds; done)
             | (cases List.mem_singleton.mp holds; cases inner))
  | log | release | resume | answer | panic | hold | enter | leave | participant => exact ⟨rfl, rfl⟩
  | held | perform | join | await => simp [Job.custody, Custody.after, none] at done

end TransportHub
