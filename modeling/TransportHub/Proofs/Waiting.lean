import Mathlib.Logic.Relation
import TransportHub.Proofs.Custody
import TransportHub.Proofs.Silence
/-!
Waiting: for whom a thread waits that cannot go on. A wait for a worker may end at a wait for reporters, that
at an outer lock, and that at an inner lock, whose thread goes on; so nobody waits in a circle, and behind
every wait is somebody who goes on.
-/

set_option autoImplicit false

namespace TransportHub

open Relation (ReflTransGen TransGen)

variable {config : Config} {hooks : List Hook} {past : List Moment} {m : Machine} {t u w : ThreadId}
  {job : Job} {later : List Job} {lock : Lock} {lane : String} {threads : List ThreadId}

inductive Machine.Waits (m : Machine) (t u : ThreadId) : Prop where
  | lock {job : Job} {later : List Job} {lock : Lock} (agenda : m.agenda t = job :: later) (wants : job.wants = some lock)
      (has : lock ∈ m.holdings u)
  | join {lane : String} {later : List Job} (agenda : m.agenda t = .join lane u :: later) (apart : u ≠ t) (busy : m.agenda u ≠ [])
  | await {threads : List ThreadId} {later : List Job} (agenda : m.agenda t = .await threads :: later) (among : u ∈ threads)
      (busy : m.agenda u ≠ [])

def Job.depth : Job → Nat
  | .join .. => 0
  | .await _ => 1
  | job =>
      match job.wants with
      | some lock => if lock.inner then 3 else 2
      | none => 4

def Machine.depth (m : Machine) (t : ThreadId) : Nat :=
  match m.agenda t with
  | [] => 4
  | job :: _ => job.depth

def Job.lingers : Job → Bool
  | .join .. | .await _ => true
  | _ => false

theorem depth_eq (agenda : m.agenda t = job :: later) : m.depth t = job.depth := by
  unfold Machine.depth
  rw [agenda]

theorem depth_lingers (lingers : job.lingers = false) : 2 ≤ job.depth := by
  cases job with
  | join | await => cases lingers
  | _ =>
      simp only [Job.depth]
      split
      · split <;> decide
      · decide

theorem depth_unwanting (lingers : job.lingers = false) (wants : job.wants = none) : job.depth = 4 := by
  cases job with
  | join | await => cases lingers
  | _ => simp only [Job.depth, wants]

theorem depth_wants (wants : job.wants = some lock) : job.depth = if lock.inner then 3 else 2 := by
  cases job with
  | join | await => cases wants
  | _ => simp only [Job.depth, wants]

theorem depth_le : job.depth ≤ 4 := by
  unfold Job.depth
  split
  · decide
  · decide
  · split
    · split <;> decide
    · decide

theorem Machine.depth_le (m : Machine) (t : ThreadId) : m.depth t ≤ 4 := by
  unfold Machine.depth
  split
  · exact Nat.le_refl _
  · exact TransportHub.depth_le

theorem wants_outer (wants : job.wants = some lock) (outer : lock.inner = false) : job = .acquire lock := by
  cases job with
  | acquire other => exact congrArg Job.acquire (Option.some.inj wants)
  | perform op =>
      cases op with
      | registry op => cases op <;> cases wants <;> cases outer
      | _ => cases wants <;> cases outer
  | deviceLane j | dataLane j | hub j => cases j <;> cases wants <;> cases outer
  | _ => cases wants

theorem Squared.holder (squared : Squared m) (has : lock ∈ m.holdings u) : 3 ≤ m.depth u := by
  cases agenda : m.agenda u with
  | nil =>
      rw [squared.idle agenda] at has
      cases has
  | cons job later =>
      rw [depth_eq agenda]
      by_cases panics : job = .panic
      · rw [panics]
        decide
      obtain ⟨rest, done, _⟩ := squared.first agenda panics
      have some : m.holdings u ≠ [] := List.ne_nil_of_mem has
      have lingers : job.lingers = false := by
        cases job with
        | join | await => simp [Job.custody, Custody.after, some] at done
        | _ => rfl
      cases wants : job.wants with
      | none => rw [depth_unwanting lingers wants]; decide
      | some wanted =>
          rw [depth_wants wants]
          cases inner : wanted.inner with
          | true => decide
          | false =>
              rw [wants_outer wants inner] at done
              simp [Job.custody, Custody.after, inner, some] at done

theorem Squared.holder_inner (squared : Squared m) (has : lock ∈ m.holdings u) (inner : lock.inner = true) : m.depth u = 4 := by
  cases agenda : m.agenda u with
  | nil => simp only [Machine.depth, agenda]
  | cons job later =>
      rw [depth_eq agenda]
      by_cases panics : job = .panic
      · rw [panics]
        rfl
      · have goes := squares_goes (agenda ▸ squared.square u) panics has inner
        have deep := squared.holder has
        rw [depth_eq agenda] at deep
        refine depth_unwanting ?_ goes.1
        cases job with
        | join | await => simp [Job.depth] at deep
        | _ => rfl

-- What has to hold for the waits to come to an end: locks are kept in order, nobody is held, and who is
-- waited for neither sleeps nor waits for as long.
structure Moving (m : Machine) : Prop where
  squared : Squared m
  loose : ∀ thread ∈ m.threads, thread.held = false
  joined : ∀ t u lane later, m.agenda t = .join lane u :: later → u ≠ t → m.agenda u ≠ [] → m.rests u = false ∧ 1 ≤ m.depth u
  awaited : ∀ t u threads later, m.agenda t = .await threads :: later → u ∈ threads → m.agenda u ≠ [] →
    m.rests u = false ∧ 2 ≤ m.depth u

theorem Machine.Waits.deeper (waits : m.Waits t u) (moving : Moving m) : m.depth t < m.depth u := by
  cases waits with
  | lock agenda wants has =>
      rename_i lock
      rw [depth_eq agenda, depth_wants wants]
      cases inner : lock.inner with
      | true =>
          rw [moving.squared.holder_inner has inner]
          decide
      | false => exact moving.squared.holder has
  | join agenda apart busy =>
      rw [depth_eq agenda]
      exact (moving.joined _ _ _ _ agenda apart busy).2
  | await agenda among busy =>
      rw [depth_eq agenda]
      exact (moving.awaited _ _ _ _ agenda among busy).2

theorem Moving.acyclic (moving : Moving m) : ¬ TransGen m.Waits t t := by
  intro circle
  have deeper : ∀ {u}, TransGen m.Waits t u → m.depth t < m.depth u := fun path => by
    induction path with
    | single waits => exact waits.deeper moving
    | tail _ waits ih => exact Nat.lt_trans ih (waits.deeper moving)
  exact Nat.lt_irrefl _ (deeper circle)

theorem held_by (taken : m.free lock = false) : ∃ u, lock ∈ m.holdings u := by
  simp only [Machine.free, Bool.not_eq_false', List.any_eq_true, decide_eq_true_eq] at taken
  obtain ⟨⟨other, u⟩, member, same⟩ := taken
  exact ⟨u, mem_holdings.mpr (same ▸ member)⟩

theorem exited_iff : m.exited t = true ↔ m.agenda t = [] := by
  unfold Machine.exited Machine.agenda
  cases m.thread? t <;> simp [Thread.ended]

inductive Stuck (m : Machine) (t : ThreadId) (job : Job) : Prop where
  | lock {lock : Lock} (wants : job.wants = some lock) (taken : m.free lock = false)
  | join {lane : String} {u : ThreadId} (waits : job = .join lane u) (apart : u ≠ t) (busy : m.agenda u ≠ [])
  | await {threads : List ThreadId} {u : ThreadId} (waits : job = .await threads) (among : u ∈ threads) (busy : m.agenda u ≠ [])
  | held (waits : job = .held) (held : (m.thread? t).any (·.held) = true)
  | rests (rests : m.rests t = true)

theorem stuck_cases (agenda : m.agenda t = job :: later) (disabled : job.enabled m t = false) : Stuck m t job := by
  have reason : ∀ {needed : Option Lock}, job.wants = needed → needed.all m.free = false → Stuck m t job :=
      fun {needed} wants taken => by
    cases needed with
    | none => cases taken
    | some lock => exact .lock wants taken
  cases needed : job.needs.all m.free with
  | false =>
      cases job with
      | acquire => cases needed
      | _ => exact reason rfl needed
  | true =>
      simp only [Job.enabled, needed, Bool.true_and] at disabled
      cases job with
      | acquire lock => exact .lock rfl disabled
      | held => exact .held rfl (by simpa using disabled)
      | join lane u =>
          simp only [Bool.or_eq_false_iff, decide_eq_false_iff_not] at disabled
          exact .join rfl disabled.1 fun idle => by
            rw [exited_iff.mpr idle] at disabled
            cases disabled.2
      | await threads =>
          simp only [List.all_eq_false] at disabled
          obtain ⟨u, among, busy⟩ := disabled
          exact .await rfl among fun idle => busy (exited_iff.mpr idle)
      | deviceLane j =>
          cases j with
          | look =>
              refine .rests ?_
              unfold Machine.rests
              rw [agenda]
              simpa using disabled
          | _ => cases disabled
      | dataLane j =>
          cases j with
          | look id =>
              refine .rests ?_
              unfold Machine.rests
              rw [agenda]
              simpa using disabled
          | _ => cases disabled
      | _ => cases disabled

theorem Squared.busy (squared : Squared m) (has : lock ∈ m.holdings u) : m.rests u = false := by
  cases rests : m.rests u with
  | false => rfl
  | true =>
      have some : m.holdings u ≠ [] := List.ne_nil_of_mem has
      unfold Machine.rests at rests
      split at rests
      · rename_i idle
        exact absurd (squared.idle idle) some
      · rename_i agenda
        obtain ⟨_, done, _⟩ := squared.first agenda fun none => by cases none
        simp [Job.custody, Custody.after, some] at done
      · rename_i agenda
        obtain ⟨_, done, _⟩ := squared.first agenda fun none => by cases none
        simp [Job.custody, Custody.after, some] at done
      · cases rests

theorem Moving.goes (moving : Moving m) (busy : m.rests t = false) :
    (m.step? t).isSome = true ∨ ∃ u, m.Waits t u ∧ m.rests u = false := by
  cases agenda : m.agenda t with
  | nil =>
      unfold Machine.rests at busy
      rw [agenda] at busy
      cases busy
  | cons job later =>
      by_cases panics : job = .panic
      · rw [panics] at agenda
        rw [step_panic agenda]
        exact .inl rfl
      cases enabled : job.enabled m t with
      | true =>
          rw [step_carry agenda panics enabled]
          exact .inl rfl
      | false =>
          refine .inr ?_
          rcases stuck_cases agenda enabled with ⟨wants, taken⟩ | ⟨rfl, apart, alive⟩ | ⟨rfl, among, alive⟩ | ⟨rfl, held⟩ | rests
          · obtain ⟨u, has⟩ := held_by taken
            exact ⟨u, .lock agenda wants has, moving.squared.busy has⟩
          · exact ⟨_, .join agenda apart alive, (moving.joined _ _ _ _ agenda apart alive).1⟩
          · exact ⟨_, .await agenda among alive, (moving.awaited _ _ _ _ agenda among alive).1⟩
          · rw [Option.any_eq_true] at held
            obtain ⟨thread, known, held⟩ := held
            rw [moving.loose thread (List.mem_of_getElem? known)] at held
            cases held
          · rw [busy] at rests
            cases rests

theorem Moving.progress (moving : Moving m) (busy : m.rests t = false) :
    ∃ u, ReflTransGen m.Waits t u ∧ (m.step? u).isSome = true := by
  induction left : 4 - m.depth t using Nat.strong_induction_on generalizing t with
  | _ n ih =>
      rcases moving.goes busy with goes | ⟨u, waits, alive⟩
      · exact ⟨t, .refl, goes⟩
      · have deeper := waits.deeper moving
        have bound := m.depth_le u
        obtain ⟨v, path, goes⟩ := ih (4 - m.depth u) (by omega) alive rfl
        exact ⟨v, .head waits path, goes⟩

end TransportHub
