import TransportHub.Proofs.Players
/-!
Registrations: what a listener set comes to by the calls made on it. The registrations left are those that no later call has
taken out, in the order they were made, and a copy that was handed out stays as it is. Both lanes of a hub keep such a set, and a
listener is in it by its identity: one that does the same is another one.
-/

set_option autoImplicit false

namespace TransportHub

namespace ListenerSet

inductive Call where
  | add (l : ListenerId)
  | remove (l : ListenerId)
  | snapshot
deriving DecidableEq, Repr

inductive Answer where
  | done
  | found (any : Bool)
  | copy (listeners : List ListenerId)
deriving DecidableEq, Repr

def call (s : ListenerSet) : Call → Answer × ListenerSet
  | .add l => (.done, s.add l)
  | .remove l => (.found (s.remove l).1, (s.remove l).2)
  | .snapshot => (.copy s.snapshot, s)

def after (s : ListenerSet) (calls : List Call) : ListenerSet := calls.foldl (fun s c => (s.call c).2) s

def answers (s : ListenerSet) : List Call → List Answer
  | [] => []
  | c :: later => (s.call c).1 :: (s.call c).2.answers later

-- The registrations that no later removal of the same listener takes out.
def remaining : List Call → List ListenerId
  | [] => []
  | .add l :: later => if .remove l ∈ later then remaining later else l :: remaining later
  | .remove _ :: later | .snapshot :: later => remaining later

-- What a call is to be answered, by the calls before it.
def rightAnswer (earlier : List Call) : Call → Answer
  | .add _ => .done
  | .remove l => .found (decide (l ∈ remaining earlier))
  | .snapshot => .copy (remaining earlier)

variable {s : ListenerSet} {calls : List Call} {a b l : ListenerId}

theorem snapshot_after (s : ListenerSet) (calls : List Call) :
    (s.after calls).snapshot = s.snapshot.filter (fun l => .remove l ∉ calls) ++ remaining calls := by
  induction calls generalizing s with
  | nil => simp [after, remaining, List.filter_eq_self.mpr]
  | cons c later ih =>
      have step : s.after (c :: later) = (s.call c).2.after later := rfl
      rw [step, ih]
      cases c with
      | add l => by_cases out : .remove l ∈ later <;> simp [call, remaining, List.filter_append, out]
      | remove l => simp [call, remaining, List.filter_filter, Bool.and_comm, not_or]
      | snapshot => simp [call, remaining]

theorem remaining_eq (calls : List Call) : (after {} calls).snapshot = remaining calls := snapshot_after {} calls

theorem answers_append (s : ListenerSet) (calls more : List Call) :
    s.answers (calls ++ more) = s.answers calls ++ (s.after calls).answers more := by
  induction calls generalizing s with
  | nil => rfl
  | cons c later ih => exact congrArg ((s.call c).1 :: ·) (ih (s.call c).2)

theorem length_answers (s : ListenerSet) (calls : List Call) : (s.answers calls).length = calls.length := by
  induction calls generalizing s with
  | nil => rfl
  | cons c later ih => exact congrArg (· + 1) (ih (s.call c).2)

theorem call_after (calls : List Call) (c : Call) : ((after {} calls).call c).1 = rightAnswer calls c := by
  cases c with
  | add l => rfl
  | remove l =>
      have found := found_remove (after {} calls) l
      rw [remaining_eq] at found
      exact congrArg Answer.found (Bool.eq_iff_iff.mpr (found.trans decide_eq_true_iff.symm))
  | snapshot => exact congrArg Answer.copy (remaining_eq calls)

theorem count_remove (s : ListenerSet) (apart : a ≠ l) : (s.remove l).2.snapshot.count a = s.snapshot.count a := by
  rw [snapshot_remove, List.count_filter]
  exact decide_eq_true apart

theorem remove_unknown (unknown : l ∉ s.snapshot) : s.remove l = (false, s) := by
  have kept : s.registrations.filter (· ≠ l) = s.registrations :=
    List.filter_eq_self.mpr fun k member => decide_eq_true fun same => unknown (same ▸ member)
  simp only [remove, kept, ne_eq, not_true_eq_false, decide_false]

theorem remove_gone (s : ListenerSet) (l : ListenerId) : l ∉ (s.remove l).2.snapshot := by simp

theorem remove_swap (s : ListenerSet) (a b : ListenerId) : ((s.remove a).2.remove b).2 = ((s.remove b).2.remove a).2 := by
  simp only [remove, List.filter_filter, Bool.and_comm]

theorem found_apart (s : ListenerSet) (apart : a ≠ b) : ((s.remove a).2.remove b).1 = (s.remove b).1 := by
  rw [Bool.eq_iff_iff, found_remove, found_remove, snapshot_remove, List.mem_filter, and_iff_left]
  exact decide_eq_true (Ne.symm apart)

end ListenerSet

open ListenerSet

variable {config : Config} {hooks : List Hook} {past : List Moment} {m : Machine} {t : ThreadId} {job : Job} {side : Side}
  {x : Moment} {l : ListenerId} {c c' : Cast}

def Moment.registers (side : Side) (x : Moment) : Option Call := ((x.joins side).map .add).or ((x.quits side).map .remove)

def registerCalls (side : Side) (past : List Moment) : List Call := past.filterMap (Moment.registers side)

theorem registers_remove : x.registers side = some (.remove l) ↔ x.quits side = some l := by
  unfold Moment.registers
  cases joins : x.joins side with
  | none => simp
  | some k => simp [joins_quits joins]

theorem registered_remaining (side : Side) (past : List Moment) : registered side past = remaining (registerCalls side past) := by
  induction past with
  | nil => rfl
  | cons x rest ih =>
      rw [registered, ih]
      cases joins : x.joins side with
      | none => cases quits : x.quits side <;> simp [registerCalls, Moment.registers, joins, quits, remaining]
      | some k =>
          have now : registerCalls side (x :: rest) = .add k :: registerCalls side rest := by
            simp [registerCalls, Moment.registers, joins]
          have stays : (rest.all fun y => y.quits side ≠ some k) = true ↔ .remove k ∉ registerCalls side rest := by
            simp only [registerCalls, List.mem_filterMap, registers_remove, List.all_eq_true, decide_eq_true_iff,
              not_exists, not_and, ne_eq]
          rw [now, remaining, Option.toList_some, List.filter_cons, List.filter_nil]
          by_cases out : .remove k ∈ registerCalls side rest
          · rw [if_pos out, if_neg fun stayed => stays.mp stayed out, List.nil_append]
          · rw [if_neg out, if_pos (stays.mpr out), List.singleton_append]

def Cast.meets (c : Cast) (l : ListenerId) : Prop := l.val < c.specs.length

structure Cast.Acquainted (c : Cast) : Prop where
  device : ∀ named ∈ c.deviceListenerNames, c.meets named.2
  data : ∀ named ∈ c.dataListenerNames, c.meets named.2

theorem meets_enterListener (c : Cast) (spec : ListenerSpec Op) : (c.enterListener spec).2.meets (c.enterListener spec).1 := by
  simp [Cast.meets, Cast.enterListener, Cast.specs]

theorem meets_more (more : c.specs <+: c'.specs) (known : c.meets l) : c'.meets l := Nat.lt_of_lt_of_le known more.length_le

theorem Cast.Acquainted.more (known : c.Acquainted) (more : c.specs <+: c'.specs)
    (device : c'.deviceListenerNames = c.deviceListenerNames) (data : c'.dataListenerNames = c.dataListenerNames) : c'.Acquainted :=
  ⟨fun named member => meets_more more (known.device named (device ▸ member)), fun named member =>
    meets_more more (known.data named (data ▸ member))⟩

theorem meets_resolve {names : List (String × ListenerId)} (known : ∀ named ∈ names, c.meets named.2) (ref : Ref (ListenerSpec Op)) :
    (c.resolveListener names ref).2.2.meets (c.resolveListener names ref).1 ∧
      ∀ named ∈ (c.resolveListener names ref).2.1, (c.resolveListener names ref).2.2.meets named.2 := by
  cases ref with
  | fresh spec =>
      refine ⟨meets_enterListener c spec, List.forall_mem_cons.mpr ⟨meets_enterListener c spec, fun named member => ?_⟩⟩
      exact meets_more (specs_enterListener c spec) (known named member)
  | named name =>
      simp only [Cast.resolveListener]
      split
      · rename_i l found
        exact ⟨known (name, l) (mem_of_lookup found), known⟩
      · refine ⟨meets_enterListener c _, List.forall_mem_cons.mpr ⟨meets_enterListener c _, fun named member => ?_⟩⟩
        exact meets_more (specs_enterListener c _) (known named member)

theorem names_resolve (c : Cast) (names : List (String × ListenerId)) (ref : Ref (ListenerSpec Op)) :
    (c.resolveListener names ref).2.2.deviceListenerNames = c.deviceListenerNames ∧
      (c.resolveListener names ref).2.2.dataListenerNames = c.dataListenerNames := by
  cases ref with
  | fresh spec => exact ⟨rfl, rfl⟩
  | named name =>
      simp only [Cast.resolveListener]
      split <;> exact ⟨rfl, rfl⟩

theorem meets_resolveDevice (known : c.Acquainted) (ref : Ref (ListenerSpec Op)) :
    (c.resolveDeviceListener ref).2.meets (c.resolveDeviceListener ref).1 ∧ (c.resolveDeviceListener ref).2.Acquainted := by
  obtain ⟨own, names⟩ := meets_resolve known.device ref
  refine ⟨own, names, fun named member => ?_⟩
  have old : named ∈ c.dataListenerNames := (names_resolve c c.deviceListenerNames ref).2 ▸ member
  exact meets_more (specs_resolveListener c c.deviceListenerNames ref) (known.data named old)

theorem meets_resolveData (known : c.Acquainted) (ref : Ref (ListenerSpec Op)) :
    (c.resolveDataListener ref).2.meets (c.resolveDataListener ref).1 ∧ (c.resolveDataListener ref).2.Acquainted := by
  obtain ⟨own, names⟩ := meets_resolve known.data ref
  refine ⟨own, fun named member => ?_, names⟩
  have old : named ∈ c.deviceListenerNames := (names_resolve c c.dataListenerNames ref).1 ▸ member
  exact meets_more (specs_resolveListener c c.dataListenerNames ref) (known.device named old)

theorem Recast.acquainted (recast : Recast c job c') (known : c.Acquainted) : c'.Acquainted := by
  have more := recast.specs
  cases recast with
  | device op ref => exact (meets_resolveDevice known ref).2
  | data op ref => exact (meets_resolveData known ref).2
  | adapter op ref =>
      refine known.more more ?_ ?_
      all_goals
        unfold Cast.resolveAdapter
        repeat' split
        all_goals rfl
  | _ => exact known.more more rfl rfl

theorem meets_joins (known : x.machine.cast.Acquainted) (joins : x.joins side = some l) :
    (x.job.exec x.machine x.thread).1.cast.meets l := by
  unfold Moment.joins at joins
  split at joins
  · rename_i owned
    split at joins
    · rename_i ref same
      cases joins
      rw [same]
      simp only [Job.exec, Machine.perform, owned, if_true, Machine.performOwned]
      exact (meets_resolveDevice known ref).1
    · rename_i ref same
      cases joins
      rw [same]
      simp only [Job.exec, Machine.perform, owned, if_true, Machine.performOwned]
      exact (meets_resolveData known ref).1
    · cases joins
  · cases joins

theorem Run.acquainted (run : Run config hooks past m) :
    m.cast.Acquainted ∧ ∀ y ∈ past, ∀ side l, y.joins side = some l → m.cast.meets l := by
  refine Run.induct (G := fun _ => True)
    (P := fun past m => m.cast.Acquainted ∧ ∀ y ∈ past, ∀ side l, y.joins side = some l → m.cast.meets l)
    ?construct ?assemble ?call ?client ?carry ?unwind run fun _ _ => trivial
  case construct | assemble => exact ⟨⟨fun _ none => (by cases none), fun _ none => (by cases none)⟩, fun _ none => (by cases none)⟩
  case call => exact fun _ _ before _ => before
  case client => exact fun _ _ _ before => before
  case carry =>
    intro past m t job later _ before _ _ _ _
    refine ⟨(recast_exec m t job).acquainted before.1, fun y member side l joins => ?_⟩
    rcases List.mem_append.mp member with old | now
    · exact meets_more (specs_exec m t job) (before.2 y old side l joins)
    · cases List.mem_singleton.mp now
      exact meets_joins before.1 joins
  case unwind =>
    intro past m t later _ before _ _
    rw [cast_unwind]
    refine ⟨before.1, fun y member side l joins => ?_⟩
    rcases List.mem_append.mp member with old | now
    · exact before.2 y old side l joins
    · cases List.mem_singleton.mp now
      simp [Moment.joins] at joins

theorem Run.newcomer (run : Run config hooks past m) (side : Side) (spec : ListenerSpec Op) :
    (m.cast.enterListener spec).1 ∉ m.hub.audience side := by
  intro member
  rw [run.audience side] at member
  obtain ⟨front, y, back, rfl, joins, _⟩ := (mem_registered side).mp member
  have known := run.acquainted.2 y (List.mem_append_right _ (List.mem_cons_self ..)) side _ joins
  simp [Cast.meets, Cast.enterListener, Cast.specs] at known

-- A listener set tells its calls: what is left, what each call is answered, what a removal takes out and what it lets
-- be. The set of a lane tells the calls that its session made on it, from whatever threads, and no listener that
-- comes in anew is in it.
structure RegistrationsTold (calls : List Call) : Prop where
  snapshot : (after {} calls).snapshot = remaining calls
  answered : ∀ earlier c later, calls = earlier ++ c :: later → (answers {} calls)[earlier.length]? = some (rightAnswer earlier c)
  kept : ∀ more, answers {} calls <+: answers {} (calls ++ more)
  found : ∀ l, ((after {} calls).remove l).1 = true ↔ 0 < (remaining calls).count l
  gone : ∀ l, l ∉ ((after {} calls).remove l).2.snapshot
  order : ∀ l, ((after {} calls).remove l).2.snapshot.Sublist (remaining calls)
  others : ∀ k l, k ≠ l → ((after {} calls).remove l).2.snapshot.count k = (remaining calls).count k
  again : ∀ l, ((after {} calls).remove l).2.remove l = (false, ((after {} calls).remove l).2)
  swap : ∀ k l, k ≠ l → ((after {} calls).remove k).2.remove l =
    (((after {} calls).remove l).1, (((after {} calls).remove l).2.remove k).2)
  lanes : ∀ config hooks past m side, Run config hooks past m → registerCalls side past = calls →
    m.hub.audience side = remaining calls ∧ ∀ spec, (m.cast.enterListener spec).1 ∉ remaining calls

theorem registrations_told (calls : List Call) : RegistrationsTold calls where
  snapshot := remaining_eq calls
  answered := by
    rintro earlier c later rfl
    rw [answers_append, ← length_answers {} earlier, List.getElem?_append_right (Nat.le_refl _), Nat.sub_self]
    exact congrArg some (call_after earlier c)
  kept more := ⟨_, (answers_append {} calls more).symm⟩
  found l := by rw [found_remove, remaining_eq, List.count_pos_iff]
  gone l := remove_gone _ l
  order l := by
    rw [snapshot_remove, remaining_eq]
    exact List.filter_sublist
  others k l apart := by rw [count_remove _ apart, remaining_eq]
  again l := remove_unknown (remove_gone _ l)
  swap k l apart := Prod.ext (found_apart _ apart) (remove_swap _ k l)
  lanes config hooks past m side run made := by
    have audience : m.hub.audience side = remaining calls := by rw [run.audience side, registered_remaining, made]
    exact ⟨audience, fun spec => audience ▸ run.newcomer side spec⟩

-- Two listeners of one name that do the same. The name is that of the second, who registers twice and withdraws.
def twinSession : List Moment × Machine :=
  solo quietConfig [] [.removeDataListener (.named "a"), .addDataListener (.named "a"), .addDataListener (.fresh { name := "a" }),
    .addDataListener (.fresh { name := "a" })]

theorem registrations_of_twins :
    RegistrationsTold (registerCalls .data twinSession.1) ∧
      (∀ spec, (twinSession.2.cast.enterListener spec).1 ∉ remaining (registerCalls .data twinSession.1)) ∧
      registerCalls .data twinSession.1 = [.add ⟨0⟩, .add ⟨1⟩, .add ⟨1⟩, .remove ⟨1⟩] ∧
      answers {} [.add ⟨0⟩, .add ⟨1⟩, .add ⟨1⟩, .snapshot, .remove ⟨1⟩, .remove ⟨1⟩, .snapshot] =
        [.done, .done, .done, .copy [⟨0⟩, ⟨1⟩, ⟨1⟩], .found true, .found false, .copy [⟨0⟩]] ∧
      twinSession.2.hub.audience .data = [⟨0⟩] := by
  have told := registrations_told (registerCalls .data twinSession.1)
  refine ⟨told, (told.lanes _ _ _ _ .data (solo_run _ _ _) rfl).2, ?_⟩
  decide +kernel

end TransportHub
