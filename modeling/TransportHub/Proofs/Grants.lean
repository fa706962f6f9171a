import Mathlib.Data.List.Sort
import Mathlib.Data.List.TakeWhile
import TransportHub.Proofs.RegistryHistory
/-!
Grants: to whom the registry gives the start of an adapter. What it answers to a claim, to the end of a start and to a
removal follows from the calls made before, in whatever order and by whomever.
-/

set_option autoImplicit false

namespace TransportHub

namespace Registry

-- How far the start of each registered adapter has come.
def starts (r : Registry) : List (AdapterId × StartState) := r.entries.map fun e => (e.id, e.start)

namespace StartCall

def wants (id : AdapterId) : StartCall → Bool
  | begin i => i = id
  | beginAll => true
  | finish _ => false

def grants (r : Registry) : StartCall → List AdapterId
  | begin id => if (r.beginStart id).1.isSome then [id] else []
  | beginAll => r.beginStartAll.1.map (·.1)
  | finish _ => []

def finishes (id : AdapterId) : StartCall → Bool
  | finish i => i = id
  | _ => false

end StartCall

variable {r : Registry} {id : AdapterId} {call : StartCall} {s : StartState}

theorem ids_starts (r : Registry) : r.starts.map (·.1) = r.ids := by
  simp [starts, ids]

theorem mem_starts_ids (member : (id, s) ∈ r.starts) : id ∈ r.ids := ids_starts r ▸ List.mem_map_of_mem member

theorem starts_found {e : Entry} (found : r.find? id = some e) : (id, e.start) ∈ r.starts := by
  have same : e.id = id := by simpa using List.find?_some found
  exact same ▸ List.mem_map_of_mem (List.mem_of_find?_eq_some found)

theorem found_starts (distinct : r.ids.Nodup) (member : (id, s) ∈ r.starts) : ∃ e, r.find? id = some e ∧ e.start = s := by
  cases found : r.find? id with
  | none =>
      have known := (r.mem_ids_iff id).mp (mem_starts_ids member)
      rw [found] at known
      cases known
  | some e =>
      have first := starts_found found
      have alone := List.inj_on_of_nodup_map ((ids_starts r).symm ▸ distinct) first member rfl
      exact ⟨e, rfl, congrArg Prod.snd alone⟩

theorem begun_iff (distinct : r.ids.Nodup) : (r.beginStart id).1.isSome = true ↔ (id, .idle) ∈ r.starts := by
  constructor
  · intro begun
    unfold beginStart at begun
    split at begun
    · rename_i e found
      split at begun
      · rename_i idle
        exact idle ▸ starts_found found
      · cases begun
    · cases begun
  · intro member
    obtain ⟨e, found, idle⟩ := found_starts distinct member
    simp [beginStart, found, idle]

theorem mem_grants (distinct : r.ids.Nodup) : id ∈ call.grants r ↔ call.wants id = true ∧ (id, .idle) ∈ r.starts := by
  cases call with
  | begin i =>
      by_cases same : i = id
      · subst same
        rw [← begun_iff distinct]
        simp [StartCall.grants, StartCall.wants]
      · simp only [StartCall.grants, StartCall.wants, same, decide_false, Bool.false_eq_true, false_and, iff_false]
        split
        · simpa using Ne.symm same
        · exact List.not_mem_nil
  | beginAll => simp [StartCall.grants, StartCall.wants, beginStartAll, starts, and_comm, and_assoc]
  | finish i => simp [StartCall.grants, StartCall.wants]

theorem nodup_grants (distinct : r.ids.Nodup) (call : StartCall) : (call.grants r).Nodup := by
  cases call with
  | begin id =>
      simp only [StartCall.grants]
      split <;> simp
  | beginAll =>
      refine List.Nodup.sublist ?_ distinct
      simp only [StartCall.grants, beginStartAll, ids, List.map_map]
      exact List.filter_sublist.map _
  | finish id => exact List.nodup_nil

theorem starts_update (distinct : r.ids.Nodup) (id : AdapterId) (state : StartState) :
    (r.update id ({ · with start := state })).starts = r.starts.map fun p => (p.1, if p.1 = id then state else p.2) := by
  simp only [starts, update, revise_eq_map distinct, List.map_map]
  refine List.map_congr_left fun e _ => ?_
  by_cases here : e.id = id <;> simp [here]

theorem starts_applied (distinct : r.ids.Nodup) (call : StartCall) : (call.applied r).starts =
    r.starts.map fun p => (p.1, if call.finishes p.1 then .running else if p.1 ∈ call.grants r then .starting else p.2) := by
  cases call with
  | begin id =>
      cases begun : (r.beginStart id).1.isSome with
      | false =>
          have same : (r.beginStart id).2 = r := by
            unfold beginStart at begun ⊢
            split
            · split
              · rename_i found idle
                simp [found, idle] at begun
              · rfl
            · rfl
          simp [StartCall.applied, StartCall.finishes, StartCall.grants, begun, same]
      | true =>
          have same : (r.beginStart id).2 = r.update id ({ · with start := .starting }) := by
            obtain ⟨e, found, idle⟩ := found_starts distinct ((begun_iff distinct).mp begun)
            simp [beginStart, found, idle]
          simp [StartCall.applied, StartCall.finishes, StartCall.grants, begun, same, starts_update distinct]
  | beginAll =>
      have given : ∀ p ∈ r.starts, (p.1 ∈ StartCall.beginAll.grants r ↔ p.2 = .idle) := by
        intro p member
        rw [mem_grants distinct]
        constructor
        · rintro ⟨_, idle⟩
          exact congrArg Prod.snd (List.inj_on_of_nodup_map ((ids_starts r).symm ▸ distinct) member idle rfl)
        · exact fun idle => ⟨rfl, idle ▸ member⟩
      simp only [StartCall.finishes, Bool.false_eq_true, if_false]
      rw [List.map_congr_left fun p member => by rw [if_congr (given p member) rfl rfl]]
      simp only [StartCall.applied, beginStartAll, starts, List.map_map]
      refine List.map_congr_left fun e _ => ?_
      by_cases idle : e.start = .idle <;> simp [idle]
  | finish id =>
      simp only [StartCall.applied, finishStart, starts_update distinct, StartCall.finishes, StartCall.grants,
        List.not_mem_nil, if_false]
      exact List.map_congr_left fun p _ => by simp [eq_comm]

-- Once every start has been claimed there is none left.
theorem exhausted (r : Registry) (id : AdapterId) : (r.beginStartAll.2.beginStart id).1 = none := by
  unfold beginStart
  split
  · rename_i e found
    obtain ⟨old, _, rfl⟩ := List.mem_map.mp (List.mem_of_find?_eq_some found)
    by_cases idle : old.start = .idle <;> simp [idle]
  · rfl

theorem starts_revises {job : Job} (member : (id, s) ∈ (job.revises r).starts) :
    (id, s) ∈ r.starts ∨ (s = .idle ∧ ∃ deviceType adapter, job = .registry (.enrol id deviceType adapter)) := by
  cases job with
  | registry job =>
      cases job with
      | enrol i deviceType adapter =>
          simp only [Job.revises, enrol, starts, List.map_append, List.map_cons, List.map_nil, List.mem_append, List.mem_singleton,
            Prod.mk.injEq] at member
          rcases member with old | ⟨rfl, rfl⟩
          · exact .inl old
          · exact .inr ⟨rfl, deviceType, adapter, rfl⟩
      | withdraw i errand =>
          refine .inl (List.Sublist.subset ?_ member)
          exact List.eraseP_sublist.map _
      | store i devices =>
          have same : (r.replaceDevices i devices).2.starts = r.starts := by
            refine map_revise ?_ i r.entries
            exact fun _ => rfl
          exact .inl (same ▸ member)
      | reserve | replace => exact .inl member
  | _ => exact .inl member

end Registry

open Registry (Call StartCall since registered origin)

variable {config : Config} {hooks : List Hook} {past before rest : List Moment} {m : Machine} {t : ThreadId} {job : Job}
  {later : List Job} {id : AdapterId} {s : StartState} {x y : Moment}

namespace Moment

def startCall (x : Moment) : Option StartCall := x.job.startCall x.machine.hub

def grants (x : Moment) : List AdapterId := x.startCall.elim [] (·.grants x.machine.hub.registry)

def finishes (id : AdapterId) (x : Moment) : Bool := x.startCall.any (·.finishes id)

def enters (id : AdapterId) (x : Moment) : Bool := x.registryCall.any (·.registers id)

def unregisters (id : AdapterId) (x : Moment) : Bool := x.registryCall.any (·.unregisters id)

end Moment

-- The starts given so far, in the order in which they were.
def granted (past : List Moment) : List AdapterId := past.flatMap Moment.grants

-- The end of the start has been reported since the adapter was registered.
def finished (id : AdapterId) (past : List Moment) : Bool := (past.dropWhile (!·.enters id)).any (·.finishes id)

def claimable (past : List Moment) (id : AdapterId) : Bool := !decide (id ∈ granted past) && !finished id past

def startState (past : List Moment) (id : AdapterId) : StartState :=
  if finished id past then .running else if id ∈ granted past then .starting else .idle

def enrolled (past : List Moment) : List AdapterId :=
  (registryCalls past).filterMap fun call => match call with
    | .register id .. => some id
    | _ => none

theorem startState_idle : startState past id = .idle ↔ claimable past id = true := by
  unfold startState claimable
  cases finished id past <;> by_cases given : id ∈ granted past <;> simp [given]

theorem startState_starting : startState past id = .starting ↔ id ∈ granted past ∧ finished id past = false := by
  unfold startState
  cases finished id past <;> by_cases given : id ∈ granted past <;> simp [given]

theorem granted_snoc : granted (past ++ [x]) = granted past ++ x.grants := by
  simp [granted]

theorem known_iff : since id (registryCalls past) ≠ [] ↔ ∃ x ∈ past, x.enters id = true := by
  have empty : since id (registryCalls past) = [] ↔ ∀ x ∈ past, x.enters id = false := by
    simp only [since, List.dropWhile_eq_nil_iff, registryCalls, List.mem_filterMap, Bool.not_eq_true', Moment.enters]
    constructor
    · intro none x member
      cases takes : x.registryCall with
      | none => rfl
      | some call => exact none call ⟨x, member, takes⟩
    · rintro none call ⟨x, member, takes⟩
      have here := none x member
      rwa [takes] at here
  simp [empty]

theorem dropWhile_known : past.dropWhile (!·.enters id) ≠ [] ↔ since id (registryCalls past) ≠ [] := by
  simp [known_iff, List.dropWhile_eq_nil_iff]

theorem finished_append (known : since id (registryCalls past) ≠ []) : finished id (past ++ rest) =
    (finished id past || rest.any (·.finishes id)) := by
  have some := dropWhile_known.mpr known
  unfold finished
  rw [List.dropWhile_append, if_neg (by simpa using some), List.any_append]

theorem finished_snoc (known : since id (registryCalls past) ≠ []) :
    finished id (past ++ [x]) = (finished id past || x.finishes id) := by
  simp [finished_append known]

theorem finished_fresh (unknown : since id (registryCalls past) = []) (quiet : x.finishes id = false) :
    finished id (past ++ [x]) = false := by
  have none : past.dropWhile (!·.enters id) = [] := Classical.byContradiction fun some => dropWhile_known.mp some unknown
  rw [finished, List.dropWhile_append, none]
  cases here : x.enters id <;> simp [here, quiet]

theorem startState_snoc (known : since id (registryCalls past) ≠ []) : startState (past ++ [x]) id =
    if x.finishes id then .running else if id ∈ x.grants ∧ startState past id = .idle then .starting else startState past id := by
  rw [startState, finished_snoc known, granted_snoc]
  by_cases ends : x.finishes id = true
  · simp [ends]
  by_cases given : id ∈ x.grants <;> cases ended : finished id past <;> by_cases old : id ∈ granted past <;>
    simp [startState, ends, given, ended, old]

theorem enters_job (enters : x.enters id = true) : ∃ deviceType adapter, x.job = .registry (.enrol id deviceType adapter) := by
  obtain ⟨m, t, job, later⟩ := x
  cases job with
  | registry job =>
      cases job with
      | enrol i deviceType adapter =>
          obtain rfl : i = id := by simpa [Moment.enters, Moment.registryCall, Call.registers] using enters
          exact ⟨deviceType, adapter, rfl⟩
      | replace =>
          simp only [Moment.enters, Moment.registryCall] at enters
          split at enters <;> cases enters
      | _ => cases enters
  | _ => cases enters

theorem mem_enrolled : id ∈ enrolled past ↔ since id (registryCalls past) ≠ [] := by
  rw [known_iff]
  simp only [enrolled, registryCalls, List.filterMap_filterMap, List.mem_filterMap, Moment.enters]
  refine exists_congr fun x => and_congr_right fun _ => ?_
  cases takes : x.registryCall with
  | none => simp
  | some call => cases call <;> simp [Call.registers]

theorem enrolled_snoc (past : List Moment) (x : Moment) : enrolled (past ++ [x]) = enrolled past ∨
    ∃ id, x.enters id = true ∧ enrolled (past ++ [x]) = enrolled past ++ [id] := by
  rw [enrolled, registryCalls_snoc, List.filterMap_append]
  cases takes : x.registryCall with
  | none => exact .inl (List.append_nil _)
  | some call =>
      cases call with
      | register id deviceType adapter => exact .inr ⟨id, by simp [Moment.enters, takes, Call.registers], rfl⟩
      | unregister | replace => exact .inl (List.append_nil _)

theorem grants_idle (distinct : x.machine.hub.registry.ids.Nodup) (given : id ∈ x.grants) :
    (id, .idle) ∈ x.machine.hub.registry.starts := by
  unfold Moment.grants at given
  cases made : x.startCall with
  | none => simp [made] at given
  | some call =>
      rw [made] at given
      exact ((Registry.mem_grants distinct).mp given).2

structure Granting (past : List Moment) (m : Machine) : Prop where
  starts : ∀ id s, (id, s) ∈ m.hub.registry.starts → s = startState past id
  entered : ∀ id ∈ granted past, since id (registryCalls past) ≠ []
  once : (granted past).Nodup
  ascending : (enrolled past).Pairwise fun a b => a.val < b.val

theorem nodup_momentGrants (distinct : x.machine.hub.registry.ids.Nodup) : x.grants.Nodup := by
  unfold Moment.grants
  cases x.startCall with
  | none => exact List.nodup_nil
  | some call => exact Registry.nodup_grants distinct call

theorem Recorded.starts_known (recorded : Recorded past m) (member : (id, s) ∈ m.hub.registry.starts) :
    since id (registryCalls past) ≠ [] :=
  Registry.registered_known ((recorded.historic.member id).mp (Registry.mem_starts_ids member))

theorem Granting.called (held : Granting past m) (recorded : Recorded past m) {call : StartCall}
    (made : job.startCall m.hub = some call) (member : (id, s) ∈ (call.applied m.hub.registry).starts) :
    s = startState (past ++ [⟨m, t, job, later⟩]) id := by
  have distinct : m.hub.registry.ids.Nodup := recorded.historic.nodup
  have gives : Moment.grants ⟨m, t, job, later⟩ = call.grants m.hub.registry := by simp [Moment.grants, Moment.startCall, made]
  have reports : Moment.finishes id ⟨m, t, job, later⟩ = call.finishes id := by simp [Moment.finishes, Moment.startCall, made]
  rw [Registry.starts_applied distinct] at member
  obtain ⟨⟨other, before⟩, old, same⟩ := List.mem_map.mp member
  simp only [Prod.mk.injEq] at same
  obtain ⟨rfl, rfl⟩ := same
  rw [startState_snoc (recorded.starts_known old), reports, gives, held.starts other before old]
  by_cases given : other ∈ call.grants m.hub.registry
  · have free := held.starts other .idle (((Registry.mem_grants distinct).mp given).2)
    simp [given, free.symm]
  · simp [given]

theorem Granting.revised (held : Granting past m) (recorded : Recorded past m) (agenda : m.agenda t = job :: later)
    (made : job.startCall m.hub = none) (member : (id, s) ∈ (job.revises m.hub.registry).starts) :
    s = startState (past ++ [⟨m, t, job, later⟩]) id := by
  have gives : Moment.grants ⟨m, t, job, later⟩ = [] := by simp [Moment.grants, Moment.startCall, made]
  have quiet : Moment.finishes id ⟨m, t, job, later⟩ = false := by simp [Moment.finishes, Moment.startCall, made]
  rcases Registry.starts_revises member with old | ⟨rfl, deviceType, adapter, rfl⟩
  · simp [startState_snoc (recorded.starts_known old), quiet, gives, held.starts id s old]
  · obtain ⟨_, _, last⟩ := recorded.pending t id deviceType adapter (agenda ▸ List.mem_cons_self ..)
    have unknown : since id (registryCalls past) = [] := Classical.byContradiction fun known => Nat.lt_irrefl _ (last id known)
    have ungiven : id ∉ granted past := fun given => held.entered id given unknown
    refine (startState_idle.mpr ?_).symm
    simp [claimable, granted_snoc, gives, ungiven, finished_fresh unknown quiet]

theorem Granting.enrols (held : Granting past m) (recorded : Recorded past m) (agenda : m.agenda t = job :: later) :
    (enrolled (past ++ [⟨m, t, job, later⟩])).Pairwise fun a b => a.val < b.val := by
  rcases enrolled_snoc past ⟨m, t, job, later⟩ with same | ⟨id, enters, same⟩
  · rw [same]
    exact held.ascending
  · obtain ⟨deviceType, adapter, rfl⟩ := enters_job enters
    obtain ⟨_, _, last⟩ := recorded.pending t id deviceType adapter (agenda ▸ List.mem_cons_self ..)
    rw [same]
    refine List.pairwise_append.mpr ⟨held.ascending, List.pairwise_singleton _ _, fun a old b new => ?_⟩
    rw [List.mem_singleton.mp new]
    exact last a (mem_enrolled.mp old)

theorem Granting.carry (held : Granting past m) (recorded : Recorded past m) (agenda : m.agenda t = job :: later) :
    Granting (past ++ [⟨m, t, job, later⟩]) (m.carry t job later) := by
  have distinct : m.hub.registry.ids.Nodup := recorded.historic.nodup
  have idle : ∀ {id}, id ∈ Moment.grants ⟨m, t, job, later⟩ → (id, .idle) ∈ m.hub.registry.starts := grants_idle distinct
  refine ⟨fun id s member => ?_, fun id given => ?_, ?_, held.enrols recorded agenda⟩
  · rw [hub_carry, registry_exec] at member
    cases made : job.startCall m.hub with
    | none =>
        rw [made] at member
        exact held.revised recorded agenda made member
    | some call =>
        rw [made] at member
        exact held.called recorded made member
  · rw [granted_snoc, List.mem_append] at given
    rw [known_iff, seen_snoc, ← known_iff]
    exact .inl (given.elim (held.entered id) fun given => recorded.starts_known (idle given))
  · rw [granted_snoc]
    refine List.nodup_append'.mpr ⟨held.once, nodup_momentGrants distinct, fun id old new => ?_⟩
    have same := held.starts id .idle (idle new)
    have free := startState_idle.mp same.symm
    simp [claimable, old] at free

theorem Run.granting (run : Run config hooks past m) (counted : ∀ x ∈ past, x.counted) : Granting past m := by
  refine Run.induct_all (G := Moment.counted) (P := Granting) ?construct ?assemble ?call ?client ?carry ?unwind run counted
  case construct | assemble => exact ⟨fun _ _ none => (by cases none), fun _ none => (by cases none), .nil, .nil⟩
  case call => exact fun _ _ held _ => ⟨held.starts, held.entered, held.once, held.ascending⟩
  case client => exact fun _ _ _ held => ⟨held.starts, held.entered, held.once, held.ascending⟩
  case carry => exact fun run held agenda _ _ old _ => held.carry (run.recorded old) agenda
  case unwind =>
    intro past m t later run held agenda old _
    have gives : granted (past ++ [⟨m, t, .panic, later⟩]) = granted past := granted_snoc.trans (List.append_nil _)
    have enters : enrolled (past ++ [⟨m, t, .panic, later⟩]) = enrolled past := by
      rcases enrolled_snoc past ⟨m, t, .panic, later⟩ with same | ⟨id, enters, _⟩
      · exact same
      · cases enters
    have calls : registryCalls (past ++ [⟨m, t, .panic, later⟩]) = registryCalls past := by
      rw [registryCalls_snoc]
      exact List.append_nil _
    refine ⟨fun id s member => ?_, ?_, ?_, ?_⟩
    · rw [registry_unwind] at member
      rw [startState_snoc ((run.recorded old).starts_known member), held.starts id s member]
      simp [Moment.finishes, Moment.grants, Moment.startCall, Job.startCall]
    · rw [gives, calls]
      exact held.entered
    · rw [gives]
      exact held.once
    · rw [enters]
      exact held.ascending

theorem Run.claimed (run : Run config hooks past m) (counted : ∀ x ∈ past, x.counted) (start : before ++ [x] <+: past)
    (given : id ∈ x.grants) :
    registered id (registryCalls before) = true ∧ claimable before id = true := by
  have reached := (run.before start).1
  have old : ∀ y ∈ before, y.counted := fun y member => counted y (start.subset (List.mem_append_left _ member))
  have historic := (reached.recorded old).historic
  have idle := grants_idle historic.nodup given
  have same := (reached.granting old).starts id .idle idle
  exact ⟨(historic.member id).mp (Registry.mem_starts_ids idle), startState_idle.mp same.symm⟩

theorem removed_append (known : since id (registryCalls past) ≠ []) (gone : registered id (registryCalls past) = false) :
    registered id (registryCalls (past ++ rest)) = false := by
  have some : (since id (registryCalls past)).any (·.unregisters id) = true := by simpa [registered, known] using gone
  unfold registered since at *
  rw [registryCalls, List.filterMap_append, ← registryCalls, List.dropWhile_append, if_neg (by simpa using known),
    List.any_append, some]
  simp

theorem Run.given_once (run : Run config hooks past m) (counted : ∀ x ∈ past, x.counted) (split : past = before ++ x :: rest)
    (known : registered id (registryCalls before) = true) (closes : x.finishes id = true ∨ x.unregisters id = true) :
    id ∉ granted rest := by
  intro given
  obtain ⟨y, member, here⟩ := List.mem_flatMap.mp given
  obtain ⟨between, after, rfl⟩ := List.append_of_mem member
  have start : (before ++ [x] ++ between) ++ [y] <+: past := ⟨after, by simp [split]⟩
  obtain ⟨here, free⟩ := run.claimed counted start here
  have old := Registry.registered_known known
  have known' : since id (registryCalls (before ++ [x])) ≠ [] := by
    rw [known_iff] at old ⊢
    exact seen_before old
  rcases closes with ends | removes
  · have ended : finished id (before ++ [x]) = true := by rw [finished_snoc old, ends, Bool.or_true]
    rw [claimable, finished_append known', ended] at free
    simp at free
  · have gone : registered id (registryCalls (before ++ [x])) = false := by
      rw [registryCalls_snoc]
      unfold Moment.unregisters at removes
      cases takes : x.registryCall with
      | none => simp [takes] at removes
      | some call =>
          rw [takes] at removes
          simpa [Registry.registered_snoc old] using fun _ => removes
    rw [removed_append known' gone] at here
    cases here

-- Whoever is given the start of an adapter, and whatever the registry answers, follows from the calls made before.
structure StartsTold (past : List Moment) (m : Machine) : Prop where
  once : (granted past).Nodup
  closed : ∀ before x since id, past = before ++ x :: since → registered id (registryCalls before) = true →
    (x.finishes id = true ∨ x.unregisters id = true) → id ∉ granted since
  order : m.hub.registry.adapters.map (·.1) = (enrolled past).filter (registered · (registryCalls past))
  begun : ∀ id, (m.hub.registry.beginStart id).1 =
    if registered id (registryCalls past) && claimable past id then (origin id (registryCalls past)).map (·.2) else none
  all : m.hub.registry.beginStartAll.1 = m.hub.registry.adapters.filter fun a => claimable past a.1
  exhausted : ∀ id, (m.hub.registry.beginStartAll.2.beginStart id).1 = none
  finish : ∀ id, (m.hub.registry.finishStart id).1 = registered id (registryCalls past)
  removed : ∀ id, (m.hub.registry.unregister id).1.map (·.starting) =
    if registered id (registryCalls past) then some (decide (id ∈ granted past) && !finished id past) else none

theorem Run.enrolled_registered (run : Run config hooks past m) (counted : ∀ x ∈ past, x.counted) :
    m.hub.registry.ids = (enrolled past).filter (registered · (registryCalls past)) := by
  obtain ⟨historic, _⟩ := run.recorded counted
  have irrefl : Std.Irrefl fun a b : AdapterId => a.val < b.val := ⟨fun a => Nat.lt_irrefl _⟩
  have antisymm : Std.Antisymm fun a b : AdapterId => a.val < b.val := ⟨fun a b less more => absurd less (Nat.lt_asymm more)⟩
  refine List.Pairwise.eq_of_mem_iff historic.ascending ((run.granting counted).ascending.filter _) fun id => ?_
  rw [historic.member, List.mem_filter, mem_enrolled]
  exact ⟨fun here => ⟨Registry.registered_known here, here⟩, And.right⟩

theorem starts_told (run : Run config hooks past m) (few : (issued past).length < UInt32.size) : StartsTold past m := by
  have counted := run.counted few
  obtain ⟨historic, _⟩ := run.recorded counted
  obtain ⟨starts, _, once, _⟩ := run.granting counted
  have found : ∀ id, (m.hub.registry.find? id).isSome = registered id (registryCalls past) := fun id =>
    Bool.eq_iff_iff.mpr ((m.hub.registry.mem_ids_iff id).symm.trans (historic.member id))
  refine ⟨once, fun _ _ _ _ split => run.given_once counted split, ?_, fun id => ?_, ?_, m.hub.registry.exhausted,
    found, fun id => ?_⟩
  · rw [historic.adapters.1]
    exact run.enrolled_registered counted
  · rw [← found id]
    unfold Registry.beginStart
    split
    · rename_i e here
      have same : e.id = id := by simpa using List.find?_some here
      have entry := (historic.entry e (List.mem_of_find?_eq_some here)).1
      have idle : e.start = .idle ↔ claimable past id = true := starts id e.start (Registry.starts_found here) ▸ startState_idle
      rw [← same, entry, same, here]
      by_cases free : claimable past id = true <;> simp [idle, free]
    · rename_i none
      rw [none]
      rfl
  · simp only [Registry.beginStartAll, Registry.adapters, List.filter_map]
    refine congrArg _ (List.filter_congr fun e member => ?_)
    have idle : e.start = .idle ↔ claimable past e.id = true := starts e.id e.start (List.mem_map_of_mem member) ▸ startState_idle
    simp [idle]
  · rw [← found id]
    cases here : m.hub.registry.find? id with
    | none => simp [Registry.unregister, here]
    | some e =>
        have starting : e.start = .starting ↔ id ∈ granted past ∧ finished id past = false :=
          starts id e.start (Registry.starts_found here) ▸ startState_starting
        simp [Registry.unregister, here, starting]

-- Starts claimed one by one and all at once, one reported before it was claimed, and one claimed by an adapter that
-- is removed meanwhile.
def startsSession : List Moment × Machine :=
  solo quietConfig [] [.registry .beginStartAll, .registry (.beginStart ⟨1⟩), .registry (.finishStart ⟨1⟩), .register (.named "b"),
    .registry (.unregister ⟨1⟩), .registry (.finishStart ⟨2⟩), .registry (.beginStart ⟨3⟩), .registry .beginStartAll,
    .registry (.finishStart ⟨3⟩), .registry (.beginStart ⟨2⟩), .registry (.beginStart ⟨2⟩), .register (.named "c"),
    .register (.named "b"), .register (.named "a")]

theorem starts_of_four : StartsTold startsSession.1 startsSession.2 ∧ granted startsSession.1 = [⟨2⟩, ⟨1⟩, ⟨4⟩] ∧
    enrolled startsSession.1 = [⟨1⟩, ⟨2⟩, ⟨3⟩, ⟨4⟩] ∧ startsSession.2.hub.registry.ids = [⟨2⟩, ⟨3⟩, ⟨4⟩] ∧
    finished ⟨2⟩ startsSession.1 = true ∧ finished ⟨3⟩ startsSession.1 = true ∧ finished ⟨4⟩ startsSession.1 = false := by
  refine ⟨starts_told (solo_run _ _ _) (by decide +kernel), ?_⟩
  decide +kernel

end TransportHub
