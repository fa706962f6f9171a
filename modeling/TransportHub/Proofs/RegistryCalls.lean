import TransportHub.Registry
/-!
What a registry comes to by the calls made on it, in the order in which they take effect: who is registered, and
what each adapter lists.
-/

set_option autoImplicit false

namespace TransportHub

namespace Registry

inductive Call where
  | register (id : AdapterId) (deviceType : String) (adapter : AdapterKey)
  | unregister (id : AdapterId)
  | replace (id : AdapterId) (devices : List DiscoveredDevice)

namespace Call

def registers (id : AdapterId) : Call → Bool
  | register i .. => i = id
  | _ => false

def unregisters (id : AdapterId) : Call → Bool
  | unregister i => i = id
  | _ => false

def list? (id : AdapterId) : Call → Option (List DiscoveredDevice)
  | replace i devices => if i = id then some devices else none
  | _ => none

end Call

inductive StartCall where
  | begin (id : AdapterId)
  | beginAll
  | finish (id : AdapterId)

def StartCall.applied (r : Registry) : StartCall → Registry
  | begin id => (r.beginStart id).2
  | beginAll => r.beginStartAll.2
  | finish id => (r.finishStart id).2

-- The registration of an id and the calls after it.
def since (id : AdapterId) (calls : List Call) : List Call := calls.dropWhile (!·.registers id)

def registered (id : AdapterId) (calls : List Call) : Bool :=
  !(since id calls).isEmpty && !(since id calls).any (·.unregisters id)

-- The transport type captured at the registration, and the adapter registered.
def origin (id : AdapterId) (calls : List Call) : Option (String × AdapterKey) :=
  match since id calls with
  | .register _ deviceType adapter :: _ => some (deviceType, adapter)
  | _ => none

-- The last list that was given for an id since its registration.
def listed (id : AdapterId) (calls : List Call) : List DiscoveredDevice :=
  ((since id calls).filterMap (Call.list? id)).getLastD []

variable {id other : AdapterId} {calls : List Call} {call : Call} {r r' : Registry} {deviceType : String} {adapter : AdapterKey}
  {devices : List DiscoveredDevice}

theorem since_known (known : since id calls ≠ []) (call : Call) : since id (calls ++ [call]) = since id calls ++ [call] := by
  unfold since at *
  rw [List.dropWhile_append, if_neg (by simpa using known)]

theorem since_unknown (unknown : since id calls = []) (call : Call) :
    since id (calls ++ [call]) = if call.registers id then [call] else [] := by
  unfold since at *
  rw [List.dropWhile_append, if_pos (by simpa using unknown)]
  cases here : call.registers id <;> simp [here]

theorem since_head (known : since id calls ≠ []) :
    ∃ deviceType adapter rest, since id calls = .register id deviceType adapter :: rest := by
  induction calls with
  | nil => exact absurd rfl known
  | cons call rest ih =>
      cases here : call.registers id with
      | false =>
          have same : since id (call :: rest) = since id rest := List.dropWhile_cons_of_pos (by simp [here])
          rw [same] at known ⊢
          exact ih known
      | true =>
          have same : since id (call :: rest) = call :: rest := List.dropWhile_cons_of_neg (by simp [here])
          cases call with
          | register i deviceType adapter =>
              have own : i = id := of_decide_eq_true here
              exact ⟨deviceType, adapter, rest, by rw [same, own]⟩
          | unregister | replace => cases here

theorem known_snoc : since id (calls ++ [call]) ≠ [] ↔ since id calls ≠ [] ∨ call.registers id = true := by
  by_cases known : since id calls = []
  · rw [since_unknown known]
    cases call.registers id <;> simp [known]
  · rw [since_known known]
    simp [known]

theorem registered_unknown (unknown : since id calls = []) : registered id calls = false := by
  simp [registered, unknown]

theorem registered_known (here : registered id calls = true) : since id calls ≠ [] := by
  intro none
  rw [registered_unknown none] at here
  cases here

theorem registered_snoc (known : since id calls ≠ []) :
    registered id (calls ++ [call]) = (registered id calls && !call.unregisters id) := by
  unfold registered
  rw [since_known known]
  cases same : since id calls with
  | nil => exact absurd same known
  | cons first rest => simp [Bool.and_assoc]

theorem origin_snoc (known : since id calls ≠ []) : origin id (calls ++ [call]) = origin id calls := by
  obtain ⟨deviceType, adapter, rest, same⟩ := since_head known
  unfold origin
  rw [since_known known, same]
  rfl

theorem listed_snoc (known : since id calls ≠ []) :
    listed id (calls ++ [call]) = (call.list? id).getD (listed id calls) := by
  unfold listed
  rw [since_known known, List.filterMap_append]
  cases given : call.list? id with
  | none => simp [given]
  | some devices => simp [given]

structure Historic (calls : List Call) (r : Registry) : Prop where
  ascending : r.ids.Pairwise fun a b => a.val < b.val
  member : ∀ id, id ∈ r.ids ↔ registered id calls = true
  entry : ∀ e ∈ r.entries, origin e.id calls = some (e.deviceType, e.adapter) ∧ e.devices = listed e.id calls
  spent : ∀ id, since id calls ≠ [] → id.val ≤ r.lastId.toNat

def Entry.bare (e : Entry) : Entry := { e with start := .idle }

structure Alike (r r' : Registry) : Prop where
  lastId : r'.lastId = r.lastId
  entries : r'.entries.map Entry.bare = r.entries.map Entry.bare

theorem Alike.rfl (r : Registry) : r.Alike r := ⟨Eq.refl _, Eq.refl _⟩

theorem Alike.ids (alike : r.Alike r') : r'.ids = r.ids := by
  have same := congrArg (List.map (·.id)) alike.entries
  simp only [List.map_map, Function.comp_def, Entry.bare] at same
  exact same

theorem Alike.aggregate (alike : r.Alike r') : r'.aggregate = r.aggregate := by
  have same := congrArg (List.flatMap fun e : Entry => e.devices.map (·.tagged e.deviceType)) alike.entries
  simp only [List.flatMap_map, Entry.bare] at same
  exact same

theorem Alike.entry (alike : r.Alike r') {e : Entry} (member : e ∈ r'.entries) : ∃ old ∈ r.entries, old.bare = e.bare := by
  have bare : e.bare ∈ r.entries.map Entry.bare := alike.entries ▸ List.mem_map_of_mem member
  simpa only [List.mem_map] using bare

theorem alike_update {change : Entry → Entry} (bare : ∀ e, (change e).bare = e.bare) : r.Alike (r.update id change) := by
  exact ⟨Eq.refl _, map_revise bare id r.entries⟩

theorem alike_beginStart (r : Registry) (id : AdapterId) : r.Alike (r.beginStart id).2 := by
  unfold beginStart
  split
  · split
    · exact alike_update fun _ => Eq.refl _
    · exact Alike.rfl r
  · exact Alike.rfl r

theorem alike_beginStartAll (r : Registry) : r.Alike r.beginStartAll.2 := by
  refine ⟨Eq.refl _, ?_⟩
  simp only [beginStartAll, List.map_map]
  refine List.map_congr_left fun e _ => ?_
  by_cases idle : e.start = .idle <;> simp [idle, Entry.bare]

theorem alike_finishStart (r : Registry) (id : AdapterId) : r.Alike (r.finishStart id).2 :=
  alike_update fun _ => Eq.refl _

theorem alike_applied (r : Registry) (call : StartCall) : r.Alike (call.applied r) := by
  cases call with
  | begin id => exact alike_beginStart r id
  | beginAll => exact alike_beginStartAll r
  | finish id => exact alike_finishStart r id

theorem Historic.alike (historic : Historic calls r) (alike : r.Alike r') : Historic calls r' where
  ascending := by
    rw [alike.ids]
    exact historic.ascending
  member id := by
    rw [alike.ids]
    exact historic.member id
  entry e member := by
    obtain ⟨old, known, same⟩ := alike.entry member
    obtain ⟨origin, listed⟩ := historic.entry old known
    simp only [Entry.bare, Entry.mk.injEq] at same
    obtain ⟨id, deviceType, adapter, devices, _⟩ := same
    rw [← id, ← deviceType, ← adapter, ← devices]
    exact ⟨origin, listed⟩
  spent id known := by
    rw [alike.lastId]
    exact historic.spent id known

theorem Historic.known (historic : Historic calls r) {e : Entry} (member : e ∈ r.entries) : since e.id calls ≠ [] :=
  registered_known ((historic.member e.id).mp (List.mem_map_of_mem member))

theorem Historic.nodup (historic : Historic calls r) : r.ids.Nodup :=
  historic.ascending.imp fun less same => Nat.ne_of_lt less (congrArg AdapterId.val same)

theorem lastId_reserve (within : r.lastId.toNat + 1 < UInt32.size) : r.reserve.lastId.toNat = r.lastId.toNat + 1 :=
  (UInt32.toNat_add r.lastId 1).trans (Nat.mod_eq_of_lt within)

theorem Historic.reserve (historic : Historic calls r) (within : r.lastId.toNat + 1 < UInt32.size) : Historic calls r.reserve where
  ascending := historic.ascending
  member := historic.member
  entry := historic.entry
  spent id known := by
    rw [lastId_reserve within]
    exact Nat.le_succ_of_le (historic.spent id known)

theorem Historic.enrol (historic : Historic calls r) (spent : id.val ≤ r.lastId.toNat)
    (last : ∀ other, since other calls ≠ [] → other.val < id.val) :
    Historic (calls ++ [.register id deviceType adapter]) (r.enrol id deviceType adapter) := by
  have unknown : since id calls = [] := Classical.byContradiction fun known => Nat.lt_irrefl _ (last id known)
  have old : ∀ {other}, since other calls ≠ [] → other ≠ id := fun known same => known (same ▸ unknown)
  constructor
  · rw [ids_enrol]
    refine List.pairwise_append.mpr ⟨historic.ascending, List.pairwise_singleton _ _, fun a member b new => ?_⟩
    rw [List.mem_singleton.mp new]
    exact last a (registered_known ((historic.member a).mp member))
  · intro other
    rw [ids_enrol, List.mem_append, List.mem_singleton, historic.member other]
    by_cases known : since other calls = []
    · rw [registered_unknown known]
      by_cases same : other = id
      · subst same
        simp [registered, since_unknown known, Call.registers, Call.unregisters]
      · have none : since other (calls ++ [.register id deviceType adapter]) = [] := by
          simp [since_unknown known, Call.registers, Ne.symm same]
        simp [registered_unknown none, same]
    · rw [registered_snoc known]
      simp [Call.unregisters, old known]
  · intro e member
    rcases List.mem_append.mp member with before | new
    · have known := historic.known before
      rw [origin_snoc known, listed_snoc known]
      exact historic.entry e before
    · rw [List.mem_singleton.mp new]
      simp [origin, listed, since_unknown unknown, Call.registers, Call.list?]
  · intro other known
    rcases known_snoc.mp known with before | here
    · exact historic.spent other before
    · rw [← show id = other from of_decide_eq_true here]
      exact spent

theorem Historic.unregister (historic : Historic calls r) (id : AdapterId) :
    Historic (calls ++ [.unregister id]) (r.unregister id).2 := by
  constructor
  · rw [ids_unregister]
    exact historic.ascending.sublist List.erase_sublist
  · intro other
    rw [ids_unregister, historic.nodup.mem_erase_iff, historic.member other]
    by_cases known : since other calls = []
    · have none : since other (calls ++ [.unregister id]) = [] := since_unknown known _
      simp [registered_unknown known, registered_unknown none]
    · rw [registered_snoc known]
      simp only [Call.unregisters, Bool.and_eq_true, Bool.not_eq_true', decide_eq_false_iff_not]
      exact and_comm.trans (and_congr_right fun _ => ne_comm)
  · intro e member
    have before : e ∈ r.entries := List.mem_of_mem_eraseP member
    have known := historic.known before
    rw [origin_snoc known, listed_snoc known]
    exact historic.entry e before
  · intro other known
    exact historic.spent other ((known_snoc.mp known).resolve_right fun none => by cases none)

theorem Historic.replace (historic : Historic calls r) (id : AdapterId) (devices : List DiscoveredDevice) :
    Historic (calls ++ [.replace id devices]) (r.replaceDevices id devices).2 := by
  constructor
  · rw [ids_replaceDevices]
    exact historic.ascending
  · intro other
    rw [ids_replaceDevices, historic.member other]
    by_cases known : since other calls = []
    · have none : since other (calls ++ [.replace id devices]) = [] := since_unknown known _
      simp [registered_unknown known, registered_unknown none]
    · rw [registered_snoc known]
      simp [Call.unregisters]
  · intro e member
    simp only [replaceDevices, update, revise_eq_map historic.nodup] at member
    obtain ⟨old, before, same⟩ := List.mem_map.mp member
    have known := historic.known before
    obtain ⟨origin, listed⟩ := historic.entry old before
    by_cases here : old.id = id
    · rw [if_pos here] at same
      subst same
      rw [origin_snoc known, listed_snoc known]
      exact ⟨origin, by simp [Call.list?, here]⟩
    · rw [if_neg here] at same
      subst same
      rw [origin_snoc known, listed_snoc known]
      exact ⟨origin, by simpa [Call.list?, Ne.symm here] using listed⟩
  · intro other known
    exact historic.spent other ((known_snoc.mp known).resolve_right fun none => by cases none)

theorem replaceDevices_unknown (unknown : r.find? id = none) (devices : List DiscoveredDevice) :
    (r.replaceDevices id devices).2 = r := by
  have absent : ∀ e ∈ r.entries, e.id ≠ id := by simpa [find?] using unknown
  simp only [replaceDevices, update, revise_of_ne absent]

theorem unregister_unknown (unknown : r.find? id = none) : (r.unregister id).2 = r := by
  have absent : ∀ e ∈ r.entries, e.id ≠ id := by simpa [find?] using unknown
  simp only [Registry.unregister]
  congr
  exact List.eraseP_of_forall_not fun e member here => absent e member (of_decide_eq_true here)

def captured (id : AdapterId) (calls : List Call) : String := (origin id calls).elim "" (·.1)

theorem Historic.aggregate (historic : Historic calls r) :
    r.aggregate = r.ids.flatMap fun id => (listed id calls).map (·.tagged (captured id calls)) := by
  simp only [Registry.aggregate, Registry.ids, List.flatMap_def, List.map_map]
  refine congrArg _ (List.map_congr_left fun e member => ?_)
  obtain ⟨origin, listed⟩ := historic.entry e member
  simp only [Function.comp_apply, captured, origin, listed, Option.elim_some]

theorem Historic.adapters (historic : Historic calls r) :
    r.adapters.map (·.1) = r.ids ∧ ∀ a ∈ r.adapters, (origin a.1 calls).map (·.2) = some a.2 := by
  refine ⟨by simp [Registry.adapters, Registry.ids], List.forall_mem_map.mpr fun e member => ?_⟩
  rw [(historic.entry e member).1]
  rfl

theorem Historic.owners (historic : Historic calls r) (handle : DeviceHandle) :
    r.owners handle = r.adapters.filter fun a => (listed a.1 calls).any (·.handle = handle) := by
  simp only [Registry.owners, Registry.adapters, List.filter_map]
  refine congrArg _ (List.filter_congr fun e member => ?_)
  simp only [Entry.lists, Function.comp_def, (historic.entry e member).2]

theorem Historic.nodup_owners (historic : Historic calls r) (handle : DeviceHandle) : (r.owners handle).Nodup := by
  have ascending := historic.ascending
  simp only [Registry.ids, List.pairwise_map] at ascending
  simp only [Registry.owners, List.Nodup, List.pairwise_map]
  refine (ascending.filter _).imp fun less same => ?_
  rw [(Prod.mk.inj same).1] at less
  exact Nat.lt_irrefl _ less

theorem owned_iff (r : Registry) (handle : DeviceHandle) : r.owners handle ≠ [] ↔ ∃ info ∈ r.aggregate, info.handle = handle := by
  constructor
  · intro some
    obtain ⟨owner, member⟩ := List.exists_mem_of_ne_nil _ some
    obtain ⟨e, listing, _⟩ := List.mem_map.mp member
    obtain ⟨known, lists⟩ := List.mem_filter.mp listing
    obtain ⟨d, inside, same⟩ := List.any_eq_true.mp lists
    exact ⟨d.tagged e.deviceType, List.mem_flatMap.mpr ⟨e, known, List.mem_map_of_mem inside⟩, of_decide_eq_true same⟩
  · rintro ⟨info, member, same⟩
    obtain ⟨e, known, tagged⟩ := List.mem_flatMap.mp member
    obtain ⟨d, inside, rfl⟩ := List.mem_map.mp tagged
    have lists : e.lists handle = true := List.any_eq_true.mpr ⟨d, inside, decide_eq_true same⟩
    exact List.ne_nil_of_mem (List.mem_map_of_mem (List.mem_filter.mpr ⟨known, lists⟩))

end Registry
end TransportHub
