import TransportHub.Device
/-!
The registry: the adapters of a hub in the order they were registered, the devices each of them lists,
and how far its start has come.

An entry starts out idle; whoever claims the start makes it starting, and reporting the start as
finished makes it running. Only an idle entry can be claimed, so an adapter is started once. Each
registration gets the successor of the id given out last, a word of 32 bits: as long as there are fewer
than 2^32 registrations, each has an id of its own. Whatever is done by id is done to the first entry
of that id.
-/
namespace TransportHub

structure AdapterKey where
  val : Nat
deriving DecidableEq, Repr

inductive StartState where
  | idle
  | starting
  | running
deriving DecidableEq, Repr

structure Registry.Entry where
  id : AdapterId
  -- What the adapter answered as its transport type when it was registered.
  deviceType : String
  adapter : AdapterKey
  devices : List DiscoveredDevice := []
  start : StartState := .idle
deriving DecidableEq, Repr

structure Registry.Withdrawal where
  adapter : AdapterKey
  deviceType : String
  released : Nat
  starting : Bool
deriving DecidableEq, Repr

structure Registry where
  entries : List Registry.Entry := []
  lastId : UInt32 := 0
deriving DecidableEq, Repr

namespace Registry

def nextId (r : Registry) : AdapterId := ⟨(r.lastId + 1).toNat⟩

def reserve (r : Registry) : Registry :=
  { r with lastId := r.lastId + 1 }

def enrol (r : Registry) (id : AdapterId) (deviceType : String) (adapter : AdapterKey) : Registry :=
  { r with entries := r.entries ++ [{ id, deviceType, adapter }] }

def register (r : Registry) (deviceType : String) (adapter : AdapterKey) : AdapterId × Registry :=
  (r.nextId, r.reserve.enrol r.nextId deviceType adapter)

def find? (r : Registry) (id : AdapterId) : Option Entry :=
  r.entries.find? (·.id = id)

/-- Changes the first entry of an id, if there is one. -/
def revise (id : AdapterId) (change : Entry → Entry) : List Entry → List Entry
  | [] => []
  | e :: rest => if e.id = id then change e :: rest else e :: revise id change rest

def update (r : Registry) (id : AdapterId) (change : Entry → Entry) : Registry :=
  { r with entries := revise id change r.entries }

/-- Claims the start of an idle adapter; `none` when it is unknown or was claimed before. -/
def beginStart (r : Registry) (id : AdapterId) : Option AdapterKey × Registry :=
  match r.find? id with
  | some e =>
    if e.start = .idle then (some e.adapter, r.update id ({ · with start := .starting }))
    else (none, r)
  | none => (none, r)

def beginStartAll (r : Registry) : List (AdapterId × AdapterKey) × Registry :=
  ((r.entries.filter (·.start = .idle)).map fun e => (e.id, e.adapter),
    { r with entries := r.entries.map fun e =>
        if e.start = .idle then { e with start := .starting } else e })

def finishStart (r : Registry) (id : AdapterId) : Bool × Registry :=
  ((r.find? id).isSome, r.update id ({ · with start := .running }))

def unregister (r : Registry) (id : AdapterId) : Option Withdrawal × Registry :=
  ((r.find? id).map fun e =>
      { adapter := e.adapter, deviceType := e.deviceType, released := e.devices.length,
        starting := e.start = .starting },
    { r with entries := r.entries.eraseP (·.id = id) })

def replaceDevices (r : Registry) (id : AdapterId) (devices : List DiscoveredDevice) :
    Bool × Registry :=
  ((r.find? id).isSome, r.update id ({ · with devices }))

def aggregate (r : Registry) : List DeviceInfo :=
  r.entries.flatMap fun e => e.devices.map (·.tagged e.deviceType)

def Entry.lists (e : Entry) (handle : DeviceHandle) : Bool :=
  e.devices.any (·.handle = handle)

def owners (r : Registry) (handle : DeviceHandle) : List (AdapterId × AdapterKey) :=
  (r.entries.filter (·.lists handle)).map fun e => (e.id, e.adapter)

def adapters (r : Registry) : List (AdapterId × AdapterKey) :=
  r.entries.map fun e => (e.id, e.adapter)

def ids (r : Registry) : List AdapterId :=
  r.entries.map (·.id)

def contains (r : Registry) (id : AdapterId) : Bool :=
  r.entries.any (·.id = id)

def size (r : Registry) : Nat :=
  r.entries.length

@[simp] theorem ids_enrol (r : Registry) (id : AdapterId) (deviceType : String)
    (adapter : AdapterKey) : (r.enrol id deviceType adapter).ids = r.ids ++ [id] := by
  simp [ids, enrol]

theorem map_revise {α : Type} {f : Entry → α} {change : Entry → Entry} (kept : ∀ e, f (change e) = f e)
    (id : AdapterId) (entries : List Entry) : (revise id change entries).map f = entries.map f := by
  induction entries with
  | nil => rfl
  | cons e rest ih =>
    by_cases same : e.id = id
    · simp [revise, same, kept]
    · simp [revise, same, ih]

theorem revise_of_ne {id : AdapterId} {entries : List Entry} (absent : ∀ e ∈ entries, e.id ≠ id)
    (change : Entry → Entry) : revise id change entries = entries := by
  induction entries with
  | nil => rfl
  | cons e rest ih =>
    obtain ⟨apart, others⟩ := List.forall_mem_cons.mp absent
    rw [revise, if_neg apart, ih others]

theorem revise_eq_map {entries : List Entry} (once : (entries.map (·.id)).Nodup) (id : AdapterId)
    (change : Entry → Entry) :
    revise id change entries = entries.map fun e => if e.id = id then change e else e := by
  induction entries with
  | nil => rfl
  | cons e rest ih =>
    obtain ⟨first, others⟩ := List.nodup_cons.mp once
    by_cases same : e.id = id
    · have absent : ∀ other ∈ rest, other.id ≠ id := fun other member here =>
        first (List.mem_map.mpr ⟨other, member, here.trans same.symm⟩)
      have apart : rest.map (fun e => if e.id = id then change e else e) = rest :=
        (List.map_congr_left fun other member => if_neg (absent other member)).trans (List.map_id' _)
      rw [revise, if_pos same, List.map_cons, if_pos same, apart]
    · rw [revise, if_neg same, List.map_cons, if_neg same, ih others]

@[simp] theorem ids_update (r : Registry) (id : AdapterId) {change : Entry → Entry}
    (kept : ∀ e, (change e).id = e.id) : (r.update id change).ids = r.ids :=
  map_revise kept id r.entries

@[simp] theorem ids_unregister (r : Registry) (id : AdapterId) :
    (r.unregister id).2.ids = r.ids.erase id := by
  simp only [ids, unregister]
  induction r.entries with
  | nil => rfl
  | cons e rest ih =>
    by_cases same : e.id = id
    · simp [same]
    · simp [same, List.erase_cons_tail, ih]

@[simp] theorem ids_replaceDevices (r : Registry) (id : AdapterId)
    (devices : List DiscoveredDevice) : (r.replaceDevices id devices).2.ids = r.ids := by
  simp [replaceDevices]

theorem mem_ids_iff (r : Registry) (id : AdapterId) : id ∈ r.ids ↔ (r.find? id).isSome := by
  simp [ids, find?, List.find?_isSome]

@[simp] theorem contains_eq_true_iff (r : Registry) (id : AdapterId) :
    r.contains id = true ↔ id ∈ r.ids := by
  simp [contains, ids]

end Registry
end TransportHub
