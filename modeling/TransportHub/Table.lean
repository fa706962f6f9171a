import TransportHub.Handle
/-!
Tables keyed by connection, in ascending order of the connections and with one row each. The order
is part of the type, so a table is determined by its look-ups.
-/
namespace TransportHub

namespace Table

def insertRow (c : ConnectionHandle) (a : α) :
    List (ConnectionHandle × α) → List (ConnectionHandle × α)
  | [] => [(c, a)]
  | (k, b) :: rest =>
    if c.val < k.val then (c, a) :: (k, b) :: rest
    else if c = k then (c, a) :: rest
    else (k, b) :: insertRow c a rest

def Ascending (rows : List (ConnectionHandle × α)) : Prop :=
  rows.Pairwise fun r s => r.1.val < s.1.val

theorem ascending_nil : Ascending ([] : List (ConnectionHandle × α)) := .nil

theorem mem_insertRow {c : ConnectionHandle} {a : α} {rows : List (ConnectionHandle × α)}
    {r : ConnectionHandle × α} (h : r ∈ insertRow c a rows) : r.1 = c ∨ r ∈ rows := by
  induction rows with
  | nil => simp_all [insertRow]
  | cons row rest ih =>
    rcases row with ⟨k, b⟩
    by_cases less : c.val < k.val
    · simp only [insertRow, if_pos less] at h
      exact (List.mem_cons.mp h).imp_left fun same => by rw [same]
    · by_cases same : c = k
      · simp only [insertRow, if_neg less, if_pos same] at h
        exact (List.mem_cons.mp h).imp (fun same => by rw [same]) (.tail _)
      · simp only [insertRow, if_neg less, if_neg same] at h
        rcases List.mem_cons.mp h with rfl | h
        · exact .inr (.head _)
        · exact (ih h).imp_right (.tail _)

theorem ascending_insertRow (c : ConnectionHandle) (a : α) {rows : List (ConnectionHandle × α)}
    (h : Ascending rows) : Ascending (insertRow c a rows) := by
  induction rows with
  | nil => simp [insertRow, Ascending]
  | cons row rest ih =>
    rcases row with ⟨k, b⟩
    obtain ⟨first, tail⟩ := List.pairwise_cons.mp h
    by_cases less : c.val < k.val
    · rw [insertRow, if_pos less]
      refine List.pairwise_cons.mpr ⟨fun r member => ?_, h⟩
      rcases List.mem_cons.mp member with rfl | member
      · exact less
      · exact Nat.lt_trans less (first r member)
    · by_cases same : c = k
      · rw [insertRow, if_neg less, if_pos same]
        exact List.pairwise_cons.mpr ⟨same ▸ first, tail⟩
      · rw [insertRow, if_neg less, if_neg same]
        refine List.pairwise_cons.mpr ⟨fun r member => ?_, ih tail⟩
        rcases mem_insertRow member with here | member
        · have : c.val ≠ k.val := fun equal => same (by cases c; cases k; simp_all)
          simp only [here]
          omega
        · exact first r member

end Table

structure Table (α : Type) where
  rows : List (ConnectionHandle × α) := []
  ascending : Table.Ascending rows := by exact Table.ascending_nil

namespace Table

def get? (t : Table α) (c : ConnectionHandle) : Option α :=
  (t.rows.find? fun r => r.1 = c).map (·.2)

def contains (t : Table α) (c : ConnectionHandle) : Bool :=
  (t.get? c).isSome

def insert (t : Table α) (c : ConnectionHandle) (a : α) : Table α :=
  ⟨insertRow c a t.rows, ascending_insertRow c a t.ascending⟩

def erase (t : Table α) (c : ConnectionHandle) : Table α :=
  ⟨t.rows.filter fun r => r.1 ≠ c, t.ascending.filter _⟩

def keys (t : Table α) : List ConnectionHandle :=
  t.rows.map (·.1)

def values (t : Table α) : List α :=
  t.rows.map (·.2)

theorem find?_insertRow (c k : ConnectionHandle) (a : α) (rows : List (ConnectionHandle × α)) :
    ((insertRow c a rows).find? fun r => r.1 = k) =
      if k = c then some (c, a) else rows.find? fun r => r.1 = k := by
  induction rows with
  | nil => by_cases same : k = c <;> simp [insertRow, same, @eq_comm _ c k]
  | cons row rest ih =>
    rcases row with ⟨j, b⟩
    by_cases less : c.val < j.val
    · rw [insertRow, if_pos less]
      by_cases same : k = c <;> simp [List.find?, same, @eq_comm _ c k]
    · by_cases here : c = j
      · subst here
        rw [insertRow, if_neg less, if_pos rfl]
        by_cases same : k = c <;> simp [same, @eq_comm _ c k]
      · rw [insertRow, if_neg less, if_neg here]
        by_cases same : k = c
        · subst same
          simp [@eq_comm _ j k, here, ih]
        · by_cases found : j = k <;> simp [found, same, ih]

@[simp] theorem get?_empty (c : ConnectionHandle) : ({} : Table α).get? c = none := rfl

theorem get?_insert (t : Table α) (c k : ConnectionHandle) (a : α) :
    (t.insert c a).get? k = if k = c then some a else t.get? k := by
  simp only [get?, insert, find?_insertRow]
  by_cases same : k = c <;> simp [same]

theorem get?_erase (t : Table α) (c k : ConnectionHandle) :
    (t.erase c).get? k = if k = c then none else t.get? k := by
  simp only [get?, erase, List.find?_filter]
  by_cases same : k = c
  · simp [same]
  · simp only [same, if_false]
    congr 2
    funext r
    by_cases here : r.1 = k <;> simp [here, same]

theorem get?_eq_some_iff (t : Table α) (c : ConnectionHandle) (a : α) :
    t.get? c = some a ↔ (c, a) ∈ t.rows := by
  rcases t with ⟨rows, ascending⟩
  simp only [get?]
  induction rows with
  | nil => simp
  | cons row rest ih =>
    obtain ⟨first, tail⟩ := List.pairwise_cons.mp ascending
    by_cases here : row.1 = c
    · have absent : (c, a) ∉ rest := fun member => by
        have := first _ member
        simp [here] at this
      subst here
      simp [absent, Prod.ext_iff, eq_comm]
    · have different : (c, a) ≠ row := fun same => here (by rw [← same])
      simp [here, different, ih tail]

theorem nodup_rows (t : Table α) : t.rows.Nodup :=
  t.ascending.imp fun less same => by simp [same] at less

theorem ext_get? {s t : Table α} (alike : ∀ c, s.get? c = t.get? c) : s = t := by
  have members : ∀ r, r ∈ s.rows ↔ r ∈ t.rows := fun r => by
    rw [← get?_eq_some_iff, ← get?_eq_some_iff, alike]
  have same : s.rows.Perm t.rows :=
    (List.perm_ext_iff_of_nodup s.nodup_rows t.nodup_rows).mpr members
  have rows : s.rows = t.rows :=
    same.eq_of_pairwise (fun _ _ _ _ less more => absurd less (Nat.lt_asymm more))
      s.ascending t.ascending
  cases s
  cases t
  simp_all

end Table
end TransportHub
