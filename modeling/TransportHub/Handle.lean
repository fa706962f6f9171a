/-!
Handles: the numbers that name devices, application connections, outbound frames and registered
adapters, and the allocator that issues the first three.

Each counter is a word of 32 bits that starts at zero and issues the successor of the number it issued
last: 1, 2, 3, … up to 2^32 - 1, after which it begins again at zero.
-/
namespace TransportHub

structure DeviceHandle where
  val : Nat
deriving DecidableEq, Repr

structure ConnectionHandle where
  val : Nat
deriving DecidableEq, Repr

structure FrameSequence where
  val : Nat
deriving DecidableEq, Repr

structure AdapterId where
  val : Nat
deriving DecidableEq, Repr

instance : Inhabited DeviceHandle := ⟨⟨0⟩⟩
instance : ToString DeviceHandle := ⟨fun h => toString h.val⟩
instance : ToString ConnectionHandle := ⟨fun c => toString c.val⟩
instance : ToString FrameSequence := ⟨fun s => toString s.val⟩
instance : ToString AdapterId := ⟨fun a => "adapter#" ++ toString a.val⟩

namespace DeviceHandle

def place (h : DeviceHandle) : List DeviceHandle → List DeviceHandle
  | [] => [h]
  | k :: rest =>
    if h.val < k.val then h :: k :: rest
    else if h.val = k.val then k :: rest
    else k :: place h rest

def ascending (hs : List DeviceHandle) : List DeviceHandle :=
  hs.foldr place []

theorem mem_place {h k : DeviceHandle} {hs : List DeviceHandle} :
    k ∈ place h hs ↔ k = h ∨ k ∈ hs := by
  induction hs with
  | nil => simp [place]
  | cons j rest ih =>
    by_cases less : h.val < j.val
    · simp [place, less]
    · by_cases same : h.val = j.val
      · have : h = j := by cases h; cases j; simp_all
        simp [place, this]
      · simp [place, less, same, ih, or_left_comm]

theorem mem_ascending {h : DeviceHandle} {hs : List DeviceHandle} :
    h ∈ ascending hs ↔ h ∈ hs := by
  induction hs with
  | nil => simp [ascending]
  | cons k rest ih =>
    rw [ascending, List.foldr_cons, mem_place, List.mem_cons]
    exact or_congr_right ih

theorem pairwise_place {h : DeviceHandle} {hs : List DeviceHandle}
    (ordered : hs.Pairwise (·.val < ·.val)) : (place h hs).Pairwise (·.val < ·.val) := by
  induction hs with
  | nil => simp [place]
  | cons j rest ih =>
    obtain ⟨first, tail⟩ := List.pairwise_cons.mp ordered
    by_cases less : h.val < j.val
    · rw [place, if_pos less]
      refine List.pairwise_cons.mpr ⟨fun k member => ?_, ordered⟩
      rcases List.mem_cons.mp member with rfl | member
      · exact less
      · exact Nat.lt_trans less (first k member)
    · by_cases same : h.val = j.val
      · rwa [place, if_neg less, if_pos same]
      · rw [place, if_neg less, if_neg same]
        refine List.pairwise_cons.mpr ⟨fun k member => ?_, ih tail⟩
        rcases mem_place.mp member with rfl | member
        · omega
        · exact first k member

theorem pairwise_ascending (hs : List DeviceHandle) :
    (ascending hs).Pairwise (·.val < ·.val) := by
  induction hs with
  | nil => simp [ascending]
  | cons h rest ih => exact pairwise_place ih

end DeviceHandle

inductive HandleKind where
  | device
  | connection
  | frame
deriving DecidableEq, Repr

/-- The number each counter issued last. -/
structure Handles where
  device : UInt32 := 0
  connection : UInt32 := 0
  frame : UInt32 := 0
deriving DecidableEq, Repr

namespace Handles

def counter (h : Handles) : HandleKind → UInt32
  | .device => h.device
  | .connection => h.connection
  | .frame => h.frame

def last (h : Handles) (kind : HandleKind) : Nat :=
  (h.counter kind).toNat

def advance (h : Handles) : HandleKind → Handles
  | .device => { h with device := h.device + 1 }
  | .connection => { h with connection := h.connection + 1 }
  | .frame => { h with frame := h.frame + 1 }

def next (h : Handles) (kind : HandleKind) : Nat :=
  (h.counter kind + 1).toNat

def nextDevice (h : Handles) : DeviceHandle := ⟨h.next .device⟩

def nextConnection (h : Handles) : ConnectionHandle := ⟨h.next .connection⟩

def nextFrame (h : Handles) : FrameSequence := ⟨h.next .frame⟩

def issue (h : Handles) : List HandleKind → List (HandleKind × Nat) × Handles
  | [] => ([], h)
  | kind :: rest =>
    let (issued, after) := (h.advance kind).issue rest
    ((kind, h.next kind) :: issued, after)

def issueEach (h : Handles) (pattern : List HandleKind) :
    Nat → List (List (HandleKind × Nat)) × Handles
  | 0 => ([], h)
  | callers + 1 =>
    let (first, between) := h.issue pattern
    let (others, after) := between.issueEach pattern callers
    (first :: others, after)

@[simp] theorem last_advance (h : Handles) (kind other : HandleKind) :
    (h.advance kind).last other = if other = kind then h.next kind else h.last other := by
  cases kind <;> cases other <;> rfl

end Handles

def issuedFor (kind : HandleKind) (issued : List (HandleKind × Nat)) : List Nat :=
  (issued.filter fun i => i.1 = kind).map (·.2)

def increasing : List Nat → Bool
  | a :: b :: rest => a < b && increasing (b :: rest)
  | _ => true

end TransportHub
