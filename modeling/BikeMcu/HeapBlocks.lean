import Mathlib.Data.Nat.Notation
import Mathlib.Logic.Function.Basic

/-!
Dynamic memory: blocks that are allocated, accessed and freed through pointers. An
operation that the language leaves undefined has no result.
-/

namespace BikeMcu.HeapBlocks

abbrev Ptr := Option ℕ

/-- The sizes of the allocated blocks. No pointer is handed out twice. -/
structure Heap where
  next : ℕ
  size : ℕ → Option ℕ
  fresh : ∀ p, next ≤ p → size p = none

def Heap.empty : Heap := ⟨0, fun _ => none, fun _ _ => rfl⟩

def Heap.allocate (h : Heap) (n : ℕ) : Heap where
  next := h.next + 1
  size := Function.update h.size h.next (some n)
  fresh p hp := by
    rw [Function.update_of_ne (by omega)]
    exact h.fresh p (by omega)

def Heap.release (h : Heap) (p : ℕ) : Heap where
  next := h.next
  size := Function.update h.size p none
  fresh q hq := by
    by_cases hqp : q = p
    · rw [hqp, Function.update_self]
    · rw [Function.update_of_ne hqp]
      exact h.fresh q hq

/-- `malloc` of `n` elements, which fails unless `ok`. -/
def Heap.malloc (h : Heap) (n : ℕ) (ok : Bool) : Ptr × Heap :=
  if ok then (some h.next, h.allocate n) else (none, h)

def Heap.free (h : Heap) : Ptr → Option Heap
  | none => some h
  | some p => if (h.size p).isSome then some (h.release p) else none

/-- The elements from `p` on up to the `k`-th may be accessed. -/
def Heap.room (h : Heap) : Ptr → ℕ → Bool
  | none, k => k = 0
  | some p, k => (h.size p).any fun n => decide (k ≤ n)

theorem room_allocate (h : Heap) (n k : ℕ) :
    (h.allocate n).room (some h.next) k = decide (k ≤ n) := by
  simp [Heap.room, Heap.allocate]

/-- A block that is freed leaves the heap as it was before its allocation. -/
theorem free_allocate (h : Heap) (n : ℕ) :
    ∃ h', (h.allocate n).free (some h.next) = some h' ∧ h'.size = h.size := by
  refine ⟨(h.allocate n).release h.next, ?_, ?_⟩
  · simp [Heap.free, Heap.allocate]
  · have hsame : Function.update h.size h.next none = h.size := by
      rw [← h.fresh h.next (Nat.le_refl _), Function.update_eq_self]
    simp [Heap.release, Heap.allocate, hsame]

end BikeMcu.HeapBlocks
