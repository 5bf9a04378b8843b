import Mathlib.Data.List.Basic

namespace BikeMcu.BoundedQueue

/-- The items, oldest first. -/
structure Fifo (α : Type*) (capacity : ℕ) where
  items : List α
  bounded : items.length ≤ capacity

variable {α : Type*} {n : ℕ}

def Fifo.empty (α : Type*) (capacity : ℕ) : Fifo α capacity :=
  ⟨[], Nat.zero_le capacity⟩

/-- With timeout zero an item for a full queue is lost. -/
def Fifo.send (q : Fifo α n) (x : α) : Fifo α n :=
  if h : q.items.length < n then
    ⟨q.items ++ [x], by rw [List.length_append]; exact h⟩
  else q

def Fifo.receive (q : Fifo α n) : Option (α × Fifo α n) :=
  match q with
  | ⟨[], _⟩ => none
  | ⟨x :: xs, h⟩ => some (x, ⟨xs, Nat.le_of_succ_le h⟩)

def Fifo.overwrite (_ : Fifo α 1) (x : α) : Fifo α 1 :=
  ⟨[x], Nat.le_refl 1⟩

@[simp] theorem items_empty : (Fifo.empty α n).items = [] := rfl

@[simp] theorem items_overwrite (q : Fifo α 1) (x : α) :
    (q.overwrite x).items = [x] := rfl

theorem items_send_of_lt {q : Fifo α n} (x : α) (h : q.items.length < n) :
    (q.send x).items = q.items ++ [x] := by
  simp [Fifo.send, h]

theorem send_of_full {q : Fifo α n} (x : α) (h : ¬ q.items.length < n) :
    q.send x = q := by
  simp [Fifo.send, h]

theorem receive_eq_some {q q' : Fifo α n} {x : α}
    (h : q.receive = some (x, q')) : q.items = x :: q'.items := by
  obtain ⟨items, bounded⟩ := q
  cases items with
  | nil => cases h
  | cons y ys =>
      cases h
      rfl

theorem exists_receive {q : Fifo α n} (h : q.items ≠ []) :
    ∃ x q', q.receive = some (x, q') := by
  obtain ⟨items, bounded⟩ := q
  cases items with
  | nil => exact absurd rfl h
  | cons x xs => exact ⟨x, _, rfl⟩

end BikeMcu.BoundedQueue
