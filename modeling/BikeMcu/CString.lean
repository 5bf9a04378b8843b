import Mathlib.Data.Int.Notation
import Mathlib.Data.List.Basic

namespace BikeMcu.CString

/-- The length of the string a pointer leads to; a read behind the last of the bytes
there has no value. -/
def strlen : List UInt8 → Option ℕ
  | [] => none
  | x :: xs => if x = 0 then some 0 else (strlen xs).map (· + 1)

def strncmp : List UInt8 → List UInt8 → ℕ → Option ℤ
  | _, _, 0 => some 0
  | x :: xs, y :: ys, n + 1 =>
      if x ≠ y then some (x.toNat - y.toNat)
      else if x = 0 then some 0
      else strncmp xs ys n
  | _, _, _ => none

/-- A string and its NUL over the front of a buffer. -/
def write (buffer s : List UInt8) : List UInt8 :=
  s ++ 0 :: buffer.drop (s.length + 1)

/-- The string in a buffer, without its NUL. -/
def contents (buffer : List UInt8) : Option (List UInt8) :=
  (strlen buffer).map fun n => buffer.take n

theorem strlen_append_nul {s : List UInt8} (hs : 0 ∉ s) (rest : List UInt8) :
    strlen (s ++ 0 :: rest) = some s.length := by
  induction s with
  | nil => rfl
  | cons x s ih =>
      rw [List.mem_cons, not_or] at hs
      rw [List.cons_append, strlen, if_neg (Ne.symm hs.1), ih hs.2]
      rfl

/-- Nothing of what the buffer held before can be read as part of the string. -/
theorem contents_write (buffer : List UInt8) {s : List UInt8} (hs : 0 ∉ s) :
    contents (write buffer s) = some s := by
  rw [contents, write, strlen_append_nul hs, Option.map_some, List.take_left]

theorem length_write {buffer s : List UInt8} (h : s.length < buffer.length) :
    (write buffer s).length = buffer.length := by
  simp only [write, List.length_append, List.length_cons, List.length_drop]
  omega

/-- Against a string of the same length, the comparison of all its bytes is not cut
short by a NUL among the untrusted ones. -/
theorem strncmp_eq_zero_iff {s t : List UInt8} (hs : 0 ∉ s) (hlen : t.length = s.length)
    (rest : List UInt8) : strncmp t (s ++ rest) t.length = some 0 ↔ t = s := by
  induction s generalizing t with
  | nil =>
      obtain rfl := List.length_eq_zero_iff.mp hlen
      simp [strncmp]
  | cons y s ih =>
      cases t with
      | nil => cases hlen
      | cons x t =>
          rw [List.mem_cons, not_or] at hs
          have hrest := ih hs.2 (Nat.succ.inj hlen)
          rw [List.cons_append, List.length_cons, strncmp, List.cons.injEq]
          by_cases hxy : x = y
          · subst hxy
            rw [if_neg (by simp), if_neg (Ne.symm hs.1), hrest]
            simp
          · have hne : (x.toNat : ℤ) - y.toNat ≠ 0 := by
              intro hzero
              exact hxy (UInt8.toNat_inj.mp (by omega))
            simp [hxy, hne]

end BikeMcu.CString
