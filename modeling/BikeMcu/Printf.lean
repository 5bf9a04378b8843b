import BikeMcu.BinaryRounding

namespace BikeMcu.Printf

open BikeMcu.BinaryRounding

/-- For `q` not negative the nearest natural number, of two the even one. -/
def nearest (q : ℚ) : ℕ :=
  (roundEven q).toNat

def decimal (z : ℤ) : List Char :=
  if z < 0 then '-' :: Nat.toDigits 10 z.natAbs else Nat.toDigits 10 z.natAbs

/-- The digits behind the point; without any there is no point. -/
def fraction (precision n : ℕ) : List Char :=
  if precision = 0 then [] else '.' :: (Nat.toDigits 10 n).leftpad precision '0'

/-- A negative number keeps its sign when it is rounded to zero. -/
def fixed (precision : ℕ) (q : ℚ) : List Char :=
  let n := nearest (|q| * 10 ^ precision)
  (if q < 0 then ['-'] else []) ++ Nat.toDigits 10 (n / 10 ^ precision) ++
    fraction precision (n % 10 ^ precision)

/-- A part of a format string, with its argument. -/
inductive Directive where
  | text (s : List Char)
  | int (z : ℤ)
  | fixed (precision : ℕ) (q : ℚ)
  deriving DecidableEq, Repr

def Directive.render : Directive → List Char
  | .text s => s
  | .int z => decimal z
  | .fixed precision q => Printf.fixed precision q

def format (ds : List Directive) : List Char :=
  ds.flatMap Directive.render

/-- The string in a buffer of `size` characters, the last of which is for the NUL. -/
def snprintf (size : ℕ) (ds : List Directive) : List Char :=
  (format ds).take (size - 1)

theorem abs_sub_nearest_le {q : ℚ} (hq : 0 ≤ q) : |q - nearest q| ≤ 1 / 2 := by
  have hcast : ((nearest q : ℤ) : ℚ) = roundEven q := by
    rw [nearest, Int.toNat_of_nonneg (roundEven_nonneg hq)]
  rw [abs_sub_comm, ← Int.cast_natCast, hcast]
  exact abs_roundEven_sub_le q

theorem nearest_le {q : ℚ} {n : ℕ} (hq : 0 ≤ q) (h : q ≤ n) : nearest q ≤ n := by
  have hhalf := (abs_le.mp (abs_sub_nearest_le hq)).1
  have hlt : (nearest q : ℚ) < (n + 1 : ℕ) := by
    push_cast
    linarith
  exact Nat.lt_succ_iff.mp (Nat.cast_lt.mp hlt)

theorem length_decimal_le_of_nonneg {z : ℤ} {k : ℕ} (hk : 0 < k) (hz : 0 ≤ z)
    (h : z < 10 ^ k) : (decimal z).length ≤ k := by
  have hdigits : z.natAbs < 10 ^ k := by
    zify
    rwa [abs_of_nonneg hz]
  rw [decimal, if_neg (not_lt.mpr hz)]
  exact (Nat.length_toDigits_le_iff (by norm_num) hk).mpr hdigits

theorem length_decimal_le {z : ℤ} {k : ℕ} (hk : 0 < k) (h : z.natAbs < 10 ^ k) :
    (decimal z).length ≤ k + 1 := by
  have hdigits := (Nat.length_toDigits_le_iff (by norm_num) hk).mpr h
  rw [decimal]
  split
  · exact Nat.succ_le_succ hdigits
  · exact Nat.le_succ_of_le hdigits

theorem length_fraction_le {precision n : ℕ} (h : n < 10 ^ precision) :
    (fraction precision n).length ≤ precision + 1 := by
  rw [fraction]
  split
  · exact Nat.zero_le _
  · rename_i hpos
    have hdigits := (Nat.length_toDigits_le_iff (by norm_num) (Nat.pos_of_ne_zero hpos)).mpr h
    rw [List.length_cons, List.length_leftpad, max_eq_left hdigits]

/-- Rounding does not carry past a natural number `m`. -/
theorem length_fixed_le {precision k m : ℕ} {q : ℚ} (hk : 0 < k) (hq : |q| ≤ m)
    (hm : m < 10 ^ k) : (fixed precision q).length ≤ k + precision + 2 := by
  have hpos : 0 < 10 ^ precision := Nat.pow_pos (by norm_num)
  have hscaled : nearest (|q| * 10 ^ precision) ≤ m * 10 ^ precision := by
    apply nearest_le (by positivity)
    push_cast
    exact mul_le_mul_of_nonneg_right hq (by positivity)
  have hwhole : nearest (|q| * 10 ^ precision) / 10 ^ precision < 10 ^ k :=
    lt_of_le_of_lt (Nat.div_le_of_le_mul (hscaled.trans_eq (mul_comm _ _))) hm
  have hdigits := (Nat.length_toDigits_le_iff (by norm_num) hk).mpr hwhole
  have hfraction := length_fraction_le
    (Nat.mod_lt (nearest (|q| * 10 ^ precision)) hpos)
  have hsign : (if q < 0 then ['-'] else []).length ≤ 1 := by split <;> simp
  simp only [fixed, List.length_append]
  omega

theorem length_format_le {ds : List Directive} {ws : List ℕ}
    (h : List.Forall₂ (fun d w => d.render.length ≤ w) ds ws) :
    (format ds).length ≤ ws.sum := by
  induction h with
  | nil => exact Nat.zero_le _
  | cons hd _ ih =>
      rw [format, List.flatMap_cons, List.length_append, List.sum_cons]
      exact Nat.add_le_add hd ih

theorem isDigit_of_mem_toDigits {c : Char} {n : ℕ} (h : c ∈ Nat.toDigits 10 n) :
    c.isDigit = true :=
  Nat.isDigit_of_mem_toDigits (by norm_num) le_rfl h

/-- The characters of numbers. -/
def Numeric (c : Char) : Prop :=
  c.isDigit = true ∨ c = '-' ∨ c = '.'

theorem numeric_decimal {z : ℤ} {c : Char} (h : c ∈ decimal z) : Numeric c := by
  rw [decimal] at h
  split at h
  · rcases List.mem_cons.mp h with rfl | h
    · exact .inr (.inl rfl)
    · exact .inl (isDigit_of_mem_toDigits h)
  · exact .inl (isDigit_of_mem_toDigits h)

theorem numeric_fraction {precision n : ℕ} {c : Char} (h : c ∈ fraction precision n) :
    Numeric c := by
  rw [fraction] at h
  split at h
  · cases h
  · rcases List.mem_cons.mp h with rfl | h
    · exact .inr (.inr rfl)
    · rcases List.mem_append.mp h with h | h
      · obtain rfl := List.eq_of_mem_replicate h
        exact .inl rfl
      · exact .inl (isDigit_of_mem_toDigits h)

theorem numeric_fixed {precision : ℕ} {q : ℚ} {c : Char} (h : c ∈ fixed precision q) :
    Numeric c := by
  rw [fixed, List.mem_append, List.mem_append] at h
  rcases h with (h | h) | h
  · split at h
    · exact .inr (.inl (List.mem_singleton.mp h))
    · cases h
  · exact .inl (isDigit_of_mem_toDigits h)
  · exact numeric_fraction h

theorem snprintf_of_fits {size : ℕ} {ds : List Directive} (h : (format ds).length < size) :
    snprintf size ds = format ds :=
  List.take_of_length_le (Nat.le_sub_one_of_lt h)

end BikeMcu.Printf
