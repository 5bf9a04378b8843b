import BikeMcu.Printf

namespace BikeMcu.Printf

def scanNat (cs : List Char) : Option ℕ :=
  if cs ≠ [] ∧ cs.all Char.isDigit then some (Nat.ofDigitChars 10 cs 0) else none

/-- The sign in front of a number, and the rest. -/
def scanSign (cs : List Char) : Bool × List Char :=
  if cs.head? = some '-' then (true, cs.tail) else (false, cs)

def scanDecimal (cs : List Char) : Option ℤ :=
  (scanNat (scanSign cs).2).map fun n : ℕ => if (scanSign cs).1 then -(n : ℤ) else n

/-- The number of digits behind the point is known, so the point itself says nothing. -/
def scanFixed (precision : ℕ) (cs : List Char) : Option ℚ :=
  (scanNat ((scanSign cs).2.filter fun c => c ≠ '.')).map fun n : ℕ =>
    (if (scanSign cs).1 then -(n : ℚ) else n) / 10 ^ precision

theorem scanNat_of_digits {cs : List Char} (hne : cs ≠ []) (h : ∀ c ∈ cs, c.isDigit = true) :
    scanNat cs = some (Nat.ofDigitChars 10 cs 0) :=
  if_pos ⟨hne, List.all_eq_true.mpr h⟩

theorem scanNat_toDigits (n : ℕ) : scanNat (Nat.toDigits 10 n) = some n := by
  rw [scanNat_of_digits Nat.toDigits_ne_nil fun c hc => isDigit_of_mem_toDigits hc,
    Nat.ofDigitChars_ten_toDigits]

theorem scanSign_minus (cs : List Char) : scanSign ('-' :: cs) = (true, cs) := rfl

theorem scanSign_toDigits (n : ℕ) (rest : List Char) :
    scanSign (Nat.toDigits 10 n ++ rest) = (false, Nat.toDigits 10 n ++ rest) := by
  refine if_neg ?_
  intro hminus
  rw [List.head?_append_of_ne_nil _ Nat.toDigits_ne_nil] at hminus
  cases isDigit_of_mem_toDigits (List.mem_of_head? hminus)

theorem scanDecimal_decimal (z : ℤ) : scanDecimal (decimal z) = some z := by
  rw [decimal, scanDecimal]
  split
  · rename_i hneg
    have hvalue : -(z.natAbs : ℤ) = z := by
      rw [Int.ofNat_natAbs_of_nonpos hneg.le, neg_neg]
    rw [scanSign_minus, scanNat_toDigits]
    exact congrArg some hvalue
  · rename_i hpos
    have hsign := scanSign_toDigits z.natAbs []
    rw [List.append_nil] at hsign
    rw [hsign, scanNat_toDigits]
    exact congrArg some (Int.natAbs_of_nonneg (not_lt.mp hpos))

theorem filter_point_of_digits {cs : List Char} (h : ∀ c ∈ cs, c.isDigit = true) :
    cs.filter (fun c => c ≠ '.') = cs := by
  rw [List.filter_eq_self]
  intro c hc
  have hdigit := h c hc
  rw [decide_eq_true_eq]
  rintro rfl
  cases hdigit

theorem isDigit_of_mem_leftpad {n k : ℕ} {c : Char}
    (h : c ∈ (Nat.toDigits 10 n).leftpad k '0') : c.isDigit = true := by
  rcases List.mem_append.mp h with h | h
  · rw [List.eq_of_mem_replicate h]
    rfl
  · exact isDigit_of_mem_toDigits h

theorem ofDigitChars_leftpad {n k : ℕ} (h : n < 10 ^ k) (hk : 0 < k) (start : ℕ) :
    Nat.ofDigitChars 10 ((Nat.toDigits 10 n).leftpad k '0') start = 10 ^ k * start + n := by
  have hlen : ((Nat.toDigits 10 n).leftpad k '0').length = k := by
    rw [List.length_leftpad, max_eq_left]
    exact (Nat.length_toDigits_le_iff (by norm_num) hk).mpr h
  rw [Nat.ofDigitChars_eq_ofDigitChars_zero, hlen, List.leftpad, Nat.ofDigitChars_append,
    Nat.ofDigitChars_replicate_zero, Nat.mul_zero, Nat.ofDigitChars_ten_toDigits]

/-- Without its point, a fixed-point number is the decimal number that was cut. -/
theorem scanNat_fraction (precision n : ℕ) :
    scanNat ((Nat.toDigits 10 (n / 10 ^ precision) ++
      fraction precision (n % 10 ^ precision)).filter fun c => c ≠ '.') = some n := by
  have hwhole : (Nat.toDigits 10 (n / 10 ^ precision)).filter (fun c => c ≠ '.') =
      Nat.toDigits 10 (n / 10 ^ precision) :=
    filter_point_of_digits fun c hc => isDigit_of_mem_toDigits hc
  rw [List.filter_append, hwhole, fraction]
  split
  · rename_i hzero
    subst hzero
    simp [scanNat_toDigits]
  · rename_i hpos
    have hpoint : ('.' :: (Nat.toDigits 10 (n % 10 ^ precision)).leftpad precision '0').filter
        (fun c => c ≠ '.') = (Nat.toDigits 10 (n % 10 ^ precision)).leftpad precision '0' := by
      rw [List.filter_cons_of_neg (by simp)]
      exact filter_point_of_digits fun c hc => isDigit_of_mem_leftpad hc
    rw [hpoint, scanNat_of_digits (List.append_ne_nil_of_left_ne_nil Nat.toDigits_ne_nil _),
      Nat.ofDigitChars_append, Nat.ofDigitChars_ten_toDigits,
      ofDigitChars_leftpad (Nat.mod_lt n (Nat.pow_pos (by norm_num)))
        (Nat.pos_of_ne_zero hpos), Nat.div_add_mod]
    intro c hc
    rcases List.mem_append.mp hc with h | h
    · exact isDigit_of_mem_toDigits h
    · exact isDigit_of_mem_leftpad h

theorem scanSign_fixed (precision : ℕ) (q : ℚ) :
    scanSign (fixed precision q) = (decide (q < 0),
      Nat.toDigits 10 (nearest (|q| * 10 ^ precision) / 10 ^ precision) ++
        fraction precision (nearest (|q| * 10 ^ precision) % 10 ^ precision)) := by
  rw [fixed]
  by_cases hneg : q < 0
  · rw [if_pos hneg, decide_eq_true hneg]
    rfl
  · rw [if_neg hneg, decide_eq_false hneg, List.nil_append]
    exact scanSign_toDigits _ _

theorem abs_div_sub_le {q : ℚ} (hq : 0 ≤ q) (precision : ℕ) :
    |(nearest (q * 10 ^ precision) : ℚ) / 10 ^ precision - q| ≤ 1 / (2 * 10 ^ precision) := by
  have hpow : (0 : ℚ) < 10 ^ precision := by positivity
  have hnearest := abs_sub_nearest_le (mul_nonneg hq hpow.le)
  calc
    |(nearest (q * 10 ^ precision) : ℚ) / 10 ^ precision - q|
        = |q * 10 ^ precision - nearest (q * 10 ^ precision)| / 10 ^ precision := by
          rw [abs_sub_comm, ← abs_of_pos hpow, ← abs_div, abs_of_pos hpow, sub_div,
            mul_div_cancel_right₀ q hpow.ne']
    _ ≤ 1 / 2 / 10 ^ precision := div_le_div_of_nonneg_right hnearest hpow.le
    _ = 1 / (2 * 10 ^ precision) := div_div 1 2 (10 ^ precision)

/-- A fixed-point number reads as a number within half a unit of its last digit. -/
theorem exists_scanFixed (precision : ℕ) (q : ℚ) :
    ∃ r, scanFixed precision (fixed precision q) = some r ∧
      |r - q| ≤ 1 / (2 * 10 ^ precision) := by
  have hbound := abs_div_sub_le (abs_nonneg q) precision
  rw [scanFixed, scanSign_fixed, scanNat_fraction, Option.map_some]
  refine ⟨_, rfl, ?_⟩
  by_cases hneg : q < 0
  · rw [abs_of_neg hneg] at hbound ⊢
    rw [decide_eq_true hneg, if_pos rfl, ← abs_neg]
    convert hbound using 2
    ring
  · rw [abs_of_nonneg (not_lt.mp hneg)] at hbound ⊢
    rw [decide_eq_false hneg, if_neg (by simp)]
    exact hbound

end BikeMcu.Printf
