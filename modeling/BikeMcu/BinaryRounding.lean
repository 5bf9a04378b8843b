import Mathlib.Data.Int.Log
import Mathlib.Data.Rat.Floor
import Mathlib.Algebra.Order.BigOperators.Group.List
import Mathlib.Data.List.Induction
import Mathlib.Tactic.Linarith
import Mathlib.Tactic.NormNum
import Mathlib.Tactic.Ring

namespace BikeMcu.BinaryRounding

section Rounding

variable {K : Type*} [Field K] [LinearOrder K] [FloorRing K]

/-- The integer nearest to `q`, of two the even one. -/
def roundEven (q : K) : ℤ :=
  if q - ⌊q⌋ < 1 / 2 ∨ q - ⌊q⌋ = 1 / 2 ∧ ⌊q⌋ % 2 = 0 then ⌊q⌋ else ⌊q⌋ + 1

/-- The significant bits, and the exponent of the smallest positive number. Numbers too
large for the format are not treated. -/
structure Format where
  precision : ℕ
  minExponent : ℤ

def binary32 : Format := ⟨24, -149⟩

def binary64 : Format := ⟨53, -1074⟩

/-- The exponent of the last place of a number of this magnitude. -/
def Format.exponent (f : Format) (q : K) : ℤ :=
  max (Int.log 2 |q| + 1 - f.precision) f.minExponent

def Format.round (f : Format) (q : K) : K :=
  roundEven (q / 2 ^ f.exponent q) * 2 ^ f.exponent q

/-- Each result is off by at most the `u`-th part of its magnitude and `η`. -/
def RoundsWithin (u η : K) (rnd : K → K) : Prop :=
  ∀ q, |rnd q - q| ≤ u * |q| + η

end Rounding

section Bounds

variable {K : Type*} [Field K] [LinearOrder K] [IsStrictOrderedRing K]

theorem abs_roundEven_sub_le [FloorRing K] (q : K) : |(roundEven q : K) - q| ≤ 1 / 2 := by
  have hbelow := Int.floor_le q
  have habove := Int.lt_floor_add_one q
  rw [roundEven, abs_sub_comm]
  split
  · rename_i h
    have hhalf : q - ⌊q⌋ ≤ 1 / 2 := h.elim le_of_lt fun h => h.1.le
    exact abs_le.mpr ⟨by linarith, hhalf⟩
  · rename_i h
    have hhalf : 1 / 2 ≤ q - ⌊q⌋ := not_lt.mp fun hlt => h (.inl hlt)
    push_cast
    exact abs_le.mpr ⟨by linarith, by linarith⟩

theorem roundEven_intCast [FloorRing K] (z : ℤ) : roundEven (z : K) = z := by
  simp [roundEven]

omit [IsStrictOrderedRing K] in
theorem roundEven_nonneg [FloorRing K] {q : K} (hq : 0 ≤ q) : 0 ≤ roundEven q := by
  have hfloor := Int.floor_nonneg.mpr hq
  rw [roundEven]
  split
  · exact hfloor
  · omega

theorem zpow_exponent_le [FloorRing K] (f : Format) {q : K} (hq : q ≠ 0) :
    (2 : K) ^ f.exponent q ≤ 2 ^ (1 - f.precision : ℤ) * |q| + 2 ^ f.minExponent := by
  have hpos : 0 < |q| := abs_pos.mpr hq
  have htwo : (0 : K) < 2 := by norm_num
  have hlog : (2 : K) ^ Int.log 2 |q| ≤ |q| := by
    exact_mod_cast Int.zpow_log_le_self (b := 2) (by norm_num) hpos
  rcases max_choice (Int.log 2 |q| + 1 - f.precision) f.minExponent with h | h
  · have hsplit : (2 : K) ^ f.exponent q = 2 ^ (1 - f.precision : ℤ) * 2 ^ Int.log 2 |q| := by
      rw [Format.exponent, h, ← zpow_add₀ htwo.ne']
      congr 1
      ring
    have hmin : (0 : K) < 2 ^ f.minExponent := zpow_pos htwo _
    have hscaled := mul_le_mul_of_nonneg_left hlog (zpow_pos htwo (1 - f.precision : ℤ)).le
    rw [hsplit]
    linarith
  · have hscaled : 0 ≤ (2 : K) ^ (1 - f.precision : ℤ) * |q| :=
      mul_nonneg (zpow_pos htwo _).le hpos.le
    rw [Format.exponent, h]
    linarith

theorem round_zero [FloorRing K] (f : Format) : f.round (0 : K) = 0 := by
  have hzero : roundEven (0 : K) = 0 := by exact_mod_cast roundEven_intCast (K := K) 0
  rw [Format.round, zero_div, hzero, Int.cast_zero, zero_mul]

/-- Small integers are numbers of the format. -/
theorem round_intCast [FloorRing K] {f : Format} (hmin : f.minExponent ≤ 0) {z : ℤ}
    (hz : |z| < 2 ^ f.precision) : f.round (z : K) = z := by
  have htwo : (0 : K) < 2 := by norm_num
  by_cases hzero : z = 0
  · rw [hzero, Int.cast_zero, round_zero]
  have hpos : (0 : K) < |(z : K)| := abs_pos.mpr (Int.cast_ne_zero.mpr hzero)
  have hlt : |(z : K)| < ((2 : ℕ) : K) ^ (f.precision : ℤ) := by
    rw [zpow_natCast]
    exact_mod_cast hz
  have hlog : Int.log 2 |(z : K)| < f.precision :=
    (Int.lt_zpow_iff_log_lt (by norm_num) hpos).mp hlt
  have hexponent : f.exponent (z : K) ≤ 0 := max_le (by omega) hmin
  obtain ⟨n, hn⟩ := Int.exists_eq_neg_ofNat hexponent
  have hscaled : (z : K) / 2 ^ f.exponent (z : K) = ((z * 2 ^ n : ℤ) : K) := by
    rw [hn, zpow_neg, zpow_natCast, div_inv_eq_mul]
    push_cast
    rfl
  rw [Format.round, hscaled, roundEven_intCast, ← hscaled,
    div_mul_cancel₀ _ (zpow_pos htwo _).ne']

/-- Half a unit in the last place. -/
theorem roundsWithin_round [FloorRing K] (f : Format) :
    RoundsWithin (2 ^ (-f.precision : ℤ)) (2 ^ (f.minExponent - 1)) (f.round (K := K)) := by
  intro q
  have htwo : (0 : K) < 2 := by norm_num
  by_cases hq : q = 0
  · rw [hq, round_zero, sub_self, abs_zero, mul_zero, zero_add]
    exact (zpow_pos htwo _).le
  have hunit : (0 : K) < 2 ^ f.exponent q := zpow_pos htwo _
  have herror : f.round q - q =
      (roundEven (q / 2 ^ f.exponent q) - q / 2 ^ f.exponent q) * 2 ^ f.exponent q := by
    rw [Format.round, sub_mul, div_mul_cancel₀ q hunit.ne']
  have hhalf := abs_roundEven_sub_le (q / (2 : K) ^ f.exponent q)
  have hplace := zpow_exponent_le f hq
  have hprecision : (2 : K) ^ (1 - f.precision : ℤ) = 2 * 2 ^ (-f.precision : ℤ) := by
    rw [sub_eq_add_neg, zpow_add₀ htwo.ne', zpow_one]
  have hmin : (2 : K) ^ f.minExponent = 2 * 2 ^ (f.minExponent - 1) := by
    rw [← zpow_one_add₀ htwo.ne']
    congr 1
    ring
  rw [hprecision, hmin] at hplace
  calc
    |f.round q - q| ≤ 1 / 2 * 2 ^ f.exponent q := by
      rw [herror, abs_mul, abs_of_pos hunit]
      exact mul_le_mul_of_nonneg_right hhalf hunit.le
    _ ≤ 2 ^ (-f.precision : ℤ) * |q| + 2 ^ (f.minExponent - 1) := by linarith

theorem roundsWithin_binary32 [FloorRing K] :
    RoundsWithin (1 / 2 ^ 24) (1 / 2 ^ 150) (binary32.round (K := K)) := by
  have h := roundsWithin_round (K := K) binary32
  norm_num [binary32] at h ⊢
  exact h

/-- The smallest numbers of the format are much smaller than this. -/
theorem roundsWithin_binary64 [FloorRing K] :
    RoundsWithin (1 / 2 ^ 53) (1 / 2 ^ 150) (binary64.round (K := K)) := by
  intro q
  have htwo : (1 : K) ≤ 2 := by norm_num
  have hplace : (2 : K) ^ (binary64.minExponent - 1) ≤ 2 ^ (-150 : ℤ) :=
    zpow_le_zpow_right₀ htwo (by decide)
  have hround := (roundsWithin_round (K := K) binary64 q).trans (add_le_add le_rfl hplace)
  norm_num [binary64] at hround ⊢
  exact hround

/-- 0.2, and what is left of 1. -/
example : binary32.round (1 / 5 : ℚ) = 13421773 / 2 ^ 26 ∧
    binary32.round (1 - binary32.round (1 / 5) : ℚ) = 13421773 / 2 ^ 24 := by
  decide +kernel

section Within

variable {u η : K} {rnd : K → K}

theorem RoundsWithin.of_abs_le (h : RoundsWithin u η rnd) (hu : 0 ≤ u) {q B : K}
    (hq : |q| ≤ B) : |rnd q - q| ≤ u * B + η :=
  (h q).trans (add_le_add_left (mul_le_mul_of_nonneg_left hq hu) η)

theorem abs_sum_le_length_mul {vs : List K} {B : K} (hvs : ∀ v ∈ vs, |v| ≤ B) :
    |vs.sum| ≤ vs.length * B := by
  induction vs with
  | nil => simp
  | cons v vs ih =>
      have hrest := ih fun w hw => hvs w (List.mem_cons_of_mem v hw)
      rw [List.sum_cons, List.length_cons]
      push_cast
      calc
        |v + vs.sum| ≤ |v| + |vs.sum| := abs_add_le v vs.sum
        _ ≤ B + vs.length * B := add_le_add (hvs v List.mem_cons_self) hrest
        _ = (vs.length + 1) * B := by ring

/-- Each of at most `N` additions is off by no more than one at the full sum would be. -/
theorem RoundsWithin.sum (h : RoundsWithin u η rnd) (hu : 0 ≤ u) (hη : 0 ≤ η) {B : K}
    (hB : 0 ≤ B) {N : ℕ} (hsmall : N * (u * ((N + 1) * B) + η) ≤ B) {vs : List K}
    (hlen : vs.length ≤ N) (hvs : ∀ v ∈ vs, |v| ≤ B) :
    |vs.foldl (fun s v => rnd (s + v)) 0 - vs.sum| ≤
      vs.length * (u * ((N + 1) * B) + η) := by
  have hplace : 0 ≤ u * ((N + 1) * B) + η := by positivity
  induction vs using List.reverseRecOn with
  | nil => simp
  | append_singleton vs v ih =>
      have hfront : ∀ w ∈ vs, |w| ≤ B := fun w hw => hvs w (List.mem_append_left [v] hw)
      rw [List.length_append, List.length_singleton] at hlen
      have hroom : (vs.length : K) + 1 ≤ N := by exact_mod_cast hlen
      have herror := ih (by omega) hfront
      rw [List.foldl_append, List.foldl_cons, List.foldl_nil, List.sum_append,
        List.sum_singleton, List.length_append, List.length_singleton]
      set s := vs.foldl (fun s v => rnd (s + v)) 0
      have hfirst : |s - vs.sum| ≤ B :=
        (herror.trans (mul_le_mul_of_nonneg_right (by linarith) hplace)).trans hsmall
      have hmagnitude : |s + v| ≤ (N + 1) * B :=
        calc
          |s + v| = |(s - vs.sum) + vs.sum + v| := by ring_nf
          _ ≤ |s - vs.sum| + |vs.sum| + |v| := abs_add_three _ _ _
          _ ≤ B + vs.length * B + B :=
            add_le_add (add_le_add hfirst (abs_sum_le_length_mul hfront)) (hvs v (by simp))
          _ = (vs.length + 1 + 1) * B := by ring
          _ ≤ (N + 1) * B := mul_le_mul_of_nonneg_right (by linarith) hB
      have hlast := h.of_abs_le hu hmagnitude
      push_cast
      calc
        |rnd (s + v) - (vs.sum + v)| = |(rnd (s + v) - (s + v)) + (s - vs.sum)| := by ring_nf
        _ ≤ |rnd (s + v) - (s + v)| + |s - vs.sum| := abs_add_le _ _
        _ ≤ (vs.length + 1) * (u * ((N + 1) * B) + η) := by linarith

end Within

end Bounds

end BikeMcu.BinaryRounding
