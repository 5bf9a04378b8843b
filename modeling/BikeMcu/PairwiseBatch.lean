import Mathlib.Data.List.GetD
import Mathlib.Tactic.Linarith
import BikeMcu.StreamBlocks
import BikeMcu.PairwiseDetector

namespace BikeMcu.PairwiseBatch

open BikeMcu.StreamBlocks
open BikeMcu.BmiData
open BikeMcu.BinaryRounding
open BikeMcu.PairwiseDetector

def falls : List ExactFloat → Bool
  | x :: y :: block => y.lt x && falls (y :: block)
  | _ => true

/-- The first ten values fall strictly, and the eleventh, which need not be below them,
reaches the threshold. -/
def brakesOnEleven (block : List ExactFloat) : Bool :=
  falls (block.take 10) && (block.drop 10).all fun x => x.le threshold

/-- The iteration together with its decision, if the array is full. -/
def decide2 (d : Detector2) (ax : ExactFloat) : Detector2 × Option Bool :=
  let r := detectBrake2 d ax
  (r.1, if 10 < d.count + 1 then some r.2.brakes else none)

def decisions2 (stack : ℕ → ExactFloat) (stream : List ExactFloat) : List Bool :=
  (emit decide2 (initDetector2 stack) stream).2

/-- The detector holds the block in progress, whatever lies behind it. -/
structure Collects (d : Detector2) (s : ExactFloat × List ExactFloat) : Prop where
  entries : (List.range d.count).map d.memory = s.2
  room : s.2.length < 11

theorem collects_init (stack : ℕ → ExactFloat) :
    Collects (initDetector2 stack) (.finite 0, []) :=
  ⟨rfl, by simp⟩

theorem Collects.count {d : Detector2} {s : ExactFloat × List ExactFloat} (h : Collects d s) :
    d.count = s.2.length := by
  rw [← h.entries, List.length_map, List.length_range]

theorem isBreaking_eq_falls (memory : ℕ → ExactFloat) (k n : ℕ) :
    (isBreaking memory (List.range' k n)).1 =
      falls ((List.range' k (n + 1)).map memory) := by
  induction n generalizing k with
  | zero => rfl
  | succ n ih =>
      have hfalls : falls ((List.range' k (n + 2)).map memory) =
          ((memory (k + 1)).lt (memory k) &&
            falls ((List.range' (k + 1) (n + 1)).map memory)) := rfl
      rw [hfalls, ← ih (k + 1), List.range'_succ, isBreaking]
      cases (memory (k + 1)).lt (memory k) with
      | true => rfl
      | false => rfl

theorem map_range_update (memory : ℕ → ExactFloat) (n : ℕ) (x : ExactFloat) :
    (List.range (n + 1)).map (Function.update memory n x) =
      (List.range n).map memory ++ [x] := by
  rw [List.range_succ, List.map_append, List.map_singleton, Function.update_self]
  congr 1
  apply List.map_congr_left
  intro i hi
  exact Function.update_of_ne (List.mem_range.mp hi).ne x memory

/-- The decision on a full block depends on nothing but the block. -/
theorem brakes_of_full {memory : ℕ → ExactFloat} {block : List ExactFloat}
    (hblock : (List.range 11).map memory = block) :
    ((isBreaking memory (List.range 9)).1 && (memory 10).le threshold) =
      brakesOnEleven block := by
  have htake : block.take 10 = (List.range' 0 10).map memory := by rw [← hblock]; rfl
  have hdrop : block.drop 10 = [memory 10] := by rw [← hblock]; rfl
  rw [brakesOnEleven, htake, hdrop, List.range_eq_range', isBreaking_eq_falls, List.all_cons,
    List.all_nil, Bool.and_true]

theorem Collects.step {d : Detector2} {s : ExactFloat × List ExactFloat}
    (h : Collects d s) (ax : ExactFloat) :
    (decide2 d ax).2 =
        (smoothStep some (fun _ x => hundredths x) 11 s ax).2.map brakesOnEleven ∧
      Collects (decide2 d ax).1 (smoothStep some (fun _ x => hundredths x) 11 s ax).1 := by
  have hcount := h.count
  have hentries : (List.range (d.count + 1)).map
      (Function.update d.memory d.count (hundredths ax)) = s.2 ++ [hundredths ax] := by
    rw [map_range_update, h.entries]
  simp only [smoothStep, push, decide2, detectBrake2]
  by_cases hfull : 10 < d.count + 1
  · have hten : d.count = 10 := by
      have hroom := h.room
      omega
    rw [if_pos hfull, if_pos hfull, if_pos (by omega : 11 ≤ s.2.length + 1)]
    refine ⟨?_, rfl, by simp⟩
    rw [hten] at hentries ⊢
    rw [Option.map_some, ← brakes_of_full hentries]
  · rw [if_neg hfull, if_neg hfull, if_neg (by omega : ¬ 11 ≤ s.2.length + 1)]
    refine ⟨rfl, hentries, ?_⟩
    rw [List.length_append, List.length_singleton]
    omega

/-- The value stored does not depend on the one before. -/
theorem running_hundredths (c : ExactFloat) (stream : List ExactFloat) :
    running (fun _ x => hundredths x) c stream = stream.map hundredths := by
  induction stream generalizing c with
  | nil => rfl
  | cons ax stream ih => rw [running, ih, List.map_cons]

theorem decisions2_eq (stack : ℕ → ExactFloat) (stream : List ExactFloat) :
    decisions2 stack stream =
      (completeBlocks 11 (stream.map hundredths)).map brakesOnEleven := by
  have hsimulation : ∀ d s ax, Collects d s → ∃ d', some (decide2 d ax) =
      some (d', (smoothStep some (fun _ x => hundredths x) 11 s ax).2.map brakesOnEleven) ∧
        Collects d' (smoothStep some (fun _ x => hundredths x) 11 s ax).1 := by
    intro d s ax h
    obtain ⟨hdecision, hnext⟩ := h.step ax
    exact ⟨(decide2 d ax).1, by rw [← hdecision], hnext⟩
  obtain ⟨d, hrun, -⟩ := transduce_of_simulation hsimulation (collects_init stack) stream
  rw [transduce_some, Option.some.injEq, emit_smoothStep some _ _ [] (by simp),
    List.filterMap_some, List.nil_append, running_hundredths] at hrun
  rw [decisions2, hrun]

theorem brakes_of_room {d : Detector2} (hcount : ¬ 10 < d.count + 1) (ax : ExactFloat) :
    (detectBrake2 d ax).2.brakes = false := by
  simp only [detectBrake2, if_neg hcount]

/-- There are as many brakes as decisions to brake. -/
theorem countP_brakes (d : Detector2) (stream : List ExactFloat) :
    (iterations d stream).countP Iteration.brakes =
      (emit decide2 d stream).2.count true := by
  induction stream generalizing d with
  | nil => rfl
  | cons ax stream ih =>
      simp only [iterations, emit, List.countP_cons, List.count_append, decide2, ih]
      by_cases hfull : 10 < d.count + 1
      · cases hbrakes : (detectBrake2 d ax).2.brakes <;> simp [hfull, Nat.add_comm]
      · simp [hfull, brakes_of_room hfull ax]

/-- Whatever lies behind the array, the loop decides on every complete block of eleven
samples what the specification says of their rounded values alone, and brakes that
often. -/
theorem decisions2_eq_batch (stack : ℕ → ExactFloat) (stream : List ExactFloat) :
    decisions2 stack stream =
        (completeBlocks 11 (stream.map hundredths)).map brakesOnEleven ∧
      (iterations (initDetector2 stack) stream).countP Iteration.brakes =
        ((completeBlocks 11 (stream.map hundredths)).map brakesOnEleven).count true := by
  rw [← decisions2_eq stack stream, countP_brakes]
  exact ⟨rfl, rfl⟩

theorem abs_cRound_sub_le (x : ℚ) : (cRound x : ℚ) ≤ x + 1 / 2 ∧ x - 1 / 2 ≤ cRound x := by
  rw [cRound]
  split
  · have hfloor := Int.floor_le (x + 1 / 2)
    have hlt := Int.lt_floor_add_one (x + 1 / 2)
    constructor <;> linarith
  · have hceil := Int.le_ceil (x - 1 / 2)
    have hlt := Int.ceil_lt_add_one (x - 1 / 2)
    constructor <;> linarith

/-- A half is rounded up only from zero on and down only below it. -/
theorem cRound_lt {x y : ℚ} (h : y ≤ x - 1) : cRound y < cRound x := by
  have hx := abs_cRound_sub_le x
  have hy := abs_cRound_sub_le y
  have hcast : (cRound y : ℚ) < cRound x := by
    by_cases hneg : 0 ≤ y
    · -- `x` is not negative either, and only a negative number is rounded down by a half
      have hup : (cRound x : ℚ) > x - 1 / 2 := by
        rw [cRound, if_pos (by linarith)]
        have hlt := Int.lt_floor_add_one (x + 1 / 2)
        linarith
      linarith [hy.1]
    · have hdown : (cRound y : ℚ) < y + 1 / 2 := by
        rw [cRound, if_neg hneg]
        have hlt := Int.ceil_lt_add_one (y - 1 / 2)
        linarith
      linarith [hx.2]
  exact_mod_cast hcast

/-- Within ±16 g the float product is off by little. -/
theorem floatMul_of_range {q : ℚ} (hq : |q| ≤ 16) :
    floatMul q 100 = .finite (binary32.round (q * 100)) ∧
      |binary32.round (q * 100) - q * 100| ≤ 1 / 2 ^ 13 := by
  have hproduct : |q * 100| ≤ 1600 := by
    rw [abs_mul, abs_of_pos (by norm_num : (0 : ℚ) < 100)]
    linarith
  have hround := roundsWithin_binary32.of_abs_le (by norm_num) hproduct
  have hnear : |binary32.round (q * 100) - q * 100| ≤ 1 / 2 ^ 13 := hround.trans (by norm_num)
  have hfits : |binary32.round (q * 100)| < 2 ^ 128 := by
    have hdifference := abs_sub_abs_le_abs_sub (binary32.round (q * 100)) (q * 100)
    norm_num at hnear ⊢
    linarith
  exact ⟨if_pos hfits, hnear⟩

/-- The hundredths that the code rounds a sample to. -/
def roundedHundredths (q : ℚ) : ℤ := cRound (binary32.round (q * 100))

theorem roundedHundredths_bounds {q : ℚ} (hq : |q| ≤ 16) :
    |((roundedHundredths q : ℤ) : ℚ)| ≤ 1602 := by
  obtain ⟨-, hproduct⟩ := floatMul_of_range hq
  have hround := abs_cRound_sub_le (binary32.round (q * 100))
  rw [abs_le] at hq hproduct ⊢
  rw [roundedHundredths]
  constructor
  · linarith
  · linarith

/-- What the two roundings of the quotient leave of it. -/
theorem hundredths_of_range {q : ℚ} (hq : |q| ≤ 16) : ∃ v, hundredths (.finite q) = .finite v ∧
    v = binary32.round (binary64.round ((roundedHundredths q : ℚ) / 100)) ∧
    |v - roundedHundredths q / 100| ≤ 1 / 2 ^ 18 := by
  refine ⟨_, ?_, rfl, ?_⟩
  · rw [hundredths, (floatMul_of_range hq).1, roundedQuotient, roundedHundredths]
  · have hquotient : |(roundedHundredths q : ℚ) / 100| ≤ 17 := by
      rw [abs_div, abs_of_pos (by norm_num : (0 : ℚ) < 100)]
      linarith [roundedHundredths_bounds hq]
    have hdouble := roundsWithin_binary64.of_abs_le (by norm_num) hquotient
    have hnear : |binary64.round ((roundedHundredths q : ℚ) / 100) -
        roundedHundredths q / 100| ≤ 1 / 2 ^ 40 :=
      hdouble.trans (by norm_num)
    have hbound : |binary64.round ((roundedHundredths q : ℚ) / 100)| ≤ 18 := by
      have hdifference := abs_sub_abs_le_abs_sub
        (binary64.round ((roundedHundredths q : ℚ) / 100)) (roundedHundredths q / 100)
      linarith
    have hfloat := roundsWithin_binary32.of_abs_le (by norm_num) hbound
    calc
      |binary32.round (binary64.round ((roundedHundredths q : ℚ) / 100)) -
          roundedHundredths q / 100|
          ≤ |binary32.round (binary64.round ((roundedHundredths q : ℚ) / 100)) -
              binary64.round ((roundedHundredths q : ℚ) / 100)| +
            |binary64.round ((roundedHundredths q : ℚ) / 100) - roundedHundredths q / 100| :=
            abs_sub_le _ _ _
      _ ≤ (1 / 2 ^ 24 * 18 + 1 / 2 ^ 150) + 1 / 2 ^ 40 := add_le_add hfloat hnear
      _ ≤ 1 / 2 ^ 18 := by norm_num

/-- Different hundredths are different floats. -/
theorem hundredths_lt_iff {p q : ℚ} (hp : |p| ≤ 16) (hq : |q| ≤ 16) :
    (hundredths (.finite q)).lt (hundredths (.finite p)) = true ↔
      roundedHundredths q < roundedHundredths p := by
  obtain ⟨v, hv, hvalue, hnear⟩ := hundredths_of_range hp
  obtain ⟨w, hw, hwalue, hnear'⟩ := hundredths_of_range hq
  rw [hv, hw, ExactFloat.lt, decide_eq_true_eq]
  rw [abs_le] at hnear hnear'
  have hapart : ∀ m n : ℤ, m < n → (m : ℚ) / 100 + 1 / 100 ≤ n / 100 := by
    intro m n hlt
    have hcast : (m : ℚ) + 1 ≤ n := by exact_mod_cast hlt
    linarith
  rcases lt_trichotomy (roundedHundredths q) (roundedHundredths p) with hlt | heq | hgt
  · have hgap := hapart _ _ hlt
    exact iff_of_true (by linarith) hlt
  · rw [hvalue, hwalue, heq]
    exact iff_of_false (lt_irrefl _) (lt_irrefl _)
  · have hgap := hapart _ _ hgt
    exact iff_of_false (by linarith) hgt.not_gt

theorem le_threshold_iff {q : ℚ} (hq : |q| ≤ 16) :
    (hundredths (.finite q)).le threshold = true ↔ roundedHundredths q ≤ -15 := by
  obtain ⟨v, hv, hvalue, hnear⟩ := hundredths_of_range hq
  have hliteral := roundsWithin_binary32.of_abs_le (by norm_num)
    (show |(15 / 100 : ℚ)| ≤ 1 by norm_num)
  rw [hv, ExactFloat.le, decide_eq_true_eq, threshold]
  rw [abs_le] at hnear hliteral
  norm_num at hnear hliteral
  rcases lt_trichotomy (roundedHundredths q) (-15) with hlt | heq | hgt
  · have hcast : (roundedHundredths q : ℚ) ≤ -16 := by exact_mod_cast Int.le_sub_one_of_lt hlt
    exact iff_of_true (by linarith) hlt.le
  · -- here both are the float next to -0.15
    have hdouble : binary64.round (-15 / 100 : ℚ) = -5404319552844595 / 2 ^ 55 := by
      decide +kernel
    have hfloat : binary32.round (-5404319552844595 / 2 ^ 55 : ℚ) =
        -binary32.round (15 / 100) := by
      decide +kernel
    have hcast : ((-15 : ℤ) : ℚ) = -15 := by norm_num
    rw [hvalue, heq, hcast, hdouble, hfloat]
    exact iff_of_true le_rfl le_rfl
  · have hcast : (-14 : ℚ) ≤ roundedHundredths q := by exact_mod_cast hgt
    exact iff_of_false (by linarith) hgt.not_ge

/-- The float next to -0.145 lies above it, but is rounded down all the same. -/
example : -145 / 1000 < -binary32.round (145 / 1000 : ℚ) ∧
    roundedHundredths (-binary32.round (145 / 1000)) = -15 := by
  decide +kernel

theorem falls_iff_isChain {qs : List ℚ} (hqs : ∀ q ∈ qs, |q| ≤ 16) :
    falls (qs.map fun q => hundredths (.finite q)) = true ↔
      (qs.map roundedHundredths).IsChain fun m n => n < m := by
  induction qs with
  | nil => simp [falls]
  | cons p qs ih =>
      cases qs with
      | nil => simp [falls]
      | cons q qs =>
          obtain ⟨hp, hrest⟩ := List.forall_mem_cons.mp hqs
          have htail := ih hrest
          simp only [List.map_cons] at htail
          simp only [List.map_cons, falls, Bool.and_eq_true, List.isChain_cons_cons, htail,
            hundredths_lt_iff hp (hrest q List.mem_cons_self)]

/-- Of a block within range the hundredths decide. -/
theorem brakesOnEleven_iff {block : List ℚ} (hrange : ∀ q ∈ block, |q| ≤ 16) :
    brakesOnEleven (block.map fun q => hundredths (.finite q)) = true ↔
      ((block.take 10).map roundedHundredths).IsChain (fun m n => n < m) ∧
        ∀ q ∈ block.drop 10, roundedHundredths q ≤ -15 := by
  rw [brakesOnEleven, Bool.and_eq_true, ← List.map_take, ← List.map_drop, List.all_map,
    List.all_eq_true, falls_iff_isChain fun q hq => hrange q (List.mem_of_mem_take hq)]
  exact and_congr_right fun _ => forall₂_congr fun q hq =>
    le_threshold_iff (hrange q (List.mem_of_mem_drop hq))

/-- Each of the first ten samples is below the one before by a hundredth and a margin, and
the eleventh within half a hundredth of the threshold by the margin. -/
def Steep (block : List ℚ) : Prop :=
  (block.take 10).IsChain (fun p q => q ≤ p - 1 / 100 - 1 / 2 ^ 18) ∧
    ∀ q ∈ block.drop 10, q ≤ -145 / 1000 - 1 / 2 ^ 18

/-- The tenth sample is at least 0.08 g below the first, the eleventh within half a
hundredth of the threshold, both up to the margin. -/
def Deep (block : List ℚ) : Prop :=
  block.getD 9 0 ≤ block.getD 0 0 - 8 / 100 + 1 / 2 ^ 18 ∧
    ∀ q ∈ block.drop 10, q ≤ -145 / 1000 + 1 / 2 ^ 18

theorem cRound_le {x : ℚ} (hx : x ≤ -29 / 2) : cRound x ≤ -15 := by
  rw [cRound, if_neg (by linarith)]
  exact Int.ceil_le.mpr (by push_cast; linarith)

theorem roundedHundredths_lt {p q : ℚ} (hp : |p| ≤ 16) (hq : |q| ≤ 16)
    (h : q ≤ p - 1 / 100 - 1 / 2 ^ 18) : roundedHundredths q < roundedHundredths p := by
  have hpnear := (abs_le.mp (floatMul_of_range hp).2).1
  have hqnear := (abs_le.mp (floatMul_of_range hq).2).2
  refine cRound_lt ?_
  norm_num at hpnear hqnear h
  linarith

theorem brakes_of_steep {block : List ℚ} (hrange : ∀ q ∈ block, |q| ≤ 16) (h : Steep block) :
    brakesOnEleven (block.map fun q => hundredths (.finite q)) = true := by
  rw [brakesOnEleven_iff hrange]
  constructor
  · rw [List.isChain_map]
    refine List.IsChain.imp_of_mem_imp ?_ h.1
    intro p q hp hq hpq
    exact roundedHundredths_lt (hrange p (List.mem_of_mem_take hp))
      (hrange q (List.mem_of_mem_take hq)) hpq
  · intro q hq
    have hnear := (abs_le.mp (floatMul_of_range (hrange q (List.mem_of_mem_drop hq))).2).2
    have hlow := h.2 q hq
    norm_num at hnear hlow
    exact cRound_le (by linarith)

/-- Every strict fall of the hundredths is one by a hundredth at least. -/
theorem getD_le_of_isChain {m : ℤ} {ms : List ℤ} (h : (m :: ms).IsChain fun m n => n < m)
    {i : ℕ} (hi : i ≤ ms.length) : (m :: ms).getD i 0 ≤ m - i := by
  induction ms generalizing m i with
  | nil =>
      obtain rfl : i = 0 := Nat.le_zero.mp hi
      simp
  | cons n ms ih =>
      cases i with
      | zero => simp
      | succ i =>
          obtain ⟨hfall, hrest⟩ := List.isChain_cons_cons.mp h
          have hlow := ih hrest (Nat.succ_le_succ_iff.mp hi)
          rw [List.getD_cons_succ]
          push_cast
          omega

theorem deep_of_brakes {block : List ℚ} (hlen : block.length = 11)
    (hrange : ∀ q ∈ block, |q| ≤ 16)
    (h : brakesOnEleven (block.map fun q => hundredths (.finite q)) = true) : Deep block := by
  obtain ⟨hchain, hlast⟩ := (brakesOnEleven_iff hrange).mp h
  constructor
  · cases block with
    | nil => cases hlen
    | cons p block =>
        rw [List.length_cons] at hlen
        have htenth : (p :: block).getD 9 0 = block[8] := by
          rw [List.getD_cons_succ, List.getD_eq_getElem _ _ (by omega)]
        have hfall := getD_le_of_isChain hchain (i := 9) (by simp; omega)
        have hvalue : (roundedHundredths p :: (block.take 9).map roundedHundredths).getD 9 0 =
            roundedHundredths block[8] := by
          rw [List.getD_cons_succ, List.getD_eq_getElem _ _ (by simp; omega)]
          simp
        rw [hvalue] at hfall
        have hcast : (roundedHundredths block[8] : ℚ) ≤ roundedHundredths p - 9 := by
          exact_mod_cast hfall
        have hp := hrange p List.mem_cons_self
        have hq := hrange block[8] (List.mem_cons_of_mem p (List.getElem_mem _))
        have hfirst := (abs_cRound_sub_le (binary32.round (p * 100))).1
        have hten := (abs_cRound_sub_le (binary32.round (block[8] * 100))).2
        have hpnear := (abs_le.mp (floatMul_of_range hp).2).2
        have hqnear := (abs_le.mp (floatMul_of_range hq).2).1
        rw [htenth, List.getD_cons_zero]
        rw [roundedHundredths, roundedHundredths] at hcast
        norm_num at hpnear hqnear ⊢
        linarith
  · intro q hq
    have hround := (abs_cRound_sub_le (binary32.round (q * 100))).2
    have hnear := (abs_le.mp (floatMul_of_range (hrange q (List.mem_of_mem_drop hq))).2).1
    have hlow : (roundedHundredths q : ℚ) ≤ -15 := by exact_mod_cast hlast q hq
    rw [roundedHundredths] at hlow
    norm_num at hnear ⊢
    linarith

/-- Between these bounds the rounding decides. In any stream of floats a block of finite
accelerations within ±16 g that is steep is braked on, and one that is braked on is deep. -/
theorem steep_brakes_deep (stack : ℕ → ExactFloat) (stream : List ExactFloat) {k : ℕ}
    {block : List ℚ} (hblock : (completeBlocks 11 stream)[k]? = some (block.map .finite))
    (hrange : ∀ q ∈ block, |q| ≤ 16) :
    (Steep block → (decisions2 stack stream)[k]? = some true) ∧
      ((decisions2 stack stream)[k]? = some true → Deep block) := by
  have hdecision : (decisions2 stack stream)[k]? =
      some (brakesOnEleven (block.map fun q => hundredths (.finite q))) := by
    rw [decisions2_eq, completeBlocks_map, List.map_map, List.getElem?_map, hblock,
      Option.map_some, Function.comp_apply, List.map_map]
    rfl
  have hlen : block.length = 11 := by
    rw [← List.length_map (ExactFloat.finite)]
    exact length_of_mem_completeBlocks (List.mem_of_getElem? hblock)
  rw [hdecision, Option.some.injEq]
  exact ⟨brakes_of_steep hrange, deep_of_brakes hlen hrange⟩

/-- A fall of 1/64 g a sample. -/
def slowdown : List ℚ :=
  (List.range 11).map fun i => -i / 64

theorem steep_slowdown : Steep slowdown := by
  constructor
  · norm_num [slowdown, List.range, List.range.loop]
  · norm_num [slowdown, List.range, List.range.loop]

/-- It is braked on behind eleven samples that are not numbers. -/
theorem slowdown_brakes_deep :
    (decisions2 (fun _ => .nan) (List.replicate 11 .nan ++ slowdown.map .finite))[1]? =
      some true ∧ Deep slowdown := by
  have hblock : (completeBlocks 11 (List.replicate 11 .nan ++ slowdown.map .finite))[1]? =
      some (slowdown.map ExactFloat.finite) := rfl
  have hrange : ∀ q ∈ slowdown, |q| ≤ 16 := by
    norm_num [slowdown, List.range, List.range.loop]
  obtain ⟨hbrakes, hdeep⟩ := steep_brakes_deep (fun _ => .nan) _ hblock hrange
  exact ⟨hbrakes steep_slowdown, hdeep (hbrakes steep_slowdown)⟩

end BikeMcu.PairwiseBatch
