import BikeMcu.BinaryRounding
import BikeMcu.BatchDetection

namespace BikeMcu.FloatDetector

open BikeMcu.StreamBlocks
open BikeMcu.BmiData
open BikeMcu.BinaryRounding
open BikeMcu.BrakeDetector (Detector initDetector Window load store logArr invalid
  decelMinCount decreasingPairs load_eq take_set logArr_eq)
open BikeMcu.BatchDetection (accepted smooth brakesOn Follows follows_init
  accepted_eq_none_iff accepted_eq_some_iff toRat_of_accepted)

/-- What the compiler makes of `a * x + b * y`: each product is rounded by itself, or one
of them only together with the sum. -/
inductive Contraction where
  | separate
  | fuseFirst
  | fuseSecond
  deriving DecidableEq, Repr

section Model

variable (rnd : ℚ → ℚ) (c : Contraction)

def Contraction.mulAdd (a x b y : ℚ) : ℚ :=
  match c with
  | .separate => rnd (rnd (a * x) + rnd (b * y))
  | .fuseFirst => rnd (a * x + rnd (b * y))
  | .fuseSecond => rnd (rnd (a * x) + b * y)

def alpha : ℚ := rnd (1 / 5)

def brakeThreshold : ℚ := -rnd (3 / 20)

def filter (f x : ℚ) : ℚ :=
  c.mulAdd rnd (alpha rnd) x (rnd (1 - alpha rnd)) f

def brakes (w : Window) : Bool :=
  decide (decelMinCount ≤ w.decelCount) && decide (w.avgAx ≤ brakeThreshold rnd)

def trendStep (arr : Vector ℚ 10) (acc : ℕ × ℚ) (i : ℕ) : Option (ℕ × ℚ) :=
  (load arr (i + 1)).bind fun next =>
    (load arr i).map fun cur =>
      (if next < cur then acc.1 + 1 else acc.1, rnd (acc.2 + cur))

def window (arr : Vector ℚ 10) : Option Window :=
  ((List.range 9).foldlM (trendStep rnd arr) (0, 0)).bind fun acc =>
    (load arr 9).map fun last =>
      { decelCount := acc.1, avgAx := rnd (rnd (acc.2 + last) / 10) }

/-- One iteration, with every operation on floats rounded. The test of `fabs` is made in
double precision, which holds each float. -/
def detectBrake1 (d : Detector) (ax : ExactFloat) : Option (Detector × Option Window) :=
  if invalid ax then some (d, none)
  else
    let filteredAx := filter rnd c d.filteredAx ax.toRat
    (store d.arr d.count filteredAx).bind fun arr =>
      if 10 ≤ d.count + 1 then
        (window rnd arr).bind fun w =>
          (if brakes rnd w then logArr arr else some []).map fun _ =>
            ({ count := 0, arr := arr, filteredAx := filteredAx }, some w)
      else some ({ count := d.count + 1, arr := arr, filteredAx := filteredAx }, none)

def decisions (stream : List ExactFloat) : Option (List Bool) :=
  (transduce (detectBrake1 rnd c) initDetector stream).map fun r => r.2.map (brakes rnd)

def sum (vs : List ℚ) : ℚ :=
  vs.foldl (fun s v => rnd (s + v)) 0

def windowOf (block : List ℚ) : Window :=
  { decelCount := decreasingPairs block, avgAx := rnd (sum rnd block / 10) }

/-- The decisions said of the whole stream at once. -/
def batchDecisions (stream : List ExactFloat) : List Bool :=
  (completeBlocks 10 (running (filter rnd c) 0 (stream.filterMap accepted))).map
    fun block => brakes rnd (windowOf rnd block)

/-- The loop over `i` up to `n`. -/
theorem foldlM_trendStep (arr : Vector ℚ 10) {n : ℕ} (hn : n ≤ 9) :
    (List.range n).foldlM (trendStep rnd arr) (0, 0) =
      some (((arr.toList.zip arr.toList.tail).take n).countP fun p => decide (p.2 < p.1),
        sum rnd (arr.toList.take n)) := by
  induction n with
  | zero => rfl
  | succ n ih =>
      have hpair : (arr.toList.zip arr.toList.tail)[n]? = some (arr[n], arr[n + 1]) := by
        simp [List.getElem?_zip_eq_some, show n + 1 < 10 by omega, show n < 10 by omega]
      have hget : arr.toList[n]? = some arr[n] := by simp [show n < 10 by omega]
      rw [List.range_succ, List.foldlM_append, ih (by omega), List.take_add_one,
        List.take_add_one, hpair, hget]
      simp only [List.foldlM_cons, List.foldlM_nil, trendStep,
        load_eq arr (show n < 10 by omega), load_eq arr (show n + 1 < 10 by omega)]
      by_cases hlt : arr[n + 1] < arr[n] <;> simp [hlt, sum]

theorem window_eq (arr : Vector ℚ 10) : window rnd arr = some (windowOf rnd arr.toList) := by
  have hpairs : (arr.toList.zip arr.toList.tail).take 9 =
      arr.toList.zip arr.toList.tail := List.take_of_length_le (by simp)
  have hlast : arr.toList = arr.toList.take 9 ++ [arr[9]] := by
    have hten : arr.toList.take 10 = arr.toList.take 9 ++ [arr[9]] := by
      rw [List.take_add_one]
      simp
    rwa [List.take_of_length_le (by simp)] at hten
  have hsum : rnd (sum rnd (arr.toList.take 9) + arr[9]) = sum rnd arr.toList := by
    conv_rhs => rw [hlast]
    simp [sum]
  rw [window, foldlM_trendStep rnd arr le_rfl, load_eq arr (by omega)]
  simp only [Option.bind_some, Option.map_some, hsum, hpairs, decreasingPairs, windowOf]

theorem brakes_id : brakes id = Window.brakes := by
  have hthreshold : brakeThreshold id = BrakeDetector.brakeThreshold := by
    norm_num [brakeThreshold, BrakeDetector.brakeThreshold]
  funext w
  rw [brakes, hthreshold, Window.brakes]

/-- Without rounding it is the exact detector. -/
theorem detectBrake1_id (d : Detector) (ax : ExactFloat) :
    detectBrake1 id c d ax = BrakeDetector.detectBrake1 d ax := by
  have hfilter : filter id c d.filteredAx ax.toRat =
      BrakeDetector.alpha * ax.toRat + (1 - BrakeDetector.alpha) * d.filteredAx := by
    cases c <;> rfl
  rw [detectBrake1, BrakeDetector.detectBrake1, hfilter, brakes_id]
  rfl

/-- What the loop does with an accepted sample. -/
theorem detectBrake1_of_accepted {d : Detector} {ax : ExactFloat} {x : ℚ}
    (hcount : d.count < 10) (hax : accepted ax = some x) :
    detectBrake1 rnd c d ax = some (if 10 ≤ d.count + 1 then
      ({ count := 0
         arr := d.arr.set d.count (filter rnd c d.filteredAx x)
         filteredAx := filter rnd c d.filteredAx x },
        some (windowOf rnd (d.arr.set d.count (filter rnd c d.filteredAx x)).toList))
    else
      ({ count := d.count + 1
         arr := d.arr.set d.count (filter rnd c d.filteredAx x)
         filteredAx := filter rnd c d.filteredAx x }, none)) := by
  have hvalid : ¬ invalid ax = true := by
    rw [← accepted_eq_none_iff, hax]
    simp
  unfold detectBrake1
  rw [if_neg hvalid, toRat_of_accepted hax]
  simp only [store, dif_pos hcount, Option.bind_some, window_eq, logArr_eq]
  split
  · split <;> rfl
  · rfl

theorem follows_step {d : Detector} {s : ℚ × List ℚ} (h : Follows d s) (ax : ExactFloat) :
    ∃ d', detectBrake1 rnd c d ax = some (d',
        (smoothStep accepted (filter rnd c) 10 s ax).2.map (windowOf rnd)) ∧
      Follows d' (smoothStep accepted (filter rnd c) 10 s ax).1 := by
  cases hax : accepted ax with
  | none =>
      refine ⟨d, ?_, ?_⟩
      · simp [detectBrake1, (accepted_eq_none_iff ax).mp hax, smoothStep, hax]
      · simpa [smoothStep, hax] using h
  | some x =>
      have hcount : d.count < 10 := h.count ▸ h.room
      have htake : (d.arr.set d.count (filter rnd c s.1 x)).toList.take (d.count + 1) =
          s.2 ++ [filter rnd c s.1 x] := by
        rw [← h.entries, take_set d.arr _ hcount]
      rw [detectBrake1_of_accepted rnd c hcount hax, h.filter]
      simp only [smoothStep, hax, push]
      by_cases hfull : 10 ≤ s.2.length + 1
      · have hten : (d.arr.set d.count (filter rnd c s.1 x)).toList =
            s.2 ++ [filter rnd c s.1 x] := by
          rw [← htake, List.take_of_length_le (by simp [h.count, hfull])]
        rw [if_pos (h.count ▸ hfull), if_pos hfull, hten]
        exact ⟨_, rfl, ⟨rfl, by simp, rfl, rfl⟩⟩
      · rw [if_neg (h.count ▸ hfull), if_neg hfull]
        exact ⟨_, rfl, ⟨by simp [h.count], by simp; omega, rfl, htake⟩⟩

theorem decisions_eq (stream : List ExactFloat) :
    decisions rnd c stream = some (batchDecisions rnd c stream) := by
  obtain ⟨d, hrun, -⟩ := transduce_of_simulation (R := Follows)
    (fun d s ax h => follows_step rnd c h ax) follows_init stream
  rw [emit_smoothStep accepted (filter rnd c) 0 [] (by simp)] at hrun
  simp only [decisions, hrun, Option.map_some, List.map_map, List.nil_append,
    Function.comp_def, batchDecisions]

theorem batchDecisions_id (stream : List ExactFloat) :
    batchDecisions id c stream = BatchDetection.batchDecisions stream := by
  have hexact : decisions id c stream = BrakeDetector.decisions stream := by
    have hstep : detectBrake1 id c = BrakeDetector.detectBrake1 := by
      funext d ax
      exact detectBrake1_id c d ax
    rw [decisions, BrakeDetector.decisions, hstep, brakes_id]
  rw [decisions_eq, BatchDetection.decisions_eq] at hexact
  exact Option.some.inj hexact

theorem exists_detectBrake1 {d : Detector} (ax : ExactFloat) (hcount : d.count < 10) :
    ∃ r, detectBrake1 rnd c d ax = some r := by
  cases hax : accepted ax with
  | none => exact ⟨_, by rw [detectBrake1, if_pos ((accepted_eq_none_iff ax).mp hax)]⟩
  | some x => exact ⟨_, detectBrake1_of_accepted rnd c hcount hax⟩

variable {rnd c} in
theorem detectBrake1_eq_some {d d' : Detector} {ax : ExactFloat} {w : Option Window}
    (h : detectBrake1 rnd c d ax = some (d', w)) :
    (invalid ax = true ∧ d' = d ∧ w = none) ∨
    (invalid ax = false ∧ d.count + 1 < 10 ∧ d'.count = d.count + 1 ∧ w = none) ∨
    (invalid ax = false ∧ d.count = 9 ∧ d'.count = 0 ∧ w.isSome) := by
  unfold detectBrake1 at h
  split at h
  · obtain ⟨rfl, rfl⟩ := Prod.mk.inj (Option.some.inj h)
    exact .inl ⟨‹_›, rfl, rfl⟩
  rename_i hvalid
  rw [Bool.not_eq_true] at hvalid
  obtain ⟨arr, harr, hrest⟩ := Option.bind_eq_some_iff.mp h
  have hcount : d.count < 10 := by
    unfold store at harr
    split at harr
    · rename_i hcount
      exact hcount
    · cases harr
  split at hrest
  · obtain ⟨v, -, hwindow⟩ := Option.bind_eq_some_iff.mp hrest
    obtain ⟨l, -, heq⟩ := Option.map_eq_some_iff.mp hwindow
    obtain ⟨rfl, rfl⟩ := Prod.mk.inj heq
    exact .inr (.inr ⟨hvalid, by omega, rfl, rfl⟩)
  · obtain ⟨rfl, rfl⟩ := Prod.mk.inj (Option.some.inj hrest)
    exact .inr (.inl ⟨hvalid, by omega, rfl, rfl⟩)

end Model

/-- The pairs that fall by more than `margin`. -/
def fallingBy (margin : ℚ) (b : List ℚ) : ℕ :=
  (b.zip b.tail).countP fun p => decide (p.2 + margin < p.1)

def brakesBy (margin : ℚ) (block : List ℚ) : Bool :=
  decide (4 ≤ fallingBy margin block) && decide (block.sum / 10 ≤ -15 / 100 - margin)

theorem brakesBy_iff {margin : ℚ} {block : List ℚ} :
    brakesBy margin block = true ↔
      4 ≤ fallingBy margin block ∧ block.sum / 10 ≤ -15 / 100 - margin := by
  rw [brakesBy, Bool.and_eq_true, decide_eq_true_eq, decide_eq_true_eq]

theorem brakes_windowOf_iff {rnd : ℚ → ℚ} {block : List ℚ} :
    brakes rnd (windowOf rnd block) = true ↔
      4 ≤ decreasingPairs block ∧ rnd (sum rnd block / 10) ≤ -rnd (3 / 20) := by
  rw [brakes, Bool.and_eq_true, decide_eq_true_eq, decide_eq_true_eq]
  rfl

/-- The exact decisions when each comparison has to hold by a margin, or may fail by one. -/
def decisionsBy (margin : ℚ) (stream : List ExactFloat) : List Bool :=
  (completeBlocks 10 (running smooth 0 (stream.filterMap accepted))).map (brakesBy margin)

theorem decisionsBy_zero (stream : List ExactFloat) :
    BrakeDetector.decisions stream = some (decisionsBy 0 stream) := by
  have hbrakes : brakesOn = brakesBy 0 := by
    funext block
    have hpairs : fallingBy 0 block = decreasingPairs block :=
      List.countP_congr fun p _ => by simp
    rw [Bool.eq_iff_iff, brakesOn, brakesBy, Bool.and_eq_true, Bool.and_eq_true,
      decide_eq_true_eq, decide_eq_true_eq, decide_eq_true_eq, decide_eq_true_eq, hpairs,
      sub_zero]
  rw [BatchDetection.decisions_eq, BatchDetection.batchDecisions, hbrakes, decisionsBy]

structure NearSample (M δ x x' : ℚ) : Prop where
  magnitude : |x| ≤ M
  magnitude' : |x'| ≤ M
  distance : |x' - x| ≤ δ

/-- The filter's value, and what it is with rounding. -/
structure Near (M δ f f' : ℚ) : Prop where
  magnitude : |f| ≤ M
  distance : |f' - f| ≤ M / 2 ^ 19 + δ

section Rounded

variable {rnd : ℚ → ℚ} (h : RoundsWithin (1 / 2 ^ 24) (1 / 2 ^ 150) rnd) {M δ : ℚ}

include h

theorem abs_round_sub_le {q B : ℚ} (hq : |q| ≤ B) :
    |rnd q - q| ≤ 1 / 2 ^ 24 * B + 1 / 2 ^ 150 :=
  h.of_abs_le (by norm_num) hq

/-- The compiler's choice only leaves roundings out. -/
theorem mulAdd_eq (c : Contraction) (a x b y : ℚ) :
    ∃ p q, c.mulAdd rnd a x b y = rnd (p + q) ∧
      |p - a * x| ≤ 1 / 2 ^ 24 * |a * x| + 1 / 2 ^ 150 ∧
      |q - b * y| ≤ 1 / 2 ^ 24 * |b * y| + 1 / 2 ^ 150 := by
  have hexact : ∀ q : ℚ, |q - q| ≤ 1 / 2 ^ 24 * |q| + 1 / 2 ^ 150 := by
    intro q
    rw [sub_self, abs_zero]
    positivity
  cases c with
  | separate => exact ⟨_, _, rfl, h (a * x), h (b * y)⟩
  | fuseFirst => exact ⟨_, _, rfl, hexact (a * x), h (b * y)⟩
  | fuseSecond => exact ⟨_, _, rfl, h (a * x), hexact (b * y)⟩

theorem abs_alpha_sub_le : |alpha rnd - 1 / 5| ≤ 1 / 2 ^ 26 := by
  have hround := abs_round_sub_le h (q := 1 / 5) (B := 1 / 5) (by norm_num)
  exact hround.trans (by norm_num)

theorem abs_rest_sub_le : |rnd (1 - alpha rnd) - 4 / 5| ≤ 5 / 2 ^ 26 := by
  obtain ⟨hlow, hhigh⟩ := abs_le.mp (abs_alpha_sub_le h)
  have hrest : |1 - alpha rnd| ≤ 9 / 10 := by
    rw [abs_le]
    constructor
    · norm_num at hlow hhigh ⊢
      linarith
    · norm_num at hlow hhigh ⊢
      linarith
  obtain ⟨hlow', hhigh'⟩ := abs_le.mp (abs_round_sub_le h hrest)
  rw [abs_le]
  norm_num at hlow hhigh hlow' hhigh' ⊢
  constructor
  · linarith
  · linarith

/-- One step of the filter, on a sample and from a value that are off. -/
theorem abs_filter_sub_le (c : Contraction) (hM : 1 ≤ M) {f f' x x' ε : ℚ}
    (hf' : |f'| ≤ 101 / 100 * M) (hx' : |x'| ≤ M) (hx : |x' - x| ≤ δ) (hff : |f' - f| ≤ ε) :
    |filter rnd c f' x' - smooth f x| ≤ 2 / 10 * δ + 8 / 10 * ε + 4 / 2 ^ 24 * M := by
  obtain ⟨p, q, heq, hp, hq⟩ := mulAdd_eq h c (alpha rnd) x' (rnd (1 - alpha rnd)) f'
  set a := alpha rnd
  set b := rnd (1 - alpha rnd)
  -- the coefficients are off by their own rounding
  have hax : |(a - 1 / 5) * x'| ≤ 1 / 2 ^ 26 * M := by
    rw [abs_mul]
    exact mul_le_mul (abs_alpha_sub_le h) hx' (abs_nonneg x') (by norm_num)
  have hbf : |(b - 4 / 5) * f'| ≤ 5 / 2 ^ 26 * (101 / 100 * M) := by
    rw [abs_mul]
    exact mul_le_mul (abs_rest_sub_le h) hf' (abs_nonneg f') (by norm_num)
  have hfirst : |a * x'| ≤ 21 / 100 * M := by
    rw [abs_le] at hax hx' ⊢
    constructor
    · linarith
    · linarith
  have hsecond : |b * f'| ≤ 82 / 100 * M := by
    rw [abs_le] at hbf hf' ⊢
    constructor
    · linarith
    · linarith
  have hsum : |p + q| ≤ 104 / 100 * M := by
    rw [abs_le] at hp hq ⊢
    constructor
    · linarith [abs_le.mp hfirst, abs_le.mp hsecond]
    · linarith [abs_le.mp hfirst, abs_le.mp hsecond]
  have hround := abs_round_sub_le h hsum
  rw [filter, heq, smooth]
  rw [abs_le] at hax hbf hp hq hround hx hff ⊢
  constructor
  · linarith
  · linarith

omit h in
theorem Near.bound {f f' : ℚ} (hnear : Near M δ f f') (hM : 1 ≤ M) (hδ : δ ≤ M / 2 ^ 10) :
    |f'| ≤ 101 / 100 * M := by
  have hf := hnear.magnitude
  have hff := hnear.distance
  rw [abs_le] at hf hff ⊢
  constructor
  · linarith
  · linarith

omit h in
theorem bound_of_near (hM : 1 ≤ M) (hδM : δ ≤ M / 2 ^ 10) {b b' : List ℚ}
    (hb : List.Forall₂ (Near M δ) b b') : ∀ v ∈ b', |v| ≤ 101 / 100 * M :=
  forall_of_forall₂ (P := fun _ => True) (fun _ _ hnear _ => hnear.bound hM hδM) hb
    fun _ _ => trivial

omit h in
theorem abs_sum_sub_le {b b' : List ℚ} (hb : List.Forall₂ (Near M δ) b b') :
    |b'.sum - b.sum| ≤ b.length * (M / 2 ^ 19 + δ) := by
  induction hb with
  | nil => simp
  | @cons f f' b b' hnear _ ih =>
      have hff := hnear.distance
      rw [List.sum_cons, List.sum_cons, List.length_cons]
      push_cast
      calc
        |f' + b'.sum - (f + b.sum)| = |(f' - f) + (b'.sum - b.sum)| := by ring_nf
        _ ≤ |f' - f| + |b'.sum - b.sum| := abs_add_le _ _
        _ ≤ (b.length + 1) * (M / 2 ^ 19 + δ) := by linarith

theorem near_running (c : Contraction) (hM : 1 ≤ M) (hδ : 0 ≤ δ) (hδM : δ ≤ M / 2 ^ 10)
    {xs xs' : List ℚ} (hxs : List.Forall₂ (NearSample M δ) xs xs') :
    List.Forall₂ (Near M δ) (running smooth 0 xs) (running (filter rnd c) 0 xs') := by
  have hzero : Near M δ 0 0 := by
    constructor
    · rw [abs_zero]
      linarith
    · rw [sub_zero, abs_zero]
      positivity
  refine running_forall₂ ?_ hzero hxs
  intro f f' x x' hnear hx
  have hstep := abs_filter_sub_le h c hM (hnear.bound hM hδM) hx.magnitude' hx.distance
    hnear.distance
  refine ⟨?_, hstep.trans (by linarith)⟩
  have hf := hnear.magnitude
  have hx := hx.magnitude
  rw [smooth]
  rw [abs_le] at hf hx ⊢
  constructor
  · linarith
  · linarith

/-- Ten additions and a division. -/
theorem abs_avg_sub_le (hM : 1 ≤ M) {b : List ℚ} (hlen : b.length = 10)
    (hb : ∀ v ∈ b, |v| ≤ 101 / 100 * M) :
    |rnd (sum rnd b / 10) - b.sum / 10| ≤ 13 / 2 ^ 24 * M := by
  have hadded := h.sum (by norm_num) (by norm_num) (B := 101 / 100 * M) (by linarith)
    (N := 10) (by norm_num; linarith) hlen.le hb
  have htotal := abs_sum_le_length_mul hb
  rw [hlen] at hadded htotal
  have hquotient : |sum rnd b / 10| ≤ 102 / 100 * M := by
    rw [sum]
    rw [abs_le] at hadded htotal ⊢
    norm_num at hadded htotal ⊢
    constructor
    · linarith
    · linarith
  have hround := abs_round_sub_le h hquotient
  rw [sum] at hround ⊢
  rw [abs_le] at hadded hround ⊢
  norm_num at hadded hround ⊢
  constructor
  · linarith
  · linarith

theorem abs_threshold_sub_le : |rnd (3 / 20) - 3 / 20| ≤ 1 / 2 ^ 26 :=
  (abs_round_sub_le h (q := 3 / 20) (B := 3 / 20) (by norm_num)).trans (by norm_num)

omit h in
theorem pairs_between {b b' : List ℚ} (hb : List.Forall₂ (Near M δ) b b') :
    fallingBy (M / 2 ^ 18 + 2 * δ) b ≤ decreasingPairs b' ∧
      decreasingPairs b' ≤ fallingBy (-(M / 2 ^ 18 + 2 * δ)) b := by
  have hpairs := zip_tail_forall₂ hb
  constructor
  · apply countP_le_of_forall₂
    refine hpairs.imp ?_
    rintro p p' ⟨hcur, hnext⟩ hp
    have hcur := abs_le.mp hcur.distance
    have hnext := abs_le.mp hnext.distance
    rw [decide_eq_true_eq] at hp ⊢
    linarith
  · apply countP_le_of_forall₂
    refine hpairs.flip.imp ?_
    rintro p' p ⟨hcur, hnext⟩ hp
    have hcur := abs_le.mp hcur.distance
    have hnext := abs_le.mp hnext.distance
    rw [decide_eq_true_eq] at hp ⊢
    linarith

/-- The comparisons that hold with the margin hold with rounding, and those that hold with
rounding fail by no more than the margin. -/
theorem brakes_between (hM : 1 ≤ M) (hδ : 0 ≤ δ) (hδM : δ ≤ M / 2 ^ 10) {b b' : List ℚ}
    (hlen : b.length = 10) (hb : List.Forall₂ (Near M δ) b b') :
    (brakesBy (M / 2 ^ 18 + 2 * δ) b = true → brakes rnd (windowOf rnd b') = true) ∧
      (brakes rnd (windowOf rnd b') = true →
        brakesBy (-(M / 2 ^ 18 + 2 * δ)) b = true) := by
  obtain ⟨hmore, hless⟩ := pairs_between hb
  have havg := abs_le.mp (abs_avg_sub_le h hM (hb.length_eq ▸ hlen) (bound_of_near hM hδM hb))
  have hmean := abs_le.mp (abs_sum_sub_le hb)
  have hthreshold := abs_le.mp (abs_threshold_sub_le h)
  rw [hlen] at hmean
  push_cast at hmean
  rw [brakesBy_iff, brakesBy_iff, brakes_windowOf_iff]
  constructor
  · rintro ⟨hcount, hlow⟩
    refine ⟨hcount.trans hmore, ?_⟩
    linarith
  · rintro ⟨hcount, hlow⟩
    refine ⟨hcount.trans hless, ?_⟩
    linarith

/-- Two streams whose accepted samples are near each other: the detector with rounding on
one of them brakes between the exact one on the other with the margin held and forgiven. -/
theorem batchDecisions_between (c : Contraction) (hM : 1 ≤ M) (hδ : 0 ≤ δ)
    (hδM : δ ≤ M / 2 ^ 10) {stream stream' : List ExactFloat}
    (hstream : List.Forall₂ (NearSample M δ) (stream.filterMap accepted)
      (stream'.filterMap accepted)) :
    List.Forall₂ (fun sure b => sure = true → b = true)
        (decisionsBy (M / 2 ^ 18 + 2 * δ) stream) (batchDecisions rnd c stream') ∧
      List.Forall₂ (fun b possible => b = true → possible = true)
        (batchDecisions rnd c stream') (decisionsBy (-(M / 2 ^ 18 + 2 * δ)) stream) := by
  have hblocks := completeBlocks_forall₂ 10 (near_running h c hM hδ hδM hstream)
  have hbetween : List.Forall₂ (fun b b' =>
      (brakesBy (M / 2 ^ 18 + 2 * δ) b = true → brakes rnd (windowOf rnd b') = true) ∧
        (brakes rnd (windowOf rnd b') = true →
          brakesBy (-(M / 2 ^ 18 + 2 * δ)) b = true))
      (completeBlocks 10 (running smooth 0 (stream.filterMap accepted)))
      (completeBlocks 10 (running (filter rnd c) 0 (stream'.filterMap accepted))) := by
    refine ((List.forall₂_and_left _ _).mpr
      ⟨fun b hb => length_of_mem_completeBlocks hb, hblocks⟩).imp ?_
    rintro b b' ⟨hlen, hb⟩
    exact brakes_between h hM hδ hδM hlen hb
  constructor
  · rw [decisionsBy, batchDecisions, List.forall₂_map_left_iff, List.forall₂_map_right_iff]
    exact hbetween.imp fun b b' hb => hb.1
  · rw [decisionsBy, batchDecisions, List.forall₂_map_left_iff, List.forall₂_map_right_iff]
    exact hbetween.flip.imp fun b' b hb => hb.2

/-- On one and the same stream the margin is 1/2^14 g. -/
theorem batchDecisions_near (c : Contraction) (stream : List ExactFloat) :
    List.Forall₂ (fun sure b => sure = true → b = true)
        (decisionsBy (1 / 2 ^ 14) stream) (batchDecisions rnd c stream) ∧
      List.Forall₂ (fun b possible => b = true → possible = true)
        (batchDecisions rnd c stream) (decisionsBy (-(1 / 2 ^ 14)) stream) := by
  have hnear : List.Forall₂ (NearSample 16 0) (stream.filterMap accepted)
      (stream.filterMap accepted) := by
    rw [List.forall₂_same]
    intro x hx
    obtain ⟨ax, -, hax⟩ := List.mem_filterMap.mp hx
    have hrange := (accepted_eq_some_iff.mp hax).2
    exact ⟨hrange, hrange, by simp⟩
  have hbetween := batchDecisions_between h c (by norm_num) le_rfl (by norm_num) hnear
  have hmargin : (16 : ℚ) / 2 ^ 18 + 2 * 0 = 1 / 2 ^ 14 := by norm_num
  rwa [hmargin] at hbetween

end Rounded

/-- On every stream of floats the detector, whichever products its compiler fuses, brakes on
each window on which the exact one does with a margin of 1/2^14 g, and on no window on which
the exact one would not with the margin forgiven. -/
theorem float_decisions (c : Contraction) (stream : List ExactFloat) :
    BrakeDetector.decisions stream = some (decisionsBy 0 stream) ∧
      ∃ bs, decisions binary32.round c stream = some bs ∧
        List.Forall₂ (fun sure b => sure = true → b = true)
          (decisionsBy (1 / 2 ^ 14) stream) bs ∧
        List.Forall₂ (fun b possible => b = true → possible = true) bs
          (decisionsBy (-(1 / 2 ^ 14)) stream) :=
  ⟨decisionsBy_zero stream, _, decisions_eq binary32.round c stream,
    batchDecisions_near roundsWithin_binary32 c stream⟩

/-- The float arithmetic of a compiled program: how each operation is rounded, and which
products are fused. Integers of 24 bits are not rounded. -/
structure Arithmetic where
  round : ℚ → ℚ
  contraction : Contraction
  within : RoundsWithin (1 / 2 ^ 24) (1 / 2 ^ 150) round
  round_intCast : ∀ z : ℤ, |z| < 2 ^ 24 → round z = z

/-- Without rounding there is nothing to fuse. -/
def Arithmetic.exact : Arithmetic where
  round := id
  contraction := .separate
  within q := by
    rw [id, sub_self, abs_zero]
    positivity
  round_intCast _ _ := rfl

def Arithmetic.binary32 (c : Contraction) : Arithmetic where
  round := BinaryRounding.binary32.round
  contraction := c
  within := roundsWithin_binary32
  round_intCast _ hz := BinaryRounding.round_intCast (by decide) hz

end BikeMcu.FloatDetector
