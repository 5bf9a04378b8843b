import BikeMcu.TransitionSystem
import BikeMcu.FloatDetector

namespace BikeMcu.FloatLatency

open BikeMcu.TransitionSystem
open BikeMcu.StreamBlocks
open BikeMcu.BmiData
open BikeMcu.BinaryRounding
open BikeMcu.BrakeDetector (Detector initDetector Window decelMinCount decreasingPairs
  decreasingPairs_cons_cons)
open BikeMcu.BatchDetection (accepted smooth Follows follows_init accepted_eq_some_iff
  accepted_eq_none_iff toRat_of_accepted)
open BikeMcu.FloatDetector

/-- The sample is valid, at most -0.24 g and below the value of `filtered_ax` it arrives
at, by half of the sensor's resolution. -/
def hard (d : Detector) (ax : ExactFloat) : Bool :=
  !BrakeDetector.invalid ax && decide (ax.toRat ≤ -24 / 100) &&
    decide (ax.toRat + 1 / 2 ^ 15 ≤ d.filteredAx)

def sampled (c : Contraction) (d : Detector) (ax : ExactFloat) : Option Detector :=
  (detectBrake1 binary32.round c d ax).map Prod.fst

/-- No stream of valid samples takes the filter further. -/
def InRange (f : ℚ) : Prop :=
  |f| ≤ 101 / 100 * 16

structure Falls (f x : ℚ) : Prop where
  valid : |x| ≤ 16
  low : x ≤ -24 / 100
  below : x + 1 / 2 ^ 15 ≤ f
  inRange : InRange f

theorem abs_filter_sub_smooth_le (c : Contraction) {f x : ℚ} (hf : InRange f)
    (hx : |x| ≤ 16) : |filter binary32.round c f x - smooth f x| ≤ 1 / 2 ^ 18 := by
  have hstep := abs_filter_sub_le roundsWithin_binary32 c (by norm_num) hf hx
    (δ := 0) (ε := 0) (x := x) (f := f) (by simp) (by simp)
  exact hstep.trans (by norm_num)

theorem inRange_filter (c : Contraction) {f x : ℚ} (hf : InRange f) (hx : |x| ≤ 16) :
    InRange (filter binary32.round c f x) := by
  have hstep := abs_le.mp (abs_filter_sub_smooth_le c hf hx)
  rw [smooth] at hstep
  rw [InRange, abs_le] at *
  constructor
  · linarith
  · linarith

theorem filter_lt (c : Contraction) {f x : ℚ} (h : Falls f x) :
    filter binary32.round c f x < f := by
  have hstep := abs_le.mp (abs_filter_sub_smooth_le c h.inRange h.valid)
  have hbelow := h.below
  rw [smooth] at hstep
  linarith

/-- The rounding of a step goes into the level that the filter falls to. -/
theorem filter_shrinks (c : Contraction) {f x : ℚ} (h : Falls f x) :
    filter binary32.round c f x + (24 / 100 - 5 / 2 ^ 18) ≤
      8 / 10 * (f + (24 / 100 - 5 / 2 ^ 18)) := by
  have hstep := abs_le.mp (abs_filter_sub_smooth_le c h.inRange h.valid)
  have hlow := h.low
  rw [smooth] at hstep
  linarith

theorem decreasingPairs_running (c : Contraction) {f : ℚ} {ys : List ℚ}
    (h : Along Falls (filter binary32.round c) f ys) :
    decreasingPairs (f :: running (filter binary32.round c) f ys) = ys.length := by
  induction ys generalizing f with
  | nil => rfl
  | cons y ys ih =>
      rw [running, decreasingPairs_cons_cons, ih h.2, decide_eq_true (filter_lt c h.1),
        Bool.toNat_true, List.length_cons]

theorem inRange_running (c : Contraction) {f : ℚ} {ys : List ℚ}
    (h : Along Falls (filter binary32.round c) f ys) :
    ∀ v ∈ running (filter binary32.round c) f ys, InRange v := by
  induction ys generalizing f with
  | nil => simp [running]
  | cons y ys ih =>
      rw [running, List.forall_mem_cons]
      exact ⟨inRange_filter c h.1.inRange h.1.valid, ih h.2⟩

theorem sum_running_filter (c : Contraction) {f : ℚ} {ys : List ℚ}
    (h : Along Falls (filter binary32.round c) f ys) :
    (running (filter binary32.round c) f ys).sum + ys.length * (24 / 100 - 5 / 2 ^ 18) ≤
      (f + (24 / 100 - 5 / 2 ^ 18)) * ∑ i ∈ Finset.range ys.length, (8 / 10 : ℚ) ^ (i + 1) := by
  have hsum := sum_running_le (v := fun f : ℚ => f + (24 / 100 - 5 / 2 ^ 18)) (r := 8 / 10)
    (by norm_num) (fun _ _ hx => filter_shrinks c hx) h
  rw [List.sum_map_add] at hsum
  simpa [length_running] using hsum

/-- Ten hard samples on end, from a filter that is not positive, brake. -/
theorem brakes_of_falls (c : Contraction) {f : ℚ} {ys : List ℚ} (hf : f ≤ 0)
    (hlen : ys.length = 10) (h : Along Falls (filter binary32.round c) f ys) :
    brakes binary32.round (windowOf binary32.round
      (running (filter binary32.round c) f ys)) = true := by
  have hpairs : 4 ≤ decreasingPairs (running (filter binary32.round c) f ys) := by
    cases ys with
    | nil => cases hlen
    | cons y ys =>
        rw [running, decreasingPairs_running c h.2]
        rw [List.length_cons] at hlen
        omega
  have hmean : (running (filter binary32.round c) f ys).sum / 10 ≤ -152 / 1000 := by
    have hsum := sum_running_filter c h
    have hseries : 0 ≤ ∑ i ∈ Finset.range 10, (8 / 10 : ℚ) ^ (i + 1) ∧
        ∑ i ∈ Finset.range 10, (8 / 10 : ℚ) ^ (i + 1) ≤ 36 / 10 := by
      norm_num [Finset.sum_range_succ]
    have hstart := mul_nonpos_of_nonpos_of_nonneg hf hseries.1
    rw [hlen, add_mul] at hsum
    push_cast at hsum
    linarith [hseries.2]
  have havg := abs_le.mp (abs_avg_sub_le roundsWithin_binary32 (M := 16) (by norm_num)
    (by rw [length_running, hlen]) (inRange_running c h))
  have hthreshold := abs_le.mp (abs_threshold_sub_le roundsWithin_binary32)
  rw [brakes_windowOf_iff]
  refine ⟨hpairs, ?_⟩
  linarith

/-- The detector, at a filter value that no stream takes it beyond. -/
structure Reached (d : Detector) (s : ℚ × List ℚ) : Prop where
  follows : Follows d s
  inRange : InRange s.1

theorem reached_step (c : Contraction) {d : Detector} {s : ℚ × List ℚ} (h : Reached d s)
    (ax : ExactFloat) :
    ∃ d', detectBrake1 binary32.round c d ax = some (d',
        (smoothStep accepted (filter binary32.round c) 10 s ax).2.map
          (windowOf binary32.round)) ∧
      Reached d' (smoothStep accepted (filter binary32.round c) 10 s ax).1 := by
  obtain ⟨d', hstep, hfollows⟩ := follows_step binary32.round c h.follows ax
  refine ⟨d', hstep, hfollows, ?_⟩
  cases hax : accepted ax with
  | none => simpa [smoothStep, hax] using h.inRange
  | some x =>
      have hvalid := (accepted_eq_some_iff.mp hax).2
      simpa [smoothStep, hax] using inRange_filter c h.inRange hvalid

theorem reached_of_run {c : Contraction} {stream : List ExactFloat} {d : Detector}
    {ws : List Window}
    (h : transduce (detectBrake1 binary32.round c) initDetector stream = some (d, ws)) :
    ∃ s, Reached d s := by
  have hinit : Reached initDetector (0, []) :=
    ⟨follows_init, by norm_num [InRange]⟩
  obtain ⟨d', hrun, hreached⟩ := transduce_of_simulation (R := Reached)
    (fun d s ax h => reached_step c h ax) hinit stream
  obtain rfl : d' = d := (Prod.mk.inj (Option.some.inj (hrun.symm.trans h))).1
  exact ⟨_, hreached⟩

theorem falls_of_hard {c : Contraction} {d : Detector} {s : ℚ × List ℚ}
    {xs : List ExactFloat} (hreached : Reached d s)
    (h : EachStep (sampled c) (fun d ax => hard d ax = true) d xs) :
    Along Falls (filter binary32.round c) s.1 (xs.filterMap accepted) ∧
      (xs.filterMap accepted).length = xs.length := by
  induction xs generalizing d s with
  | nil => exact ⟨trivial, rfl⟩
  | cons ax xs ih =>
      obtain ⟨hax, hrest⟩ := h
      simp only [hard, Bool.and_eq_true, Bool.not_eq_true', decide_eq_true_eq] at hax
      obtain ⟨⟨hvalid, hlow⟩, hbelow⟩ := hax
      obtain ⟨d', hstep, hreached'⟩ := reached_step c hreached ax
      cases haccepted : accepted ax with
      | none =>
          rw [(accepted_eq_none_iff ax).mp haccepted] at hvalid
          cases hvalid
      | some x =>
          have hnext : (smoothStep accepted (filter binary32.round c) 10 s ax).1.1 =
              filter binary32.round c s.1 x := by
            simp [smoothStep, haccepted]
          obtain ⟨halong, hlen⟩ := ih hreached' (hrest d' (by rw [sampled, hstep]; rfl))
          rw [hnext] at halong
          rw [toRat_of_accepted haccepted] at hlow hbelow
          rw [hreached.follows.filter] at hbelow
          rw [List.filterMap_cons_some haccepted, List.length_cons, List.length_cons, hlen]
          exact ⟨⟨⟨(accepted_eq_some_iff.mp haccepted).2, hlow, hbelow, hreached.inRange⟩,
            halong⟩, rfl⟩

/-- From any state that the detector reaches in its own arithmetic with `filtered_ax` not
positive, the brake signal is sent after one of the next nineteen hard samples. -/
theorem float_brakes_within_nineteen (c : Contraction) (stream : List ExactFloat) (d : Detector)
    (ws : List Window)
    (hreach : transduce (detectBrake1 binary32.round c) initDetector stream = some (d, ws))
    (hfilter : d.filteredAx ≤ 0) (xs : List ExactFloat) (hlen : xs.length = 19)
    (hhard : EachStep (sampled c) (fun d ax => hard d ax = true) d xs) :
    ∃ d' ws', transduce (detectBrake1 binary32.round c) d xs = some (d', ws') ∧
      ∃ w ∈ ws', brakes binary32.round w = true := by
  obtain ⟨⟨f, w⟩, hreached⟩ := reached_of_run hreach
  obtain ⟨halong, hall⟩ := falls_of_hard hreached hhard
  obtain ⟨d', hrun, -⟩ := transduce_of_simulation (R := Reached)
    (fun d s ax h => reached_step c h ax) hreached xs
  rw [emit_smoothStep accepted (filter binary32.round c) f w hreached.follows.room] at hrun
  obtain ⟨b, hb, hbrakes⟩ := exists_block_of_along (I := fun f : ℚ => f ≤ 0)
    (Q := fun b => brakes binary32.round (windowOf binary32.round b) = true)
    (fun f x hx hf => (filter_lt c hx).le.trans hf)
    (fun f ys hf hlen h => brakes_of_falls c hf hlen h)
    (hreached.follows.filter ▸ hfilter) hreached.follows.room (hall.trans hlen) halong
  exact ⟨d', _, hrun, windowOf binary32.round b, List.mem_map_of_mem hb, hbrakes⟩

/-- Three quiet samples are in the window when a steady -0.25 g sets in. -/
theorem float_brakes_within_nineteen_in_mixed_window :
    ∃ d ws d' ws', transduce (detectBrake1 binary32.round .fuseFirst) initDetector
        (List.replicate 3 (.finite 0)) = some (d, ws) ∧ d.count = 3 ∧
      transduce (detectBrake1 binary32.round .fuseFirst) d
        (List.replicate 19 (.finite (-1 / 4))) = some (d', ws') ∧
        ∃ w ∈ ws', brakes binary32.round w = true := by
  have hstart : (transduce (detectBrake1 binary32.round .fuseFirst) initDetector
      (List.replicate 3 (.finite 0))).any
      (fun r => decide (r.1.count = 3 ∧ r.1.filteredAx ≤ 0 ∧
        EachStep (sampled .fuseFirst) (fun d ax => hard d ax = true) r.1
          (List.replicate 19 (.finite (-1 / 4))))) = true := by
    decide +kernel
  obtain ⟨⟨d, ws⟩, hreach, hd⟩ := (Option.any_eq_true _ _).mp hstart
  obtain ⟨hcount, hfilter, hhard⟩ := of_decide_eq_true hd
  obtain ⟨d', ws', hrun, hbrakes⟩ :=
    float_brakes_within_nineteen .fuseFirst _ d ws hreach hfilter _ (by decide) hhard
  exact ⟨d, ws, d', ws', hreach, hcount, hrun, hbrakes⟩

end BikeMcu.FloatLatency
