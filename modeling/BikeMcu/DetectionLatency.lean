import Mathlib.Tactic.Linarith
import BikeMcu.TransitionSystem
import BikeMcu.BatchDetection

namespace BikeMcu.DetectionLatency

open BikeMcu.TransitionSystem
open BikeMcu.StreamBlocks
open BikeMcu.BmiData
open BikeMcu.BrakeDetector
open BikeMcu.BatchDetection

/-- The sample is valid, at most -0.24 g and below the value of `filtered_ax` it
arrives at. -/
def hard (d : Detector) (ax : ExactFloat) : Bool :=
  !invalid ax && decide (ax.toRat ≤ -24 / 100) && decide (ax.toRat < d.filteredAx)

def sampled (d : Detector) (ax : ExactFloat) : Option Detector :=
  (detectBrake1 d ax).map Prod.fst

def Falls (f x : ℚ) : Prop :=
  x ≤ -24 / 100 ∧ x < f

theorem falls_of_hard {d : Detector} {s : ℚ × List ℚ} {xs : List ExactFloat}
    (hfollows : Follows d s) (h : EachStep sampled (fun d ax => hard d ax = true) d xs) :
    Along Falls smooth s.1 (xs.filterMap accepted) ∧
      (xs.filterMap accepted).length = xs.length := by
  induction xs generalizing d s with
  | nil => exact ⟨trivial, rfl⟩
  | cons ax xs ih =>
      obtain ⟨hax, hrest⟩ := h
      simp only [hard, Bool.and_eq_true, Bool.not_eq_true', decide_eq_true_eq] at hax
      obtain ⟨⟨hvalid, hlow⟩, hbelow⟩ := hax
      obtain ⟨d', hstep, hfollows'⟩ := hfollows.step ax
      cases haccepted : accepted ax with
      | none =>
          rw [(accepted_eq_none_iff ax).mp haccepted] at hvalid
          cases hvalid
      | some x =>
          have hnext : (smoothStep accepted smooth 10 s ax).1.1 = smooth s.1 x := by
            simp [smoothStep, haccepted]
          obtain ⟨halong, hlen⟩ := ih hfollows' (hrest d' (by rw [sampled, hstep]; rfl))
          rw [hnext] at halong
          rw [toRat_of_accepted haccepted] at hlow hbelow
          rw [hfollows.filter] at hbelow
          rw [List.filterMap_cons_some haccepted, List.length_cons, List.length_cons, hlen]
          exact ⟨⟨⟨hlow, hbelow⟩, halong⟩, rfl⟩

theorem smooth_lt {f x : ℚ} (h : Falls f x) : smooth f x < f := by
  have hx := h.2
  unfold smooth
  linarith

theorem smooth_shrinks {f x : ℚ} (h : Falls f x) :
    smooth f x + 24 / 100 ≤ 8 / 10 * (f + 24 / 100) := by
  have hx := h.1
  unfold smooth
  linarith

/-- While the samples stay below the filter, every smoothed value is below the one
before it. -/
theorem decreasingPairs_running {f : ℚ} {ys : List ℚ} (h : Along Falls smooth f ys) :
    decreasingPairs (f :: running smooth f ys) = ys.length := by
  induction ys generalizing f with
  | nil => rfl
  | cons y ys ih =>
      rw [running, decreasingPairs_cons_cons, ih h.2, decide_eq_true (smooth_lt h.1),
        Bool.toNat_true, List.length_cons]

theorem sum_running_smooth {f : ℚ} {ys : List ℚ} (h : Along Falls smooth f ys) :
    (running smooth f ys).sum + ys.length * (24 / 100) ≤
      (f + 24 / 100) * ∑ i ∈ Finset.range ys.length, (8 / 10 : ℚ) ^ (i + 1) := by
  have hsum := sum_running_le (v := fun f : ℚ => f + 24 / 100) (r := 8 / 10) (by norm_num)
    (fun _ _ hx => smooth_shrinks hx) h
  rw [List.sum_map_add] at hsum
  simpa [length_running] using hsum

/-- Ten hard samples on end, from a filter that is not positive, brake. -/
theorem brakesOn_of_falls {f : ℚ} {ys : List ℚ} (hf : f ≤ 0) (hlen : ys.length = 10)
    (h : Along Falls smooth f ys) : brakesOn (running smooth f ys) = true := by
  have hpairs : 4 ≤ decreasingPairs (running smooth f ys) := by
    cases ys with
    | nil => cases hlen
    | cons y ys =>
        rw [running, decreasingPairs_running h.2]
        rw [List.length_cons] at hlen
        omega
  have hmean : (running smooth f ys).sum / 10 ≤ -15 / 100 := by
    have hsum := sum_running_smooth h
    have hseries : 0 ≤ ∑ i ∈ Finset.range 10, (8 / 10 : ℚ) ^ (i + 1) ∧
        24 / 100 * ∑ i ∈ Finset.range 10, (8 / 10 : ℚ) ^ (i + 1) ≤ 9 / 10 := by
      norm_num [Finset.sum_range_succ]
    have hstart := mul_le_mul_of_nonneg_right (add_le_add_left hf (24 / 100)) hseries.1
    rw [hlen] at hsum
    push_cast at hsum
    linarith [hseries.2]
  rw [brakesOn, Bool.and_eq_true, decide_eq_true_eq, decide_eq_true_eq]
  exact ⟨hpairs, hmean⟩

theorem follows_of_reachable {stream : List ExactFloat} {d : Detector} {ws : List Window}
    (h : transduce detectBrake1 initDetector stream = some (d, ws)) :
    ∃ s, Follows d s := by
  obtain ⟨d', hrun, hfollows⟩ := transduce_detectBrake1 stream
  obtain rfl : d' = d := (Prod.mk.inj (Option.some.inj (hrun.symm.trans h))).1
  exact ⟨_, hfollows⟩

/-- From any reachable state with `filtered_ax` not positive, the brake signal is
sent after one of the next nineteen hard samples. -/
theorem brakes_within_nineteen (stream : List ExactFloat) (d : Detector)
    (ws : List Window)
    (hreach : transduce detectBrake1 initDetector stream = some (d, ws))
    (hfilter : d.filteredAx ≤ 0) (xs : List ExactFloat) (hlen : xs.length = 19)
    (hhard : EachStep sampled (fun d ax => hard d ax = true) d xs) :
    ∃ d' ws', transduce detectBrake1 d xs = some (d', ws') ∧
      ∃ w ∈ ws', w.brakes = true := by
  obtain ⟨⟨f, w⟩, hfollows⟩ := follows_of_reachable hreach
  obtain ⟨halong, hall⟩ := falls_of_hard hfollows hhard
  obtain ⟨d', hrun, -⟩ := transduce_of_simulation
    (fun d s ax (h : Follows d s) => h.step ax) hfollows xs
  rw [emit_smoothStep accepted smooth f w hfollows.room] at hrun
  have hkeep : ∀ c x, Falls c x → c ≤ 0 → smooth c x ≤ 0 :=
    fun c x hx hc => (smooth_lt hx).le.trans hc
  -- the window in progress may spoil its own block, not the next one
  obtain ⟨b, hb, hbrakes⟩ := exists_block_of_along (I := fun f : ℚ => f ≤ 0)
    (Q := fun b => brakesOn b = true) hkeep
    (fun _ _ hc hlen h => brakesOn_of_falls hc hlen h) (hfollows.filter ▸ hfilter)
    hfollows.room (hall.trans hlen) halong
  refine ⟨d', _, hrun, windowOf b, List.mem_map_of_mem hb, ?_⟩
  rw [brakes_windowOf, hbrakes]

/-- Three quiet samples are in the window when a steady -0.25 g sets in. -/
theorem brakes_within_nineteen_in_mixed_window :
    ∃ d ws d' ws', transduce detectBrake1 initDetector
        (List.replicate 3 (.finite 0)) = some (d, ws) ∧ d.count = 3 ∧
      transduce detectBrake1 d (List.replicate 19 (.finite (-1 / 4))) = some (d', ws') ∧
        ∃ w ∈ ws', w.brakes = true := by
  have hstart : (transduce detectBrake1 initDetector (List.replicate 3 (.finite 0))).any
      (fun r => decide (r.1.count = 3 ∧ r.1.filteredAx ≤ 0 ∧
        EachStep sampled (fun d ax => hard d ax = true) r.1
          (List.replicate 19 (.finite (-1 / 4))))) = true := by
    decide +kernel
  obtain ⟨⟨d, ws⟩, hreach, hd⟩ := (Option.any_eq_true _ _).mp hstart
  obtain ⟨hcount, hfilter, hhard⟩ := of_decide_eq_true hd
  obtain ⟨d', ws', hrun, hbrakes⟩ :=
    brakes_within_nineteen _ d ws hreach hfilter _ (by decide) hhard
  exact ⟨d, ws, d', ws', hreach, hcount, hrun, hbrakes⟩

end BikeMcu.DetectionLatency
