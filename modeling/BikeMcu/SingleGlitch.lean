import Mathlib.Algebra.Order.Ring.GeomSum
import Mathlib.Tactic.Linarith
import BikeMcu.BatchDetection

namespace BikeMcu.SingleGlitch

open BikeMcu.StreamBlocks
open BikeMcu.BmiData
open BikeMcu.BrakeDetector
open BikeMcu.BatchDetection

def below (level v : ℚ) : Bool :=
  decide (v < -level)

/-- How far `v` lies below `-level`. -/
def depth (level v : ℚ) : ℚ :=
  max 0 (-level - v)

section Glitch

variable {level reach : ℚ}

theorem depth_nonneg (level v : ℚ) : 0 ≤ depth level v :=
  le_max_left _ _

theorem depth_of_not_below {v : ℚ} (h : below level v = false) : depth level v = 0 := by
  have hv : ¬ v < -level := of_decide_eq_false h
  exact max_eq_left (by linarith)

theorem le_add_depth (level v : ℚ) : -level ≤ v + depth level v := by
  have hdepth : -level - v ≤ depth level v := le_max_right _ _
  linarith

theorem depth_smooth_le (level f x : ℚ) :
    depth level (smooth f x) ≤ 8 / 10 * depth level f + 2 / 10 * depth level x := by
  have hf := le_add_depth level f
  have hx := le_add_depth level x
  have hf' := depth_nonneg level f
  have hx' := depth_nonneg level x
  unfold smooth
  apply max_le
  · linarith
  · linarith

/-- Of the filter's value and the samples to come, one at most lies below the level;
neither lies deeper than a single sample can take it. -/
structure OneGlitch (level reach f : ℚ) (ys : List ℚ) : Prop where
  once : (f :: ys).countP (below level) ≤ 1
  shallow : depth level f ≤ 2 / 10 * (reach - level)
  within : ∀ y ∈ ys, depth level y ≤ reach - level

/-- What lies below the level before the filter's step: nothing, its last value or
its sample, but not both. -/
theorem OneGlitch.next {f y : ℚ} {ys : List ℚ} (h : OneGlitch level reach f (y :: ys)) :
    (below level f = false ∧ below level y = false ∧ below level (smooth f y) = false) ∨
    (below level f = true ∧ below level y = false ∧ f < smooth f y ∧
      ys.countP (below level) = 0 ∧ depth level (smooth f y) ≤ 8 / 10 * depth level f) ∨
    (below level f = false ∧ below level y = true ∧ ys.countP (below level) = 0 ∧
      depth level (smooth f y) ≤ 2 / 10 * depth level y) := by
  have honce := h.once
  have hsmooth := depth_smooth_le level f y
  rw [List.countP_cons, List.countP_cons] at honce
  cases hbf : below level f with
  | true =>
      have hby : below level y = false := by
        by_contra hby
        simp [hbf, hby] at honce
      have hflow : f < -level := of_decide_eq_true hbf
      have hyhigh : ¬ y < -level := of_decide_eq_false hby
      have hrises : f < smooth f y := by
        unfold smooth
        linarith
      rw [depth_of_not_below hby] at hsmooth
      exact .inr (.inl ⟨rfl, hby, hrises, by simpa [hbf, hby] using honce, by linarith⟩)
  | false =>
      rw [depth_of_not_below hbf] at hsmooth
      cases hby : below level y with
      | true =>
          exact .inr (.inr ⟨rfl, rfl, by simpa [hbf, hby] using honce, by linarith⟩)
      | false =>
          have hfhigh : ¬ f < -level := of_decide_eq_false hbf
          have hyhigh : ¬ y < -level := of_decide_eq_false hby
          refine .inl ⟨rfl, rfl, decide_eq_false ?_⟩
          unfold smooth
          linarith

theorem OneGlitch.step {f y : ℚ} {ys : List ℚ} (h : OneGlitch level reach f (y :: ys)) :
    OneGlitch level reach (smooth f y) ys := by
  have hf := h.shallow
  have hy := h.within y List.mem_cons_self
  have hfpos := depth_nonneg level f
  have hypos := depth_nonneg level y
  have hwithin : ∀ z ∈ ys, depth level z ≤ reach - level :=
    fun z hz => h.within z (List.mem_cons_of_mem y hz)
  rcases h.next with ⟨hbf, hby, hbv⟩ | ⟨-, -, -, hclear, hdepth⟩ | ⟨-, -, hclear, hdepth⟩
  · refine ⟨?_, ?_, hwithin⟩
    · have honce := h.once
      simpa [List.countP_cons, hbf, hby, hbv] using honce
    · rw [depth_of_not_below hbv]
      linarith
  · refine ⟨?_, by linarith, hwithin⟩
    rw [List.countP_cons, hclear]
    split <;> omega
  · refine ⟨?_, by linarith, hwithin⟩
    rw [List.countP_cons, hclear]
    split <;> omega

theorem OneGlitch.foldl {f : ℚ} {pre ys : List ℚ} (h : OneGlitch level reach f (pre ++ ys)) :
    OneGlitch level reach (pre.foldl smooth f) ys := by
  induction pre generalizing f with
  | nil => exact h
  | cons x pre ih => exact ih h.step

theorem OneGlitch.initial {f : ℚ} {ys post : List ℚ}
    (h : OneGlitch level reach f (ys ++ post)) : OneGlitch level reach f ys where
  once := by
    have honce := h.once
    rw [← List.cons_append, List.countP_append] at honce
    omega
  shallow := h.shallow
  within y hy := h.within y (List.mem_append_left post hy)

/-- A value below the level is followed by a larger one, so that a place in a block
is either below the level or starts a falling pair. -/
theorem OneGlitch.decreasingPairs_le {f : ℚ} {ys : List ℚ} (h : OneGlitch level reach f ys) :
    decreasingPairs (f :: running smooth f ys) +
      (f :: running smooth f ys).countP (below level) ≤ ys.length + 1 := by
  induction ys generalizing f with
  | nil => simpa [decreasingPairs, running] using h.once
  | cons y ys ih =>
      have hrest := ih h.step
      have hone := Bool.toNat_le (decide (smooth f y < f))
      rw [running, decreasingPairs_cons_cons, List.countP_cons, List.length_cons]
      cases hbf : below level f with
      | false =>
          rw [if_neg (by simp)]
          omega
      | true =>
          have hrises : ¬ smooth f y < f := by
            rcases h.next with ⟨hfalse, -, -⟩ | ⟨-, -, hlt, -, -⟩ | ⟨hfalse, -, -, -⟩
            · rw [hbf] at hfalse
              cases hfalse
            · exact not_lt.mpr hlt.le
            · rw [hbf] at hfalse
              cases hfalse
          rw [decide_eq_false hrises, Bool.toNat_false, if_pos rfl]
          omega

/-- The depths shrink by the filter's factor from the first value below the level
on, so `m` values below it are together no deeper than `m` terms of the geometric
series. -/
theorem OneGlitch.sum_depth_le {e f : ℚ} {ys : List ℚ} (h : OneGlitch level reach f ys)
    (hf : 8 / 10 * depth level f ≤ e) (hys : ∀ y ∈ ys, 2 / 10 * depth level y ≤ e) :
    ((running smooth f ys).map (depth level)).sum ≤
      e * ∑ i ∈ Finset.range ((running smooth f ys).countP (below level)), (8 / 10 : ℚ) ^ i := by
  induction ys generalizing f e with
  | nil => simp [running]
  | cons y ys ih =>
      have hcredit : 0 ≤ e := by linarith [depth_nonneg level f]
      rw [running, List.map_cons, List.sum_cons, List.countP_cons]
      cases hbv : below level (smooth f y) with
      | false =>
          have hrest := ih h.step (by rw [depth_of_not_below hbv]; linarith)
            fun z hz => hys z (List.mem_cons_of_mem y hz)
          rw [depth_of_not_below hbv]
          simpa using hrest
      | true =>
          have hentry : ys.countP (below level) = 0 ∧ depth level (smooth f y) ≤ e := by
            rcases h.next with ⟨-, -, hfalse⟩ | ⟨-, -, -, hclear, hdepth⟩ | ⟨-, -, hclear, hdepth⟩
            · rw [hbv] at hfalse
              cases hfalse
            · exact ⟨hclear, hdepth.trans hf⟩
            · exact ⟨hclear, hdepth.trans (hys y List.mem_cons_self)⟩
          -- The glitch is behind, so the rest only lives on what this value leaves it.
          have hquiet : ∀ z ∈ ys, 2 / 10 * depth level z ≤ 8 / 10 * depth level (smooth f y) := by
            intro z hz
            have hbz : below level z = false := by
              simpa using List.countP_eq_zero.mp hentry.1 z hz
            rw [depth_of_not_below hbz]
            linarith [depth_nonneg level (smooth f y)]
          have hrest := ih h.step le_rfl hquiet
          rw [if_pos rfl, geom_sum_succ]
          have hseries := Finset.sum_nonneg fun i
            (_ : i ∈ Finset.range ((running smooth (smooth f y) ys).countP (below level))) =>
              pow_nonneg (show (0 : ℚ) ≤ 8 / 10 by norm_num) i
          calc
            depth level (smooth f y) + ((running smooth (smooth f y) ys).map (depth level)).sum
                ≤ depth level (smooth f y) + 8 / 10 * depth level (smooth f y) *
                    ∑ i ∈ Finset.range ((running smooth (smooth f y) ys).countP (below level)),
                      (8 / 10 : ℚ) ^ i := add_le_add_right hrest _
            _ = depth level (smooth f y) * (8 / 10 *
                    ∑ i ∈ Finset.range ((running smooth (smooth f y) ys).countP (below level)),
                      (8 / 10 : ℚ) ^ i + 1) := by ring
            _ ≤ e * (8 / 10 *
                    ∑ i ∈ Finset.range ((running smooth (smooth f y) ys).countP (below level)),
                      (8 / 10 : ℚ) ^ i + 1) :=
                mul_le_mul_of_nonneg_right hentry.2 (by linarith)

/-- Four falling pairs leave room for six values below the level. -/
theorem OneGlitch.brakesOn_eq_false {f : ℚ} {ys : List ℚ} (h : OneGlitch level reach f ys)
    (hlen : ys.length = 10)
    (hbound : (reach - level) * (1 - (8 / 10) ^ 6) + 10 * level < 15 / 10) :
    brakesOn (running smooth f ys) = false := by
  by_contra hbrakes
  rw [Bool.not_eq_false, brakesOn, Bool.and_eq_true, decide_eq_true_eq, decide_eq_true_eq]
    at hbrakes
  obtain ⟨hpairs, hmean⟩ := hbrakes
  have hfew : (running smooth f ys).countP (below level) ≤ 6 := by
    cases ys with
    | nil => cases hlen
    | cons y ys =>
        have hplaces := h.step.decreasingPairs_le
        rw [running] at hpairs ⊢
        rw [List.length_cons] at hlen
        omega
  have hcredit : 0 ≤ 2 / 10 * (reach - level) := (depth_nonneg level f).trans h.shallow
  have hdepths : ((running smooth f ys).map (depth level)).sum ≤
      (reach - level) * (1 - (8 / 10) ^ 6) :=
    calc
      ((running smooth f ys).map (depth level)).sum
          ≤ 2 / 10 * (reach - level) *
              ∑ i ∈ Finset.range ((running smooth f ys).countP (below level)),
                (8 / 10 : ℚ) ^ i :=
            h.sum_depth_le (by linarith [h.shallow]) fun y hy => by linarith [h.within y hy]
      _ ≤ 2 / 10 * (reach - level) * ∑ i ∈ Finset.range 6, (8 / 10 : ℚ) ^ i := by
            apply mul_le_mul_of_nonneg_left _ hcredit
            exact Finset.sum_le_sum_of_subset_of_nonneg (Finset.range_mono hfew)
              fun i _ _ => pow_nonneg (by norm_num) i
      _ = (reach - level) * (1 - (8 / 10) ^ 6) := by
            rw [← mul_neg_geom_sum (8 / 10 : ℚ) 6]
            ring
  have hlow := List.card_nsmul_le_sum ((running smooth f ys).map fun v => v + depth level v)
    (-level) (by simpa using fun v _ => le_add_depth level v)
  rw [List.sum_map_add, List.map_id', List.length_map, length_running, hlen, nsmul_eq_mul]
    at hlow
  push_cast at hlow
  linarith

end Glitch

/-- One glitch never brakes, as long as it and the background leave the mean above
the threshold when six smoothed values lie below the background: from a background
of 0 g down to -0.0026 g for a glitch of the sensor's full -2 g, from one of -0.1 g
for a glitch of -0.77 g. -/
theorem single_glitch_never_brakes (level reach : ℚ) (hlevel : 0 ≤ level)
    (hreach : level ≤ reach)
    (hbound : (reach - level) * (1 - (8 / 10) ^ 6) + 10 * level < 15 / 10)
    (stream : List ExactFloat) (hrange : ∀ x ∈ stream.filterMap accepted, -reach ≤ x)
    (honce : (stream.filterMap accepted).countP (below level) ≤ 1) :
    ∃ ds, decisions stream = some ds ∧ ∀ brakes ∈ ds, brakes = false := by
  have hstart : below level 0 = false := decide_eq_false (by linarith)
  have hglitch : OneGlitch level reach 0 (stream.filterMap accepted) := by
    refine ⟨?_, ?_, ?_⟩
    · rwa [List.countP_cons, hstart]
    · rw [depth_of_not_below hstart]
      linarith
    · intro x hx
      apply max_le
      · linarith
      · linarith [hrange x hx]
  refine ⟨batchDecisions stream, decisions_eq stream, ?_⟩
  intro brakes hmem
  obtain ⟨b, hb, rfl⟩ := List.mem_map.mp hmem
  obtain ⟨pre, ys, post, hsplit, hlen, rfl⟩ := exists_of_mem_completeBlocks_running hb
  rw [hsplit] at hglitch
  exact hglitch.foldl.initial.brakesOn_eq_false hlen hbound

/-- A steady background with one sample of -2 g in its second window. -/
def spiked (background : ℚ) : List ExactFloat :=
  List.replicate 14 (.finite background) ++ .finite (-2) ::
    List.replicate 5 (.finite background)

theorem single_glitch_never_brakes_near_rest :
    ∃ ds, decisions (spiked (-25 / 10000)) = some ds ∧ ∀ brakes ∈ ds, brakes = false :=
  single_glitch_never_brakes (26 / 10000) 2 (by norm_num) (by norm_num) (by norm_num) _
    (by decide +kernel) (by decide +kernel)

/-- The slow decrease of the filter towards a background of -0.0028 g already
supplies the three falling pairs that the glitch itself does not. -/
theorem lone_spike_brakes :
    ¬ ∀ stream : List ExactFloat,
      (∀ ax ∈ stream, invalid ax = false) →
      (∀ x ∈ stream.filterMap accepted, |x| ≤ 2) →
      (stream.filterMap accepted).countP (fun x => decide (x ≤ -15 / 100)) ≤ 1 →
        ∃ ds, decisions stream = some ds ∧ ∀ brakes ∈ ds, brakes = false := by
  intro h
  obtain ⟨ds, hds, hnone⟩ := h (spiked (-28 / 10000)) (by decide +kernel) (by decide +kernel)
    (by decide +kernel)
  have hbrakes : decisions (spiked (-28 / 10000)) = some [false, true] := by decide +kernel
  rw [hbrakes] at hds
  obtain rfl := Option.some.inj hds
  exact Bool.noConfusion (hnone true (by simp))

end BikeMcu.SingleGlitch
