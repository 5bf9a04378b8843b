import Mathlib.Tactic.Linarith
import BikeMcu.BatchDetection

namespace BikeMcu.SignalBounds

open BikeMcu.StreamBlocks
open BikeMcu.BmiData
open BikeMcu.BrakeDetector
open BikeMcu.BatchDetection

/-- The smallest sample, or 0 below which the filter never starts. -/
def lowest (samples : List ℚ) : ℚ :=
  (0 :: samples).min (List.cons_ne_nil 0 samples)

def highest (samples : List ℚ) : ℚ :=
  (0 :: samples).max (List.cons_ne_nil 0 samples)

def range (stream : List ExactFloat) : Set ℚ :=
  Set.Icc (lowest (stream.filterMap accepted)) (highest (stream.filterMap accepted))

theorem lowest_of_forall {P : ℚ → Prop} (hzero : P 0) {samples : List ℚ}
    (h : ∀ x ∈ samples, P x) : P (lowest samples) := by
  rcases List.mem_cons.mp (List.min_mem (List.cons_ne_nil 0 samples)) with hmin | hmin
  · rw [lowest, hmin]
    exact hzero
  · exact h _ hmin

theorem highest_of_forall {P : ℚ → Prop} (hzero : P 0) {samples : List ℚ}
    (h : ∀ x ∈ samples, P x) : P (highest samples) := by
  rcases List.mem_cons.mp (List.max_mem (List.cons_ne_nil 0 samples)) with hmax | hmax
  · rw [highest, hmax]
    exact hzero
  · exact h _ hmax

theorem mem_range_of_mem {stream : List ExactFloat} {x : ℚ}
    (hx : x ∈ 0 :: stream.filterMap accepted) : x ∈ range stream :=
  ⟨List.min_le_of_mem hx, List.le_max_of_mem hx⟩

theorem range_subset (stream : List ExactFloat) : range stream ⊆ Set.Icc (-16) 16 := by
  have hsamples : ∀ x ∈ stream.filterMap accepted, x ∈ Set.Icc (-16 : ℚ) 16 := by
    intro x hx
    obtain ⟨ax, -, hax⟩ := List.mem_filterMap.mp hx
    exact abs_le.mp (accepted_eq_some_iff.mp hax).2
  have hzero : (0 : ℚ) ∈ Set.Icc (-16 : ℚ) 16 := by norm_num
  exact Set.Icc_subset_Icc (lowest_of_forall hzero hsamples).1 (highest_of_forall hzero hsamples).2

/-- At the head of an iteration. The whole array is covered, the zeros that no
sample has replaced yet included. -/
structure Within (S : Set ℚ) (d : Detector) : Prop where
  count : d.count ≤ 9
  filter : d.filteredAx ∈ S
  entries : ∀ v ∈ d.arr, v ∈ S

theorem within_init {S : Set ℚ} (hzero : 0 ∈ S) : Within S initDetector where
  count := Nat.zero_le 9
  filter := hzero
  entries v hv := by
    obtain ⟨-, rfl⟩ := Vector.mem_replicate.mp hv
    exact hzero

section Interval

variable {lo hi : ℚ}

theorem smooth_mem {f x : ℚ} (hf : f ∈ Set.Icc lo hi) (hx : x ∈ Set.Icc lo hi) :
    smooth f x ∈ Set.Icc lo hi := by
  unfold smooth
  constructor
  · linarith [hf.1, hx.1]
  · linarith [hf.2, hx.2]

theorem mean_mem {block : List ℚ} (hlen : block.length = 10)
    (h : ∀ v ∈ block, v ∈ Set.Icc lo hi) : block.sum / 10 ∈ Set.Icc lo hi := by
  have hlow := List.card_nsmul_le_sum block lo fun v hv => (h v hv).1
  have hhigh := List.sum_le_card_nsmul block hi fun v hv => (h v hv).2
  rw [hlen, nsmul_eq_mul] at hlow hhigh
  push_cast at hlow hhigh
  constructor
  · linarith
  · linarith

/-- A rejected sample changes nothing; an accepted one enters the filter, and the
filter's new value replaces one entry. -/
theorem Within.step {d : Detector} (h : Within (Set.Icc lo hi) d) {ax : ExactFloat}
    (hax : ∀ x, accepted ax = some x → x ∈ Set.Icc lo hi) :
    ∃ d' w, detectBrake1 d ax = some (d', w) ∧ Within (Set.Icc lo hi) d' ∧
      ∀ v ∈ w, v.avgAx ∈ Set.Icc lo hi := by
  cases haccepted : accepted ax with
  | none => exact ⟨d, none, detectBrake1_of_invalid d haccepted, h, by simp⟩
  | some x =>
      have hcount : d.count < 10 := Nat.lt_succ_of_le h.count
      have hfilter : smooth d.filteredAx x ∈ Set.Icc lo hi :=
        smooth_mem h.filter (hax x haccepted)
      have hentries : ∀ v ∈ d.arr.set d.count (smooth d.filteredAx x), v ∈ Set.Icc lo hi := by
        intro v hv
        rcases Vector.mem_or_eq_of_mem_set hv with hv | rfl
        · exact h.entries v hv
        · exact hfilter
      rw [detectBrake1_of_accepted hcount haccepted]
      split
      · refine ⟨_, _, rfl, ⟨Nat.zero_le 9, hfilter, hentries⟩, ?_⟩
        intro v hv
        obtain rfl := Option.some.inj hv
        exact mean_mem (by simp) fun v hv => hentries v (Vector.mem_toList_iff.mp hv)
      · have hroom : d.count + 1 ≤ 9 := by omega
        exact ⟨_, _, rfl, ⟨hroom, hfilter, hentries⟩, by simp⟩

end Interval

/-- After every stream: no access has left the array, everything computed lies
between the samples accepted so far and 0, and where all of these are above the
threshold no window has braked. -/
theorem detector_stays_within (stream : List ExactFloat) :
    ∃ d ws, transduce detectBrake1 initDetector stream = some (d, ws) ∧
      Within (range stream) d ∧ (∀ w ∈ ws, w.avgAx ∈ range stream) ∧
      range stream ⊆ Set.Icc (-16) 16 ∧
      ((∀ x ∈ stream.filterMap accepted, -15 / 100 < x) → ∀ w ∈ ws, w.brakes = false) := by
  have hadmitted : ∀ ax ∈ stream, ∀ x, accepted ax = some x → x ∈ range stream := by
    intro ax hmem x hx
    exact mem_range_of_mem (List.mem_cons_of_mem _ (List.mem_filterMap.mpr ⟨ax, hmem, hx⟩))
  have hinit : Within (range stream) initDetector :=
    within_init (mem_range_of_mem List.mem_cons_self)
  obtain ⟨d, ws, hrun, hwithin, hws⟩ :=
    transduce_of_invariant (fun _ _ h hax => h.step hax) hinit hadmitted
  refine ⟨d, ws, hrun, hwithin, hws, range_subset stream, ?_⟩
  intro hsoft w hw
  have hlow : -15 / 100 < lowest (stream.filterMap accepted) :=
    lowest_of_forall (by norm_num) hsoft
  have havg : ¬ w.avgAx ≤ brakeThreshold := by
    have hbound := (hws w hw).1
    norm_num [brakeThreshold]
    linarith
  simp [Window.brakes, havg]

end BikeMcu.SignalBounds
