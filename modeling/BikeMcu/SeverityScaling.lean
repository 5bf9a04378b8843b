import Mathlib.Algebra.BigOperators.Ring.List
import Mathlib.Tactic.Linarith
import BikeMcu.BatchDetection

namespace BikeMcu.SeverityScaling

open BikeMcu.StreamBlocks
open BikeMcu.BmiData
open BikeMcu.BrakeDetector
open BikeMcu.BatchDetection

def scaled (k : ℚ) : ExactFloat → ExactFloat
  | .finite q => .finite (k * q)
  | ax => ax

theorem accepted_of_valid {ax : ExactFloat} (h : invalid ax = false) :
    accepted ax = some ax.toRat := by
  obtain ⟨q, rfl, hq⟩ := (invalid_eq_false_iff ax).mp h
  exact accepted_eq_some_iff.mpr ⟨rfl, hq⟩

theorem filterMap_accepted_of_valid {stream : List ExactFloat}
    (h : ∀ ax ∈ stream, invalid ax = false) :
    stream.filterMap accepted = stream.map ExactFloat.toRat := by
  rw [← List.filterMap_eq_map]
  exact List.filterMap_congr fun ax hax => accepted_of_valid (h ax hax)

theorem toRat_scaled (k : ℚ) {ax : ExactFloat} (h : invalid ax = false) :
    (scaled k ax).toRat = k * ax.toRat := by
  obtain ⟨q, rfl, -⟩ := (invalid_eq_false_iff ax).mp h
  rfl

theorem filterMap_accepted_scaled {k : ℚ} {stream : List ExactFloat}
    (hvalid : ∀ ax ∈ stream, invalid ax = false)
    (hscaled : ∀ ax ∈ stream, invalid (scaled k ax) = false) :
    (stream.map (scaled k)).filterMap accepted =
      (stream.filterMap accepted).map fun x => k * x := by
  rw [filterMap_accepted_of_valid hvalid, filterMap_accepted_of_valid, List.map_map,
    List.map_map]
  · exact List.map_congr_left fun ax hax => toRat_scaled k (hvalid ax hax)
  · intro ax hax
    obtain ⟨ax', hax', rfl⟩ := List.mem_map.mp hax
    exact hscaled ax' hax'

theorem smooth_scaled (k f x : ℚ) : smooth (k * f) (k * x) = k * smooth f x := by
  unfold smooth
  ring

theorem decreasingPairs_map {f : ℚ → ℚ} (hf : StrictMono f) (b : List ℚ) :
    decreasingPairs (b.map f) = decreasingPairs b := by
  rw [decreasingPairs, decreasingPairs, ← List.map_tail, List.zip_map, List.countP_map]
  apply List.countP_congr
  intro p _
  simp [hf.lt_iff_lt]

theorem brakesOn_scaled {k : ℚ} (hk : 1 ≤ k) {b : List ℚ} (h : brakesOn b = true) :
    brakesOn (b.map fun v => k * v) = true := by
  have hmono : StrictMono fun v : ℚ => k * v := by
    intro v w hvw
    exact mul_lt_mul_of_pos_left hvw (by linarith)
  rw [brakesOn, Bool.and_eq_true, decide_eq_true_eq, decide_eq_true_eq] at h ⊢
  rw [decreasingPairs_map hmono, List.sum_map_mul_left, List.map_id']
  refine ⟨h.1, ?_⟩
  calc
    k * b.sum / 10 = k * (b.sum / 10) := by ring
    _ ≤ k * (-15 / 100) := mul_le_mul_of_nonneg_left h.2 (by linarith)
    _ ≤ -15 / 100 := by linarith

/-- The same windows are decided on in both runs, and each that brakes in the first
one brakes in the second. -/
theorem detection_monotone_in_severity (k : ℚ) (hk : 1 ≤ k) (stream : List ExactFloat)
    (hvalid : ∀ ax ∈ stream, invalid ax = false)
    (hscaled : ∀ ax ∈ stream, invalid (scaled k ax) = false) :
    ∃ ds ds', decisions stream = some ds ∧ decisions (stream.map (scaled k)) = some ds' ∧
      ds'.length = ds.length ∧ ∀ i : ℕ, ds[i]? = some true → ds'[i]? = some true := by
  have hblocks : completeBlocks 10
      (running smooth 0 ((stream.map (scaled k)).filterMap accepted)) =
        (completeBlocks 10 (running smooth 0 (stream.filterMap accepted))).map
          (List.map fun v => k * v) := by
    have hrun := running_map (smooth_scaled k) 0 (stream.filterMap accepted)
    rw [mul_zero] at hrun
    rw [filterMap_accepted_scaled hvalid hscaled, hrun, completeBlocks_map]
  refine ⟨_, _, decisions_eq stream, decisions_eq _, ?_, ?_⟩
  · rw [batchDecisions, batchDecisions, hblocks]
    simp
  · intro i hi
    rw [batchDecisions, hblocks, List.map_map, List.getElem?_map]
    rw [batchDecisions, List.getElem?_map] at hi
    obtain ⟨b, hb, hbrakes⟩ := Option.map_eq_some_iff.mp hi
    rw [hb, Option.map_some, Function.comp_apply, brakesOn_scaled hk hbrakes]

/-- A braking of -0.4 g, then the same at twice its strength. -/
theorem detection_monotone_in_severity_doubled :
    ∃ ds', decisions ((List.replicate 20 (.finite (-4 / 10))).map (scaled 2)) = some ds' ∧
      ds'[1]? = some true := by
  obtain ⟨ds, ds', hds, hds', -, hmono⟩ := detection_monotone_in_severity 2 (by norm_num)
    (List.replicate 20 (.finite (-4 / 10))) (by decide +kernel) (by decide +kernel)
  refine ⟨ds', hds', hmono 1 ?_⟩
  have hfirst : (decisions (List.replicate 20 (.finite (-4 / 10)))).bind (·[1]?) =
      some true := by decide +kernel
  rwa [hds] at hfirst

end BikeMcu.SeverityScaling
