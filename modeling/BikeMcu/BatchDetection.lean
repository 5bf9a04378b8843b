import Mathlib.Tactic.NormNum
import BikeMcu.BrakeDetector

namespace BikeMcu.BatchDetection

open BikeMcu.StreamBlocks
open BikeMcu.BmiData
open BikeMcu.BrakeDetector

def accepted : ExactFloat → Option ℚ
  | .finite q => if |q| ≤ 16 then some q else none
  | _ => none

def smooth (f x : ℚ) : ℚ :=
  2 / 10 * x + 8 / 10 * f

def brakesOn (block : List ℚ) : Bool :=
  decide (4 ≤ decreasingPairs block) && decide (block.sum / 10 ≤ -15 / 100)

/-- Invalid samples are dropped, the rest is smoothed, and every complete block
of ten smoothed values is decided on. -/
def batchDecisions (stream : List ExactFloat) : List Bool :=
  (completeBlocks 10 (running smooth 0 (stream.filterMap accepted))).map brakesOn

def windowOf (block : List ℚ) : Window :=
  { decelCount := decreasingPairs block, avgAx := block.sum / 10 }

theorem brakes_windowOf (block : List ℚ) : (windowOf block).brakes = brakesOn block := by
  have hthreshold : brakeThreshold = -15 / 100 := by
    norm_num [brakeThreshold]
  unfold Window.brakes
  rw [hthreshold]
  rfl

theorem smooth_eq (f x : ℚ) : alpha * x + (1 - alpha) * f = smooth f x := by
  have halpha : alpha = 2 / 10 := by norm_num [alpha]
  have hrest : (1 : ℚ) - 2 / 10 = 8 / 10 := by norm_num
  rw [smooth, halpha, hrest]

theorem accepted_eq_some_iff {ax : ExactFloat} {x : ℚ} :
    accepted ax = some x ↔ ax = .finite x ∧ |x| ≤ 16 := by
  cases ax with
  | nan => simp [accepted]
  | infinity negative => simp [accepted]
  | finite q =>
      rw [accepted, ExactFloat.finite.injEq]
      constructor
      · intro h
        split at h
        · rename_i hq
          exact Option.some.inj h ▸ ⟨rfl, hq⟩
        · cases h
      · rintro ⟨rfl, hq⟩
        exact if_pos hq

theorem accepted_eq_none_iff (ax : ExactFloat) : accepted ax = none ↔ invalid ax = true := by
  rw [← not_iff_not, Bool.not_eq_true, invalid_eq_false_iff, Option.eq_none_iff_forall_ne_some]
  simp [accepted_eq_some_iff]

theorem toRat_of_accepted {ax : ExactFloat} {q : ℚ} (h : accepted ax = some q) :
    ax.toRat = q := by
  obtain ⟨rfl, -⟩ := accepted_eq_some_iff.mp h
  rfl

theorem detectBrake1_of_invalid (d : Detector) {ax : ExactFloat} (hax : accepted ax = none) :
    detectBrake1 d ax = some (d, none) := by
  simp [detectBrake1, (accepted_eq_none_iff ax).mp hax]

/-- What the loop does with an accepted sample: the smoothed value is stored, and a
full array is decided on. -/
theorem detectBrake1_of_accepted {d : Detector} {ax : ExactFloat} {x : ℚ}
    (hcount : d.count < 10) (hax : accepted ax = some x) :
    detectBrake1 d ax = some (if 10 ≤ d.count + 1 then
      ({ count := 0
         arr := d.arr.set d.count (smooth d.filteredAx x)
         filteredAx := smooth d.filteredAx x },
        some (windowOf (d.arr.set d.count (smooth d.filteredAx x)).toList))
    else
      ({ count := d.count + 1
         arr := d.arr.set d.count (smooth d.filteredAx x)
         filteredAx := smooth d.filteredAx x }, none)) := by
  have hvalid : ¬ invalid ax = true := by
    rw [← accepted_eq_none_iff, hax]
    simp
  unfold detectBrake1
  rw [if_neg hvalid, toRat_of_accepted hax, smooth_eq]
  simp only [store, dif_pos hcount, Option.bind_some]
  split
  · obtain ⟨l, hlog⟩ := exists_log (d.arr.set d.count (smooth d.filteredAx x))
      { decelCount := decreasingPairs (d.arr.set d.count (smooth d.filteredAx x)).toList
        avgAx := (d.arr.set d.count (smooth d.filteredAx x)).toList.sum / 10 }
    rw [window_eq, Option.bind_some, hlog]
    rfl
  · rfl

/-- The detector holds the filter state and the block in progress: the first
`count` entries of its array, whatever the others hold. -/
structure Follows (d : Detector) (s : ℚ × List ℚ) : Prop where
  count : d.count = s.2.length
  room : s.2.length < 10
  filter : d.filteredAx = s.1
  entries : d.arr.toList.take d.count = s.2

theorem follows_init : Follows initDetector (0, []) :=
  ⟨rfl, by simp, rfl, rfl⟩

theorem Follows.step {d : Detector} {s : ℚ × List ℚ} (h : Follows d s)
    (ax : ExactFloat) :
    ∃ d', detectBrake1 d ax =
        some (d', (smoothStep accepted smooth 10 s ax).2.map windowOf) ∧
      Follows d' (smoothStep accepted smooth 10 s ax).1 := by
  cases hax : accepted ax with
  | none =>
      refine ⟨d, ?_, ?_⟩
      · rw [detectBrake1_of_invalid d hax]
        simp [smoothStep, hax]
      · simpa [smoothStep, hax] using h
  | some x =>
      have hcount : d.count < 10 := h.count ▸ h.room
      have htake : (d.arr.set d.count (smooth s.1 x)).toList.take (d.count + 1) =
          s.2 ++ [smooth s.1 x] := by
        rw [← h.entries, take_set d.arr _ hcount]
      rw [detectBrake1_of_accepted hcount hax, h.filter]
      simp only [smoothStep, hax, push]
      by_cases hfull : 10 ≤ s.2.length + 1
      · have hten : (d.arr.set d.count (smooth s.1 x)).toList = s.2 ++ [smooth s.1 x] := by
          rw [← htake, List.take_of_length_le (by simp [h.count, hfull])]
        rw [if_pos (h.count ▸ hfull), if_pos hfull, hten]
        exact ⟨_, rfl, ⟨rfl, by simp, rfl, rfl⟩⟩
      · rw [if_neg (h.count ▸ hfull), if_neg hfull]
        exact ⟨_, rfl, ⟨by simp [h.count], by simp; omega, rfl, htake⟩⟩

theorem transduce_detectBrake1 (stream : List ExactFloat) :
    ∃ d, transduce detectBrake1 initDetector stream =
        some (d, (completeBlocks 10
          (running smooth 0 (stream.filterMap accepted))).map windowOf) ∧
      Follows d (emit (smoothStep accepted smooth 10) (0, []) stream).1 := by
  obtain ⟨d, hrun, hfollows⟩ := transduce_of_simulation (R := Follows)
    (fun d s ax h => h.step ax) follows_init stream
  rw [emit_smoothStep accepted smooth 0 [] (by simp)] at hrun
  exact ⟨d, hrun, hfollows⟩

theorem filterMap_accepted_filter (stream : List ExactFloat) :
    (stream.filter fun ax => !invalid ax).filterMap accepted =
      stream.filterMap accepted := by
  induction stream with
  | nil => rfl
  | cons ax stream ih =>
      cases hax : invalid ax with
      | true =>
          rw [List.filter_cons_of_neg (by simp [hax]), ih,
            List.filterMap_cons_none ((accepted_eq_none_iff ax).mpr hax)]
      | false =>
          rw [List.filter_cons_of_pos (by simp [hax]), List.filterMap_cons,
            List.filterMap_cons, ih]

theorem decisions_eq (stream : List ExactFloat) :
    decisions stream = some (batchDecisions stream) := by
  obtain ⟨d, hrun, -⟩ := transduce_detectBrake1 stream
  simp only [decisions, hrun, Option.map_some, List.map_map, batchDecisions,
    Function.comp_def, brakes_windowOf]

/-- The loop decides what the specification of the whole stream says, and streams
that differ only in invalid samples are decided alike. -/
theorem decisions_eq_batch (stream : List ExactFloat) :
    decisions stream = some (batchDecisions stream) ∧
      ∀ stream' : List ExactFloat,
        stream'.filter (fun ax => !invalid ax) = stream.filter (fun ax => !invalid ax) →
          decisions stream' = decisions stream := by
  refine ⟨decisions_eq stream, ?_⟩
  intro stream' hvalid
  rw [decisions_eq, decisions_eq, batchDecisions, batchDecisions,
    ← filterMap_accepted_filter stream', hvalid, filterMap_accepted_filter]

end BikeMcu.BatchDetection
