import Mathlib.Algebra.BigOperators.Group.List.Basic
import BikeMcu.StreamBlocks
import BikeMcu.BmiData

namespace BikeMcu.BrakeDetector

open BikeMcu.StreamBlocks
open BikeMcu.BmiData

def brakeThreshold : ℚ := -3 / 20

def decelMinCount : ℕ := 4

def alpha : ℚ := 1 / 5

structure Detector where
  count : ℕ
  arr : Vector ℚ 10
  filteredAx : ℚ
  deriving DecidableEq, Repr

def initDetector : Detector :=
  { count := 0, arr := Vector.replicate 10 0, filteredAx := 0 }

/-- Where `detect_brake_1` stands around a hold. `braking` and `restoring` are
its two lamp commands, `holding` its `vTaskDelay` of two seconds. -/
inductive DetectPoint where
  | sampling
  | braking
  | holding
  | restoring
  deriving DecidableEq, Repr

/-- An access to the array at any other index than its ten makes the model stuck. -/
def load (arr : Vector ℚ 10) (i : ℕ) : Option ℚ :=
  arr[i]?

def store (arr : Vector ℚ 10) (i : ℕ) (x : ℚ) : Option (Vector ℚ 10) :=
  if h : i < 10 then some (arr.set i x) else none

structure Window where
  decelCount : ℕ
  avgAx : ℚ
  deriving DecidableEq, Repr

def Window.brakes (w : Window) : Bool :=
  decide (decelMinCount ≤ w.decelCount) && decide (w.avgAx ≤ brakeThreshold)

def trendStep (arr : Vector ℚ 10) (acc : ℕ × ℚ) (i : ℕ) : Option (ℕ × ℚ) :=
  (load arr (i + 1)).bind fun next =>
    (load arr i).map fun cur =>
      (if next < cur then acc.1 + 1 else acc.1, acc.2 + cur)

def window (arr : Vector ℚ 10) : Option Window :=
  ((List.range 9).foldlM (trendStep arr) (0, 0)).bind fun acc =>
    (load arr 9).map fun last =>
      { decelCount := acc.1, avgAx := (acc.2 + last) / 10 }

def logArr (arr : Vector ℚ 10) : Option (List ℚ) :=
  (List.range 10).mapM (load arr)

def invalid (ax : ExactFloat) : Bool :=
  ax.isnan || ax.fabs.gt 16

/-- One iteration of the loop on a received sample, with the window it decided
on. The lamp commands and the delay of the brake branch belong to the system
around it. -/
def detectBrake1 (d : Detector) (ax : ExactFloat) :
    Option (Detector × Option Window) :=
  if invalid ax then some (d, none)
  else
    let filteredAx := alpha * ax.toRat + (1 - alpha) * d.filteredAx
    (store d.arr d.count filteredAx).bind fun arr =>
      if 10 ≤ d.count + 1 then
        (window arr).bind fun w =>
          (if w.brakes then logArr arr else some []).map fun _ =>
            ({ count := 0, arr := arr, filteredAx := filteredAx }, some w)
      else some ({ count := d.count + 1, arr := arr, filteredAx := filteredAx }, none)

def decisions (stream : List ExactFloat) : Option (List Bool) :=
  (transduce detectBrake1 initDetector stream).map fun r => r.2.map Window.brakes

theorem load_eq (arr : Vector ℚ 10) {i : ℕ} (hi : i < 10) :
    load arr i = some arr[i] := by
  simp [load, hi]

theorem mapM_load (arr : Vector ℚ 10) {n : ℕ} (hn : n ≤ 10) :
    (List.range n).mapM (load arr) = some (arr.toList.take n) := by
  induction n with
  | zero => rfl
  | succ n ih =>
      have hget : arr.toList[n]? = some arr[n] := by simp [show n < 10 by omega]
      rw [List.range_succ, List.mapM_append, ih (by omega), List.take_add_one, hget]
      simp [load_eq arr (show n < 10 by omega)]

theorem logArr_eq (arr : Vector ℚ 10) : logArr arr = some arr.toList := by
  rw [logArr, mapM_load arr le_rfl, List.take_of_length_le (by simp)]

theorem exists_log (arr : Vector ℚ 10) (w : Window) :
    ∃ l, (if w.brakes then logArr arr else some []) = some l := by
  rw [logArr_eq]
  split
  · exact ⟨_, rfl⟩
  · exact ⟨_, rfl⟩

def decreasingPairs (b : List ℚ) : ℕ :=
  (b.zip b.tail).countP fun p => decide (p.2 < p.1)

theorem decreasingPairs_cons_cons (c b : ℚ) (l : List ℚ) :
    decreasingPairs (c :: b :: l) = decreasingPairs (b :: l) + (decide (b < c)).toNat := by
  cases h : decide (b < c) <;> simp [decreasingPairs, h]

/-- The loop over `i` up to `n`: the pairs below `n` are counted and the elements
below `n` summed up. -/
theorem foldlM_trendStep (arr : Vector ℚ 10) {n : ℕ} (hn : n ≤ 9) :
    (List.range n).foldlM (trendStep arr) (0, 0) =
      some (((arr.toList.zip arr.toList.tail).take n).countP fun p => decide (p.2 < p.1),
        (arr.toList.take n).sum) := by
  induction n with
  | zero => simp
  | succ n ih =>
      have hpair : (arr.toList.zip arr.toList.tail)[n]? = some (arr[n], arr[n + 1]) := by
        simp [List.getElem?_zip_eq_some, show n + 1 < 10 by omega, show n < 10 by omega]
      have hget : arr.toList[n]? = some arr[n] := by simp [show n < 10 by omega]
      rw [List.range_succ, List.foldlM_append, ih (by omega), List.take_add_one,
        List.take_add_one, hpair, hget]
      simp only [List.foldlM_cons, List.foldlM_nil, trendStep,
        load_eq arr (show n < 10 by omega), load_eq arr (show n + 1 < 10 by omega)]
      by_cases hlt : arr[n + 1] < arr[n] <;> simp [hlt]

theorem window_eq (arr : Vector ℚ 10) :
    window arr = some { decelCount := decreasingPairs arr.toList,
                        avgAx := arr.toList.sum / 10 } := by
  have hpairs : (arr.toList.zip arr.toList.tail).take 9 =
      arr.toList.zip arr.toList.tail := List.take_of_length_le (by simp)
  have hlast : arr.toList.take 10 = arr.toList.take 9 ++ [arr[9]] := by
    rw [List.take_add_one]
    simp
  have hsum : (arr.toList.take 9).sum + arr[9] = arr.toList.sum := by
    have hten := congrArg List.sum hlast
    rw [List.take_of_length_le (by simp), List.sum_append, List.sum_singleton] at hten
    exact hten.symm
  rw [window, foldlM_trendStep arr le_rfl, load_eq arr (by omega)]
  simp only [Option.bind_some, Option.map_some, hsum, hpairs, decreasingPairs]

theorem invalid_eq_false_iff (ax : ExactFloat) :
    invalid ax = false ↔ ∃ q, ax = .finite q ∧ |q| ≤ 16 := by
  cases ax with
  | nan => simp [invalid, ExactFloat.isnan]
  | infinity negative => simp [invalid, ExactFloat.isnan, ExactFloat.fabs, ExactFloat.gt]
  | finite q => simp [invalid, ExactFloat.isnan, ExactFloat.fabs, ExactFloat.gt]

theorem take_set (arr : Vector ℚ 10) {i : ℕ} (x : ℚ) (hi : i < 10) :
    (arr.set i x).toList.take (i + 1) = arr.toList.take i ++ [x] := by
  rw [Vector.toList_set, List.take_add_one, List.take_set_of_le le_rfl]
  simp [hi]

end BikeMcu.BrakeDetector
