import BikeMcu.BinaryRounding
import BikeMcu.BmiData

/-!
`detect_brake_2` of `braking_algrothim.c`. Every access to `arr` is logged, and an
access behind its ten elements reaches whatever lies there.
-/

namespace BikeMcu.PairwiseDetector

open BikeMcu.BmiData
open BikeMcu.BinaryRounding

/-- `memory` is what lies from `arr` on. -/
structure Detector2 where
  count : ℕ
  memory : ℕ → ExactFloat

def initDetector2 (stack : ℕ → ExactFloat) : Detector2 :=
  { count := 0, memory := fun i => if i < 10 then .finite 0 else stack i }

/-- The C function, which rounds halves away from zero. -/
def cRound (q : ℚ) : ℤ :=
  if 0 ≤ q then ⌊q + 1 / 2⌋ else ⌈q - 1 / 2⌉

/-- A product of floats, which overflows to an infinity. -/
def floatMul (p q : ℚ) : ExactFloat :=
  let r := binary32.round (p * q)
  if |r| < 2 ^ 128 then .finite r else .infinity (decide (r < 0))

/-- `round(x) / 100` is a double, which the assignment makes a float. -/
def roundedQuotient : ExactFloat → ExactFloat
  | .finite x => .finite (binary32.round (binary64.round (cRound x / 100)))
  | x => x

def hundredths : ExactFloat → ExactFloat
  | .finite q => roundedQuotient (floatMul q 100)
  | ax => ax

/-- `-0.15f` -/
def threshold : ℚ := -binary32.round (15 / 100)

structure Iteration where
  accesses : List ℕ
  brakes : Bool
  deriving DecidableEq, Repr

/-- The pairwise comparison at the indices `is`: whether it falls all the way, and
the accesses made until it does not. -/
def isBreaking (memory : ℕ → ExactFloat) : List ℕ → Bool × List ℕ
  | [] => (true, [])
  | i :: is =>
      if (memory (i + 1)).lt (memory i) then
        let rest := isBreaking memory is
        (rest.1, (i + 1) :: i :: rest.2)
      else (false, [i + 1, i])

/-- One iteration on a received sample, without `decel_count`, which nothing reads.
The threshold test is reached only behind the comparison, the dump only by a
brake. -/
def detectBrake2 (d : Detector2) (ax : ExactFloat) : Detector2 × Iteration :=
  let memory := Function.update d.memory d.count (hundredths ax)
  if 10 < d.count + 1 then
    let trend := isBreaking memory (List.range 9)
    let brakes := trend.1 && (memory 10).le threshold
    ({ count := 0, memory := memory },
      { accesses := d.count :: trend.2 ++ (if trend.1 then [10] else []) ++
          (if brakes then List.range 10 else [])
        brakes := brakes })
  else ({ count := d.count + 1, memory := memory }, { accesses := [d.count], brakes := false })

def iterations : Detector2 → List ExactFloat → List Iteration
  | _, [] => []
  | d, ax :: stream => (detectBrake2 d ax).2 :: iterations (detectBrake2 d ax).1 stream

theorem mem_accesses_isBreaking {memory : ℕ → ExactFloat} {is : List ℕ} {i : ℕ}
    (h : i ∈ (isBreaking memory is).2) : ∃ j ∈ is, i ≤ j + 1 := by
  induction is with
  | nil => cases h
  | cons j is ih =>
      rw [isBreaking] at h
      split at h
      · rcases List.mem_cons.mp h with rfl | h
        · exact ⟨j, List.mem_cons_self, le_rfl⟩
        rcases List.mem_cons.mp h with rfl | h
        · exact ⟨i, List.mem_cons_self, Nat.le_succ i⟩
        obtain ⟨k, hk, hik⟩ := ih h
        exact ⟨k, List.mem_cons_of_mem j hk, hik⟩
      · rcases List.mem_pair.mp h with rfl | rfl
        · exact ⟨j, List.mem_cons_self, le_rfl⟩
        · exact ⟨i, List.mem_cons_self, Nat.le_succ i⟩

/-- The store comes first: the eleventh one goes behind the array. -/
theorem count_mem_accesses (d : Detector2) (ax : ExactFloat) :
    d.count ∈ (detectBrake2 d ax).2.accesses := by
  simp only [detectBrake2]
  split
  · simp
  · simp

theorem detectBrake2_of_room {d : Detector2} (hcount : d.count < 10) (ax : ExactFloat) :
    (detectBrake2 d ax).1.count = d.count + 1 ∧
      (detectBrake2 d ax).2.accesses = [d.count] := by
  have hroom : ¬ 10 < d.count + 1 := by omega
  simp [detectBrake2, hroom]

/-- The counter reaches 10 before it is tested, and no access goes further than
that. -/
theorem step_bound {d : Detector2} (hcount : d.count ≤ 10) (ax : ExactFloat) :
    (detectBrake2 d ax).1.count ≤ 10 ∧ ∀ i ∈ (detectBrake2 d ax).2.accesses, i ≤ 10 := by
  simp only [detectBrake2]
  split
  · refine ⟨Nat.zero_le 10, ?_⟩
    intro i hi
    rcases List.mem_append.mp hi with hi | hi
    · rcases List.mem_append.mp hi with hi | hi
      · rcases List.mem_cons.mp hi with rfl | hi
        · exact hcount
        · obtain ⟨j, hj, hij⟩ := mem_accesses_isBreaking hi
          have hrange := List.mem_range.mp hj
          omega
      · split at hi
        · exact (List.mem_singleton.mp hi).le
        · cases hi
    · split at hi
      · exact (List.mem_range.mp hi).le
      · cases hi
  · refine ⟨by dsimp only; omega, ?_⟩
    intro i hi
    exact (List.mem_singleton.mp hi).trans_le hcount

theorem accesses_le {d : Detector2} (hcount : d.count ≤ 10) (stream : List ExactFloat) :
    ∀ x ∈ iterations d stream, ∀ i ∈ x.accesses, i ≤ 10 := by
  induction stream generalizing d with
  | nil => exact fun _ hx => absurd hx List.not_mem_nil
  | cons ax stream ih =>
      intro x hx
      rcases List.mem_cons.mp hx with rfl | hx
      · exact (step_bound hcount ax).2
      · exact ih (step_bound hcount ax).1 x hx

theorem accesses_lt_iff {d : Detector2} (hcount : d.count ≤ 10) (stream : List ExactFloat) :
    (∀ x ∈ iterations d stream, ∀ i ∈ x.accesses, i < 10) ↔
      stream = [] ∨ d.count + stream.length ≤ 10 := by
  induction stream generalizing d with
  | nil => simp [iterations]
  | cons ax stream ih =>
      rw [iterations, List.forall_mem_cons]
      rcases Nat.lt_or_eq_of_le hcount with hroom | hfull
      · obtain ⟨hnext, haccesses⟩ := detectBrake2_of_room hroom ax
        rw [ih (hnext ▸ hroom), hnext, haccesses, List.length_cons]
        constructor
        · rintro ⟨-, rfl | hlen⟩
          · exact .inr (Nat.succ_le_of_lt hroom)
          · exact .inr (by omega)
        · rintro (hnil | hlen)
          · cases hnil
          · exact ⟨by simp [hroom], .inr (by omega)⟩
      · constructor
        · rintro ⟨hfirst, -⟩
          have hstore := hfirst d.count (count_mem_accesses d ax)
          omega
        · rintro (hnil | hlen)
          · cases hnil
          · rw [List.length_cons] at hlen
            omega

/-- Every access is inside the array exactly as long as ten samples have come in; at
worst the cell right behind it is reached. -/
theorem accesses_inside_iff (stack : ℕ → ExactFloat) (stream : List ExactFloat) :
    ((∀ x ∈ iterations (initDetector2 stack) stream, ∀ i ∈ x.accesses, i < 10) ↔
      stream.length ≤ 10) ∧
    ∀ x ∈ iterations (initDetector2 stack) stream, ∀ i ∈ x.accesses, i ≤ 10 := by
  refine ⟨?_, accesses_le (Nat.zero_le 10) stream⟩
  rw [accesses_lt_iff (Nat.zero_le 10)]
  cases stream with
  | nil => simp
  | cons ax stream => simp [initDetector2]

/-- The eleventh sample is stored behind the array. -/
theorem eleventh_store_overflows :
    ¬ ∀ (stack : ℕ → ExactFloat) (stream : List ExactFloat),
      ∀ x ∈ iterations (initDetector2 stack) stream, ∀ i ∈ x.accesses, i < 10 := by
  intro h
  have hstream := (accesses_lt_iff (Nat.zero_le 10) _).mp
    (h (fun _ => .nan) (List.replicate 11 (.finite 0)))
  exact absurd hstream (by decide)

end BikeMcu.PairwiseDetector
