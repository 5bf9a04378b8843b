import Mathlib.Data.List.Basic
import Mathlib.Data.List.Forall2
import Mathlib.Algebra.Order.Field.Basic
import Mathlib.Algebra.Order.BigOperators.Ring.Finset
import Mathlib.Tactic.Ring

namespace BikeMcu.StreamBlocks

/-- The state and the results after a stream, `none` once the machine is
stuck. -/
def transduce {σ α β : Type*} (step : σ → α → Option (σ × Option β)) :
    σ → List α → Option (σ × List β)
  | s, [] => some (s, [])
  | s, x :: xs =>
      (step s x).bind fun r =>
        (transduce step r.1 xs).map fun rest => (rest.1, r.2.toList ++ rest.2)

def emit {τ α β : Type*} (step : τ → α → τ × Option β) : τ → List α → τ × List β
  | t, [] => (t, [])
  | t, x :: xs =>
      let r := step t x
      let rest := emit step r.1 xs
      (rest.1, r.2.toList ++ rest.2)

/-- A machine that keeps up with one that is never stuck is never stuck itself,
and its results are the images of the other one's. -/
theorem transduce_of_simulation {σ τ α β γ : Type*}
    {step : σ → α → Option (σ × Option β)} {abstract : τ → α → τ × Option γ}
    {R : σ → τ → Prop} {f : γ → β}
    (h : ∀ s t x, R s t → ∃ s', step s x = some (s', (abstract t x).2.map f) ∧
      R s' (abstract t x).1)
    {s : σ} {t : τ} (hR : R s t) (xs : List α) :
    ∃ s', transduce step s xs = some (s', (emit abstract t xs).2.map f) ∧
      R s' (emit abstract t xs).1 := by
  induction xs generalizing s t with
  | nil => exact ⟨s, rfl, hR⟩
  | cons x xs ih =>
      obtain ⟨s', hstep, hR'⟩ := h s t x hR
      obtain ⟨s'', hrest, hR''⟩ := ih hR'
      refine ⟨s'', ?_, hR''⟩
      rw [transduce, hstep, Option.bind_some, hrest]
      cases hout : (abstract t x).2 <;> simp [emit, hout]

theorem transduce_some {τ α β : Type*} (step : τ → α → τ × Option β) (t : τ)
    (xs : List α) : transduce (fun t x => some (step t x)) t xs = some (emit step t xs) := by
  induction xs generalizing t with
  | nil => rfl
  | cons x xs ih => rw [transduce, Option.bind_some, ih, Option.map_some, emit]

/-- A machine whose step, on admitted letters, keeps an invariant and never sticks,
never sticks on a stream of such letters, and its results have the property that
each step's result has. -/
theorem transduce_of_invariant {σ α β : Type*} {step : σ → α → Option (σ × Option β)}
    {Inv : σ → Prop} {A : α → Prop} {Q : β → Prop}
    (h : ∀ s x, Inv s → A x → ∃ s' y, step s x = some (s', y) ∧ Inv s' ∧ ∀ b ∈ y, Q b)
    {s : σ} (hs : Inv s) {xs : List α} (hxs : ∀ x ∈ xs, A x) :
    ∃ s' ys, transduce step s xs = some (s', ys) ∧ Inv s' ∧ ∀ b ∈ ys, Q b := by
  induction xs generalizing s with
  | nil => exact ⟨s, [], rfl, hs, by simp⟩
  | cons x xs ih =>
      obtain ⟨s', y, hstep, hInv, hy⟩ := h s x hs (hxs x List.mem_cons_self)
      obtain ⟨s'', ys, hrest, hInv', hys⟩ :=
        ih hInv fun x hx => hxs x (List.mem_cons_of_mem _ hx)
      refine ⟨s'', y.toList ++ ys, ?_, hInv', ?_⟩
      · rw [transduce, hstep, Option.bind_some, hrest, Option.map_some]
      · intro b hb
        rcases List.mem_append.mp hb with hb | hb
        · exact hy b (Option.mem_toList.mp hb)
        · exact hys b hb

theorem transduce_concat {σ α β : Type*} {step : σ → α → Option (σ × Option β)}
    {s t u : σ} {x : α} {xs : List α} {y : Option β} {ys : List β}
    (h : transduce step s xs = some (t, ys)) (hx : step t x = some (u, y)) :
    transduce step s (xs ++ [x]) = some (u, ys ++ y.toList) := by
  induction xs generalizing s ys with
  | nil =>
      obtain ⟨rfl, rfl⟩ := Prod.mk.inj (Option.some.inj h)
      simp [transduce, hx]
  | cons z xs ih =>
      obtain ⟨r, hr, hrest⟩ := Option.bind_eq_some_iff.mp h
      obtain ⟨rest, htail, heq⟩ := Option.map_eq_some_iff.mp hrest
      obtain ⟨rfl, rfl⟩ := Prod.mk.inj heq
      rw [List.cons_append, transduce, hr, Option.bind_some, ih htail, Option.map_some,
        List.append_assoc]

def running {α γ : Type*} (g : γ → α → γ) : γ → List α → List γ
  | _, [] => []
  | c, x :: xs => g c x :: running g (g c x) xs

/-- Each letter meets `P` at the value of the recurrence it arrives at. -/
def Along {α γ : Type*} (P : γ → α → Prop) (g : γ → α → γ) : γ → List α → Prop
  | _, [] => True
  | c, x :: xs => P c x ∧ Along P g (g c x) xs

theorem length_running {α γ : Type*} (g : γ → α → γ) (c : γ) (xs : List α) :
    (running g c xs).length = xs.length := by
  induction xs generalizing c with
  | nil => rfl
  | cons x xs ih => rw [running, List.length_cons, List.length_cons, ih]

theorem running_append {α γ : Type*} (g : γ → α → γ) (c : γ) (xs ys : List α) :
    running g c (xs ++ ys) = running g c xs ++ running g (xs.foldl g c) ys := by
  induction xs generalizing c with
  | nil => rfl
  | cons x xs ih => rw [List.cons_append, running, running, ih, List.foldl_cons, List.cons_append]

/-- A map that carries one recurrence over into another carries its values over. -/
theorem running_map {α β γ δ : Type*} {g : γ → α → γ} {g' : δ → β → δ} {f : γ → δ}
    {e : α → β} (h : ∀ c x, g' (f c) (e x) = f (g c x)) (c : γ) (xs : List α) :
    running g' (f c) (xs.map e) = (running g c xs).map f := by
  induction xs generalizing c with
  | nil => rfl
  | cons x xs ih => rw [List.map_cons, running, running, h, ih, List.map_cons]

/-- Recurrences that keep their values related are related value by value. -/
theorem running_forall₂ {α β γ δ : Type*} {g : γ → α → γ} {g' : δ → β → δ}
    {S : α → β → Prop} {R : γ → δ → Prop}
    (h : ∀ {c d x y}, R c d → S x y → R (g c x) (g' d y)) {c : γ} {d : δ} (hR : R c d)
    {xs : List α} {ys : List β} (hS : List.Forall₂ S xs ys) :
    List.Forall₂ R (running g c xs) (running g' d ys) := by
  induction hS generalizing c d with
  | nil => exact .nil
  | cons hxy _ ih => exact .cons (h hR hxy) (ih (h hR hxy))

theorem along_append {α γ : Type*} {P : γ → α → Prop} {g : γ → α → γ} {c : γ}
    {xs ys : List α} :
    Along P g c (xs ++ ys) ↔ Along P g c xs ∧ Along P g (xs.foldl g c) ys := by
  induction xs generalizing c with
  | nil => simp [Along]
  | cons x xs ih => rw [List.cons_append, Along, Along, ih, List.foldl_cons, and_assoc]

theorem along_foldl {α γ : Type*} {P : γ → α → Prop} {g : γ → α → γ} {Q : γ → Prop}
    (hQ : ∀ c x, P c x → Q c → Q (g c x)) {c : γ} {xs : List α} (h : Along P g c xs)
    (hc : Q c) : Q (xs.foldl g c) := by
  induction xs generalizing c with
  | nil => exact hc
  | cons x xs ih => exact ih h.2 (hQ c x h.1 hc)

/-- Where each letter brings the measure of the value down by the factor `r`, the
measures sum up to no more than the geometric series. -/
theorem sum_running_le {α γ K : Type*} [Field K] [LinearOrder K] [IsStrictOrderedRing K]
    {P : γ → α → Prop} {g : γ → α → γ} {v : γ → K} {r : K} (hr : 0 ≤ r)
    (hv : ∀ c x, P c x → v (g c x) ≤ r * v c) {c : γ} {xs : List α}
    (h : Along P g c xs) :
    ((running g c xs).map v).sum ≤ v c * ∑ i ∈ Finset.range xs.length, r ^ (i + 1) := by
  induction xs generalizing c with
  | nil => simp [running]
  | cons x xs ih =>
      have hpos : 0 ≤ 1 + ∑ i ∈ Finset.range xs.length, r ^ (i + 1) :=
        add_nonneg zero_le_one (Finset.sum_nonneg fun i _ => pow_nonneg hr (i + 1))
      have hsplit : ∑ i ∈ Finset.range (xs.length + 1), r ^ (i + 1) =
          r + r * ∑ i ∈ Finset.range xs.length, r ^ (i + 1) := by
        rw [Finset.sum_range_succ', Finset.mul_sum, zero_add, pow_one, add_comm]
        simp only [pow_succ' r]
      have hnext := hv c x h.1
      have htail := ih h.2
      rw [running, List.map_cons, List.sum_cons, List.length_cons, hsplit]
      calc
        v (g c x) + ((running g (g c x) xs).map v).sum
            ≤ v (g c x) + v (g c x) * ∑ i ∈ Finset.range xs.length, r ^ (i + 1) :=
              add_le_add_right htail _
        _ = v (g c x) * (1 + ∑ i ∈ Finset.range xs.length, r ^ (i + 1)) := by ring
        _ ≤ r * v c * (1 + ∑ i ∈ Finset.range xs.length, r ^ (i + 1)) :=
              mul_le_mul_of_nonneg_right hnext hpos
        _ = v c * (r + r * ∑ i ∈ Finset.range xs.length, r ^ (i + 1)) := by ring

/-- The consecutive blocks of length `n`; an incomplete last one is dropped. -/
def completeBlocks {α : Type*} (n : ℕ) (xs : List α) : List (List α) :=
  (List.range (xs.length / n)).map fun k => (xs.drop (k * n)).take n

theorem completeBlocks_map {α β : Type*} (n : ℕ) (f : α → β) (xs : List α) :
    completeBlocks n (xs.map f) = (completeBlocks n xs).map (List.map f) := by
  rw [completeBlocks, completeBlocks, List.length_map, List.map_map]
  apply List.map_congr_left
  intro k _
  rw [Function.comp_apply, List.map_take, List.map_drop]

theorem completeBlocks_forall₂ {α β : Type*} {R : α → β → Prop} (n : ℕ) {xs : List α}
    {ys : List β} (h : List.Forall₂ R xs ys) :
    List.Forall₂ (List.Forall₂ R) (completeBlocks n xs) (completeBlocks n ys) := by
  rw [completeBlocks, completeBlocks, ← h.length_eq, List.forall₂_map_left_iff,
    List.forall₂_map_right_iff, List.forall₂_same]
  intro k _
  exact List.forall₂_take n (List.forall₂_drop (k * n) h)

theorem completeBlocks_of_length_lt {α : Type*} {n : ℕ} {xs : List α}
    (h : xs.length < n) : completeBlocks n xs = [] := by
  simp [completeBlocks, Nat.div_eq_of_lt h]

theorem completeBlocks_append {α : Type*} {n : ℕ} (hn : 0 < n) {b : List α}
    (hb : b.length = n) (xs : List α) :
    completeBlocks n (b ++ xs) = b :: completeBlocks n xs := by
  have hlen : (b ++ xs).length / n = xs.length / n + 1 := by
    rw [List.length_append, hb, Nat.add_div_left _ hn]
  simp only [completeBlocks, hlen, List.range_succ_eq_map, List.map_cons, List.map_map]
  congr 1
  · simp [← hb]
  · apply List.map_congr_left
    intro k _
    have hdrop : (k + 1) * n = b.length + k * n := by
      rw [hb, Nat.succ_mul]
      omega
    simp only [Function.comp_apply, hdrop, ← List.drop_drop, List.drop_left]

theorem length_of_mem_completeBlocks {α : Type*} {n : ℕ} {xs b : List α}
    (h : b ∈ completeBlocks n xs) : b.length = n := by
  obtain ⟨k, hk, rfl⟩ := List.mem_map.mp h
  have hroom : k * n + n ≤ xs.length :=
    calc
      k * n + n = (k + 1) * n := (Nat.succ_mul k n).symm
      _ ≤ xs.length / n * n := Nat.mul_le_mul_right n (List.mem_range.mp hk)
      _ ≤ xs.length := Nat.div_mul_le_self xs.length n
  rw [List.length_take, List.length_drop]
  omega

/-- A block of a recurrence's values is what the recurrence makes of a stretch of its
letters, from the value that the letters before lead to. -/
theorem exists_of_mem_completeBlocks_running {α γ : Type*} {g : γ → α → γ} {n : ℕ}
    {c : γ} {xs : List α} {b : List γ} (h : b ∈ completeBlocks n (running g c xs)) :
    ∃ pre ys post, xs = pre ++ (ys ++ post) ∧ ys.length = n ∧
      b = running g (pre.foldl g c) ys := by
  obtain ⟨k, hk, rfl⟩ := List.mem_map.mp h
  rw [List.mem_range, length_running] at hk
  have hroom : k * n + n ≤ xs.length :=
    calc
      k * n + n = (k + 1) * n := (Nat.succ_mul k n).symm
      _ ≤ xs.length / n * n := Nat.mul_le_mul_right n hk
      _ ≤ xs.length := Nat.div_mul_le_self xs.length n
  have hpre : (running g c (xs.take (k * n))).length = k * n := by
    rw [length_running, List.length_take]
    omega
  have hlen : ((xs.drop (k * n)).take n).length = n := by
    rw [List.length_take, List.length_drop]
    omega
  refine ⟨xs.take (k * n), (xs.drop (k * n)).take n, (xs.drop (k * n)).drop n, ?_, hlen, ?_⟩
  · rw [List.take_append_drop, List.take_append_drop]
  · conv_lhs => rw [← List.take_append_drop (k * n) xs, running_append,
      List.drop_left' hpre, ← List.take_append_drop n (xs.drop (k * n)), running_append]
    exact List.take_left' (by rw [length_running, hlen])

/-- Where any `n` letters in a row make a good block, so do `2 * n - 1` letters, wherever
in a block they begin. -/
theorem exists_block_of_along {α γ : Type*} {P : γ → α → Prop} {g : γ → α → γ} {I : γ → Prop}
    {Q : List γ → Prop} {n : ℕ} (hkeep : ∀ c x, P c x → I c → I (g c x))
    (hblock : ∀ c ys, I c → ys.length = n → Along P g c ys → Q (running g c ys)) {c : γ}
    {w : List γ} {ys : List α} (hc : I c) (hw : w.length < n) (hlen : ys.length = 2 * n - 1)
    (h : Along P g c ys) : ∃ b ∈ completeBlocks n (w ++ running g c ys), Q b := by
  have hn : 0 < n := by omega
  have hfirst : ∀ c ys, I c → n ≤ ys.length → Along P g c ys →
      ∃ b ∈ completeBlocks n (running g c ys), Q b := by
    intro c ys hc hlen h
    have htake : (ys.take n).length = n := by
      rw [List.length_take, Nat.min_eq_left hlen]
    rw [← List.take_append_drop n ys, along_append] at h
    refine ⟨running g c (ys.take n), ?_, hblock c _ hc htake h.1⟩
    rw [← List.take_append_drop n ys, running_append,
      completeBlocks_append hn (by rw [length_running, htake])]
    simp
  rcases Nat.eq_zero_or_pos w.length with hnone | hsome
  · rw [List.length_eq_zero_iff.mp hnone]
    exact hfirst c ys hc (by omega) h
  · rw [← List.take_append_drop (n - w.length) ys, along_append] at h
    obtain ⟨b, hb, hQ⟩ := hfirst _ (ys.drop (n - w.length)) (along_foldl hkeep h.1 hc)
      (by rw [List.length_drop]; omega) h.2
    refine ⟨b, ?_, hQ⟩
    have hfull : (w ++ running g c (ys.take (n - w.length))).length = n := by
      rw [List.length_append, length_running, List.length_take]
      omega
    rw [← List.take_append_drop (n - w.length) ys, running_append, ← List.append_assoc,
      completeBlocks_append hn hfull]
    exact List.mem_cons_of_mem _ hb

theorem zip_tail_forall₂ {α β : Type*} {R : α → β → Prop} {xs : List α} {ys : List β}
    (h : List.Forall₂ R xs ys) :
    List.Forall₂ (fun p q => R p.1 q.1 ∧ R p.2 q.2) (xs.zip xs.tail) (ys.zip ys.tail) := by
  induction h with
  | nil => exact .nil
  | cons hxy hrest ih =>
      cases hrest with
      | nil => exact .nil
      | cons hnext _ => exact .cons ⟨hxy, hnext⟩ ih

theorem forall_of_forall₂ {α β : Type*} {R : α → β → Prop} {P : α → Prop} {Q : β → Prop}
    (hRQ : ∀ x y, R x y → P x → Q y) {xs : List α} {ys : List β} (h : List.Forall₂ R xs ys)
    (hP : ∀ x ∈ xs, P x) : ∀ y ∈ ys, Q y := by
  induction h with
  | nil => exact fun y hy => absurd hy List.not_mem_nil
  | cons hxy _ ih =>
      rw [List.forall_mem_cons] at hP ⊢
      exact ⟨hRQ _ _ hxy hP.1, ih hP.2⟩

theorem countP_le_of_forall₂ {α β : Type*} {p : α → Bool} {q : β → Bool} {xs : List α}
    {ys : List β} (h : List.Forall₂ (fun x y => p x = true → q y = true) xs ys) :
    xs.countP p ≤ ys.countP q := by
  induction h with
  | nil => exact le_rfl
  | @cons x y xs ys hxy _ ih =>
      rw [List.countP_cons, List.countP_cons]
      refine Nat.add_le_add ih ?_
      split
      · rw [if_pos (hxy ‹_›)]
      · exact Nat.zero_le _

def push {α : Type*} (n : ℕ) (w : List α) (x : α) : List α × Option (List α) :=
  if n ≤ w.length + 1 then ([], some (w ++ [x])) else (w ++ [x], none)

/-- Letters are tested, drive a recurrence, and its values fill blocks. -/
def smoothStep {α β γ : Type*} (accept : α → Option β) (g : γ → β → γ) (n : ℕ)
    (s : γ × List γ) (x : α) : (γ × List γ) × Option (List γ) :=
  match accept x with
  | none => (s, none)
  | some y =>
      let c := g s.1 y
      let r := push n s.2 c
      ((c, r.1), r.2)

theorem emit_smoothStep {α β γ : Type*} (accept : α → Option β) (g : γ → β → γ)
    {n : ℕ} (c : γ) (w : List γ) (hw : w.length < n) (xs : List α) :
    (emit (smoothStep accept g n) (c, w) xs).2 =
      completeBlocks n (w ++ running g c (xs.filterMap accept)) := by
  induction xs generalizing c w with
  | nil =>
      rw [completeBlocks_of_length_lt (by simpa [running] using hw)]
      rfl
  | cons x xs ih =>
      cases hx : accept x with
      | none =>
          rw [List.filterMap_cons_none hx, ← ih c w hw]
          simp [emit, smoothStep, hx]
      | some y =>
          rw [List.filterMap_cons_some hx, running]
          by_cases hfull : n ≤ w.length + 1
          · have hlen : (w ++ [g c y]).length = n := by
              rw [List.length_append, List.length_singleton]
              omega
            rw [List.append_cons, completeBlocks_append (by omega) hlen]
            have hrest := ih (g c y) [] (by simp; omega)
            simp only [emit, smoothStep, hx, push, if_pos hfull]
            rw [hrest]
            rfl
          · have hrest := ih (g c y) (w ++ [g c y]) (by simp; omega)
            simp only [emit, smoothStep, hx, push, if_neg hfull]
            rw [hrest, List.append_assoc]
            rfl

end BikeMcu.StreamBlocks
