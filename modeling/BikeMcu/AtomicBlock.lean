import BikeMcu.RunLedger

namespace BikeMcu.AtomicBlock

open BikeMcu.TransitionSystem

variable {σ ε κ : Type*}

/-- Two interleavings of the same events: those that `p` picks out stand in the same
order, and so do all others. -/
structure SameOrder (p : ε → Bool) (xs ys : List ε) : Prop where
  picked : xs.filter p = ys.filter p
  others : xs.filter (fun e => !p e) = ys.filter fun e => !p e

theorem SameOrder.refl (p : ε → Bool) (xs : List ε) : SameOrder p xs xs := ⟨rfl, rfl⟩

theorem SameOrder.trans {p : ε → Bool} {xs ys zs : List ε} (h : SameOrder p xs ys)
    (h' : SameOrder p ys zs) : SameOrder p xs zs :=
  ⟨h.picked.trans h'.picked, h.others.trans h'.others⟩

theorem SameOrder.append {p : ε → Bool} {xs ys xs' ys' : List ε} (h : SameOrder p xs ys)
    (h' : SameOrder p xs' ys') : SameOrder p (xs ++ xs') (ys ++ ys') := by
  constructor
  · rw [List.filter_append, List.filter_append, h.picked, h'.picked]
  · rw [List.filter_append, List.filter_append, h.others, h'.others]

theorem sameOrder_move {p : ε → Bool} {ms : List ε} {e : ε}
    (hms : ∀ m ∈ ms, p m = true) (he : p e = false) :
    SameOrder p (e :: ms) (ms ++ [e]) := by
  have hothers : ms.filter (fun m => !p m) = [] := by
    rw [List.filter_eq_nil_iff]
    intro m hm
    simp [hms m hm]
  constructor
  · simp [he]
  · simp [he, hothers]

/-- A block of a program over a system that can also do it at once, by `atomic`. What it
is to do is decided where it is `ready` to begin, and comes about in the end, with the
outcome `k`. Meanwhile only `other` steps are taken; those that are `late` can be moved
behind every one that is not and behind the block itself. -/
structure Block (next : σ → ε → Option σ) (κ : Type*) where
  ready : σ → Bool
  atomic : κ → ε
  effect : κ → σ → σ
  other : ε → Bool
  late : ε → Bool
  step_atomic : ∀ s k, ready s = true → next s (atomic k) = some (effect k s)
  late_atomic : ∀ k, late (atomic k) = false
  ready_step : ∀ s e t, other e = true → late e = false → ready s = true →
    next s e = some t → ready t = true
  move : ∀ m e s t u, late m = true → other e = true → late e = false →
    next s m = some t → next t e = some u → ∃ v, next s e = some v ∧ next v m = some u
  step_effect : ∀ k m s t, late m = true → next s m = some t →
    next (effect k s) m = some (effect k t)

inductive BlockEvent (ε κ : Type*) where
  | plain (e : ε)
  | enter
  | leave (k : κ)

variable {next : σ → ε → Option σ}

def BlockEvent.event (B : Block next κ) : BlockEvent ε κ → Option ε
  | .plain e => some e
  | .enter => none
  | .leave k => some (B.atomic k)

/-- The system with the block taken apart; the flag says whether the program is inside. -/
def Block.step (B : Block next κ) : σ × Bool → BlockEvent ε κ → Option (σ × Bool)
  | (s, inside), .plain e =>
      if inside && !B.other e then none else (next s e).map fun t => (t, inside)
  | (s, false), .enter => if B.ready s then some (s, true) else none
  | (s, true), .leave k => some (B.effect k s, false)
  | _, _ => none

theorem Block.run_move (B : Block next κ) {ms : List ε} {e : ε} {s t u : σ}
    (hms : ∀ m ∈ ms, B.late m = true) (he : B.other e = true) (hlate : B.late e = false)
    (hrun : run next s ms = some t) (hstep : next t e = some u) :
    ∃ v, next s e = some v ∧ run next v ms = some u := by
  induction ms generalizing s with
  | nil =>
      have heq : s = t := by simpa [run] using hrun
      exact ⟨u, heq ▸ hstep, rfl⟩
  | cons m ms ih =>
      obtain ⟨r, hr, htail⟩ := run_cons_eq_some.mp hrun
      obtain ⟨v, hv, hrest⟩ := ih (fun x hx => hms x (List.mem_cons_of_mem m hx)) htail
      obtain ⟨w, hw, hm⟩ :=
        B.move m e s r v (hms m List.mem_cons_self) he hlate hr hv
      exact ⟨w, hw, run_cons_eq_some.mpr ⟨v, hm, hrest⟩⟩

theorem Block.run_effect (B : Block next κ) (k : κ) {ms : List ε} {s t : σ}
    (hms : ∀ m ∈ ms, B.late m = true) (hrun : run next s ms = some t) :
    run next (B.effect k s) ms = some (B.effect k t) := by
  induction ms generalizing s with
  | nil =>
      have heq : s = t := by simpa [run] using hrun
      simp [run, heq]
  | cons m ms ih =>
      obtain ⟨r, hr, htail⟩ := run_cons_eq_some.mp hrun
      refine run_cons_eq_some.mpr ⟨B.effect k r, ?_, ?_⟩
      · exact B.step_effect k m s r (hms m List.mem_cons_self) hr
      · exact ih (fun x hx => hms x (List.mem_cons_of_mem m hx)) htail

/-- The run with atomic blocks behind a state. Inside the block it lags by the late
steps since, and waits where the block was entered. -/
def Block.Behind (B : Block next κ) (s : σ) (es : List ε) : σ × Bool → Prop
  | (t, false) => ∃ fs, run next s fs = some t ∧ SameOrder B.late fs es
  | (t, true) => ∃ fs ms u, run next s fs = some u ∧ B.ready u = true ∧
      (∀ m ∈ ms, B.late m = true) ∧ run next u ms = some t ∧
      SameOrder B.late (fs ++ ms) es

theorem Block.Behind.step {B : Block next κ} {s : σ} {es : List ε} {x y : σ × Bool}
    {e : BlockEvent ε κ} (h : B.Behind s es x) (hstep : B.step x e = some y) :
    B.Behind s (es ++ (e.event B).toList) y := by
  obtain ⟨t, inside⟩ := x
  cases e with
  | plain e =>
      simp only [Block.step] at hstep
      split at hstep
      · cases hstep
      · rename_i hother
        obtain ⟨v, hv, rfl⟩ := Option.map_eq_some_iff.mp hstep
        cases inside with
        | false =>
            obtain ⟨fs, hrun, horder⟩ := h
            refine ⟨fs ++ [e], ?_, horder.append (SameOrder.refl _ _)⟩
            exact run_append_eq_some.mpr ⟨t, hrun, run_cons_eq_some.mpr ⟨v, hv, rfl⟩⟩
        | true =>
            obtain ⟨fs, ms, u, hrun, hready, hms, hlag, horder⟩ := h
            have he : B.other e = true := by simpa using hother
            cases hlate : B.late e with
            | true =>
                refine ⟨fs, ms ++ [e], u, hrun, hready, ?_, ?_, ?_⟩
                · intro m hm
                  rcases List.mem_append.mp hm with hm | hm
                  · exact hms m hm
                  · rw [List.mem_singleton.mp hm]
                    exact hlate
                · exact run_append_eq_some.mpr ⟨t, hlag, run_cons_eq_some.mpr ⟨v, hv, rfl⟩⟩
                · rw [← List.append_assoc]
                  exact horder.append (SameOrder.refl _ _)
            | false =>
                obtain ⟨w, hw, hafter⟩ := B.run_move hms he hlate hlag hv
                refine ⟨fs ++ [e], ms, w, ?_, B.ready_step u e w he hlate hready hw, hms,
                  hafter, ?_⟩
                · exact run_append_eq_some.mpr ⟨u, hrun, run_cons_eq_some.mpr ⟨w, hw, rfl⟩⟩
                · rw [List.append_assoc]
                  refine SameOrder.trans ?_ (horder.append (SameOrder.refl _ [e]))
                  rw [List.append_assoc]
                  exact (SameOrder.refl _ fs).append (sameOrder_move hms hlate)
  | enter =>
      cases inside with
      | false =>
          simp only [Block.step] at hstep
          split at hstep
          · cases hstep
            obtain ⟨fs, hrun, horder⟩ := h
            refine ⟨fs, [], t, hrun, ‹_›, by simp, rfl, ?_⟩
            simpa [BlockEvent.event] using horder
          · cases hstep
      | true => cases hstep
  | leave k =>
      cases inside with
      | false => cases hstep
      | true =>
          cases hstep
          obtain ⟨fs, ms, u, hrun, hready, hms, hlag, horder⟩ := h
          refine ⟨fs ++ B.atomic k :: ms, ?_, ?_⟩
          · exact run_append_eq_some.mpr ⟨u, hrun, run_cons_eq_some.mpr
              ⟨B.effect k u, B.step_atomic u k hready, B.run_effect k hms hlag⟩⟩
          · refine SameOrder.trans ?_ (horder.append (SameOrder.refl _ [B.atomic k]))
            rw [List.append_assoc]
            exact (SameOrder.refl _ fs).append (sameOrder_move hms (B.late_atomic k))

/-- Taking the block apart adds no behaviour: every state that its interleavings reach is
reached with atomic blocks, by the same late events in the same order and the same other
events in the same order. -/
theorem Block.run_atomic (B : Block next κ) {s t : σ} {inside : Bool}
    {es : List (BlockEvent ε κ)} (hrun : run B.step (s, false) es = some (t, inside)) :
    ∃ fs, run next s fs = some t ∧
      SameOrder B.late fs (es.filterMap (BlockEvent.event B)) := by
  have hbehind : ∀ (es : List (BlockEvent ε κ)) (seen : List ε) x y, B.Behind s seen x →
      run B.step x es = some y →
      B.Behind s (seen ++ es.filterMap (BlockEvent.event B)) y := by
    intro es
    induction es with
    | nil =>
        intro seen x y hx hxy
        have heq : x = y := by simpa [run] using hxy
        simpa [← heq] using hx
    | cons e es ih =>
        intro seen x y hx hxy
        obtain ⟨z, hz, htail⟩ := run_cons_eq_some.mp hxy
        have hnext := ih _ z y (hx.step hz) htail
        cases hevent : e.event B with
        | none =>
            rw [List.filterMap_cons_none hevent]
            simpa [hevent] using hnext
        | some f =>
            rw [List.filterMap_cons_some hevent]
            simpa [hevent] using hnext
  have hfinal := hbehind es [] (s, false) (t, inside) ⟨[], rfl, SameOrder.refl _ _⟩ hrun
  rw [List.nil_append] at hfinal
  cases inside with
  | false => exact hfinal
  | true =>
      obtain ⟨fs, ms, u, hfirst, -, -, hlag, horder⟩ := hfinal
      exact ⟨fs ++ ms, run_append_eq_some.mpr ⟨u, hfirst, hlag⟩, horder⟩

end BikeMcu.AtomicBlock
