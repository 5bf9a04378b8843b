import Mathlib.Data.List.Basic

/-!
Labelled transition systems given by a partial step function. An event carries
the identity of the party that moves and every outcome the environment chooses,
so a list of events is one interleaving together with its outcomes.
-/

namespace BikeMcu.TransitionSystem

/-- The state after a list of events, `none` as soon as an event is not
enabled. -/
def run {σ ε : Type*} (step : σ → ε → Option σ) : σ → List ε → Option σ
  | s, [] => some s
  | s, e :: es => (step s e).bind fun t => run step t es

def guarded {σ : Type*} (p : Prop) [Decidable p] (s : σ) : Option σ :=
  if p then some s else none

@[simp] theorem guarded_eq_some {σ : Type*} {p : Prop} [Decidable p] {s t : σ} :
    guarded p s = some t ↔ p ∧ s = t := by
  simp [guarded]

def Always {σ ε : Type*} (step : σ → ε → Option σ) (P : σ → Prop) :
    σ → List ε → Prop
  | s, [] => P s
  | s, e :: es => P s ∧ ∀ t, step s e = some t → Always step P t es

def EachStep {σ ε : Type*} (step : σ → ε → Option σ) (C : σ → ε → Prop) :
    σ → List ε → Prop
  | _, [] => True
  | s, e :: es => C s e ∧ ∀ t, step s e = some t → EachStep step C t es

instance decidableEachStep {σ ε : Type*} {step : σ → ε → Option σ}
    {C : σ → ε → Prop} [∀ s e, Decidable (C s e)] :
    ∀ s es, Decidable (EachStep step C s es)
  | _, [] => isTrue trivial
  | s, e :: es =>
      match h : step s e with
      | none => decidable_of_iff (C s e)
          ⟨fun hC => ⟨hC, fun t ht => by simp [h] at ht⟩, fun hC => hC.1⟩
      | some u =>
          have : Decidable (EachStep step C u es) := decidableEachStep u es
          decidable_of_iff (C s e ∧ EachStep step C u es)
            ⟨fun hC => ⟨hC.1, fun t ht => Option.some.inj (h.symm.trans ht) ▸ hC.2⟩,
              fun hC => ⟨hC.1, hC.2 u h⟩⟩

theorem run_cons_eq_some {σ ε : Type*} {step : σ → ε → Option σ}
    {s t : σ} {e : ε} {es : List ε} :
    run step s (e :: es) = some t ↔
      ∃ u, step s e = some u ∧ run step u es = some t := by
  simp only [run, Option.bind_eq_some_iff]

theorem run_append_eq_some {σ ε : Type*} {step : σ → ε → Option σ}
    {s t : σ} {es fs : List ε} :
    run step s (es ++ fs) = some t ↔
      ∃ u, run step s es = some u ∧ run step u fs = some t := by
  induction es generalizing s with
  | nil => simp [run]
  | cons e es ih =>
      simp only [List.cons_append, run_cons_eq_some, ih]
      constructor
      · rintro ⟨u, hstep, v, hes, hfs⟩
        exact ⟨v, ⟨u, hstep, hes⟩, hfs⟩
      · rintro ⟨v, ⟨u, hstep, hes⟩, hfs⟩
        exact ⟨u, hstep, v, hes, hfs⟩

/-- The induction behind every safety result: what each step preserves, a run
preserves. -/
theorem invariant_of_run {σ ε : Type*} {step : σ → ε → Option σ}
    {Inv : σ → Prop} (hstep : ∀ s e t, Inv s → step s e = some t → Inv t)
    {s t : σ} {es : List ε} (hs : Inv s) (hrun : run step s es = some t) :
    Inv t := by
  induction es generalizing s with
  | nil =>
      have heq : s = t := by simpa [run] using hrun
      exact heq ▸ hs
  | cons e es ih =>
      obtain ⟨u, hu, htail⟩ := run_cons_eq_some.mp hrun
      exact ih (hstep s e u hs hu) htail

theorem invariant_of_run_under {σ ε : Type*} {step : σ → ε → Option σ}
    {Inv : σ → Prop} {C : σ → ε → Prop}
    (hstep : ∀ s e t, Inv s → C s e → step s e = some t → Inv t)
    {s t : σ} {es : List ε} (hs : Inv s) (hC : EachStep step C s es)
    (hrun : run step s es = some t) : Inv t := by
  induction es generalizing s with
  | nil =>
      have heq : s = t := by simpa [run] using hrun
      exact heq ▸ hs
  | cons e es ih =>
      obtain ⟨u, hu, htail⟩ := run_cons_eq_some.mp hrun
      exact ih (hstep s e u hs hC.1 hu) (hC.2 u hu) htail

theorem always_of_invariant_under {σ ε : Type*} {step : σ → ε → Option σ}
    {Inv P : σ → Prop} {C : σ → ε → Prop}
    (hstep : ∀ s e t, Inv s → C s e → step s e = some t → Inv t)
    (hP : ∀ s, Inv s → P s) {s : σ} {es : List ε} (hs : Inv s)
    (hC : EachStep step C s es) : Always step P s es := by
  induction es generalizing s with
  | nil => exact hP s hs
  | cons e es ih =>
      exact ⟨hP s hs, fun t ht => ih (hstep s e t hs hC.1 ht) (hC.2 t ht)⟩

theorem eachStep_of_run {σ ε : Type*} {step : σ → ε → Option σ} {C : σ → ε → Prop}
    (hstep : ∀ s e t, step s e = some t → C s e) {s t : σ} {es : List ε}
    (hrun : run step s es = some t) : EachStep step C s es := by
  induction es generalizing s with
  | nil => exact trivial
  | cons e es ih =>
      obtain ⟨u, hu, htail⟩ := run_cons_eq_some.mp hrun
      refine ⟨hstep s e u hu, ?_⟩
      intro v hv
      obtain rfl := Option.some.inj (hu.symm.trans hv)
      exact ih htail

theorem always_head {σ ε : Type*} {step : σ → ε → Option σ} {P : σ → Prop} {s : σ}
    {es : List ε} (h : Always step P s es) : P s := by
  cases es with
  | nil => exact h
  | cons e es => exact h.1

/-- When no step outside `C` leads to `P`, a run that keeps `P` has no such step. -/
theorem eachStep_of_always {σ ε : Type*} {step : σ → ε → Option σ}
    {Inv P : σ → Prop} {C : σ → ε → Prop}
    (hInv : ∀ s e t, Inv s → step s e = some t → Inv t)
    (hP : ∀ s e t, Inv s → step s e = some t → P t → C s e)
    {s t : σ} {es : List ε} (hs : Inv s) (hrun : run step s es = some t)
    (h : Always step P s es) : EachStep step C s es := by
  induction es generalizing s with
  | nil => exact trivial
  | cons e es ih =>
      obtain ⟨u, hu, htail⟩ := run_cons_eq_some.mp hrun
      refine ⟨hP s e u hs hu (always_head (h.2 u hu)), ?_⟩
      intro v hv
      obtain rfl := Option.some.inj (hu.symm.trans hv)
      exact ih (hInv s e u hs hu) htail (h.2 u hu)

/-- When, from a state with `Inv` and `P`, a step keeps `P` exactly if it meets
`C`, the runs that keep `P` throughout are the runs whose steps all meet `C`. -/
theorem always_iff_eachStep {σ ε : Type*} {step : σ → ε → Option σ}
    {Inv P : σ → Prop} {C : σ → ε → Prop}
    (hInv : ∀ s e t, Inv s → step s e = some t → Inv t)
    (hP : ∀ s e t, Inv s → P s → step s e = some t → (P t ↔ C s e))
    {s t : σ} {es : List ε} (hs : Inv s) (hPs : P s)
    (hrun : run step s es = some t) :
    Always step P s es ↔ EachStep step C s es := by
  induction es generalizing s with
  | nil => exact ⟨fun _ => trivial, fun _ => hPs⟩
  | cons e es ih =>
      obtain ⟨u, hu, htail⟩ := run_cons_eq_some.mp hrun
      have hiff := hP s e u hs hPs hu
      have hnext : P u → (Always step P u es ↔ EachStep step C u es) :=
        fun hPu => ih (hInv s e u hs hu) hPu htail
      constructor
      · rintro ⟨-, hall⟩
        have halways := hall u hu
        have hPu : P u := always_head halways
        refine ⟨hiff.mp hPu, ?_⟩
        intro v hv
        have hvu : v = u := Option.some.inj (hv.symm.trans hu)
        exact hvu ▸ (hnext hPu).mp halways
      · rintro ⟨hCs, hall⟩
        refine ⟨hPs, ?_⟩
        intro v hv
        have hvu : v = u := Option.some.inj (hv.symm.trans hu)
        exact hvu ▸ (hnext (hiff.mpr hCs)).mpr (hall u hu)

theorem always_last {σ ε : Type*} {step : σ → ε → Option σ} {P : σ → Prop}
    {s t : σ} {es : List ε} (h : Always step P s es)
    (hrun : run step s es = some t) : P t := by
  induction es generalizing s with
  | nil =>
      have heq : s = t := by simpa [run] using hrun
      exact heq ▸ h
  | cons e es ih =>
      obtain ⟨u, hu, htail⟩ := run_cons_eq_some.mp hrun
      exact ih (h.2 u hu) htail

theorem exists_run_of_any {σ ε : Type*} {step : σ → ε → Option σ}
    {s : σ} {es : List ε} {p : σ → Bool}
    (h : (run step s es).any p = true) :
    ∃ t, run step s es = some t ∧ p t = true := by
  cases hrun : run step s es with
  | none => simp [hrun] at h
  | some t => exact ⟨t, rfl, by simpa [hrun] using h⟩

/-- A system seen through one of its components: an event either moves the
component by the event `label` names, or leaves it as it is. -/
structure Projection {σ ε τ φ : Type*} (step : σ → ε → Option σ)
    (component : τ → φ → Option τ) where
  state : σ → τ
  label : ε → Option φ
  stutter : ∀ s e t, label e = none → step s e = some t → state t = state s
  simulate : ∀ s e t f, label e = some f → step s e = some t →
    component (state s) f = some (state t)

theorem Projection.run {σ ε τ φ : Type*} {step : σ → ε → Option σ}
    {component : τ → φ → Option τ} (p : Projection step component)
    {s t : σ} {es : List ε} (hrun : TransitionSystem.run step s es = some t) :
    TransitionSystem.run component (p.state s) (es.filterMap p.label) =
      some (p.state t) := by
  induction es generalizing s with
  | nil =>
      have heq : s = t := by simpa [TransitionSystem.run] using hrun
      simp [TransitionSystem.run, heq]
  | cons e es ih =>
      obtain ⟨u, hu, htail⟩ := run_cons_eq_some.mp hrun
      cases hlabel : p.label e with
      | none =>
          rw [List.filterMap_cons_none hlabel, ← p.stutter s e u hlabel hu]
          exact ih htail
      | some f =>
          rw [List.filterMap_cons_some hlabel]
          exact run_cons_eq_some.mpr
            ⟨p.state u, p.simulate s e u f hlabel hu, ih htail⟩

theorem Projection.invariant {σ ε τ φ : Type*} {step : σ → ε → Option σ}
    {component : τ → φ → Option τ} (p : Projection step component)
    {Inv : τ → Prop} {C : τ → φ → Prop}
    (hcomponent : ∀ a f b, Inv a → C a f → component a f = some b → Inv b)
    (s : σ) (e : ε) (t : σ) (hs : Inv (p.state s))
    (hC : ∀ f, p.label e = some f → C (p.state s) f)
    (hstep : step s e = some t) : Inv (p.state t) := by
  cases hlabel : p.label e with
  | none => rwa [p.stutter s e t hlabel hstep]
  | some f =>
      exact hcomponent _ f _ hs (hC f hlabel) (p.simulate s e t f hlabel hstep)

end BikeMcu.TransitionSystem
