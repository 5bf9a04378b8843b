import BikeMcu.RunHistory

namespace BikeMcu.RunLedger

open BikeMcu.TransitionSystem
open BikeMcu.RunHistory

variable {σ ε τ φ α β : Type*}

/-- A component of a system: which of its own steps a step of the system makes, if
any, may depend on the state the system is in. -/
structure View (step : σ → ε → Option σ) (component : τ → φ → Option τ) where
  state : σ → τ
  label : σ × ε → Option φ
  simulate : ∀ s e t, step s e = some t →
    label (s, e) = none ∧ state t = state s ∨
      ∃ f, label (s, e) = some f ∧ component (state s) f = some (state t)

theorem flatMap_filterMap (f : ε → Option φ) (g : φ → List β) (es : List ε) :
    (es.filterMap f).flatMap g = es.flatMap fun e => (f e).elim [] g := by
  induction es with
  | nil => rfl
  | cons e es ih =>
      rw [List.flatMap_cons, ← ih]
      cases hf : f e with
      | none => rw [List.filterMap_cons_none hf, Option.elim_none, List.nil_append]
      | some x => rw [List.filterMap_cons_some hf, List.flatMap_cons, Option.elim_some]

theorem flatMap_events {step : σ → ε → Option σ} {s t : σ} {es : List ε} (f : ε → List β)
    (hrun : run step s es = some t) :
    (steps step s es).flatMap (fun x => f x.2) = es.flatMap f := by
  induction es generalizing s with
  | nil => rfl
  | cons e es ih =>
      obtain ⟨u, hu, htail⟩ := run_cons_eq_some.mp hrun
      rw [steps_cons hu, List.flatMap_cons, List.flatMap_cons, ih htail]

theorem step_of_mem_steps {step : σ → ε → Option σ} {s t : σ} {es : List ε} {x : σ × ε}
    (hrun : run step s es = some t) (hx : x ∈ steps step s es) :
    ∃ u, step x.1 x.2 = some u := by
  induction es generalizing s with
  | nil => cases hx
  | cons e es ih =>
      obtain ⟨u, hu, htail⟩ := run_cons_eq_some.mp hrun
      rw [steps_cons hu] at hx
      rcases List.mem_cons.mp hx with rfl | hx
      · exact ⟨u, hu⟩
      · exact ih htail hx

section View

variable {step : σ → ε → Option σ} {component : τ → φ → Option τ}

theorem View.run (v : View step component) {s t : σ} {es : List ε}
    (hrun : TransitionSystem.run step s es = some t) :
    TransitionSystem.run component (v.state s) ((steps step s es).filterMap v.label) =
      some (v.state t) := by
  induction es generalizing s with
  | nil =>
      have heq : s = t := by simpa [TransitionSystem.run] using hrun
      simp [TransitionSystem.run, steps, heq]
  | cons e es ih =>
      obtain ⟨u, hu, htail⟩ := run_cons_eq_some.mp hrun
      rw [steps_cons hu]
      rcases v.simulate s e u hu with ⟨hlabel, hstate⟩ | ⟨f, hlabel, hstep⟩
      · rw [List.filterMap_cons_none hlabel, ← hstate]
        exact ih htail
      · rw [List.filterMap_cons_some hlabel]
        exact run_cons_eq_some.mpr ⟨v.state u, hstep, ih htail⟩

theorem View.invariant (v : View step component) {Inv : τ → Prop}
    (h : ∀ a f b, Inv a → component a f = some b → Inv b) (s : σ) (e : ε) (t : σ)
    (hs : Inv (v.state s)) (hstep : step s e = some t) : Inv (v.state t) := by
  rcases v.simulate s e t hstep with ⟨-, hstate⟩ | ⟨f, -, hf⟩
  · exact hstate ▸ hs
  · exact h _ f _ hs hf

end View

/-- An account kept beside a system: what it takes in is done in the same order, and
`todo` is what is left at any moment. -/
structure Ledger (step : σ → ε → Option σ) (Inv : σ → Prop) (β : Type*) where
  taken : σ × ε → List β
  done : σ × ε → List β
  todo : σ → List β
  balance : ∀ s e t, Inv s → step s e = some t →
    todo s ++ taken (s, e) = done (s, e) ++ todo t

section Ledger

variable {step : σ → ε → Option σ} {Inv : σ → Prop}

/-- Over a run nothing is lost, done twice or done out of turn. -/
theorem Ledger.run (L : Ledger step Inv β)
    (hInv : ∀ s e t, Inv s → step s e = some t → Inv t) {s t : σ} {es : List ε}
    (hs : Inv s) (hrun : TransitionSystem.run step s es = some t) :
    L.todo s ++ (steps step s es).flatMap L.taken =
      (steps step s es).flatMap L.done ++ L.todo t := by
  induction es generalizing s with
  | nil =>
      have heq : s = t := by simpa [TransitionSystem.run] using hrun
      simp [steps, heq]
  | cons e es ih =>
      obtain ⟨u, hu, htail⟩ := run_cons_eq_some.mp hrun
      have hrest := ih (hInv s e u hs hu) htail
      rw [steps_cons hu, List.flatMap_cons, List.flatMap_cons, ← List.append_assoc,
        L.balance s e u hs hu, List.append_assoc, hrest, List.append_assoc]

/-- What the first account has done is what the second takes in. -/
def Ledger.comp (L M : Ledger step Inv β)
    (h : ∀ s e t, Inv s → step s e = some t → L.done (s, e) = M.taken (s, e)) :
    Ledger step Inv β where
  taken := L.taken
  done := M.done
  todo s := M.todo s ++ L.todo s
  balance s e t hs hstep := by
    rw [List.append_assoc, L.balance s e t hs hstep, h s e t hs hstep, ← List.append_assoc,
      M.balance s e t hs hstep, List.append_assoc]

def Ledger.flatMap (L : Ledger step Inv α) (f : α → List β) : Ledger step Inv β where
  taken x := (L.taken x).flatMap f
  done x := (L.done x).flatMap f
  todo s := (L.todo s).flatMap f
  balance s e t hs hstep := by
    rw [← List.flatMap_append, L.balance s e t hs hstep, List.flatMap_append]

/-- The account of a component, kept by the system. -/
def Ledger.pull {component : τ → φ → Option τ} {P : τ → Prop} (L : Ledger component P β)
    (v : View step component) : Ledger step (fun s => P (v.state s)) β where
  taken x := (v.label x).elim [] fun f => L.taken (v.state x.1, f)
  done x := (v.label x).elim [] fun f => L.done (v.state x.1, f)
  todo s := L.todo (v.state s)
  balance s e t hs hstep := by
    rcases v.simulate s e t hstep with ⟨hlabel, hstate⟩ | ⟨f, hlabel, hf⟩
    · simp [hlabel, hstate]
    · simpa [hlabel] using L.balance _ f _ hs hf

def Ledger.weaken {P : σ → Prop} (L : Ledger step P β) (h : ∀ s, Inv s → P s) :
    Ledger step Inv β where
  taken := L.taken
  done := L.done
  todo := L.todo
  balance s e t hs hstep := L.balance s e t (h s hs) hstep

end Ledger

end BikeMcu.RunLedger
