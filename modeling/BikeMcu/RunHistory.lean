import BikeMcu.TransitionSystem

namespace BikeMcu.RunHistory

open BikeMcu.TransitionSystem

/-- The steps of a run, each with the state it was taken in. -/
def steps {σ ε : Type*} (step : σ → ε → Option σ) : σ → List ε → List (σ × ε)
  | _, [] => []
  | s, e :: es => (s, e) :: (step s e).elim [] fun t => steps step t es

theorem steps_cons {σ ε : Type*} {step : σ → ε → Option σ} {s t : σ} {e : ε}
    (h : step s e = some t) (es : List ε) :
    steps step s (e :: es) = (s, e) :: steps step t es := by
  simp [steps, h]

theorem event_mem_of_mem_steps {σ ε : Type*} {step : σ → ε → Option σ} {s : σ}
    {es : List ε} {x : σ × ε} (hx : x ∈ steps step s es) : x.2 ∈ es := by
  induction es generalizing s with
  | nil => cases hx
  | cons e es ih =>
      rcases List.mem_cons.mp hx with rfl | hx
      · exact List.mem_cons_self
      · cases hs : step s e with
        | none =>
            rw [hs] at hx
            cases hx
        | some t =>
            rw [hs] at hx
            exact List.mem_cons_of_mem e (ih hx)

/-- What every step preserves, with the history it extends, holds of a run and
its whole history. -/
theorem history_of_run {σ ε : Type*} {step : σ → ε → Option σ}
    {Inv : List (σ × ε) → σ → Prop}
    (hstep : ∀ h s e t, Inv h s → step s e = some t → Inv (h ++ [(s, e)]) t)
    {h : List (σ × ε)} {s t : σ} {es : List ε} (hs : Inv h s)
    (hrun : run step s es = some t) : Inv (h ++ steps step s es) t := by
  induction es generalizing h s with
  | nil =>
      have heq : s = t := by simpa [run] using hrun
      rw [steps, List.append_nil]
      exact heq ▸ hs
  | cons e es ih =>
      obtain ⟨u, hu, htail⟩ := run_cons_eq_some.mp hrun
      rw [steps_cons hu, List.append_cons]
      exact ih (hstep h s e u hs hu) htail

/-- The same with the events alone. -/
theorem trace_of_run {σ ε : Type*} {step : σ → ε → Option σ} {Inv : List ε → σ → Prop}
    (hstep : ∀ h s e t, Inv h s → step s e = some t → Inv (h ++ [e]) t)
    {h : List ε} {s t : σ} {es : List ε} (hs : Inv h s) (hrun : run step s es = some t) :
    Inv (h ++ es) t := by
  induction es generalizing h s with
  | nil =>
      obtain rfl : s = t := by simpa [run] using hrun
      rwa [List.append_nil]
  | cons e es ih =>
      obtain ⟨u, hu, htail⟩ := run_cons_eq_some.mp hrun
      rw [List.append_cons]
      exact ih (hstep h s e u hs hu) htail

/-- Amortised counting: when the credit of a state pays for every step that `p`
counts, and only the steps that `q` or `r` counts raise it, a run takes at most as
many steps of the first kind as its initial credit and those of the other two. -/
theorem countP_le_of_credit {σ ε : Type*} {step : σ → ε → Option σ}
    {s t : σ} {es : List ε} (hrun : run step s es = some t)
    {credit : σ → ℕ} {p q r : σ × ε → Bool}
    (hcredit : ∀ s e t, step s e = some t →
      credit t + (p (s, e)).toNat ≤ credit s + (q (s, e)).toNat + (r (s, e)).toNat) :
    credit t + (steps step s es).countP p ≤
      credit s + (steps step s es).countP q + (steps step s es).countP r := by
  have hcount : ∀ (c : σ × ε → Bool) x h,
      (x :: h).countP c = (c x).toNat + h.countP c := by
    intro c x h
    cases hx : c x <;> simp [hx, Nat.add_comm]
  induction es generalizing s with
  | nil =>
      have heq : s = t := by simpa [run] using hrun
      simp [steps, heq]
  | cons e es ih =>
      obtain ⟨u, hu, htail⟩ := run_cons_eq_some.mp hrun
      have hnext := hcredit s e u hu
      have htotal := ih htail
      rw [steps_cons hu, hcount p, hcount q, hcount r]
      omega

/-- The rule of the latch: steps with `p` set it, nothing but a step with `q` releases
it, and while it is set there is no step with `p`. So between two steps with `p` there
is one with `q`. -/
theorem exists_between_of_latch {σ ε : Type*} {step : σ → ε → Option σ}
    {Latched : σ → Prop} {p q : σ × ε → Prop}
    (hset : ∀ s e t, p (s, e) → step s e = some t → Latched t)
    (hhold : ∀ s e t, Latched s → step s e = some t → Latched t ∨ q (s, e))
    (hblock : ∀ s e, Latched s → ¬ p (s, e))
    {s : σ} {es : List ε} {pre mid post : List (σ × ε)} {x y : σ × ε}
    (h : steps step s es = pre ++ x :: (mid ++ y :: post)) (hx : p x) (hy : p y) :
    ∃ z ∈ mid, q z := by
  have hlatched : ∀ (es : List ε) (s : σ) (mid : List (σ × ε)), Latched s →
      steps step s es = mid ++ y :: post → ∃ z ∈ mid, q z := by
    intro es
    induction es with
    | nil =>
        intro s mid _ hsteps
        cases mid <;> cases hsteps
    | cons e es ih =>
        intro s mid hs hsteps
        cases mid with
        | nil =>
            obtain ⟨rfl, -⟩ := List.cons.inj hsteps
            exact absurd hy (hblock s e hs)
        | cons z mid =>
            obtain ⟨rfl, htail⟩ := List.cons.inj hsteps
            cases ht : step s e with
            | none =>
                rw [ht] at htail
                cases mid <;> cases htail
            | some t =>
                rw [ht] at htail
                rcases hhold s e t hs ht with hnext | hq
                · obtain ⟨w, hw, hqw⟩ := ih t mid hnext htail
                  exact ⟨w, List.mem_cons_of_mem _ hw, hqw⟩
                · exact ⟨(s, e), List.mem_cons_self, hq⟩
  induction es generalizing s pre with
  | nil => cases pre <;> cases h
  | cons e es ih =>
      cases ht : step s e with
      | none =>
          rw [steps, ht] at h
          cases pre with
          | nil =>
              obtain ⟨-, htail⟩ := List.cons.inj h
              cases mid <;> cases htail
          | cons z pre =>
              obtain ⟨-, htail⟩ := List.cons.inj h
              cases pre <;> cases htail
      | some t =>
          rw [steps_cons ht] at h
          cases pre with
          | nil =>
              obtain ⟨rfl, htail⟩ := List.cons.inj h
              exact hlatched es t mid (hset s e t hx ht) htail
          | cons z pre => exact ih (List.cons.inj h).2

/-- A run that ends outside a set it starts in takes a step that leaves it. -/
theorem exists_leaving_step {σ ε : Type*} {step : σ → ε → Option σ} {P : σ → Prop}
    {s t : σ} {es : List ε} (hs : P s) (hrun : run step s es = some t) (ht : ¬ P t) :
    ∃ pre e post u v, es = pre ++ e :: post ∧ run step s pre = some u ∧ P u ∧
      step u e = some v ∧ ¬ P v ∧ run step v post = some t := by
  induction es generalizing s with
  | nil =>
      have heq : s = t := by simpa [run] using hrun
      exact absurd (heq ▸ hs) ht
  | cons e es ih =>
      obtain ⟨u, hu, htail⟩ := run_cons_eq_some.mp hrun
      by_cases hPu : P u
      · obtain ⟨pre, f, post, v, w, rfl, hpre, hv, hstep, hw, hpost⟩ := ih hPu htail
        exact ⟨e :: pre, f, post, v, w, rfl, run_cons_eq_some.mpr ⟨u, hu, hpre⟩, hv,
          hstep, hw, hpost⟩
      · exact ⟨[], e, es, s, u, rfl, rfl, hs, hu, hPu, htail⟩

/-- The rule of stuttering: when the idle events are always possible, emit nothing and
keep related states related, and the other events are simulated with the same output, a
run of the other events alone is one with any idle events in between. -/
theorem exists_run_of_stutter {σ ε α : Type*} {step : σ → ε → Option σ}
    {R : σ → σ → Prop} {idle : ε → Bool} {out : σ × ε → List α} {es : List ε}
    (hidle : ∀ s s' e, R s s' → idle e = true →
      ∃ t, step s e = some t ∧ R t s' ∧ out (s, e) = [])
    (hstep : ∀ s s' e t', e ∈ es → R s s' → idle e = false → step s' e = some t' →
      ∃ t, step s e = some t ∧ R t t' ∧ out (s, e) = out (s', e))
    {s s' t' : σ} (hR : R s s')
    (hrun : run step s' (es.filter fun e => !idle e) = some t') :
    ∃ t, run step s es = some t ∧ R t t' ∧
      (steps step s es).flatMap out =
        (steps step s' (es.filter fun e => !idle e)).flatMap out := by
  induction es generalizing s s' with
  | nil =>
      obtain rfl : s' = t' := by simpa [run] using hrun
      exact ⟨s, rfl, hR, rfl⟩
  | cons e es ih =>
      have htail := fun s s' f t' hf => hstep s s' f t' (List.mem_cons_of_mem e hf)
      cases he : idle e with
      | true =>
          rw [List.filter_cons_of_neg (by simp [he])] at hrun ⊢
          obtain ⟨u, hu, hRu, hout⟩ := hidle s s' e hR he
          obtain ⟨t, hrest, hRt, houts⟩ := ih htail hRu hrun
          refine ⟨t, run_cons_eq_some.mpr ⟨u, hu, hrest⟩, hRt, ?_⟩
          rw [steps_cons hu, List.flatMap_cons, hout, houts, List.nil_append]
      | false =>
          rw [List.filter_cons_of_pos (by simp [he])] at hrun ⊢
          obtain ⟨u', hu', hrest'⟩ := run_cons_eq_some.mp hrun
          obtain ⟨u, hu, hRu, hout⟩ := hstep s s' e u' List.mem_cons_self hR he hu'
          obtain ⟨t, hrest, hRt, houts⟩ := ih htail hRu hrest'
          refine ⟨t, run_cons_eq_some.mpr ⟨u, hu, hrest⟩, hRt, ?_⟩
          rw [steps_cons hu, steps_cons hu', List.flatMap_cons, List.flatMap_cons, hout,
            houts]

end BikeMcu.RunHistory
