import Mathlib.Data.List.Chain

namespace BikeMcu.Debounce

/-- For each event whether it passes. `last` is the last one that did. -/
def debounce {τ : Type*} (tooClose : τ → τ → Bool) : τ → List τ → List Bool
  | _, [] => []
  | last, t :: ts =>
      if tooClose last t then false :: debounce tooClose last ts
      else true :: debounce tooClose t ts

/-- A debouncer that sees the events through `f` decides alike, if it does so within
`InReach` and no event gets out of reach of the last one that passed. -/
theorem debounce_map {τ υ : Type*} {tooClose : τ → τ → Bool} {tooClose' : υ → υ → Bool}
    {f : τ → υ} {InReach Follows : τ → τ → Prop}
    (hagree : ∀ last t, InReach last t → tooClose' (f last) (f t) = tooClose last t)
    (hpassed : ∀ t u, Follows t u → InReach t u)
    (hheld : ∀ last t u, InReach last t → tooClose last t = true → Follows t u →
      InReach last u)
    {start : τ} {ts : List τ} (hts : (start :: ts).IsChain Follows) :
    debounce tooClose' (f start) (ts.map f) = debounce tooClose start ts := by
  have hrun : ∀ (last p : τ), (∀ u, Follows p u → InReach last u) →
      (p :: ts).IsChain Follows →
        debounce tooClose' (f last) (ts.map f) = debounce tooClose last ts := by
    clear hts
    induction ts with
    | nil => exact fun _ _ _ _ => rfl
    | cons t ts ih =>
        intro last p hreach hchain
        rw [List.isChain_cons_cons] at hchain
        have ht := hreach t hchain.1
        rw [List.map_cons, debounce, debounce, hagree last t ht]
        cases hclose : tooClose last t with
        | true =>
            rw [if_pos rfl, if_pos rfl,
              ih last t (fun u hu => hheld last t u ht hclose hu) hchain.2]
        | false =>
            rw [if_neg Bool.false_ne_true, if_neg Bool.false_ne_true,
              ih t t (fun u hu => hpassed t u hu) hchain.2]
  exact hrun start start (fun u hu => hpassed start u hu) hts

end BikeMcu.Debounce
