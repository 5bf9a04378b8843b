import BikeMcu.Debounce
import BikeMcu.DataReady

namespace BikeMcu.InterruptDebounce

open BikeMcu.TransitionSystem
open BikeMcu.RunHistory
open BikeMcu.Debounce
open BikeMcu.FloatDetector (Arithmetic)
open BikeMcu.SensorPipeline
open BikeMcu.DataReady

/-- `esp_timer_get_time()` as the handler stores it. -/
def currtimeUs (t : Int64) : UInt32 :=
  t.toUInt64.toUInt32

/-- The handler leaves a semaphore full that was empty before. -/
def gives (now : UInt32) (s : Pipeline) : Bool :=
  (gpioHandshakeIsrHandler now { s with rdySem := false }).rdySem

def given : Pipeline × PipelineEvent → Option Bool
  | (s, .isr now) => some (gives now s)
  | _ => none

def interruptTime : PipelineEvent → Option UInt32
  | .isr now => some now
  | _ => none

def tooClose32 (last now : UInt32) : Bool :=
  decide (now - last < 1000)

/-- The ideal debouncer's test, on the times themselves. -/
def tooClose (last t : Int64) : Bool :=
  decide (t.toInt - last.toInt < 1000)

/-- The times do not decrease, and no gap is longer than 2^32 - 1000 us. -/
def Follows (p t : Int64) : Prop :=
  p ≤ t ∧ t.toInt - p.toInt ≤ 2 ^ 32 - 1000

instance (p t : Int64) : Decidable (Follows p t) :=
  inferInstanceAs (Decidable (_ ∧ _))

def InReach (last t : Int64) : Prop :=
  last ≤ t ∧ t.toInt - last.toInt < 2 ^ 32

theorem gives_eq (now : UInt32) (s : Pipeline) :
    gives now s = !tooClose32 s.lasthandshaketimeUs now := by
  cases hclose : tooClose32 s.lasthandshaketimeUs now with
  | true =>
      have h : now - s.lasthandshaketimeUs < 1000 := of_decide_eq_true hclose
      simp [gives, gpioHandshakeIsrHandler, h]
  | false =>
      have h : ¬ now - s.lasthandshaketimeUs < 1000 := of_decide_eq_false hclose
      simp [gives, gpioHandshakeIsrHandler, h]

theorem lasthandshaketimeUs_isr (now : UInt32) (s : Pipeline) :
    (gpioHandshakeIsrHandler now s).lasthandshaketimeUs =
      if tooClose32 s.lasthandshaketimeUs now then s.lasthandshaketimeUs else now := by
  by_cases h : now - s.lasthandshaketimeUs < 1000 <;>
    simp [gpioHandshakeIsrHandler, tooClose32, h]

/-- No other party writes the handler's static variable. -/
theorem lasthandshaketimeUs_step {s t : Pipeline} {e : PipelineEvent}
    (h : SensorPipeline.step s e = some t) (he : interruptTime e = none) :
    t.lasthandshaketimeUs = s.lasthandshaketimeUs := by
  cases e with
  | isr now => cases he
  | receive =>
      obtain ⟨-, x, q, d, w, -, -, rfl⟩ := step_receive_eq_some h
      rfl
  | upload =>
      obtain ⟨x, q, -, rfl⟩ := step_upload_eq_some h
      rfl
  | _ =>
      obtain ⟨-, rfl⟩ := guarded_eq_some.mp h
      rfl

theorem given_eq_debounce {s t : Pipeline} {es : List PipelineEvent}
    (hrun : run SensorPipeline.step s es = some t) :
    (steps SensorPipeline.step s es).filterMap given =
      debounce tooClose32 s.lasthandshaketimeUs (es.filterMap interruptTime) := by
  induction es generalizing s with
  | nil => rfl
  | cons e es ih =>
      obtain ⟨u, hu, htail⟩ := run_cons_eq_some.mp hrun
      rw [steps_cons hu]
      cases e with
      | isr now =>
          obtain rfl := Option.some.inj hu
          have hrest := ih htail
          rw [lasthandshaketimeUs_isr] at hrest
          change gives now s :: _ = debounce _ _ (now :: _)
          rw [hrest, gives_eq, debounce]
          cases tooClose32 s.lasthandshaketimeUs now <;> rfl
      | _ =>
          rw [List.filterMap_cons_none rfl, List.filterMap_cons_none rfl, ih htail,
            lasthandshaketimeUs_step hu rfl]

theorem toNat_currtimeUs (t : Int64) : ((currtimeUs t).toNat : ℤ) = t.toInt % 2 ^ 32 := by
  have hlt := t.toUInt64.toNat_lt
  have hcast : t.toInt =
      if 2 * t.toUInt64.toNat < 2 ^ 64 then (t.toUInt64.toNat : ℤ)
      else (t.toUInt64.toNat : ℤ) - (2 ^ 64 : ℕ) := BitVec.toInt_eq_toNat_cond t.toBitVec
  rw [currtimeUs, UInt64.toNat_toUInt32, hcast]
  push_cast
  split <;> omega

/-- Within reach the wrap-around subtraction gives the true difference. -/
theorem tooClose32_currtimeUs {last t : Int64} (h : InReach last t) :
    tooClose32 (currtimeUs last) (currtimeUs t) = tooClose last t := by
  obtain ⟨hle, hreach⟩ := h
  have hlast := toNat_currtimeUs last
  have ht := toNat_currtimeUs t
  have hle' := Int64.le_iff_toInt_le.mp hle
  have hdiff : ((currtimeUs t - currtimeUs last).toNat : ℤ) = t.toInt - last.toInt := by
    rw [UInt32.toNat_sub]
    omega
  apply decide_eq_decide.mpr
  rw [UInt32.lt_iff_toNat_lt, ← hdiff]
  exact Int.ofNat_lt.symm

theorem inReach_of_follows {p t : Int64} (h : Follows p t) : InReach p t :=
  ⟨h.1, by have hgap := h.2; omega⟩

/-- What was turned away came less than 1000 us after the last accepted interrupt,
so the next one is still less than a full turn of the 32-bit clock away from it. -/
theorem inReach_of_tooClose {last t u : Int64} (h : InReach last t)
    (hclose : tooClose last t = true) (hu : Follows t u) : InReach last u := by
  have hnear : t.toInt - last.toInt < 1000 := of_decide_eq_true hclose
  have hgap := hu.2
  exact ⟨Int64.le_trans h.1 hu.1, by omega⟩

/-- In every run, whatever the other parties do between the interrupts, the handler
gives the semaphore for exactly those interrupts that the ideal debouncer accepts. -/
theorem debouncer_exact_across_wrap (a : Arithmetic) (times : List Int64)
    (hgaps : (0 :: times).IsChain Follows) (es : List PipelineEvent) (s : Pipeline)
    (hrun : run SensorPipeline.step (init a) es = some s)
    (htimes : es.filterMap interruptTime = times.map currtimeUs) :
    (steps SensorPipeline.step (init a) es).filterMap given = debounce tooClose 0 times := by
  have hstart : (init a).lasthandshaketimeUs = currtimeUs 0 := rfl
  rw [given_eq_debounce hrun, htimes, hstart]
  exact debounce_map (fun _ _ h => tooClose32_currtimeUs h) (fun _ _ h => inReach_of_follows h)
    (fun _ _ _ h hclose hu => inReach_of_tooClose h hclose hu) hgaps

/-- Four interrupts around the first wrap of the 32-bit clock. -/
theorem debouncer_exact_across_wrap_at_turn :
    (steps SensorPipeline.step (init .exact)
      ([4294966296, 4294966796, 4294967396, 4294968395].map fun t : Int64 =>
        PipelineEvent.isr (currtimeUs t))).filterMap given = [true, false, true, false] := by
  have hexact := debouncer_exact_across_wrap .exact
    [4294966296, 4294966796, 4294967396, 4294968395] (by decide)
    ([4294966296, 4294966796, 4294967396, 4294968395].map fun t : Int64 =>
      PipelineEvent.isr (currtimeUs t)) _ rfl rfl
  rw [hexact]
  decide

end BikeMcu.InterruptDebounce
