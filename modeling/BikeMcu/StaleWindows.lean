import BikeMcu.SensorPipeline

namespace BikeMcu.StaleWindows

open BikeMcu.TransitionSystem
open BikeMcu.BoundedQueue
open BikeMcu.FloatDetector (Arithmetic exists_detectBrake1 detectBrake1_eq_some)
open BikeMcu.SensorPipeline

/-- Samples in the order of their reads, at most eleven of them from before the
end of the latest hold. -/
structure Aged (l : List Sample) (reads : ℕ) (heldAt : Option ℕ) : Prop where
  ordered : l.Pairwise fun x y => x.readAt < y.readAt
  read : ∀ x ∈ l, x.readAt < reads
  few : ∀ h, heldAt = some h → h ≤ reads ∧ l.countP (fun x => x.readAt < h) ≤ 11

theorem Aged.sublist {l l' : List Sample} {reads : ℕ} {heldAt : Option ℕ}
    (h : Aged l reads heldAt) (hl : l'.Sublist l) : Aged l' reads heldAt where
  ordered := h.ordered.sublist hl
  read x hx := h.read x (hl.subset hx)
  few t ht := ⟨(h.few t ht).1, hl.countP_le.trans (h.few t ht).2⟩

theorem Aged.append_read {l : List Sample} {reads : ℕ} {heldAt : Option ℕ}
    (h : Aged l reads heldAt) {x : Sample} (hx : x.readAt = reads) :
    Aged (l ++ [x]) (reads + 1) heldAt where
  ordered := by
    refine List.pairwise_append.mpr ⟨h.ordered, List.pairwise_singleton _ _, ?_⟩
    intro y hy z hz
    rw [List.mem_singleton.mp hz, hx]
    exact h.read y hy
  read y hy := by
    rcases List.mem_append.mp hy with hold | hnew
    · exact Nat.lt_succ_of_lt (h.read y hold)
    · rw [List.mem_singleton.mp hnew, hx]
      exact Nat.lt_succ_self reads
  few t ht := by
    obtain ⟨hle, hcount⟩ := h.few t ht
    have hfresh : ¬ x.readAt < t := by omega
    refine ⟨by omega, ?_⟩
    rw [List.countP_append, List.countP_singleton]
    simpa [hfresh] using hcount

theorem Aged.hold {l : List Sample} {reads : ℕ} {heldAt : Option ℕ}
    (h : Aged l reads heldAt) (hlen : l.length ≤ 11) : Aged l reads (some reads) where
  ordered := h.ordered
  read := h.read
  few t ht := by
    cases ht
    exact ⟨le_rfl, List.countP_le_length.trans hlen⟩

theorem Aged.index_lt {l : List Sample} {reads t : ℕ} {heldAt : Option ℕ}
    (h : Aged l reads heldAt) (ht : heldAt = some t) {i : ℕ} {x : Sample}
    (hi : l[i]? = some x) (hx : x.readAt < t) : i < 11 := by
  obtain ⟨hlt, rfl⟩ := List.getElem?_eq_some_iff.mp hi
  have hall : ∀ y ∈ l.take (i + 1), y.readAt < t := by
    intro y hy
    obtain ⟨j, hj, rfl⟩ := List.mem_take_iff_getElem.mp hy
    have hji : j ≤ i := by omega
    rcases Nat.lt_or_eq_of_le hji with hlti | heq
    · exact Nat.lt_trans (List.pairwise_iff_getElem.mp h.ordered j i _ hlt hlti) hx
    · subst heq
      exact hx
  have hprefix : (l.take (i + 1)).countP (fun y => y.readAt < t) = i + 1 := by
    rw [List.countP_eq_length.mpr (by simpa using hall), List.length_take]
    omega
  have hfew := (h.few t ht).2
  have hmono := (List.take_sublist (i + 1) l).countP_le (p := fun y => decide (y.readAt < t))
  omega

def underway (s : Pipeline) : List Sample :=
  if s.poll = .publish ∨ s.poll = .offer then [s.current] else []

/-- The samples between the sensor and the detector's array, those already
stored since the latest hold first. -/
def line (s : Pipeline) : List Sample :=
  s.stored ++ s.processQueue.items ++ underway s

def StaleEarly (b : Brake) : Prop :=
  b.samples.length = 10 ∧ ∀ h, b.heldAt = some h → ∃ w, b.stored = 10 * (w + 1) ∧
    ∀ (j : ℕ) (x : Sample), b.samples[j]? = some x → x.readAt < h →
      w = 0 ∨ w = 1 ∧ j = 0

structure Staleness (s : Pipeline) : Prop where
  aged : Aged (line s) s.reads s.heldAt
  count : s.detector.count = s.stored.length % 10
  held : s.point ≠ .sampling → s.detector.count = 0
  brakes : ∀ b ∈ s.brakes, StaleEarly b

theorem staleness_init (a : Arithmetic) : Staleness (init a) where
  aged := ⟨List.Pairwise.nil, by simp [line, init, underway], by simp [init]⟩
  count := rfl
  held := by simp [init]
  brakes := by simp [init]

theorem length_underway_le (s : Pipeline) : (underway s).length ≤ 1 := by
  unfold underway
  split
  · exact le_rfl
  · exact Nat.zero_le 1

theorem staleEarly_of_aged {stored : List Sample} {reads : ℕ} {heldAt : Option ℕ}
    (h : Aged stored reads heldAt) (hlen : stored.length % 10 = 0) (hpos : 0 < stored.length) :
    StaleEarly { samples := stored.drop (stored.length - 10),
                 heldAt := heldAt, stored := stored.length } := by
  refine ⟨by simp only [List.length_drop]; omega, ?_⟩
  intro t ht
  refine ⟨stored.length / 10 - 1, by simp only; omega, ?_⟩
  intro j x hj hx
  rw [List.getElem?_drop] at hj
  have hindex := h.index_lt ht hj hx
  omega

theorem Staleness.receive {s s' : Pipeline} (h : Staleness s)
    (hstep : SensorPipeline.step s .receive = some s') : Staleness s' := by
  obtain ⟨hpoint, x, q, d, w, hq, hd, rfl⟩ := step_receive_eq_some hstep
  have hitems := receive_eq_some hq
  have haged : Aged (s.stored ++ [x] ++ q.items ++ underway s) s.reads s.heldAt := by
    have hline := h.aged
    unfold line at hline
    rw [hitems] at hline
    simpa using hline
  have hcount := h.count
  rcases detectBrake1_eq_some hd with ⟨hinvalid, rfl, rfl⟩ | ⟨hvalid, hroom, hnext, rfl⟩ |
    ⟨hvalid, hnine, hzero, -⟩
  · refine ⟨haged.sublist ?_, ?_, fun hp => absurd rfl hp, h.brakes⟩
    · simp [line, detected, hinvalid, underway, Pipeline.current]
    · simpa [detected, hinvalid] using hcount
  · refine ⟨?_, ?_, fun hp => absurd rfl hp, h.brakes⟩
    · simpa [line, detected, hvalid, underway, Pipeline.current] using haged
    · simp only [detected, hvalid, hnext, List.length_append, List.length_singleton,
        Bool.false_eq_true, if_false]
      omega
  · have hstored : Aged (s.stored ++ [x]) s.reads s.heldAt :=
      haged.sublist ((List.sublist_append_left _ _).trans (List.sublist_append_left _ _))
    have hlen : (s.stored ++ [x]).length % 10 = 0 := by
      rw [List.length_append, List.length_singleton]
      omega
    refine ⟨?_, ?_, fun _ => hzero, ?_⟩
    · simpa [line, detected, hvalid, underway, Pipeline.current] using haged
    · simpa [detected, hvalid, hzero] using hlen.symm
    · intro b hb
      simp only [detected, hvalid, Bool.false_eq_true, if_false] at hb
      split at hb
      · rcases List.mem_append.mp hb with hold | hnew
        · exact h.brakes b hold
        · rw [List.mem_singleton.mp hnew]
          exact staleEarly_of_aged hstored hlen (by simp)
      · exact h.brakes b hb

theorem Staleness.step {s s' : Pipeline} {e : PipelineEvent} (h : Staleness s)
    (hstep : SensorPipeline.step s e = some s') : Staleness s' := by
  cases e with
  | receive => exact h.receive hstep
  | isr now =>
      cases Option.some.inj hstep
      unfold gpioHandshakeIsrHandler
      split
      · exact h
      · exact ⟨h.aged, h.count, h.held, h.brakes⟩
  | upload =>
      obtain ⟨x, q, -, rfl⟩ := step_upload_eq_some hstep
      exact ⟨h.aged, h.count, h.held, h.brakes⟩
  | give | take | timeout | readGyro | advance =>
      obtain ⟨hp, rfl⟩ := guarded_eq_some.mp hstep
      have hline : line s = s.stored ++ s.processQueue.items ++ [] := by
        simp [line, underway, hp]
      refine ⟨?_, h.count, h.held, h.brakes⟩
      have haged := h.aged
      rw [hline] at haged
      simpa [line, underway, readGyro] using haged
  | readAccel rx =>
      obtain ⟨hp, rfl⟩ := guarded_eq_some.mp hstep
      have haged := h.aged
      simp only [line, underway, hp] at haged
      refine ⟨?_, h.count, h.held, h.brakes⟩
      have hnew := haged.append_read (x := (readAccel rx s).current) rfl
      simpa [line, underway, readAccel] using hnew
  | publish =>
      obtain ⟨hp, rfl⟩ := guarded_eq_some.mp hstep
      refine ⟨?_, h.count, h.held, h.brakes⟩
      have haged := h.aged
      simp only [line, underway, hp] at haged
      simpa [line, underway, publish, Pipeline.current] using haged
  | offer =>
      obtain ⟨hp, rfl⟩ := guarded_eq_some.mp hstep
      refine ⟨h.aged.sublist ?_, h.count, h.held, h.brakes⟩
      by_cases hroom : s.processQueue.items.length < 10
      · simp [line, underway, offer, hp, items_send_of_lt _ hroom]
      · simp [line, underway, offer, hp, send_of_full _ hroom]
  | signalled =>
      obtain ⟨hp, rfl⟩ := guarded_eq_some.mp hstep
      exact ⟨h.aged, h.count, fun _ => h.held (by simp [hp]), h.brakes⟩
  | wake =>
      obtain ⟨hp, rfl⟩ := guarded_eq_some.mp hstep
      have hzero := h.held (by simp [hp])
      have hsub : (s.processQueue.items ++ underway s).Sublist (line s) := by
        rw [line, List.append_assoc]
        exact List.sublist_append_right _ _
      have hlen : (s.processQueue.items ++ underway s).length ≤ 11 := by
        have hqueue := s.processQueue.bounded
        have hone := length_underway_le s
        rw [List.length_append]
        omega
      exact ⟨(h.aged.sublist hsub).hold hlen, hzero, fun _ => hzero, h.brakes⟩
  | restored =>
      obtain ⟨hp, rfl⟩ := guarded_eq_some.mp hstep
      exact ⟨h.aged, h.count, by simp, h.brakes⟩

theorem staleness_of_run {a : Arithmetic} {es : List PipelineEvent} {s : Pipeline}
    (hrun : run SensorPipeline.step (init a) es = some s) : Staleness s :=
  invariant_of_run (fun _ _ _ h hs => Staleness.step h hs) (staleness_init a) hrun

/-- Outside a hold the detector takes any sample that waits for it. -/
theorem receives_of_run {a : Arithmetic} {es : List PipelineEvent} {s : Pipeline}
    (hrun : run SensorPipeline.step (init a) es = some s) (hpoint : s.point = .sampling)
    (hitems : s.processQueue.items ≠ []) :
    ∃ s', SensorPipeline.step s .receive = some s' := by
  have hcount : s.detector.count < 10 := by
    rw [(staleness_of_run hrun).count]
    omega
  obtain ⟨x, q, hq⟩ := exists_receive hitems
  obtain ⟨r, hr⟩ := exists_detectBrake1 s.arithmetic.round s.arithmetic.contraction x.data.ax hcount
  exact ⟨detected x q r.1 r.2 s, by simp [SensorPipeline.step, hpoint, hq, hr]⟩

/-- When a brake follows an earlier hold, a sample of its window that was read
before that hold ended is in the first window after the hold, or is the first
sample of the second one. -/
theorem stale_brakes_early (a : Arithmetic) (es : List PipelineEvent) (s : Pipeline)
    (hrun : run SensorPipeline.step (init a) es = some s) (b : Brake) (hb : b ∈ s.brakes) :
    b.samples.length = 10 ∧ ∀ h, b.heldAt = some h → ∃ w, b.stored = 10 * (w + 1) ∧
      ∀ (j : ℕ) (x : Sample), b.samples[j]? = some x → x.readAt < h →
        w = 0 ∨ w = 1 ∧ j = 0 :=
  (staleness_of_run hrun).brakes b hb

def samples (n : ℕ) (gyro accel : SpiResult 6) : List PipelineEvent :=
  (List.replicate n (iteration (.timeout none) gyro accel)).flatten

def brakeAndHold (hold : List PipelineEvent) : List PipelineEvent :=
  .give :: iteration .take (reading 0 0) (reading 0 0xC0) ++
    samples 9 (reading 0 0) (reading 0 0xC0) ++ List.replicate 10 .receive ++
    [.signalled] ++ hold ++ [.wake, .restored]

def brakeOnOldSamples : List PipelineEvent :=
  brakeAndHold (samples 10 (reading 0 0) (reading 0 0xC0)) ++ List.replicate 10 .receive

/-- The rider lets go, the eleventh sample of the hold waits for room in the
queue until the hold is over, and then the rider brakes again. -/
def brakeOnOneOldSample : List PipelineEvent :=
  brakeAndHold (samples 10 (reading 0 0) (reading 0 0) ++
      (iteration (.timeout none) (reading 0 0) (reading 0 0)).take 4) ++
    [.receive, .offer, .advance] ++ List.replicate 9 .receive ++
    samples 9 (reading 0 0) (reading 0 0xC0) ++ List.replicate 10 .receive

theorem stale_brakes_early_after_long_brake :
    ∃ s b, run SensorPipeline.step (init .exact) brakeOnOldSamples = some s ∧ b ∈ s.brakes ∧
      b.samples.length = 10 ∧ ∃ w, b.stored = 10 * (w + 1) ∧
        ∀ (j : ℕ) (x : Sample), b.samples[j]? = some x → x.readAt < 20 →
          w = 0 ∨ w = 1 ∧ j = 0 := by
  obtain ⟨s, hrun, hs⟩ := exists_run_of_any
    (show (run SensorPipeline.step (init .exact) brakeOnOldSamples).any
      (fun s => decide (∃ b ∈ s.brakes, b.heldAt = some 20)) = true by decide +kernel)
  obtain ⟨b, hb, hheld⟩ := of_decide_eq_true hs
  have hearly := stale_brakes_early .exact brakeOnOldSamples s hrun b hb
  exact ⟨s, b, hrun, hb, hearly.1, hearly.2 20 hheld⟩

/-- A window full of old samples brakes right after a hold, and a single old
sample reaches even the second window. -/
theorem brake_on_stale_samples :
    (¬ ∀ (es : List PipelineEvent) (s : Pipeline),
      run SensorPipeline.step (init .exact) es = some s → ∀ b ∈ s.brakes,
        ∀ h, b.heldAt = some h → ∀ x ∈ b.samples, h ≤ x.readAt) ∧
    ¬ ∀ (es : List PipelineEvent) (s : Pipeline),
      run SensorPipeline.step (init .exact) es = some s → ∀ b ∈ s.brakes, 10 < b.stored →
        ∀ h, b.heldAt = some h → ∀ x ∈ b.samples, h ≤ x.readAt := by
  constructor
  · intro hfresh
    obtain ⟨s, hrun, hs⟩ := exists_run_of_any
      (show (run SensorPipeline.step (init .exact) brakeOnOldSamples).any
        (fun s => decide (∃ b ∈ s.brakes, b.heldAt = some 20 ∧
          ∃ x ∈ b.samples, x.readAt = 10)) = true by decide +kernel)
    obtain ⟨b, hb, hheld, x, hx, hold⟩ := of_decide_eq_true hs
    have hread := hfresh _ s hrun b hb 20 hheld x hx
    omega
  · intro hfresh
    obtain ⟨s, hrun, hs⟩ := exists_run_of_any
      (show (run SensorPipeline.step (init .exact) brakeOnOneOldSample).any
        (fun s => decide (∃ b ∈ s.brakes, b.heldAt = some 21 ∧ 10 < b.stored ∧
          ∃ x ∈ b.samples, x.readAt = 20)) = true by decide +kernel)
    obtain ⟨b, hb, hheld, hsecond, x, hx, hold⟩ := of_decide_eq_true hs
    have hread := hfresh _ s hrun b hb hsecond 21 hheld x hx
    omega

end BikeMcu.StaleWindows
