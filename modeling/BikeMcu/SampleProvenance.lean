import BikeMcu.SensorFanOut

namespace BikeMcu.SampleProvenance

open BikeMcu.TransitionSystem
open BikeMcu.BmiData
open BikeMcu.FloatDetector (Arithmetic)
open BikeMcu.SensorPipeline
open BikeMcu.SensorFanOut

def readout (rx : Vector UInt8 7) : Int16 × Int16 × Int16 :=
  (int16 rx[1] rx[2], int16 rx[3] rx[4], int16 rx[5] rx[6])

section Decoding

variable (a : Arithmetic)

def GyroFrom (gyro : Int16 × Int16 × Int16) (d : Bmi160Data) : Prop :=
  d.gx = degrees a gyro.1 ∧ d.gy = degrees a gyro.2.1 ∧ d.gz = degrees a gyro.2.2

def AccelFrom (accel : Int16 × Int16 × Int16) (d : Bmi160Data) : Prop :=
  d.ax = gravity a accel.1 ∧ d.ay = gravity a accel.2.1 ∧ d.az = gravity a accel.2.2

def transfersOf (gyro accel : SpiResult 6) : Transfers :=
  [(gyroRegister ||| 0x80, gyro), (accelRegister ||| 0x80, accel)]

/-- Both reads of the sample's iteration succeeded, and its fields are decoded
from what they returned. -/
def Genuine (x : Sample) : Prop :=
  ∃ gyro accel : Vector UInt8 7, x.transfers = transfersOf (some gyro) (some accel) ∧
    GyroFrom a (readout gyro) x.data ∧ AccelFrom a (readout accel) x.data

end Decoding

def AllGenuine (s : Pipeline) : Prop :=
  (∀ x ∈ s.produced, Genuine s.arithmetic x) ∧ ∀ o ∈ s.offers, Genuine s.arithmetic o.1

def readsSucceeded (s : Pipeline) (e : PipelineEvent) : Bool :=
  match e with
  | .publish => s.transfers.all fun t => t.2.isSome
  | _ => true

theorem axes_bmi160ReadReg (buf : Vector UInt8 12) (rx : Vector UInt8 7) :
    axes (bmi160ReadReg buf (some rx)) = readout rx := by
  simp [axes, bmi160ReadReg, readout]

/-- What the scratch variables hold, by program point: a successful read is
decoded from its own bytes. -/
def Decoded (s : Pipeline) : Prop :=
  match s.poll with
  | .readAccel =>
      ∃ gyro : SpiResult 6, s.transfers = [(gyroRegister ||| 0x80, gyro)] ∧
        ∀ g, gyro = some g → s.gyro = readout g
  | .publish | .offer =>
      ∃ gyro accel : SpiResult 6, s.transfers = transfersOf gyro accel ∧
        (∀ g, gyro = some g → GyroFrom s.arithmetic (readout g) s.data) ∧
        ∀ a, accel = some a → AccelFrom s.arithmetic (readout a) s.data
  | _ => True

theorem Decoded.step {s s' : Pipeline} {e : PipelineEvent} (h : Decoded s)
    (hstep : SensorPipeline.step s e = some s') : Decoded s' := by
  cases e with
  | give | take | timeout | offer | advance =>
      obtain ⟨-, rfl⟩ := guarded_eq_some.mp hstep
      trivial
  | signalled | wake | restored =>
      obtain ⟨-, rfl⟩ := guarded_eq_some.mp hstep
      exact h
  | isr now =>
      cases Option.some.inj hstep
      unfold gpioHandshakeIsrHandler
      split
      · exact h
      · exact h
  | readGyro scratch rx =>
      obtain ⟨-, rfl⟩ := guarded_eq_some.mp hstep
      refine ⟨rx, rfl, ?_⟩
      rintro g rfl
      exact axes_bmi160ReadReg scratch g
  | readAccel rx =>
      obtain ⟨hp, rfl⟩ := guarded_eq_some.mp hstep
      simp only [Decoded, hp] at h
      obtain ⟨gyro, htransfers, hgyro⟩ := h
      refine ⟨gyro, rx, ?_, ?_, ?_⟩
      · simp [readAccel, htransfers, transfersOf]
      · intro g hg
        simp [readAccel, GyroFrom, hgyro g hg]
      · rintro a rfl
        simp [readAccel, AccelFrom, axes_bmi160ReadReg]
  | publish =>
      obtain ⟨hp, rfl⟩ := guarded_eq_some.mp hstep
      simp only [Decoded, hp] at h
      exact h
  | receive =>
      obtain ⟨-, x, q, d, w, -, -, rfl⟩ := step_receive_eq_some hstep
      exact h
  | upload =>
      obtain ⟨x, q, -, rfl⟩ := step_upload_eq_some hstep
      exact h

theorem genuine_current_iff {s : Pipeline} (h : Decoded s) (hp : s.poll = .publish) :
    Genuine s.arithmetic s.current ↔ (s.transfers.all fun t => t.2.isSome) = true := by
  simp only [Decoded, hp] at h
  obtain ⟨gyro, accel, htransfers, hgyro, haccel⟩ := h
  constructor
  · rintro ⟨g, a, hreads, -, -⟩
    have hsome : s.transfers = transfersOf (some g) (some a) := hreads
    simp [hsome, transfersOf]
  · intro hall
    cases gyro with
    | none => simp [htransfers, transfersOf] at hall
    | some g =>
        cases accel with
        | none => simp [htransfers, transfersOf] at hall
        | some a => exact ⟨g, a, htransfers, hgyro g rfl, haccel a rfl⟩

theorem AllGenuine.step {s s' : Pipeline} {e : PipelineEvent} (h : AllGenuine s)
    (hf : FanOut s) (he : e ≠ .publish) (hstep : SensorPipeline.step s e = some s') :
    AllGenuine s' := by
  rcases history_cases hstep with ⟨hpublish, -, -⟩ | ⟨hp, rfl⟩ | ⟨x, q, d, w, -, rfl⟩ |
    ⟨x, q, -, rfl⟩ | hsame
  · exact absurd hpublish he
  · refine ⟨h.1, ?_⟩
    intro o ho
    rcases List.mem_append.mp ho with hold | hnew
    · exact h.2 o hold
    · rw [List.mem_singleton.mp hnew]
      refine h.1 s.current ?_
      rw [← hf.offered, awaitingOffer, if_pos hp]
      exact List.mem_append_right _ (List.mem_singleton_self _)
  · exact h
  · exact h
  · rw [AllGenuine, hsame.produced, hsame.offers, arithmetic_step hstep]
    exact h

theorem allGenuine_step_iff {s s' : Pipeline} {e : PipelineEvent}
    (hd : Decoded s) (hf : FanOut s) (h : AllGenuine s)
    (hstep : SensorPipeline.step s e = some s') :
    AllGenuine s' ↔ readsSucceeded s e = true := by
  by_cases he : e = .publish
  · subst he
    obtain ⟨hp, rfl⟩ := guarded_eq_some.mp hstep
    constructor
    · intro h'
      exact (genuine_current_iff hd hp).mp (h'.1 s.current (by simp [publish]))
    · intro hreads
      refine ⟨?_, h.2⟩
      intro x hx
      rcases List.mem_append.mp hx with hold | hnew
      · exact h.1 x hold
      · rw [List.mem_singleton.mp hnew]
        exact (genuine_current_iff hd hp).mpr hreads
  · refine ⟨?_, fun _ => h.step hf he hstep⟩
    intro _
    cases e with
    | publish => exact absurd rfl he
    | _ => rfl

/-- In every run, every sample ever put on a queue is genuine exactly if no
iteration publishes after one of its two register reads failed. -/
theorem allGenuine_always_iff (a : Arithmetic) (es : List PipelineEvent) (s : Pipeline)
    (hrun : run SensorPipeline.step (init a) es = some s) :
    Always SensorPipeline.step AllGenuine (init a) es ↔
      EachStep SensorPipeline.step (fun s e => readsSucceeded s e = true) (init a) es := by
  have hinit : Decoded (init a) ∧ FanOut (init a) := ⟨trivial, fanOut_init a⟩
  have hinv : ∀ (s : Pipeline) e s', Decoded s ∧ FanOut s →
      SensorPipeline.step s e = some s' → Decoded s' ∧ FanOut s' :=
    fun _ _ _ h hs => ⟨h.1.step hs, h.2.step hs⟩
  exact always_iff_eachStep hinv (fun _ _ _ h hg hs => allGenuine_step_iff h.1 h.2 hg hs)
    hinit ⟨by simp [init], by simp [init]⟩ hrun

theorem allGenuine_after_timeout :
    ∃ s, run SensorPipeline.step (init .exact)
        (.give :: iteration .take (reading 1 0) (reading 2 0) ++
          iteration (.timeout none) (reading 3 0) (reading 4 0)) = some s ∧
      AllGenuine s := by
  obtain ⟨s, hrun, -⟩ := exists_run_of_any
    (show (run SensorPipeline.step (init .exact)
      (.give :: iteration .take (reading 1 0) (reading 2 0) ++
        iteration (.timeout none) (reading 3 0) (reading 4 0))).any
      (fun _ => true) = true by decide +kernel)
  have hall := (allGenuine_always_iff .exact _ s hrun).mpr (by decide +kernel)
  exact ⟨s, hrun, always_last hall hrun⟩

/-- The second read fails: the gyroscope's bytes are published as
acceleration. -/
theorem failed_read_published :
    ¬ ∀ (es : List PipelineEvent) (s : Pipeline),
      run SensorPipeline.step (init .exact) es = some s → AllGenuine s := by
  intro h
  obtain ⟨s, hrun, hs⟩ := exists_run_of_any
    (show (run SensorPipeline.step (init .exact)
        (.give :: iteration .take (reading 0x34 0x12) none)).any
      (fun s => decide (∃ x ∈ s.produced, x.data.ax = gravity .exact (int16 0x34 0x12) ∧
        x.transfers.any fun t => t.2.isNone)) = true by decide +kernel)
  obtain ⟨x, hx, -, hfailed⟩ := of_decide_eq_true hs
  obtain ⟨g, a, htransfers, -, -⟩ := (h _ s hrun).1 x hx
  simp [htransfers, transfersOf] at hfailed

end BikeMcu.SampleProvenance
