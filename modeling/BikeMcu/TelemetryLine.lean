import BikeMcu.Printf
import BikeMcu.SampleProvenance

namespace BikeMcu.TelemetryLine

open BikeMcu.TransitionSystem
open BikeMcu.BmiData
open BikeMcu.Printf
open BikeMcu.FloatDetector (Arithmetic abs_round_sub_le)
open BikeMcu.SensorPipeline
open BikeMcu.SensorFanOut
open BikeMcu.SampleProvenance

/-- `bmi160_read_data`, both halves. -/
def bmi160ReadData (scratch : Vector UInt8 12) (gyro accel : SpiResult 6) (s : Pipeline) :
    Bmi160Data :=
  (readAccel accel (readGyro scratch gyro s)).data

def float (precision : ℕ) : ExactFloat → Directive
  | .nan => .text ['n', 'a', 'n']
  | .infinity negative => .text (if negative then ['-', 'i', 'n', 'f'] else ['i', 'n', 'f'])
  | .finite q => .fixed precision q

/-- `"%lld,%.3f,%.3f,%.3f,%.2f,%.2f,%.2f,%d \n"` with its arguments. -/
def line (timer : Int64) (data : Bmi160Data) : List Directive :=
  let ms := timer / 1000
  [.int ms.toInt, .text [','], float 3 data.ax, .text [','], float 3 data.ay, .text [','],
    float 3 data.az, .text [','], float 2 data.gx, .text [','], float 2 data.gy, .text [','],
    float 2 data.gz, .text [','], .int data.seq.toInt, .text [' ', '\n']]

def msg (timer : Int64) (data : Bmi160Data) : List Char :=
  snprintf 128 (line timer data)

theorem abs_toInt_le (x : Int16) : |(x.toInt : ℚ)| ≤ 32768 := by
  have hlower : -32768 ≤ x.toInt := x.le_toInt
  have hupper : x.toInt ≤ 32768 := x.toInt_lt.le
  exact abs_le.mpr ⟨by exact_mod_cast hlower, by exact_mod_cast hupper⟩

theorem abs_scaled_le (x : Int16) {c : ℚ} (hc : 0 ≤ c) : |(x.toInt : ℚ) * c| ≤ 32768 * c := by
  rw [abs_mul, abs_of_nonneg hc]
  exact mul_le_mul_of_nonneg_right (abs_toInt_le x) hc

theorem round_toInt (a : Arithmetic) (x : Int16) : a.round (x.toInt : ℚ) = x.toInt := by
  have hlower : -32768 ≤ x.toInt := x.le_toInt
  have hupper : x.toInt < 32768 := x.toInt_lt
  refine a.round_intCast _ ?_
  rw [abs_lt]
  norm_num
  omega

theorem abs_scaled_sub_le (a : Arithmetic) {scale : ℚ} (hscale : 1 / 2 ^ 20 ≤ scale)
    (x : Int16) : |scaled a scale x - x.toInt * scale| ≤ 3 / 2 ^ 9 * scale := by
  have hpos : 0 ≤ scale := by linarith
  have hround := a.within scale
  rw [abs_of_nonneg hpos] at hround
  have hliteral : |x.toInt * (a.round scale - scale)| ≤
      32768 * (1 / 2 ^ 24 * scale + 1 / 2 ^ 150) := by
    rw [abs_mul]
    exact mul_le_mul (abs_toInt_le x) hround (abs_nonneg _) (by norm_num)
  have hexact := abs_scaled_le x hpos
  have hproduct : |x.toInt * a.round scale| ≤ 32769 * scale := by
    rw [abs_le] at hliteral hexact ⊢
    constructor
    · linarith
    · linarith
  have hrounded := abs_round_sub_le a.within hproduct
  rw [scaled, round_toInt]
  rw [abs_le] at hliteral hrounded ⊢
  constructor
  · linarith
  · linarith

theorem abs_gravity_le (a : Arithmetic) (x : Int16) :
    |scaled a (61 / 1000000) x| ≤ 2 ∧
      |scaled a (61 / 1000000) x - x.toInt * (61 / 1000000)| ≤ 1 / 2 ^ 18 := by
  have hexact := abs_scaled_le x (c := 61 / 1000000) (by norm_num)
  have hscale : (1 : ℚ) / 2 ^ 20 ≤ 61 / 1000000 := by norm_num
  have herror := abs_scaled_sub_le a hscale x
  have hdifference := abs_sub_abs_le_abs_sub (scaled a (61 / 1000000) x)
    (x.toInt * (61 / 1000000))
  refine ⟨?_, herror.trans (by norm_num)⟩
  linarith

theorem abs_degrees_le (a : Arithmetic) (x : Int16) :
    |scaled a (61 / 1000) x| ≤ 1999 ∧
      |scaled a (61 / 1000) x - x.toInt * (61 / 1000)| ≤ 1 / 2 ^ 8 := by
  have hexact := abs_scaled_le x (c := 61 / 1000) (by norm_num)
  have hscale : (1 : ℚ) / 2 ^ 20 ≤ 61 / 1000 := by norm_num
  have herror := abs_scaled_sub_le a hscale x
  have hdifference := abs_sub_abs_le_abs_sub (scaled a (61 / 1000) x) (x.toInt * (61 / 1000))
  refine ⟨?_, herror.trans (by norm_num)⟩
  linarith

/-- One digit, a point and three digits, with a sign. -/
theorem length_gravity (a : Arithmetic) (x : Int16) :
    (float 3 (gravity a x)).render.length ≤ 6 :=
  length_fixed_le (k := 1) (m := 2) (by norm_num)
    (by exact_mod_cast (abs_gravity_le a x).1) (by norm_num)

theorem length_degrees (a : Arithmetic) (x : Int16) :
    (float 2 (degrees a x)).render.length ≤ 8 :=
  length_fixed_le (k := 4) (m := 1999) (by norm_num)
    (by exact_mod_cast (abs_degrees_le a x).1) (by norm_num)

theorem length_seq (seq : Int32) : (Directive.int seq.toInt).render.length ≤ 11 := by
  have hlower : -2147483648 ≤ seq.toInt := seq.le_toInt
  have hupper : seq.toInt < 2147483648 := seq.toInt_lt
  exact length_decimal_le (k := 10) (by norm_num) (by omega)

theorem length_ms {timer : Int64} (htimer : 0 ≤ timer) :
    (Directive.int (timer / 1000).toInt).render.length ≤ 16 := by
  have hlower : 0 ≤ timer.toInt := Int64.le_iff_toInt_le.mp htimer
  have hupper : timer.toInt < 9223372036854775808 := timer.toInt_lt
  have hms : (timer / 1000).toInt = timer.toInt / 1000 := by
    rw [Int64.toInt_div_of_ne_right _ _ (by decide)]
    exact Int.tdiv_eq_ediv_of_nonneg hlower
  rw [hms]
  exact length_decimal_le_of_nonneg (k := 16) (by norm_num) (by omega) (by omega)

/-- The six values are register contents, scaled in some arithmetic. -/
def Scaled (data : Bmi160Data) : Prop :=
  ∃ a gyro accel, GyroFrom a gyro data ∧ AccelFrom a accel data

theorem scaled_bmi160ReadData (scratch : Vector UInt8 12) (gyro accel : SpiResult 6)
    (s : Pipeline) : Scaled (bmi160ReadData scratch gyro accel s) :=
  ⟨s.arithmetic, _, _, ⟨rfl, rfl, rfl⟩, ⟨rfl, rfl, rfl⟩⟩

theorem length_line {timer : Int64} (htimer : 0 ≤ timer) {data : Bmi160Data}
    (hdata : Scaled data) : (format (line timer data)).length ≤ 78 := by
  obtain ⟨a, g, x, ⟨hgx, hgy, hgz⟩, hax, hay, haz⟩ := hdata
  have hcomma : (Directive.text [',']).render.length ≤ 1 := Nat.le_refl 1
  have hend : (Directive.text [' ', '\n']).render.length ≤ 2 := Nat.le_refl 2
  have hwidths : List.Forall₂ (fun d w => d.render.length ≤ w) (line timer data)
      [16, 1, 6, 1, 6, 1, 6, 1, 8, 1, 8, 1, 8, 1, 11, 2] := by
    simp only [line, hax, hay, haz, hgx, hgy, hgz, List.forall₂_cons, length_ms htimer,
      length_gravity, length_degrees, length_seq, hcomma, hend, true_and]
    exact List.Forall₂.nil
  exact length_format_le hwidths

theorem getLast_line (timer : Int64) (data : Bmi160Data) :
    (format (line timer data)).getLast? = some '\n' := by
  have hline : line timer data = (line timer data).dropLast ++ [.text [' ', '\n']] := rfl
  rw [format, hline, List.flatMap_append, List.getLast?_append]
  rfl

theorem msg_eq_line {timer : Int64} (htimer : 0 ≤ timer) {data : Bmi160Data}
    (hdata : Scaled data) : msg timer data = format (line timer data) := by
  have hlength := length_line htimer hdata
  exact snprintf_of_fits (by omega)

/-- The line fits whatever the registers hold and however the register reads end. -/
theorem msg_never_truncated (timer : Int64) (htimer : 0 ≤ timer) (scratch : Vector UInt8 12)
    (gyro accel : SpiResult 6) (s : Pipeline) :
    (format (line timer (bmi160ReadData scratch gyro accel s))).length ≤ 127 ∧
      msg timer (bmi160ReadData scratch gyro accel s) =
        format (line timer (bmi160ReadData scratch gyro accel s)) ∧
      (msg timer (bmi160ReadData scratch gyro accel s)).getLast? = some '\n' := by
  have hdata := scaled_bmi160ReadData scratch gyro accel s
  have hlength := length_line htimer hdata
  have hmsg := msg_eq_line htimer hdata
  exact ⟨by omega, hmsg, hmsg ▸ getLast_line _ _⟩

/-- The last instant of the timer, with every register and the sequence number at its
minimum. -/
def longest : Bmi160Data :=
  bmi160ReadData (Vector.replicate 12 0) (reading 0 0x80) (reading 0 0x80)
    { init .exact with data := { initData with seq := Int32.minValue } }

theorem msg_never_truncated_longest :
    (format (line Int64.maxValue longest)).length = 78 ∧
      msg Int64.maxValue longest = format (line Int64.maxValue longest) ∧
      (msg Int64.maxValue longest).getLast? = some '\n' :=
  ⟨by decide +kernel, (msg_never_truncated Int64.maxValue (by decide) _ _ _ _).2⟩

def AllScaled (s : Pipeline) : Prop :=
  Scaled s.data ∧ ∀ x ∈ s.produced, Scaled x.data

theorem AllScaled.step {s s' : Pipeline} {e : PipelineEvent} (h : AllScaled s)
    (hstep : SensorPipeline.step s e = some s') : AllScaled s' := by
  cases e with
  | give | take | timeout | offer | signalled | wake | restored | readGyro =>
      obtain ⟨-, rfl⟩ := guarded_eq_some.mp hstep
      exact h
  | isr now =>
      cases Option.some.inj hstep
      unfold gpioHandshakeIsrHandler
      split
      · exact h
      · exact h
  | readAccel rx =>
      obtain ⟨-, rfl⟩ := guarded_eq_some.mp hstep
      exact ⟨⟨s.arithmetic, _, _, ⟨rfl, rfl, rfl⟩, ⟨rfl, rfl, rfl⟩⟩, h.2⟩
  | publish =>
      obtain ⟨-, rfl⟩ := guarded_eq_some.mp hstep
      refine ⟨h.1, ?_⟩
      intro x hx
      rcases List.mem_append.mp hx with hold | hnew
      · exact h.2 x hold
      · rw [List.mem_singleton.mp hnew]
        exact h.1
  | advance =>
      obtain ⟨-, rfl⟩ := guarded_eq_some.mp hstep
      obtain ⟨⟨a, g, x, hgyro, haccel⟩, hproduced⟩ := h
      exact ⟨⟨a, g, x, hgyro, haccel⟩, hproduced⟩
  | receive =>
      obtain ⟨-, x, q, d, w, -, -, rfl⟩ := step_receive_eq_some hstep
      exact h
  | upload =>
      obtain ⟨x, q, -, rfl⟩ := step_upload_eq_some hstep
      exact h

theorem allScaled_init (a : Arithmetic) : AllScaled (init a) := by
  have hzero : ∀ scale, scaled .exact scale 0 = 0 := fun scale => zero_mul scale
  refine ⟨⟨.exact, (0, 0, 0), (0, 0, 0), ?_⟩, by simp [init]⟩
  simp [GyroFrom, AccelFrom, init, initData, gravity, degrees, hzero]

/-- Every line that goes out in a run is whole. -/
theorem uploaded_line_whole (a : Arithmetic) (es : List PipelineEvent) (s : Pipeline)
    (hrun : run SensorPipeline.step (init a) es = some s) (timer : Int64) (htimer : 0 ≤ timer)
    (x : Sample) (hx : x ∈ s.uploaded) : msg timer x.data = format (line timer x.data) := by
  have hscaled : AllScaled s := invariant_of_run (fun _ _ _ h => h.step) (allScaled_init a) hrun
  have hproduced : x ∈ s.produced :=
    (fanOut_of_run hrun).uploads.subset (List.mem_append_left _ hx)
  exact msg_eq_line htimer (hscaled.2 x hproduced)

end BikeMcu.TelemetryLine
