import BikeMcu.FloatDetector
import BikeMcu.TelemetryCodec

namespace BikeMcu.FloatReadout

open BikeMcu.StreamBlocks
open BikeMcu.BmiData
open BikeMcu.BinaryRounding
open BikeMcu.BatchDetection
open BikeMcu.FloatDetector
open BikeMcu.Printf
open BikeMcu.SensorPipeline
open BikeMcu.SampleProvenance (GyroFrom AccelFrom)
open BikeMcu.TelemetryLine
open BikeMcu.TelemetryCodec

theorem filterMap_accepted_map {v : Int16 → ℚ} (hv : ∀ x, |v x| ≤ 2) (xs : List Int16) :
    (xs.map fun x => ExactFloat.finite (v x)).filterMap accepted = xs.map v := by
  have haccepted : (accepted ∘ fun x => ExactFloat.finite (v x)) = some ∘ v := by
    funext x
    exact accepted_eq_some_iff.mpr ⟨rfl, (hv x).trans (by norm_num)⟩
  rw [List.filterMap_map, haccepted, List.filterMap_eq_map]

theorem le_of_mem_running_smooth {lo f : ℚ} {xs : List ℚ} (hf : lo ≤ f)
    (hxs : ∀ x ∈ xs, lo ≤ x) : ∀ v ∈ running smooth f xs, lo ≤ v := by
  induction xs generalizing f with
  | nil => simp [running]
  | cons x xs ih =>
      have hx := hxs x List.mem_cons_self
      have hnext : lo ≤ smooth f x := by
        rw [smooth]
        linarith
      intro v hv
      rcases List.mem_cons.mp hv with rfl | hv
      · exact hnext
      · exact ih hnext (fun y hy => hxs y (List.mem_cons_of_mem x hy)) v hv

/-- Nothing brakes where all samples are above the threshold by more than what is
forgiven. -/
theorem decisionsBy_eq_false {margin lo : ℚ} (hlo : lo ≤ 0) (hmargin : -15 / 100 - margin < lo)
    {stream : List ExactFloat} (hstream : ∀ x ∈ stream.filterMap accepted, lo ≤ x) :
    ∀ b ∈ decisionsBy margin stream, b = false := by
  intro b hb
  obtain ⟨block, hblock, rfl⟩ := List.mem_map.mp hb
  have hlen := length_of_mem_completeBlocks hblock
  have hvalues : ∀ v ∈ block, lo ≤ v := by
    obtain ⟨k, -, rfl⟩ := List.mem_map.mp hblock
    intro v hv
    exact le_of_mem_running_smooth hlo hstream v (List.mem_of_mem_drop (List.mem_of_mem_take hv))
  have hsum := List.card_nsmul_le_sum block lo hvalues
  rw [hlen, nsmul_eq_mul] at hsum
  push_cast at hsum
  rw [← Bool.not_eq_true, brakesBy_iff]
  rintro ⟨-, hlow⟩
  linarith

/-- From the registers on, in binary32 and with any products fused: the detector agrees with
the exact one on exactly scaled samples but for a margin of 1/2^16 g, a quarter of the
sensor's resolution; and it never brakes while the registers stay at -2458 or above. -/
theorem register_decisions (c : Contraction) (xs : List Int16) :
    ∃ bs, decisions binary32.round c (xs.map (gravity (.binary32 c))) = some bs ∧
      List.Forall₂ (fun sure b => sure = true → b = true)
        (decisionsBy (1 / 2 ^ 16) (xs.map (gravity .exact))) bs ∧
      List.Forall₂ (fun b possible => b = true → possible = true) bs
        (decisionsBy (-(1 / 2 ^ 16)) (xs.map (gravity .exact))) ∧
      ((∀ x ∈ xs, -2458 ≤ x.toInt) → ∀ b ∈ bs, b = false) := by
  have hsamples : ∀ a : Arithmetic, (xs.map (gravity a)).filterMap accepted =
      xs.map (scaled a (61 / 1000000)) :=
    fun a => filterMap_accepted_map (fun x => (abs_gravity_le a x).1) xs
  have hnear : List.Forall₂ (NearSample 2 (1 / 2 ^ 18))
      ((xs.map (gravity .exact)).filterMap accepted)
      ((xs.map (gravity (.binary32 c))).filterMap accepted) := by
    rw [hsamples, hsamples, List.forall₂_map_left_iff, List.forall₂_map_right_iff,
      List.forall₂_same]
    intro x _
    obtain ⟨hmagnitude, hdistance⟩ := abs_gravity_le (.binary32 c) x
    exact ⟨(abs_gravity_le .exact x).1, hmagnitude, hdistance⟩
  have hbetween := batchDecisions_between roundsWithin_binary32 c (by norm_num) (by norm_num)
    (by norm_num) hnear
  have hmargin : (2 : ℚ) / 2 ^ 18 + 2 * (1 / 2 ^ 18) = 1 / 2 ^ 16 := by norm_num
  rw [hmargin] at hbetween
  refine ⟨_, decisions_eq binary32.round c _, hbetween.1, hbetween.2, ?_⟩
  intro hsoft
  have hnone : ∀ b ∈ decisionsBy (-(1 / 2 ^ 16)) (xs.map (gravity .exact)), b = false := by
    have hlowest : (-2458 * (61 / 1000000) : ℚ) ≤ 0 := by norm_num
    refine decisionsBy_eq_false hlowest (by norm_num) ?_
    rw [hsamples]
    intro v hv
    obtain ⟨x, hx, rfl⟩ := List.mem_map.mp hv
    have hexact : scaled .exact (61 / 1000000) x = x.toInt * (61 / 1000000) := rfl
    have hregister : (-2458 : ℚ) ≤ x.toInt := by exact_mod_cast hsoft x hx
    rw [hexact]
    linarith
  refine forall_of_forall₂ ?_ hbetween.2.flip hnone
  rintro possible b hb rfl
  simpa using hb

/-- The telemetry of samples computed in binary32, whatever was read and however the
register reads ended: the line is whole in the message buffer, and gives back the registers
that it was made from, those of the gyroscope exactly and those of the accelerometer to
within 8. -/
theorem float_line_read_back (c : Contraction) (timer : Int64) (htimer : 0 ≤ timer)
    (scratch : Vector UInt8 12) (gyro accel : SpiResult 6) (out : Bmi160Data) :
    let data := bmi160ReadData scratch gyro accel { init (.binary32 c) with data := out }
    let g := axes (bmi160ReadReg scratch gyro)
    let a := axes (bmi160ReadReg (bmi160ReadReg scratch gyro) accel)
    msg timer data = format (line timer data) ∧
      ∃ r, scanLine (msg timer data) = some r ∧
        r.ms = (timer / 1000).toInt ∧ r.seq = out.seq.toInt ∧
        (register (61 / 1000) r.gyro.1 = g.1.toInt ∧
          register (61 / 1000) r.gyro.2.1 = g.2.1.toInt ∧
          register (61 / 1000) r.gyro.2.2 = g.2.2.toInt) ∧
        |register (61 / 1000000) r.accel.1 - a.1.toInt| ≤ 8 ∧
        |register (61 / 1000000) r.accel.2.1 - a.2.1.toInt| ≤ 8 ∧
        |register (61 / 1000000) r.accel.2.2 - a.2.2.toInt| ≤ 8 := by
  intro data g a
  have hgyro : GyroFrom (.binary32 c) g data := ⟨rfl, rfl, rfl⟩
  have haccel : AccelFrom (.binary32 c) a data := ⟨rfl, rfl, rfl⟩
  have hmsg : msg timer data = format (line timer data) :=
    msg_eq_line htimer ⟨_, g, a, hgyro, haccel⟩
  rw [hmsg]
  exact ⟨rfl, line_read_back (.binary32 c) timer data g a hgyro haccel⟩

/-- All registers and the sequence number at their minimum, at the last instant of the
timer. -/
theorem float_line_read_back_longest :
    ∃ r, scanLine (msg Int64.maxValue (bmi160ReadData (Vector.replicate 12 0) (reading 0 0x80)
        (reading 0 0x80) { init (.binary32 .separate) with
          data := { initData with seq := Int32.minValue } })) = some r ∧
      r.ms = 9223372036854775 ∧ register (61 / 1000) r.gyro.1 = -32768 := by
  obtain ⟨-, r, hscan, hms, -, ⟨hgx, -, -⟩, -⟩ := float_line_read_back .separate Int64.maxValue
    (by decide) (Vector.replicate 12 0) (reading 0 0x80) (reading 0 0x80)
    { initData with seq := Int32.minValue }
  exact ⟨r, hscan, hms.trans (by decide), hgx.trans (by decide +kernel)⟩

end BikeMcu.FloatReadout
