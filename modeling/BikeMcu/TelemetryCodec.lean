import Mathlib.Algebra.Order.Round
import BikeMcu.PrintfScan
import BikeMcu.TelemetryLine

namespace BikeMcu.TelemetryCodec

open BikeMcu.BmiData
open BikeMcu.Printf
open BikeMcu.FloatDetector (Arithmetic)
open BikeMcu.SensorPipeline
open BikeMcu.SampleProvenance
open BikeMcu.TelemetryLine

/-- The numbers of a line. -/
structure Reading where
  ms : ℤ
  accel : ℚ × ℚ × ℚ
  gyro : ℚ × ℚ × ℚ
  seq : ℤ
  deriving DecidableEq, Repr

def scanLine (cs : List Char) : Option Reading :=
  match cs.splitOn ',' with
  | [ms, ax, ay, az, gx, gy, gz, seq] =>
      (scanDecimal ms).bind fun ms =>
      (scanFixed 3 ax).bind fun ax => (scanFixed 3 ay).bind fun ay =>
      (scanFixed 3 az).bind fun az =>
      (scanFixed 2 gx).bind fun gx => (scanFixed 2 gy).bind fun gy =>
      (scanFixed 2 gz).bind fun gz =>
      (scanDecimal (seq.takeWhile fun c => c ≠ ' ')).map fun seq =>
        { ms := ms, accel := (ax, ay, az), gyro := (gx, gy, gz), seq := seq }
  | _ => none

def fields (timer : Int64) (data : Bmi160Data) : List (List Char) :=
  [decimal (timer / 1000).toInt, (float 3 data.ax).render, (float 3 data.ay).render,
    (float 3 data.az).render, (float 2 data.gx).render, (float 2 data.gy).render,
    (float 2 data.gz).render, decimal data.seq.toInt ++ [' ', '\n']]

theorem format_line (timer : Int64) (data : Bmi160Data) :
    format (line timer data) = [','].intercalate (fields timer data) := by
  simp [format, line, fields, List.intercalate, Directive.render]

theorem ne_of_numeric {c : Char} (hc : Numeric c) : c ≠ ',' ∧ c ≠ ' ' := by
  rcases hc with h | rfl | rfl
  · refine ⟨?_, ?_⟩
    · rintro rfl
      cases h
    · rintro rfl
      cases h
  · decide
  · decide

/-- The six values are these numbers. -/
structure Measures (accel gyro : ℚ × ℚ × ℚ) (data : Bmi160Data) : Prop where
  ax : data.ax = .finite accel.1
  ay : data.ay = .finite accel.2.1
  az : data.az = .finite accel.2.2
  gx : data.gx = .finite gyro.1
  gy : data.gy = .finite gyro.2.1
  gz : data.gz = .finite gyro.2.2

theorem comma_not_mem_fields {timer : Int64} {data : Bmi160Data} {accel gyro : ℚ × ℚ × ℚ}
    (hdata : Measures accel gyro data) : ∀ field ∈ fields timer data, ',' ∉ field := by
  have hdecimal : ∀ z, ',' ∉ decimal z := fun z h => (ne_of_numeric (numeric_decimal h)).1 rfl
  have hfixed : ∀ precision q, ',' ∉ fixed precision q :=
    fun precision q h => (ne_of_numeric (numeric_fixed h)).1 rfl
  have hseq : ',' ∉ decimal data.seq.toInt ++ [' ', '\n'] := by
    rw [List.mem_append, not_or]
    exact ⟨hdecimal _, by decide⟩
  simp only [fields, hdata.ax, hdata.ay, hdata.az, hdata.gx, hdata.gy, hdata.gz,
    List.forall_mem_cons]
  exact ⟨hdecimal _, hfixed _ _, hfixed _ _, hfixed _ _, hfixed _ _, hfixed _ _, hfixed _ _,
    hseq, fun _ h => absurd h List.not_mem_nil⟩

theorem takeWhile_seq (z : ℤ) :
    (decimal z ++ [' ', '\n']).takeWhile (fun c => c ≠ ' ') = decimal z := by
  rw [List.takeWhile_append_of_pos]
  · simp
  · intro c hc
    exact decide_eq_true (ne_of_numeric (numeric_decimal hc)).2

/-- The line reads back: the two integers exactly, the other numbers to half a unit of their
last digit. -/
theorem scan_line (timer : Int64) {data : Bmi160Data} {accel gyro : ℚ × ℚ × ℚ}
    (hdata : Measures accel gyro data) :
    ∃ r, scanLine (format (line timer data)) = some r ∧
      r.ms = (timer / 1000).toInt ∧ r.seq = data.seq.toInt ∧
      (|r.gyro.1 - gyro.1| ≤ 1 / 200 ∧ |r.gyro.2.1 - gyro.2.1| ≤ 1 / 200 ∧
        |r.gyro.2.2 - gyro.2.2| ≤ 1 / 200) ∧
      |r.accel.1 - accel.1| ≤ 1 / 2000 ∧ |r.accel.2.1 - accel.2.1| ≤ 1 / 2000 ∧
      |r.accel.2.2 - accel.2.2| ≤ 1 / 2000 := by
  have hsplit : (format (line timer data)).splitOn ',' = fields timer data := by
    rw [format_line]
    exact List.splitOn_intercalate ',' (comma_not_mem_fields hdata) (List.cons_ne_nil _ _)
  have hthousandths : ∀ q : ℚ, ∃ v, scanFixed 3 (float 3 (.finite q)).render = some v ∧
      |v - q| ≤ 1 / 2000 := by
    intro q
    obtain ⟨v, hscan, hv⟩ := exists_scanFixed 3 q
    exact ⟨v, hscan, hv.trans_eq (by norm_num)⟩
  have hhundredths : ∀ q : ℚ, ∃ v, scanFixed 2 (float 2 (.finite q)).render = some v ∧
      |v - q| ≤ 1 / 200 := by
    intro q
    obtain ⟨v, hscan, hv⟩ := exists_scanFixed 2 q
    exact ⟨v, hscan, hv.trans_eq (by norm_num)⟩
  obtain ⟨ax, haxscan, hax⟩ := hthousandths accel.1
  obtain ⟨ay, hayscan, hay⟩ := hthousandths accel.2.1
  obtain ⟨az, hazscan, haz⟩ := hthousandths accel.2.2
  obtain ⟨gx, hgxscan, hgx⟩ := hhundredths gyro.1
  obtain ⟨gy, hgyscan, hgy⟩ := hhundredths gyro.2.1
  obtain ⟨gz, hgzscan, hgz⟩ := hhundredths gyro.2.2
  refine ⟨{ ms := (timer / 1000).toInt, accel := (ax, ay, az), gyro := (gx, gy, gz),
            seq := data.seq.toInt }, ?_, rfl, rfl, ⟨hgx, hgy, hgz⟩, hax, hay, haz⟩
  simp only [scanLine, hsplit, fields, hdata.ax, hdata.ay, hdata.az, hdata.gx, hdata.gy,
    hdata.gz, scanDecimal_decimal, haxscan, hayscan, hazscan, hgxscan, hgyscan, hgzscan,
    takeWhile_seq, Option.bind_some, Option.map_some]

/-- The register value nearest to a scaled number. -/
def register (scale v : ℚ) : ℤ :=
  round (v / scale)

theorem abs_register_sub_le {scale bound v : ℚ} {x : Int16} (hscale : 0 < scale)
    (h : |v - x.toInt * scale| ≤ bound) :
    |((register scale v : ℤ) : ℚ) - x.toInt| ≤ bound / scale + 1 / 2 := by
  have hround : |v / scale - (register scale v : ℤ)| ≤ 1 / 2 := abs_sub_round _
  have hscaled : |v / scale - x.toInt| ≤ bound / scale := by
    rw [le_div_iff₀ hscale, ← abs_of_pos hscale, ← abs_mul, abs_of_pos hscale, sub_mul,
      div_mul_cancel₀ v hscale.ne']
    exact h
  calc
    |((register scale v : ℤ) : ℚ) - x.toInt|
        ≤ |((register scale v : ℤ) : ℚ) - v / scale| + |v / scale - x.toInt| :=
          abs_sub_le _ _ _
    _ ≤ bound / scale + 1 / 2 := by
          rw [abs_sub_comm, add_comm]
          exact add_le_add hscaled hround

/-- What a number of the accelerometer tells of its register. -/
theorem register_gravity {v : ℚ} {x : Int16}
    (h : |v - x.toInt * (61 / 1000000)| ≤ 1 / 2000 + 1 / 2 ^ 18) :
    |register (61 / 1000000) v - x.toInt| ≤ 8 := by
  have hbound := abs_register_sub_le (by norm_num) h
  have hlt : |((register (61 / 1000000) v - x.toInt : ℤ) : ℚ)| < 9 := by
    push_cast
    exact hbound.trans_lt (by norm_num)
  have hint : |register (61 / 1000000) v - x.toInt| < 9 := by exact_mod_cast hlt
  omega

/-- A number of the gyroscope determines its register. -/
theorem register_degrees {v : ℚ} {x : Int16}
    (h : |v - x.toInt * (61 / 1000)| ≤ 1 / 200 + 1 / 2 ^ 8) :
    register (61 / 1000) v = x.toInt := by
  have hbound := abs_register_sub_le (by norm_num) h
  have hlt : |((register (61 / 1000) v - x.toInt : ℤ) : ℚ)| < 1 := by
    push_cast
    exact hbound.trans_lt (by norm_num)
  have hint : |register (61 / 1000) v - x.toInt| < 1 := by exact_mod_cast hlt
  exact sub_eq_zero.mp (Int.abs_lt_one_iff.mp hint)

/-- The line of a sample reads back, whatever the arithmetic it was scaled in: the time in
milliseconds, the sequence number and the three gyroscope registers exactly, the three
accelerometer registers to within 8. -/
theorem line_read_back (a : Arithmetic) (timer : Int64) (data : Bmi160Data)
    (gyro accel : Int16 × Int16 × Int16) (hgyro : GyroFrom a gyro data)
    (haccel : AccelFrom a accel data) :
    ∃ r, scanLine (format (line timer data)) = some r ∧
      r.ms = (timer / 1000).toInt ∧ r.seq = data.seq.toInt ∧
      (register (61 / 1000) r.gyro.1 = gyro.1.toInt ∧
        register (61 / 1000) r.gyro.2.1 = gyro.2.1.toInt ∧
        register (61 / 1000) r.gyro.2.2 = gyro.2.2.toInt) ∧
      |register (61 / 1000000) r.accel.1 - accel.1.toInt| ≤ 8 ∧
      |register (61 / 1000000) r.accel.2.1 - accel.2.1.toInt| ≤ 8 ∧
      |register (61 / 1000000) r.accel.2.2 - accel.2.2.toInt| ≤ 8 := by
  have hmeasures : Measures (scaled a (61 / 1000000) accel.1, scaled a (61 / 1000000) accel.2.1,
      scaled a (61 / 1000000) accel.2.2) (scaled a (61 / 1000) gyro.1,
      scaled a (61 / 1000) gyro.2.1, scaled a (61 / 1000) gyro.2.2) data :=
    ⟨haccel.1, haccel.2.1, haccel.2.2, hgyro.1, hgyro.2.1, hgyro.2.2⟩
  obtain ⟨r, hscan, hms, hseq, ⟨hgx, hgy, hgz⟩, hax, hay, haz⟩ := scan_line timer hmeasures
  have hdegrees : ∀ (x : Int16) (v : ℚ), |v - scaled a (61 / 1000) x| ≤ 1 / 200 →
      register (61 / 1000) v = x.toInt := by
    intro x v hv
    exact register_degrees ((abs_sub_le _ _ _).trans (add_le_add hv (abs_degrees_le a x).2))
  have hgravity : ∀ (x : Int16) (v : ℚ), |v - scaled a (61 / 1000000) x| ≤ 1 / 2000 →
      |register (61 / 1000000) v - x.toInt| ≤ 8 := by
    intro x v hv
    exact register_gravity ((abs_sub_le _ _ _).trans (add_le_add hv (abs_gravity_le a x).2))
  exact ⟨r, hscan, hms, hseq, ⟨hdegrees _ _ hgx, hdegrees _ _ hgy, hdegrees _ _ hgz⟩,
    hgravity _ _ hax, hgravity _ _ hay, hgravity _ _ haz⟩

theorem line_read_back_longest :
    ∃ r, scanLine (format (line Int64.maxValue longest)) = some r ∧
      r.ms = 9223372036854775 ∧ register (61 / 1000) r.gyro.1 = -32768 := by
  obtain ⟨r, hscan, hms, -, ⟨hgx, -, -⟩, -⟩ := line_read_back .exact Int64.maxValue longest
    (-32768, -32768, -32768) (-32768, -32768, -32768)
    ⟨by decide +kernel, by decide +kernel, by decide +kernel⟩
    ⟨by decide +kernel, by decide +kernel, by decide +kernel⟩
  exact ⟨r, hscan, hms.trans (by decide), hgx.trans (by decide)⟩

end BikeMcu.TelemetryCodec
