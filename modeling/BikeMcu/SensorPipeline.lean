import BikeMcu.TransitionSystem
import BikeMcu.BoundedQueue
import BikeMcu.FloatDetector

/-!
From the sensor to its two consumers: the interrupt handler and `poll_sensor` of
`bmi_spi.c`, the upload queue of one slot, the processing queue of ten, and the
receiving ends of `bmi_send_sensor_data_task` and `detect_brake_1`.
-/

namespace BikeMcu.SensorPipeline

open BikeMcu.TransitionSystem
open BikeMcu.BoundedQueue
open BikeMcu.BmiData
open BikeMcu.BrakeDetector (Detector initDetector DetectPoint Window invalid)
open BikeMcu.FloatDetector (Arithmetic detectBrake1 brakes)

abbrev SpiResult (len : ℕ) := Option (Vector UInt8 (len + 1))

/-- `bmi160_read_reg`: the bytes behind the dummy byte go to the front of
`data`, which a failed transaction leaves as it is. -/
def bmi160ReadReg {n len : ℕ} (data : Vector UInt8 n) (rx : SpiResult len) :
    Vector UInt8 n :=
  match rx with
  | none => data
  | some rx => Vector.ofFn fun i =>
      if h : i.val < len then rx[i.val + 1] else data[i]

/-- The chip id that `bmi160_init` reads decides its result; 0 stands when the
read fails. -/
def bmi160Init (chip : SpiResult 1) : Bool :=
  let chipId := bmi160ReadReg (Vector.replicate 1 0) chip
  chipId[0] = 0xD1

def int16 (lo hi : UInt8) : Int16 :=
  (hi.toUInt16 <<< 8 ||| lo.toUInt16).toInt16

def axes (buf : Vector UInt8 12) : Int16 × Int16 × Int16 :=
  (int16 buf[0] buf[1], int16 buf[2] buf[3], int16 buf[4] buf[5])

/-- The product of a register, which is converted first, and a literal. -/
def scaled (a : Arithmetic) (scale : ℚ) (x : Int16) : ℚ :=
  a.round (a.round x.toInt * a.round scale)

def gravity (a : Arithmetic) (x : Int16) : ExactFloat :=
  .finite (scaled a (61 / 1000000) x)

def degrees (a : Arithmetic) (x : Int16) : ExactFloat :=
  .finite (scaled a (61 / 1000) x)

def gyroRegister : UInt8 := 0x0C

def accelRegister : UInt8 := 0x12

abbrev Transfers := List (UInt8 × SpiResult 6)

/-- What a queue slot holds, with its origin: how many acceleration reads were
made before its own, and the register reads of its iteration. -/
structure Sample where
  data : Bmi160Data
  readAt : ℕ
  transfers : Transfers
  deriving DecidableEq

inductive PollPoint where
  | start
  | waiting
  | readGyro
  | readAccel
  | publish
  | offer
  | advance
  deriving DecidableEq, Repr

/-- A window on which the detector brakes: its samples, when the hold before it
ended, and how many samples the detector has stored since then. -/
structure Brake where
  samples : List Sample
  heldAt : Option ℕ
  stored : ℕ
  deriving DecidableEq

/-- `arithmetic` is that of the compiled code, and no statement changes it.
`lasthandshaketimeUs` and `isrCount` belong to the interrupt handler, `data`
and `buf` to `poll_sensor`. `reads` counts the acceleration reads. The last
fields are the history: what was published, offered to the processing queue (with
the number of items it then held), received and uploaded, oldest first; `stored`
are the samples that went into the detector's array since the latest hold ended,
which was after `heldAt` reads. -/
structure Pipeline where
  arithmetic : Arithmetic
  rdySem : Bool
  lasthandshaketimeUs : UInt32
  isrCount : ℕ
  poll : PollPoint
  data : Bmi160Data
  buf : Vector UInt8 12
  gyro : Int16 × Int16 × Int16
  transfers : Transfers
  reads : ℕ
  uploadQueue : Fifo Sample 1
  processQueue : Fifo Sample 10
  detector : Detector
  point : DetectPoint
  inits : List Bool
  produced : List Sample
  offers : List (Sample × ℕ)
  received : List Sample
  uploaded : List Sample
  stored : List Sample
  heldAt : Option ℕ
  brakes : List Brake

def initData : Bmi160Data :=
  { seq := 0, ax := .finite 0, ay := .finite 0, az := .finite 0,
    gx := .finite 0, gy := .finite 0, gz := .finite 0 }

def init (a : Arithmetic) : Pipeline :=
  { arithmetic := a, rdySem := false, lasthandshaketimeUs := 0, isrCount := 0,
    poll := .start, data := initData, buf := Vector.replicate 12 0, gyro := (0, 0, 0),
    transfers := [], reads := 0, uploadQueue := .empty Sample 1, processQueue := .empty Sample 10,
    detector := initDetector, point := .sampling, inits := [], produced := [],
    offers := [], received := [], uploaded := [], stored := [], heldAt := none,
    brakes := [] }

def Pipeline.current (s : Pipeline) : Sample :=
  { data := s.data, readAt := s.reads - 1, transfers := s.transfers }

def gpioHandshakeIsrHandler (now : UInt32) (s : Pipeline) : Pipeline :=
  if now - s.lasthandshaketimeUs < 1000 then s
  else { s with rdySem := true, lasthandshaketimeUs := now, isrCount := s.isrCount + 1 }

/-- The first half of `bmi160_read_data`. The buffer is fresh on the stack:
`scratch` is what it happens to hold. -/
def readGyro (scratch : Vector UInt8 12) (rx : SpiResult 6) (s : Pipeline) : Pipeline :=
  let buf := bmi160ReadReg scratch rx
  { s with
    poll := .readAccel
    buf := buf
    gyro := axes buf
    transfers := [(gyroRegister ||| 0x80, rx)] }

def readAccel (rx : SpiResult 6) (s : Pipeline) : Pipeline :=
  let buf := bmi160ReadReg s.buf rx
  let accel := axes buf
  { s with
    poll := .publish
    buf := buf
    transfers := s.transfers ++ [(accelRegister ||| 0x80, rx)]
    reads := s.reads + 1
    data := { s.data with
      ax := gravity s.arithmetic accel.1
      ay := gravity s.arithmetic accel.2.1
      az := gravity s.arithmetic accel.2.2
      gx := degrees s.arithmetic s.gyro.1
      gy := degrees s.arithmetic s.gyro.2.1
      gz := degrees s.arithmetic s.gyro.2.2 } }

def publish (s : Pipeline) : Pipeline :=
  { s with
    poll := .offer
    uploadQueue := s.uploadQueue.overwrite s.current
    produced := s.produced ++ [s.current] }

def offer (s : Pipeline) : Pipeline :=
  { s with
    poll := .advance
    processQueue := s.processQueue.send s.current
    offers := s.offers ++ [(s.current, s.processQueue.items.length)] }

/-- The detector has worked through a received sample: `d` is its new state and
`w` the window it decided on, if any. -/
def detected (x : Sample) (q : Fifo Sample 10) (d : Detector) (w : Option Window)
    (s : Pipeline) : Pipeline :=
  let stored := if invalid x.data.ax then s.stored else s.stored ++ [x]
  let brakes := w.any (brakes s.arithmetic.round)
  { s with
    processQueue := q
    detector := d
    point := if brakes then .braking else .sampling
    received := s.received ++ [x]
    stored := stored
    brakes :=
      if brakes then
        s.brakes ++ [{ samples := stored.drop (stored.length - 10),
                       heldAt := s.heldAt, stored := stored.length }]
      else s.brakes }

inductive PipelineEvent where
  | give
  | isr (now : UInt32)
  | take
  | timeout (chip : SpiResult 1)
  | readGyro (scratch : Vector UInt8 12) (rx : SpiResult 6)
  | readAccel (rx : SpiResult 6)
  | publish
  | offer
  | advance
  | receive
  | signalled
  | wake
  | restored
  | upload
  deriving DecidableEq

/-- One statement of one party. The wait for the semaphore times out only while
it is not given, and then the sensor is set up again and read all the same. -/
def step (s : Pipeline) : PipelineEvent → Option Pipeline
  | .give => guarded (s.poll = .start) { s with poll := .waiting, rdySem := true }
  | .isr now => some (gpioHandshakeIsrHandler now s)
  | .take =>
      guarded (s.poll = .waiting ∧ s.rdySem = true)
        { s with poll := .readGyro, rdySem := false }
  | .timeout chip =>
      guarded (s.poll = .waiting ∧ s.rdySem = false)
        { s with poll := .readGyro, inits := bmi160Init chip :: s.inits }
  | .readGyro scratch rx => guarded (s.poll = .readGyro) (readGyro scratch rx s)
  | .readAccel rx => guarded (s.poll = .readAccel) (readAccel rx s)
  | .publish => guarded (s.poll = .publish) (publish s)
  | .offer => guarded (s.poll = .offer) (offer s)
  | .advance =>
      guarded (s.poll = .advance)
        { s with poll := .waiting, data := { s.data with seq := s.data.seq + 1 } }
  | .receive =>
      if s.point = .sampling then
        s.processQueue.receive.bind fun r =>
          (detectBrake1 s.arithmetic.round s.arithmetic.contraction s.detector
            r.1.data.ax).map fun d => detected r.1 r.2 d.1 d.2 s
      else none
  | .signalled => guarded (s.point = .braking) { s with point := .holding }
  | .wake =>
      guarded (s.point = .holding)
        { s with point := .restoring, stored := [], heldAt := some s.reads }
  | .restored => guarded (s.point = .restoring) { s with point := .sampling }
  | .upload =>
      s.uploadQueue.receive.map fun r =>
        { s with uploadQueue := r.2, uploaded := s.uploaded ++ [r.1] }

def reading (lo hi : UInt8) : SpiResult 6 :=
  some #v[0, lo, hi, lo, hi, lo, hi]

def iteration (wait : PipelineEvent) (gyro accel : SpiResult 6) : List PipelineEvent :=
  [wait, .readGyro (Vector.replicate 12 0) gyro, .readAccel accel, .publish, .offer,
    .advance]

theorem step_receive_eq_some {s s' : Pipeline} (h : step s .receive = some s') :
    s.point = .sampling ∧ ∃ x q d w, s.processQueue.receive = some (x, q) ∧
      detectBrake1 s.arithmetic.round s.arithmetic.contraction s.detector x.data.ax =
        some (d, w) ∧ s' = detected x q d w s := by
  simp only [step] at h
  split at h
  · obtain ⟨r, hr, hrest⟩ := Option.bind_eq_some_iff.mp h
    obtain ⟨d, hd, rfl⟩ := Option.map_eq_some_iff.mp hrest
    exact ⟨‹_›, r.1, r.2, d.1, d.2, hr, hd, rfl⟩
  · cases h

theorem step_upload_eq_some {s s' : Pipeline} (h : step s .upload = some s') :
    ∃ x q, s.uploadQueue.receive = some (x, q) ∧
      s' = { s with uploadQueue := q, uploaded := s.uploaded ++ [x] } := by
  obtain ⟨r, hr, rfl⟩ := Option.map_eq_some_iff.mp h
  exact ⟨r.1, r.2, hr, rfl⟩

theorem arithmetic_step {s s' : Pipeline} {e : PipelineEvent} (h : step s e = some s') :
    s'.arithmetic = s.arithmetic := by
  cases e with
  | receive =>
      obtain ⟨-, x, q, d, w, -, -, rfl⟩ := step_receive_eq_some h
      rfl
  | isr now =>
      cases Option.some.inj h
      unfold gpioHandshakeIsrHandler
      split <;> rfl
  | upload =>
      obtain ⟨x, q, -, rfl⟩ := step_upload_eq_some h
      rfl
  | _ =>
      obtain ⟨-, rfl⟩ := guarded_eq_some.mp h
      rfl

end BikeMcu.SensorPipeline
