import BikeMcu.AtomicBlock
import BikeMcu.SensorPipeline

/-!
`bmi160_init` of `bmi_spi.c` transaction by transaction: the frames on the SPI bus and
what the sensor, which may lose power at any moment, makes of them, while the interrupt
handler and the two consumers go on.
-/

namespace BikeMcu.SensorLink

open BikeMcu.TransitionSystem
open BikeMcu.RunHistory
open BikeMcu.RunLedger
open BikeMcu.AtomicBlock
open BikeMcu.FloatDetector (Arithmetic)
open BikeMcu.SensorPipeline

def bmiCmd : UInt8 := 0x7E

def bmiAccModeNormal : UInt8 := 0x11

def bmiGryModeNormal : UInt8 := 0x15

/-- The bytes that `bmi160_write_reg` transmits. -/
def writeFrame (w : UInt8 × UInt8) : List UInt8 := [w.1 &&& 0x7F, w.2]

/-- The bytes that `bmi160_read_reg` transmits. -/
def readFrame (reg : UInt8) (len : ℕ) : List UInt8 :=
  (reg ||| 0x80) :: List.replicate len 0

/-- What `bmi160_init` writes once it has found the chip. -/
def initWrites : List (UInt8 × UInt8) :=
  [(0x53, 0x08), (0x51, 0x10), (0x56, 0x80), (0x40, 0x29), (0x42, 0x29), (0x54, 0xF8),
    (bmiCmd, bmiAccModeNormal), (bmiCmd, bmiGryModeNormal)]

/-- The sensor since it got power: the registers written, the others being at their
reset values, and the commands received. -/
structure Sensor where
  regs : UInt8 → Option UInt8
  commands : List UInt8

def freshSensor : Sensor := ⟨fun _ => none, []⟩

/-- The most significant bit of the first byte tells a read from a write. -/
def Sensor.transfer (s : Sensor) : List UInt8 → Sensor
  | [reg, data] =>
      if reg &&& 0x80 = 0 then
        if reg = bmiCmd then { s with commands := s.commands ++ [data] }
        else { s with regs := Function.update s.regs reg (some data) }
      else s
  | _ => s

inductive InitPoint where
  | idle
  | probe
  | readChipId
  | writing (todo : List (UInt8 × UInt8))
  deriving DecidableEq, Repr

def afterWrite : List (UInt8 × UInt8) → InitPoint
  | [] => .idle
  | todo => .writing todo

structure Link where
  pipe : Pipeline
  init : InitPoint
  sensor : Sensor

/-- `bmi_spi_init` has come to its call of `bmi160_init`. -/
def boot (a : Arithmetic) : Link :=
  { pipe := SensorPipeline.init a, init := .probe, sensor := freshSensor }

/-- The statements of `poll_sensor`; the others belong to the interrupt handler, the
detector and the upload task. -/
def pollStatement : PipelineEvent → Bool
  | .give | .take | .timeout _ | .readGyro _ _ | .readAccel _ | .publish | .offer
  | .advance => true
  | .isr _ | .receive | .signalled | .wake | .restored | .upload => false

def Sensor.polled (s : Sensor) : PipelineEvent → Sensor
  | .readGyro _ _ => s.transfer (readFrame gyroRegister 6)
  | .readAccel _ => s.transfer (readFrame accelRegister 6)
  | _ => s

/-- What `bmi160_init` returns for `chip`, for the iteration of `poll_sensor` that has
called it. -/
def timedOut (chip : SpiResult 1) (p : Pipeline) : Pipeline :=
  { p with poll := .readGyro, inits := bmi160Init chip :: p.inits }

/-- `write` tells whether the frame gets to the sensor; `bmi160_init` does not look at
what `bmi160_write_reg` returns. -/
inductive LinkEvent where
  | pipeline (e : PipelineEvent)
  | timeout
  | probe (rx : SpiResult 1)
  | readChipId (rx : SpiResult 1)
  | write (delivered : Bool)
  | sensorReset
  deriving DecidableEq

def step (l : Link) : LinkEvent → Option Link
  | .pipeline (.timeout _) => none
  | .pipeline e =>
      if pollStatement e = true ∧ l.init ≠ .idle then none
      else (SensorPipeline.step l.pipe e).map fun p =>
        { l with pipe := p, sensor := l.sensor.polled e }
  | .timeout =>
      guarded (l.init = .idle ∧ l.pipe.poll = .waiting ∧ l.pipe.rdySem = false)
        { l with init := .probe }
  | .probe _ =>
      guarded (l.init = .probe)
        { l with init := .readChipId, sensor := l.sensor.transfer (readFrame 0x7F 1) }
  | .readChipId rx =>
      guarded (l.init = .readChipId)
        { pipe := if l.pipe.poll = .start then l.pipe else timedOut rx l.pipe
          init := if bmi160Init rx then .writing initWrites else .idle
          sensor := l.sensor.transfer (readFrame 0x00 1) }
  | .write delivered =>
      match l.init with
      | .writing (w :: todo) =>
          some { l with
            init := afterWrite todo
            sensor := if delivered then l.sensor.transfer (writeFrame w) else l.sensor }
      | _ => none
  | .sensorReset => some { l with sensor := freshSensor }

theorem step_pipeline_eq_some {l l' : Link} {e : PipelineEvent}
    (h : step l (.pipeline e) = some l') :
    (pollStatement e = true → l.init = .idle) ∧ (∀ chip, e ≠ .timeout chip) ∧
      ∃ p, SensorPipeline.step l.pipe e = some p ∧
        l' = { l with pipe := p, sensor := l.sensor.polled e } := by
  have hcases : ∀ e, (∀ chip, e ≠ .timeout chip) → step l (.pipeline e) =
      if pollStatement e = true ∧ l.init ≠ .idle then none
      else (SensorPipeline.step l.pipe e).map fun p =>
        { l with pipe := p, sensor := l.sensor.polled e } := by
    intro e he
    cases e with
    | timeout chip => exact absurd rfl (he chip)
    | _ => rfl
  have he : ∀ chip, e ≠ .timeout chip := by
    rintro chip rfl
    cases h
  rw [hcases e he] at h
  split at h
  · cases h
  · rename_i hidle
    obtain ⟨p, hp, rfl⟩ := Option.map_eq_some_iff.mp h
    refine ⟨?_, he, p, hp, rfl⟩
    intro hpoll
    by_contra hinit
    exact hidle ⟨hpoll, hinit⟩

theorem step_write_eq_some {l l' : Link} {delivered : Bool}
    (h : step l (.write delivered) = some l') :
    ∃ w todo, l.init = .writing (w :: todo) ∧ l' = { l with
      init := afterWrite todo
      sensor := if delivered then l.sensor.transfer (writeFrame w) else l.sensor } := by
  simp only [step] at h
  split at h
  · exact ⟨_, _, ‹_›, (Option.some.inj h).symm⟩
  · cases h

theorem read_flag (reg : UInt8) : (reg ||| 0x80) &&& 0x80 ≠ 0 := by
  have h : ∀ b : BitVec 8, (b ||| 0x80) &&& 0x80 ≠ 0 := by decide
  intro hreg
  exact h reg.toBitVec (by simpa using congrArg UInt8.toBitVec hreg)

/-- Reads leave the sensor as it is. -/
theorem transfer_readFrame (s : Sensor) (reg : UInt8) (len : ℕ) :
    s.transfer (readFrame reg len) = s := by
  unfold Sensor.transfer
  split
  · rename_i hframe
    rw [readFrame, List.cons.injEq] at hframe
    rw [← hframe.1, if_neg (read_flag reg)]
  · rfl

theorem polled_eq (s : Sensor) (e : PipelineEvent) : s.polled e = s := by
  cases e with
  | readGyro scratch rx => exact transfer_readFrame s gyroRegister 6
  | readAccel rx => exact transfer_readFrame s accelRegister 6
  | _ => rfl

theorem step_pipeline_of_idle {l : Link} {e : PipelineEvent} {p : Pipeline}
    (hl : l.init = .idle) (he : ∀ chip, e ≠ .timeout chip)
    (hstep : SensorPipeline.step l.pipe e = some p) :
    step l (.pipeline e) = some { l with pipe := p } := by
  cases e with
  | timeout chip => exact absurd rfl (he chip)
  | _ => simp [step, hl, hstep, polled_eq]

section Atomic

def isInterrupt : PipelineEvent → Bool
  | .isr _ => true
  | _ => false

theorem other_frame {s t : Pipeline} {e : PipelineEvent}
    (hother : pollStatement e = false) (hinterrupt : isInterrupt e = false)
    (h : SensorPipeline.step s e = some t) :
    t.poll = s.poll ∧ t.rdySem = s.rdySem ∧ t.lasthandshaketimeUs = s.lasthandshaketimeUs := by
  cases e with
  | receive =>
      obtain ⟨-, x, q, d, w, -, -, rfl⟩ := step_receive_eq_some h
      exact ⟨rfl, rfl, rfl⟩
  | upload =>
      obtain ⟨x, q, -, rfl⟩ := step_upload_eq_some h
      exact ⟨rfl, rfl, rfl⟩
  | signalled | wake | restored =>
      obtain ⟨-, rfl⟩ := guarded_eq_some.mp h
      exact ⟨rfl, rfl, rfl⟩
  | isr now => cases hinterrupt
  | _ => cases hother

/-- What the consumers do has nothing to do with the interrupt handler. -/
theorem step_interrupt (now : UInt32) (s : Pipeline) {e : PipelineEvent}
    (hother : pollStatement e = false) (hinterrupt : isInterrupt e = false) :
    SensorPipeline.step (gpioHandshakeIsrHandler now s) e =
      (SensorPipeline.step s e).map (gpioHandshakeIsrHandler now) := by
  by_cases hnow : now - s.lasthandshaketimeUs < 1000
  · rw [show gpioHandshakeIsrHandler now s = s from if_pos hnow]
    cases ht : SensorPipeline.step s e with
    | none => rfl
    | some t =>
        obtain ⟨-, -, hlast⟩ := other_frame hother hinterrupt ht
        rw [Option.map_some, show gpioHandshakeIsrHandler now t = t from if_pos (hlast ▸ hnow)]
  · cases e with
    | receive =>
        by_cases hp : s.point = .sampling
        · cases hq : s.processQueue.receive with
          | none => simp [SensorPipeline.step, gpioHandshakeIsrHandler, hnow, hp, hq]
          | some r =>
              cases hd : FloatDetector.detectBrake1 s.arithmetic.round s.arithmetic.contraction
                  s.detector r.1.data.ax <;>
                simp [SensorPipeline.step, gpioHandshakeIsrHandler, hnow, hp, hq, hd, detected]
        · simp [SensorPipeline.step, gpioHandshakeIsrHandler, hnow, hp]
    | upload =>
        cases hq : s.uploadQueue.receive <;>
          simp [SensorPipeline.step, gpioHandshakeIsrHandler, hnow, hq]
    | signalled | wake | restored =>
        simp [SensorPipeline.step, guarded, gpioHandshakeIsrHandler, hnow, apply_ite]
    | isr now => cases hinterrupt
    | _ => cases hother

theorem poll_interrupt (now : UInt32) (s : Pipeline) :
    (gpioHandshakeIsrHandler now s).poll = s.poll := by
  unfold gpioHandshakeIsrHandler
  split <;> rfl

theorem timedOut_interrupt (chip : SpiResult 1) (now : UInt32) (s : Pipeline) :
    gpioHandshakeIsrHandler now (timedOut chip s) =
      timedOut chip (gpioHandshakeIsrHandler now s) := by
  by_cases hnow : now - s.lasthandshaketimeUs < 1000 <;>
    simp [gpioHandshakeIsrHandler, timedOut, hnow]

/-- `bmi160_init` on a timeout, as a block: the wait has found no token, and the chip id
decides what the pipeline is told. Interrupts can be moved behind it. -/
def initBlock : Block SensorPipeline.step (SpiResult 1) where
  ready s := decide (s.poll = .waiting ∧ s.rdySem = false)
  atomic := .timeout
  effect := timedOut
  other e := !pollStatement e
  late := isInterrupt
  step_atomic s chip hready := guarded_eq_some.mpr ⟨of_decide_eq_true hready, rfl⟩
  late_atomic _ := rfl
  ready_step s e t hother hlate hready hstep := by
    obtain ⟨hpoll, hsem, -⟩ := other_frame (by simpa using hother) hlate hstep
    rw [hpoll, hsem]
    exact hready
  move m e s t u hlate hother he hm hstep := by
    cases m with
    | isr now =>
        obtain rfl := Option.some.inj hm
        rw [step_interrupt now s (by simpa using hother) he] at hstep
        obtain ⟨v, hv, rfl⟩ := Option.map_eq_some_iff.mp hstep
        exact ⟨v, hv, rfl⟩
    | _ => cases hlate
  step_effect chip m s t hlate hm := by
    cases m with
    | isr now =>
        obtain rfl := Option.some.inj hm
        exact congrArg some (timedOut_interrupt chip now s)
    | _ => cases hlate

/-- Inside `bmi160_init` on behalf of `poll_sensor`, before the chip id is known. -/
def undecided (l : Link) : Bool :=
  decide ((l.init = .probe ∨ l.init = .readChipId) ∧ l.pipe.poll ≠ .start)

def blockLabel : Link × LinkEvent → Option (BlockEvent PipelineEvent (SpiResult 1))
  | (_, .pipeline e) => some (.plain e)
  | (_, .timeout) => some .enter
  | (l, .readChipId rx) => if l.pipe.poll = .start then none else some (.leave rx)
  | _ => none

theorem undecided_pipeline {l : Link} {p : Pipeline} {e : PipelineEvent} (s : Sensor)
    (hidle : pollStatement e = true → l.init = .idle)
    (hp : SensorPipeline.step l.pipe e = some p) :
    undecided { l with pipe := p, sensor := s } = undecided l := by
  cases hpoll : pollStatement e with
  | true => simp [undecided, hidle hpoll]
  | false =>
      have hkeep : p.poll = l.pipe.poll := by
        cases hinterrupt : isInterrupt e with
        | false => exact (other_frame hpoll hinterrupt hp).1
        | true =>
            cases e with
            | isr now =>
                obtain rfl := Option.some.inj hp
                exact poll_interrupt now l.pipe
            | _ => cases hinterrupt
      simp [undecided, hkeep]

/-- The pipeline, with the call of `bmi160_init` taken apart, is a component of the link. -/
def blockView : View step initBlock.step where
  state l := (l.pipe, undecided l)
  label := blockLabel
  simulate l e l' hstep := by
    cases e with
    | pipeline e =>
        obtain ⟨hidle, -, p, hp, rfl⟩ := step_pipeline_eq_some hstep
        refine .inr ⟨_, rfl, ?_⟩
        rw [undecided_pipeline _ hidle hp]
        have hallowed : ¬ (undecided l && pollStatement e) = true := by
          intro h
          rw [Bool.and_eq_true] at h
          simp [undecided, hidle h.2] at h
        simp [Block.step, initBlock, hallowed, hp]
    | timeout =>
        obtain ⟨⟨hidle, hready⟩, rfl⟩ := guarded_eq_some.mp hstep
        refine .inr ⟨_, rfl, ?_⟩
        have hbefore : undecided l = false := by simp [undecided, hidle]
        have hafter : undecided { l with init := .probe } = true := by
          simp [undecided, hready.1]
        simp only [hbefore, hafter]
        simp [Block.step, initBlock, hready]
    | probe rx =>
        obtain ⟨hprobe, rfl⟩ := guarded_eq_some.mp hstep
        refine .inl ⟨rfl, ?_⟩
        simp [undecided, hprobe]
    | readChipId rx =>
        obtain ⟨hpoint, rfl⟩ := guarded_eq_some.mp hstep
        have hdecided : ∀ (p : Pipeline) (s : Sensor), undecided
            { pipe := p, init := if bmi160Init rx then .writing initWrites else .idle,
              sensor := s } = false := by
          intro p s
          cases hchip : bmi160Init rx <;> simp [undecided]
        by_cases hstart : l.pipe.poll = .start
        · refine .inl ⟨if_pos hstart, ?_⟩
          simp only [hdecided, hstart, if_true]
          simp [undecided, hstart]
        · refine .inr ⟨.leave rx, if_neg hstart, ?_⟩
          have hbefore : undecided l = true := by simp [undecided, hpoint, hstart]
          simp only [hdecided, hstart, if_false, hbefore]
          rfl
    | write delivered =>
        obtain ⟨w, todo, hpoint, rfl⟩ := step_write_eq_some hstep
        refine .inl ⟨rfl, ?_⟩
        cases todo <;> simp [undecided, hpoint, afterWrite]
    | sensorReset =>
        cases hstep
        exact .inl ⟨rfl, rfl⟩

/-- The step of the pipeline that a step of the link stands for, `bmi160_init` being done
at once when it learns the chip id. -/
def atomicEvent : Link × LinkEvent → Option PipelineEvent
  | (_, .pipeline e) => some e
  | (l, .readChipId rx) => if l.pipe.poll = .start then none else some (.timeout rx)
  | _ => none

theorem atomicEvent_eq (x : Link × LinkEvent) :
    (blockLabel x).bind (BlockEvent.event initBlock) = atomicEvent x := by
  obtain ⟨l, e⟩ := x
  cases e with
  | readChipId rx =>
      by_cases hstart : l.pipe.poll = .start <;>
        simp [blockLabel, atomicEvent, hstart, BlockEvent.event, initBlock]
  | _ => rfl

/-- Interrupts and consumers may come between the transactions of `bmi160_init`, but the
pipeline cannot tell: what it reaches in any run, it reaches with `bmi160_init` done at
once, on the same interrupts in the same order and the same other steps in the same
order. -/
theorem init_is_atomic (a : Arithmetic) (es : List LinkEvent) (l : Link)
    (hrun : run step (boot a) es = some l) :
    ∃ fs, run SensorPipeline.step (SensorPipeline.init a) fs = some l.pipe ∧
      SameOrder isInterrupt fs ((steps step (boot a) es).filterMap atomicEvent) := by
  have hview := blockView.run hrun
  have hbefore : undecided (boot a) = false := rfl
  simp only [blockView, hbefore] at hview
  obtain ⟨fs, hfs, horder⟩ := initBlock.run_atomic hview
  refine ⟨fs, hfs, ?_⟩
  rw [List.filterMap_filterMap] at horder
  simp only [atomicEvent_eq] at horder
  exact horder

def chipFound : SpiResult 1 := some #v[0, 0xD1]

/-- An interrupt comes while a timed-out `poll_sensor` is in its first transaction. -/
def interruptedInit : List LinkEvent :=
  .probe none :: .readChipId none :: .pipeline .give ::
    (iteration .take none none).map .pipeline ++
    [.timeout, .pipeline (.isr 5000), .probe none, .readChipId chipFound, .write true]

theorem init_is_atomic_interrupted :
    ∃ l fs, run step (boot .exact) interruptedInit = some l ∧
      run SensorPipeline.step (SensorPipeline.init .exact) fs = some l.pipe ∧
      fs.filter isInterrupt = [.isr 5000] := by
  obtain ⟨l, hrun, -⟩ := exists_run_of_any
    (show (run step (boot .exact) interruptedInit).any (fun _ => true) = true by decide)
  obtain ⟨fs, hfs, horder⟩ := init_is_atomic .exact interruptedInit l hrun
  exact ⟨l, fs, hrun, hfs, horder.picked.trans (by decide)⟩

/-- What the link does for a step of the pipeline when nothing comes in between. -/
def undisturbed : PipelineEvent → List LinkEvent
  | .timeout chip => [.timeout, .probe none, .readChipId chip] ++
      if bmi160Init chip then List.replicate initWrites.length (.write true) else []
  | e => [.pipeline e]

theorem run_writes {l : Link} {todo : List (UInt8 × UInt8)} (hl : l.init = afterWrite todo) :
    run step l (List.replicate todo.length (.write true)) = some
      { l with
        init := .idle
        sensor := todo.foldl (fun s w => s.transfer (writeFrame w)) l.sensor } := by
  induction todo generalizing l with
  | nil =>
      have hidle : l.init = .idle := hl
      simp [run, ← hidle]
  | cons w todo ih =>
      have hpoint : l.init = .writing (w :: todo) := hl
      refine run_cons_eq_some.mpr ⟨{ l with
        init := afterWrite todo, sensor := l.sensor.transfer (writeFrame w) }, ?_, ?_⟩
      · simp [step, hpoint]
      · exact ih rfl

theorem run_undisturbed {l : Link} {p : Pipeline} {e : PipelineEvent} (hl : l.init = .idle)
    (hstep : SensorPipeline.step l.pipe e = some p) :
    ∃ l', run step l (undisturbed e) = some l' ∧ l'.pipe = p ∧ l'.init = .idle := by
  cases e with
  | timeout chip =>
      obtain ⟨⟨hwait, hsem⟩, rfl⟩ := guarded_eq_some.mp hstep
      have hstart : l.pipe.poll ≠ .start := by simp [hwait]
      have hbegin : ∃ u, run step l [.timeout, .probe none, .readChipId chip] = some u ∧
          u.pipe = timedOut chip l.pipe ∧
          u.init = if bmi160Init chip then .writing initWrites else .idle := by
        refine ⟨{ pipe := timedOut chip l.pipe,
                  init := if bmi160Init chip then .writing initWrites else .idle,
                  sensor := l.sensor }, ?_, rfl, rfl⟩
        simp [run, step, guarded, hl, hwait, hsem, transfer_readFrame]
      obtain ⟨u, hu, hpipe, hinit⟩ := hbegin
      cases hchip : bmi160Init chip with
      | false =>
          refine ⟨u, ?_, ?_, ?_⟩
          · simpa [undisturbed, hchip] using hu
          · rw [hpipe, timedOut, hchip]
          · simpa [hchip] using hinit
      | true =>
          have hwriting : u.init = afterWrite initWrites := by
            rw [hinit, hchip]
            rfl
          have hwrites := run_writes hwriting
          refine ⟨{ u with
            init := .idle
            sensor := initWrites.foldl (fun s w => s.transfer (writeFrame w)) u.sensor },
            ?_, ?_, rfl⟩
          · rw [undisturbed, hchip, if_pos rfl]
            exact run_append_eq_some.mpr ⟨u, hu, hwrites⟩
          · rw [hpipe, timedOut, hchip]
  | _ =>
      refine ⟨{ l with pipe := p }, run_cons_eq_some.mpr ⟨_, ?_, rfl⟩, rfl, hl⟩
      exact step_pipeline_of_idle hl (by simp) hstep

/-- Every run of the pipeline is one of the link. -/
theorem exists_link_run {a : Arithmetic} {fs : List PipelineEvent} {p : Pipeline}
    (hrun : run SensorPipeline.step (SensorPipeline.init a) fs = some p) :
    ∃ l, run step (boot a) ([.probe none, .readChipId none] ++ fs.flatMap undisturbed) = some l ∧
      l.pipe = p := by
  have hfrom : ∀ (fs : List PipelineEvent) (l : Link), l.init = .idle →
      run SensorPipeline.step l.pipe fs = some p →
      ∃ l', run step l (fs.flatMap undisturbed) = some l' ∧ l'.pipe = p := by
    intro fs
    induction fs with
    | nil =>
        intro l hl hfs
        exact ⟨l, rfl, by simpa [run] using hfs⟩
    | cons e fs ih =>
        intro l hl hfs
        obtain ⟨q, hq, htail⟩ := run_cons_eq_some.mp hfs
        obtain ⟨u, hu, hpipe, hidle⟩ := run_undisturbed hl hq
        obtain ⟨l', hl', hp⟩ := ih u hidle (hpipe ▸ htail)
        exact ⟨l', run_append_eq_some.mpr ⟨u, hu, hl'⟩, hp⟩
  obtain ⟨u, hu, hready⟩ := exists_run_of_any
    (show (run step (boot a) [.probe none, .readChipId none]).any
      (fun l => decide (l.init = .idle ∧ l.pipe.poll = .start)) = true from rfl)
  have hpipe : u.pipe = SensorPipeline.init a := by
    simp [run, step, guarded, boot, SensorPipeline.init] at hu
    rw [← hu]
    rfl
  obtain ⟨l, hl, hp⟩ := hfrom fs u (of_decide_eq_true hready).1 (hpipe ▸ hrun)
  exact ⟨l, run_append_eq_some.mpr ⟨u, hu, hl⟩, hp⟩

end Atomic

end BikeMcu.SensorLink
