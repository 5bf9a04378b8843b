import BikeMcu.SensorLink

namespace BikeMcu.SensorRegisters

open BikeMcu.TransitionSystem
open BikeMcu.RunHistory
open BikeMcu.FloatDetector (Arithmetic)
open BikeMcu.SensorPipeline
open BikeMcu.SensorLink

/-- The sensor has done what a write frame says. -/
def holds (s : Sensor) (w : UInt8 × UInt8) : Prop :=
  if w.1 = bmiCmd then w.2 ∈ s.commands else s.regs w.1 = some w.2

def Configured (s : Sensor) : Prop := ∀ w ∈ initWrites, holds s w

/-- The sensor holds nothing but what `bmi160_init` writes. -/
structure Own (s : Sensor) : Prop where
  regs : ∀ r d, s.regs r = some d → (r, d) ∈ initWrites
  commands : ∀ c ∈ s.commands, (bmiCmd, c) ∈ initWrites

theorem transfer_writeFrame (s : Sensor) {w : UInt8 × UInt8} (hw : w ∈ initWrites) :
    s.transfer (writeFrame w) =
      if w.1 = bmiCmd then { s with commands := s.commands ++ [w.2] }
      else { s with regs := Function.update s.regs w.1 (some w.2) } := by
  have haddress : w.1 &&& 0x7F = w.1 ∧ w.1 &&& 0x80 = 0 := by
    simp only [initWrites, List.mem_cons, List.not_mem_nil, or_false] at hw
    rcases hw with rfl | rfl | rfl | rfl | rfl | rfl | rfl | rfl <;> decide
  rw [writeFrame, haddress.1, Sensor.transfer, if_pos haddress.2]

/-- `bmi160_init` writes no register twice. -/
theorem eq_of_address {w v : UInt8 × UInt8} (hw : w ∈ initWrites) (hv : v ∈ initWrites)
    (haddress : w.1 = v.1) (hregister : w.1 ≠ bmiCmd) : w = v := by
  have hall : (initWrites.all fun w => initWrites.all fun v =>
      decide (w.1 = v.1 → w.1 ≠ bmiCmd → w = v)) = true := by decide
  have hone := List.all_eq_true.mp (List.all_eq_true.mp hall w hw) v hv
  exact of_decide_eq_true hone haddress hregister

theorem holds_transfer (s : Sensor) {w v : UInt8 × UInt8} (hw : w ∈ initWrites)
    (hv : v ∈ initWrites) :
    holds (s.transfer (writeFrame v)) w ↔ holds s w ∨ w = v := by
  rw [transfer_writeFrame s hv]
  by_cases hcmdw : w.1 = bmiCmd
  · by_cases hcmdv : v.1 = bmiCmd
    · simp [holds, hcmdw, hcmdv, Prod.ext_iff]
    · have hne : w ≠ v := fun heq => hcmdv (heq ▸ hcmdw)
      simp [holds, hcmdw, hcmdv, hne]
  · by_cases hcmdv : v.1 = bmiCmd
    · have hne : w ≠ v := fun heq => hcmdw (heq ▸ hcmdv)
      simp [holds, hcmdw, hcmdv, hne]
    · by_cases haddress : w.1 = v.1
      · obtain rfl := eq_of_address hw hv haddress hcmdw
        simp [holds, hcmdw]
      · have hne : w ≠ v := fun heq => haddress (heq ▸ rfl)
        simp [holds, hcmdw, hcmdv, hne, haddress]

theorem Own.transfer {s : Sensor} {w : UInt8 × UInt8} (h : Own s) (hw : w ∈ initWrites) :
    Own (s.transfer (writeFrame w)) := by
  rw [transfer_writeFrame s hw]
  by_cases hcmd : w.1 = bmiCmd
  · rw [if_pos hcmd]
    refine ⟨h.regs, ?_⟩
    intro c hc
    rcases List.mem_append.mp hc with hc | hc
    · exact h.commands c hc
    · rw [List.mem_singleton.mp hc, ← hcmd]
      exact hw
  · rw [if_neg hcmd]
    refine ⟨?_, h.commands⟩
    intro r d hrd
    by_cases hr : r = w.1
    · subst hr
      have hd : w.2 = d := by simpa using hrd
      exact hd ▸ hw
    · exact h.regs r d (by simpa [hr] using hrd)

/-- The write that a step gets across. -/
def delivers : Link × LinkEvent → List (UInt8 × UInt8)
  | (l, .write true) =>
      match l.init with
      | .writing (w :: _) => [w]
      | _ => []
  | _ => []

/-- The writes that have got across since the sensor last got power. -/
def written (h : List (Link × LinkEvent)) : List (UInt8 × UInt8) :=
  h.foldl (fun ws x => if x.2 = .sensorReset then [] else ws ++ delivers x) []

theorem written_append (h : List (Link × LinkEvent)) (x : Link × LinkEvent) :
    written (h ++ [x]) = if x.2 = .sensorReset then [] else written h ++ delivers x := by
  simp [written]

/-- The sensor and the point of `bmi160_init` after a history. -/
structure Accounted (h : List (Link × LinkEvent)) (l : Link) : Prop where
  holds : ∀ w ∈ initWrites, holds l.sensor w ↔ w ∈ written h
  own : Own l.sensor
  todo : ∀ todo, l.init = .writing todo → todo ≠ [] ∧ todo <:+ initWrites

theorem Accounted.of_frame {h : List (Link × LinkEvent)} {l l' : Link} {e : LinkEvent}
    (hl : Accounted h l) (hreset : e ≠ .sensorReset) (hwrite : ∀ d, e ≠ .write d)
    (hsensor : l'.sensor = l.sensor)
    (htodo : ∀ todo, l'.init = .writing todo → todo ≠ [] ∧ todo <:+ initWrites) :
    Accounted (h ++ [(l, e)]) l' := by
  have hsame : written (h ++ [(l, e)]) = written h := by
    rw [written_append, if_neg hreset]
    cases e with
    | write d => exact absurd rfl (hwrite d)
    | _ => exact List.append_nil _
  refine ⟨?_, hsensor ▸ hl.own, htodo⟩
  rw [hsame, hsensor]
  exact hl.holds

theorem Accounted.step {h : List (Link × LinkEvent)} {l l' : Link} {e : LinkEvent}
    (hl : Accounted h l) (hstep : SensorLink.step l e = some l') :
    Accounted (h ++ [(l, e)]) l' := by
  cases e with
  | pipeline e =>
      obtain ⟨-, -, p, -, rfl⟩ := step_pipeline_eq_some hstep
      exact hl.of_frame (by simp) (by simp) (polled_eq _ e) hl.todo
  | timeout =>
      obtain ⟨-, rfl⟩ := guarded_eq_some.mp hstep
      exact hl.of_frame (by simp) (by simp) rfl (by simp)
  | probe rx =>
      obtain ⟨-, rfl⟩ := guarded_eq_some.mp hstep
      exact hl.of_frame (by simp) (by simp) (transfer_readFrame l.sensor 0x7F 1) (by simp)
  | readChipId rx =>
      obtain ⟨-, rfl⟩ := guarded_eq_some.mp hstep
      refine hl.of_frame (by simp) (by simp) (transfer_readFrame l.sensor 0x00 1) ?_
      intro todo htodo
      cases hchip : bmi160Init rx with
      | false => simp [hchip] at htodo
      | true =>
          obtain rfl : initWrites = todo := by simpa [hchip] using htodo
          exact ⟨by decide, List.suffix_rfl⟩
  | write delivered =>
      obtain ⟨w, todo, hpoint, rfl⟩ := step_write_eq_some hstep
      have hsuffix : w :: todo <:+ initWrites := (hl.todo _ hpoint).2
      have hw : w ∈ initWrites := hsuffix.mem List.mem_cons_self
      have hrest : ∀ todo', afterWrite todo = .writing todo' →
          todo' ≠ [] ∧ todo' <:+ initWrites := by
        intro todo' htodo'
        cases todo with
        | nil => cases htodo'
        | cons u todo =>
            cases htodo'
            exact ⟨List.cons_ne_nil u todo, (List.suffix_cons w _).trans hsuffix⟩
      cases delivered with
      | false =>
          have hwritten : written (h ++ [(l, .write false)]) = written h := by
            simp [written_append, delivers]
          refine ⟨?_, hl.own, hrest⟩
          rw [hwritten]
          exact hl.holds
      | true =>
          have hwritten : written (h ++ [(l, .write true)]) = written h ++ [w] := by
            simp [written_append, delivers, hpoint]
          refine ⟨?_, hl.own.transfer hw, hrest⟩
          intro v hv
          rw [hwritten, List.mem_append, List.mem_singleton, ← hl.holds v hv]
          exact holds_transfer l.sensor hv hw
  | sensorReset =>
      cases hstep
      refine ⟨?_, ⟨by simp [freshSensor], by simp [freshSensor]⟩, hl.todo⟩
      intro w hw
      rw [written_append]
      simp [SensorRegisters.holds, freshSensor]

theorem accounted_of_run {a : Arithmetic} {es : List LinkEvent} {l : Link}
    (hrun : run SensorLink.step (boot a) es = some l) :
    Accounted (steps SensorLink.step (boot a) es) l := by
  have hboot : Accounted [] (boot a) := by
    refine ⟨?_, ⟨by simp [boot, freshSensor], by simp [boot, freshSensor]⟩, by simp [boot]⟩
    intro w hw
    simp [SensorRegisters.holds, boot, freshSensor, written]
  exact history_of_run (fun _ _ _ _ h hs => h.step hs) hboot hrun

theorem mem_written_append {h hs : List (Link × LinkEvent)} {w : UInt8 × UInt8}
    (hreset : ∀ x ∈ hs, x.2 ≠ .sensorReset) (hw : w ∈ written h) : w ∈ written (h ++ hs) := by
  induction hs generalizing h with
  | nil => simpa using hw
  | cons x hs ih =>
      rw [List.append_cons]
      apply ih (fun y hy => hreset y (List.mem_cons_of_mem x hy))
      rw [written_append, if_neg (hreset x List.mem_cons_self)]
      exact List.mem_append_left _ hw

theorem Accounted.configured_of_run {h : List (Link × LinkEvent)} {l l' : Link}
    {fs : List LinkEvent} (hl : Accounted h l) (hconfigured : Configured l.sensor)
    (hreset : .sensorReset ∉ fs) (hlater : run SensorLink.step l fs = some l') :
    Configured l'.sensor := by
  have hl' : Accounted (h ++ steps SensorLink.step l fs) l' :=
    history_of_run (fun _ _ _ _ h hs => h.step hs) hl hlater
  intro w hw
  rw [hl'.holds w hw]
  refine mem_written_append ?_ ((hl.holds w hw).mp (hconfigured w hw))
  intro x hx heq
  exact hreset (heq ▸ event_mem_of_mem_steps hx)

/-- In every run, whatever transactions fail and whenever the sensor loses power, the
sensor holds nothing but values that `bmi160_init` writes, and it is configured exactly
if each of the eight writes has got across since it last got power, by one call or by
several. From then on polls, and calls that fail or stop half way, leave it configured as
long as it keeps its power. -/
theorem sensor_configuration (a : Arithmetic) (es fs : List LinkEvent) (l l' : Link)
    (hrun : run SensorLink.step (boot a) es = some l)
    (hlater : run SensorLink.step l fs = some l') :
    Own l.sensor ∧
      (Configured l.sensor ↔
        ∀ w ∈ initWrites, w ∈ written (steps SensorLink.step (boot a) es)) ∧
      (Configured l.sensor → .sensorReset ∉ fs → Configured l'.sensor) := by
  have hl := accounted_of_run hrun
  exact ⟨hl.own, forall₂_congr hl.holds,
    fun hconfigured hreset => hl.configured_of_run hconfigured hreset hlater⟩

/-- `bmi160_init` from its first transaction on; `delivered` are the outcomes of its
writes. -/
def initSteps (delivered : List Bool) : List LinkEvent :=
  .probe none :: .readChipId chipFound :: delivered.map .write

/-- The third write of the first call is lost; a later call makes up for it although it
loses all others. -/
def twoInits : List LinkEvent :=
  initSteps [true, true, false, true, true, true, true, true] ++
    .pipeline .give :: (iteration .take none none).map .pipeline ++
    .timeout :: initSteps [false, false, true]

theorem sensor_configuration_two_inits :
    ∃ l l', run SensorLink.step (boot .exact) twoInits = some l ∧ Configured l.sensor ∧
      run SensorLink.step l [.write false, .pipeline (.isr 5000)] = some l' ∧
      Configured l'.sensor := by
  obtain ⟨l, hrun, hl⟩ := exists_run_of_any
    (show (run SensorLink.step (boot .exact) twoInits).any (fun l =>
      (run SensorLink.step l [.write false, .pipeline (.isr 5000)]).isSome) = true by decide)
  obtain ⟨l', hlater⟩ := Option.isSome_iff_exists.mp hl
  obtain ⟨-, hconfigured, hstays⟩ := sensor_configuration .exact twoInits _ l l' hrun hlater
  have hall : (initWrites.all fun w =>
      decide (w ∈ written (steps SensorLink.step (boot .exact) twoInits))) = true := by decide
  have hwritten : Configured l.sensor :=
    hconfigured.mpr fun w hw => of_decide_eq_true (List.all_eq_true.mp hall w hw)
  exact ⟨l, l', hrun, hwritten, hlater, hstays hwritten (by decide)⟩

/-- The statements of `poll_sensor` and of `bmi160_init`. -/
def ownStatement : LinkEvent → Bool
  | .pipeline e => pollStatement e
  | .timeout | .probe _ | .readChipId _ | .write _ => true
  | .sensorReset => false

/-- The sensor answers and keeps its power, and no interrupt gives the semaphore. -/
def answered (l : Link) : LinkEvent → Bool
  | .pipeline (.isr now) => decide (now - l.pipe.lasthandshaketimeUs < 1000)
  | .readChipId rx => bmi160Init rx
  | .write delivered => delivered
  | .sensorReset => false
  | .pipeline _ | .timeout | .probe _ => true

def untilWaiting : PollPoint → ℕ
  | .start => 1
  | .waiting => 0
  | .readGyro => 5
  | .readAccel => 4
  | .publish => 3
  | .offer => 2
  | .advance => 1

/-- The statements of `poll_sensor` before its wait times out: a token that is left costs
it one more iteration. -/
def untilBlocked (p : Pipeline) : ℕ :=
  untilWaiting p.poll + if p.poll = .start ∨ p.rdySem = true then 6 else 0

/-- What is left of the call in progress gets everything across that is missing. -/
def Completes (l : Link) (todo : List (UInt8 × UInt8)) : Prop :=
  ∀ w ∈ initWrites, holds l.sensor w ∨ w ∈ todo

/-- The sensor is at most `n` answered statements away from being configured, which this
call or the next one does. -/
def Needs (n : ℕ) (l : Link) : Prop :=
  match l.init with
  | .idle => untilBlocked l.pipe + 11 ≤ n
  | .probe => 10 ≤ n
  | .readChipId => 9 ≤ n
  | .writing todo =>
      todo.length + untilBlocked l.pipe + 11 ≤ n ∨ todo.length ≤ n ∧ Completes l todo

theorem untilBlocked_le (p : Pipeline) : untilBlocked p ≤ 11 := by
  have hpoint : untilWaiting p.poll ≤ 5 := by cases p.poll <;> decide
  rw [untilBlocked]
  split <;> omega

theorem untilBlocked_lt {p q : Pipeline} {e : PipelineEvent} (hpoll : pollStatement e = true)
    (htimeout : ∀ chip, e ≠ .timeout chip) (hstep : SensorPipeline.step p e = some q) :
    untilBlocked q < untilBlocked p := by
  cases e with
  | timeout chip => exact absurd rfl (htimeout chip)
  | give =>
      obtain ⟨hp, rfl⟩ := guarded_eq_some.mp hstep
      simp [untilBlocked, untilWaiting, hp]
  | take =>
      obtain ⟨hp, rfl⟩ := guarded_eq_some.mp hstep
      simp [untilBlocked, untilWaiting, hp]
  | readGyro | readAccel | publish | offer | advance =>
      obtain ⟨hp, rfl⟩ := guarded_eq_some.mp hstep
      simp [untilBlocked, untilWaiting, hp, readGyro, readAccel, publish, offer]
  | _ => cases hpoll

/-- The other parties leave `poll_sensor` where it is. -/
theorem untilBlocked_eq {l : Link} {q : Pipeline} {e : PipelineEvent}
    (hpoll : pollStatement e = false) (hanswered : answered l (.pipeline e) = true)
    (hstep : SensorPipeline.step l.pipe e = some q) : untilBlocked q = untilBlocked l.pipe := by
  cases hinterrupt : isInterrupt e with
  | false =>
      obtain ⟨hpoint, hsem, -⟩ := other_frame hpoll hinterrupt hstep
      rw [untilBlocked, untilBlocked, hpoint, hsem]
  | true =>
      cases e with
      | isr now =>
          obtain rfl := Option.some.inj hstep
          rw [gpioHandshakeIsrHandler, if_pos (of_decide_eq_true hanswered)]
      | _ => cases hinterrupt

theorem Needs.write {n : ℕ} {l : Link} {w : UInt8 × UInt8} {todo : List (UInt8 × UInt8)}
    (h : Needs n l) (hpoint : l.init = .writing (w :: todo)) (hw : w ∈ initWrites) :
    let l' : Link := { l with
      init := afterWrite todo, sensor := l.sensor.transfer (writeFrame w) }
    Configured l'.sensor ∨ Needs (n - 1) l' ∧ 0 < n := by
  simp only [Needs, hpoint, List.length_cons] at h
  rcases h with h | ⟨h, hcompletes⟩
  · refine .inr ⟨?_, by omega⟩
    cases todo with
    | nil =>
        simp only [List.length_nil] at h
        simp only [Needs, afterWrite]
        omega
    | cons v todo =>
        refine .inl ?_
        simp only [List.length_cons] at h ⊢
        omega
  · have hrest : ∀ v ∈ initWrites, holds (l.sensor.transfer (writeFrame w)) v ∨ v ∈ todo := by
      intro v hv
      rw [holds_transfer l.sensor hv hw, or_assoc]
      exact (hcompletes v hv).imp_right List.mem_cons.mp
    cases todo with
    | nil => exact .inl fun v hv => (hrest v hv).resolve_right List.not_mem_nil
    | cons v todo => exact .inr ⟨.inr ⟨Nat.le_sub_one_of_lt h, hrest⟩, by omega⟩

/-- An answered statement of `poll_sensor` takes one off what the sensor needs, and no
other step adds to it. -/
theorem Needs.step {h : List (Link × LinkEvent)} {n : ℕ} {l l' : Link} {e : LinkEvent}
    (hl : Accounted h l) (hn : Needs n l) (hanswered : answered l e = true)
    (hstep : SensorLink.step l e = some l') :
    Configured l'.sensor ∨ ∃ m, m + (ownStatement e).toNat ≤ n ∧ Needs m l' := by
  cases e with
  | pipeline e =>
      obtain ⟨hidle, htimeout, q, hq, rfl⟩ := step_pipeline_eq_some hstep
      rw [polled_eq]
      right
      cases hpoll : pollStatement e with
      | true =>
          have hlt := untilBlocked_lt hpoll htimeout hq
          simp only [Needs, hidle hpoll] at hn
          refine ⟨n - 1, ?_, ?_⟩
          · simp only [ownStatement, hpoll, Bool.toNat_true]
            omega
          · simp only [Needs, hidle hpoll]
            omega
      | false =>
          have hsame := untilBlocked_eq hpoll hanswered hq
          refine ⟨n, by simp [ownStatement, hpoll], ?_⟩
          simpa only [Needs, hsame, Completes] using hn
  | timeout =>
      obtain ⟨⟨hidle, hwait, hsem⟩, rfl⟩ := guarded_eq_some.mp hstep
      simp only [Needs, hidle] at hn
      exact .inr ⟨10, by simp only [ownStatement, Bool.toNat_true]; omega, Nat.le_refl 10⟩
  | probe rx =>
      obtain ⟨hprobe, rfl⟩ := guarded_eq_some.mp hstep
      simp only [Needs, hprobe] at hn
      exact .inr ⟨9, hn, Nat.le_refl 9⟩
  | readChipId rx =>
      obtain ⟨hread, rfl⟩ := guarded_eq_some.mp hstep
      have hchip : bmi160Init rx = true := hanswered
      simp only [Needs, hread] at hn
      refine .inr ⟨8, hn, ?_⟩
      simp only [Needs, hchip, if_true]
      exact .inr ⟨by decide, fun w hw => .inr hw⟩
  | write delivered =>
      obtain rfl : delivered = true := hanswered
      obtain ⟨w, todo, hpoint, rfl⟩ := step_write_eq_some hstep
      have hw : w ∈ initWrites := (hl.todo _ hpoint).2.mem List.mem_cons_self
      rcases hn.write hpoint hw with hdone | ⟨hrest, hpos⟩
      · exact .inl hdone
      · exact .inr ⟨n - 1, by simp only [ownStatement, Bool.toNat_true]; omega, hrest⟩
  | sensorReset => cases hanswered

theorem not_reset_of_answered {l l' : Link} {fs : List LinkEvent}
    (hanswered : EachStep SensorLink.step (fun l e => answered l e = true) l fs)
    (hrun : run SensorLink.step l fs = some l') : .sensorReset ∉ fs := by
  induction fs generalizing l with
  | nil => exact List.not_mem_nil
  | cons e fs ih =>
      obtain ⟨u, hu, htail⟩ := run_cons_eq_some.mp hrun
      rw [List.mem_cons, not_or]
      refine ⟨?_, ih (hanswered.2 u hu) htail⟩
      rintro rfl
      cases hanswered.1

theorem Needs.run {h : List (Link × LinkEvent)} {n : ℕ} {l l' : Link} {fs : List LinkEvent}
    (hl : Accounted h l) (hn : Needs n l)
    (hanswered : EachStep SensorLink.step (fun l e => answered l e = true) l fs)
    (hrun : run SensorLink.step l fs = some l') :
    Configured l'.sensor ∨ ∃ m, m + fs.countP ownStatement ≤ n ∧ Needs m l' := by
  induction fs generalizing h n l with
  | nil =>
      cases hrun
      exact .inr ⟨n, Nat.le_refl n, hn⟩
  | cons e fs ih =>
      obtain ⟨u, hu, htail⟩ := run_cons_eq_some.mp hrun
      have hrest := hanswered.2 u hu
      rcases hn.step hl hanswered.1 hu with hdone | ⟨m, hm, hmu⟩
      · exact .inl ((hl.step hu).configured_of_run hdone (not_reset_of_answered hrest htail)
          htail)
      · refine (ih (hl.step hu) hmu hrest htail).imp_right ?_
        rintro ⟨k, hk, hkl⟩
        refine ⟨k, ?_, hkl⟩
        rw [List.countP_cons]
        cases hown : ownStatement e <;> simp [hown] at hm ⊢ <;> omega

theorem needs_thirty {h : List (Link × LinkEvent)} {l : Link} (hl : Accounted h l) :
    Needs 30 l := by
  have hblocked := untilBlocked_le l.pipe
  cases hpoint : l.init with
  | idle =>
      simp only [Needs, hpoint]
      omega
  | probe => simp [Needs, hpoint]
  | readChipId => simp [Needs, hpoint]
  | writing todo =>
      have hlength : todo.length ≤ 8 := (hl.todo todo hpoint).2.length_le
      simp only [Needs, hpoint]
      exact .inl (by omega)

theorem Needs.pos {h : List (Link × LinkEvent)} {n : ℕ} {l : Link} (hl : Accounted h l)
    (hn : Needs n l) : 0 < n := by
  cases hpoint : l.init with
  | writing todo =>
      have hlength := List.length_pos_of_ne_nil (hl.todo todo hpoint).1
      simp only [Needs, hpoint] at hn
      omega
  | _ =>
      simp only [Needs, hpoint] at hn
      omega

/-- Nothing keeps `poll_sensor` from its next statement. -/
theorem exists_ownStatement {h : List (Link × LinkEvent)} {l : Link} (hl : Accounted h l) :
    ∃ e l', SensorLink.step l e = some l' ∧ ownStatement e = true ∧ answered l e = true := by
  cases hpoint : l.init with
  | idle =>
      have hpoll : ∀ e q, pollStatement e = true → (∀ chip, e ≠ .timeout chip) →
          SensorPipeline.step l.pipe e = some q →
          ∃ e l', SensorLink.step l e = some l' ∧ ownStatement e = true ∧
            answered l e = true := by
        intro e q hown htimeout hq
        refine ⟨.pipeline e, _, step_pipeline_of_idle hpoint htimeout hq, hown, ?_⟩
        cases e with
        | isr now => cases hown
        | _ => rfl
      cases hp : l.pipe.poll with
      | start => exact hpoll .give _ rfl (by simp) (guarded_eq_some.mpr ⟨hp, rfl⟩)
      | waiting =>
          cases hsem : l.pipe.rdySem with
          | true => exact hpoll .take _ rfl (by simp) (guarded_eq_some.mpr ⟨⟨hp, hsem⟩, rfl⟩)
          | false =>
              exact ⟨.timeout, _, guarded_eq_some.mpr ⟨⟨hpoint, hp, hsem⟩, rfl⟩, rfl, rfl⟩
      | readGyro =>
          exact hpoll (.readGyro (Vector.replicate 12 0) none) _ rfl (by simp)
            (guarded_eq_some.mpr ⟨hp, rfl⟩)
      | readAccel =>
          exact hpoll (.readAccel none) _ rfl (by simp) (guarded_eq_some.mpr ⟨hp, rfl⟩)
      | publish => exact hpoll .publish _ rfl (by simp) (guarded_eq_some.mpr ⟨hp, rfl⟩)
      | offer => exact hpoll .offer _ rfl (by simp) (guarded_eq_some.mpr ⟨hp, rfl⟩)
      | advance => exact hpoll .advance _ rfl (by simp) (guarded_eq_some.mpr ⟨hp, rfl⟩)
  | probe => exact ⟨.probe none, _, guarded_eq_some.mpr ⟨hpoint, rfl⟩, rfl, rfl⟩
  | readChipId =>
      have hfound : bmi160Init chipFound = true := by decide
      exact ⟨.readChipId chipFound, _, guarded_eq_some.mpr ⟨hpoint, rfl⟩, rfl, hfound⟩
  | writing todo =>
      cases todo with
      | nil => exact absurd rfl (hl.todo [] hpoint).1
      | cons w todo =>
          have hwrite : (SensorLink.step l (.write true)).isSome := by
            simp [SensorLink.step, hpoint]
          obtain ⟨l', hstep⟩ := Option.isSome_iff_exists.mp hwrite
          exact ⟨.write true, l', hstep, rfl, rfl⟩

theorem exists_ownStatements {h : List (Link × LinkEvent)} {l : Link} (hl : Accounted h l)
    (n : ℕ) : ∃ fs l', run SensorLink.step l fs = some l' ∧ fs.length = n ∧
      (∀ e ∈ fs, ownStatement e = true) ∧
      EachStep SensorLink.step (fun l e => answered l e = true) l fs := by
  induction n generalizing h l with
  | zero => exact ⟨[], l, rfl, rfl, by simp, trivial⟩
  | succ n ih =>
      obtain ⟨e, u, hu, hown, hanswered⟩ := exists_ownStatement hl
      obtain ⟨fs, l', hrun, hlength, hall, heach⟩ := ih (hl.step hu)
      refine ⟨e :: fs, l', run_cons_eq_some.mpr ⟨u, hu, hrun⟩, by simp [hlength], ?_,
        hanswered, ?_⟩
      · exact List.forall_mem_cons.mpr ⟨hown, hall⟩
      · intro v hv
        obtain rfl := Option.some.inj (hu.symm.trans hv)
        exact heach

/-- The sensor is never lost: from every state that a run can reach, whatever has failed
before, every continuation in which the sensor answers and no interrupt cuts the wait of
`poll_sensor` short has it configured after at most thirty of the task's own statements;
and nothing keeps the task from making them. -/
theorem sensor_recoverable (a : Arithmetic) (es : List LinkEvent) (l : Link)
    (hrun : run SensorLink.step (boot a) es = some l) :
    (∀ fs l', run SensorLink.step l fs = some l' →
      EachStep SensorLink.step (fun l e => answered l e = true) l fs →
      30 ≤ fs.countP ownStatement → Configured l'.sensor) ∧
    ∀ n, ∃ fs l', run SensorLink.step l fs = some l' ∧ fs.length = n ∧
      (∀ e ∈ fs, ownStatement e = true) ∧
      EachStep SensorLink.step (fun l e => answered l e = true) l fs := by
  have hl := accounted_of_run hrun
  refine ⟨?_, exists_ownStatements hl⟩
  intro fs l' hfs hanswered hcount
  rcases (needs_thirty hl).run hl hanswered hfs with hdone | ⟨m, hm, hmu⟩
  · exact hdone
  · have hpos := hmu.pos (history_of_run (fun _ _ _ _ h hs => h.step hs) hl hfs)
    omega

/-- The sensor loses power while `bmi160_init` is writing, and thirty statements later it
is set up again. -/
theorem sensor_recoverable_power_loss :
    ∃ l fs l', run SensorLink.step (boot .exact)
        [.probe none, .readChipId chipFound, .write true, .sensorReset] = some l ∧
      run SensorLink.step l fs = some l' ∧ fs.length = 30 ∧ Configured l'.sensor := by
  obtain ⟨l, hrun, -⟩ := exists_run_of_any
    (show (run SensorLink.step (boot .exact)
        [.probe none, .readChipId chipFound, .write true, .sensorReset]).any
      (fun _ => true) = true by decide)
  obtain ⟨hall, hnext⟩ := sensor_recoverable .exact _ l hrun
  obtain ⟨fs, l', hfs, hlength, hown, hanswered⟩ := hnext 30
  have hcount : fs.countP ownStatement = 30 := (List.countP_eq_length.mpr hown).trans hlength
  exact ⟨l, fs, l', hrun, hfs, hlength, hall fs l' hfs hanswered hcount.ge⟩

end BikeMcu.SensorRegisters
