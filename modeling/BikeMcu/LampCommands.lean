import Mathlib.Logic.Function.Basic

/-!
The lamp commands of `i2c.c`. Every `send_*_signal` takes `cmd_mutex`, records
its byte in `lastCommand`, transmits what `lastCommand` then holds and gives the
mutex back; the four statements are four steps that other tasks may separate.
-/

namespace BikeMcu.LampCommands

inductive SendPoint where
  | outside
  | waiting (c : UInt8)
  | taken (c : UInt8)
  | recorded (c : UInt8)
  | sent (c : UInt8)
  deriving DecidableEq, Repr

def SendPoint.critical : SendPoint → Bool
  | .outside | .waiting _ => false
  | .taken _ | .recorded _ | .sent _ => true

def SendPoint.unsent : SendPoint → Bool
  | .waiting _ | .taken _ | .recorded _ => true
  | .outside | .sent _ => false

/-- The globals of `i2c.c` and the tasks' positions in it. `issued` and
`acquired` log the calls and the takes, `bus` the bytes the LED controller
accepted with the task that sent them, all newest first. -/
structure Lamp (Task : Type) where
  cmdMutex : Option Task
  lastCommand : UInt8
  point : Task → SendPoint
  issued : List (Task × UInt8)
  acquired : List (Task × UInt8)
  bus : List (Task × UInt8)

def Lamp.lastByte {Task : Type} (l : Lamp Task) : Option UInt8 :=
  l.bus.head?.map Prod.snd

def Lamp.setPoint {Task : Type} [DecidableEq Task] (l : Lamp Task) (t : Task)
    (p : SendPoint) : Lamp Task :=
  { l with point := Function.update l.point t p }

/-- Entry of the body that the five `send_*_signal` functions share; the byte
is their only difference. -/
def sendSignal {Task : Type} [DecidableEq Task] (c : UInt8) (l : Lamp Task)
    (t : Task) : Option (Lamp Task) :=
  match l.point t with
  | .outside =>
      some { l.setPoint t (.waiting c) with issued := (t, c) :: l.issued }
  | _ => none

def sendBrakeSignal {Task : Type} [DecidableEq Task] :
    Lamp Task → Task → Option (Lamp Task) :=
  sendSignal 'B'.toUInt8

def sendLeftSignal {Task : Type} [DecidableEq Task] :
    Lamp Task → Task → Option (Lamp Task) :=
  sendSignal 'L'.toUInt8

def sendRightSignal {Task : Type} [DecidableEq Task] :
    Lamp Task → Task → Option (Lamp Task) :=
  sendSignal 'R'.toUInt8

def sendOffSignal {Task : Type} [DecidableEq Task] :
    Lamp Task → Task → Option (Lamp Task) :=
  sendSignal 'O'.toUInt8

def sendNormalSignal {Task : Type} [DecidableEq Task] :
    Lamp Task → Task → Option (Lamp Task) :=
  sendSignal 'N'.toUInt8

inductive Signal where
  | brake
  | left
  | right
  | off
  | normal
  deriving DecidableEq, Repr

def Signal.byte : Signal → UInt8
  | .brake => 'B'.toUInt8
  | .left => 'L'.toUInt8
  | .right => 'R'.toUInt8
  | .off => 'O'.toUInt8
  | .normal => 'N'.toUInt8

def Signal.send {Task : Type} [DecidableEq Task] :
    Signal → Lamp Task → Task → Option (Lamp Task)
  | .brake => sendBrakeSignal
  | .left => sendLeftSignal
  | .right => sendRightSignal
  | .off => sendOffSignal
  | .normal => sendNormalSignal

theorem Signal.send_eq {Task : Type} [DecidableEq Task] (g : Signal)
    (l : Lamp Task) (t : Task) : g.send l t = sendSignal g.byte l t := by
  cases g <;> rfl

/-- The statements inside a call. `transmit` carries the outcome of the I2C
transfer, which `send_*_signal` ignores. -/
inductive LampStep where
  | take
  | record
  | transmit (ok : Bool)
  | give
  deriving DecidableEq, Repr

def step {Task : Type} [DecidableEq Task] (l : Lamp Task) (t : Task) :
    LampStep → Option (Lamp Task)
  | .take =>
      match l.point t, l.cmdMutex with
      | .waiting c, none =>
          some { l.setPoint t (.taken c) with
            cmdMutex := some t, acquired := (t, c) :: l.acquired }
      | _, _ => none
  | .record =>
      match l.point t with
      | .taken c => some { l.setPoint t (.recorded c) with lastCommand := c }
      | _ => none
  | .transmit ok =>
      match l.point t with
      | .recorded c =>
          some { l.setPoint t (.sent c) with
            bus := if ok then (t, l.lastCommand) :: l.bus else l.bus }
      | _ => none
  | .give =>
      match l.point t with
      | .sent _ => some { l.setPoint t .outside with cmdMutex := none }
      | _ => none

@[simp] theorem point_setPoint_self {Task : Type} [DecidableEq Task]
    (l : Lamp Task) (t : Task) (p : SendPoint) :
    (l.setPoint t p).point t = p := by
  simp [Lamp.setPoint]

@[simp] theorem cmdMutex_setPoint {Task : Type} [DecidableEq Task]
    (l : Lamp Task) (t : Task) (p : SendPoint) :
    (l.setPoint t p).cmdMutex = l.cmdMutex := rfl

@[simp] theorem lastCommand_setPoint {Task : Type} [DecidableEq Task]
    (l : Lamp Task) (t : Task) (p : SendPoint) :
    (l.setPoint t p).lastCommand = l.lastCommand := rfl

@[simp] theorem bus_setPoint {Task : Type} [DecidableEq Task] (l : Lamp Task)
    (t : Task) (p : SendPoint) : (l.setPoint t p).bus = l.bus := rfl

theorem point_setPoint_of_ne {Task : Type} [DecidableEq Task] (l : Lamp Task)
    {t u : Task} (p : SendPoint) (h : u ≠ t) :
    (l.setPoint t p).point u = l.point u := by
  simp [Lamp.setPoint, h]

theorem sendSignal_eq_some {Task : Type} [DecidableEq Task] {c : UInt8}
    {l l' : Lamp Task} {t : Task} (h : sendSignal c l t = some l') :
    l.point t = .outside ∧
      l' = { l.setPoint t (.waiting c) with issued := (t, c) :: l.issued } := by
  unfold sendSignal at h
  split at h
  · exact ⟨‹_›, (Option.some.inj h).symm⟩
  · cases h

theorem step_eq_some {Task : Type} [DecidableEq Task] {l l' : Lamp Task}
    {t : Task} {a : LampStep} (h : step l t a = some l') :
    (∃ c, a = .take ∧ l.point t = .waiting c ∧ l.cmdMutex = none ∧
      l' = { l.setPoint t (.taken c) with
        cmdMutex := some t, acquired := (t, c) :: l.acquired }) ∨
    (∃ c, a = .record ∧ l.point t = .taken c ∧
      l' = { l.setPoint t (.recorded c) with lastCommand := c }) ∨
    (∃ c ok, a = .transmit ok ∧ l.point t = .recorded c ∧
      l' = { l.setPoint t (.sent c) with
        bus := if ok then (t, l.lastCommand) :: l.bus else l.bus }) ∨
    (∃ c, a = .give ∧ l.point t = .sent c ∧
      l' = { l.setPoint t .outside with cmdMutex := none }) := by
  cases a with
  | take =>
      simp only [step] at h
      split at h
      · exact .inl ⟨_, rfl, ‹_›, ‹_›, (Option.some.inj h).symm⟩
      · cases h
  | record =>
      simp only [step] at h
      split at h
      · exact .inr (.inl ⟨_, rfl, ‹_›, (Option.some.inj h).symm⟩)
      · cases h
  | transmit ok =>
      simp only [step] at h
      split at h
      · exact .inr (.inr (.inl ⟨_, ok, rfl, ‹_›, (Option.some.inj h).symm⟩))
      · cases h
  | give =>
      simp only [step] at h
      split at h
      · exact .inr (.inr (.inr ⟨_, rfl, ‹_›, (Option.some.inj h).symm⟩))
      · cases h

theorem step_frame {Task : Type} [DecidableEq Task] {l l' : Lamp Task}
    {t : Task} {a : LampStep} (h : step l t a = some l') :
    l.point t ≠ .outside ∧ ∀ u, u ≠ t → l'.point u = l.point u := by
  rcases step_eq_some h with ⟨c, rfl, hp, -, rfl⟩ | ⟨c, rfl, hp, rfl⟩ |
    ⟨c, ok, rfl, hp, rfl⟩ | ⟨c, rfl, hp, rfl⟩
  all_goals exact ⟨by simp [hp], fun u hu => point_setPoint_of_ne l _ hu⟩

def SendPoint.Pending (c : UInt8) (p : SendPoint) : Prop :=
  p = .waiting c ∨ p = .taken c ∨ p = .recorded c

def SendPoint.Finished (c : UInt8) (p : SendPoint) : Prop :=
  p = .sent c ∨ p = .outside

theorem SendPoint.Pending.unsent {c : UInt8} {p : SendPoint} (h : p.Pending c) :
    p.unsent = true := by
  rcases h with rfl | rfl | rfl <;> rfl

theorem SendPoint.Finished.unsent {c : UInt8} {p : SendPoint} (h : p.Finished c) :
    p.unsent = false := by
  rcases h with rfl | rfl <;> rfl

/-- What the step of another task `u` does to `t`: nothing but a byte on the bus,
sent from inside `u`'s critical section. -/
theorem step_other {Task : Type} [DecidableEq Task] {l l' : Lamp Task}
    {t u : Task} {a : LampStep} (h : step l u a = some l') (htu : t ≠ u) :
    l'.point t = l.point t ∧ (l'.bus = l.bus ∨
      (l.point u).critical = true ∧ ∃ c, l'.bus = (u, c) :: l.bus) := by
  refine ⟨(step_frame h).2 t htu, ?_⟩
  rcases step_eq_some h with ⟨c, -, -, -, rfl⟩ | ⟨c, -, -, rfl⟩ |
    ⟨c, ok, -, hu, rfl⟩ | ⟨c, -, -, rfl⟩
  · exact .inl rfl
  · exact .inl rfl
  · cases ok with
    | false => exact .inl rfl
    | true => exact .inr ⟨by simp [hu, SendPoint.critical], _, rfl⟩
  · exact .inl rfl

/-- Mutual exclusion tied to the program points: the mutex names exactly the
task inside a critical section, and a byte once recorded stays in
`lastCommand` until it is given up. -/
structure Exclusive {Task : Type} (l : Lamp Task) : Prop where
  holder : ∀ t, l.cmdMutex = some t ↔ (l.point t).critical = true
  recorded : ∀ t c, l.point t = .recorded c → l.lastCommand = c
  sent : ∀ t c, l.point t = .sent c → l.lastCommand = c

theorem Exclusive.unique {Task : Type} {l : Lamp Task} (h : Exclusive l)
    {t u : Task} (ht : (l.point t).critical = true)
    (hu : (l.point u).critical = true) : t = u := by
  have hmutex := (h.holder t).mpr ht
  rw [(h.holder u).mpr hu] at hmutex
  exact (Option.some.inj hmutex).symm

/-- Only task `t` moves. The lamp stays exclusive when the mutex follows `t`'s
new point and `lastCommand` is written only by a task inside its critical
section. -/
theorem Exclusive.of_move {Task : Type} {l l' : Lamp Task} {t : Task}
    (h : Exclusive l)
    (hpoint : ∀ u, u ≠ t → l'.point u = l.point u)
    (hholder : l'.cmdMutex = some t ↔ (l'.point t).critical = true)
    (hmutex : ∀ u, u ≠ t → (l'.cmdMutex = some u ↔ l.cmdMutex = some u))
    (hrecorded : ∀ c, l'.point t = .recorded c → l'.lastCommand = c)
    (hsent : ∀ c, l'.point t = .sent c → l'.lastCommand = c)
    (hwrite : l'.lastCommand = l.lastCommand ∨ (l.point t).critical = true) :
    Exclusive l' := by
  -- another task inside its critical section rules out a write by `t`
  have hkeep : ∀ u, u ≠ t → (l.point u).critical = true →
      l'.lastCommand = l.lastCommand := by
    intro u hne hu
    rcases hwrite with heq | ht
    · exact heq
    · exact absurd (h.unique hu ht) hne
  refine ⟨?_, ?_, ?_⟩
  · intro u
    by_cases hut : u = t
    · exact hut ▸ hholder
    · rw [hmutex u hut, hpoint u hut]
      exact h.holder u
  · intro u c hu
    by_cases hut : u = t
    · exact hrecorded c (hut ▸ hu)
    · rw [hpoint u hut] at hu
      rw [hkeep u hut (by simp [hu, SendPoint.critical])]
      exact h.recorded u c hu
  · intro u c hu
    by_cases hut : u = t
    · exact hsent c (hut ▸ hu)
    · rw [hpoint u hut] at hu
      rw [hkeep u hut (by simp [hu, SendPoint.critical])]
      exact h.sent u c hu

theorem Exclusive.sendSignal {Task : Type} [DecidableEq Task] {c : UInt8}
    {l l' : Lamp Task} {t : Task} (h : Exclusive l)
    (hcall : LampCommands.sendSignal c l t = some l') : Exclusive l' := by
  obtain ⟨hout, rfl⟩ := sendSignal_eq_some hcall
  have hfree : l.cmdMutex ≠ some t := by
    simp [h.holder t, hout, SendPoint.critical]
  refine h.of_move (fun u hu => point_setPoint_of_ne l _ hu) ?_
    (fun u _ => Iff.rfl) ?_ ?_ (.inl rfl)
  · simpa [SendPoint.critical] using hfree
  · simp
  · simp

theorem Exclusive.step {Task : Type} [DecidableEq Task] {l l' : Lamp Task}
    {t : Task} {a : LampStep} (h : Exclusive l)
    (hstep : LampCommands.step l t a = some l') : Exclusive l' := by
  rcases step_eq_some hstep with ⟨c, rfl, hp, hfree, rfl⟩ | ⟨c, rfl, hp, rfl⟩ |
    ⟨c, ok, rfl, hp, rfl⟩ | ⟨c, rfl, hp, rfl⟩
  · refine h.of_move (fun u hu => point_setPoint_of_ne l _ hu) ?_
      (fun u hu => ?_) ?_ ?_ (.inl rfl)
    · simp [SendPoint.critical]
    · simp [hfree, Ne.symm hu]
    · simp
    · simp
  · have ht : l.cmdMutex = some t := (h.holder t).mpr (by simp [hp, SendPoint.critical])
    refine h.of_move (fun u hu => point_setPoint_of_ne l _ hu) ?_
      (fun u _ => Iff.rfl) ?_ ?_ (.inr (by simp [hp, SendPoint.critical]))
    · simpa [SendPoint.critical] using ht
    · simp
    · simp
  · have ht : l.cmdMutex = some t := (h.holder t).mpr (by simp [hp, SendPoint.critical])
    refine h.of_move (fun u hu => point_setPoint_of_ne l _ hu) ?_
      (fun u _ => Iff.rfl) ?_ ?_ (.inl rfl)
    · simpa [SendPoint.critical] using ht
    · simp
    · simpa using h.recorded t c hp
  · have ht : l.cmdMutex = some t := (h.holder t).mpr (by simp [hp, SendPoint.critical])
    refine h.of_move (fun u hu => point_setPoint_of_ne l _ hu) ?_
      (fun u hu => ?_) ?_ ?_ (.inl rfl)
    · simp [SendPoint.critical]
    · simp [ht, Ne.symm hu]
    · simp
    · simp

theorem Exclusive.step_pending {Task : Type} [DecidableEq Task]
    {l l' : Lamp Task} {t : Task} {a : LampStep} {c : UInt8} (h : Exclusive l)
    (hok : a ≠ .transmit false) (hp : (l.point t).Pending c)
    (hstep : LampCommands.step l t a = some l') :
    (l'.point t).Pending c ∧ l'.bus = l.bus ∨
      (l'.point t).Finished c ∧ l'.bus = (t, c) :: l.bus := by
  rcases step_eq_some hstep with ⟨d, rfl, hd, -, rfl⟩ | ⟨d, rfl, hd, rfl⟩ |
    ⟨d, ok, rfl, hd, rfl⟩ | ⟨d, rfl, hd, rfl⟩
  · have hcd : d = c := by simpa [SendPoint.Pending, hd] using hp
    exact .inl ⟨.inr (.inl (by simp [hcd])), rfl⟩
  · have hcd : d = c := by simpa [SendPoint.Pending, hd] using hp
    exact .inl ⟨.inr (.inr (by simp [hcd])), rfl⟩
  · have hcd : d = c := by simpa [SendPoint.Pending, hd] using hp
    have hlast : l.lastCommand = c := hcd ▸ h.recorded t d hd
    cases ok with
    | false => exact absurd rfl hok
    | true => exact .inr ⟨.inl (by simp [hcd]), by simp [hlast]⟩
  · simp [SendPoint.Pending, hd] at hp

theorem step_finished {Task : Type} [DecidableEq Task] {l l' : Lamp Task}
    {t : Task} {a : LampStep} {c : UInt8} (hp : (l.point t).Finished c)
    (hstep : step l t a = some l') :
    (l'.point t).Finished c ∧ l'.bus = l.bus := by
  rcases step_eq_some hstep with ⟨d, rfl, hd, -, rfl⟩ | ⟨d, rfl, hd, rfl⟩ |
    ⟨d, ok, rfl, hd, rfl⟩ | ⟨d, rfl, hd, rfl⟩
  · simp [SendPoint.Finished, hd] at hp
  · simp [SendPoint.Finished, hd] at hp
  · simp [SendPoint.Finished, hd] at hp
  · exact ⟨.inr (by simp), rfl⟩

theorem Exclusive.head_step {Task : Type} [DecidableEq Task] {l l' : Lamp Task}
    {t : Task} {a : LampStep} (h : Exclusive l) (hok : a ≠ .transmit false)
    (hhead : ∀ u c, l.point u = .sent c → l.bus.head? = some (u, c))
    (hstep : LampCommands.step l t a = some l') :
    ∀ u c, l'.point u = .sent c → l'.bus.head? = some (u, c) := by
  intro u c hu
  by_cases hut : u = t
  · subst u
    rcases step_eq_some hstep with ⟨d, rfl, hd, -, rfl⟩ | ⟨d, rfl, hd, rfl⟩ |
      ⟨d, ok, rfl, hd, rfl⟩ | ⟨d, rfl, hd, rfl⟩
    · simp at hu
    · simp at hu
    · cases ok with
      | false => exact absurd rfl hok
      | true =>
          have hdc : d = c := by simpa using hu
          simp [h.recorded t d hd, hdc]
    · simp at hu
  · have hold : l.point u = .sent c := (step_frame hstep).2 u hut ▸ hu
    rcases (step_other hstep hut).2 with hbus | ⟨ht, -⟩
    · exact hbus ▸ hhead u c hold
    · exact absurd (h.unique (by simp [hold, SendPoint.critical]) ht) hut

end BikeMcu.LampCommands
