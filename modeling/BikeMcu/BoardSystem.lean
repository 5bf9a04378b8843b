import BikeMcu.TransitionSystem
import BikeMcu.UdpServer
import BikeMcu.NetworkLifecycle
import BikeMcu.BrakeDetector

namespace BikeMcu.BoardSystem

open BikeMcu.TransitionSystem
open BikeMcu.LampCommands
open BikeMcu.Storage
open BikeMcu.UdpServer
open BikeMcu.WifiConnect
open BikeMcu.NetworkLifecycle
open BikeMcu.BrakeDetector

structure Board where
  net : Network
  lamp : Lamp Task
  bmcuTaillightEnable : Bool
  detector : DetectPoint
  udp : Server

abbrev udpTask : Task := .network .udpServer

def sendAlone {Task : Type} (g : Signal) (ok : Bool) (t : Task) (l : Lamp Task) :
    Lamp Task :=
  { l with
    lastCommand := g.byte
    issued := (t, g.byte) :: l.issued
    acquired := (t, g.byte) :: l.acquired
    bus := if ok then (t, g.byte) :: l.bus else l.bus }

theorem sendAlone_eq {Task : Type} [DecidableEq Task] (g : Signal) (ok : Bool)
    (t : Task) (l : Lamp Task) (hfree : l.cmdMutex = none)
    (hout : l.point t = .outside) :
    ((((g.send l t).bind fun l => LampCommands.step l t .take).bind fun l =>
      LampCommands.step l t .record).bind fun l =>
        LampCommands.step l t (.transmit ok)).bind (fun l =>
          LampCommands.step l t .give) = some (sendAlone g ok t l) := by
  have hupdate : Function.update l.point t .outside = l.point := by
    rw [← hout, Function.update_eq_self]
  rw [Signal.send_eq]
  simp [sendSignal, LampCommands.step, hout, hfree, Lamp.setPoint, sendAlone, hupdate]

def lampInit : Lamp Task :=
  { cmdMutex := none, lastCommand := 0, point := fun _ => .outside,
    issued := [], acquired := [], bus := [] }

/-- The end of `i2c_init`: what it sends for the byte it read back, and the value
it leaves in `BMCU_TAILLIGHT_ENABLE`. -/
def bootMode (lastState : UInt8) : Signal × Bool :=
  if lastState = 'O'.toUInt8 then (.off, false) else (.normal, true)

def i2cInit (lastState : UInt8) (ok : Fin 4 → Bool) : Lamp Task × Bool :=
  let l := sendAlone .left (ok 0) .appMain lampInit
  let l := sendAlone .right (ok 1) .appMain l
  let l := sendAlone .brake (ok 2) .appMain l
  (sendAlone (bootMode lastState).1 (ok 3) .appMain l, (bootMode lastState).2)

/-- The board when `app_main` reaches `wifi_init_sta`, for the persisted mode
and the outcomes of the boot's NVS read and I2C transfers. -/
def boot (n : Nvs) (read : Bool) (ok : Fin 4 → Bool) : Board :=
  let r := i2cInit (storageReadChar read n.reboot) ok
  { net := NetworkLifecycle.init
    lamp := r.1
    bmcuTaillightEnable := r.2
    detector := .sampling
    udp := UdpServer.init n.reboot }

theorem sender_sendAlone {Task : Type} {g : Signal} {ok : Bool} {t : Task}
    {l : Lamp Task} {e : Task × UInt8} (he : e ∈ (sendAlone g ok t l).bus) :
    e.1 = t ∨ e ∈ l.bus := by
  cases ok with
  | false => exact .inr he
  | true =>
      rcases List.mem_cons.mp he with rfl | hold
      · exact .inl rfl
      · exact .inr hold

theorem sender_boot {n : Nvs} {read : Bool} {ok : Fin 4 → Bool} {e : Task × UInt8}
    (he : e ∈ (boot n read ok).lamp.bus) : e.1 = .appMain := by
  rcases sender_sendAlone he with h | he
  · exact h
  rcases sender_sendAlone he with h | he
  · exact h
  rcases sender_sendAlone he with h | he
  · exact h
  rcases sender_sendAlone he with h | he
  · exact h
  · cases he

def restoreSignal (b : Board) : Signal :=
  if b.bmcuTaillightEnable then .normal else .off

inductive DetectStep where
  | brake
  | signalled
  | wake
  | restored
  deriving DecidableEq, Repr

/-- `detect_brake_1` around a hold. Which windows brake is left open here. -/
def detectStep (b : Board) : DetectStep → Option Board
  | .brake =>
      if b.detector = .sampling then
        (sendBrakeSignal b.lamp .detectBrake1).map fun l =>
          { b with lamp := l, detector := .braking }
      else none
  | .signalled =>
      if b.detector = .braking ∧ b.lamp.point .detectBrake1 = .outside then
        some { b with detector := .holding }
      else none
  | .wake =>
      if b.detector = .holding then
        ((restoreSignal b).send b.lamp .detectBrake1).map fun l =>
          { b with lamp := l, detector := .restoring }
      else none
  | .restored =>
      if b.detector = .restoring ∧ b.lamp.point .detectBrake1 = .outside then
        some { b with detector := .sampling }
      else none

/-- The switch of `ESP_GATTC_NOTIFY_EVT` on the byte read at `notify.value`. -/
def notifyCommand (cmd : UInt8) : Option Signal :=
  if cmd = 'L'.toUInt8 then some .left
  else if cmd = 'R'.toUInt8 then some .right
  else if cmd = 'N'.toUInt8 then some .normal
  else none

def udpEffect (b : Board) : UdpStep → Option Board
  | .call g => (g.send b.lamp udpTask).map fun l => { b with lamp := l }
  | .returned => if b.lamp.point udpTask = .outside then some b else none
  | .exit => (NetworkLifecycle.step b.net .udpExit).map fun n => { b with net := n }
  | _ => some b

inductive BoardEvent where
  | post (e : WifiEvent)
  | main (ok : Bool)
  | monitor
  | lamp (t : Task) (a : LampStep)
  | detect (a : DetectStep)
  | udp (a : UdpStep)
  | notify (cmd : UInt8)
  deriving DecidableEq, Repr

def alive (b : Board) (t : Task) : Prop :=
  b.net.tasks.status t = .alive

instance (b : Board) (t : Task) : Decidable (alive b t) :=
  inferInstanceAs (Decidable (_ = _))

def netStep (b : Board) (e : NetworkEvent) : Option Board :=
  (NetworkLifecycle.step b.net e).map fun n => { b with net := n }

/-- One statement of one task. A task that does not exist takes no step. -/
def step (b : Board) : BoardEvent → Option Board
  | .post e => netStep b (.post e)
  | .main ok => netStep b (.main ok)
  | .monitor => netStep b .monitor
  | .lamp t a =>
      if alive b t then
        (LampCommands.step b.lamp t a).map fun l => { b with lamp := l }
      else none
  | .detect a => detectStep b a
  | .udp a =>
      if alive b udpTask then
        (UdpServer.step b.udp a).bind fun u =>
          (udpEffect b a).map fun b' => { b' with udp := u }
      else none
  | .notify cmd =>
      if b.lamp.point .bleCallback = .outside then
        match notifyCommand cmd with
        | some g => (g.send b.lamp .bleCallback).map fun l => { b with lamp := l }
        | none => some b
      else none

def online : List BoardEvent :=
  [.main true, .main true, .main true, .post .staStart, .main true,
    .post .staGotIp, .main true, .main true, .monitor, .main true, .main true]

theorem detectStep_cases {b b' : Board} {a : DetectStep}
    (h : detectStep b a = some b') :
    (b.detector = .sampling ∧
      ∃ l, sendSignal 'B'.toUInt8 b.lamp .detectBrake1 = some l ∧
        b' = { b with lamp := l, detector := .braking }) ∨
    (b.detector = .braking ∧ b.lamp.point .detectBrake1 = .outside ∧
      b' = { b with detector := .holding }) ∨
    (b.detector = .holding ∧
      ∃ l, sendSignal (restoreSignal b).byte b.lamp .detectBrake1 = some l ∧
        b' = { b with lamp := l, detector := .restoring }) ∨
    (b.detector = .restoring ∧ b.lamp.point .detectBrake1 = .outside ∧
      b' = { b with detector := .sampling }) := by
  cases a with
  | brake =>
      simp only [detectStep] at h
      split at h
      · obtain ⟨l, hl, rfl⟩ := Option.map_eq_some_iff.mp h
        exact .inl ⟨‹_›, l, hl, rfl⟩
      · cases h
  | signalled =>
      simp only [detectStep] at h
      split at h
      · rename_i hguard
        exact .inr (.inl ⟨hguard.1, hguard.2, (Option.some.inj h).symm⟩)
      · cases h
  | wake =>
      simp only [detectStep] at h
      split at h
      · obtain ⟨l, hl, rfl⟩ := Option.map_eq_some_iff.mp h
        rw [Signal.send_eq] at hl
        exact .inr (.inr (.inl ⟨‹_›, l, hl, rfl⟩))
      · cases h
  | restored =>
      simp only [detectStep] at h
      split at h
      · rename_i hguard
        exact .inr (.inr (.inr ⟨hguard.1, hguard.2, (Option.some.inj h).symm⟩))
      · cases h

theorem net_detectStep {b b' : Board} {a : DetectStep}
    (h : detectStep b a = some b') : b'.net = b.net := by
  rcases detectStep_cases h with ⟨-, l, -, rfl⟩ | ⟨-, -, rfl⟩ | ⟨-, l, -, rfl⟩ |
    ⟨-, -, rfl⟩
  all_goals rfl

theorem udpEffect_cases {b b' : Board} {a : UdpStep} (h : udpEffect b a = some b') :
    (∃ g l, a = .call g ∧ sendSignal g.byte b.lamp udpTask = some l ∧
      b' = { b with lamp := l }) ∨
    (a = .returned ∧ b.lamp.point udpTask = .outside ∧ b' = b) ∨
    (∃ n, a = .exit ∧ NetworkLifecycle.step b.net .udpExit = some n ∧
      b' = { b with net := n }) ∨
    ((∀ g, a ≠ .call g) ∧ a ≠ .returned ∧ a ≠ .exit ∧ b' = b) := by
  cases a with
  | call g =>
      obtain ⟨l, hl, rfl⟩ := Option.map_eq_some_iff.mp h
      rw [Signal.send_eq] at hl
      exact .inl ⟨g, l, rfl, hl, rfl⟩
  | returned =>
      simp only [udpEffect] at h
      split at h
      · exact .inr (.inl ⟨rfl, ‹_›, (Option.some.inj h).symm⟩)
      · cases h
  | exit =>
      obtain ⟨n, hn, rfl⟩ := Option.map_eq_some_iff.mp h
      exact .inr (.inr (.inl ⟨n, rfl, hn, rfl⟩))
  | _ => exact .inr (.inr (.inr ⟨by simp, by simp, by simp, (Option.some.inj h).symm⟩))

theorem net_udpEffect {b b' : Board} {a : UdpStep} (ha : a ≠ .exit)
    (h : udpEffect b a = some b') : b'.net = b.net := by
  rcases udpEffect_cases h with ⟨g, l, -, -, rfl⟩ | ⟨-, -, rfl⟩ | ⟨n, hexit, -⟩ |
    ⟨-, -, -, rfl⟩
  · rfl
  · rfl
  · exact absurd hexit ha
  · rfl

theorem netStep_eq_some {b b' : Board} {e : NetworkEvent}
    (h : netStep b e = some b') :
    ∃ n, NetworkLifecycle.step b.net e = some n ∧ b' = { b with net := n } := by
  obtain ⟨n, hn, rfl⟩ := Option.map_eq_some_iff.mp h
  exact ⟨n, hn, rfl⟩

theorem step_udp_eq_some {b b' : Board} {a : UdpStep}
    (h : step b (.udp a) = some b') :
    alive b udpTask ∧ ∃ u b₁, UdpServer.step b.udp a = some u ∧
      udpEffect b a = some b₁ ∧ b' = { b₁ with udp := u } := by
  simp only [step] at h
  split at h
  · obtain ⟨u, hu, hrest⟩ := Option.bind_eq_some_iff.mp h
    obtain ⟨b₁, hb₁, rfl⟩ := Option.map_eq_some_iff.mp hrest
    exact ⟨‹_›, u, b₁, hu, hb₁, rfl⟩
  · cases h

theorem step_lamp_eq_some {b b' : Board} {t : Task} {a : LampStep}
    (h : step b (.lamp t a) = some b') :
    alive b t ∧ ∃ l, LampCommands.step b.lamp t a = some l ∧
      b' = { b with lamp := l } := by
  simp only [step] at h
  split at h
  · obtain ⟨l, hl, rfl⟩ := Option.map_eq_some_iff.mp h
    exact ⟨‹_›, l, hl, rfl⟩
  · cases h

theorem step_notify_eq_some {b b' : Board} {cmd : UInt8}
    (h : step b (.notify cmd) = some b') :
    b' = b ∨ ∃ g l, notifyCommand cmd = some g ∧
      sendSignal g.byte b.lamp .bleCallback = some l ∧
      b' = { b with lamp := l } := by
  simp only [step] at h
  split at h
  · split at h
    · obtain ⟨l, hl, rfl⟩ := Option.map_eq_some_iff.mp h
      rw [Signal.send_eq] at hl
      exact .inr ⟨_, l, ‹_›, hl, rfl⟩
    · exact .inl (Option.some.inj h).symm
  · cases h

def networkLabel : BoardEvent → Option NetworkEvent
  | .post e => some (.post e)
  | .main ok => some (.main ok)
  | .monitor => some .monitor
  | .udp .exit => some .udpExit
  | _ => none

/-- The network tasks are a component of the board. -/
def networkProjection : Projection step NetworkLifecycle.step where
  state := Board.net
  label := networkLabel
  stutter b e b' hlabel hstep := by
    cases e with
    | post e => cases hlabel
    | main ok => cases hlabel
    | monitor => cases hlabel
    | lamp t a =>
        obtain ⟨-, l, -, rfl⟩ := step_lamp_eq_some hstep
        rfl
    | detect a => exact net_detectStep hstep
    | udp a =>
        obtain ⟨-, u, b₁, -, heffect, rfl⟩ := step_udp_eq_some hstep
        have ha : a ≠ .exit := by
          rintro rfl
          cases hlabel
        exact (net_udpEffect ha heffect :)
    | notify cmd =>
        rcases step_notify_eq_some hstep with rfl | ⟨g, l, -, -, rfl⟩
        · rfl
        · rfl
  simulate b e b' f hlabel hstep := by
    cases e with
    | post e =>
        obtain ⟨n, hn, rfl⟩ := netStep_eq_some hstep
        cases hlabel
        exact hn
    | main ok =>
        obtain ⟨n, hn, rfl⟩ := netStep_eq_some hstep
        cases hlabel
        exact hn
    | monitor =>
        obtain ⟨n, hn, rfl⟩ := netStep_eq_some hstep
        cases hlabel
        exact hn
    | udp a =>
        obtain ⟨-, u, b₁, -, heffect, rfl⟩ := step_udp_eq_some hstep
        cases a with
        | exit =>
            obtain ⟨n, hn, rfl⟩ := Option.map_eq_some_iff.mp heffect
            cases hlabel
            exact hn
        | _ => cases hlabel
    | _ => cases hlabel

end BikeMcu.BoardSystem
