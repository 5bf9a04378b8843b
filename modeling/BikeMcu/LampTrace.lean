import BikeMcu.RunLedger
import BikeMcu.LampLinearization
import BikeMcu.LampOwnership

namespace BikeMcu.LampTrace

open BikeMcu.TransitionSystem
open BikeMcu.RunHistory
open BikeMcu.RunLedger
open BikeMcu.LampCommands
open BikeMcu.LampLinearization
open BikeMcu.UdpServer
open BikeMcu.NetworkLifecycle
open BikeMcu.BoardSystem
open BikeMcu.LampOwnership

section Lamp

variable {Task : Type} [DecidableEq Task]

/-- The byte of the call that a task is in, up to its transfer. -/
def unsent : SendPoint → List UInt8
  | .waiting c | .taken c | .recorded c => [c]
  | .outside | .sent _ => []

def callBytes (t : Task) : Lamp Task × CallEvent Task → List UInt8
  | (_, .call u g) => if u = t then [g.byte] else []
  | _ => []

/-- The bytes that task `t` hands to the I2C driver. -/
def handedBytes (t : Task) : Lamp Task × CallEvent Task → List UInt8
  | (l, .step u (.transmit _)) => if u = t then [l.lastCommand] else []
  | _ => []

def acceptedBytes (t : Task) : Lamp Task × CallEvent Task → List UInt8
  | (l, .step u (.transmit true)) => if u = t then [l.lastCommand] else []
  | _ => []

/-- The bytes of task `t` that the LED controller accepted, oldest first. -/
def onBus (t : Task) (l : Lamp Task) : List UInt8 :=
  (l.bus.reverse.filter fun x => x.1 = t).map Prod.snd

theorem onBus_cons (t u : Task) (c : UInt8) {l l' : Lamp Task}
    (h : l'.bus = (u, c) :: l.bus) :
    onBus t l' = onBus t l ++ if u = t then [c] else [] := by
  by_cases hut : u = t
  · simp [onBus, h, hut]
  · simp [onBus, h, hut]

theorem handedBytes_of_ne (l : Lamp Task) {t u : Task} (a : LampStep) (h : u ≠ t) :
    handedBytes t (l, .step u a) = [] := by
  cases a with
  | transmit ok => exact if_neg h
  | _ => rfl

/-- Every call of a task hands its own byte to the driver, in the order of the calls,
up to the call the task is in. -/
def callLedger (t : Task) : Ledger (@callStep Task _) Exclusive UInt8 where
  taken := callBytes t
  done := handedBytes t
  todo l := unsent (l.point t)
  balance l e l' hl hstep := by
    cases e with
    | call u g =>
        have hcall : sendSignal g.byte l u = some l' := by
          rw [← Signal.send_eq]
          exact hstep
        obtain ⟨hout, rfl⟩ := sendSignal_eq_some hcall
        by_cases hut : u = t
        · subst hut
          simp [callBytes, handedBytes, unsent, hout]
        · simp [callBytes, handedBytes, hut, point_setPoint_of_ne l _ (Ne.symm hut)]
    | step u a =>
        by_cases hut : u = t
        · subst hut
          rcases step_eq_some hstep with ⟨c, rfl, hp, -, rfl⟩ | ⟨c, rfl, hp, rfl⟩ |
            ⟨c, ok, rfl, hp, rfl⟩ | ⟨c, rfl, hp, rfl⟩
          · simp [callBytes, handedBytes, unsent, hp]
          · simp [callBytes, handedBytes, unsent, hp]
          · simp [callBytes, handedBytes, unsent, hp, hl.recorded u c hp]
          · simp [callBytes, handedBytes, unsent, hp]
        · rw [(step_frame hstep).2 t (Ne.symm hut), handedBytes_of_ne l a hut]
          exact List.append_nil _

/-- The bus as an account that is only ever added to. -/
def busLedger (t : Task) : Ledger (@callStep Task _) Exclusive UInt8 where
  taken := acceptedBytes t
  done _ := []
  todo := onBus t
  balance l e l' _ hstep := by
    rw [List.nil_append]
    cases e with
    | call u g =>
        have hcall : sendSignal g.byte l u = some l' := by
          rw [← Signal.send_eq]
          exact hstep
        obtain ⟨-, rfl⟩ := sendSignal_eq_some hcall
        exact List.append_nil _
    | step u a =>
        rcases step_eq_some hstep with ⟨c, rfl, -, -, rfl⟩ | ⟨c, rfl, -, rfl⟩ |
          ⟨c, ok, rfl, -, rfl⟩ | ⟨c, rfl, -, rfl⟩
        · exact List.append_nil _
        · exact List.append_nil _
        · cases ok with
          | false => exact List.append_nil _
          | true => exact (onBus_cons t u l.lastCommand rfl).symm
        · exact List.append_nil _

theorem accepted_sublist (t : Task) (x : Lamp Task × CallEvent Task) :
    (acceptedBytes t x).Sublist (handedBytes t x) := by
  obtain ⟨l, e⟩ := x
  cases e with
  | call u g => exact List.nil_sublist _
  | step u a =>
      cases a with
      | transmit ok =>
          cases ok with
          | false => exact List.nil_sublist _
          | true => exact List.Sublist.refl _
      | _ => exact List.nil_sublist _

theorem accepted_of_transfersOk (t : Task) {l : Lamp Task} {e : CallEvent Task}
    (h : transfersOk e = true) : acceptedBytes t (l, e) = handedBytes t (l, e) := by
  cases e with
  | call u g => rfl
  | step u a =>
      cases a with
      | transmit ok =>
          obtain rfl : ok = true := h
          rfl
      | _ => rfl

end Lamp

/-- The lamp command that a step of the board makes or moves on. -/
def lampLabel : Board × BoardEvent → Option (CallEvent Task)
  | (_, .lamp t a) => some (.step t a)
  | (_, .detect .brake) => some (.call .detectBrake1 .brake)
  | (b, .detect .wake) => some (.call .detectBrake1 (restoreSignal b))
  | (_, .udp (.call g)) => some (.call udpTask g)
  | (_, .notify cmd) => (notifyCommand cmd).map (.call .bleCallback)
  | _ => none

/-- The lamp is a component of the board. -/
def lampView : View BoardSystem.step (@callStep Task _) where
  state := Board.lamp
  label := lampLabel
  simulate b e b' hstep := by
    cases e with
    | post e | main e | monitor =>
        obtain ⟨n, -, rfl⟩ := netStep_eq_some hstep
        exact .inl ⟨rfl, rfl⟩
    | lamp t a =>
        obtain ⟨-, l, hl, rfl⟩ := step_lamp_eq_some hstep
        exact .inr ⟨_, rfl, hl⟩
    | detect a =>
        cases a with
        | brake | wake =>
            simp only [BoardSystem.step, detectStep] at hstep
            split at hstep
            · obtain ⟨l, hl, rfl⟩ := Option.map_eq_some_iff.mp hstep
              exact .inr ⟨_, rfl, hl⟩
            · cases hstep
        | signalled | restored =>
            simp only [BoardSystem.step, detectStep] at hstep
            split at hstep
            · cases hstep
              exact .inl ⟨rfl, rfl⟩
            · cases hstep
    | udp a =>
        obtain ⟨-, u, b₁, -, heffect, rfl⟩ := step_udp_eq_some hstep
        rcases udpEffect_cases heffect with ⟨g, l, rfl, hl, rfl⟩ | ⟨rfl, -, rfl⟩ |
          ⟨n, rfl, -, rfl⟩ | ⟨hcall, -, -, rfl⟩
        · refine .inr ⟨_, rfl, ?_⟩
          rw [← Signal.send_eq] at hl
          exact hl
        · exact .inl ⟨rfl, rfl⟩
        · exact .inl ⟨rfl, rfl⟩
        · cases a with
          | call g => exact absurd rfl (hcall g)
          | _ => exact .inl ⟨rfl, rfl⟩
    | notify cmd =>
        simp only [BoardSystem.step] at hstep
        split at hstep
        · cases hcmd : notifyCommand cmd with
          | none =>
              rw [hcmd] at hstep
              cases hstep
              exact .inl ⟨by simp [lampLabel, hcmd], rfl⟩
          | some g =>
              rw [hcmd] at hstep
              obtain ⟨l, hl, rfl⟩ := Option.map_eq_some_iff.mp hstep
              exact .inr ⟨.call .bleCallback g, by simp [lampLabel, hcmd], hl⟩
        · cases hstep

end BikeMcu.LampTrace
