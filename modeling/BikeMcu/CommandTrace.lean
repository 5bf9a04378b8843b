import BikeMcu.LampTrace

namespace BikeMcu.CommandTrace

open BikeMcu.TransitionSystem
open BikeMcu.RunLedger
open BikeMcu.LampCommands
open BikeMcu.Storage
open BikeMcu.UdpServer
open BikeMcu.BoardSystem
open BikeMcu.LampTrace

/-- What the task does for a datagram: the calls of `command_handler`, and the echo. -/
inductive Effect where
  | act (a : Action)
  | reply (datagram : List UInt8)
  deriving DecidableEq, Repr

def effects (rxBuffer : List UInt8) : List Effect :=
  (handleDatagram rxBuffer).map .act ++ [.reply rxBuffer]

def received : UdpStep → List (List UInt8)
  | .recvfrom (some d) => [d.take rxLimit]
  | _ => []

def asked (x : Server × UdpStep) : List Effect :=
  (received x.2).flatMap effects

def performed : Server × UdpStep → List Effect
  | (_, .call g) => [.act (.send g)]
  | (s, .store) =>
      match s.point with
      | .command (.storageWriteChar c :: _) => [.act (.storageWriteChar c)]
      | _ => []
  | (s, .sendto _) => [.reply s.rxBuffer]
  | _ => []

/-- What is left to do for the datagram in hand. -/
def owed (s : Server) : List Effect :=
  match s.point with
  | .command todo | .signalling todo | .storing _ _ todo =>
      todo.map .act ++ [.reply s.rxBuffer]
  | _ => []

/-- The server does what each datagram asks for, in order, before it receives the
next. -/
def serverLedger : Ledger UdpServer.step (fun _ => True) Effect where
  taken := asked
  done := performed
  todo := owed
  balance s a t _ hstep := by
    cases udpMove hstep with
    | socketCreated h | socketFailed h | bind h ok | recvfromFailed h | close h | exit h =>
        simp [asked, received, performed, owed, h]
    | received h d => simp [asked, received, effects, performed, owed, h]
    | call h | returned h | store h => simp [asked, received, performed, owed, h]
    | sendto h ok => cases ok <;> simp [asked, received, performed, owed, h]
    | @storage c p todo h ok =>
        cases (Storage.storageWriteChar c ok s.nvs p).2 with
        | none => simp [asked, received, performed, owed, h]
        | some q => simp [asked, received, performed, owed, h]

/-- The byte that an effect puts on the LED bus. -/
def Effect.bytes : Effect → List UInt8
  | .act (.send g) => [g.byte]
  | _ => []

/-- The UDP server is a component of the board. -/
def udpView : View BoardSystem.step UdpServer.step where
  state := Board.udp
  label x :=
    match x.2 with
    | .udp a => some a
    | _ => none
  simulate b e b' hstep := by
    cases e with
    | post e | main e | monitor =>
        obtain ⟨n, -, rfl⟩ := netStep_eq_some hstep
        exact .inl ⟨rfl, rfl⟩
    | lamp t a =>
        obtain ⟨-, l, -, rfl⟩ := step_lamp_eq_some hstep
        exact .inl ⟨rfl, rfl⟩
    | detect a =>
        rcases detectStep_cases hstep with ⟨-, l, -, rfl⟩ | ⟨-, -, rfl⟩ |
          ⟨-, l, -, rfl⟩ | ⟨-, -, rfl⟩
        all_goals exact .inl ⟨rfl, rfl⟩
    | udp a =>
        obtain ⟨-, u, b₁, hu, -, rfl⟩ := step_udp_eq_some hstep
        exact .inr ⟨a, rfl, hu⟩
    | notify cmd =>
        rcases step_notify_eq_some hstep with rfl | ⟨g, l, -, -, rfl⟩
        · exact .inl ⟨rfl, rfl⟩
        · exact .inl ⟨rfl, rfl⟩

/-- The lamp commands among the effects, seen from the board. -/
def commandLedger : Ledger BoardSystem.step (fun _ => True) UInt8 :=
  (serverLedger.pull udpView).flatMap Effect.bytes

/-- What the server performs on the lamp are the calls of its task. -/
theorem commandLedger_done {b b' : Board} {e : BoardEvent}
    (hstep : BoardSystem.step b e = some b') :
    commandLedger.done (b, e) = ((callLedger udpTask).pull lampView).taken (b, e) := by
  cases e with
  | udp a =>
      cases a with
      | store =>
          obtain ⟨-, u, b₁, hu, -, -⟩ := step_udp_eq_some hstep
          cases udpMove hu with
          | store h =>
              simp [commandLedger, Ledger.flatMap, Ledger.pull, udpView, lampView, lampLabel,
                serverLedger, performed, h, Effect.bytes]
      | call g =>
          simp [commandLedger, Ledger.flatMap, Ledger.pull, udpView, lampView, lampLabel,
            serverLedger, performed, callLedger, callBytes, Effect.bytes]
      | _ => rfl
  | detect a =>
      cases a with
      | brake | wake | signalled | restored => rfl
  | notify cmd =>
      cases hcmd : notifyCommand cmd with
      | none =>
          simp [commandLedger, Ledger.flatMap, Ledger.pull, udpView, lampView, lampLabel, hcmd]
      | some g =>
          simp [commandLedger, Ledger.flatMap, Ledger.pull, udpView, lampView, lampLabel, hcmd,
            callLedger, callBytes]
  | _ => rfl

end BikeMcu.CommandTrace
