import BikeMcu.BrakePath

namespace BikeMcu.CommandPath

open BikeMcu.TransitionSystem
open BikeMcu.RunHistory
open BikeMcu.RunLedger
open BikeMcu.FloatDetector (Arithmetic)
open BikeMcu.LampCommands
open BikeMcu.Storage
open BikeMcu.UdpServer
open BikeMcu.NetworkLifecycle
open BikeMcu.BoardSystem
open BikeMcu.BleClient (gattIfNone)
open BikeMcu.LampOwnership
open BikeMcu.LampTrace
open BikeMcu.CommandTrace
open BikeMcu.BikeSystem
open BikeMcu.BrakePath

def datagrams : BikeEvent → List (List UInt8)
  | .board (.udp (.recvfrom (some d))) => [d]
  | _ => []

/-- What the UDP server does in a step. -/
def served : Bike × BikeEvent → List Effect
  | (s, .board (.udp a)) => performed (s.board.udp, a)
  | _ => []

def serverPath : Ledger BikeSystem.step (fun _ => True) Effect :=
  (serverLedger.pull udpView).pull boardView

theorem udpView_label {s : Bike} {e : BikeEvent} {f : BoardEvent}
    (he : ∀ a, e ≠ .board (.udp a)) (hf : boardLabel (s, e) = some f) :
    udpView.label (s.board, f) = none := by
  cases e with
  | sensor e =>
      obtain ⟨p, -, hp⟩ := Option.bind_eq_some_iff.mp hf
      obtain ⟨a, -, rfl⟩ := Option.map_eq_some_iff.mp hp
      rfl
  | board e =>
      cases hf
      cases f with
      | udp a => exact absurd rfl (he a)
      | _ => rfl
  | ble e =>
      obtain ⟨cmd, -, rfl⟩ := Option.map_eq_some_iff.mp hf
      rfl
  | upload a => cases hf

theorem served_of_ne {s : Bike} {e : BikeEvent} (he : ∀ a, e ≠ .board (.udp a)) :
    served (s, e) = [] ∧ datagrams e = [] := by
  cases e with
  | board e =>
      cases e with
      | udp a => exact absurd rfl (he a)
      | _ => exact ⟨rfl, rfl⟩
  | _ => exact ⟨rfl, rfl⟩

theorem serverPath_of_ne {s : Bike} {e : BikeEvent} (he : ∀ a, e ≠ .board (.udp a)) :
    serverPath.taken (s, e) = [] ∧ serverPath.done (s, e) = [] := by
  simp only [serverPath, Ledger.pull]
  cases hf : boardView.label (s, e) with
  | none => exact ⟨rfl, rfl⟩
  | some f =>
      have hlabel : udpView.label (boardView.state s, f) = none := udpView_label he hf
      simp [hlabel]

theorem serverPath_taken (x : Bike × BikeEvent) :
    serverPath.taken x = (datagrams x.2).flatMap fun d => effects (d.take rxLimit) := by
  obtain ⟨s, e⟩ := x
  by_cases he : ∃ a, e = .board (.udp a)
  · obtain ⟨a, rfl⟩ := he
    cases a with
    | recvfrom d =>
        cases d with
        | none => rfl
        | some d => rfl
    | _ => rfl
  · have hne : ∀ a, e ≠ .board (.udp a) := fun a ha => he ⟨a, ha⟩
    rw [(serverPath_of_ne hne).1, (served_of_ne (s := s) hne).2]
    rfl

theorem serverPath_done (x : Bike × BikeEvent) : serverPath.done x = served x := by
  obtain ⟨s, e⟩ := x
  by_cases he : ∃ a, e = .board (.udp a)
  · obtain ⟨a, rfl⟩ := he
    rfl
  · have hne : ∀ a, e ≠ .board (.udp a) := fun a ha => he ⟨a, ha⟩
    rw [(serverPath_of_ne hne).2, (served_of_ne hne).1]

/-- From the datagrams to the I2C driver. -/
def boardPath : Ledger BoardSystem.step Owned UInt8 :=
  (commandLedger.weaken fun _ _ => trivial).comp
    (((callLedger udpTask).pull lampView).weaken fun _ h => h.exclusive)
    fun _ _ _ _ hstep => commandLedger_done hstep

def commandPath : Ledger BikeSystem.step (fun s => Owned s.board) UInt8 :=
  boardPath.pull boardView

theorem commandPath_taken (x : Bike × BikeEvent) :
    commandPath.taken x = (serverPath.taken x).flatMap Effect.bytes := by
  simp only [commandPath, serverPath, Ledger.pull]
  cases boardView.label x with
  | none => rfl
  | some e => rfl

/-- The lamp bytes that the server still owes, the command it is in included. -/
def commandPending (b : Board) : List UInt8 :=
  unsent (b.lamp.point udpTask) ++ (owed b.udp).flatMap Effect.bytes

theorem commandPending_of_recvfrom {b : Board} (hb : Owned b)
    (hpoint : b.udp.point = .recvfrom) : commandPending b = [] := by
  have hout : b.lamp.point udpTask = .outside := hb.udp (by simp [hpoint])
  simp [commandPending, hout, unsent, owed, hpoint]

/-- Over every run of the unit, the UDP server has done for the datagrams it received, in
order, exactly what each asks for: the calls of `command_handler` if it is two bytes
long, and then its echo, up to what is left of the last one. The bytes of its lamp
commands are on the LED bus in that order; a failed transfer only leaves its byte out. -/
theorem datagrams_served (a : Arithmetic) (n : Nvs) (read : Bool) (ok : Fin 4 → Bool)
    (scratch : Vector UInt8 128) (es : List BikeEvent) (s : Bike)
    (hrun : run BikeSystem.step (BikeSystem.boot a n read ok scratch) es = some s) :
    ((es.flatMap datagrams).flatMap fun d => effects (d.take rxLimit)) =
        (steps BikeSystem.step (BikeSystem.boot a n read ok scratch) es).flatMap served ++
          owed s.board.udp ∧
      ∃ handed : List UInt8,
        ((es.flatMap datagrams).flatMap fun d =>
            (effects (d.take rxLimit)).flatMap Effect.bytes) =
          handed ++ commandPending s.board ∧
        (s.board.udp.point = .recvfrom → commandPending s.board = []) ∧
        (onBus udpTask s.board.lamp).Sublist handed ∧
        ((∀ e ∈ es, transferOk e = true) → onBus udpTask s.board.lamp = handed) := by
  have hboot : Owned (BikeSystem.boot a n read ok scratch).board := owned_boot n read ok
  have howned : Owned s.board := invariant_of_run owned_step hboot hrun
  have htaken : (steps BikeSystem.step (BikeSystem.boot a n read ok scratch) es).flatMap
      serverPath.taken =
        (es.flatMap datagrams).flatMap fun d => effects (d.take rxLimit) := by
    rw [List.flatMap_assoc, ← flatMap_events _ hrun]
    exact List.flatMap_congr fun x _ => serverPath_taken x
  have hserver := serverPath.run (fun _ _ _ _ _ => trivial) trivial hrun
  have hpath := commandPath.run owned_step hboot hrun
  obtain ⟨accepted, hbus, hsublist, hok⟩ := onBus_of_run hboot hrun udpTask
  rw [onBus_boot a n read ok scratch (by simp), List.nil_append] at hbus
  refine ⟨?_, _, ?_, commandPending_of_recvfrom howned, hbus ▸ hsublist,
    fun h => hbus ▸ hok h⟩
  · rw [← htaken]
    have hdone : (steps BikeSystem.step (BikeSystem.boot a n read ok scratch) es).flatMap
        serverPath.done =
          (steps BikeSystem.step (BikeSystem.boot a n read ok scratch) es).flatMap served :=
      List.flatMap_congr fun x _ => serverPath_done x
    rw [← hdone]
    exact hserver
  · have hbytes : (steps BikeSystem.step (BikeSystem.boot a n read ok scratch) es).flatMap
        commandPath.taken =
          (es.flatMap datagrams).flatMap fun d =>
            (effects (d.take rxLimit)).flatMap Effect.bytes := by
      rw [← List.flatMap_assoc, ← htaken, List.flatMap_assoc]
      exact List.flatMap_congr fun x _ => commandPath_taken x
    rw [← hbytes]
    exact hpath

def leftReceived : List BoardEvent :=
  online ++ [.udp (.socket true), .udp (.bind true),
    .udp (.recvfrom (some ['L'.toUInt8, '\n'.toUInt8])), .udp (.call .left)]

/-- A command to switch on the left indicator, and one byte that is no command. -/
def servedOnce : List BikeEvent :=
  leftReceived.map .board ++ sendSignalSteps udpTask ++
    [.board (.udp .returned), .board (.udp (.sendto true)),
      .board (.udp (.recvfrom (some ['R'.toUInt8]))), .board (.udp (.sendto true))]

theorem datagrams_served_once :
    ∃ s, run BikeSystem.step
        (BikeSystem.boot .exact ⟨none, none⟩ true (fun _ => true) (Vector.replicate 128 0))
        servedOnce = some s ∧
      onBus udpTask s.board.lamp = ['L'.toUInt8] := by
  obtain ⟨s, hrun, hs⟩ := exists_run_of_any
    (show (run BikeSystem.step
        (BikeSystem.boot .exact ⟨none, none⟩ true (fun _ => true) (Vector.replicate 128 0))
        servedOnce).any (fun s => decide (s.board.udp.point = .recvfrom)) = true by decide)
  obtain ⟨-, handed, hbytes, hpending, -, hok⟩ := datagrams_served .exact ⟨none, none⟩ true
    (fun _ => true) (Vector.replicate 128 0) servedOnce s hrun
  refine ⟨s, hrun, ?_⟩
  rw [hpending (of_decide_eq_true hs), List.append_nil] at hbytes
  rw [hok (by decide), ← hbytes]
  decide

/-- The lamp byte of a notification. -/
def notified : Bike × BikeEvent → List UInt8
  | (s, .ble e) => ((notification s.client e).bind notifyCommand).toList.map Signal.byte
  | _ => []

theorem callsOf_bleCallback {s t : Bike} {e : BikeEvent} (hstep : BikeSystem.step s e = some t) :
    (callsOf .bleCallback).taken (s, e) = notified (s, e) := by
  rw [callsOf_taken]
  cases e with
  | sensor e =>
      obtain ⟨-, p, hp, -⟩ := step_sensor_eq_some hstep
      cases ha : detectLabel p e with
      | none => simp [boardLabel, hp, ha, notified]
      | some a => cases a <;> simp [boardLabel, hp, ha, notified, boardCalls, lampLabel, callBytes]
  | board e =>
      obtain ⟨hdetect, hnotify, -⟩ := step_board_eq_some hstep
      cases e with
      | detect a => exact absurd rfl (hdetect a)
      | notify cmd => exact absurd rfl (hnotify cmd)
      | udp a => cases a <;> rfl
      | _ => rfl
  | ble e =>
      cases hcmd : notification s.client e with
      | none => simp [boardLabel, hcmd, notified]
      | some cmd =>
          cases hg : notifyCommand cmd <;>
            simp [boardLabel, hcmd, notified, boardCalls, lampLabel, hg, callBytes]
  | upload a => rfl

theorem caller_of_label {b : Board} {e : BoardEvent} {t : Task} {g : Signal}
    (h : lampLabel (b, e) = some (.call t g)) :
    t = .detectBrake1 ∨ t = udpTask ∨ t = .bleCallback := by
  cases e with
  | detect a => cases a <;> simp_all [lampLabel]
  | udp a => cases a <;> simp_all [lampLabel]
  | notify cmd => simp_all [lampLabel]
  | _ => simp [lampLabel] at h

theorem callsOf_silent {t : Task} (hdetect : t ≠ .detectBrake1) (hudp : t ≠ udpTask)
    (hble : t ≠ .bleCallback) (x : Bike × BikeEvent) : (callsOf t).taken x = [] := by
  rw [callsOf_taken]
  cases hf : boardLabel x with
  | none => rfl
  | some f =>
      rw [Option.elim_some, boardCalls]
      cases hlamp : lampLabel (x.1.board, f) with
      | none => rfl
      | some c =>
          cases c with
          | step u a => rfl
          | call u g =>
              refine if_neg ?_
              rintro rfl
              rcases caller_of_label hlamp with h | h | h
              · exact hdetect h
              · exact hudp h
              · exact hble h

theorem onBus_silent {s t : Bike} {es : List BikeEvent} (hs : Owned s.board) {u : Task}
    (hdetect : u ≠ .detectBrake1) (hudp : u ≠ udpTask) (hble : u ≠ .bleCallback)
    (hrun : run BikeSystem.step s es = some t) :
    onBus u t.board.lamp = onBus u s.board.lamp := by
  have hout : s.board.lamp.point u = .outside := by
    by_contra hinside
    rcases hs.callers u hinside with h | h | h
    · exact hdetect h
    · exact hudp h
    · exact hble h
  have hcalls := ((callsOf u).weaken fun s (h : Owned s.board) => h.exclusive).run
    owned_step hs hrun
  have htaken : (steps BikeSystem.step s es).flatMap (callsOf u).taken = [] :=
    List.flatMap_eq_nil_iff.mpr fun x _ => callsOf_silent hdetect hudp hble x
  have htodo : (callsOf u).todo s = [] := by
    show unsent (s.board.lamp.point u) = []
    rw [hout]
    rfl
  simp only [Ledger.weaken, htodo, htaken, List.nil_append] at hcalls
  obtain ⟨hdone, -⟩ := List.append_eq_nil_iff.mp hcalls.symm
  obtain ⟨accepted, hbus, hsublist, -⟩ := onBus_of_run hs hrun u
  rw [hdone] at hsublist
  rw [hbus, List.sublist_nil.mp hsublist, List.append_nil]

/-- Over every run of the unit, the callback's bytes on the LED bus are those of the
notifications for its profile with a known first byte, in order, up to the command it is
in, and a failed transfer only leaves its byte out; `app_main`'s are those of the boot, and
besides the detector and the UDP server no other task has any. -/
theorem notifications_reach_lamp (a : Arithmetic) (n : Nvs) (read : Bool) (ok : Fin 4 → Bool)
    (scratch : Vector UInt8 128) (es : List BikeEvent) (s : Bike)
    (hrun : run BikeSystem.step (BikeSystem.boot a n read ok scratch) es = some s) :
    (∃ handed : List UInt8,
      (steps BikeSystem.step (BikeSystem.boot a n read ok scratch) es).flatMap notified =
        handed ++ unsent (s.board.lamp.point .bleCallback) ∧
      (onBus .bleCallback s.board.lamp).Sublist handed ∧
      ((∀ e ∈ es, transferOk e = true) → onBus .bleCallback s.board.lamp = handed)) ∧
    onBus .appMain s.board.lamp =
      onBus .appMain (BikeSystem.boot a n read ok scratch).board.lamp ∧
    ∀ x ∈ s.board.lamp.bus, x.1 = .appMain ∨ x.1 = .detectBrake1 ∨ x.1 = udpTask ∨
      x.1 = .bleCallback := by
  have hboot : Owned (BikeSystem.boot a n read ok scratch).board := owned_boot n read ok
  refine ⟨?_, onBus_silent hboot (by simp) (by simp) (by simp) hrun, ?_⟩
  · have hcalls := ((callsOf .bleCallback).weaken fun s (h : Owned s.board) => h.exclusive).run
      owned_step hboot hrun
    obtain ⟨accepted, hbus, hsublist, hok⟩ := onBus_of_run hboot hrun .bleCallback
    rw [onBus_boot a n read ok scratch (by simp), List.nil_append] at hbus
    have htaken : (steps BikeSystem.step (BikeSystem.boot a n read ok scratch) es).flatMap
        (callsOf .bleCallback).taken =
          (steps BikeSystem.step (BikeSystem.boot a n read ok scratch) es).flatMap notified :=
      List.flatMap_congr fun x hx => callsOf_bleCallback (step_of_mem_steps hrun hx).choose_spec
    refine ⟨_, ?_, hbus ▸ hsublist, fun h => hbus ▸ hok h⟩
    rw [← htaken]
    exact hcalls
  · intro x hx
    by_contra hother
    rw [not_or, not_or, not_or] at hother
    obtain ⟨hmain, hdetect, hudp, hble⟩ := hother
    have hnone := (onBus_silent hboot hdetect hudp hble hrun).trans
      (onBus_boot a n read ok scratch hmain)
    rw [onBus, List.map_eq_nil_iff, List.filter_eq_nil_iff] at hnone
    exact hnone x (List.mem_reverse.mpr hx) (decide_eq_true rfl)

/-- An 'L', and a byte that is no command. -/
def notifiedOnce : List BikeEvent :=
  .ble (.gattc gattIfNone true (.notifyEvt 1 fun _ => 'L'.toUInt8)) ::
    sendSignalSteps .bleCallback ++
    [.ble (.gattc gattIfNone true (.notifyEvt 1 fun _ => 'B'.toUInt8))]

theorem notifications_reach_lamp_once :
    ∃ s, run BikeSystem.step
        (BikeSystem.boot .exact ⟨none, none⟩ true (fun _ => true) (Vector.replicate 128 0))
        notifiedOnce = some s ∧
      onBus .bleCallback s.board.lamp = ['L'.toUInt8] := by
  obtain ⟨s, hrun, hs⟩ := exists_run_of_any
    (show (run BikeSystem.step
        (BikeSystem.boot .exact ⟨none, none⟩ true (fun _ => true) (Vector.replicate 128 0))
        notifiedOnce).any (fun s => decide (s.board.lamp.point .bleCallback = .outside)) = true
      by decide)
  obtain ⟨⟨handed, hbytes, -, hok⟩, -, -⟩ := notifications_reach_lamp .exact ⟨none, none⟩ true
    (fun _ => true) (Vector.replicate 128 0) notifiedOnce s hrun
  refine ⟨s, hrun, ?_⟩
  rw [of_decide_eq_true hs, unsent, List.append_nil] at hbytes
  rw [hok (by decide), ← hbytes]
  decide

end BikeMcu.CommandPath
