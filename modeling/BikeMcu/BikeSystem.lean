import BikeMcu.CommandTrace
import BikeMcu.ConnectionAttempts
import BikeMcu.UdpClient

/-!
The whole unit after boot: the sensor with its two queues, the board with the lamp, the
Bluetooth client and the upload of the samples, interleaved statement by statement.
-/

namespace BikeMcu.BikeSystem

open BikeMcu.TransitionSystem
open BikeMcu.RunLedger
open BikeMcu.LampCommands
open BikeMcu.BrakeDetector
open BikeMcu.FloatDetector (Arithmetic)
open BikeMcu.SensorPipeline
open BikeMcu.NetworkLifecycle
open BikeMcu.BoardSystem
open BikeMcu.BleClient
open BikeMcu.ConnectionAttempts
open BikeMcu.UdpClient

structure Bike where
  sensor : Pipeline
  board : Board
  client : Client
  uploader : Uploader

def boot (a : Arithmetic) (n : Storage.Nvs) (read : Bool) (ok : Fin 4 → Bool)
    (scratch : Vector UInt8 128) : Bike :=
  { sensor := SensorPipeline.init a
    board := BoardSystem.boot n read ok
    client := initClient
    uploader := UdpClient.init scratch }

/-- What the detector does on the board in a statement that leads to `p`: the lamp
commands around a hold. -/
def detectLabel (p : Pipeline) : PipelineEvent → Option DetectStep
  | .receive => if p.point = .braking then some .brake else none
  | .signalled => some .signalled
  | .wake => some .wake
  | .restored => some .restored
  | _ => none

/-- The lamp commands among the calls of a callback. -/
def commands (calls : List Call) : List Signal :=
  calls.filterMap fun call =>
    match call with
    | .signal g => some g
    | _ => none

/-- The callback enters the lamp commands it calls; inside one it would wait. -/
def enterCommands (b : Board) (gs : List Signal) : Option Board :=
  gs.foldlM (fun b g => (g.send b.lamp .bleCallback).map fun l => { b with lamp := l }) b

abbrev uploadTask : Task := .network .bmiSendSensorData

inductive BikeEvent where
  | sensor (e : PipelineEvent)
  | board (e : BoardEvent)
  | ble (e : BleEvent)
  | upload (a : UploadStep)

/-- The statements of the detector and of the callback that touch the board are moves of
both parties, and so is the receipt of a sample for the upload. -/
def step (s : Bike) : BikeEvent → Option Bike
  | .sensor .upload => none
  | .sensor e =>
      (SensorPipeline.step s.sensor e).bind fun p =>
        match detectLabel p e with
        | some a => (detectStep s.board a).map fun b => { s with sensor := p, board := b }
        | none => some { s with sensor := p }
  | .board (.detect _) => none
  | .board (.notify _) => none
  | .board e => (BoardSystem.step s.board e).map fun b => { s with board := b }
  | .ble e =>
      if s.board.lamp.point .bleCallback = .outside then
        (enterCommands s.board (commands (callbacks s.client e).calls)).map fun b =>
          { s with board := b, client := (callbacks s.client e).client }
      else none
  | .upload a =>
      if alive s.board uploadTask then
        (UdpClient.step s.uploader a).bind fun u =>
          match a with
          | .receive x =>
              if s.sensor.uploadQueue.receive.map Prod.fst = some x then
                (SensorPipeline.step s.sensor .upload).map fun p =>
                  { s with sensor := p, uploader := u }
              else none
          | _ => some { s with uploader := u }
      else none

/-- The byte that a notification for the profile commands the lamp with. -/
def notification (c : Client) : BleEvent → Option UInt8
  | .gattc gattcIf _ (.notifyEvt _ memory) =>
      if gattcIf = gattIfNone ∨ gattcIf = c.gattcIf then some (memory 0) else none
  | _ => none

theorem commands_eq_nil {calls calls' : List Call} (hsub : calls.Sublist calls')
    (h : commands calls' = []) : commands calls = [] :=
  List.sublist_nil.mp (h ▸ hsub.filterMap _)

theorem commands_gattc (c : Client) (gattcIf : UInt16) {e : GattcEvent}
    (he : ∀ valueLen memory, e ≠ .notifyEvt valueLen memory) :
    commands (gattcProfileEventHandler c gattcIf e).calls = [] := by
  cases e with
  | notifyEvt valueLen memory => exact absurd rfl (he valueLen memory)
  | disSrvcCmplEvt ok connId => cases ok <;> rfl
  | searchResEvt startHandle endHandle uuid =>
      simp only [gattcProfileEventHandler]
      split <;> rfl
  | searchCmplEvt ok connId a =>
      simp only [gattcProfileEventHandler]
      split
      · rcases (findChar_cases c gattcIf connId a).2 with ⟨-, hsub⟩ | ⟨-, -, hcalls⟩
        · exact commands_eq_nil hsub rfl
        · rw [hcalls]
          rfl
      · rfl
  | regForNotifyEvt ok handle a =>
      simp only [gattcProfileEventHandler]
      split
      · rcases (findDescr_cases c gattcIf handle a).2.2 with hsub | ⟨-, hcalls⟩
        · exact commands_eq_nil hsub rfl
        · rw [hcalls]
          rfl
      · rfl
  | writeDescrEvt ok => cases ok <;> rfl
  | _ => rfl

theorem commands_espGattcCb (c : Client) (gattcIf : UInt16) (regOk : Bool) {e : GattcEvent}
    (he : ∀ valueLen memory, e ≠ .notifyEvt valueLen memory) :
    commands (espGattcCb c gattcIf regOk e).calls = [] := by
  rcases espGattcCb_cases c gattcIf regOk e with h | ⟨c', -, h⟩
  · rw [h]
    rfl
  · rw [h, callProfiles]
    split
    · exact commands_gattc c' gattcIf he
    · rfl

/-- The callbacks command the lamp by notifications only. -/
theorem commands_callbacks (c : Client) (e : BleEvent) :
    commands (callbacks c e).calls = ((notification c e).bind notifyCommand).toList := by
  cases e with
  | gap e =>
      cases e with
      | scanResultEvt bda bleAddrType advName =>
          rw [callbacks_scanResult]
          split <;> rfl
      | _ => rfl
  | gattc gattcIf regOk e =>
      cases e with
      | notifyEvt valueLen memory =>
          simp only [callbacks, espGattcCb, callProfiles, notification]
          split
          · cases hcmd : notifyCommand (memory 0) <;>
              simp [gattcProfileEventHandler, notified, notifyValue, Buffer.read, hcmd, commands]
          · rfl
      | _ => exact commands_espGattcCb c gattcIf regOk (by simp)

/-- What a step of the bike is for its board. -/
def boardLabel : Bike × BikeEvent → Option BoardEvent
  | (s, .sensor e) =>
      (SensorPipeline.step s.sensor e).bind fun p => (detectLabel p e).map .detect
  | (_, .board e) => some e
  | (s, .ble e) => (notification s.client e).map .notify
  | (_, .upload _) => none

theorem enterCommands_notification {b b' : Board} {o : Option UInt8}
    (hout : b.lamp.point .bleCallback = .outside)
    (h : enterCommands b (o.bind notifyCommand).toList = some b') :
    o = none ∧ b' = b ∨ ∃ cmd, o = some cmd ∧ BoardSystem.step b (.notify cmd) = some b' := by
  cases o with
  | none => exact .inl ⟨rfl, (Option.some.inj h).symm⟩
  | some cmd =>
      refine .inr ⟨cmd, rfl, ?_⟩
      rw [Option.bind_some] at h
      simp only [BoardSystem.step, hout, if_true]
      cases hcmd : notifyCommand cmd with
      | none =>
          rw [hcmd] at h
          exact h
      | some g =>
          rw [hcmd] at h
          simpa [enterCommands] using h

theorem step_sensor_eq_some {s t : Bike} {e : PipelineEvent}
    (h : step s (.sensor e) = some t) :
    e ≠ .upload ∧ ∃ p, SensorPipeline.step s.sensor e = some p ∧
      (detectLabel p e = none ∧ t = { s with sensor := p } ∨
        ∃ a b, detectLabel p e = some a ∧ detectStep s.board a = some b ∧
          t = { s with sensor := p, board := b }) := by
  have he : e ≠ .upload := by
    rintro rfl
    cases h
  refine ⟨he, ?_⟩
  have hstep : ((SensorPipeline.step s.sensor e).bind fun p =>
      match detectLabel p e with
      | some a => (detectStep s.board a).map fun b => { s with sensor := p, board := b }
      | none => some { s with sensor := p }) = some t := by
    cases e with
    | upload => exact absurd rfl he
    | _ => exact h
  obtain ⟨p, hp, hrest⟩ := Option.bind_eq_some_iff.mp hstep
  refine ⟨p, hp, ?_⟩
  cases ha : detectLabel p e with
  | none =>
      rw [ha] at hrest
      exact .inl ⟨rfl, (Option.some.inj hrest).symm⟩
  | some a =>
      rw [ha] at hrest
      obtain ⟨b, hb, rfl⟩ := Option.map_eq_some_iff.mp hrest
      exact .inr ⟨a, b, rfl, hb, rfl⟩

theorem step_board_eq_some {s t : Bike} {e : BoardEvent} (h : step s (.board e) = some t) :
    (∀ a, e ≠ .detect a) ∧ (∀ cmd, e ≠ .notify cmd) ∧
      ∃ b, BoardSystem.step s.board e = some b ∧ t = { s with board := b } := by
  cases e with
  | detect a | notify cmd => cases h
  | _ =>
      simp only [step] at h
      obtain ⟨b, hb, rfl⟩ := Option.map_eq_some_iff.mp h
      exact ⟨by simp, by simp, b, hb, rfl⟩

theorem step_ble_eq_some {s t : Bike} {e : BleEvent} (h : step s (.ble e) = some t) :
    ∃ b, t = { s with board := b, client := (callbacks s.client e).client } ∧
      (notification s.client e = none ∧ b = s.board ∨
        ∃ cmd, notification s.client e = some cmd ∧
          BoardSystem.step s.board (.notify cmd) = some b) := by
  simp only [step] at h
  split at h
  · rename_i hout
    obtain ⟨b, hb, rfl⟩ := Option.map_eq_some_iff.mp h
    rw [commands_callbacks] at hb
    exact ⟨b, rfl, enterCommands_notification hout hb⟩
  · cases h

theorem step_upload_eq_some {s t : Bike} {a : UploadStep} (h : step s (.upload a) = some t) :
    alive s.board uploadTask ∧ ∃ u, UdpClient.step s.uploader a = some u ∧
      ((∃ x q, a = .receive x ∧ s.sensor.uploadQueue.receive = some (x, q) ∧
          t = { s with
            sensor := { s.sensor with
              uploadQueue := q, uploaded := s.sensor.uploaded ++ [x] }
            uploader := u }) ∨
        receivedSamples a = [] ∧ t = { s with uploader := u }) := by
  simp only [step] at h
  split at h
  · refine ⟨‹_›, ?_⟩
    obtain ⟨u, hu, hrest⟩ := Option.bind_eq_some_iff.mp h
    refine ⟨u, hu, ?_⟩
    cases a with
    | receive x =>
        simp only at hrest
        split at hrest
        · rename_i hx
          obtain ⟨p, hp, rfl⟩ := Option.map_eq_some_iff.mp hrest
          obtain ⟨y, q, hq, rfl⟩ := SensorPipeline.step_upload_eq_some hp
          rw [hq] at hx
          obtain rfl := Option.some.inj hx
          exact .inl ⟨_, q, rfl, hq, rfl⟩
        · cases hrest
    | snprintf timer | socket ok | sendto ok =>
        exact .inr ⟨rfl, (Option.some.inj hrest).symm⟩
  · cases h

/-- The board is a component of the bike. -/
def boardView : View step BoardSystem.step where
  state := Bike.board
  label := boardLabel
  simulate s e t hstep := by
    cases e with
    | sensor e =>
        obtain ⟨-, p, hp, ⟨ha, rfl⟩ | ⟨a, b, ha, hb, rfl⟩⟩ := step_sensor_eq_some hstep
        · exact .inl ⟨by simp [boardLabel, hp, ha], rfl⟩
        · exact .inr ⟨.detect a, by simp [boardLabel, hp, ha], hb⟩
    | board e =>
        obtain ⟨-, -, b, hb, rfl⟩ := step_board_eq_some hstep
        exact .inr ⟨e, rfl, hb⟩
    | ble e =>
        obtain ⟨b, rfl, ⟨hnone, rfl⟩ | ⟨cmd, hcmd, hb⟩⟩ := step_ble_eq_some hstep
        · exact .inl ⟨by simp [boardLabel, hnone], rfl⟩
        · exact .inr ⟨.notify cmd, by simp [boardLabel, hcmd], hb⟩
    | upload a =>
        obtain ⟨-, u, -, ⟨x, q, -, -, rfl⟩ | ⟨-, rfl⟩⟩ := step_upload_eq_some hstep
        · exact .inl ⟨rfl, rfl⟩
        · exact .inl ⟨rfl, rfl⟩

def sensorLabel : BikeEvent → Option PipelineEvent
  | .sensor e => some e
  | .upload (.receive _) => some .upload
  | _ => none

/-- The sensor with its queues is a component of the bike. -/
def sensorProjection : Projection step SensorPipeline.step where
  state := Bike.sensor
  label := sensorLabel
  stutter s e t hlabel hstep := by
    cases e with
    | sensor e => cases hlabel
    | board e =>
        obtain ⟨-, -, b, -, rfl⟩ := step_board_eq_some hstep
        rfl
    | ble e =>
        obtain ⟨b, rfl, -⟩ := step_ble_eq_some hstep
        rfl
    | upload a =>
        obtain ⟨-, u, -, ⟨x, q, rfl, -, rfl⟩ | ⟨-, rfl⟩⟩ := step_upload_eq_some hstep
        · cases hlabel
        · rfl
  simulate s e t f hlabel hstep := by
    cases e with
    | sensor e =>
        cases hlabel
        obtain ⟨-, p, hp, ⟨-, rfl⟩ | ⟨a, b, -, -, rfl⟩⟩ := step_sensor_eq_some hstep
        · exact hp
        · exact hp
    | upload a =>
        obtain ⟨-, u, -, ⟨x, q, rfl, hq, rfl⟩ | ⟨hreceived, rfl⟩⟩ := step_upload_eq_some hstep
        · cases hlabel
          simp [SensorPipeline.step, hq]
        · cases a with
          | receive x => cases hreceived
          | _ => cases hlabel
    | _ => cases hlabel

def uploadLabel : BikeEvent → Option UploadStep
  | .upload a => some a
  | _ => none

/-- The upload task is a component of the bike. -/
def uploadProjection : Projection step UdpClient.step where
  state := Bike.uploader
  label := uploadLabel
  stutter s e t hlabel hstep := by
    cases e with
    | sensor e =>
        obtain ⟨-, p, -, ⟨-, rfl⟩ | ⟨a, b, -, -, rfl⟩⟩ := step_sensor_eq_some hstep
        all_goals rfl
    | board e =>
        obtain ⟨-, -, b, -, rfl⟩ := step_board_eq_some hstep
        rfl
    | ble e =>
        obtain ⟨b, rfl, -⟩ := step_ble_eq_some hstep
        rfl
    | upload a => cases hlabel
  simulate s e t f hlabel hstep := by
    cases e with
    | upload a =>
        cases hlabel
        obtain ⟨-, u, hu, ⟨x, q, -, -, rfl⟩ | ⟨-, rfl⟩⟩ := step_upload_eq_some hstep
        all_goals exact hu
    | _ => cases hlabel

end BikeMcu.BikeSystem
