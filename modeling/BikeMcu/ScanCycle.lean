import BikeMcu.TransitionSystem
import BikeMcu.BleClient

namespace BikeMcu.ScanCycle

open BikeMcu.TransitionSystem
open BikeMcu.BleClient

inductive Scan where
  | off
  | requested
  | running
  deriving DecidableEq, Repr

/-- `stopping` is a stop request under way, `opening` an accepted
`esp_ble_gattc_enh_open` whose open event is still to come. -/
structure Radio where
  client : Client
  scan : Scan
  stopping : Bool
  opening : Bool
  linked : Bool
  deriving DecidableEq

/-- The effect of a call. `openOk` is the return value of
`esp_ble_gattc_enh_open`, which the callback ignores. -/
def issue (openOk : Bool) (s : Radio) : Call → Radio
  | .startScanning _ => { s with scan := .requested }
  | .stopScanning => { s with stopping := true }
  | .enhOpen _ _ _ => { s with opening := s.opening || openOk }
  | _ => s

def callback (openOk : Bool) (s : Radio) (r : Outcome) : Radio :=
  r.calls.foldl (issue openOk) { s with client := r.client }

inductive RadioEvent where
  | gap (e : GapEvent) (openOk : Bool)
  | gattc (gattcIf : UInt16) (e : GattcEvent)

/-- What the stack may deliver once the client is registered and its scan
parameters are set. -/
def admissible (s : Radio) : RadioEvent → Bool
  | .gap .scanParamSetCompleteEvt _ => false
  | .gap (.scanStartCompleteEvt _) _ => decide (s.scan = .requested)
  | .gap (.scanResultEvt _ _ _) _ | .gap .searchInqCmplEvt _ => decide (s.scan = .running)
  | .gap (.scanStopCompleteEvt _) _ => s.stopping
  | .gap .otherEvt _ => true
  | .gattc _ .regEvt => false
  | .gattc _ (.connectEvt _ _) => s.opening || s.linked
  | .gattc _ (.openEvt _) => s.opening
  | .gattc _ _ => s.linked

/-- What the event reports of the stack itself. -/
def progress (s : Radio) : RadioEvent → Radio
  | .gap (.scanStartCompleteEvt ok) _ => { s with scan := if ok then .running else .off }
  | .gap .searchInqCmplEvt _ => { s with scan := .off }
  | .gap (.scanStopCompleteEvt ok) _ =>
      { s with stopping := false, scan := if ok then .off else s.scan }
  | .gattc _ (.connectEvt _ _) => { s with linked := true }
  | .gattc _ (.openEvt ok) => { s with opening := false, linked := s.linked || ok }
  | .gattc _ .disconnectEvt => { s with linked := false }
  | _ => s

/-- What the callback of an event does. -/
def outcome (s : Radio) : RadioEvent → Outcome
  | .gap e _ => espGapCb s.client e
  | .gattc gattcIf e => gattcProfileEventHandler s.client gattcIf e

def react (s : Radio) : RadioEvent → Radio
  | .gap e openOk => callback openOk s (espGapCb s.client e)
  | .gattc gattcIf e => callback false s (gattcProfileEventHandler s.client gattcIf e)

def step (s : Radio) (e : RadioEvent) : Option Radio :=
  guarded (admissible s e = true) (react (progress s e) e)

/-- The client registered under `gattcIf` and told that its scan parameters are
set. -/
def init (gattcIf : UInt16) : Radio :=
  let client := { initClient with gattcIf := gattcIf }
  callback false
    { client := client, scan := .off, stopping := false, opening := false, linked := false }
    (espGapCb client .scanParamSetCompleteEvt)

def idle (s : Radio) : Bool :=
  !s.linked && !s.opening

/-- The client can still act on an advertisement. -/
def Alert (s : Radio) : Prop :=
  s.client.connect = false ∧ s.scan ≠ .off

instance (s : Radio) : Decidable (Alert s) :=
  inferInstanceAs (Decidable (_ ∧ _))

/-- An attempt to open a link fails, at once or later. -/
def openFails (s : Radio) : RadioEvent → Bool
  | .gap (.scanResultEvt _ _ advName) openOk =>
      decide (advName = some remoteDeviceName ∧ s.client.connect = false) && !openOk
  | .gattc _ (.openEvt ok) => !ok
  | _ => false

/-- The 30 seconds are over, the scan did not start, or a requested stop is
complete. -/
def endsScan : RadioEvent → Bool
  | .gap (.scanStartCompleteEvt ok) _ => !ok
  | .gap .searchInqCmplEvt _ => true
  | .gap (.scanStopCompleteEvt ok) _ => ok
  | _ => false

def drivesRadio : Call → Bool
  | .startScanning _ | .stopScanning | .enhOpen _ _ _ => true
  | _ => false

theorem callback_of_quiet (openOk : Bool) (s : Radio) {r : Outcome}
    (h : ∀ call ∈ r.calls, drivesRadio call = false) :
    callback openOk s r = { s with client := r.client } := by
  have hfold : ∀ (calls : List Call) (s : Radio),
      (∀ call ∈ calls, drivesRadio call = false) → calls.foldl (issue openOk) s = s := by
    intro calls
    induction calls with
    | nil => exact fun _ _ => rfl
    | cons call calls ih =>
        intro s hquiet
        have hissue : issue openOk s call = s := by
          have hcall := hquiet call List.mem_cons_self
          cases call <;> first | rfl | cases hcall
        rw [List.foldl_cons, hissue]
        exact ih s fun c hc => hquiet c (List.mem_cons_of_mem _ hc)
  exact hfold r.calls _ h

/-- The GATT side never touches the scan or opens a link. -/
theorem quiet_gattc (c : Client) (gattcIf : UInt16) (e : GattcEvent) :
    ∀ call ∈ (gattcProfileEventHandler c gattcIf e).calls, drivesRadio call = false := by
  intro call hcall
  cases e with
  | searchCmplEvt ok connId a =>
      simp only [gattcProfileEventHandler] at hcall
      split at hcall
      · rcases findChar_cases c gattcIf connId a with ⟨-, ⟨-, hcalls⟩ | ⟨-, -, hcalls⟩⟩
        · rcases List.mem_pair.mp (hcalls.subset hcall) with rfl | rfl
          · rfl
          · rfl
        · rw [hcalls] at hcall
          rcases List.mem_cons.mp hcall with rfl | hcall
          · rfl
          rcases List.mem_pair.mp hcall with rfl | rfl
          · rfl
          · rfl
      · cases hcall
  | regForNotifyEvt ok handle a =>
      simp only [gattcProfileEventHandler] at hcall
      split at hcall
      · obtain ⟨-, -, hcalls | ⟨-, hcalls⟩⟩ := findDescr_cases c gattcIf handle a
        · rcases List.mem_pair.mp (hcalls.subset hcall) with rfl | rfl
          · rfl
          · rfl
        · rw [hcalls] at hcall
          rcases List.mem_cons.mp hcall with rfl | hcall
          · rfl
          rcases List.mem_pair.mp hcall with rfl | rfl
          · rfl
          · rfl
      · cases hcall
  | notifyEvt valueLen memory =>
      obtain ⟨g, -, rfl⟩ := List.mem_map.mp hcall
      rfl
  | disSrvcCmplEvt ok connId =>
      cases ok with
      | true =>
          obtain rfl := List.mem_singleton.mp hcall
          rfl
      | false => cases hcall
  | writeDescrEvt ok =>
      cases ok with
      | true =>
          obtain rfl := List.mem_singleton.mp hcall
          rfl
      | false => cases hcall
  | searchResEvt startHandle endHandle uuid =>
      simp only [gattcProfileEventHandler] at hcall
      split at hcall <;> cases hcall
  | regEvt =>
      obtain rfl := List.mem_singleton.mp hcall
      rfl
  | connectEvt connId remoteBda =>
      obtain rfl := List.mem_singleton.mp hcall
      rfl
  | _ => cases hcall

theorem connect_gattc (c : Client) (gattcIf : UInt16) (e : GattcEvent) :
    (gattcProfileEventHandler c gattcIf e).client.connect =
      match e with
      | .disconnectEvt => false
      | _ => c.connect := by
  cases e with
  | searchCmplEvt ok connId a =>
      simp only [gattcProfileEventHandler]
      split
      · rcases findChar_cases c gattcIf connId a with ⟨-, ⟨hclient, -⟩ | ⟨-, hclient, -⟩⟩
        · rw [hclient]
        · rw [hclient]
      · rfl
  | regForNotifyEvt ok handle a =>
      simp only [gattcProfileEventHandler]
      split
      · rw [(findDescr_cases c gattcIf handle a).2.1]
      · rfl
  | searchResEvt startHandle endHandle uuid =>
      simp only [gattcProfileEventHandler]
      split
      · rfl
      · rfl
  | disSrvcCmplEvt ok connId => cases ok <;> rfl
  | writeDescrEvt ok => cases ok <;> rfl
  | _ => rfl

theorem react_gattc (s : Radio) (gattcIf : UInt16) (e : GattcEvent) :
    react s (.gattc gattcIf e) =
      { s with client := (gattcProfileEventHandler s.client gattcIf e).client } :=
  callback_of_quiet false s (quiet_gattc s.client gattcIf e)

theorem react_scanResult (s : Radio) (bda : BdAddr) (bleAddrType : UInt8)
    (advName : Option (List UInt8)) (openOk : Bool) :
    react s (.gap (.scanResultEvt bda bleAddrType advName) openOk) =
      if advName = some remoteDeviceName ∧ s.client.connect = false then
        { s with
          client := { s.client with connect := true }
          stopping := true
          opening := s.opening || openOk }
      else s := by
  by_cases hmatch : advName = some remoteDeviceName ∧ s.client.connect = false
  · have hcb : espGapCb s.client (.scanResultEvt bda bleAddrType advName) =
        ⟨{ s.client with connect := true },
          [.stopScanning, .enhOpen s.client.gattcIf bda bleAddrType], []⟩ := if_pos hmatch
    rw [if_pos hmatch, react, hcb]
    rfl
  · have hcb : espGapCb s.client (.scanResultEvt bda bleAddrType advName) =
        ⟨s.client, [], []⟩ := if_neg hmatch
    rw [if_neg hmatch, react, hcb]
    rfl

/-- A scan once ended stays ended: nothing but the completed setting of the scan
parameters requests one. -/
theorem scan_step {s t : Radio} {e : RadioEvent} (h : ScanCycle.step s e = some t) :
    t.scan = .off ↔ s.scan = .off ∨ endsScan e = true := by
  obtain ⟨hadm, rfl⟩ := guarded_eq_some.mp h
  cases e with
  | gap e openOk =>
      cases e with
      | scanParamSetCompleteEvt => cases hadm
      | scanStartCompleteEvt ok =>
          have hscan : s.scan = .requested := by simpa [admissible] using hadm
          cases ok <;> simp [react, progress, callback, espGapCb, endsScan, hscan]
      | scanResultEvt bda bleAddrType advName =>
          rw [react_scanResult]
          split <;> simp [progress, endsScan]
      | searchInqCmplEvt => simp [react, progress, callback, espGapCb, endsScan]
      | scanStopCompleteEvt ok =>
          cases ok <;> simp [react, progress, callback, espGapCb, endsScan]
      | otherEvt => simp [react, progress, callback, espGapCb, endsScan]
  | gattc gattcIf e =>
      rw [react_gattc]
      cases e <;> simp [progress, endsScan]

theorem scan_run {s t : Radio} {es : List RadioEvent}
    (hrun : run ScanCycle.step s es = some t) :
    t.scan ≠ .off ↔ s.scan ≠ .off ∧ ∀ e ∈ es, endsScan e = false := by
  induction es generalizing s with
  | nil =>
      have heq : s = t := by simpa [run] using hrun
      simp [heq]
  | cons e es ih =>
      obtain ⟨u, hu, htail⟩ := run_cons_eq_some.mp hrun
      rw [ih htail, ne_eq, scan_step hu, List.forall_mem_cons]
      simp only [not_or, Bool.not_eq_true, and_assoc]

/-- The only request to scan answers the event that ends the setting of the scan
parameters. -/
theorem startScanning_notMem {s t : Radio} {e : RadioEvent}
    (h : ScanCycle.step s e = some t) (duration : UInt32) :
    Call.startScanning duration ∉ (outcome s e).calls := by
  obtain ⟨hadm, -⟩ := guarded_eq_some.mp h
  intro hcall
  cases e with
  | gattc gattcIf e => cases quiet_gattc s.client gattcIf e _ hcall
  | gap e openOk =>
      cases e with
      | scanParamSetCompleteEvt => cases hadm
      | scanResultEvt bda bleAddrType advName =>
          simp only [outcome, espGapCb] at hcall
          split at hcall
          · rcases List.mem_pair.mp hcall with heq | heq <;> cases heq
          · cases hcall
      | _ => cases hcall

/-- The flag is set only while an open is pending or a link stands. -/
def Engaged (s : Radio) : Prop :=
  s.client.connect = true → s.opening = true ∨ s.linked = true

theorem engaged_step {s t : Radio} {e : RadioEvent} (hs : Engaged s)
    (hopen : openFails s e = false) (h : ScanCycle.step s e = some t) : Engaged t := by
  obtain ⟨hadm, rfl⟩ := guarded_eq_some.mp h
  cases e with
  | gap e openOk =>
      cases e with
      | scanParamSetCompleteEvt => cases hadm
      | scanResultEvt bda bleAddrType advName =>
          rw [react_scanResult]
          split
          · rename_i hmatch
            have hmatch' : advName = some remoteDeviceName ∧ s.client.connect = false := hmatch
            have hok : openOk = true := by simpa [openFails, hmatch'] using hopen
            intro _
            simp [progress, hok]
          · exact hs
      | _ => exact hs
  | gattc gattcIf e =>
      rw [react_gattc]
      intro hconnect
      rw [connect_gattc] at hconnect
      cases e with
      | disconnectEvt => cases hconnect
      | openEvt ok =>
          have hok : ok = true := by simpa [openFails] using hopen
          simp [progress, hok]
      | connectEvt connId remoteBda => simp [progress]
      | _ => exact hs hconnect

/-- As long as no attempt to open a link has failed, a client without a link or a
pending open has its flag cleared; its one scan is requested or running exactly until
it has ended, and no event makes it request another. -/
theorem client_scans_once (gattcIf : UInt16) (es : List RadioEvent) (s : Radio)
    (hrun : run ScanCycle.step (init gattcIf) es = some s) :
    (EachStep ScanCycle.step (fun s e => openFails s e = false) (init gattcIf) es →
      idle s = true → s.client.connect = false) ∧
    (s.scan ≠ .off ↔ ∀ e ∈ es, endsScan e = false) ∧
    EachStep ScanCycle.step
      (fun s e => ∀ duration, Call.startScanning duration ∉ (outcome s e).calls)
      (init gattcIf) es := by
  refine ⟨?_, ?_, eachStep_of_run (fun _ _ _ h => startScanning_notMem h) hrun⟩
  · intro hopen hidle
    have hengaged : Engaged s :=
      invariant_of_run_under (fun _ _ _ h hC hs => engaged_step h hC hs)
        (by intro hconnect; cases hconnect) hopen hrun
    by_contra hconnect
    rw [Bool.not_eq_false] at hconnect
    simp only [idle, Bool.and_eq_true, Bool.not_eq_true'] at hidle
    rcases hengaged hconnect with hopening | hlinked
    · rw [hidle.2] at hopening
      cases hopening
    · rw [hidle.1] at hlinked
      cases hlinked
  · have hinit : (init gattcIf).scan ≠ .off := by
      change Scan.requested ≠ Scan.off
      decide
    rw [scan_run hrun]
    exact and_iff_right hinit

/-- The handlebar device is found and linked, and the link is lost again. -/
def linkedOnce : List RadioEvent :=
  [.gap (.scanStartCompleteEvt true) false,
    .gap (.scanResultEvt (Vector.replicate 6 1) 0 (some remoteDeviceName)) true,
    .gap (.scanStopCompleteEvt true) false, .gattc 3 (.connectEvt 7 (Vector.replicate 6 1)),
    .gattc 3 (.openEvt true), .gattc 3 .disconnectEvt]

theorem client_scans_once_after_link :
    ∃ s, run ScanCycle.step (init 3) linkedOnce = some s ∧ idle s = true ∧
      s.client.connect = false ∧ s.scan = .off := by
  obtain ⟨s, hrun, hidle⟩ := exists_run_of_any
    (show (run ScanCycle.step (init 3) linkedOnce).any idle = true by decide)
  have honce := client_scans_once 3 _ s hrun
  refine ⟨s, hrun, hidle, honce.1 (by decide) hidle, ?_⟩
  by_contra hscan
  exact absurd (honce.2.1.mp hscan) (by decide)

/-- When the 30 seconds pass without the handlebar device, nothing scans for it any
more. -/
theorem scan_ends_for_good :
    ¬ ∀ (gattcIf : UInt16) (es : List RadioEvent) (s : Radio),
      run ScanCycle.step (init gattcIf) es = some s → idle s = true → Alert s := by
  intro h
  obtain ⟨s, hrun, hs⟩ := exists_run_of_any
    (show (run ScanCycle.step (init 3)
      [.gap (.scanStartCompleteEvt true) false, .gap .searchInqCmplEvt false]).any
      (fun s => decide (idle s = true ∧ ¬ Alert s)) = true by decide)
  obtain ⟨hidle, hdead⟩ := of_decide_eq_true hs
  exact hdead (h 3 _ s hrun hidle)

end BikeMcu.ScanCycle
