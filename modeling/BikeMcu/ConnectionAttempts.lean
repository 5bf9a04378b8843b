import BikeMcu.CString
import BikeMcu.RunHistory
import BikeMcu.ScanCycle

namespace BikeMcu.ConnectionAttempts

open BikeMcu.RunHistory
open BikeMcu.BleClient
open BikeMcu.CString

/-- The array of the name, up to its terminator. -/
def remoteDeviceNameArray : List UInt8 :=
  remoteDeviceName ++ [0]

/-- `none` is the null pointer; a name comes with its length and need not end. -/
def isRemoteDevice (advName : Option (List UInt8)) : Bool :=
  match advName with
  | none => false
  | some name =>
      decide (strlen remoteDeviceNameArray = some name.length) &&
        decide (strncmp name remoteDeviceNameArray name.length = some 0)

def onScanResult (c : Client) (bda : BdAddr) (bleAddrType : UInt8)
    (advName : Option (List UInt8)) : Outcome :=
  if isRemoteDevice advName then
    if c.connect = false then
      ⟨{ c with connect := true },
        [.stopScanning, .enhOpen c.gattcIf bda bleAddrType], []⟩
    else ⟨c, [], []⟩
  else ⟨c, [], []⟩

/-- The loop over the one profile: it gets the events of its interface and those of
none. -/
def callProfiles (c : Client) (gattcIf : UInt16) (e : GattcEvent) : Outcome :=
  if gattcIf = gattIfNone ∨ gattcIf = c.gattcIf then gattcProfileEventHandler c gattcIf e
  else ⟨c, [], []⟩

/-- A successful registration stores the interface first, a failed one ends here. -/
def espGattcCb (c : Client) (gattcIf : UInt16) (regOk : Bool) : GattcEvent → Outcome
  | .regEvt =>
      if regOk then callProfiles { c with gattcIf := gattcIf } gattcIf .regEvt else ⟨c, [], []⟩
  | e => callProfiles c gattcIf e

/-- An event of either kind; `regOk` is the status that a registration event
reports. -/
inductive BleEvent where
  | gap (e : GapEvent)
  | gattc (gattcIf : UInt16) (regOk : Bool) (e : GattcEvent)

def callbacks (c : Client) : BleEvent → Outcome
  | .gap (.scanResultEvt bda bleAddrType advName) => onScanResult c bda bleAddrType advName
  | .gap e => espGapCb c e
  | .gattc gattcIf regOk e => espGattcCb c gattcIf regOk e

def deliver (c : Client) (e : BleEvent) : Option Client :=
  some (callbacks c e).client

def calls (x : Client × BleEvent) : List Call :=
  (callbacks x.1 x.2).calls

def Opens (x : Client × BleEvent) : Prop :=
  ∃ gattcIf bda bleAddrType, Call.enhOpen gattcIf bda bleAddrType ∈ calls x

def Disconnects : Client × BleEvent → Prop
  | (_, .gattc _ _ .disconnectEvt) => True
  | _ => False

theorem isRemoteDevice_iff (advName : Option (List UInt8)) :
    isRemoteDevice advName = true ↔ advName = some remoteDeviceName := by
  have hnul : (0 : UInt8) ∉ remoteDeviceName := by decide
  cases advName with
  | none => simp [isRemoteDevice]
  | some name =>
      rw [isRemoteDevice, Bool.and_eq_true, decide_eq_true_eq, decide_eq_true_eq,
        remoteDeviceNameArray, strlen_append_nul hnul, Option.some_inj, Option.some_inj]
      constructor
      · rintro ⟨hlen, hcmp⟩
        exact (strncmp_eq_zero_iff hnul hlen.symm [0]).mp hcmp
      · rintro rfl
        exact ⟨rfl, (strncmp_eq_zero_iff hnul rfl [0]).mpr rfl⟩

/-- The byte-wise test of the abstract callback is what the two C functions
compute. -/
theorem onScanResult_eq (c : Client) (bda : BdAddr) (bleAddrType : UInt8)
    (advName : Option (List UInt8)) :
    onScanResult c bda bleAddrType advName =
      espGapCb c (.scanResultEvt bda bleAddrType advName) := by
  rw [onScanResult, espGapCb]
  by_cases hname : isRemoteDevice advName = true
  · have hmatch := (isRemoteDevice_iff advName).mp hname
    rw [if_pos hname]
    by_cases hconnect : c.connect = false
    · rw [if_pos hconnect, if_pos ⟨hmatch, hconnect⟩]
    · rw [if_neg hconnect, if_neg fun h => hconnect h.2]
  · rw [if_neg hname, if_neg fun h => hname ((isRemoteDevice_iff advName).mpr h.1)]

theorem callbacks_scanResult (c : Client) (bda : BdAddr) (bleAddrType : UInt8)
    (advName : Option (List UInt8)) :
    callbacks c (.gap (.scanResultEvt bda bleAddrType advName)) =
      if advName = some remoteDeviceName ∧ c.connect = false then
        ⟨{ c with connect := true },
          [.stopScanning, .enhOpen c.gattcIf bda bleAddrType], []⟩
      else ⟨c, [], []⟩ :=
  onScanResult_eq c bda bleAddrType advName

theorem espGattcCb_cases (c : Client) (gattcIf : UInt16) (regOk : Bool) (e : GattcEvent) :
    espGattcCb c gattcIf regOk e = ⟨c, [], []⟩ ∨
    ∃ c' : Client, c'.connect = c.connect ∧
      espGattcCb c gattcIf regOk e = callProfiles c' gattcIf e := by
  cases e with
  | regEvt =>
      cases regOk with
      | true => exact .inr ⟨{ c with gattcIf := gattcIf }, rfl, rfl⟩
      | false => exact .inl rfl
  | _ => exact .inr ⟨c, rfl, rfl⟩

theorem quiet_espGattcCb (c : Client) (gattcIf : UInt16) (regOk : Bool) (e : GattcEvent) :
    ∀ call ∈ (espGattcCb c gattcIf regOk e).calls, ScanCycle.drivesRadio call = false := by
  rcases espGattcCb_cases c gattcIf regOk e with h | ⟨c', -, h⟩
  · rw [h]
    exact fun _ hcall => absurd hcall List.not_mem_nil
  · rw [h, callProfiles]
    split
    · exact ScanCycle.quiet_gattc c' gattcIf e
    · exact fun _ hcall => absurd hcall List.not_mem_nil

theorem connect_espGattcCb (c : Client) (gattcIf : UInt16) (regOk : Bool) {e : GattcEvent}
    (he : e ≠ .disconnectEvt) : (espGattcCb c gattcIf regOk e).client.connect = c.connect := by
  rcases espGattcCb_cases c gattcIf regOk e with h | ⟨c', hc, h⟩
  · rw [h]
  · rw [h, callProfiles, ← hc]
    split
    · rw [ScanCycle.connect_gattc]
      cases e with
      | disconnectEvt => exact absurd rfl he
      | _ => rfl
    · rfl

/-- An attempt is made at one place only. -/
theorem enhOpen_mem_calls {c : Client} {e : BleEvent} {gattcIf : UInt16} {bda : BdAddr}
    {bleAddrType : UInt8} (h : Call.enhOpen gattcIf bda bleAddrType ∈ calls (c, e)) :
    e = .gap (.scanResultEvt bda bleAddrType (some remoteDeviceName)) ∧ c.connect = false ∧
      calls (c, e) = [.stopScanning, .enhOpen gattcIf bda bleAddrType] ∧
      (callbacks c e).client.connect = true := by
  cases e with
  | gattc gattcIf' regOk e => cases quiet_espGattcCb c gattcIf' regOk e _ h
  | gap e =>
      cases e with
      | scanResultEvt bda' bleAddrType' advName =>
          simp only [calls, callbacks_scanResult] at h ⊢
          split at h
          · rename_i hmatch
            rcases List.mem_pair.mp h with hstop | hopen
            · cases hstop
            · cases hopen
              rw [if_pos hmatch]
              obtain ⟨rfl, hconnect⟩ := hmatch
              exact ⟨rfl, hconnect, rfl, rfl⟩
          · cases h
      | scanParamSetCompleteEvt => cases List.mem_singleton.mp h
      | _ => cases h

theorem connect_kept {c t : Client} {e : BleEvent} (hc : c.connect = true)
    (h : deliver c e = some t) : t.connect = true ∨ Disconnects (c, e) := by
  obtain rfl := Option.some.inj h
  cases e with
  | gap e =>
      cases e with
      | scanResultEvt bda bleAddrType advName =>
          have hblocked : ¬ (advName = some remoteDeviceName ∧ c.connect = false) := by
            rw [hc]
            simp
          rw [callbacks_scanResult, if_neg hblocked]
          exact .inl hc
      | _ => exact .inl hc
  | gattc gattcIf regOk e =>
      by_cases he : e = .disconnectEvt
      · subst he
        exact .inr trivial
      · exact .inl ((connect_espGattcCb c gattcIf regOk he).trans hc)

/-- Over every sequence of events: an attempt goes to the address and address type of
the scan result at hand, whose name is that of the device byte for byte; it directly
follows the request to stop the scan, once on the event; and no second one is made
before a disconnect event. -/
theorem one_attempt_until_disconnect (es : List BleEvent) :
    (∀ x ∈ steps deliver initClient es, ∀ gattcIf bda bleAddrType,
      Call.enhOpen gattcIf bda bleAddrType ∈ calls x →
        x.2 = .gap (.scanResultEvt bda bleAddrType (some remoteDeviceName)) ∧
          calls x = [.stopScanning, .enhOpen gattcIf bda bleAddrType]) ∧
    ∀ pre x mid y post, steps deliver initClient es = pre ++ x :: (mid ++ y :: post) →
      Opens x → Opens y → ∃ z ∈ mid, Disconnects z := by
  constructor
  · intro x _ gattcIf bda bleAddrType hopen
    obtain ⟨hevent, -, hcalls, -⟩ := enhOpen_mem_calls hopen
    exact ⟨hevent, hcalls⟩
  · intro pre x mid y post hsteps hx hy
    have hset : ∀ c e t, Opens (c, e) → deliver c e = some t → t.connect = true := by
      rintro c e t ⟨gattcIf, bda, bleAddrType, hopen⟩ ht
      obtain rfl := Option.some.inj ht
      exact (enhOpen_mem_calls hopen).2.2.2
    have hblock : ∀ c e, c.connect = true → ¬ Opens (c, e) := by
      rintro c e hc ⟨gattcIf, bda, bleAddrType, hopen⟩
      rw [(enhOpen_mem_calls hopen).2.1] at hc
      cases hc
    exact exists_between_of_latch hset (fun c e t hc ht => connect_kept hc ht) hblock hsteps
      hx hy

/-- The device is found twice over before it connects, and again after the link is
lost. -/
def foundAgain : List BleEvent :=
  [.gattc 3 true .regEvt,
    .gap (.scanResultEvt (Vector.replicate 6 1) 0 (some remoteDeviceName)),
    .gap (.scanResultEvt (Vector.replicate 6 2) 0 (some remoteDeviceName)),
    .gattc 3 true .disconnectEvt,
    .gap (.scanResultEvt (Vector.replicate 6 2) 1 (some remoteDeviceName))]

theorem one_attempt_until_disconnect_found_again :
    ∃ pre x mid y post, steps deliver initClient foundAgain = pre ++ x :: (mid ++ y :: post) ∧
      Opens x ∧ Opens y ∧ ∃ z ∈ mid, Disconnects z := by
  have hfirst : Opens ({ initClient with gattcIf := 3 },
      .gap (.scanResultEvt (Vector.replicate 6 1) 0 (some remoteDeviceName))) :=
    ⟨3, Vector.replicate 6 1, 0, by decide⟩
  have hsecond : Opens ({ initClient with gattcIf := 3 },
      .gap (.scanResultEvt (Vector.replicate 6 2) 1 (some remoteDeviceName))) :=
    ⟨3, Vector.replicate 6 2, 1, by decide⟩
  have hsteps : steps deliver initClient foundAgain =
      (steps deliver initClient foundAgain).take 1 ++
        ({ initClient with gattcIf := 3 },
          .gap (.scanResultEvt (Vector.replicate 6 1) 0 (some remoteDeviceName))) ::
        (((steps deliver initClient foundAgain).drop 2).take 2 ++
          ({ initClient with gattcIf := 3 },
            .gap (.scanResultEvt (Vector.replicate 6 2) 1 (some remoteDeviceName))) :: []) := rfl
  exact ⟨_, _, _, _, _, hsteps, hfirst, hsecond,
    (one_attempt_until_disconnect foundAgain).2 _ _ _ _ _ hsteps hfirst hsecond⟩

end BikeMcu.ConnectionAttempts
