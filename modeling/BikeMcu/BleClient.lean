import BikeMcu.BoardSystem

/-!
The two callbacks of `ble_client.c`. An event carries what the stack reports in
it and, where the handler calls back into the stack, the answers it gets.
-/

namespace BikeMcu.BleClient

open BikeMcu.LampCommands
open BikeMcu.BoardSystem

abbrev BdAddr := Vector UInt8 6

def remoteServiceUuid : UInt16 := 0xAAAA

def remoteNotifyCharUuid : UInt16 := 0xAAAB

def uuidCharClientConfig : UInt16 := 0x2902

def uuidLen16 : UInt16 := 2

def invalidHandle : UInt16 := 0

def charPropBitNotify : UInt8 := 0x10

/-- `esp_bt_uuid_t`, read as a 16-bit UUID. -/
structure Uuid where
  len : UInt16
  uuid16 : UInt16
  deriving DecidableEq, Repr

structure CharElem where
  charHandle : UInt16
  properties : UInt8
  deriving DecidableEq, Repr

structure DescrElem where
  handle : UInt16
  uuid : Uuid
  deriving DecidableEq, Repr

/-- Memory from a pointer on, whoever it belongs to, with the number of elements
allocated there and the number last reported. -/
structure Buffer (α : Type) where
  memory : ℕ → α
  allocated : ℕ
  reported : ℕ

structure Access where
  index : ℕ
  allocated : ℕ
  reported : ℕ
  deriving DecidableEq, Repr

def Access.InBounds (a : Access) : Prop :=
  a.index < a.reported ∧ a.index < a.allocated

instance (a : Access) : Decidable a.InBounds :=
  inferInstanceAs (Decidable (_ ∧ _))

def Buffer.read {α : Type} (b : Buffer α) (i : ℕ) : α × Access :=
  (b.memory i, { index := i, allocated := b.allocated, reported := b.reported })

inductive AttrType where
  | characteristic
  | descriptor
  deriving DecidableEq, Repr

/-- The calls into the stack and the lamp commands. -/
inductive Call where
  | setScanParams
  | startScanning (duration : UInt32)
  | stopScanning
  | enhOpen (gattcIf : UInt16) (remoteBda : BdAddr) (remoteAddrType : UInt8)
  | sendMtuReq (gattcIf connId : UInt16)
  | searchService (gattcIf connId uuid : UInt16)
  | getAttrCount (gattcIf connId : UInt16) (type : AttrType)
      (startHandle endHandle charHandle : UInt16)
  | getCharByUuid (gattcIf connId startHandle endHandle uuid : UInt16)
  | registerForNotify (gattcIf : UInt16) (remoteBda : BdAddr) (handle : UInt16)
  | getDescrByCharHandle (gattcIf connId charHandle uuid : UInt16)
  | writeCharDescr (gattcIf connId handle : UInt16) (value : List UInt8)
  | writeChar (gattcIf connId handle : UInt16) (value : List UInt8)
  | signal (g : Signal)
  deriving DecidableEq

/-- The flags of `ble_client.c` and the fields of `gl_profile_tab` that its
callbacks use. -/
structure Client where
  connect : Bool
  getServer : Bool
  gattcIf : UInt16
  connId : UInt16
  serviceStartHandle : UInt16
  serviceEndHandle : UInt16
  charHandle : UInt16
  remoteBda : BdAddr
  deriving DecidableEq

def gattIfNone : UInt16 := 0xFF

def initClient : Client :=
  { connect := false, getServer := false, gattcIf := gattIfNone, connId := 0,
    serviceStartHandle := 0, serviceEndHandle := 0, charHandle := 0,
    remoteBda := Vector.replicate 6 0 }

structure Outcome where
  client : Client
  calls : List Call
  reads : List Access

/-- The answers to the calls made for an attribute: the attribute count, whether `malloc`
succeeds, whether the query does, the count after it, and what the buffer then holds. -/
structure QueryAnswers (α : Type) where
  countOk : Bool
  count : UInt16
  memory : Bool
  queryOk : Bool
  found : UInt16
  elems : ℕ → α

abbrev CharAnswers := QueryAnswers CharElem

abbrev DescrAnswers := QueryAnswers DescrElem

/-- The query was made and succeeded, and `x` is among the elements it turned up. -/
def QueryAnswers.TurnedUp {α : Type} (a : QueryAnswers α) (x : α) : Prop :=
  a.countOk = true ∧ a.count ≠ 0 ∧ a.memory = true ∧ a.queryOk = true ∧
    ∃ k, k < a.found.toNat ∧ k < a.count.toNat ∧ a.elems k = x

/-- The part of `ESP_GATTC_SEARCH_CMPL_EVT` under `get_server`. -/
def findChar (c : Client) (gattcIf connId : UInt16) (a : CharAnswers) : Outcome :=
  let count := Call.getAttrCount gattcIf connId .characteristic c.serviceStartHandle
    c.serviceEndHandle invalidHandle
  let query := Call.getCharByUuid gattcIf connId c.serviceStartHandle c.serviceEndHandle
    remoteNotifyCharUuid
  if !a.countOk then ⟨c, [count], []⟩
  else if a.count = 0 then ⟨c, [count], []⟩
  else if !a.memory then ⟨c, [count], []⟩
  else if !a.queryOk then ⟨c, [count, query], []⟩
  else if a.found = 0 then ⟨c, [count, query], []⟩
  else
    let charElemResult : Buffer CharElem :=
      { memory := a.elems, allocated := a.count.toNat, reported := a.found.toNat }
    let elem := charElemResult.read 0
    if elem.1.properties &&& charPropBitNotify = 0 then ⟨c, [count, query], [elem.2]⟩
    else
      { client := { c with charHandle := elem.1.charHandle }
        calls := [count, query,
          .registerForNotify gattcIf c.remoteBda elem.1.charHandle]
        reads := [elem.2, elem.2, elem.2] }

/-- The part of `ESP_GATTC_REG_FOR_NOTIFY_EVT` after a successful registration. -/
def findDescr (c : Client) (gattcIf handle : UInt16) (a : DescrAnswers) : Outcome :=
  let count := Call.getAttrCount gattcIf c.connId .descriptor c.serviceStartHandle
    c.serviceEndHandle c.charHandle
  let query := Call.getDescrByCharHandle gattcIf c.connId handle uuidCharClientConfig
  if !a.countOk then ⟨c, [count], []⟩
  else if a.count = 0 then ⟨c, [count], []⟩
  else if !a.memory then ⟨c, [count], []⟩
  else if !a.queryOk then ⟨c, [count, query], []⟩
  else if a.found = 0 then ⟨c, [count, query], []⟩
  else
    let descrElemResult : Buffer DescrElem :=
      { memory := a.elems, allocated := a.count.toNat, reported := a.found.toNat }
    let elem := descrElemResult.read 0
    if elem.1.uuid.len ≠ uuidLen16 then ⟨c, [count, query], [elem.2]⟩
    else if elem.1.uuid.uuid16 ≠ uuidCharClientConfig then
      ⟨c, [count, query], [elem.2, elem.2]⟩
    else
      { client := c
        calls := [count, query, .writeCharDescr gattcIf c.connId elem.1.handle [1, 0]]
        reads := [elem.2, elem.2, elem.2] }

/-- `ESP_GATTC_NOTIFY_EVT`: the first byte is read whatever the length. -/
def notified (c : Client) (value : Buffer UInt8) : Outcome :=
  let cmd := value.read 0
  { client := c
    calls := (notifyCommand cmd.1).toList.map .signal
    reads := [cmd.2] }

inductive GattcEvent where
  | regEvt
  | connectEvt (connId : UInt16) (remoteBda : BdAddr)
  | openEvt (ok : Bool)
  | disSrvcCmplEvt (ok : Bool) (connId : UInt16)
  | cfgMtuEvt
  | searchResEvt (startHandle endHandle : UInt16) (uuid : Uuid)
  | searchCmplEvt (ok : Bool) (connId : UInt16) (answers : CharAnswers)
  | regForNotifyEvt (ok : Bool) (handle : UInt16) (answers : DescrAnswers)
  | notifyEvt (valueLen : UInt16) (memory : ℕ → UInt8)
  | writeDescrEvt (ok : Bool)
  | srvcChgEvt
  | writeCharEvt (ok : Bool)
  | disconnectEvt
  | otherEvt

def writeCharData : List UInt8 :=
  (List.range 35).map fun i => UInt8.ofNat (i % 256)

def notifyValue (valueLen : UInt16) (memory : ℕ → UInt8) : Buffer UInt8 :=
  { memory := memory, allocated := valueLen.toNat, reported := valueLen.toNat }

def gattcProfileEventHandler (c : Client) (gattcIf : UInt16) : GattcEvent → Outcome
  | .regEvt => ⟨c, [.setScanParams], []⟩
  | .connectEvt connId remoteBda =>
      ⟨{ c with connId := connId, remoteBda := remoteBda }, [.sendMtuReq gattcIf connId], []⟩
  | .disSrvcCmplEvt ok connId =>
      if ok then ⟨c, [.searchService gattcIf connId remoteServiceUuid], []⟩ else ⟨c, [], []⟩
  | .searchResEvt startHandle endHandle uuid =>
      if uuid.len = uuidLen16 ∧ uuid.uuid16 = remoteServiceUuid then
        ⟨{ c with
            getServer := true
            serviceStartHandle := startHandle
            serviceEndHandle := endHandle }, [], []⟩
      else ⟨c, [], []⟩
  | .searchCmplEvt ok connId answers =>
      if ok && c.getServer then findChar c gattcIf connId answers else ⟨c, [], []⟩
  | .regForNotifyEvt ok handle answers =>
      if ok then findDescr c gattcIf handle answers else ⟨c, [], []⟩
  | .notifyEvt valueLen memory => notified c (notifyValue valueLen memory)
  | .writeDescrEvt ok =>
      if ok then ⟨c, [.writeChar gattcIf c.connId c.charHandle writeCharData], []⟩
      else ⟨c, [], []⟩
  | .disconnectEvt => ⟨{ c with connect := false, getServer := false }, [], []⟩
  | .openEvt _ | .cfgMtuEvt | .srvcChgEvt | .writeCharEvt _ | .otherEvt => ⟨c, [], []⟩

def remoteDeviceName : List UInt8 :=
  ['E'.toUInt8, 'S'.toUInt8, 'P'.toUInt8, '3'.toUInt8, '2'.toUInt8]

/-- `scanResultEvt` is the report of an advertisement, with the complete name the
stack resolves in it. -/
inductive GapEvent where
  | scanParamSetCompleteEvt
  | scanStartCompleteEvt (ok : Bool)
  | scanResultEvt (bda : BdAddr) (bleAddrType : UInt8) (advName : Option (List UInt8))
  | searchInqCmplEvt
  | scanStopCompleteEvt (ok : Bool)
  | otherEvt

def espGapCb (c : Client) : GapEvent → Outcome
  | .scanParamSetCompleteEvt => ⟨c, [.startScanning 30], []⟩
  | .scanResultEvt bda bleAddrType advName =>
      if advName = some remoteDeviceName ∧ c.connect = false then
        ⟨{ c with connect := true },
          [.stopScanning, .enhOpen c.gattcIf bda bleAddrType], []⟩
      else ⟨c, [], []⟩
  | .scanStartCompleteEvt _ | .searchInqCmplEvt | .scanStopCompleteEvt _ | .otherEvt =>
      ⟨c, [], []⟩

/-- Only the first element of a buffer is read, and only when neither its
allocation nor the last count is empty. -/
def ReadsFirst (count found : UInt16) (reads : List Access) : Prop :=
  ∀ x ∈ reads, x = { index := 0, allocated := count.toNat, reported := found.toNat } ∧
    count ≠ 0 ∧ found ≠ 0

theorem readsFirst_nil (count found : UInt16) : ReadsFirst count found [] :=
  fun _ hx => absurd hx List.not_mem_nil

theorem readsFirst_replicate {count found : UInt16} (hcount : ¬ count = 0)
    (hfound : ¬ found = 0) (n : ℕ) :
    ReadsFirst count found (List.replicate n
      { index := 0, allocated := count.toNat, reported := found.toNat }) :=
  fun _ hx => ⟨List.eq_of_mem_replicate hx, hcount, hfound⟩

theorem turnedUp_first {α : Type} {a : QueryAnswers α} (hok : a.countOk = true)
    (hcount : a.count ≠ 0) (hmemory : a.memory = true) (hquery : a.queryOk = true)
    (hfound : a.found ≠ 0) : a.TurnedUp (a.elems 0) :=
  ⟨hok, hcount, hmemory, hquery, 0, UInt16.pos_iff_ne_zero.mpr hfound,
    UInt16.pos_iff_ne_zero.mpr hcount, rfl⟩

/-- Everything `findChar` can do: it asks at most the two questions, or also
registers for the first characteristic they turn up. -/
theorem findChar_cases (c : Client) (gattcIf connId : UInt16) (a : CharAnswers) :
    ReadsFirst a.count a.found (findChar c gattcIf connId a).reads ∧
    ((findChar c gattcIf connId a).client = c ∧
      (findChar c gattcIf connId a).calls.Sublist
        [.getAttrCount gattcIf connId .characteristic c.serviceStartHandle
            c.serviceEndHandle invalidHandle,
          .getCharByUuid gattcIf connId c.serviceStartHandle c.serviceEndHandle
            remoteNotifyCharUuid] ∨
    a.TurnedUp (a.elems 0) ∧
      (findChar c gattcIf connId a).client = { c with charHandle := (a.elems 0).charHandle } ∧
      (findChar c gattcIf connId a).calls =
        [.getAttrCount gattcIf connId .characteristic c.serviceStartHandle
            c.serviceEndHandle invalidHandle,
          .getCharByUuid gattcIf connId c.serviceStartHandle c.serviceEndHandle
            remoteNotifyCharUuid,
          .registerForNotify gattcIf c.remoteBda (a.elems 0).charHandle]) := by
  simp only [findChar, Buffer.read]
  split
  · exact ⟨readsFirst_nil _ _, .inl ⟨rfl, by simp⟩⟩
  rename_i hok
  split
  · exact ⟨readsFirst_nil _ _, .inl ⟨rfl, by simp⟩⟩
  rename_i hcount
  split
  · exact ⟨readsFirst_nil _ _, .inl ⟨rfl, by simp⟩⟩
  rename_i hmemory
  split
  · exact ⟨readsFirst_nil _ _, .inl ⟨rfl, by simp⟩⟩
  rename_i hquery
  split
  · exact ⟨readsFirst_nil _ _, .inl ⟨rfl, by simp⟩⟩
  rename_i hfound
  by_cases hnotify : (a.elems 0).properties &&& charPropBitNotify = 0
  · simp only [hnotify, if_true]
    exact ⟨readsFirst_replicate hcount hfound 1, .inl ⟨trivial, by simp⟩⟩
  · have hfirst : a.TurnedUp (a.elems 0) := turnedUp_first (by simpa using hok) hcount
      (by simpa using hmemory) (by simpa using hquery) hfound
    simp only [hnotify, if_false]
    exact ⟨readsFirst_replicate hcount hfound 3, .inr ⟨hfirst, trivial, trivial⟩⟩

/-- The same for the descriptor, which is written to if the query turns it up. -/
theorem findDescr_cases (c : Client) (gattcIf handle : UInt16) (a : DescrAnswers) :
    ReadsFirst a.count a.found (findDescr c gattcIf handle a).reads ∧
    (findDescr c gattcIf handle a).client = c ∧
    ((findDescr c gattcIf handle a).calls.Sublist
      [.getAttrCount gattcIf c.connId .descriptor c.serviceStartHandle c.serviceEndHandle
          c.charHandle,
        .getDescrByCharHandle gattcIf c.connId handle uuidCharClientConfig] ∨
    a.TurnedUp (a.elems 0) ∧
      (findDescr c gattcIf handle a).calls =
        [.getAttrCount gattcIf c.connId .descriptor c.serviceStartHandle c.serviceEndHandle
            c.charHandle,
          .getDescrByCharHandle gattcIf c.connId handle uuidCharClientConfig,
          .writeCharDescr gattcIf c.connId (a.elems 0).handle [1, 0]]) := by
  simp only [findDescr, Buffer.read]
  split
  · exact ⟨readsFirst_nil _ _, rfl, .inl (by simp)⟩
  rename_i hok
  split
  · exact ⟨readsFirst_nil _ _, rfl, .inl (by simp)⟩
  rename_i hcount
  split
  · exact ⟨readsFirst_nil _ _, rfl, .inl (by simp)⟩
  rename_i hmemory
  split
  · exact ⟨readsFirst_nil _ _, rfl, .inl (by simp)⟩
  rename_i hquery
  split
  · exact ⟨readsFirst_nil _ _, rfl, .inl (by simp)⟩
  rename_i hfound
  have hfirst : a.TurnedUp (a.elems 0) := turnedUp_first (by simpa using hok) hcount
    (by simpa using hmemory) (by simpa using hquery) hfound
  by_cases hlen : (a.elems 0).uuid.len = uuidLen16
  · by_cases huuid : (a.elems 0).uuid.uuid16 = uuidCharClientConfig
    · simp only [ne_eq, hlen, huuid, not_true_eq_false, if_false]
      exact ⟨readsFirst_replicate hcount hfound 3, trivial, .inr ⟨hfirst, trivial⟩⟩
    · simp only [ne_eq, hlen, huuid, not_true_eq_false, not_false_eq_true, if_false, if_true]
      exact ⟨readsFirst_replicate hcount hfound 2, trivial, .inl (by simp)⟩
  · simp only [ne_eq, hlen, not_false_eq_true, if_true]
    exact ⟨readsFirst_replicate hcount hfound 1, trivial, .inl (by simp)⟩

end BikeMcu.BleClient
