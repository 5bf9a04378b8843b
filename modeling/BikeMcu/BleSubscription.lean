import BikeMcu.RunHistory
import BikeMcu.BleHandles

namespace BikeMcu.BleSubscription

open BikeMcu.TransitionSystem
open BikeMcu.RunHistory
open BikeMcu.BleClient
open BikeMcu.BleHandles

/-- A peer that can be subscribed to, with the answers that the stack gives about it. -/
structure Peer where
  startHandle : UInt16
  endHandle : UInt16
  chars : CharAnswers
  descrs : DescrAnswers
  chars_usable : chars.countOk = true ∧ chars.count ≠ 0 ∧ chars.memory = true ∧
    chars.queryOk = true ∧ chars.found ≠ 0
  notifies : (chars.elems 0).properties &&& charPropBitNotify ≠ 0
  descrs_usable : descrs.countOk = true ∧ descrs.count ≠ 0 ∧ descrs.memory = true ∧
    descrs.queryOk = true ∧ descrs.found ≠ 0
  configurable : (descrs.elems 0).uuid = ⟨uuidLen16, uuidCharClientConfig⟩

def Peer.charHandle (p : Peer) : UInt16 := (p.chars.elems 0).charHandle

/-- The events from the end of the service discovery to the answer to the descriptor
write. -/
def Peer.answers (p : Peer) (gattcIf connId : UInt16) : List (UInt16 × GattcEvent) :=
  [(gattcIf, .disSrvcCmplEvt true connId),
    (gattcIf, .searchResEvt p.startHandle p.endHandle ⟨uuidLen16, remoteServiceUuid⟩),
    (gattcIf, .searchCmplEvt true connId p.chars),
    (gattcIf, .regForNotifyEvt true p.charHandle p.descrs),
    (gattcIf, .writeDescrEvt true)]

/-- The calls that subscribe to the peer: every one for the link `connId` with
`remoteBda`, in the service's range, and for the handles that the peer has named. -/
def Peer.calls (p : Peer) (gattcIf connId : UInt16) (remoteBda : BdAddr) : List Call :=
  [.searchService gattcIf connId remoteServiceUuid,
    .getAttrCount gattcIf connId .characteristic p.startHandle p.endHandle invalidHandle,
    .getCharByUuid gattcIf connId p.startHandle p.endHandle remoteNotifyCharUuid,
    .registerForNotify gattcIf remoteBda p.charHandle,
    .getAttrCount gattcIf connId .descriptor p.startHandle p.endHandle p.charHandle,
    .getDescrByCharHandle gattcIf connId p.charHandle uuidCharClientConfig,
    .writeCharDescr gattcIf connId (p.descrs.elems 0).handle [1, 0],
    .writeChar gattcIf connId p.charHandle writeCharData]

/-- Events that ask nothing of the stack and answer nothing. -/
def idle : GattcEvent → Bool
  | .openEvt _ | .notifyEvt _ _ | .srvcChgEvt | .otherEvt => true
  | _ => false

def isSignal : Call → Bool
  | .signal _ => true
  | _ => false

/-- The calls into the stack; a notification also sends lamp commands. -/
def stackCalls (x : GattLink × UInt16 × GattcEvent) : List Call :=
  (gattcProfileEventHandler x.1.client x.2.1 x.2.2).calls.filter fun call => !isSignal call

theorem findChar_peer (p : Peer) (c : Client) (gattcIf connId : UInt16) :
    (findChar c gattcIf connId p.chars).client = { c with charHandle := p.charHandle } ∧
      (findChar c gattcIf connId p.chars).calls =
        [.getAttrCount gattcIf connId .characteristic c.serviceStartHandle
            c.serviceEndHandle invalidHandle,
          .getCharByUuid gattcIf connId c.serviceStartHandle c.serviceEndHandle
            remoteNotifyCharUuid,
          .registerForNotify gattcIf c.remoteBda p.charHandle] := by
  obtain ⟨hcountOk, hcount, hmemory, hquery, hfound⟩ := p.chars_usable
  simp [findChar, hcountOk, hcount, hmemory, hquery, hfound, Buffer.read, p.notifies,
    Peer.charHandle]

theorem findDescr_peer (p : Peer) (c : Client) (gattcIf handle : UInt16) :
    (findDescr c gattcIf handle p.descrs).client = c ∧
      (findDescr c gattcIf handle p.descrs).calls =
        [.getAttrCount gattcIf c.connId .descriptor c.serviceStartHandle c.serviceEndHandle
            c.charHandle,
          .getDescrByCharHandle gattcIf c.connId handle uuidCharClientConfig,
          .writeCharDescr gattcIf c.connId (p.descrs.elems 0).handle [1, 0]] := by
  obtain ⟨hcountOk, hcount, hmemory, hquery, hfound⟩ := p.descrs_usable
  simp [findDescr, hcountOk, hcount, hmemory, hquery, hfound, Buffer.read, p.configurable]

/-- What the next events depend on: all of a link but its history. -/
structure SameLink (l l' : GattLink) : Prop where
  client : l.client = l'.client
  asked : l.asked = l'.asked
  linked : l.linked = true
  linked' : l'.linked = true

theorem admissible_congr {l l' : GattLink} (h : SameLink l l') (e : GattcEvent) :
    admissible l e = admissible l' e := by
  cases e <;> simp [admissible, h.asked, h.linked, h.linked']

theorem step_idle {l l' : GattLink} {x : UInt16 × GattcEvent} (h : SameLink l l')
    (hx : idle x.2 = true) :
    ∃ m, BleHandles.step l x = some m ∧ SameLink m l' ∧ stackCalls (l, x) = [] := by
  obtain ⟨gattcIf, e⟩ := x
  cases e with
  | openEvt ok => exact ⟨deliver l gattcIf (.openEvt ok), rfl, ⟨h.1, h.2, h.3, h.4⟩, rfl⟩
  | otherEvt => exact ⟨deliver l gattcIf .otherEvt, rfl, ⟨h.1, h.2, h.3, h.4⟩, rfl⟩
  | srvcChgEvt =>
      have hadm : admissible l .srvcChgEvt = true := by
        simp [admissible, BleHandles.answers, h.linked]
      exact ⟨deliver l gattcIf .srvcChgEvt, guarded_eq_some.mpr ⟨hadm, rfl⟩,
        ⟨h.1, h.2, h.3, h.4⟩, rfl⟩
  | notifyEvt valueLen memory =>
      have hadm : admissible l (.notifyEvt valueLen memory) = true := by
        simp [admissible, BleHandles.answers, h.linked]
      refine ⟨deliver l gattcIf (.notifyEvt valueLen memory),
        guarded_eq_some.mpr ⟨hadm, rfl⟩, ⟨h.1, ?_, h.3, h.4⟩, ?_⟩
      · simp [deliver, askedAfter, gattcProfileEventHandler, notified, requested, h.asked]
      · simp [stackCalls, gattcProfileEventHandler, notified, isSignal]
  | _ => cases hx

theorem step_congr {l l' m' : GattLink} {x : UInt16 × GattcEvent} (h : SameLink l l')
    (hx : x.2 ≠ .disconnectEvt) (hstep : BleHandles.step l' x = some m') :
    ∃ m, BleHandles.step l x = some m ∧ SameLink m m' ∧
      stackCalls (l, x) = stackCalls (l', x) := by
  obtain ⟨hadm, rfl⟩ := guarded_eq_some.mp hstep
  have hkeep : linkedAfter true x.2 = true := by
    cases hx' : x.2 <;> first | rfl | exact absurd hx' hx
  refine ⟨deliver l x.1 x.2, guarded_eq_some.mpr ⟨?_, rfl⟩, ⟨?_, ?_, ?_, ?_⟩, ?_⟩
  · rwa [admissible_congr h]
  · simp only [deliver, h.client]
  · simp only [deliver, h.client, h.asked]
  · simp only [deliver, h.linked, hkeep]
  · simp only [deliver, h.linked', hkeep]
  · simp only [stackCalls, h.client]

/-- The events can be delivered, and these are the calls made on them. -/
def Makes (l : GattLink) (xs : List (UInt16 × GattcEvent)) (calls : List Call) : Prop :=
  ∃ m, run BleHandles.step l xs = some m ∧
    (steps BleHandles.step l xs).flatMap stackCalls = calls

theorem Makes.nil (l : GattLink) : Makes l [] [] := ⟨l, rfl, rfl⟩

theorem Makes.cons {l : GattLink} (gattcIf : UInt16) {e : GattcEvent} {r : Request}
    {xs : List (UInt16 × GattcEvent)} {rest : List Call} (hlinked : l.linked = true)
    (hr : BleHandles.answers e = some r) (hasked : r ∈ l.asked)
    (h : Makes (deliver l gattcIf e) xs rest) :
    Makes l ((gattcIf, e) :: xs) (stackCalls (l, gattcIf, e) ++ rest) := by
  obtain ⟨m, hrun, hcalls⟩ := h
  have hadm : admissible l e = true := by
    cases e <;> simp_all [admissible, BleHandles.answers]
  have hstep : BleHandles.step l (gattcIf, e) = some (deliver l gattcIf e) :=
    guarded_eq_some.mpr ⟨hadm, rfl⟩
  refine ⟨m, run_cons_eq_some.mpr ⟨_, hstep, hrun⟩, ?_⟩
  rw [steps_cons hstep, List.flatMap_cons, hcalls]

theorem makes_writeDescr {l : GattLink} (gattcIf : UInt16) (hlinked : l.linked = true)
    (hasked : .writeCharDescr ∈ l.asked) :
    Makes l [(gattcIf, .writeDescrEvt true)]
      [.writeChar gattcIf l.client.connId l.client.charHandle writeCharData] :=
  Makes.cons gattcIf hlinked rfl hasked (Makes.nil _)

theorem makes_regForNotify (p : Peer) {l : GattLink} (gattcIf : UInt16) {handle : UInt16}
    (hlinked : l.linked = true) (hasked : .registerForNotify handle ∈ l.asked) :
    Makes l
      [(gattcIf, .regForNotifyEvt true handle p.descrs), (gattcIf, .writeDescrEvt true)]
      [.getAttrCount gattcIf l.client.connId .descriptor l.client.serviceStartHandle
          l.client.serviceEndHandle l.client.charHandle,
        .getDescrByCharHandle gattcIf l.client.connId handle uuidCharClientConfig,
        .writeCharDescr gattcIf l.client.connId (p.descrs.elems 0).handle [1, 0],
        .writeChar gattcIf l.client.connId l.client.charHandle writeCharData] := by
  obtain ⟨hclient, hcalls⟩ := findDescr_peer p l.client gattcIf handle
  let m := deliver l gattcIf (.regForNotifyEvt true handle p.descrs)
  have hmClient : m.client = l.client := hclient
  have hmAsked : Request.writeCharDescr ∈ m.asked := by
    simp [m, deliver, askedAfter, gattcProfileEventHandler, hcalls, requested]
  have hnext := makes_writeDescr (l := m) gattcIf hlinked hmAsked
  have hmakes : Makes l ((gattcIf, .regForNotifyEvt true handle p.descrs) :: _) _ :=
    Makes.cons gattcIf hlinked rfl hasked hnext
  simpa [stackCalls, gattcProfileEventHandler, hcalls, isSignal, hmClient] using hmakes

theorem makes_searchCmpl (p : Peer) {l : GattLink} (gattcIf connId : UInt16)
    (hlinked : l.linked = true) (hserver : l.client.getServer = true)
    (hasked : .searchService ∈ l.asked) :
    Makes l
      [(gattcIf, .searchCmplEvt true connId p.chars),
        (gattcIf, .regForNotifyEvt true p.charHandle p.descrs),
        (gattcIf, .writeDescrEvt true)]
      [.getAttrCount gattcIf connId .characteristic l.client.serviceStartHandle
          l.client.serviceEndHandle invalidHandle,
        .getCharByUuid gattcIf connId l.client.serviceStartHandle
          l.client.serviceEndHandle remoteNotifyCharUuid,
        .registerForNotify gattcIf l.client.remoteBda p.charHandle,
        .getAttrCount gattcIf l.client.connId .descriptor l.client.serviceStartHandle
          l.client.serviceEndHandle p.charHandle,
        .getDescrByCharHandle gattcIf l.client.connId p.charHandle uuidCharClientConfig,
        .writeCharDescr gattcIf l.client.connId (p.descrs.elems 0).handle [1, 0],
        .writeChar gattcIf l.client.connId p.charHandle writeCharData] := by
  obtain ⟨hclient, hcalls⟩ := findChar_peer p l.client gattcIf connId
  let m := deliver l gattcIf (.searchCmplEvt true connId p.chars)
  have houtcome : gattcProfileEventHandler l.client gattcIf
      (.searchCmplEvt true connId p.chars) = findChar l.client gattcIf connId p.chars := by
    simp [gattcProfileEventHandler, hserver]
  have hmClient : m.client = { l.client with charHandle := p.charHandle } := by
    simp only [m, deliver, houtcome, hclient]
  have hmAsked : Request.registerForNotify p.charHandle ∈ m.asked := by
    simp [m, deliver, askedAfter, houtcome, hcalls, requested]
  have hnext := makes_regForNotify (l := m) p gattcIf hlinked hmAsked
  have hmakes : Makes l ((gattcIf, .searchCmplEvt true connId p.chars) :: _) _ :=
    Makes.cons gattcIf hlinked rfl hasked hnext
  simpa [stackCalls, houtcome, hcalls, isSignal, hmClient] using hmakes

/-- The subscription with no other event in between. -/
theorem makes_calls (p : Peer) (gattcIf : UInt16) {l : GattLink} (hlinked : l.linked = true) :
    Makes l (p.answers gattcIf l.client.connId)
      (p.calls gattcIf l.client.connId l.client.remoteBda) := by
  let discovered := deliver l gattcIf (.disSrvcCmplEvt true l.client.connId)
  let found := deliver discovered gattcIf
    (.searchResEvt p.startHandle p.endHandle ⟨uuidLen16, remoteServiceUuid⟩)
  have hsearched := makes_searchCmpl (l := found) p gattcIf l.client.connId hlinked rfl
    List.mem_cons_self
  have hfound : Makes discovered ((gattcIf, .searchResEvt p.startHandle p.endHandle
      ⟨uuidLen16, remoteServiceUuid⟩) :: _) _ :=
    Makes.cons gattcIf hlinked rfl List.mem_cons_self hsearched
  obtain ⟨m, hrun, hcalls⟩ := hfound
  have hstep : BleHandles.step l (gattcIf, .disSrvcCmplEvt true l.client.connId) =
      some discovered := by
    refine guarded_eq_some.mpr ⟨?_, rfl⟩
    simp [admissible, BleHandles.answers, hlinked]
  refine ⟨m, run_cons_eq_some.mpr ⟨discovered, hstep, hrun⟩, ?_⟩
  rw [Peer.answers, steps_cons hstep, List.flatMap_cons, hcalls]
  rfl

/-- After any run, a client with a link subscribes to every such peer: for the answers
in their order, with any idle events in between, it makes exactly these calls, all of
them for the connection that is current and the handles of this peer. -/
theorem subscription_completes (p : Peer) (gattcIf : UInt16)
    (es : List (UInt16 × GattcEvent)) (l : GattLink)
    (hrun : run BleHandles.step init es = some l) (hlinked : l.linked = true) :
    ∃ connId remoteBda, currentConnection l.history = some (connId, remoteBda) ∧
      ∀ fs : List (UInt16 × GattcEvent),
        fs.filter (fun x => !idle x.2) = p.answers gattcIf connId →
          Makes l fs (p.calls gattcIf connId remoteBda) := by
  have hcurrent : Current l :=
    invariant_of_run (fun _ _ _ h hs => h.step hs) current_init hrun
  refine ⟨l.client.connId, l.client.remoteBda, hcurrent.connection hlinked, fun fs hfs => ?_⟩
  obtain ⟨m', hanswers, hcalls⟩ := makes_calls p gattcIf hlinked
  have hkeeps : ∀ x ∈ fs, idle x.2 = false → x.2 ≠ .disconnectEvt := by
    intro x hx hidle
    have hmem : x ∈ p.answers gattcIf l.client.connId := by
      rw [← hfs, List.mem_filter, hidle]
      exact ⟨hx, rfl⟩
    simp only [Peer.answers, List.mem_cons, List.not_mem_nil, or_false] at hmem
    rcases hmem with rfl | rfl | rfl | rfl | rfl <;> nofun
  rw [← hfs] at hanswers hcalls
  obtain ⟨m, hrun', -, hsame⟩ := exists_run_of_stutter (fun s s' x => step_idle)
    (fun s s' x t' hx hR hidle hstep => step_congr hR (hkeeps x hx hidle) hstep)
    ⟨rfl, rfl, hlinked, hlinked⟩ hanswers
  exact ⟨m, hrun', hsame.trans hcalls⟩

/-- The peer with the service in front of its one characteristic at handle 42. -/
def oneCharacteristic : Peer where
  startHandle := 41
  endHandle := 43
  chars := { countOk := true, count := 1, memory := true, queryOk := true, found := 1,
             elems := fun _ => ⟨42, charPropBitNotify⟩ }
  descrs := { countOk := true, count := 1, memory := true, queryOk := true, found := 1,
              elems := fun _ => ⟨43, ⟨uuidLen16, uuidCharClientConfig⟩⟩ }
  chars_usable := by decide
  notifies := by decide
  descrs_usable := by decide
  configurable := rfl

def reconnects : List (UInt16 × GattcEvent) :=
  (subscribes 7 22 ++
    [GattcEvent.disconnectEvt, .connectEvt 8 (Vector.replicate 6 1)]).map fun e => (3, e)

theorem subscription_completes_after_reconnect :
    ∃ l, run BleHandles.step init reconnects = some l ∧
      Makes l ((oneCharacteristic.answers 3 8).intersperse (3, .notifyEvt 1 fun _ => 0x4C))
        (oneCharacteristic.calls 3 8 (Vector.replicate 6 1)) := by
  obtain ⟨l, hrun, hl⟩ := exists_run_of_any
    (show (run BleHandles.step init reconnects).any (fun l => l.linked &&
      decide (currentConnection l.history = some (8, Vector.replicate 6 1))) = true by decide)
  rw [Bool.and_eq_true, decide_eq_true_eq] at hl
  obtain ⟨connId, remoteBda, hcurrent, hmakes⟩ :=
    subscription_completes oneCharacteristic 3 reconnects l hrun hl.1
  obtain ⟨rfl, rfl⟩ := Prod.mk.inj (Option.some.inj (hl.2.symm.trans hcurrent))
  exact ⟨l, hrun, hmakes _ rfl⟩

end BikeMcu.BleSubscription
