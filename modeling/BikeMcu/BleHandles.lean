import BikeMcu.TransitionSystem
import BikeMcu.BleClient

/-!
The GATT client over any number of connections, one at a time. What is current is
said by the events alone; the fields of `gl_profile_tab` have to agree with it
whenever a request is made from them.
-/

namespace BikeMcu.BleHandles

open BikeMcu.TransitionSystem
open BikeMcu.BleClient

inductive Request where
  | sendMtuReq
  | searchService
  | registerForNotify (handle : UInt16)
  | writeCharDescr
  | writeChar
  deriving DecidableEq, Repr

/-- The requests that the stack answers with an event of their own; a registration
is answered with its handle. -/
def requested : Call → Option Request
  | .sendMtuReq _ _ => some .sendMtuReq
  | .searchService _ _ _ => some .searchService
  | .registerForNotify _ _ handle => some (.registerForNotify handle)
  | .writeCharDescr _ _ _ _ => some .writeCharDescr
  | .writeChar _ _ _ _ => some .writeChar
  | _ => none

def answers : GattcEvent → Option Request
  | .cfgMtuEvt => some .sendMtuReq
  | .searchResEvt _ _ _ | .searchCmplEvt _ _ _ => some .searchService
  | .regForNotifyEvt _ handle _ => some (.registerForNotify handle)
  | .writeDescrEvt _ => some .writeCharDescr
  | .writeCharEvt _ => some .writeChar
  | _ => none

/-- `asked` are the requests made on the present connection, `history` the events
so far, newest first. -/
structure GattLink where
  client : Client
  linked : Bool
  asked : List Request
  history : List GattcEvent

/-- What the stack may deliver: a connect only without a link, an answer only on
the link its request was made on, any number of times. -/
def admissible (l : GattLink) : GattcEvent → Bool
  | .connectEvt _ _ => !l.linked
  | .regEvt | .openEvt _ | .otherEvt => true
  | e => l.linked && (answers e).all fun r => decide (r ∈ l.asked)

def linkedAfter (linked : Bool) : GattcEvent → Bool
  | .connectEvt _ _ => true
  | .disconnectEvt => false
  | _ => linked

def askedAfter (asked : List Request) (calls : List Call) : GattcEvent → List Request
  | .disconnectEvt => []
  | _ => calls.filterMap requested ++ asked

def deliver (l : GattLink) (gattcIf : UInt16) (e : GattcEvent) : GattLink :=
  let r := gattcProfileEventHandler l.client gattcIf e
  { client := r.client
    linked := linkedAfter l.linked e
    asked := askedAfter l.asked r.calls e
    history := e :: l.history }

def step (l : GattLink) (x : UInt16 × GattcEvent) : Option GattLink :=
  guarded (admissible l x.2 = true) (deliver l x.1 x.2)

def init : GattLink :=
  { client := initClient, linked := false, asked := [], history := [] }

/-- What the latest connect event reported, if no disconnect has followed. -/
def currentConnection : List GattcEvent → Option (UInt16 × BdAddr)
  | [] => none
  | .connectEvt connId remoteBda :: _ => some (connId, remoteBda)
  | .disconnectEvt :: _ => none
  | _ :: es => currentConnection es

def isRemoteService (uuid : Uuid) : Prop :=
  uuid.len = uuidLen16 ∧ uuid.uuid16 = remoteServiceUuid

instance (uuid : Uuid) : Decidable (isRemoteService uuid) :=
  inferInstanceAs (Decidable (_ ∧ _))

/-- The ranges of the matching services found since the latest disconnect. -/
def matchingServices : List GattcEvent → List (UInt16 × UInt16)
  | [] => []
  | .disconnectEvt :: _ => []
  | .searchResEvt startHandle endHandle uuid :: es =>
      if isRemoteService uuid then (startHandle, endHandle) :: matchingServices es
      else matchingServices es
  | _ :: es => matchingServices es

/-- `handle` was among the characteristics that a successful query turned up since the
latest disconnect, at the successful end of a search that had found a matching service. -/
def FoundChar (handle : UInt16) : List GattcEvent → Prop
  | [] => False
  | .disconnectEvt :: _ => False
  | .searchCmplEvt ok _ a :: es =>
      (ok = true ∧ matchingServices es ≠ [] ∧ ∃ x, a.TurnedUp x ∧ x.charHandle = handle) ∨
        FoundChar handle es
  | _ :: es => FoundChar handle es

/-- `handle` is among the descriptors that the successful query on this event turned up. -/
def FoundDescr (handle : UInt16) : GattcEvent → Prop
  | .regForNotifyEvt ok _ a => ok = true ∧ ∃ x, a.TurnedUp x ∧ x.handle = handle
  | _ => False

def carriedConnId : GattcEvent → Option UInt16
  | .searchCmplEvt _ connId _ => some connId
  | _ => none

/-- `connId` is the one of the present connection or comes with the event. -/
def CurrentConnId (e : GattcEvent) (es : List GattcEvent) (connId : UInt16) : Prop :=
  carriedConnId e = some connId ∨ ∃ remoteBda, currentConnection es = some (connId, remoteBda)

def CurrentBda (es : List GattcEvent) (remoteBda : BdAddr) : Prop :=
  ∃ connId, currentConnection es = some (connId, remoteBda)

/-- What a call made on event `e` may use, `es` being all events up to it. -/
def UsesCurrent (e : GattcEvent) (es : List GattcEvent) : Call → Prop
  | .getAttrCount _ connId type startHandle endHandle charHandle =>
      CurrentConnId e es connId ∧ (startHandle, endHandle) ∈ matchingServices es ∧
        (type = .descriptor → FoundChar charHandle es)
  | .getCharByUuid _ connId startHandle endHandle _ =>
      CurrentConnId e es connId ∧ (startHandle, endHandle) ∈ matchingServices es
  | .registerForNotify _ remoteBda handle =>
      CurrentBda es remoteBda ∧ FoundChar handle es
  | .getDescrByCharHandle _ connId charHandle _ =>
      CurrentConnId e es connId ∧ FoundChar charHandle es
  | .writeCharDescr _ connId handle _ => CurrentConnId e es connId ∧ FoundDescr handle e
  | .writeChar _ connId handle _ => CurrentConnId e es connId ∧ FoundChar handle es
  | _ => True

/-- The fields of the profile are those of the present connection, each from the
moment on at which a request can be made from it. -/
structure Current (l : GattLink) : Prop where
  connection : l.linked = true →
    currentConnection l.history = some (l.client.connId, l.client.remoteBda)
  service : l.client.getServer = true →
    (l.client.serviceStartHandle, l.client.serviceEndHandle) ∈ matchingServices l.history
  registering : ∀ handle, .registerForNotify handle ∈ l.asked →
    l.client.getServer = true ∧ FoundChar handle l.history ∧
      FoundChar l.client.charHandle l.history
  writing : .writeCharDescr ∈ l.asked → FoundChar l.client.charHandle l.history

theorem current_init : Current init where
  connection h := by cases h
  service h := by cases h
  registering _ h := by cases h
  writing h := by cases h

def keepsLink : GattcEvent → Bool
  | .connectEvt _ _ | .disconnectEvt => false
  | _ => true

theorem currentConnection_cons {e : GattcEvent} (he : keepsLink e = true)
    (es : List GattcEvent) : currentConnection (e :: es) = currentConnection es := by
  cases e with
  | connectEvt connId remoteBda => cases he
  | disconnectEvt => cases he
  | _ => rfl

theorem mem_matchingServices_cons {e : GattcEvent} (he : e ≠ .disconnectEvt)
    {es : List GattcEvent} {range : UInt16 × UInt16} (h : range ∈ matchingServices es) :
    range ∈ matchingServices (e :: es) := by
  cases e with
  | disconnectEvt => exact absurd rfl he
  | searchResEvt startHandle endHandle uuid =>
      simp only [matchingServices]
      split
      · exact List.mem_cons_of_mem _ h
      · exact h
  | _ => exact h

theorem FoundChar.cons {e : GattcEvent} (he : e ≠ .disconnectEvt) {handle : UInt16}
    {es : List GattcEvent} (h : FoundChar handle es) : FoundChar handle (e :: es) := by
  cases e with
  | disconnectEvt => exact absurd rfl he
  | searchCmplEvt ok connId a => exact .inr h
  | _ => exact h

theorem linked_of_answer {l : GattLink} {e : GattcEvent} {r : Request}
    (h : admissible l e = true) (hr : answers e = some r) :
    l.linked = true ∧ r ∈ l.asked := by
  cases e <;> simp_all [admissible, answers]

theorem usesCurrent_findChar {l : GattLink} {gattcIf connId : UInt16}
    {a : CharAnswers} {call : Call} (h : Current l) (hlinked : l.linked = true)
    (hserver : l.client.getServer = true)
    (hcall : call ∈ (findChar l.client gattcIf connId a).calls) :
    UsesCurrent (.searchCmplEvt true connId a) (.searchCmplEvt true connId a :: l.history)
      call := by
  have hservice := h.service hserver
  have hrange : matchingServices l.history ≠ [] := List.ne_nil_of_mem hservice
  rcases findChar_cases l.client gattcIf connId a with
    ⟨-, ⟨-, hcalls⟩ | ⟨hfound, -, hcalls⟩⟩
  · rcases List.mem_pair.mp (hcalls.subset hcall) with rfl | rfl
    · exact ⟨.inl rfl, hservice, fun htype => by cases htype⟩
    · exact ⟨.inl rfl, hservice⟩
  · rw [hcalls] at hcall
    rcases List.mem_cons.mp hcall with rfl | hcall
    · exact ⟨.inl rfl, hservice, fun htype => by cases htype⟩
    rcases List.mem_pair.mp hcall with rfl | rfl
    · exact ⟨.inl rfl, hservice⟩
    · exact ⟨⟨l.client.connId, h.connection hlinked⟩, .inl ⟨rfl, hrange, _, hfound, rfl⟩⟩

theorem usesCurrent_findDescr {l : GattLink} {gattcIf handle : UInt16}
    {a : DescrAnswers} {call : Call} (h : Current l) (hlinked : l.linked = true)
    (hasked : .registerForNotify handle ∈ l.asked)
    (hcall : call ∈ (findDescr l.client gattcIf handle a).calls) :
    UsesCurrent (.regForNotifyEvt true handle a) (.regForNotifyEvt true handle a :: l.history)
      call := by
  obtain ⟨hserver, hhandle, hchar⟩ := h.registering handle hasked
  have hconn : CurrentConnId (.regForNotifyEvt true handle a)
      (.regForNotifyEvt true handle a :: l.history) l.client.connId :=
    .inr ⟨l.client.remoteBda, h.connection hlinked⟩
  obtain ⟨-, -, hcalls | ⟨hfound, hcalls⟩⟩ := findDescr_cases l.client gattcIf handle a
  · rcases List.mem_pair.mp (hcalls.subset hcall) with rfl | rfl
    · exact ⟨hconn, h.service hserver, fun _ => hchar⟩
    · exact ⟨hconn, hhandle⟩
  · rw [hcalls] at hcall
    rcases List.mem_cons.mp hcall with rfl | hcall
    · exact ⟨hconn, h.service hserver, fun _ => hchar⟩
    rcases List.mem_pair.mp hcall with rfl | rfl
    · exact ⟨hconn, hhandle⟩
    · exact ⟨hconn, rfl, _, hfound, rfl⟩

/-- Every request made on an admissible event uses current values only. -/
theorem usesCurrent_of_current {l : GattLink} {gattcIf : UInt16} {e : GattcEvent}
    {call : Call} (h : Current l) (hadm : admissible l e = true)
    (hcall : call ∈ (gattcProfileEventHandler l.client gattcIf e).calls) :
    UsesCurrent e (e :: l.history) call := by
  cases e with
  | regEvt =>
      obtain rfl := List.mem_singleton.mp hcall
      trivial
  | connectEvt connId remoteBda =>
      obtain rfl := List.mem_singleton.mp hcall
      trivial
  | disSrvcCmplEvt ok connId =>
      simp only [gattcProfileEventHandler] at hcall
      split at hcall
      · obtain rfl := List.mem_singleton.mp hcall
        trivial
      · cases hcall
  | searchResEvt startHandle endHandle uuid =>
      simp only [gattcProfileEventHandler] at hcall
      split at hcall <;> cases hcall
  | searchCmplEvt ok connId a =>
      simp only [gattcProfileEventHandler] at hcall
      split at hcall
      · rename_i hserver
        obtain ⟨rfl, hserver⟩ := (Bool.and_eq_true _ _).mp hserver
        exact usesCurrent_findChar h (linked_of_answer hadm rfl).1 hserver hcall
      · cases hcall
  | regForNotifyEvt ok handle a =>
      simp only [gattcProfileEventHandler] at hcall
      obtain ⟨hlinked, hasked⟩ := linked_of_answer hadm rfl
      cases ok with
      | true => exact usesCurrent_findDescr h hlinked hasked hcall
      | false => cases hcall
  | notifyEvt valueLen memory =>
      obtain ⟨g, -, rfl⟩ := List.mem_map.mp hcall
      trivial
  | writeDescrEvt ok =>
      simp only [gattcProfileEventHandler] at hcall
      obtain ⟨hlinked, hasked⟩ := linked_of_answer hadm rfl
      split at hcall
      · obtain rfl := List.mem_singleton.mp hcall
        exact ⟨.inr ⟨l.client.remoteBda, h.connection hlinked⟩, h.writing hasked⟩
      · cases hcall
  | _ => cases hcall

/-- An event that leaves the profile as it is and asks for nothing that
`Current` speaks of. -/
theorem Current.keep {l : GattLink} {gattcIf : UInt16} {e : GattcEvent} (h : Current l)
    (he : keepsLink e = true)
    (hclient : (gattcProfileEventHandler l.client gattcIf e).client = l.client)
    (hregister : ∀ handle, .registerForNotify handle ∉
      (gattcProfileEventHandler l.client gattcIf e).calls.filterMap requested)
    (hwrite : .writeCharDescr ∈
        (gattcProfileEventHandler l.client gattcIf e).calls.filterMap requested →
      FoundChar l.client.charHandle l.history) : Current (deliver l gattcIf e) := by
  have hne : e ≠ .disconnectEvt := by
    rintro rfl
    cases he
  have hlinked : (deliver l gattcIf e).linked = l.linked := by
    cases e <;> first | rfl | cases he
  have hasked : (deliver l gattcIf e).asked =
      (gattcProfileEventHandler l.client gattcIf e).calls.filterMap requested ++
        l.asked := by
    cases e <;> first | rfl | cases he
  have hdeliver : (deliver l gattcIf e).client = l.client := hclient
  refine ⟨?_, ?_, ?_, ?_⟩
  · rw [hlinked, hdeliver]
    exact fun hl => (currentConnection_cons he l.history).trans (h.connection hl)
  · rw [hdeliver]
    exact fun hserver => mem_matchingServices_cons hne (h.service hserver)
  · rw [hasked, hdeliver]
    intro handle hmem
    rcases List.mem_append.mp hmem with hnew | hold
    · exact absurd hnew (hregister handle)
    · obtain ⟨hserver, hhandle, hchar⟩ := h.registering handle hold
      exact ⟨hserver, hhandle.cons hne, hchar.cons hne⟩
  · rw [hasked, hdeliver]
    intro hmem
    rcases List.mem_append.mp hmem with hnew | hold
    · exact (hwrite hnew).cons hne
    · exact (h.writing hold).cons hne

theorem Current.quiet {l : GattLink} {gattcIf : UInt16} {e : GattcEvent} (h : Current l)
    (he : keepsLink e = true)
    (hclient : (gattcProfileEventHandler l.client gattcIf e).client = l.client)
    (hasks : ∀ r ∈ (gattcProfileEventHandler l.client gattcIf e).calls.filterMap requested,
      (∀ handle, r ≠ .registerForNotify handle) ∧ r ≠ .writeCharDescr) :
    Current (deliver l gattcIf e) :=
  h.keep he hclient (fun handle hmem => (hasks _ hmem).1 handle rfl)
    fun hmem => absurd rfl (hasks _ hmem).2

theorem requested_eq_nil_of_sublist {calls : List Call} {gattcIf connId start stop char
    uuid : UInt16} {type : AttrType}
    (h : calls.Sublist [.getAttrCount gattcIf connId type start stop char,
      .getCharByUuid gattcIf connId start stop uuid]) : calls.filterMap requested = [] := by
  rw [List.filterMap_eq_nil_iff]
  intro call hcall
  rcases List.mem_pair.mp (h.subset hcall) with rfl | rfl
  · rfl
  · rfl

theorem Current.searchCmpl {l : GattLink} {gattcIf connId : UInt16} {ok : Bool}
    {a : CharAnswers} (h : Current l) :
    Current (deliver l gattcIf (.searchCmplEvt ok connId a)) := by
  by_cases hserver : (ok && l.client.getServer) = true
  · have houtcome : gattcProfileEventHandler l.client gattcIf (.searchCmplEvt ok connId a) =
        findChar l.client gattcIf connId a := by
      simp only [gattcProfileEventHandler, hserver, if_true]
    rw [Bool.and_eq_true] at hserver
    have hservice := h.service hserver.2
    rcases findChar_cases l.client gattcIf connId a with
      ⟨-, ⟨hclient, hcalls⟩ | ⟨hfound, hclient, hcalls⟩⟩
    · have hnone := requested_eq_nil_of_sublist hcalls
      refine h.quiet rfl (houtcome ▸ hclient) ?_
      simp [houtcome, hnone]
    · have hdeliver : (deliver l gattcIf (.searchCmplEvt ok connId a)).client =
          { l.client with charHandle := (a.elems 0).charHandle } := by
        simp only [deliver, houtcome, hclient]
      have hchar : FoundChar (a.elems 0).charHandle
          (.searchCmplEvt ok connId a :: l.history) :=
        .inl ⟨hserver.1, List.ne_nil_of_mem hservice, _, hfound, rfl⟩
      refine ⟨?_, ?_, ?_, ?_⟩
      · rw [hdeliver]
        exact h.connection
      · rw [hdeliver]
        exact fun _ => hservice
      · rw [hdeliver]
        simp only [deliver, askedAfter, houtcome, hcalls]
        intro handle hmem
        rcases List.mem_cons.mp hmem with hnew | hold
        · cases hnew
          exact ⟨hserver.2, hchar, hchar⟩
        · exact ⟨hserver.2, .inr (h.registering handle hold).2.1, hchar⟩
      · rw [hdeliver]
        exact fun _ => hchar
  · have houtcome : gattcProfileEventHandler l.client gattcIf (.searchCmplEvt ok connId a) =
        ⟨l.client, [], []⟩ := by
      simp only [gattcProfileEventHandler, hserver]
      rfl
    refine h.quiet rfl (by rw [houtcome]) ?_
    simp [houtcome]

theorem Current.searchRes {l : GattLink} {gattcIf startHandle endHandle : UInt16}
    {uuid : Uuid} (h : Current l) :
    Current (deliver l gattcIf (.searchResEvt startHandle endHandle uuid)) := by
  by_cases hmatch : uuid.len = uuidLen16 ∧ uuid.uuid16 = remoteServiceUuid
  · have houtcome : gattcProfileEventHandler l.client gattcIf
        (.searchResEvt startHandle endHandle uuid) =
          ⟨{ l.client with
              getServer := true
              serviceStartHandle := startHandle
              serviceEndHandle := endHandle }, [], []⟩ := if_pos hmatch
    have hservices : matchingServices (.searchResEvt startHandle endHandle uuid ::
        l.history) = (startHandle, endHandle) :: matchingServices l.history :=
      if_pos hmatch
    refine ⟨?_, ?_, ?_, ?_⟩
    · simp only [deliver, houtcome]
      exact h.connection
    · simp only [deliver, houtcome, hservices]
      exact fun _ => List.mem_cons_self
    · simp only [deliver, houtcome, askedAfter]
      exact fun handle hmem => ⟨trivial, (h.registering handle hmem).2⟩
    · simp only [deliver, houtcome, askedAfter]
      exact h.writing
  · have houtcome : gattcProfileEventHandler l.client gattcIf
        (.searchResEvt startHandle endHandle uuid) = ⟨l.client, [], []⟩ := if_neg hmatch
    refine h.quiet rfl (by rw [houtcome]) ?_
    simp [houtcome]

theorem Current.regForNotify {l : GattLink} {gattcIf handle : UInt16} {ok : Bool}
    {a : DescrAnswers} (h : Current l) (hasked : .registerForNotify handle ∈ l.asked) :
    Current (deliver l gattcIf (.regForNotifyEvt ok handle a)) := by
  cases ok with
  | false =>
      refine h.quiet rfl rfl ?_
      simp [gattcProfileEventHandler]
  | true =>
      obtain ⟨-, hclient, hcalls⟩ := findDescr_cases l.client gattcIf handle a
      refine h.keep rfl hclient ?_ fun _ => (h.registering handle hasked).2.2
      intro handle' hmem
      obtain ⟨call, hcall, hreq⟩ := List.mem_filterMap.mp hmem
      rcases hcalls with hcalls | ⟨-, hcalls⟩
      · rcases List.mem_pair.mp (hcalls.subset hcall) with rfl | rfl
        · cases hreq
        · cases hreq
      · have hmem : call ∈ (findDescr l.client gattcIf handle a).calls := hcall
        rw [hcalls] at hmem
        simp only [List.mem_cons, List.not_mem_nil, or_false] at hmem
        rcases hmem with rfl | rfl | rfl
        · cases hreq
        · cases hreq
        · cases hreq

theorem Current.step {l l' : GattLink} {x : UInt16 × GattcEvent} (h : Current l)
    (hstep : BleHandles.step l x = some l') : Current l' := by
  obtain ⟨gattcIf, e⟩ := x
  obtain ⟨hadm, rfl⟩ := guarded_eq_some.mp hstep
  cases e with
  | connectEvt connId remoteBda =>
      refine ⟨fun _ => rfl, h.service, ?_, ?_⟩
      · intro handle hmem
        exact h.registering handle (by simpa [deliver, askedAfter, gattcProfileEventHandler,
          requested] using hmem)
      · intro hmem
        exact h.writing (by simpa [deliver, askedAfter, gattcProfileEventHandler,
          requested] using hmem)
  | disconnectEvt =>
      refine ⟨?_, ?_, ?_, ?_⟩
      · rintro ⟨⟩
      · rintro ⟨⟩
      · rintro _ ⟨⟩
      · rintro ⟨⟩
  | searchResEvt startHandle endHandle uuid => exact h.searchRes
  | searchCmplEvt ok connId a => exact h.searchCmpl
  | regForNotifyEvt ok handle a => exact h.regForNotify (linked_of_answer hadm rfl).2
  | notifyEvt valueLen memory =>
      refine h.quiet rfl rfl ?_
      simp [gattcProfileEventHandler, notified, requested]
  | disSrvcCmplEvt ok connId =>
      refine h.quiet rfl (by cases ok <;> rfl) ?_
      cases ok <;> simp [gattcProfileEventHandler, requested]
  | writeDescrEvt ok =>
      refine h.quiet rfl (by cases ok <;> rfl) ?_
      cases ok <;> simp [gattcProfileEventHandler, requested]
  | _ =>
      refine h.quiet rfl rfl ?_
      simp [gattcProfileEventHandler, requested]

/-- After any run over any number of connections, every request the client makes on
the next event uses the present connection and a service found on it. -/
theorem requests_use_current (es : List (UInt16 × GattcEvent)) (l : GattLink)
    (hrun : run BleHandles.step init es = some l) (gattcIf : UInt16) (e : GattcEvent)
    (hadm : admissible l e = true) :
    ∀ call ∈ (gattcProfileEventHandler l.client gattcIf e).calls,
      UsesCurrent e (e :: l.history) call := by
  have h : Current l :=
    invariant_of_run (fun _ _ _ h hs => h.step hs) current_init hrun
  exact fun call hcall => usesCurrent_of_current h hadm hcall

/-- One connection up to the write of the descriptor, for the link `connId` with the
service in front of its one characteristic `handle`. -/
def subscribes (connId handle : UInt16) : List GattcEvent :=
  [.connectEvt connId (Vector.replicate 6 0), .disSrvcCmplEvt true connId,
    .searchResEvt (handle - 1) (handle + 1) ⟨uuidLen16, remoteServiceUuid⟩,
    .searchCmplEvt true connId
      { countOk := true, count := 1, memory := true, queryOk := true, found := 1,
        elems := fun _ => ⟨handle, charPropBitNotify⟩ },
    .regForNotifyEvt true handle
      { countOk := true, count := 1, memory := true, queryOk := true, found := 1,
        elems := fun _ => ⟨handle + 1, ⟨uuidLen16, uuidCharClientConfig⟩⟩ }]

def subscribesTwice : List (UInt16 × GattcEvent) :=
  (subscribes 7 22 ++ .disconnectEvt :: subscribes 8 42).map fun e => (3, e)

theorem requests_use_current_after_reconnect :
    ∃ l, run BleHandles.step init subscribesTwice = some l ∧
      (gattcProfileEventHandler l.client 3 (.writeDescrEvt true)).calls =
        [.writeChar 3 8 42 writeCharData] ∧
      UsesCurrent (.writeDescrEvt true) (.writeDescrEvt true :: l.history)
        (.writeChar 3 8 42 writeCharData) := by
  obtain ⟨l, hrun, hl⟩ := exists_run_of_any
    (show (run BleHandles.step init subscribesTwice).any
      (fun l => admissible l (.writeDescrEvt true) && decide (l.client.connId = 8) &&
        decide (l.client.charHandle = 42)) = true by decide)
  simp only [Bool.and_eq_true, decide_eq_true_eq] at hl
  obtain ⟨⟨hadm, hconn⟩, hchar⟩ := hl
  have hcalls : (gattcProfileEventHandler l.client 3 (.writeDescrEvt true)).calls =
      [.writeChar 3 8 42 writeCharData] := by
    simp [gattcProfileEventHandler, hconn, hchar]
  exact ⟨l, hrun, hcalls, requests_use_current _ l hrun 3 _ hadm _ (by simp [hcalls])⟩

end BikeMcu.BleHandles
