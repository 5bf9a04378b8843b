import BikeMcu.CString
import BikeMcu.RunLedger
import BikeMcu.TelemetryLine

namespace BikeMcu.UdpClient

open BikeMcu.TransitionSystem
open BikeMcu.RunHistory
open BikeMcu.RunLedger
open BikeMcu.BmiData
open BikeMcu.CString
open BikeMcu.Printf
open BikeMcu.SensorPipeline
open BikeMcu.TelemetryLine

/-- Program points of the task, with the sample in `data` and, from `snprintf` on, the
value of the timer. -/
inductive UploadPoint where
  | receiving
  | formatting (x : Sample)
  | sending (x : Sample) (timer : Int64)
  deriving DecidableEq

/-- `msg` is the buffer of the task. A socket is named by the number of `socket()` calls
that succeeded before its own; a negative `udp_sock` is `none`. -/
structure Uploader where
  point : UploadPoint
  msg : List UInt8
  udpSock : Option ℕ
  opened : ℕ
  deriving DecidableEq

/-- The buffer is fresh on the stack: `scratch` is what it happens to hold. -/
def init (scratch : Vector UInt8 128) : Uploader :=
  { point := .receiving, msg := scratch.toList, udpSock := none, opened := 0 }

def bytes (cs : List Char) : List UInt8 :=
  cs.map Char.toUInt8

inductive UploadStep where
  | receive (x : Sample)
  | snprintf (timer : Int64)
  | socket (ok : Bool)
  | sendto (ok : Bool)
  deriving DecidableEq

/-- One statement of the task. A failed `sendto` is not even logged; a buffer without a
NUL would make `strlen`, and with it the model, stuck. -/
def step (u : Uploader) : UploadStep → Option Uploader
  | .receive x => guarded (u.point = .receiving) { u with point := .formatting x }
  | .snprintf timer =>
      match u.point with
      | .formatting x =>
          some { u with
            point := .sending x timer
            msg := write u.msg (bytes (TelemetryLine.msg timer x.data)) }
      | _ => none
  | .socket ok =>
      match u.point, u.udpSock with
      | .sending _ _, none =>
          some (if ok then
            { u with point := .receiving, udpSock := some u.opened, opened := u.opened + 1 }
          else { u with point := .receiving })
      | _, _ => none
  | .sendto _ =>
      match u.point, u.udpSock, contents u.msg with
      | .sending _ _, some _, some _ => some { u with point := .receiving }
      | _, _, _ => none

/-- `step` as a relation. -/
inductive UploadMove (u : Uploader) : UploadStep → Uploader → Prop where
  | receive (h : u.point = .receiving) (x : Sample) :
      UploadMove u (.receive x) { u with point := .formatting x }
  | snprintf {x : Sample} (h : u.point = .formatting x) (timer : Int64) :
      UploadMove u (.snprintf timer) { u with
        point := .sending x timer
        msg := write u.msg (bytes (TelemetryLine.msg timer x.data)) }
  | socketCreated {x : Sample} {timer : Int64} (h : u.point = .sending x timer)
      (hsock : u.udpSock = none) : UploadMove u (.socket true)
        { u with point := .receiving, udpSock := some u.opened, opened := u.opened + 1 }
  | socketFailed {x : Sample} {timer : Int64} (h : u.point = .sending x timer)
      (hsock : u.udpSock = none) :
      UploadMove u (.socket false) { u with point := .receiving }
  | sendto {x : Sample} {timer : Int64} {sock : ℕ} {payload : List UInt8}
      (h : u.point = .sending x timer) (hsock : u.udpSock = some sock)
      (hmsg : contents u.msg = some payload) (ok : Bool) :
      UploadMove u (.sendto ok) { u with point := .receiving }

theorem uploadMove {u v : Uploader} {a : UploadStep} (h : step u a = some v) :
    UploadMove u a v := by
  cases a with
  | receive x =>
      obtain ⟨hp, rfl⟩ := guarded_eq_some.mp h
      exact .receive hp x
  | snprintf timer =>
      simp only [step] at h
      split at h
      · exact Option.some.inj h ▸ .snprintf ‹_› timer
      · cases h
  | socket ok =>
      simp only [step] at h
      split at h
      · cases ok with
        | true => exact Option.some.inj h ▸ .socketCreated ‹_› ‹_›
        | false => exact Option.some.inj h ▸ .socketFailed ‹_› ‹_›
      · cases h
  | sendto ok =>
      simp only [step] at h
      split at h
      · exact Option.some.inj h ▸ .sendto ‹_› ‹_› ‹_› ok
      · cases h

/-- What is handed to `sendto`, with the sample and the instant that it is about. -/
structure Datagram where
  sample : Sample
  timer : Int64
  sock : ℕ
  payload : List UInt8
  deriving DecidableEq

def sent : Uploader × UploadStep → List Datagram
  | (u, .sendto _) =>
      match u.point, u.udpSock, contents u.msg with
      | .sending x timer, some sock, some payload => [⟨x, timer, sock, payload⟩]
      | _, _, _ => []
  | _ => []

def inHand (u : Uploader) : List Sample :=
  match u.point with
  | .receiving => []
  | .formatting x | .sending x _ => [x]

/-- The samples whose message is given up to a call of `socket()`. -/
def dropped : Uploader × UploadStep → List Sample
  | (u, .socket _) => inHand u
  | _ => []

def receivedSamples : UploadStep → List Sample
  | .receive x => [x]
  | _ => []

def sampleLedger : Ledger step (fun _ => True) Sample where
  taken x := receivedSamples x.2
  done x := dropped x ++ (sent x).map Datagram.sample
  todo := inHand
  balance u a v _ hstep := by
    cases uploadMove hstep with
    | receive h x => simp [receivedSamples, dropped, sent, inHand, h]
    | snprintf h timer => simp [receivedSamples, dropped, sent, inHand, h]
    | socketCreated h hsock => simp [receivedSamples, dropped, sent, inHand, h]
    | socketFailed h hsock => simp [receivedSamples, dropped, sent, inHand, h]
    | sendto h hsock hmsg ok =>
        simp [receivedSamples, dropped, sent, inHand, h, hsock, hmsg]

/-- A character that does not end a string. -/
def Plain (c : Char) : Prop :=
  c.toUInt8 ≠ 0

theorem plain_of_all {cs : List Char} (h : (cs.all fun c => c.toUInt8 != 0) = true) :
    ∀ c ∈ cs, Plain c :=
  fun c hc => bne_iff_ne.mp (List.all_eq_true.mp h c hc)

theorem plain_of_numeric {c : Char} (hc : Numeric c) : Plain c := by
  rcases hc with h | rfl | rfl
  · obtain ⟨hlower, hupper⟩ := Char.isDigit_iff_toNat.mp h
    have hzero : '0'.toNat = 48 := rfl
    have hnine : '9'.toNat = 57 := rfl
    intro hnul
    have hvalue : c.toNat % 256 = 0 := congrArg UInt8.toNat hnul
    omega
  · exact plain_of_all rfl _ (List.mem_singleton_self _)
  · exact plain_of_all rfl _ (List.mem_singleton_self _)

theorem plain_float (precision : ℕ) (q : ExactFloat) :
    ∀ c ∈ (float precision q).render, Plain c := by
  cases q with
  | nan => exact plain_of_all rfl
  | infinity negative =>
      cases negative with
      | false => exact plain_of_all rfl
      | true => exact plain_of_all rfl
  | finite q => exact fun c hc => plain_of_numeric (numeric_fixed hc)

theorem plain_line (timer : Int64) (data : Bmi160Data) :
    ∀ d ∈ line timer data, ∀ c ∈ d.render, Plain c := by
  have hint : ∀ z, ∀ c ∈ (Directive.int z).render, Plain c :=
    fun z c hc => plain_of_numeric (numeric_decimal hc)
  have hcomma : ∀ c ∈ (Directive.text [',']).render, Plain c := plain_of_all rfl
  have hend : ∀ c ∈ (Directive.text [' ', '\n']).render, Plain c := plain_of_all rfl
  rw [line, List.forall_mem_cons]
  refine ⟨hint _, ?_⟩
  simp only [List.forall_mem_cons, List.not_mem_nil, false_imp_iff, implies_true, and_true]
  exact ⟨hcomma, plain_float 3 _, hcomma, plain_float 3 _, hcomma, plain_float 3 _, hcomma,
    plain_float 2 _, hcomma, plain_float 2 _, hcomma, plain_float 2 _, hcomma, hint _, hend⟩

theorem nul_not_mem_msg (timer : Int64) (data : Bmi160Data) :
    0 ∉ bytes (TelemetryLine.msg timer data) := by
  intro hmem
  obtain ⟨c, hc, hzero⟩ := List.mem_map.mp hmem
  obtain ⟨d, hd, hrender⟩ := List.mem_flatMap.mp (List.mem_of_mem_take hc)
  exact plain_line timer data d hd c hrender hzero

theorem length_msg (timer : Int64) (data : Bmi160Data) :
    (bytes (TelemetryLine.msg timer data)).length < 128 := by
  rw [bytes, List.length_map, TelemetryLine.msg, snprintf, List.length_take]
  omega

def composed (x : Sample) (timer : Int64) : List UInt8 :=
  bytes (TelemetryLine.msg timer x.data)

/-- What the buffer holds when it is handed over: the message of the sample in hand and
nothing of an earlier one. -/
structure Formatted (u : Uploader) : Prop where
  size : u.msg.length = 128
  message : ∀ x timer, u.point = .sending x timer → contents u.msg = some (composed x timer)

theorem formatted_init (scratch : Vector UInt8 128) : Formatted (init scratch) where
  size := scratch.size_toArray
  message x timer h := by cases h

theorem Formatted.step {u v : Uploader} {a : UploadStep} (h : Formatted u)
    (hstep : UdpClient.step u a = some v) : Formatted v := by
  cases uploadMove hstep with
  | receive hp x => exact ⟨h.size, fun y timer hy => by cases hy⟩
  | @snprintf x hp timer =>
      have hroom : (composed x timer).length < u.msg.length := by
        rw [h.size]
        exact length_msg timer x.data
      refine ⟨(length_write hroom).trans h.size, ?_⟩
      rintro y timer' ⟨⟩
      exact contents_write u.msg (nul_not_mem_msg timer x.data)
  | socketCreated hp hsock | socketFailed hp hsock | sendto hp hsock hmsg ok =>
      exact ⟨h.size, fun y timer hy => by cases hy⟩

/-- The outcomes of the calls of `socket()`. -/
def socketCall : Uploader × UploadStep → List Bool
  | (_, .socket ok) => [ok]
  | _ => []

abbrev History := List (Uploader × UploadStep)

theorem flatMap_concat {β : Type} (f : Uploader × UploadStep → List β) (h : History)
    (x : Uploader × UploadStep) : (h ++ [x]).flatMap f = h.flatMap f ++ f x := by
  rw [List.flatMap_append, List.flatMap_singleton]

/-- Without a socket every sample so far was given up to a call of `socket()` that
failed; the call that succeeded costs one more sample and was the last. -/
def Phase (h : History) (u : Uploader) : Prop :=
  u.udpSock = none ∧ u.opened = 0 ∧ h.flatMap sent = [] ∧
      h.flatMap socketCall = List.replicate (h.flatMap dropped).length false ∨
    u.udpSock = some 0 ∧ ∃ n, (h.flatMap dropped).length = n + 1 ∧
      h.flatMap socketCall = List.replicate n false ++ [true]

/-- The task's account of a run: samples are given up one for each call of `socket()`
until the first that succeeds, and sent from then on. -/
structure Account (h : History) (u : Uploader) : Prop where
  formatted : Formatted u
  split : h.flatMap sampleLedger.done =
    h.flatMap dropped ++ (h.flatMap sent).map Datagram.sample
  phase : Phase h u
  payloads : ∀ d ∈ h.flatMap sent, d.sock = 0 ∧ d.payload = composed d.sample d.timer

theorem account_init (scratch : Vector UInt8 128) : Account [] (init scratch) where
  formatted := formatted_init scratch
  split := rfl
  phase := .inl ⟨rfl, rfl, rfl, rfl⟩
  payloads := by simp

theorem Account.quiet {h : History} {u v : Uploader} {a : UploadStep} (hu : Account h u)
    (hv : Formatted v) (hsent : sent (u, a) = []) (hdropped : dropped (u, a) = [])
    (hcall : socketCall (u, a) = []) (hsock : v.udpSock = u.udpSock)
    (hopened : v.opened = u.opened) : Account (h ++ [(u, a)]) v where
  formatted := hv
  split := by
    rw [flatMap_concat, flatMap_concat, flatMap_concat, hsent, hdropped, hu.split]
    simp [sampleLedger, hsent, hdropped]
  phase := by
    rw [Phase, flatMap_concat, flatMap_concat, flatMap_concat, hsent, hdropped, hcall, hsock,
      hopened, List.append_nil, List.append_nil, List.append_nil]
    exact hu.phase
  payloads := by
    rw [flatMap_concat, hsent, List.append_nil]
    exact hu.payloads

theorem Account.step {h : History} {u v : Uploader} {a : UploadStep} (hu : Account h u)
    (hstep : UdpClient.step u a = some v) : Account (h ++ [(u, a)]) v := by
  have hv := hu.formatted.step hstep
  cases uploadMove hstep with
  | receive hp x => exact hu.quiet hv rfl rfl rfl rfl rfl
  | snprintf hp timer => exact hu.quiet hv rfl rfl rfl rfl rfl
  | @socketCreated x timer hp hsock =>
      have hphase := hu.phase.resolve_right fun hopen => by simp [hsock] at hopen
      obtain ⟨-, hopened, hsent, hcalls⟩ := hphase
      have hdropped : dropped (u, .socket true) = [x] := by simp [dropped, inHand, hp]
      refine ⟨hv, ?_, .inr ⟨by rw [hopened], (h.flatMap dropped).length, ?_, ?_⟩, ?_⟩
      · rw [flatMap_concat, flatMap_concat, flatMap_concat, hu.split, hsent]
        simp [sampleLedger, sent]
      · rw [flatMap_concat, hdropped, List.length_append, List.length_singleton]
      · rw [flatMap_concat, hcalls]
        rfl
      · rw [flatMap_concat, hsent]
        exact fun d hd => absurd hd List.not_mem_nil
  | @socketFailed x timer hp hsock =>
      have hphase := hu.phase.resolve_right fun hopen => by simp [hsock] at hopen
      obtain ⟨-, hopened, hsent, hcalls⟩ := hphase
      have hdropped : dropped (u, .socket false) = [x] := by simp [dropped, inHand, hp]
      refine ⟨hv, ?_, .inl ⟨hsock, hopened, ?_, ?_⟩, ?_⟩
      · rw [flatMap_concat, flatMap_concat, flatMap_concat, hu.split, hsent]
        simp [sampleLedger, sent]
      · rw [flatMap_concat, hsent]
        rfl
      · rw [flatMap_concat, flatMap_concat, hcalls, hdropped, List.length_append,
          List.length_singleton, List.replicate_succ']
        rfl
      · rw [flatMap_concat, hsent]
        exact fun d hd => absurd hd List.not_mem_nil
  | @sendto x timer sock payload hp hsock hmsg ok =>
      have hphase := hu.phase.resolve_left fun hclosed => by simp [hsock] at hclosed
      have hpayload : payload = composed x timer :=
        Option.some.inj (hmsg.symm.trans (hu.formatted.message x timer hp))
      have hsent : sent (u, .sendto ok) = [⟨x, timer, sock, payload⟩] := by
        simp [sent, hp, hsock, hmsg]
      refine ⟨hv, ?_, .inr ?_, ?_⟩
      · rw [flatMap_concat, flatMap_concat, flatMap_concat, hu.split, hsent]
        simp [sampleLedger, hsent, dropped]
      · rw [flatMap_concat, flatMap_concat]
        simpa [dropped, socketCall] using hphase
      · rw [flatMap_concat, hsent]
        intro d hd
        rcases List.mem_append.mp hd with hold | hnew
        · exact hu.payloads d hold
        · obtain rfl := List.mem_singleton.mp hnew
          exact ⟨Option.some.inj (hsock.symm.trans hphase.1), hpayload⟩

theorem account_of_run {scratch : Vector UInt8 128} {as : List UploadStep} {u : Uploader}
    (hrun : run step (init scratch) as = some u) :
    Account (steps step (init scratch) as) u := by
  have hu : Account ([] ++ steps step (init scratch) as) u :=
    history_of_run (fun _ _ _ _ hu hs => hu.step hs) (account_init scratch) hrun
  rwa [List.nil_append] at hu

end BikeMcu.UdpClient
