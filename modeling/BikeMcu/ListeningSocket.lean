import BikeMcu.TransitionSystem
import BikeMcu.UdpServer
import Mathlib.Logic.Function.Basic

namespace BikeMcu.ListeningSocket

open BikeMcu.TransitionSystem
open BikeMcu.Storage
open BikeMcu.UdpServer

def port : UInt16 := 3337

/-- Sockets are named by the order in which they were created. -/
inductive SocketCall where
  | socket (ok : Bool)
  | bind (sock : ℕ) (port : UInt16) (ok : Bool)
  | recvfrom (sock : ℕ)
  | sendto (sock : ℕ)
  | shutdown (sock : ℕ)
  | close (sock : ℕ)
  deriving DecidableEq, Repr

def socketCalls (s : Server) : UdpStep → List SocketCall
  | .socket ok => [.socket ok]
  | .bind ok => [.bind s.sock port ok]
  | .recvfrom _ => [.recvfrom s.sock]
  | .sendto _ => [.sendto s.sock]
  | .close => [.shutdown s.sock, .close s.sock]
  | .call _ | .returned | .store | .storage _ | .exit => []

/-- How many sockets the task has created, the port each is bound to and how often each
was closed. -/
structure Stack where
  created : ℕ
  boundTo : ℕ → Option UInt16
  closes : ℕ → ℕ

def Stack.call (k : Stack) : SocketCall → Stack
  | .socket true => { k with created := k.created + 1 }
  | .bind sock port true => { k with boundTo := Function.update k.boundTo sock (some port) }
  | .close sock => { k with closes := Function.update k.closes sock (k.closes sock + 1) }
  | _ => k

structure Host where
  server : Server
  stack : Stack

def step (h : Host) (a : UdpStep) : Option Host :=
  (UdpServer.step h.server a).map fun s =>
    { server := s, stack := (socketCalls h.server a).foldl Stack.call h.stack }

def init (n : Nvs) : Host :=
  { server := UdpServer.init n
    stack := { created := 0, boundTo := fun _ => none, closes := fun _ => 0 } }

/-- While the task waits in `recvfrom`: its socket is open and bound to the port, and
each one it created before has been closed, once. -/
def Listening (h : Host) : Prop :=
  h.server.point = .recvfrom →
    h.server.sock < h.stack.created ∧ h.stack.closes h.server.sock = 0 ∧
      h.stack.boundTo h.server.sock = some port ∧
      ∀ n, n < h.stack.created → n ≠ h.server.sock → h.stack.closes n = 1

def holdsSocket : UdpPoint → Bool
  | .socket | .exit => false
  | _ => true

/-- The points of the inner loop. -/
def serves : UdpPoint → Bool
  | .recvfrom | .command _ | .signalling _ | .storing _ _ _ => true
  | _ => false

/-- Which sockets are open, whatever fails. -/
structure Accounted (h : Host) : Prop where
  created : h.stack.created = h.server.opened
  fresh : ∀ n, h.stack.created ≤ n → h.stack.closes n = 0 ∧ h.stack.boundTo n = none
  held : holdsSocket h.server.point = true →
    h.server.sock < h.stack.created ∧ h.stack.closes h.server.sock = 0
  released : ∀ n, n < h.stack.created →
    (holdsSocket h.server.point = true → n ≠ h.server.sock) → h.stack.closes n = 1
  unbound : h.server.point = .bind → h.stack.boundTo h.server.sock = none

def Bound (h : Host) : Prop :=
  serves h.server.point = true → h.stack.boundTo h.server.sock = some port

theorem accounted_init (n : Nvs) : Accounted (init n) where
  created := rfl
  fresh _ _ := ⟨rfl, rfl⟩
  held hholds := by cases hholds
  released _ hn := by cases hn
  unbound hpoint := by cases hpoint

/-- A step that creates, binds and closes nothing. -/
def Quiet (s t : Server) (a : UdpStep) : Prop :=
  (∀ k : Stack, (socketCalls s a).foldl Stack.call k = k) ∧ t.sock = s.sock ∧
    t.opened = s.opened ∧ holdsSocket t.point = holdsSocket s.point ∧
    (serves t.point = true → serves s.point = true) ∧ t.point ≠ .bind

/-- Everything a step can do to the sockets. -/
theorem socket_cases {s t : Server} {a : UdpStep} (h : UdpServer.step s a = some t) :
    (a = .socket true ∧ s.point = .socket ∧
      t = { s with point := .bind, sock := s.opened, opened := s.opened + 1 }) ∨
    (∃ ok, a = .bind ok ∧ s.point = .bind ∧ t.point = .recvfrom ∧ t.sock = s.sock ∧
      t.opened = s.opened) ∨
    (a = .close ∧ s.point = .close ∧ t.point = .socket ∧ t.sock = s.sock ∧
      t.opened = s.opened) ∨
    Quiet s t a := by
  cases udpMove h with
  | socketCreated hp => exact .inl ⟨rfl, hp, rfl⟩
  | bind hp ok => exact .inr (.inl ⟨ok, rfl, hp, rfl, rfl, rfl⟩)
  | close hp => exact .inr (.inr (.inl ⟨rfl, hp, rfl, rfl, rfl⟩))
  | sendto hp ok =>
      refine .inr (.inr (.inr ⟨fun _ => rfl, rfl, rfl, ?_⟩))
      cases ok <;> simp [hp, holdsSocket, serves]
  | @storage c p todo hp ok =>
      refine .inr (.inr (.inr ⟨fun _ => rfl, rfl, rfl, ?_⟩))
      cases (Storage.storageWriteChar c ok s.nvs p).2 <;> simp [hp, holdsSocket, serves]
  | socketFailed hp
  | recvfromFailed hp
  | received hp d
  | call hp
  | returned hp
  | store hp
  | exit hp =>
      exact .inr (.inr (.inr ⟨fun _ => rfl, rfl, rfl, by simp [hp, holdsSocket, serves]⟩))

theorem step_eq_some {h h' : Host} {a : UdpStep} (hstep : step h a = some h') :
    UdpServer.step h.server a = some h'.server ∧
      h'.stack = (socketCalls h.server a).foldl Stack.call h.stack := by
  obtain ⟨s, hs, rfl⟩ := Option.map_eq_some_iff.mp hstep
  exact ⟨hs, rfl⟩

section Calls

variable {s t : Server} {k : Stack}

theorem Accounted.socket (h : Accounted ⟨s, k⟩) (hp : s.point = .socket) :
    Accounted ⟨{ s with point := .bind, sock := s.opened, opened := s.opened + 1 },
      k.call (.socket true)⟩ := by
  have hcount : k.created = s.opened := h.created
  have hfresh := h.fresh s.opened (Nat.le_of_eq hcount)
  refine ⟨congrArg (· + 1) hcount, ?_, ?_, ?_, fun _ => hfresh.2⟩
  · intro n hn
    exact h.fresh n (Nat.le_of_succ_le hn)
  · intro _
    exact ⟨hcount ▸ Nat.lt_succ_self k.created, hfresh.1⟩
  · intro n hn hne
    have hlt : n < k.created := by
      have hne' : n ≠ s.opened := hne rfl
      have hn' : n < k.created + 1 := hn
      omega
    exact h.released n hlt fun htrue => by simp [hp, holdsSocket] at htrue

theorem Accounted.quiet (h : Accounted ⟨s, k⟩) (hsock : t.sock = s.sock)
    (hopened : t.opened = s.opened) (hholds : holdsSocket t.point = holdsSocket s.point)
    (hbind : t.point ≠ .bind) : Accounted ⟨t, k⟩ := by
  refine ⟨h.created.trans hopened.symm, h.fresh, ?_, ?_, fun h => absurd h hbind⟩
  · intro htrue
    exact hsock ▸ h.held (hholds ▸ htrue)
  · intro n hn hne
    exact h.released n hn fun htrue => hsock ▸ hne (hholds.trans htrue)

theorem Accounted.bind (h : Accounted ⟨s, k⟩) (hp : s.point = .bind)
    (hp' : t.point = .recvfrom) (hsock : t.sock = s.sock) (hopened : t.opened = s.opened)
    (ok : Bool) : Accounted ⟨t, k.call (.bind s.sock port ok)⟩ := by
  have hkept : Accounted ⟨t, k⟩ :=
    h.quiet hsock hopened (by simp [hp, hp', holdsSocket]) (by simp [hp'])
  cases ok with
  | false => exact hkept
  | true =>
      refine ⟨hkept.created, ?_, hkept.held, hkept.released, ?_⟩
      · intro n hn
        have hlt : s.sock < k.created := (h.held (by simp [hp, holdsSocket])).1
        have hne : n ≠ s.sock := Nat.ne_of_gt (Nat.lt_of_lt_of_le hlt hn)
        exact ⟨(h.fresh n hn).1,
          (Function.update_of_ne hne _ k.boundTo).trans (h.fresh n hn).2⟩
      · intro hpoint
        cases hp'.symm.trans hpoint

/-- The one socket that was not closed before is closed now. -/
theorem Accounted.close (h : Accounted ⟨s, k⟩) (hp : s.point = .close)
    (hp' : t.point = .socket) (hopened : t.opened = s.opened) :
    Accounted ⟨t, k.call (.close s.sock)⟩ := by
  obtain ⟨hlt, hopen⟩ := h.held (by simp [hp, holdsSocket])
  refine ⟨h.created.trans hopened.symm, ?_, ?_, ?_, ?_⟩
  · intro n hn
    have hne : n ≠ s.sock := Nat.ne_of_gt (Nat.lt_of_lt_of_le hlt hn)
    exact ⟨(Function.update_of_ne hne _ k.closes).trans (h.fresh n hn).1, (h.fresh n hn).2⟩
  · intro htrue
    simp [hp', holdsSocket] at htrue
  · intro n hn _
    change Function.update k.closes s.sock (k.closes s.sock + 1) n = 1
    have hopen' : k.closes s.sock = 0 := hopen
    by_cases hn' : n = s.sock
    · rw [hn', Function.update_self, hopen']
    · rw [Function.update_of_ne hn']
      exact h.released n hn fun _ => hn'
  · intro hpoint
    cases hp'.symm.trans hpoint

end Calls

theorem Accounted.step {h h' : Host} {a : UdpStep} (hh : Accounted h)
    (hstep : ListeningSocket.step h a = some h') : Accounted h' := by
  obtain ⟨s, k⟩ := h
  obtain ⟨s', k'⟩ := h'
  obtain ⟨hserver, hstack⟩ := step_eq_some hstep
  dsimp only at hserver hstack
  subst hstack
  rcases socket_cases hserver with ⟨rfl, hp, rfl⟩ | ⟨ok, rfl, hp, hp', hsock, hopened⟩ |
    ⟨rfl, hp, hp', hsock, hopened⟩ | ⟨hquiet, hsock, hopened, hholds, -, hbind⟩
  · exact hh.socket hp
  · exact hh.bind hp hp' hsock hopened ok
  · exact hh.close hp hp' hopened
  · rw [hquiet]
    exact hh.quiet hsock hopened hholds hbind

theorem Bound.step {h h' : Host} {a : UdpStep} (hb : Bound h) (hbind : a ≠ .bind false)
    (hstep : ListeningSocket.step h a = some h') : Bound h' := by
  obtain ⟨s, k⟩ := h
  obtain ⟨s', k'⟩ := h'
  obtain ⟨hserver, hstack⟩ := step_eq_some hstep
  dsimp only at hserver hstack
  subst hstack
  intro hserves
  dsimp only at hserves
  rcases socket_cases hserver with ⟨rfl, hp, rfl⟩ | ⟨ok, rfl, hp, hp', hsock, hopened⟩ |
    ⟨rfl, hp, hp', hsock, hopened⟩ | ⟨hquiet, hsock, hopened, hholds, hstill, -⟩
  · cases hserves
  · cases ok with
    | false => exact absurd rfl hbind
    | true =>
        change Function.update k.boundTo s.sock (some port) s'.sock = some port
        rw [hsock, Function.update_self]
  · rw [hp'] at hserves
    cases hserves
  · rw [hquiet]
    exact hsock ▸ hb (hstill hserves)

theorem bind_point {s t : Server} {ok : Bool} (h : UdpServer.step s (.bind ok) = some t) :
    s.point = .bind ∧ t.point = .recvfrom := by
  cases udpMove h
  exact ⟨‹_›, rfl⟩

/-- A failed `bind` is only logged, and the task waits in `recvfrom` all the same. -/
theorem not_listening_of_bind_failed {h h' : Host} (hh : Accounted h)
    (hstep : ListeningSocket.step h (.bind false) = some h') : ¬ Listening h' := by
  obtain ⟨hserver, hstack⟩ := step_eq_some hstep
  obtain ⟨hcase, -⟩ | ⟨ok, hok, hp, hp', hsock, -⟩ | ⟨hcase, -⟩ | ⟨-, -, -, hholds, hstill, -⟩ :=
    socket_cases hserver
  · cases hcase
  · intro hlisten
    have hport : h'.stack.boundTo h'.server.sock = some port := (hlisten hp').2.2.1
    rw [hstack, hsock] at hport
    cases (hh.unbound hp).symm.trans hport
  · cases hcase
  · have hpoint := bind_point hserver
    simp [hpoint.1, hpoint.2, serves] at hstill

theorem Accounted.listening {h : Host} (hh : Accounted h) (hb : Bound h) : Listening h := by
  intro hpoint
  obtain ⟨hlt, hopen⟩ := hh.held (by simp [hpoint, holdsSocket])
  exact ⟨hlt, hopen, hb (by simp [hpoint, serves]),
    fun n hn hne => hh.released n hn fun _ => hne⟩

/-- The task listens on a working socket in the runs whose `bind` calls all succeed, and
in no others. -/
theorem listening_iff_every_bind_succeeds (n : Nvs) (es : List UdpStep) (h : Host)
    (hrun : run step (init n) es = some h) :
    Always step Listening (init n) es ↔
      EachStep step (fun _ a => a ≠ .bind false) (init n) es := by
  constructor
  · have hbound : ∀ h a h', Accounted h → step h a = some h' → Listening h' →
        a ≠ .bind false := by
      intro h a h' hh hstep hlisten hbind
      subst hbind
      exact not_listening_of_bind_failed hh hstep hlisten
    exact eachStep_of_always (fun h a h' hh => hh.step) hbound (accounted_init n) hrun
  · have hkept : ∀ h a h', Accounted h ∧ Bound h → a ≠ .bind false → step h a = some h' →
        Accounted h' ∧ Bound h' :=
      fun h a h' hh hbind hstep => ⟨hh.1.step hstep, hh.2.step hbind hstep⟩
    exact always_of_invariant_under hkept (fun h hh => hh.1.listening hh.2)
      ⟨accounted_init n, fun h => by cases h⟩

/-- The second socket replaces the first after a failed answer. -/
def restarted : List UdpStep :=
  [.socket true, .bind true, .recvfrom none, .recvfrom (some [0]), .sendto false, .close,
    .socket true, .bind true]

theorem listening_iff_every_bind_succeeds_after_restart :
    Always step Listening (init { stored := none, durable := none }) restarted :=
  (listening_iff_every_bind_succeeds _ restarted _ rfl).mpr (by decide)

/-- The port is taken, and the task waits on a socket that no datagram reaches. -/
theorem listens_unbound_after_failed_bind :
    ∃ h, run step (init { stored := none, durable := none }) [.socket true, .bind false] =
        some h ∧
      h.server.point = .recvfrom ∧ h.stack.boundTo h.server.sock = none ∧ ¬ Listening h := by
  refine ⟨_, rfl, rfl, rfl, fun hlisten => ?_⟩
  cases (hlisten rfl).2.2.1

end BikeMcu.ListeningSocket
