import BikeMcu.LampCommands
import BikeMcu.Storage

/-!
`udp_server.c`: the command switch and the two nested loops of
`udp_server_task`. The task's own state also holds the NVS cell, which no other
task writes after boot.
-/

namespace BikeMcu.UdpServer

open BikeMcu.LampCommands
open BikeMcu.Storage

inductive Action where
  | send (g : Signal)
  | storageWriteChar (c : UInt8)
  deriving DecidableEq, Repr

def commandHandler (command : UInt8) : List Action :=
  if command = 'N'.toUInt8 then [.send .normal]
  else if command = 'R'.toUInt8 then [.send .right]
  else if command = 'L'.toUInt8 then [.send .left]
  else if command = 'B'.toUInt8 then [.send .brake]
  else if command = 'O'.toUInt8 then [.send .off, .storageWriteChar 'O'.toUInt8]
  else if command = 'S'.toUInt8 then [.send .normal, .storageWriteChar 'S'.toUInt8]
  else []

/-- What the inner loop does with `len` received bytes before it answers. -/
def handleDatagram (rxBuffer : List UInt8) : List Action :=
  match rxBuffer with
  | [command, _] => commandHandler command
  | _ => []

/-- Program points of `udp_server_task`. `command todo` has the calls `todo` of
`command_handler` ahead of it, then `sendto`; `signalling` and `storing` are
inside one of these calls. -/
inductive UdpPoint where
  | socket
  | bind
  | recvfrom
  | command (todo : List Action)
  | signalling (todo : List Action)
  | storing (c : UInt8) (p : StoragePoint) (todo : List Action)
  | close
  | exit
  deriving DecidableEq, Repr

/-- Sockets are numbered in the order `socket()` returned them; `bound` and
`closed` log the successful `bind` calls and the `close` calls. -/
structure Server where
  point : UdpPoint
  rxBuffer : List UInt8
  sock : Nat
  opened : Nat
  bound : List Nat
  closed : List Nat
  nvs : Nvs
  deriving DecidableEq, Repr

def init (n : Nvs) : Server :=
  { point := .socket, rxBuffer := [], sock := 0, opened := 0, bound := [],
    closed := [], nvs := n }

def rxLimit : Nat := 127

inductive UdpStep where
  | socket (ok : Bool)
  | bind (ok : Bool)
  | recvfrom (datagram : Option (List UInt8))
  | call (g : Signal)
  | returned
  | store
  | storage (ok : Bool)
  | sendto (ok : Bool)
  | close
  | exit
  deriving DecidableEq, Repr

/-- One statement of the task with its outcome. A failed `bind` and a failed
`recvfrom` are only logged, a failed `sendto` leaves the inner loop and a failed
`socket()` the outer one. -/
def step (s : Server) : UdpStep → Option Server
  | .socket ok =>
      if s.point = .socket then
        if ok then some { s with point := .bind, sock := s.opened, opened := s.opened + 1 }
        else some { s with point := .exit }
      else none
  | .bind ok =>
      if s.point = .bind then
        some { s with point := .recvfrom, bound := if ok then s.sock :: s.bound else s.bound }
      else none
  | .recvfrom datagram =>
      if s.point = .recvfrom then
        match datagram with
        | none => some s
        | some d =>
            some { s with
              point := .command (handleDatagram (d.take rxLimit))
              rxBuffer := d.take rxLimit }
      else none
  | .call g =>
      match s.point with
      | .command (.send h :: todo) =>
          if h = g then some { s with point := .signalling todo } else none
      | _ => none
  | .returned =>
      match s.point with
      | .signalling todo => some { s with point := .command todo }
      | _ => none
  | .store =>
      match s.point with
      | .command (.storageWriteChar c :: todo) =>
          some { s with point := .storing c .nvsOpen todo }
      | _ => none
  | .storage ok =>
      match s.point with
      | .storing c p todo =>
          let r := Storage.storageWriteChar c ok s.nvs p
          some { s with
            nvs := r.1
            point := match r.2 with
              | some q => .storing c q todo
              | none => .command todo }
      | _ => none
  | .sendto ok =>
      if s.point = .command [] then
        some { s with point := if ok then .recvfrom else .close }
      else none
  | .close =>
      if s.point = .close then
        some { s with point := .socket, closed := s.sock :: s.closed }
      else none
  | .exit => if s.point = .exit then some s else none

/-- `step` as a relation. -/
inductive UdpMove (s : Server) : UdpStep → Server → Prop where
  | socketCreated (h : s.point = .socket) : UdpMove s (.socket true)
      { s with point := .bind, sock := s.opened, opened := s.opened + 1 }
  | socketFailed (h : s.point = .socket) : UdpMove s (.socket false) { s with point := .exit }
  | bind (h : s.point = .bind) (ok : Bool) : UdpMove s (.bind ok)
      { s with point := .recvfrom, bound := if ok then s.sock :: s.bound else s.bound }
  | recvfromFailed (h : s.point = .recvfrom) : UdpMove s (.recvfrom none) s
  | received (h : s.point = .recvfrom) (d : List UInt8) : UdpMove s (.recvfrom (some d))
      { s with
        point := .command (handleDatagram (d.take rxLimit))
        rxBuffer := d.take rxLimit }
  | call {g : Signal} {todo : List Action} (h : s.point = .command (.send g :: todo)) :
      UdpMove s (.call g) { s with point := .signalling todo }
  | returned {todo : List Action} (h : s.point = .signalling todo) :
      UdpMove s .returned { s with point := .command todo }
  | store {c : UInt8} {todo : List Action}
      (h : s.point = .command (.storageWriteChar c :: todo)) :
      UdpMove s .store { s with point := .storing c .nvsOpen todo }
  | storage {c : UInt8} {p : StoragePoint} {todo : List Action}
      (h : s.point = .storing c p todo) (ok : Bool) : UdpMove s (.storage ok)
      { s with
        nvs := (Storage.storageWriteChar c ok s.nvs p).1
        point := match (Storage.storageWriteChar c ok s.nvs p).2 with
          | some q => .storing c q todo
          | none => .command todo }
  | sendto (h : s.point = .command []) (ok : Bool) : UdpMove s (.sendto ok)
      { s with point := if ok then .recvfrom else .close }
  | close (h : s.point = .close) : UdpMove s .close
      { s with point := .socket, closed := s.sock :: s.closed }
  | exit (h : s.point = .exit) : UdpMove s .exit s

theorem udpMove {s t : Server} {a : UdpStep} (h : step s a = some t) : UdpMove s a t := by
  cases a with
  | socket ok =>
      simp only [step] at h
      split at h
      · cases ok with
        | true => exact Option.some.inj h ▸ .socketCreated ‹_›
        | false => exact Option.some.inj h ▸ .socketFailed ‹_›
      · cases h
  | bind ok =>
      simp only [step] at h
      split at h
      · exact Option.some.inj h ▸ .bind ‹_› ok
      · cases h
  | recvfrom datagram =>
      simp only [step] at h
      split at h
      · cases datagram with
        | none => exact Option.some.inj h ▸ .recvfromFailed ‹_›
        | some d => exact Option.some.inj h ▸ .received ‹_› d
      · cases h
  | call g =>
      simp only [step] at h
      split at h
      · rename_i g' todo hpoint
        split at h
        · rename_i hg
          exact Option.some.inj h ▸ .call (hg ▸ hpoint)
        · cases h
      · cases h
  | returned =>
      simp only [step] at h
      split at h
      · exact Option.some.inj h ▸ .returned ‹_›
      · cases h
  | store =>
      simp only [step] at h
      split at h
      · exact Option.some.inj h ▸ .store ‹_›
      · cases h
  | storage ok =>
      simp only [step] at h
      split at h
      · exact Option.some.inj h ▸ .storage ‹_› ok
      · cases h
  | sendto ok =>
      simp only [step] at h
      split at h
      · exact Option.some.inj h ▸ .sendto ‹_› ok
      · cases h
  | close =>
      simp only [step] at h
      split at h
      · exact Option.some.inj h ▸ .close ‹_›
      · cases h
  | exit =>
      simp only [step] at h
      split at h
      · exact Option.some.inj h ▸ .exit ‹_›
      · cases h

theorem returned_of_signalling {s s' : Server} {a : UdpStep} {todo : List Action}
    (hpoint : s.point = .signalling todo) (h : step s a = some s') :
    a = .returned := by
  cases udpMove h with
  | returned hp => rfl
  | socketCreated hp
  | socketFailed hp
  | bind hp ok
  | recvfromFailed hp
  | received hp d
  | call hp
  | store hp
  | storage hp ok
  | sendto hp ok
  | close hp
  | exit hp =>
      rw [hpoint] at hp
      cases hp

theorem signalling_of_call {s s' : Server} {g : Signal}
    (h : step s (.call g) = some s') : ∃ todo, s'.point = .signalling todo := by
  cases udpMove h
  exact ⟨_, rfl⟩

end BikeMcu.UdpServer
