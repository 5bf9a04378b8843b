import Mathlib.Data.List.Basic

namespace BikeMcu.WifiConnect

structure EventBits where
  connected : Bool
  fail : Bool
  deriving DecidableEq, Repr

def wifiConnectedBit : EventBits := { connected := true, fail := false }

def wifiFailBit : EventBits := { connected := false, fail := true }

def EventBits.union (a b : EventBits) : EventBits :=
  { connected := a.connected || b.connected, fail := a.fail || b.fail }

def espMaximumRetry : Nat := 10

inductive WifiEvent where
  | staStart
  | staDisconnected
  | otherWifi
  | staGotIp
  deriving DecidableEq, Repr

/-- The two registrations `wifi_init_sta` makes: every `WIFI_EVENT`, and the
`IP_EVENT` that reports an address. -/
inductive Subscription where
  | wifiAnyId
  | ipStaGotIp
  deriving DecidableEq, Repr

def Subscription.covers : Subscription → WifiEvent → Bool
  | .wifiAnyId, .staGotIp => false
  | .wifiAnyId, _ => true
  | .ipStaGotIp, e => e == .staGotIp

/-- Values of type `esp_event_handler_instance_t` the program handles: what
`register` hands out, and the addresses of the two variables that keep it. -/
inductive Instance where
  | null
  | heap (n : Nat)
  | addressOf (v : Subscription)
  deriving DecidableEq, Repr

structure Registration where
  subscription : Subscription
  handler : Instance
  deriving DecidableEq, Repr

/-- `connects` counts the calls of `esp_wifi_connect`; `handled` logs the events
`event_handler` ran on, newest first. -/
structure Wifi where
  bits : EventBits
  sRetryNum : Nat
  connects : Nat
  handled : List WifiEvent
  registrations : List Registration
  instanceAnyId : Instance
  instanceGotIp : Instance
  nextInstance : Nat
  loopExists : Bool
  deriving DecidableEq, Repr

def init : Wifi :=
  { bits := { connected := false, fail := false }, sRetryNum := 0, connects := 0,
    handled := [], registrations := [], instanceAnyId := .null,
    instanceGotIp := .null, nextInstance := 0, loopExists := true }

/-- `event_handler` up to its `xEventGroupSetBits`, whose argument is the second
component. -/
def eventHandler (w : Wifi) : WifiEvent → Wifi × Option EventBits
  | .staStart => ({ w with connects := w.connects + 1 }, none)
  | .staDisconnected =>
      if w.sRetryNum < espMaximumRetry then
        ({ w with connects := w.connects + 1, sRetryNum := w.sRetryNum + 1 }, none)
      else (w, some wifiFailBit)
  | .staGotIp => ({ w with sRetryNum := 0 }, some wifiConnectedBit)
  | .otherWifi => (w, none)

theorem eventHandler_wifi (w : Wifi) (e : WifiEvent) :
    ∃ num connects, (eventHandler w e).1 = { w with sRetryNum := num, connects := connects } := by
  cases e with
  | staDisconnected =>
      simp only [eventHandler]
      split
      · exact ⟨_, _, rfl⟩
      · exact ⟨_, _, rfl⟩
  | _ => exact ⟨_, _, rfl⟩

def delivers (w : Wifi) (e : WifiEvent) : Bool :=
  w.loopExists && w.registrations.any fun r => r.subscription.covers e

/-- `esp_event_handler_instance_register`: a fresh instance value goes into the
registration and into the caller's variable. -/
def registerInstance (w : Wifi) (s : Subscription) : Wifi :=
  let w := { w with
    registrations := ⟨s, .heap w.nextInstance⟩ :: w.registrations
    nextInstance := w.nextInstance + 1 }
  match s with
  | .wifiAnyId => { w with instanceAnyId := .heap (w.nextInstance - 1) }
  | .ipStaGotIp => { w with instanceGotIp := .heap (w.nextInstance - 1) }

/-- `esp_event_handler_instance_unregister`: the registration whose instance
value equals the argument goes. -/
def unregisterInstance (w : Wifi) (s : Subscription) (handler : Instance) : Wifi :=
  { w with
    registrations := w.registrations.filter fun r => r ≠ ⟨s, handler⟩ }

end BikeMcu.WifiConnect
