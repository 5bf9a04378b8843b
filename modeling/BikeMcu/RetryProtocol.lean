import BikeMcu.RunHistory
import BikeMcu.NetworkLifecycle

namespace BikeMcu.RetryProtocol

open BikeMcu.TransitionSystem
open BikeMcu.RunHistory
open BikeMcu.TaskKernel
open BikeMcu.WifiConnect
open BikeMcu.NetworkLifecycle

/-- The length of the current streak of disconnects, for events logged newest
first. -/
def disconnectsSinceGotIp (handled : List WifiEvent) : ℕ :=
  (handled.takeWhile fun e => e ≠ .staGotIp).count .staDisconnected

/-- What the counter and the bits say about the events handled. The monitor may
have cleared the fail bit since. -/
structure Retry (w : Wifi) : Prop where
  retryNum : w.sRetryNum = min espMaximumRetry (disconnectsSinceGotIp w.handled)
  connected : w.bits.connected = true ↔ .staGotIp ∈ w.handled
  fail : w.bits.fail = true → espMaximumRetry < w.handled.count .staDisconnected

theorem retry_init : Retry NetworkLifecycle.init.wifi := by
  refine ⟨rfl, ?_, ?_⟩
  · simp [NetworkLifecycle.init, WifiConnect.init]
  · simp [NetworkLifecycle.init, WifiConnect.init]

/-- Nothing the retry protocol rests on changes, except that the fail bit may be
cleared. -/
structure SameRetry (w w' : Wifi) : Prop where
  handled : w'.handled = w.handled
  retryNum : w'.sRetryNum = w.sRetryNum
  connected : w'.bits.connected = w.bits.connected
  fail : w'.bits.fail = true → w.bits.fail = true

theorem SameRetry.refl (w : Wifi) : SameRetry w w :=
  ⟨rfl, rfl, rfl, id⟩

theorem Retry.of_same {w w' : Wifi} (h : Retry w) (hsame : SameRetry w w') :
    Retry w' := by
  refine ⟨?_, ?_, ?_⟩
  · rw [hsame.retryNum, hsame.handled]
    exact h.retryNum
  · rw [hsame.connected, hsame.handled]
    exact h.connected
  · intro hfail
    rw [hsame.handled]
    exact h.fail (hsame.fail hfail)

theorem disconnectsSinceGotIp_le (handled : List WifiEvent) :
    disconnectsSinceGotIp handled ≤ handled.count .staDisconnected :=
  (List.takeWhile_sublist _).count_le _

@[simp] theorem disconnectsSinceGotIp_cons (e : WifiEvent) (handled : List WifiEvent) :
    disconnectsSinceGotIp (e :: handled) =
      match e with
      | .staGotIp => 0
      | .staDisconnected => disconnectsSinceGotIp handled + 1
      | _ => disconnectsSinceGotIp handled := by
  cases e <;> simp [disconnectsSinceGotIp]

/-- The WiFi state once `event_handler` has run on `e`, its bits set. -/
def afterHandler (w : Wifi) (e : WifiEvent) : Wifi :=
  { (eventHandler w e).1 with
    handled := e :: w.handled
    bits := (eventHandler w e).2.elim w.bits w.bits.union }

/-- A disconnect is answered by a connect up to the tenth of its streak, and by
the fail bit from the eleventh on. -/
theorem Retry.disconnected {w : Wifi} (h : Retry w) :
    (eventHandler w .staDisconnected).1.connects =
        w.connects + (if disconnectsSinceGotIp (.staDisconnected :: w.handled) ≤
          espMaximumRetry then 1 else 0) ∧
      (eventHandler w .staDisconnected).2 =
        if disconnectsSinceGotIp (.staDisconnected :: w.handled) ≤ espMaximumRetry then none
        else some wifiFailBit := by
  have hnum := h.retryNum
  rw [disconnectsSinceGotIp_cons]
  by_cases hlow : disconnectsSinceGotIp w.handled < espMaximumRetry
  · have hretry : w.sRetryNum < espMaximumRetry := by omega
    simp [eventHandler, hretry, Nat.succ_le_of_lt hlow]
  · have hretry : ¬ w.sRetryNum < espMaximumRetry := by omega
    have hhigh : ¬ disconnectsSinceGotIp w.handled + 1 ≤ espMaximumRetry := by omega
    simp [eventHandler, hretry, hhigh]

theorem Retry.afterHandler {w : Wifi} (h : Retry w) (e : WifiEvent) :
    Retry (RetryProtocol.afterHandler w e) := by
  have hnum := h.retryNum
  cases e with
  | staStart =>
      refine ⟨?_, ?_, ?_⟩
      · simpa [RetryProtocol.afterHandler, eventHandler] using hnum
      · simpa [RetryProtocol.afterHandler, eventHandler] using h.connected
      · simpa [RetryProtocol.afterHandler, eventHandler] using h.fail
  | otherWifi =>
      refine ⟨?_, ?_, ?_⟩
      · simpa [RetryProtocol.afterHandler, eventHandler] using hnum
      · simpa [RetryProtocol.afterHandler, eventHandler] using h.connected
      · simpa [RetryProtocol.afterHandler, eventHandler] using h.fail
  | staGotIp =>
      refine ⟨?_, ?_, ?_⟩
      · simp [RetryProtocol.afterHandler, eventHandler]
      · simp [RetryProtocol.afterHandler, eventHandler, EventBits.union, wifiConnectedBit]
      · simpa [RetryProtocol.afterHandler, eventHandler, EventBits.union, wifiConnectedBit]
          using h.fail
  | staDisconnected =>
      have hcount := disconnectsSinceGotIp_le w.handled
      by_cases hretry : w.sRetryNum < espMaximumRetry
      · refine ⟨?_, ?_, ?_⟩
        · simp only [RetryProtocol.afterHandler, eventHandler, if_pos hretry,
            disconnectsSinceGotIp_cons]
          omega
        · simpa [RetryProtocol.afterHandler, eventHandler, hretry] using h.connected
        · intro hfail
          have hold := h.fail (by
            simpa [RetryProtocol.afterHandler, eventHandler, hretry] using hfail)
          simp only [RetryProtocol.afterHandler, List.count_cons_self]
          omega
      · refine ⟨?_, ?_, ?_⟩
        · simp only [RetryProtocol.afterHandler, eventHandler, if_neg hretry,
            disconnectsSinceGotIp_cons]
          omega
        · simpa [RetryProtocol.afterHandler, eventHandler, hretry, EventBits.union,
            wifiFailBit] using h.connected
        · intro _
          simp only [RetryProtocol.afterHandler, List.count_cons_self]
          omega

theorem setBits_cases (s : Network) (set : EventBits) :
    SameRetry { s.wifi with bits := s.wifi.bits.union set } (setBits s set).wifi ∧
    ((setBits s set).main = s.main ∨
      s.main = .blocked ∧ (setBits s set).main = .returned (s.wifi.bits.union set) ∧
        ((s.wifi.bits.union set).connected || (s.wifi.bits.union set).fail) = true) := by
  have hmain : ∀ c : Bool,
      (if s.main = .blocked ∧ c = true then MainPoint.returned (s.wifi.bits.union set)
        else s.main) = s.main ∨
      s.main = .blocked ∧ (if s.main = .blocked ∧ c = true then
        MainPoint.returned (s.wifi.bits.union set) else s.main) =
          .returned (s.wifi.bits.union set) ∧ c = true := by
    intro c
    by_cases h : s.main = .blocked ∧ c = true
    · exact .inr ⟨h.1, if_pos h, h.2⟩
    · exact .inl (if_neg h)
  simp only [setBits]
  split
  · exact ⟨⟨rfl, rfl, rfl, by simp⟩, hmain _⟩
  · exact ⟨SameRetry.refl _, hmain _⟩

/-- Everything a posted event can do to the protocol. -/
theorem post_cases (s : Network) (e : WifiEvent) :
    post s e = s ∨ SameRetry (afterHandler s.wifi e) (post s e).wifi ∧
      ((post s e).main = s.main ∨ ∃ bits, s.main = .blocked ∧
        (post s e).main = .returned bits ∧ (bits.connected || bits.fail) = true ∧
        bits = (afterHandler s.wifi e).bits) := by
  by_cases hdelivers : delivers s.wifi e = true
  · right
    obtain ⟨num, connects, hhandler⟩ := eventHandler_wifi s.wifi e
    have hhandled : (eventHandler s.wifi e).1.handled = s.wifi.handled := by rw [hhandler]
    have hbits : (eventHandler s.wifi e).1.bits = s.wifi.bits := by rw [hhandler]
    simp only [post, hdelivers, if_true, hhandled]
    cases hset : (eventHandler s.wifi e).2 with
    | none =>
        refine ⟨⟨rfl, rfl, ?_, ?_⟩, .inl rfl⟩
        · simp [afterHandler, hset, hbits]
        · simp [afterHandler, hset, hbits]
    | some set =>
        obtain ⟨hsame, hmain⟩ := setBits_cases
          { s with wifi := { (eventHandler s.wifi e).1 with handled := e :: s.wifi.handled } }
          set
        rw [hbits] at hsame hmain
        have hafter : (afterHandler s.wifi e).bits = s.wifi.bits.union set := by
          simp [afterHandler, hset]
        refine ⟨⟨hsame.handled, hsame.retryNum, ?_, ?_⟩, ?_⟩
        · rw [hafter]
          exact hsame.connected
        · rw [hafter]
          exact hsame.fail
        · rcases hmain with heq | ⟨hblocked, heq, hany⟩
          · exact .inl heq
          · exact .inr ⟨_, hblocked, heq, hany, hafter.symm⟩
  · left
    simp [post, hdelivers]

/-- Between `s` and `t` the fail bit comes to be in the event group, or the monitor,
blocked on it, leaves its wait with it. -/
def FailRaised (s t : Network) : Prop :=
  t.wifi.bits.fail = true ∨ s.monitor = .blocked ∧ t.monitor = .stopping stopStart

theorem failRaised_setBits (s : Network) : FailRaised s (setBits s wifiFailBit) := by
  by_cases hblocked : s.monitor = .blocked
  · exact .inr ⟨hblocked, by simp [setBits, hblocked, EventBits.union, wifiFailBit]⟩
  · exact .inl (by simp [setBits, hblocked, EventBits.union, wifiFailBit])

/-- The same two answers in the event group and its waiters, where the handler is
registered. -/
theorem Retry.post_disconnected {s : Network} (h : Retry s.wifi)
    (hdelivers : delivers s.wifi .staDisconnected = true) :
    (post s .staDisconnected).wifi.connects =
        s.wifi.connects + (if disconnectsSinceGotIp (.staDisconnected :: s.wifi.handled) ≤
          espMaximumRetry then 1 else 0) ∧
      (FailRaised s (post s .staDisconnected) ↔ s.wifi.bits.fail = true ∨
        espMaximumRetry < disconnectsSinceGotIp (.staDisconnected :: s.wifi.handled)) := by
  obtain ⟨hconnects, hset⟩ := h.disconnected
  obtain ⟨num, connects, hhandler⟩ := eventHandler_wifi s.wifi .staDisconnected
  simp only [hhandler] at hconnects
  by_cases hlow : disconnectsSinceGotIp (.staDisconnected :: s.wifi.handled) ≤ espMaximumRetry
  · rw [if_pos hlow] at hset hconnects
    have hunraised : ¬ (s.monitor = .blocked ∧ s.monitor = .stopping stopStart) := by
      rintro ⟨hblocked, hstopping⟩
      rw [hblocked] at hstopping
      cases hstopping
    simp only [post, hdelivers, if_true, hset, hhandler, if_pos hlow, FailRaised, hunraised,
      or_false, Nat.not_lt_of_le hlow, and_true]
    exact hconnects
  · rw [if_neg hlow] at hset hconnects
    simp only [post, hdelivers, if_true, hset, hhandler, if_neg hlow, Nat.lt_of_not_le hlow,
      or_true, iff_true]
    obtain ⟨bits, hbits⟩ := setBits_wifi
      { s with wifi := { s.wifi with
          sRetryNum := num, connects := connects
          handled := .staDisconnected :: s.wifi.handled } } wifiFailBit
    refine ⟨?_, failRaised_setBits _⟩
    rw [hbits]
    exact hconnects

theorem wifiStop_same (s : Network) (p : StopPoint) :
    SameRetry s.wifi (wifiStop s p).1.wifi := by
  cases p with
  | stopTask n =>
      rw [wifiStop_stopTask, (stopTask_frame n s).2.2.2]
      exact SameRetry.refl _
  | _ => exact ⟨rfl, rfl, rfl, id⟩

theorem monitorStep_same {s t : Network} (h : monitorStep s = some t) :
    SameRetry s.wifi t.wifi ∧ t.main = s.main := by
  cases monitorMove h with
  | failed hmonitor => exact ⟨⟨rfl, rfl, rfl, by simp⟩, rfl⟩
  | block hmonitor => exact ⟨SameRetry.refl _, rfl⟩
  | stopping hmonitor hp => exact ⟨wifiStop_same s _, wifiStop_main s _⟩
  | exit hmonitor => exact ⟨SameRetry.refl _, rfl⟩

/-- The points of `wifi_init_sta` up to the end of its wait. -/
def waits : MainPoint → Bool
  | .registerAnyId | .registerGotIp | .espWifiStart | .waitBits | .blocked => true
  | _ => false

/-- `app_main` goes on after `ESP_OK`. -/
def online : MainPoint → Bool
  | .createMonitor | .create _ | .finished true => true
  | _ => false

/-- `wifi_init_sta` is on its way to `ESP_FAIL`, or has returned it. -/
def offline : MainPoint → Bool
  | .stopping _ | .finished false => true
  | _ => false

/-- Everything a statement of `app_main` can do to the protocol. -/
theorem mainStep_phases {s t : Network} {ok : Bool} (h : mainStep s ok = some t) :
    SameRetry s.wifi t.wifi ∧
    (waits s.main = true ∧ t.monitor = s.monitor ∧ (waits t.main = true ∨
      t.main = .returned s.wifi.bits ∧
        (s.wifi.bits.connected || s.wifi.bits.fail) = true) ∨
    (∃ bits, s.main = .returned bits ∧ t.monitor = s.monitor ∧
      (bits.connected = true ∧ t.main = .createMonitor ∨
        bits.connected = false ∧ (t.main = .stopping stopStart ∨ t.main = .finished false))) ∨
    (∃ p, s.main = .stopping p ∧ t.monitor = s.monitor ∧
      (t.main = .finished false ∨ t.main = .stopping (wifiStop s p).2)) ∨
    (online s.main = true ∧ online t.main = true ∧ t.main ≠ .createMonitor ∧
      (t.monitor = s.monitor ∨ s.main = .createMonitor ∧ t.monitor = .waitBits))) := by
  cases mainMove h with
  | registerAnyId hmain =>
      exact ⟨⟨rfl, rfl, rfl, id⟩, .inl ⟨by rw [hmain]; rfl, rfl, .inl rfl⟩⟩
  | registerGotIp hmain =>
      exact ⟨⟨rfl, rfl, rfl, id⟩, .inl ⟨by rw [hmain]; rfl, rfl, .inl rfl⟩⟩
  | espWifiStart hmain =>
      exact ⟨SameRetry.refl _, .inl ⟨by rw [hmain]; rfl, rfl, .inl rfl⟩⟩
  | bitsSet hmain hany =>
      exact ⟨SameRetry.refl _, .inl ⟨by rw [hmain]; rfl, rfl, .inr ⟨rfl, hany⟩⟩⟩
  | block hmain =>
      exact ⟨SameRetry.refl _, .inl ⟨by rw [hmain]; rfl, rfl, .inl rfl⟩⟩
  | connected hmain hbits =>
      exact ⟨SameRetry.refl _, .inr (.inl ⟨_, hmain, rfl, .inl ⟨hbits, rfl⟩⟩)⟩
  | failed hmain hbits =>
      exact ⟨SameRetry.refl _, .inr (.inl ⟨_, hmain, rfl, .inr ⟨hbits, .inl rfl⟩⟩)⟩
  | unexpected hmain hbits =>
      exact ⟨SameRetry.refl _, .inr (.inl ⟨_, hmain, rfl, .inr ⟨hbits, .inr rfl⟩⟩)⟩
  | stopping hmain hp =>
      exact ⟨wifiStop_same s _,
        .inr (.inr (.inl ⟨_, hmain, wifiStop_monitor s _, .inr rfl⟩))⟩
  | stopped hmain =>
      exact ⟨SameRetry.refl _, .inr (.inr (.inl ⟨.done, hmain, rfl, .inl rfl⟩))⟩
  | createMonitor hmain =>
      refine ⟨SameRetry.refl _, .inr (.inr (.inr ⟨?_, rfl, by simp, .inr ⟨hmain, rfl⟩⟩))⟩
      rw [hmain]
      rfl
  | noMonitor hmain =>
      refine ⟨SameRetry.refl _, .inr (.inr (.inr ⟨?_, rfl, by simp, .inl rfl⟩))⟩
      rw [hmain]
      rfl
  | @create n hmain =>
      obtain ⟨hwifi, hmonitor⟩ := createNetworkTask_frame s n ok
      refine ⟨hwifi ▸ SameRetry.refl _, .inr (.inr (.inr ⟨?_, ?_, ?_, .inl hmonitor⟩))⟩
      · rw [hmain]
        rfl
      · cases n <;> rfl
      · cases n <;> simp [afterCreate]

theorem udpExit_frame {s t : Network} (h : NetworkLifecycle.step s .udpExit = some t) :
    t.wifi = s.wifi ∧ t.main = s.main ∧ t.monitor = s.monitor := by
  simp only [NetworkLifecycle.step] at h
  split at h
  · obtain rfl := Option.some.inj h
    exact ⟨rfl, rfl, rfl⟩
  · cases h

theorem Retry.step {s t : Network} {e : NetworkEvent} (h : Retry s.wifi)
    (hstep : NetworkLifecycle.step s e = some t) : Retry t.wifi := by
  cases e with
  | post e =>
      obtain rfl := Option.some.inj hstep
      rcases post_cases s e with heq | ⟨hsame, -⟩
      · rwa [heq]
      · exact (h.afterHandler e).of_same hsame
  | main ok => exact h.of_same (mainStep_phases hstep).1
  | monitor => exact h.of_same (monitorStep_same hstep).1
  | udpExit => rwa [(udpExit_frame hstep).1]

/-- The end of the wait of `wifi_init_sta`, and what the bits it returns then
mean. -/
theorem wait_ends {s t : Network} {e : NetworkEvent} (h : Retry s.wifi)
    (hstep : NetworkLifecycle.step s e = some t) (hs : waits s.main = true)
    (ht : ¬ waits t.main = true) :
    ∃ bits, t.main = .returned bits ∧ (bits.connected || bits.fail) = true ∧
      (bits.connected = true ↔ .staGotIp ∈ t.wifi.handled) ∧
      (bits.fail = true → espMaximumRetry < t.wifi.handled.count .staDisconnected) := by
  cases e with
  | post e =>
      obtain rfl := Option.some.inj hstep
      rcases post_cases s e with heq | ⟨hsame, heq | ⟨bits, -, hmain, hany, hbits⟩⟩
      · exact absurd (by rwa [heq]) ht
      · exact absurd (by rwa [heq]) ht
      · have hretry := h.afterHandler e
        rw [hsame.handled]
        refine ⟨bits, hmain, hany, ?_, ?_⟩
        · rw [hbits]
          exact hretry.connected
        · rw [hbits]
          exact hretry.fail
  | main ok =>
      obtain ⟨hsame, ⟨-, -, hwaits | ⟨hmain, hany⟩⟩ | ⟨bits, hmain, -⟩ | ⟨p, hmain, -⟩ |
        ⟨honline, -⟩⟩ := mainStep_phases hstep
      · exact absurd hwaits ht
      · rw [hsame.handled]
        exact ⟨s.wifi.bits, hmain, hany, h.connected, h.fail⟩
      · rw [hmain] at hs
        cases hs
      · rw [hmain] at hs
        cases hs
      · cases hm : s.main <;> simp_all [waits, online]
  | monitor => exact absurd ((monitorStep_same hstep).2 ▸ hs) ht
  | udpExit => exact absurd ((udpExit_frame hstep).2.1 ▸ hs) ht

/-- Where `app_main` can be once the wait has returned `bits`. -/
def Settled (bits : EventBits) (m : MainPoint) : Prop :=
  m = .returned bits ∨ bits.connected = true ∧ online m = true ∨
    bits.connected = false ∧ offline m = true

theorem settled_step {s t : Network} {e : NetworkEvent} {bits : EventBits}
    (hs : Settled bits s.main) (hstep : NetworkLifecycle.step s e = some t) :
    Settled bits t.main := by
  cases e with
  | post e =>
      obtain rfl := Option.some.inj hstep
      rcases post_cases s e with heq | ⟨-, heq | ⟨bits', hblocked, -⟩⟩
      · rwa [heq]
      · rwa [heq]
      · rw [hblocked] at hs
        simp [Settled, online, offline] at hs
  | main ok =>
      obtain ⟨-, ⟨hwaits, -⟩ | ⟨bits', hmain, -, hnext⟩ | ⟨p, hmain, -, hnext⟩ |
        ⟨honline, hnext, -⟩⟩ := mainStep_phases hstep
      · cases hm : s.main <;> simp_all [waits, online, offline, Settled]
      · have heq : bits' = bits := by
          simpa [Settled, hmain, online, offline] using hs
        subst heq
        rcases hnext with ⟨hconnected, ht⟩ | ⟨hconnected, ht | ht⟩
        · exact .inr (.inl ⟨hconnected, by rw [ht]; rfl⟩)
        · exact .inr (.inr ⟨hconnected, by rw [ht]; rfl⟩)
        · exact .inr (.inr ⟨hconnected, by rw [ht]; rfl⟩)
      · have hconnected : bits.connected = false := by
          simpa [Settled, hmain, online, offline] using hs
        rcases hnext with ht | ht
        · exact .inr (.inr ⟨hconnected, by rw [ht]; rfl⟩)
        · exact .inr (.inr ⟨hconnected, by rw [ht]; rfl⟩)
      · refine .inr (.inl ⟨?_, hnext⟩)
        rcases hs with hmain | ⟨hconnected, -⟩ | ⟨-, hoffline⟩
        · simp [hmain, online] at honline
        · exact hconnected
        · cases hm : s.main with
          | finished ok => cases ok <;> simp_all [online, offline]
          | _ => simp_all [online, offline]
  | monitor => rwa [(monitorStep_same hstep).2]
  | udpExit => rwa [(udpExit_frame hstep).2.1]

/-- The 'unexpected event' branch needs bits that are both clear. -/
def Expected (m : MainPoint) : Prop :=
  waits m = true ∨ ∃ bits : EventBits, (bits.connected || bits.fail) = true ∧ Settled bits m

theorem expected_step {s t : Network} {e : NetworkEvent} (h : Retry s.wifi)
    (hs : Expected s.main) (hstep : NetworkLifecycle.step s e = some t) :
    Expected t.main := by
  by_cases ht : waits t.main = true
  · exact .inl ht
  right
  rcases hs with hwaits | ⟨bits, hany, hsettled⟩
  · obtain ⟨bits, hmain, hany, -⟩ := wait_ends h hstep hwaits ht
    exact ⟨bits, hany, .inl hmain⟩
  · exact ⟨bits, hany, settled_step hsettled hstep⟩

/-- What `wifi_init_sta` has returned: whether it was `ESP_OK`. -/
def espOk (m : MainPoint) : Option Bool :=
  if online m then some true else if m = .finished false then some false else none

theorem retry_of_run {es : List NetworkEvent} {s : Network}
    (hrun : run NetworkLifecycle.step NetworkLifecycle.init es = some s) :
    Retry s.wifi := by
  have hstep : ∀ s e t, Retry s.wifi → NetworkLifecycle.step s e = some t → Retry t.wifi :=
    fun _ _ _ h hs => h.step hs
  exact invariant_of_run hstep retry_init hrun

theorem expected_of_run {es : List NetworkEvent} {s : Network}
    (hrun : run NetworkLifecycle.step NetworkLifecycle.init es = some s) :
    Expected s.main := by
  have hstep : ∀ s e t, Retry s.wifi ∧ Expected s.main →
      NetworkLifecycle.step s e = some t → Retry t.wifi ∧ Expected t.main :=
    fun _ _ _ h hs => ⟨h.1.step hs, expected_step h.1 h.2 hs⟩
  exact (invariant_of_run hstep ⟨retry_init, .inl rfl⟩ hrun).2

theorem Settled.espOk {bits : EventBits} {m : MainPoint} {ok : Bool}
    (h : Settled bits m) (hok : RetryProtocol.espOk m = some ok) : ok = bits.connected := by
  rcases h with rfl | ⟨hconnected, honline⟩ | ⟨hconnected, hoffline⟩
  · cases hok
  · rw [RetryProtocol.espOk, honline] at hok
    exact (Option.some.inj hok).symm.trans hconnected.symm
  · cases m with
    | finished ok' =>
        cases ok' with
        | true => cases hoffline
        | false => exact (Option.some.inj hok).symm.trans hconnected.symm
    | stopping p => cases hok
    | _ => cases hoffline

theorem wifiStop_ne_stopStart (s : Network) (p : StopPoint) :
    (wifiStop s p).2 ≠ stopStart := by
  have hafter : ∀ n, afterStop n ≠ stopStart := by
    intro n
    cases n <;> simp [afterStop, stopStart]
  cases p with
  | stopTask n =>
      rw [wifiStop_stopTask, stopTask]
      split
      · simp [stopStart]
      · exact hafter n
  | clearHandle n => exact hafter n
  | _ => simp [wifiStop, stopStart]

/-- The first statement of `wifi_stop`, by either of its callers. -/
def startsWifiStop : Network × NetworkEvent → Bool
  | (s, .main _) => decide (s.main = .stopping stopStart)
  | (s, .monitor) => decide (s.monitor = .stopping stopStart)
  | _ => false

def mainMayStop : MainPoint → Bool
  | .stopping p => decide (p = stopStart)
  | .create _ | .finished _ => false
  | _ => true

def monitorMayStop : MonitorPoint → Bool
  | .waitBits | .blocked => true
  | .stopping p => decide (p = stopStart)
  | .absent | .exited => false

def stopsAhead (s : Network) : ℕ :=
  (mainMayStop s.main).toNat + (monitorMayStop s.monitor).toNat

theorem stopsAhead_mainStep {s t : Network} {ok : Bool} (h : mainStep s ok = some t) :
    stopsAhead t + (startsWifiStop (s, .main ok)).toNat ≤ stopsAhead s := by
  have hmain_le := Bool.toNat_le (mainMayStop t.main)
  obtain ⟨-, ⟨hwaits, hmonitor, -⟩ | ⟨bits, hmain, hmonitor, -⟩ | ⟨p, hmain, hmonitor, hnext⟩ |
    ⟨honline, hnext, hne, hmonitor⟩⟩ := mainStep_phases h
  · have hs : mainMayStop s.main = true ∧ s.main ≠ .stopping stopStart := by
      cases hm : s.main <;> simp_all [waits, mainMayStop]
    simp only [stopsAhead, startsWifiStop, hs.1, hs.2, hmonitor, decide_false,
      Bool.toNat_true, Bool.toNat_false]
    omega
  · have hs : mainMayStop s.main = true := by rw [hmain]; rfl
    have hstart : s.main ≠ .stopping stopStart := by simp [hmain]
    simp only [stopsAhead, startsWifiStop, hs, hstart, hmonitor, decide_false,
      Bool.toNat_true, Bool.toNat_false]
    omega
  · have hs : mainMayStop s.main = decide (s.main = .stopping stopStart) := by
      simp [hmain, mainMayStop]
    have ht : mainMayStop t.main = false := by
      rcases hnext with ht | ht
      · rw [ht]
        rfl
      · simp [ht, mainMayStop, wifiStop_ne_stopStart]
    simp only [stopsAhead, startsWifiStop, hs, ht, hmonitor, Bool.toNat_false]
    omega
  · have hstart : s.main ≠ .stopping stopStart := by
      rintro heq
      simp [heq, online] at honline
    have ht : mainMayStop t.main = false := by
      cases hm : t.main <;> simp_all [online, mainMayStop]
    simp only [stopsAhead, startsWifiStop, hstart, ht, decide_false, Bool.toNat_false]
    rcases hmonitor with heq | ⟨hmain, hnew⟩
    · rw [heq]
      omega
    · rw [hmain, hnew]
      simp [mainMayStop, monitorMayStop]

theorem stopsAhead_monitorStep {s t : Network} (h : monitorStep s = some t) :
    stopsAhead t + (startsWifiStop (s, .monitor)).toNat ≤ stopsAhead s := by
  have hmain := (monitorStep_same h).2
  rcases monitorStep_cases h with ⟨hwait, -, -, -, hnext⟩ | ⟨p, -, hp, rfl⟩ | ⟨hdone, rfl⟩
  · have hle := Bool.toNat_le (monitorMayStop t.monitor)
    have hs : monitorMayStop s.monitor = true := by rw [hwait]; rfl
    have hstart : s.monitor ≠ .stopping stopStart := by simp [hwait]
    simp only [stopsAhead, startsWifiStop, hmain, hs, hstart, decide_false,
      Bool.toNat_true, Bool.toNat_false]
    omega
  · have hs : monitorMayStop s.monitor = decide (s.monitor = .stopping stopStart) := by
      simp [hp, monitorMayStop]
    have ht : monitorMayStop (.stopping (wifiStop s p).2) = false := by
      simp [monitorMayStop, wifiStop_ne_stopStart]
    simp only [stopsAhead, startsWifiStop, hs, ht, wifiStop_main, Bool.toNat_false]
    omega
  · have hstart : s.monitor ≠ .stopping stopStart := by simp [hdone, stopStart]
    simp [stopsAhead, startsWifiStop, hstart, monitorMayStop]

theorem stopsAhead_step {s t : Network} {e : NetworkEvent}
    (hstep : NetworkLifecycle.step s e = some t) :
    stopsAhead t + (startsWifiStop (s, e)).toNat ≤ stopsAhead s := by
  cases e with
  | post e =>
      obtain rfl := Option.some.inj hstep
      obtain ⟨-, -, hmain, hmonitor⟩ := post_frame s e
      have hmain' : mainMayStop (post s e).main = mainMayStop s.main := by
        rcases hmain with heq | ⟨hblocked, bits, heq⟩
        · rw [heq]
        · rw [heq, hblocked]
          rfl
      have hmonitor' : monitorMayStop (post s e).monitor = monitorMayStop s.monitor := by
        rcases hmonitor with heq | ⟨hblocked, heq⟩
        · rw [heq]
        · rw [heq, hblocked]
          rfl
      simp [stopsAhead, startsWifiStop, hmain', hmonitor']
  | main ok => exact stopsAhead_mainStep hstep
  | monitor => exact stopsAhead_monitorStep hstep
  | udpExit =>
      obtain ⟨-, hmain, hmonitor⟩ := udpExit_frame hstep
      simp [stopsAhead, startsWifiStop, hmain, hmonitor]

/-- The result of `wifi_init_sta` is decided by what had been handled when its
wait ended. -/
theorem espOk_of_wait {es : List NetworkEvent} {s : Network} {ok : Bool}
    (hrun : run NetworkLifecycle.step NetworkLifecycle.init es = some s)
    (hok : espOk s.main = some ok) :
    ∃ pre e post u t, es = pre ++ e :: post ∧
      run NetworkLifecycle.step NetworkLifecycle.init pre = some u ∧
      waits u.main = true ∧ NetworkLifecycle.step u e = some t ∧ waits t.main = false ∧
      (ok = true ↔ .staGotIp ∈ t.wifi.handled) ∧
      (ok = false → espMaximumRetry < t.wifi.handled.count .staDisconnected) := by
  have hends : ¬ waits s.main = true := by
    intro hwaits
    cases hm : s.main <;> simp_all [waits, espOk, online]
  obtain ⟨pre, e, post, u, t, rfl, hpre, hu, hstep, ht, hpost⟩ :=
    exists_leaving_step (P := fun s => waits s.main = true) rfl hrun hends
  have hretry : Retry u.wifi := retry_of_run hpre
  obtain ⟨bits, hmain, hany, hconnected, hfail⟩ := wait_ends hretry hstep hu ht
  have hsettled : Settled bits s.main :=
    invariant_of_run (fun _ _ _ h hs => settled_step h hs) (.inl hmain) hpost
  obtain rfl := hsettled.espOk hok
  refine ⟨pre, e, post, u, t, rfl, hpre, hu, hstep, ?_, hconnected, ?_⟩
  · simpa using ht
  · intro hnot
    refine hfail ?_
    rwa [hnot, Bool.false_or] at hany

/-- The counter is the capped length of the streak, a disconnect reconnects up to
the tenth of its streak and sets the fail bit from the eleventh on,
`wifi_init_sta` returns `ESP_OK` exactly if an address had been handled when its
wait ended and otherwise after eleven disconnects, never through its third branch,
and `wifi_stop` runs at most once. -/
theorem wifi_retry_protocol (es : List NetworkEvent) (s : Network)
    (hrun : run NetworkLifecycle.step NetworkLifecycle.init es = some s) :
    s.wifi.sRetryNum = min 10 (disconnectsSinceGotIp s.wifi.handled) ∧
    ((eventHandler s.wifi .staDisconnected).1.connects = s.wifi.connects + 1 ↔
      disconnectsSinceGotIp (.staDisconnected :: s.wifi.handled) ≤ 10) ∧
    ((eventHandler s.wifi .staDisconnected).2 = some wifiFailBit ↔
      11 ≤ disconnectsSinceGotIp (.staDisconnected :: s.wifi.handled)) ∧
    (delivers s.wifi .staDisconnected = true →
      ((post s .staDisconnected).wifi.connects = s.wifi.connects + 1 ↔
        disconnectsSinceGotIp (.staDisconnected :: s.wifi.handled) ≤ 10) ∧
      (FailRaised s (post s .staDisconnected) ↔ s.wifi.bits.fail = true ∨
        11 ≤ disconnectsSinceGotIp (.staDisconnected :: s.wifi.handled))) ∧
    (∀ ok, espOk s.main = some ok → ∃ pre e post u t, es = pre ++ e :: post ∧
      run NetworkLifecycle.step NetworkLifecycle.init pre = some u ∧
      waits u.main = true ∧ NetworkLifecycle.step u e = some t ∧ waits t.main = false ∧
      (ok = true ↔ .staGotIp ∈ t.wifi.handled) ∧
      (ok = false → 11 ≤ t.wifi.handled.count .staDisconnected)) ∧
    (∀ bits, s.main = .returned bits → (bits.connected || bits.fail) = true) ∧
    (steps NetworkLifecycle.step NetworkLifecycle.init es).countP startsWifiStop ≤ 1 := by
  have hretry : Retry s.wifi := retry_of_run hrun
  have hexpected : Expected s.main := expected_of_run hrun
  obtain ⟨hconnects, hset⟩ := hretry.disconnected
  refine ⟨hretry.retryNum, ?_, ?_, ?_, fun ok hok => espOk_of_wait hrun hok, ?_, ?_⟩
  · rw [hconnects]
    change _ ↔ _ ≤ espMaximumRetry
    split <;> simp_all
  · rw [hset]
    change _ ↔ espMaximumRetry < _
    split
    · simp_all
    · simp_all
  · intro hdelivers
    obtain ⟨hposted, hraised⟩ := hretry.post_disconnected hdelivers
    refine ⟨?_, hraised⟩
    rw [hposted]
    change _ ↔ _ ≤ espMaximumRetry
    split <;> simp_all
  · intro bits hmain
    rcases hexpected with hwaits | ⟨bits', hany, hsettled⟩
    · rw [hmain] at hwaits
      cases hwaits
    · have heq : bits = bits' := by
        simpa [Settled, hmain, online, offline] using hsettled
      rwa [heq]
  · have hcount := countP_le_of_credit hrun (q := fun _ => false) (r := fun _ => false)
      (fun _ _ _ hs => by simpa using stopsAhead_step hs)
    have hinit : stopsAhead NetworkLifecycle.init = 1 := rfl
    have hnone : (steps NetworkLifecycle.step NetworkLifecycle.init es).countP
        (fun _ => false) = 0 := by simp
    omega

def neverConnects : List NetworkEvent :=
  List.replicate 3 (.main true) ++ List.replicate 11 (.post .staDisconnected) ++
    List.replicate 13 (.main true)

theorem wifi_retry_protocol_never_connects :
    ∃ s, run NetworkLifecycle.step NetworkLifecycle.init neverConnects = some s ∧
      espOk s.main = some false ∧ s.wifi.sRetryNum = 10 ∧
      (steps NetworkLifecycle.step NetworkLifecycle.init neverConnects).countP
        startsWifiStop ≤ 1 := by
  obtain ⟨s, hrun, hs⟩ := exists_run_of_any
    (show (run NetworkLifecycle.step NetworkLifecycle.init neverConnects).any
      (fun s => decide (espOk s.main = some false ∧
        min 10 (disconnectsSinceGotIp s.wifi.handled) = 10)) = true by decide)
  obtain ⟨hok, hstreak⟩ := of_decide_eq_true hs
  have hprotocol := wifi_retry_protocol _ s hrun
  exact ⟨s, hrun, hok, hprotocol.1.trans hstreak, hprotocol.2.2.2.2.2.2⟩

end BikeMcu.RetryProtocol
