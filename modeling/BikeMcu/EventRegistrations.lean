import BikeMcu.RetryProtocol

namespace BikeMcu.EventRegistrations

open BikeMcu.TransitionSystem
open BikeMcu.WifiConnect
open BikeMcu.NetworkLifecycle
open BikeMcu.RetryProtocol

def afterUnregister : StopPoint → Bool
  | .stopTask _ | .clearHandle _ | .unregisterAnyId | .unregisterGotIp => false
  | _ => true

def mainUnregistered : MainPoint → Bool
  | .stopping p => afterUnregister p
  | .finished ok => !ok
  | _ => false

def monitorUnregistered : MonitorPoint → Bool
  | .stopping p => afterUnregister p
  | .exited => true
  | _ => false

/-- Both unregister calls of `wifi_stop` have been executed, by one of its
callers. -/
def unregistered (s : Network) : Bool :=
  mainUnregistered s.main || monitorUnregistered s.monitor

def mainEnded : MainPoint → Bool
  | .stopping p => decide (p = .done)
  | .finished ok => !ok
  | _ => false

def monitorEnded : MonitorPoint → Bool
  | .stopping p => decide (p = .done)
  | .exited => true
  | _ => false

/-- `esp_event_loop_delete_default` has been executed as well. -/
def loopDeleted (s : Network) : Bool :=
  mainEnded s.main || monitorEnded s.monitor

def registrationsAt : MainPoint → List Registration
  | .registerAnyId => []
  | .registerGotIp => [⟨.wifiAnyId, .heap 0⟩]
  | _ => [⟨.ipStaGotIp, .heap 1⟩, ⟨.wifiAnyId, .heap 0⟩]

def pastMonitor : MainPoint → Bool
  | .create _ | .finished true => true
  | _ => false

/-- The registrations are those made so far, and the loop stands until the one
caller that reaches the end of `wifi_stop` deletes it. -/
structure Registered (s : Network) : Prop where
  registrations : s.wifi.registrations = registrationsAt s.main
  next : s.wifi.nextInstance = (registrationsAt s.main).length
  monitor : s.monitor ≠ .absent → pastMonitor s.main = true
  loop : s.wifi.loopExists = true ∨ loopDeleted s = true

theorem handler_registrationsAt {m : MainPoint} {r : Registration}
    (hr : r ∈ registrationsAt m) : ∃ n, r.handler = .heap n := by
  cases m with
  | registerAnyId => cases hr
  | registerGotIp =>
      obtain rfl := List.mem_singleton.mp hr
      exact ⟨0, rfl⟩
  | _ =>
      rcases List.mem_pair.mp hr with rfl | rfl
      · exact ⟨1, rfl⟩
      · exact ⟨0, rfl⟩

/-- No instance value is the address of a variable, so there is nothing to
remove. -/
theorem unregisterInstance_addressOf {w : Wifi} {m : MainPoint}
    (h : w.registrations = registrationsAt m) (s v : Subscription) :
    unregisterInstance w s (.addressOf v) = w := by
  have hkeep : w.registrations.filter (fun r => r ≠ ⟨s, .addressOf v⟩) =
      w.registrations := by
    rw [List.filter_eq_self, h]
    intro r hr
    obtain ⟨n, hn⟩ := handler_registrationsAt hr
    simp only [ne_eq, decide_not, Bool.not_eq_true', decide_eq_false_iff_not]
    rintro rfl
    cases hn
  simp only [unregisterInstance, hkeep]

theorem wifiStop_wifi {s : Network} {m : MainPoint}
    (h : s.wifi.registrations = registrationsAt m) (p : StopPoint) :
    (wifiStop s p).1.wifi = s.wifi ∨
      p = .deleteLoop ∧ (wifiStop s p).1.wifi = { s.wifi with loopExists := false } := by
  cases p with
  | stopTask n =>
      left
      rw [wifiStop_stopTask, (stopTask_frame n s).2.2.2]
  | unregisterAnyId => exact .inl (unregisterInstance_addressOf h _ _)
  | unregisterGotIp => exact .inl (unregisterInstance_addressOf h _ _)
  | deleteLoop => exact .inr ⟨rfl, rfl⟩
  | _ => exact .inl rfl

theorem registered_init : Registered NetworkLifecycle.init :=
  ⟨rfl, rfl, fun h => absurd rfl h, .inl rfl⟩

/-- Steps that touch neither the registrations nor the loop. -/
theorem Registered.of_frame {s t : Network} (h : Registered s)
    (hregistrations : t.wifi.registrations = s.wifi.registrations)
    (hnext : t.wifi.nextInstance = s.wifi.nextInstance)
    (hloop : t.wifi.loopExists = s.wifi.loopExists)
    (hmain : registrationsAt t.main = registrationsAt s.main)
    (hmonitor : t.monitor ≠ .absent → pastMonitor t.main = true)
    (hdeleted : loopDeleted s = true → loopDeleted t = true) : Registered t := by
  refine ⟨?_, ?_, hmonitor, ?_⟩
  · rw [hregistrations, hmain]
    exact h.registrations
  · rw [hnext, hmain]
    exact h.next
  · rw [hloop]
    exact h.loop.imp_right hdeleted

theorem Registered.absent {s : Network} (h : Registered s)
    (hmain : pastMonitor s.main = false) : s.monitor = .absent := by
  by_contra hmonitor
  rw [h.monitor hmonitor] at hmain
  cases hmain

/-- Before the monitor exists, only `app_main` can have deleted the loop. -/
theorem Registered.standing {s : Network} (h : Registered s)
    (hpast : pastMonitor s.main = false) (hended : mainEnded s.main = false) :
    loopDeleted s = false := by
  rw [loopDeleted, hended, h.absent hpast]
  rfl

/-- Statements of `app_main` on its way to the end of `wifi_init_sta`. -/
theorem Registered.of_main {s : Network} {m : MainPoint} (h : Registered s)
    (hpast : pastMonitor s.main = false) (hended : mainEnded s.main = false)
    (hm : registrationsAt m = registrationsAt s.main) :
    Registered { s with main := m } := by
  refine h.of_frame rfl rfl rfl hm ?_ ?_
  · intro hmonitor
    exact absurd (h.absent hpast) hmonitor
  · rw [h.standing hpast hended]
    rintro ⟨⟩

theorem Registered.register {s : Network} {m : MainPoint} {v : Subscription}
    (h : Registered s) (hpast : pastMonitor s.main = false)
    (hended : mainEnded s.main = false)
    (hm : registrationsAt m =
      ⟨v, .heap (registrationsAt s.main).length⟩ :: registrationsAt s.main) :
    Registered { s with wifi := registerInstance s.wifi v, main := m } := by
  refine ⟨?_, ?_, ?_, ?_⟩
  · rw [hm, ← h.next, ← h.registrations]
    cases v <;> rfl
  · rw [hm, List.length_cons, ← h.next]
    cases v <;> rfl
  · intro hmonitor
    exact absurd (h.absent hpast) hmonitor
  · rcases h.loop with hloop | hdeleted
    · left
      cases v <;> exact hloop
    · rw [h.standing hpast hended] at hdeleted
      cases hdeleted

theorem Registered.mainStep {s t : Network} {ok : Bool} (h : Registered s)
    (hstep : NetworkLifecycle.mainStep s ok = some t) : Registered t := by
  cases mainMove hstep with
  | registerAnyId hmain =>
      exact h.register (by rw [hmain]; rfl) (by rw [hmain]; rfl) (by rw [hmain]; rfl)
  | registerGotIp hmain =>
      exact h.register (by rw [hmain]; rfl) (by rw [hmain]; rfl) (by rw [hmain]; rfl)
  | espWifiStart hmain =>
      exact h.of_main (by rw [hmain]; rfl) (by rw [hmain]; rfl) (by rw [hmain]; rfl)
  | bitsSet hmain =>
      exact h.of_main (by rw [hmain]; rfl) (by rw [hmain]; rfl) (by rw [hmain]; rfl)
  | block hmain =>
      exact h.of_main (by rw [hmain]; rfl) (by rw [hmain]; rfl) (by rw [hmain]; rfl)
  | connected hmain =>
      exact h.of_main (by rw [hmain]; rfl) (by rw [hmain]; rfl) (by rw [hmain]; rfl)
  | failed hmain =>
      exact h.of_main (by rw [hmain]; rfl) (by rw [hmain]; rfl) (by rw [hmain]; rfl)
  | unexpected hmain =>
      exact h.of_main (by rw [hmain]; rfl) (by rw [hmain]; rfl) (by rw [hmain]; rfl)
  | stopped hmain =>
      have habsent := h.absent (by rw [hmain]; rfl)
      exact h.of_frame rfl rfl rfl (by rw [hmain]; rfl)
        (fun hmonitor => absurd habsent hmonitor) (by simp [loopDeleted, mainEnded])
  | @stopping p hmain hp =>
      have habsent := h.absent (by rw [hmain]; rfl)
      have hstanding : loopDeleted s = false :=
        h.standing (by rw [hmain]; rfl) (by simp [hmain, mainEnded, hp])
      have hmonitor : (wifiStop s p).1.monitor = .absent := by
        rw [wifiStop_monitor, habsent]
      have hregistrations := h.registrations
      rcases wifiStop_wifi hregistrations p with hwifi | ⟨rfl, hwifi⟩
      · exact h.of_frame (by simp only [hwifi]) (by simp only [hwifi])
          (by simp only [hwifi]) (by rw [hmain]; rfl)
          (fun hm => absurd hmonitor hm) (by simp [hstanding])
      · have hnext := h.next
        rw [hmain] at hregistrations hnext
        exact ⟨hregistrations, hnext, fun hm => absurd hmonitor hm, .inr rfl⟩
  | createMonitor hmain =>
      refine h.of_frame rfl rfl rfl (by rw [hmain]; rfl) (fun _ => rfl) ?_
      rw [h.standing (by rw [hmain]; rfl) (by rw [hmain]; rfl)]
      rintro ⟨⟩
  | noMonitor hmain =>
      refine h.of_frame rfl rfl rfl (by rw [hmain]; rfl) (fun _ => rfl) ?_
      rw [h.standing (by rw [hmain]; rfl) (by rw [hmain]; rfl)]
      rintro ⟨⟩
  | @create n hmain =>
      obtain ⟨hwifi, hmonitor⟩ := createNetworkTask_frame s n ok
      refine h.of_frame (by simp only [hwifi]) (by simp only [hwifi])
        (by simp only [hwifi]) ?_ ?_ ?_
      · rw [hmain]
        cases n <;> rfl
      · intro _
        cases n <;> rfl
      · simp only [loopDeleted, hmain, hmonitor, mainEnded, Bool.false_or]
        intro hended
        rw [hended, Bool.or_true]

theorem loopDeleted_of_main {s t : Network} (hmain : t.main = s.main)
    (hmonitor : monitorEnded s.monitor = false) (h : loopDeleted s = true) :
    loopDeleted t = true := by
  rw [loopDeleted, hmonitor, Bool.or_false] at h
  rw [loopDeleted, hmain, h, Bool.true_or]

theorem Registered.monitorStep {s t : Network} (h : Registered s)
    (hstep : NetworkLifecycle.monitorStep s = some t) : Registered t := by
  have hmain := (monitorStep_same hstep).2
  have hpresent : s.monitor ≠ .absent := by
    intro habsent
    simp [NetworkLifecycle.monitorStep, habsent] at hstep
  have hpast : t.monitor ≠ .absent → pastMonitor t.main = true := by
    intro _
    rw [hmain]
    exact h.monitor hpresent
  cases monitorMove hstep with
  | failed hmonitor =>
      exact h.of_frame rfl rfl rfl rfl hpast
        (loopDeleted_of_main hmain (by rw [hmonitor]; rfl))
  | block hmonitor =>
      exact h.of_frame rfl rfl rfl rfl hpast
        (loopDeleted_of_main hmain (by rw [hmonitor]; rfl))
  | exit hmonitor =>
      exact h.of_frame rfl rfl rfl rfl hpast (by simp [loopDeleted, monitorEnded])
  | @stopping p hmonitor hp =>
      have hdeleted := loopDeleted_of_main hmain (by simp [hmonitor, monitorEnded, hp])
      rcases wifiStop_wifi h.registrations p with hwifi | ⟨rfl, hwifi⟩
      · exact h.of_frame (by simp only [hwifi]) (by simp only [hwifi])
          (by simp only [hwifi]) (by simp only [wifiStop_main]) hpast hdeleted
      · exact ⟨h.registrations, h.next, hpast, .inr (by simp [loopDeleted, wifiStop,
          monitorEnded])⟩

/-- A delivered event runs the handler. -/
theorem handled_post {s : Network} {e : WifiEvent} (h : delivers s.wifi e = true) :
    (post s e).wifi.handled = e :: s.wifi.handled := by
  rcases post_wifi s e with ⟨hdelivers, -⟩ | ⟨-, num, connects, bits, heq⟩
  · rw [h] at hdelivers
    cases hdelivers
  · rw [heq]

theorem Registered.post {s : Network} (h : Registered s) (e : WifiEvent) :
    Registered (NetworkLifecycle.post s e) := by
  rcases post_wifi s e with ⟨-, heq⟩ | ⟨-, num, connects, bits, hwifi⟩
  · rwa [heq]
  obtain ⟨-, -, hmain, hmonitor⟩ := post_frame s e
  have hmain' : registrationsAt (NetworkLifecycle.post s e).main = registrationsAt s.main ∧
      pastMonitor (NetworkLifecycle.post s e).main = pastMonitor s.main ∧
      mainEnded (NetworkLifecycle.post s e).main = mainEnded s.main := by
    rcases hmain with heq | ⟨hblocked, bits, heq⟩
    · rw [heq]
      exact ⟨rfl, rfl, rfl⟩
    · rw [heq, hblocked]
      exact ⟨rfl, rfl, rfl⟩
  have hmonitor' : ((NetworkLifecycle.post s e).monitor ≠ .absent → s.monitor ≠ .absent) ∧
      monitorEnded (NetworkLifecycle.post s e).monitor = monitorEnded s.monitor := by
    rcases hmonitor with heq | ⟨hblocked, heq⟩
    · rw [heq]
      exact ⟨id, rfl⟩
    · rw [heq, hblocked]
      exact ⟨fun _ => by simp, rfl⟩
  refine h.of_frame (by rw [hwifi]) (by rw [hwifi]) (by rw [hwifi]) hmain'.1 ?_ ?_
  · intro hpresent
    rw [hmain'.2.1]
    exact h.monitor (hmonitor'.1 hpresent)
  · rw [loopDeleted, loopDeleted, hmain'.2.2, hmonitor'.2]
    exact id

theorem Registered.step {s t : Network} {e : NetworkEvent} (h : Registered s)
    (hstep : NetworkLifecycle.step s e = some t) : Registered t := by
  cases e with
  | post e =>
      obtain rfl := Option.some.inj hstep
      exact h.post e
  | main ok => exact h.mainStep hstep
  | monitor => exact h.monitorStep hstep
  | udpExit =>
      obtain ⟨hwifi, hmain, hmonitor⟩ := udpExit_frame hstep
      refine h.of_frame (by rw [hwifi]) (by rw [hwifi]) (by rw [hwifi]) (by rw [hmain]) ?_ ?_
      · rw [hmonitor, hmain]
        exact h.monitor
      · rw [loopDeleted, loopDeleted, hmain, hmonitor]
        exact id

theorem delivers_of_registered {s : Network} (h : Registered s)
    (hmain : registrationsAt s.main = [⟨.ipStaGotIp, .heap 1⟩, ⟨.wifiAnyId, .heap 0⟩])
    (hloop : s.wifi.loopExists = true) (e : WifiEvent) : delivers s.wifi e = true := by
  have hregistrations := h.registrations.trans hmain
  cases e <;> simp [delivers, hloop, hregistrations, Subscription.covers]

/-- Once a caller of `wifi_stop` is past its two unregister calls, both
registrations are still there, and until the loop is deleted every event posted
still reaches `event_handler`. -/
theorem event_handler_outlives_unregister (es : List NetworkEvent) (s : Network)
    (hrun : run NetworkLifecycle.step NetworkLifecycle.init es = some s)
    (hpast : unregistered s = true) :
    s.wifi.registrations = [⟨.ipStaGotIp, .heap 1⟩, ⟨.wifiAnyId, .heap 0⟩] ∧
      (loopDeleted s = false →
        ∀ e, ∃ t, NetworkLifecycle.step s (.post e) = some t ∧
          t.wifi.handled = e :: s.wifi.handled) := by
  have h : Registered s :=
    invariant_of_run (fun _ _ _ h hs => h.step hs) registered_init hrun
  have hmain : registrationsAt s.main = [⟨.ipStaGotIp, .heap 1⟩, ⟨.wifiAnyId, .heap 0⟩] := by
    simp only [unregistered, Bool.or_eq_true] at hpast
    rcases hpast with hpast | hpast
    · cases hm : s.main <;> simp_all [mainUnregistered, registrationsAt]
    · have hpresent : s.monitor ≠ .absent := by
        rintro habsent
        rw [habsent] at hpast
        cases hpast
      have honline := h.monitor hpresent
      cases hm : s.main <;> simp_all [pastMonitor, registrationsAt]
  refine ⟨h.registrations.trans hmain, ?_⟩
  intro hstanding e
  have hloop : s.wifi.loopExists = true := by
    rcases h.loop with hloop | hdeleted
    · exact hloop
    · rw [hstanding] at hdeleted
      cases hdeleted
  exact ⟨post s e, rfl, handled_post (delivers_of_registered h hmain hloop e)⟩

/-- The eleventh disconnect in a row ends the wait, and `wifi_init_sta` tears down
as far as its call of `esp_wifi_stop`. -/
def failsToConnect : List NetworkEvent :=
  List.replicate 3 (.main true) ++ List.replicate 11 (.post .staDisconnected) ++
    List.replicate 7 (.main true)

theorem event_handler_outlives_unregister_on_failure :
    ∃ s t, run NetworkLifecycle.step NetworkLifecycle.init failsToConnect = some s ∧
      s.main = .stopping .espWifiStop ∧
      NetworkLifecycle.step s (.post .staDisconnected) = some t ∧
      t.wifi.handled = .staDisconnected :: s.wifi.handled := by
  obtain ⟨s, hrun, hs⟩ := exists_run_of_any
    (show (run NetworkLifecycle.step NetworkLifecycle.init failsToConnect).any
      (fun s => decide (s.main = .stopping .espWifiStop ∧ unregistered s = true ∧
        loopDeleted s = false)) = true by decide)
  obtain ⟨hmain, hpast, hstanding⟩ := of_decide_eq_true hs
  obtain ⟨t, hstep, hhandled⟩ :=
    (event_handler_outlives_unregister _ s hrun hpast).2 hstanding .staDisconnected
  exact ⟨s, t, hrun, hmain, hstep, hhandled⟩

/-- The disconnect that `esp_wifi_stop` posts finds both registrations and sets
the fail bit again. -/
theorem unregister_removes_nothing :
    (¬ ∀ (es : List NetworkEvent) (s : Network),
      run NetworkLifecycle.step NetworkLifecycle.init es = some s →
        unregistered s = true → s.wifi.registrations = []) ∧
    ¬ ∀ (es : List NetworkEvent) (s t : Network) (e : WifiEvent),
      run NetworkLifecycle.step NetworkLifecycle.init es = some s →
        unregistered s = true → NetworkLifecycle.step s (.post e) = some t →
          t.wifi.handled = s.wifi.handled ∧ (eventHandler s.wifi e).2 = none := by
  obtain ⟨s, hrun, hs⟩ := exists_run_of_any
    (show (run NetworkLifecycle.step NetworkLifecycle.init failsToConnect).any
      (fun s => decide (unregistered s = true ∧ s.wifi.registrations ≠ [] ∧
        (post s .staDisconnected).wifi.handled ≠ s.wifi.handled ∧
        (eventHandler s.wifi .staDisconnected).2 = some wifiFailBit)) = true by decide)
  obtain ⟨hpast, hremains, hhandled, -⟩ := of_decide_eq_true hs
  constructor
  · intro h
    exact hremains (h _ s hrun hpast)
  · intro h
    exact hhandled (h _ s _ .staDisconnected hrun hpast rfl).1

end BikeMcu.EventRegistrations
