import BikeMcu.TaskHandles

namespace BikeMcu.NetworkTeardown

open BikeMcu.TransitionSystem
open BikeMcu.TaskKernel
open BikeMcu.NetworkLifecycle
open BikeMcu.TaskHandles

/-- The order of the three stop functions in `wifi_stop`. -/
def stoppedBefore : NetworkTask → NetworkTask → Bool
  | .simpleOtaExample, .udpServer => true
  | .simpleOtaExample, .bmiSendSensorData => true
  | .udpServer, .bmiSendSensorData => true
  | _, _ => false

def stopPassed : MonitorPoint → NetworkTask → Bool
  | .stopping (.stopTask m), n => stoppedBefore n m
  | .stopping (.clearHandle m), n => decide (n = m) || stoppedBefore n m
  | .stopping _, _ => true
  | .exited, _ => true
  | _, _ => false

/-- `wifi_stop` has returned, to the monitor or to `wifi_init_sta`. -/
def WifiStopDone (s : Network) : Prop :=
  s.monitor = .stopping .done ∨ s.monitor = .exited ∨
    s.main = .stopping .done ∨ s.main = .finished false

/-- `app_main` creates no task whose stop function the monitor has passed. -/
def createsBeforeStop (s : Network) (e : NetworkEvent) : Bool :=
  match s.main, e with
  | .create n, .main true => !stopPassed s.monitor n
  | _, _ => true

def Stopped (s : Network) : Prop :=
  ∀ n, stopPassed s.monitor n = true → s.tasks.status (.network n) ≠ .alive

theorem alive_of_alive_wifiStop {s : Network} {p : StopPoint} {t : Task}
    (h : (wifiStop s p).1.tasks.status t = .alive) : s.tasks.status t = .alive := by
  rcases wifiStop_cases s p with ⟨n, -, heq⟩ | ⟨n, -, heq⟩ | ⟨-, -, -, htasks, -⟩
  · rw [heq] at h
    cases hn : s.handles n with
    | none => rwa [stopTask_of_null hn] at h
    | some u =>
        rw [stopTask_of_handle hn] at h
        exact (alive_of_alive_delete s.tasks h).2
  · rwa [heq] at h
  · rwa [htasks] at h

theorem stopPassed_afterStop (m n : NetworkTask) :
    stopPassed (.stopping (afterStop m)) n = stopPassed (.stopping (.clearHandle m)) n := by
  cases m <;> cases n <;> rfl

theorem stopPassed_wifiStop {s : Network} {p : StopPoint} {n : NetworkTask}
    (h : stopPassed (.stopping (wifiStop s p).2) n = true) :
    p = .stopTask n ∨ stopPassed (.stopping p) n = true := by
  cases p with
  | stopTask m =>
      have hpassed : stopPassed (.stopping (.clearHandle m)) n = true := by
        rw [wifiStop_stopTask, stopTask] at h
        split at h
        · exact h
        · rwa [stopPassed_afterStop] at h
      simp only [stopPassed, Bool.or_eq_true, decide_eq_true_eq] at hpassed
      exact hpassed.imp_left fun heq => by rw [heq]
  | clearHandle m => exact .inr (stopPassed_afterStop m n ▸ h)
  | _ => exact .inr rfl

theorem Stopped.step {s s' : Network} {e : NetworkEvent} (hc : Consistent s)
    (h : Stopped s) (hC : createsBeforeStop s e = true)
    (hstep : NetworkLifecycle.step s e = some s') : Stopped s' := by
  cases e with
  | post e =>
      have hs' : post s e = s' := by simpa [NetworkLifecycle.step] using hstep
      obtain ⟨htasks, -, -, hmonitor⟩ := post_frame s e
      rw [hs'] at htasks hmonitor
      intro n hn
      rw [htasks]
      rcases hmonitor with heq | ⟨-, heq⟩
      · exact h n (heq ▸ hn)
      · rw [heq] at hn
        cases n <;> cases hn
  | main ok =>
      rcases mainStep_cases hstep with ⟨m, hmain, rfl⟩ |
        ⟨-, -, -, ⟨htasks, hmonitor⟩ | ⟨htasks, hmonitor⟩⟩ |
        ⟨p, -, htasks, -, hmonitor, -⟩ | ⟨-, -, htasks, -, hmonitor⟩
      · cases ok with
        | false => exact h
        | true =>
            intro n hn
            have hm : stopPassed s.monitor m = false := by
              simpa [createsBeforeStop, hmain] using hC
            have hne : n ≠ m := by
              rintro rfl
              simp [createNetworkTask, hm] at hn
            simpa [createNetworkTask, status_create_of_ne, hne] using h n hn
      · intro n hn
        rw [hmonitor] at hn
        cases hn
      · intro n hn
        rw [htasks]
        exact h n (hmonitor ▸ hn)
      · intro n hn halive
        rw [htasks] at halive
        exact h n (hmonitor ▸ hn) (alive_of_alive_wifiStop halive)
      · intro n hn
        rw [htasks]
        exact h n (hmonitor ▸ hn)
  | monitor =>
      rcases monitorStep_cases hstep with ⟨-, -, -, -, hmonitor⟩ |
        ⟨p, -, hp, rfl⟩ | ⟨hdone, rfl⟩
      · intro n hn
        rcases hmonitor with heq | heq <;> rw [heq] at hn <;> cases n <;> cases hn
      · intro n hn halive
        rcases stopPassed_wifiStop hn with rfl | hold
        · rw [wifiStop_stopTask] at halive
          exact not_alive_stopTask hc n halive
        · exact h n (hp ▸ hold) (alive_of_alive_wifiStop halive)
      · intro n _ halive
        exact h n (hdone ▸ rfl) (alive_of_alive_delete s.tasks halive).2
  | udpExit =>
      simp only [NetworkLifecycle.step] at hstep
      split at hstep
      · simp only [Option.some.injEq] at hstep
        subst s'
        intro n hn halive
        exact h n hn (alive_of_alive_delete s.tasks halive).2
      · cases hstep

theorem not_alive_of_wifiStopDone {s : Network} (hc : Consistent s)
    (h : Stopped s) (hdone : WifiStopDone s) (n : NetworkTask) :
    s.tasks.status (.network n) ≠ .alive := by
  rcases hdone with hmonitor | hmonitor | hmain | hmain
  · exact h n (hmonitor ▸ rfl)
  · exact h n (hmonitor ▸ rfl)
  · simp [(hc.fresh n (hmain ▸ rfl)).1]
  · simp [(hc.fresh n (hmain ▸ rfl)).1]

/-- In every run in which `app_main` creates no task behind its stop function,
no network task is alive in any state after the end of `wifi_stop`. -/
theorem teardown_final (es : List NetworkEvent)
    (hC : EachStep NetworkLifecycle.step (fun s e => createsBeforeStop s e = true)
      NetworkLifecycle.init es) :
    Always NetworkLifecycle.step
      (fun s => WifiStopDone s → ∀ n, s.tasks.status (.network n) ≠ .alive)
      NetworkLifecycle.init es := by
  have hinit : Consistent NetworkLifecycle.init ∧ Stopped NetworkLifecycle.init :=
    ⟨consistent_init, fun n hn => by cases n <;> cases hn⟩
  have hstep : ∀ s e s', Consistent s ∧ Stopped s → createsBeforeStop s e = true →
      NetworkLifecycle.step s e = some s' → Consistent s' ∧ Stopped s' :=
    fun s e s' h hCs hs => ⟨h.1.step hs, h.2.step h.1 hCs hs⟩
  exact always_of_invariant_under hstep
    (fun s h hdone => not_alive_of_wifiStopDone h.1 h.2 hdone) hinit hC

def monitorFirst : List NetworkEvent :=
  [.main true, .main true, .main true, .post .staStart, .main true,
    .post .staGotIp, .main true, .main true]

def networkDrops (statements : ℕ) : List NetworkEvent :=
  List.replicate 11 (.post .staDisconnected) ++ List.replicate statements .monitor

theorem teardown_final_all_created :
    ∃ s, run NetworkLifecycle.step NetworkLifecycle.init
        (monitorFirst ++ List.replicate 3 (.main true) ++ networkDrops 14) = some s ∧
      s.monitor = .stopping .done ∧
      ∀ n, s.tasks.status (.network n) ≠ .alive := by
  obtain ⟨s, hrun, hs⟩ := exists_run_of_any
    (show (run NetworkLifecycle.step NetworkLifecycle.init
      (monitorFirst ++ List.replicate 3 (.main true) ++ networkDrops 14)).any
      (fun s => decide (s.monitor = .stopping .done)) = true by decide)
  have hdone := of_decide_eq_true hs
  exact ⟨s, hrun, hdone, always_last (teardown_final _ (by decide)) hrun (.inl hdone)⟩

/-- The failure bit set right after the monitor's creation: `wifi_stop` runs on
null handles, and `app_main` then creates the OTA task. -/
theorem teardown_overtakes_creation :
    ¬ ∀ es s, run NetworkLifecycle.step NetworkLifecycle.init es = some s →
      WifiStopDone s → ∀ n, s.tasks.status (.network n) ≠ .alive := by
  intro h
  obtain ⟨s, hrun, hs⟩ := exists_run_of_any
    (show (run NetworkLifecycle.step NetworkLifecycle.init
      (monitorFirst ++ networkDrops 11 ++ [.main true])).any
      (fun s => decide (s.monitor = .stopping .done ∧
        s.tasks.status (.network .simpleOtaExample) = .alive)) = true by decide)
  have hboth := of_decide_eq_true hs
  exact h _ s hrun (.inl hboth.1) _ hboth.2

end BikeMcu.NetworkTeardown
