import BikeMcu.TaskKernel
import BikeMcu.WifiConnect

/-!
The life of the network tasks: the end of `app_main` with `wifi_init_sta`, the
network monitor `stop_network_task`, `wifi_stop` and the three stop functions of
`app_main.c`, interleaved with the event loop.
-/

namespace BikeMcu.NetworkLifecycle

open BikeMcu.TaskKernel
open BikeMcu.WifiConnect

inductive NetworkTask where
  | simpleOtaExample
  | udpServer
  | bmiSendSensorData
  deriving DecidableEq, Repr

inductive Task where
  | appMain
  | detectBrake1
  | bleCallback
  | stopNetwork
  | network (n : NetworkTask)
  deriving DecidableEq, Repr

/-- Program points of `wifi_stop`. A stop function has two: in front of its test of the
handle, and between its `vTaskDelete` and the clearing of the handle. -/
inductive StopPoint where
  | stopTask (n : NetworkTask)
  | clearHandle (n : NetworkTask)
  | unregisterAnyId
  | unregisterGotIp
  | espWifiStop
  | vTaskDelay
  | espWifiDeinit
  | espNetifDeinit
  | deleteLoop
  | done
  deriving DecidableEq, Repr

/-- Program points of `app_main` from `wifi_init_sta` on. `waitBits` calls
`xEventGroupWaitBits`, `blocked` sleeps in it and `returned` has its result;
`finished` carries whether `wifi_init_sta` returned `ESP_OK`. -/
inductive MainPoint where
  | registerAnyId
  | registerGotIp
  | espWifiStart
  | waitBits
  | blocked
  | returned (bits : EventBits)
  | stopping (p : StopPoint)
  | createMonitor
  | create (n : NetworkTask)
  | finished (ok : Bool)
  deriving DecidableEq, Repr

inductive MonitorPoint where
  | absent
  | waitBits
  | blocked
  | stopping (p : StopPoint)
  | exited
  deriving DecidableEq, Repr

structure Network where
  tasks : TaskTable Task
  wifi : Wifi
  main : MainPoint
  monitor : MonitorPoint
  handles : NetworkTask → Option Task

def init : Network :=
  { tasks :=
      { status := fun t =>
          match t with
          | .appMain | .detectBrake1 | .bleCallback => .alive
          | _ => .absent
        badDeletes := [] }
    wifi := WifiConnect.init
    main := .registerAnyId
    monitor := .absent
    handles := fun _ => none }

/-- The point of `wifi_stop` behind the stop function of a task. -/
def afterStop : NetworkTask → StopPoint
  | .simpleOtaExample => .stopTask .udpServer
  | .udpServer => .stopTask .bmiSendSensorData
  | .bmiSendSensorData => .unregisterAnyId

/-- The body shared by the three stop functions, up to its `vTaskDelete`. -/
def stopTask (n : NetworkTask) (s : Network) : Network × StopPoint :=
  match s.handles n with
  | some t => ({ s with tasks := delete s.tasks t }, .clearHandle n)
  | none => (s, afterStop n)

def stopSimpleOtaExampleTask : Network → Network × StopPoint := stopTask .simpleOtaExample

def stopUdpServerTask : Network → Network × StopPoint := stopTask .udpServer

def stopBmiSendSensorData : Network → Network × StopPoint := stopTask .bmiSendSensorData

def clearHandle (n : NetworkTask) (s : Network) : Network :=
  { s with handles := Function.update s.handles n none }

/-- One statement of `wifi_stop` and the point after it. The two unregister
calls pass the addresses of the instance variables. -/
def wifiStop (s : Network) : StopPoint → Network × StopPoint
  | .stopTask .simpleOtaExample => stopSimpleOtaExampleTask s
  | .stopTask .udpServer => stopUdpServerTask s
  | .stopTask .bmiSendSensorData => stopBmiSendSensorData s
  | .clearHandle n => (clearHandle n s, afterStop n)
  | .unregisterAnyId =>
      ({ s with wifi := unregisterInstance s.wifi .wifiAnyId (.addressOf .wifiAnyId) },
        .unregisterGotIp)
  | .unregisterGotIp =>
      ({ s with wifi := unregisterInstance s.wifi .ipStaGotIp (.addressOf .ipStaGotIp) },
        .espWifiStop)
  | .espWifiStop => (s, .vTaskDelay)
  | .vTaskDelay => (s, .espWifiDeinit)
  | .espWifiDeinit => (s, .espNetifDeinit)
  | .espNetifDeinit => (s, .deleteLoop)
  | .deleteLoop => ({ s with wifi := { s.wifi with loopExists := false } }, .done)
  | .done => (s, .done)

def stopStart : StopPoint := .stopTask .simpleOtaExample

/-- `xEventGroupSetBits`. A task blocked on one of the bits leaves its wait with
the bits of this moment; the monitor's wait clears `WIFI_FAIL_BIT` on exit. -/
def setBits (s : Network) (set : EventBits) : Network :=
  let bits := s.wifi.bits.union set
  let main :=
    if s.main = .blocked ∧ (bits.connected || bits.fail) = true then .returned bits
    else s.main
  if s.monitor = .blocked ∧ bits.fail = true then
    { s with
      main := main
      monitor := .stopping stopStart
      wifi := { s.wifi with bits := { bits with fail := false } } }
  else
    { s with main := main, wifi := { s.wifi with bits := bits } }

def post (s : Network) (e : WifiEvent) : Network :=
  if delivers s.wifi e then
    let r := eventHandler s.wifi e
    let s := { s with wifi := { r.1 with handled := e :: r.1.handled } }
    match r.2 with
    | some bits => setBits s bits
    | none => s
  else s

/-- `xTaskCreate` for one of the three tasks with a handle. The handle is stored
before the new task can run; without memory nothing happens. -/
def createNetworkTask (s : Network) (n : NetworkTask) (ok : Bool) : Network :=
  if ok then
    { s with
      tasks := create s.tasks (.network n)
      handles := Function.update s.handles n (some (.network n)) }
  else s

/-- One statement of `app_main` from `wifi_init_sta` on. `ok` is the outcome of
an `xTaskCreate` and otherwise unused. -/
def mainStep (s : Network) (ok : Bool) : Option Network :=
  match s.main with
  | .registerAnyId =>
      some { s with wifi := registerInstance s.wifi .wifiAnyId, main := .registerGotIp }
  | .registerGotIp =>
      some { s with wifi := registerInstance s.wifi .ipStaGotIp, main := .espWifiStart }
  | .espWifiStart => some { s with main := .waitBits }
  | .waitBits =>
      if s.wifi.bits.connected || s.wifi.bits.fail then
        some { s with main := .returned s.wifi.bits }
      else some { s with main := .blocked }
  | .blocked => none
  | .returned bits =>
      if bits.connected then some { s with main := .createMonitor }
      else if bits.fail then some { s with main := .stopping stopStart }
      else some { s with main := .finished false }
  | .stopping .done => some { s with main := .finished false }
  | .stopping p =>
      let r := wifiStop s p
      some { r.1 with main := .stopping r.2 }
  | .createMonitor =>
      if ok then
        some { s with
          tasks := create s.tasks .stopNetwork
          monitor := .waitBits
          main := .create .simpleOtaExample }
      else some { s with main := .create .simpleOtaExample }
  | .create .simpleOtaExample =>
      some { createNetworkTask s .simpleOtaExample ok with main := .create .udpServer }
  | .create .udpServer =>
      some { createNetworkTask s .udpServer ok with main := .create .bmiSendSensorData }
  | .create .bmiSendSensorData =>
      some { createNetworkTask s .bmiSendSensorData ok with main := .finished true }
  | .finished _ => none

def monitorStep (s : Network) : Option Network :=
  match s.monitor with
  | .absent => none
  | .waitBits =>
      if s.wifi.bits.fail then
        some { s with
          wifi := { s.wifi with bits := { s.wifi.bits with fail := false } }
          monitor := .stopping stopStart }
      else some { s with monitor := .blocked }
  | .blocked => none
  | .stopping .done =>
      some { s with tasks := delete s.tasks .stopNetwork, monitor := .exited }
  | .stopping p =>
      let r := wifiStop s p
      some { r.1 with monitor := .stopping r.2 }
  | .exited => none

inductive NetworkEvent where
  | post (e : WifiEvent)
  | main (ok : Bool)
  | monitor
  | udpExit
  deriving DecidableEq, Repr

/-- `udpExit` is the `vTaskDelete(NULL)` at the end of `udp_server_task`. -/
def step (s : Network) : NetworkEvent → Option Network
  | .post e => some (post s e)
  | .main ok => mainStep s ok
  | .monitor => monitorStep s
  | .udpExit =>
      if s.tasks.status (.network .udpServer) = .alive then
        some { s with tasks := delete s.tasks (.network .udpServer) }
      else none

theorem stopTask_of_handle {n : NetworkTask} {s : Network} {t : Task}
    (h : s.handles n = some t) :
    stopTask n s = ({ s with tasks := delete s.tasks t }, .clearHandle n) := by
  simp [stopTask, h]

theorem stopTask_of_null {n : NetworkTask} {s : Network}
    (h : s.handles n = none) : stopTask n s = (s, afterStop n) := by
  simp [stopTask, h]

theorem afterStop_ne_clearHandle (n m : NetworkTask) : afterStop n ≠ .clearHandle m := by
  cases n <;> simp [afterStop]

theorem wifiStop_stopTask (n : NetworkTask) (s : Network) :
    wifiStop s (.stopTask n) = stopTask n s := by
  cases n <;> rfl

theorem wifiStop_cases (s : Network) (p : StopPoint) :
    (∃ n, p = .stopTask n ∧ wifiStop s p = stopTask n s) ∨
    (∃ n, p = .clearHandle n ∧ wifiStop s p = (clearHandle n s, afterStop n)) ∨
    ((∀ n, p ≠ .stopTask n) ∧ (∀ n, p ≠ .clearHandle n) ∧
      (∀ n, (wifiStop s p).2 ≠ .clearHandle n) ∧ (wifiStop s p).1.tasks = s.tasks ∧
      (wifiStop s p).1.handles = s.handles ∧ (wifiStop s p).1.main = s.main ∧
      (wifiStop s p).1.monitor = s.monitor) := by
  cases p with
  | stopTask n => exact .inl ⟨n, rfl, wifiStop_stopTask n s⟩
  | clearHandle n => exact .inr (.inl ⟨n, rfl, rfl⟩)
  | _ => exact .inr (.inr ⟨by simp, by simp, by simp [wifiStop], rfl, rfl, rfl, rfl⟩)

theorem stopTask_frame (n : NetworkTask) (s : Network) :
    (stopTask n s).1.handles = s.handles ∧ (stopTask n s).1.main = s.main ∧
      (stopTask n s).1.monitor = s.monitor ∧ (stopTask n s).1.wifi = s.wifi := by
  unfold stopTask
  split
  · exact ⟨rfl, rfl, rfl, rfl⟩
  · exact ⟨rfl, rfl, rfl, rfl⟩

theorem wifiStop_main (s : Network) (p : StopPoint) :
    (wifiStop s p).1.main = s.main := by
  rcases wifiStop_cases s p with ⟨n, -, heq⟩ | ⟨n, -, heq⟩ | ⟨-, -, -, -, -, hmain, -⟩
  · rw [heq]
    exact (stopTask_frame n s).2.1
  · rw [heq]
    rfl
  · exact hmain

theorem wifiStop_monitor (s : Network) (p : StopPoint) :
    (wifiStop s p).1.monitor = s.monitor := by
  rcases wifiStop_cases s p with ⟨n, -, heq⟩ | ⟨n, -, heq⟩ | ⟨-, -, -, -, -, -, hmonitor⟩
  · rw [heq]
    exact (stopTask_frame n s).2.2.1
  · rw [heq]
    rfl
  · exact hmonitor

/-- On null handles `wifi_stop` stops nothing. -/
theorem wifiStop_of_null {s : Network} (h : ∀ n, s.handles n = none) (p : StopPoint) :
    (wifiStop s p).1.tasks = s.tasks ∧ (wifiStop s p).1.handles = s.handles := by
  rcases wifiStop_cases s p with ⟨n, -, heq⟩ | ⟨n, -, heq⟩ | ⟨-, -, -, htasks, hhandles, -⟩
  · rw [heq, stopTask_of_null (h n)]
    exact ⟨rfl, rfl⟩
  · rw [heq]
    refine ⟨rfl, ?_⟩
    rw [clearHandle, ← h n]
    exact Function.update_eq_self n s.handles
  · exact ⟨htasks, hhandles⟩

theorem setBits_frame (s : Network) (set : EventBits) :
    (setBits s set).tasks = s.tasks ∧ (setBits s set).handles = s.handles ∧
    ((setBits s set).main = s.main ∨
      s.main = .blocked ∧ ∃ bits, (setBits s set).main = .returned bits) ∧
    ((setBits s set).monitor = s.monitor ∨
      s.monitor = .blocked ∧ (setBits s set).monitor = .stopping stopStart) := by
  have hmain : ∀ (c : Prop) [Decidable c] (bits : EventBits),
      (if s.main = .blocked ∧ c then MainPoint.returned bits else s.main) = s.main ∨
        s.main = .blocked ∧ ∃ bits', (if s.main = .blocked ∧ c then
          MainPoint.returned bits else s.main) = .returned bits' := by
    intro c _ bits
    by_cases h : s.main = .blocked ∧ c
    · exact .inr ⟨h.1, bits, if_pos h⟩
    · exact .inl (if_neg h)
  simp only [setBits]
  split
  · exact ⟨rfl, rfl, hmain _ _, .inr ⟨(‹_ ∧ _›).1, rfl⟩⟩
  · exact ⟨rfl, rfl, hmain _ _, .inl rfl⟩

theorem setBits_wifi (s : Network) (set : EventBits) :
    ∃ bits, (setBits s set).wifi = { s.wifi with bits := bits } := by
  simp only [setBits]
  split
  · exact ⟨_, rfl⟩
  · exact ⟨_, rfl⟩

/-- A posted event is ignored, or `event_handler` runs on it. -/
theorem post_wifi (s : Network) (e : WifiEvent) :
    (delivers s.wifi e = false ∧ post s e = s) ∨
    (delivers s.wifi e = true ∧ ∃ num connects bits, (post s e).wifi =
      { s.wifi with
        sRetryNum := num, connects := connects, handled := e :: s.wifi.handled,
        bits := bits }) := by
  cases hdelivers : delivers s.wifi e with
  | false => exact .inl ⟨rfl, by simp [post, hdelivers]⟩
  | true =>
      obtain ⟨num, connects, hhandler⟩ := eventHandler_wifi s.wifi e
      refine .inr ⟨rfl, num, connects, ?_⟩
      simp only [post, hdelivers, if_true, hhandler]
      split
      · obtain ⟨bits, hbits⟩ := setBits_wifi
          { s with wifi := { s.wifi with
              sRetryNum := num, connects := connects, handled := e :: s.wifi.handled } } ‹_›
        exact ⟨bits, hbits⟩
      · exact ⟨_, rfl⟩

theorem post_frame (s : Network) (e : WifiEvent) :
    (post s e).tasks = s.tasks ∧ (post s e).handles = s.handles ∧
    ((post s e).main = s.main ∨
      s.main = .blocked ∧ ∃ bits, (post s e).main = .returned bits) ∧
    ((post s e).monitor = s.monitor ∨
      s.monitor = .blocked ∧ (post s e).monitor = .stopping stopStart) := by
  simp only [post]
  split
  · split
    · exact setBits_frame _ _
    · exact ⟨rfl, rfl, .inl rfl, .inl rfl⟩
  · exact ⟨rfl, rfl, .inl rfl, .inl rfl⟩

theorem createNetworkTask_frame (s : Network) (n : NetworkTask) (ok : Bool) :
    (createNetworkTask s n ok).wifi = s.wifi ∧
      (createNetworkTask s n ok).monitor = s.monitor := by
  cases ok <;> exact ⟨rfl, rfl⟩

def notYet : MainPoint → NetworkTask → Bool
  | .create .udpServer, .simpleOtaExample => false
  | .create .bmiSendSensorData, .simpleOtaExample => false
  | .create .bmiSendSensorData, .udpServer => false
  | .finished true, _ => false
  | _, _ => true

def afterCreate : NetworkTask → MainPoint
  | .simpleOtaExample => .create .udpServer
  | .udpServer => .create .bmiSendSensorData
  | .bmiSendSensorData => .finished true

/-- `mainStep` as a relation, with a constructor for each statement and outcome. -/
inductive MainMove (s : Network) (ok : Bool) : Network → Prop where
  | registerAnyId (h : s.main = .registerAnyId) : MainMove s ok
      { s with wifi := registerInstance s.wifi .wifiAnyId, main := .registerGotIp }
  | registerGotIp (h : s.main = .registerGotIp) : MainMove s ok
      { s with wifi := registerInstance s.wifi .ipStaGotIp, main := .espWifiStart }
  | espWifiStart (h : s.main = .espWifiStart) : MainMove s ok { s with main := .waitBits }
  | bitsSet (h : s.main = .waitBits)
      (hany : (s.wifi.bits.connected || s.wifi.bits.fail) = true) :
      MainMove s ok { s with main := .returned s.wifi.bits }
  | block (h : s.main = .waitBits) : MainMove s ok { s with main := .blocked }
  | connected {bits : EventBits} (h : s.main = .returned bits)
      (hbits : bits.connected = true) : MainMove s ok { s with main := .createMonitor }
  | failed {bits : EventBits} (h : s.main = .returned bits)
      (hbits : bits.connected = false) : MainMove s ok { s with main := .stopping stopStart }
  | unexpected {bits : EventBits} (h : s.main = .returned bits)
      (hbits : bits.connected = false) : MainMove s ok { s with main := .finished false }
  | stopping {p : StopPoint} (h : s.main = .stopping p) (hp : p ≠ .done) : MainMove s ok
      { (wifiStop s p).1 with main := .stopping (wifiStop s p).2 }
  | stopped (h : s.main = .stopping .done) : MainMove s ok { s with main := .finished false }
  | createMonitor (h : s.main = .createMonitor) : MainMove s ok
      { s with
        tasks := create s.tasks .stopNetwork
        monitor := .waitBits
        main := .create .simpleOtaExample }
  | noMonitor (h : s.main = .createMonitor) :
      MainMove s ok { s with main := .create .simpleOtaExample }
  | create {n : NetworkTask} (h : s.main = .create n) :
      MainMove s ok { createNetworkTask s n ok with main := afterCreate n }

theorem mainMove {s t : Network} {ok : Bool} (h : mainStep s ok = some t) :
    MainMove s ok t := by
  cases hmain : s.main with
  | registerAnyId =>
      simp only [mainStep, hmain, Option.some.injEq] at h
      exact h ▸ .registerAnyId hmain
  | registerGotIp =>
      simp only [mainStep, hmain, Option.some.injEq] at h
      exact h ▸ .registerGotIp hmain
  | espWifiStart =>
      simp only [mainStep, hmain, Option.some.injEq] at h
      exact h ▸ .espWifiStart hmain
  | waitBits =>
      simp only [mainStep, hmain] at h
      split at h
      · exact Option.some.inj h ▸ .bitsSet hmain ‹_›
      · exact Option.some.inj h ▸ .block hmain
  | blocked => simp [mainStep, hmain] at h
  | returned bits =>
      simp only [mainStep, hmain] at h
      split at h
      · exact Option.some.inj h ▸ .connected hmain ‹_›
      · rename_i hbits
        rw [Bool.not_eq_true] at hbits
        split at h
        · exact Option.some.inj h ▸ .failed hmain hbits
        · exact Option.some.inj h ▸ .unexpected hmain hbits
  | stopping p =>
      cases p with
      | done =>
          simp only [mainStep, hmain, Option.some.injEq] at h
          exact h ▸ .stopped hmain
      | _ =>
          simp only [mainStep, hmain, Option.some.injEq] at h
          exact h ▸ .stopping hmain (by simp)
  | createMonitor =>
      simp only [mainStep, hmain] at h
      split at h
      · exact Option.some.inj h ▸ .createMonitor hmain
      · exact Option.some.inj h ▸ .noMonitor hmain
  | create n =>
      cases n <;>
        (simp only [mainStep, hmain, Option.some.injEq] at h; exact h ▸ .create hmain)
  | finished ok' => simp [mainStep, hmain] at h

/-- Everything a statement of `app_main` can do to tasks and handles. -/
theorem mainStep_cases {s s' : Network} {ok : Bool} (h : mainStep s ok = some s') :
    (∃ n, s.main = .create n ∧
      s' = { createNetworkTask s n ok with main := afterCreate n }) ∨
    (s.main = .createMonitor ∧ s'.main = .create .simpleOtaExample ∧
      s'.handles = s.handles ∧
      (s'.tasks = create s.tasks .stopNetwork ∧ s'.monitor = .waitBits ∨
        s'.tasks = s.tasks ∧ s'.monitor = s.monitor)) ∨
    (∃ p, s.main = .stopping p ∧ s'.tasks = (wifiStop s p).1.tasks ∧
      s'.handles = (wifiStop s p).1.handles ∧ s'.monitor = s.monitor ∧
      ∀ n, notYet s'.main n = true) ∨
    ((∀ n, notYet s.main n = true) ∧ (∀ n, notYet s'.main n = true) ∧
      s'.tasks = s.tasks ∧ s'.handles = s.handles ∧ s'.monitor = s.monitor) := by
  cases mainMove h with
  | create hmain => exact .inl ⟨_, hmain, rfl⟩
  | createMonitor hmain => exact .inr (.inl ⟨hmain, rfl, rfl, .inl ⟨rfl, rfl⟩⟩)
  | noMonitor hmain => exact .inr (.inl ⟨hmain, rfl, rfl, .inr ⟨rfl, rfl⟩⟩)
  | @stopping p hmain =>
      exact .inr (.inr (.inl ⟨p, hmain, rfl, rfl, wifiStop_monitor s p, fun _ => rfl⟩))
  | stopped hmain =>
      exact .inr (.inr (.inl ⟨.done, hmain, rfl, rfl, rfl, fun _ => rfl⟩))
  | registerAnyId hmain
  | registerGotIp hmain
  | espWifiStart hmain
  | bitsSet hmain
  | block hmain
  | connected hmain
  | failed hmain
  | unexpected hmain =>
      exact .inr (.inr (.inr ⟨by rw [hmain]; exact fun _ => rfl, fun _ => rfl, rfl, rfl, rfl⟩))

/-- `monitorStep` as a relation. -/
inductive MonitorMove (s : Network) : Network → Prop where
  | failed (h : s.monitor = .waitBits) : MonitorMove s
      { s with
        wifi := { s.wifi with bits := { s.wifi.bits with fail := false } }
        monitor := .stopping stopStart }
  | block (h : s.monitor = .waitBits) : MonitorMove s { s with monitor := .blocked }
  | stopping {p : StopPoint} (h : s.monitor = .stopping p) (hp : p ≠ .done) : MonitorMove s
      { (wifiStop s p).1 with monitor := .stopping (wifiStop s p).2 }
  | exit (h : s.monitor = .stopping .done) : MonitorMove s
      { s with tasks := delete s.tasks .stopNetwork, monitor := .exited }

theorem monitorMove {s t : Network} (h : monitorStep s = some t) : MonitorMove s t := by
  cases hmonitor : s.monitor with
  | absent => simp [monitorStep, hmonitor] at h
  | waitBits =>
      simp only [monitorStep, hmonitor] at h
      split at h
      · exact Option.some.inj h ▸ .failed hmonitor
      · exact Option.some.inj h ▸ .block hmonitor
  | blocked => simp [monitorStep, hmonitor] at h
  | stopping p =>
      cases p with
      | done =>
          simp only [monitorStep, hmonitor, Option.some.injEq] at h
          exact h ▸ .exit hmonitor
      | _ =>
          simp only [monitorStep, hmonitor, Option.some.injEq] at h
          exact h ▸ .stopping hmonitor (by simp)
  | exited => simp [monitorStep, hmonitor] at h

theorem monitorStep_cases {s s' : Network} (h : monitorStep s = some s') :
    (s.monitor = .waitBits ∧ s'.tasks = s.tasks ∧ s'.handles = s.handles ∧
      s'.main = s.main ∧ (s'.monitor = .stopping stopStart ∨ s'.monitor = .blocked)) ∨
    (∃ p, p ≠ .done ∧ s.monitor = .stopping p ∧
      s' = { (wifiStop s p).1 with monitor := .stopping (wifiStop s p).2 }) ∨
    (s.monitor = .stopping .done ∧
      s' = { s with tasks := delete s.tasks .stopNetwork, monitor := .exited }) := by
  cases monitorMove h with
  | failed hmonitor => exact .inl ⟨hmonitor, rfl, rfl, rfl, .inl rfl⟩
  | block hmonitor => exact .inl ⟨hmonitor, rfl, rfl, rfl, .inr rfl⟩
  | stopping hmonitor hp => exact .inr (.inl ⟨_, hp, hmonitor, rfl⟩)
  | exit hmonitor => exact .inr (.inr ⟨hmonitor, rfl⟩)

end BikeMcu.NetworkLifecycle
