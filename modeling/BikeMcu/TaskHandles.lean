import BikeMcu.BoardSystem

namespace BikeMcu.TaskHandles

open BikeMcu.TransitionSystem
open BikeMcu.TaskKernel
open BikeMcu.NetworkLifecycle
open BikeMcu.BoardSystem

/-- How handles and tasks belong together in every state, whatever the tasks
do: a handle is only ever null or the task it was made for, a running task is
reachable through its handle, and a handle about to be cleared was created and
its task no longer runs. -/
structure Consistent (s : Network) : Prop where
  fresh : ∀ n, notYet s.main n = true →
    s.tasks.status (.network n) = .absent ∧ s.handles n = none
  named : ∀ n t, s.handles n = some t → t = .network n
  handled : ∀ n, s.tasks.status (.network n) = .alive →
    s.handles n = some (.network n)
  monitor : s.monitor ≠ .absent → s.monitor ≠ .exited →
    s.tasks.status .stopNetwork = .alive
  clearing : ∀ n, s.monitor = .stopping (.clearHandle n) →
    notYet s.main n = false ∧ s.tasks.status (.network n) ≠ .alive

theorem consistent_init : Consistent NetworkLifecycle.init where
  fresh _ _ := ⟨rfl, rfl⟩
  named _ _ h := by simp [NetworkLifecycle.init] at h
  handled _ h := by simp [NetworkLifecycle.init] at h
  monitor h := by simp [NetworkLifecycle.init] at h
  clearing _ h := by cases h

theorem Consistent.of_frame {s s' : Network} (h : Consistent s)
    (htasks : s'.tasks = s.tasks) (hhandles : s'.handles = s.handles)
    (hmain : ∀ n, notYet s'.main n = true → notYet s.main n = true)
    (hmonitor : s'.monitor ≠ .absent → s'.monitor ≠ .exited →
      s.monitor ≠ .absent ∧ s.monitor ≠ .exited)
    (hclear : ∀ n, s'.monitor = .stopping (.clearHandle n) →
      s.monitor = .stopping (.clearHandle n)) : Consistent s' where
  fresh n hn := by
    rw [htasks, hhandles]
    exact h.fresh n (hmain n hn)
  named n t ht := h.named n t (hhandles ▸ ht)
  handled n hn := by
    rw [hhandles]
    exact h.handled n (htasks ▸ hn)
  monitor ha he := by
    rw [htasks]
    exact h.monitor (hmonitor ha he).1 (hmonitor ha he).2
  clearing n hn := by
    obtain ⟨hpast, hdead⟩ := h.clearing n (hclear n hn)
    refine ⟨?_, htasks ▸ hdead⟩
    by_contra hyet
    simp [hmain n (by simpa using hyet)] at hpast

/-- A step beside the monitor. -/
theorem Consistent.of_same_monitor {s s' : Network} (h : Consistent s)
    (htasks : s'.tasks = s.tasks) (hhandles : s'.handles = s.handles)
    (hmain : ∀ n, notYet s'.main n = true → notYet s.main n = true)
    (hmonitor : s'.monitor = s.monitor) : Consistent s' :=
  h.of_frame htasks hhandles hmain (fun ha he => hmonitor ▸ ⟨ha, he⟩)
    fun _ hn => hmonitor ▸ hn

theorem Consistent.stopTask {s : Network} (h : Consistent s) {n : NetworkTask}
    (hp : s.monitor = .stopping (.stopTask n)) :
    Consistent { (NetworkLifecycle.stopTask n s).1 with
      monitor := .stopping (NetworkLifecycle.stopTask n s).2 } := by
  have hrunning := h.monitor (by simp [hp]) (by simp [hp])
  cases hn : s.handles n with
  | none =>
      rw [stopTask_of_null hn]
      exact h.of_frame rfl rfl (fun _ hm => hm) (fun _ _ => by simp [hp])
        fun m hm => absurd (by simpa using hm) (afterStop_ne_clearHandle n m)
  | some t =>
      have ht : t = .network n := h.named n t hn
      subst t
      have hne : ∀ m, notYet s.main m = true → m ≠ n := by
        rintro m hm rfl
        simp [(h.fresh m hm).2] at hn
      rw [stopTask_of_handle hn]
      refine ⟨?_, h.named, ?_, ?_, ?_⟩
      · intro m hm
        simpa [status_delete_of_ne, hne m hm] using h.fresh m hm
      · intro m hm
        exact h.handled m (alive_of_alive_delete s.tasks hm).2
      · intro _ _
        simpa [status_delete_of_ne] using hrunning
      · intro m hm
        obtain rfl : n = m := by simpa using hm
        refine ⟨?_, status_delete_self s.tasks _⟩
        by_contra hyet
        exact hne n (by simpa using hyet) rfl

theorem Consistent.clearHandle {s : Network} (h : Consistent s) {n : NetworkTask}
    (hp : s.monitor = .stopping (.clearHandle n)) :
    Consistent { NetworkLifecycle.clearHandle n s with
      monitor := .stopping (afterStop n) } := by
  obtain ⟨hpast, hdead⟩ := h.clearing n hp
  refine ⟨?_, ?_, ?_, ?_, ?_⟩
  · intro m hm
    have hmn : m ≠ n := by
      rintro rfl
      exact absurd hm (by simp [NetworkLifecycle.clearHandle, hpast])
    simpa [NetworkLifecycle.clearHandle, hmn] using h.fresh m hm
  · intro m t hmt
    by_cases hmn : m = n
    · simp [NetworkLifecycle.clearHandle, hmn] at hmt
    · exact h.named m t (by simpa [NetworkLifecycle.clearHandle, hmn] using hmt)
  · intro m hm
    have hmn : m ≠ n := by
      rintro rfl
      exact hdead hm
    simpa [NetworkLifecycle.clearHandle, hmn] using h.handled m hm
  · intro _ _
    exact h.monitor (by simp [hp]) (by simp [hp])
  · intro m hm
    exact absurd (by simpa using hm) (afterStop_ne_clearHandle n m)

theorem Consistent.create {s : Network} (h : Consistent s) {n : NetworkTask}
    (hmain : s.main = .create n) (ok : Bool) :
    Consistent { createNetworkTask s n ok with main := afterCreate n } := by
  have hlater : ∀ m, notYet (afterCreate n) m = true →
      m ≠ n ∧ notYet s.main m = true := by
    intro m hm
    rw [hmain]
    cases n <;> cases m <;> simp_all [afterCreate, notYet]
  cases ok with
  | false =>
      exact h.of_same_monitor rfl rfl (fun m hm => (hlater m hm).2) rfl
  | true =>
      refine ⟨?_, ?_, ?_, ?_, ?_⟩
      · intro m hm
        obtain ⟨hmn, hold⟩ := hlater m hm
        simpa [createNetworkTask, status_create_of_ne, hmn] using h.fresh m hold
      · intro m t hmt
        by_cases hmn : m = n
        · subst m
          simpa [createNetworkTask, eq_comm] using hmt
        · exact h.named m t (by simpa [createNetworkTask, hmn] using hmt)
      · intro m hm
        by_cases hmn : m = n
        · subst m
          simp [createNetworkTask]
        · have hold : s.tasks.status (.network m) = .alive := by
            simpa [createNetworkTask, status_create_of_ne, hmn] using hm
          simpa [createNetworkTask, hmn] using h.handled m hold
      · intro ha he
        simpa [createNetworkTask, status_create_of_ne] using h.monitor ha he
      · intro m hm
        obtain ⟨hpast, hdead⟩ := h.clearing m hm
        have hmn : m ≠ n := by
          rintro rfl
          rw [hmain] at hpast
          cases m <;> cases hpast
        refine ⟨?_, by simpa [createNetworkTask, status_create_of_ne, hmn] using hdead⟩
        by_contra hyet
        simp [(hlater m (by simpa using hyet)).2] at hpast

/-- The `wifi_stop` of `wifi_init_sta` finds only null handles. -/
theorem Consistent.null {s : Network} (h : Consistent s) {p : StopPoint}
    (hmain : s.main = .stopping p) (n : NetworkTask) : s.handles n = none :=
  (h.fresh n (hmain ▸ rfl)).2

theorem Consistent.wifiStop {s : Network} (h : Consistent s) {p : StopPoint}
    (hp : s.monitor = .stopping p) :
    Consistent { (NetworkLifecycle.wifiStop s p).1 with
      monitor := .stopping (NetworkLifecycle.wifiStop s p).2 } := by
  rcases wifiStop_cases s p with ⟨n, rfl, heq⟩ | ⟨n, rfl, heq⟩ |
    ⟨-, -, hnext, htasks, hhandles, hmain, -⟩
  · rw [heq]
    exact h.stopTask hp
  · rw [heq]
    exact h.clearHandle hp
  · exact h.of_frame htasks hhandles (fun n hn => hmain ▸ hn) (fun _ _ => by simp [hp])
      fun n hn => absurd (by simpa using hn) (hnext n)

theorem Consistent.step {s s' : Network} {e : NetworkEvent} (h : Consistent s)
    (hstep : NetworkLifecycle.step s e = some s') : Consistent s' := by
  cases e with
  | post e =>
      have hs' : post s e = s' := by simpa [NetworkLifecycle.step] using hstep
      obtain ⟨htasks, hhandles, hmain, hmonitor⟩ := post_frame s e
      rw [hs'] at htasks hhandles hmain hmonitor
      refine h.of_frame htasks hhandles ?_ ?_ ?_
      · intro n hn
        rcases hmain with heq | ⟨hblocked, -⟩
        · exact heq ▸ hn
        · simp [hblocked, notYet]
      · intro ha he
        rcases hmonitor with heq | ⟨hblocked, -⟩
        · exact heq ▸ ⟨ha, he⟩
        · simp [hblocked]
      · intro n hn
        rcases hmonitor with heq | ⟨-, heq⟩
        · exact heq ▸ hn
        · rw [heq] at hn
          cases hn
  | main ok =>
      rcases mainStep_cases hstep with ⟨n, hmain, rfl⟩ |
        ⟨hmain, hmain', hhandles, hnew⟩ |
        ⟨p, hmain, htasks, hhandles, hmonitor, -⟩ |
        ⟨hbefore, -, htasks, hhandles, hmonitor⟩
      · exact h.create hmain ok
      · rcases hnew with ⟨htasks, hmonitor⟩ | ⟨htasks, hmonitor⟩
        · refine ⟨?_, ?_, ?_, ?_, ?_⟩
          · intro n _
            rw [htasks, hhandles]
            simpa [status_create_of_ne] using h.fresh n (by simp [hmain, notYet])
          · intro n t hn
            exact h.named n t (hhandles ▸ hn)
          · intro n hn
            rw [hhandles]
            exact h.handled n (by simpa [htasks, status_create_of_ne] using hn)
          · intro _ _
            simp [htasks]
          · intro n hn
            rw [hmonitor] at hn
            cases hn
        · exact h.of_same_monitor htasks hhandles (fun n _ => by simp [hmain, notYet]) hmonitor
      · obtain ⟨htasks', hhandles'⟩ := wifiStop_of_null (h.null hmain) p
        exact h.of_same_monitor (htasks.trans htasks') (hhandles.trans hhandles')
          (fun n _ => by simp [hmain, notYet]) hmonitor
      · exact h.of_same_monitor htasks hhandles (fun n _ => hbefore n) hmonitor
  | monitor =>
      rcases monitorStep_cases hstep with ⟨hwait, htasks, hhandles, hmain, hmonitor⟩ |
        ⟨p, -, hstop, rfl⟩ | ⟨hdone, rfl⟩
      · refine h.of_frame htasks hhandles (fun n hn => hmain ▸ hn) (fun _ _ => by simp [hwait]) ?_
        intro n hn
        rcases hmonitor with heq | heq <;> rw [heq] at hn <;> cases hn
      · exact h.wifiStop hstop
      · refine ⟨?_, h.named, ?_, ?_, ?_⟩
        · intro n hn
          simpa [status_delete_of_ne] using h.fresh n hn
        · intro n hn
          exact h.handled n (by simpa [status_delete_of_ne] using hn)
        · intro _ he
          exact absurd rfl he
        · intro n hn
          cases hn
  | udpExit =>
      simp only [NetworkLifecycle.step] at hstep
      split at hstep
      · rename_i halive
        simp only [Option.some.injEq] at hstep
        subst s'
        refine ⟨?_, h.named, ?_, ?_, ?_⟩
        · intro n hn
          have hne : n ≠ .udpServer := by
            rintro rfl
            simp [(h.fresh _ hn).1] at halive
          simpa [status_delete_of_ne, hne] using h.fresh n hn
        · intro n hn
          exact h.handled n (alive_of_alive_delete s.tasks hn).2
        · intro ha he
          simpa [status_delete_of_ne] using h.monitor ha he
        · intro n hn
          obtain ⟨hpast, hdead⟩ := h.clearing n hn
          exact ⟨hpast, fun hlive => hdead (alive_of_alive_delete s.tasks hlive).2⟩
      · cases hstep

/-- Who can make a task disappear: the monitor's `wifi_stop`, or the task
itself. -/
theorem dies_cases {s s' : Network} {e : NetworkEvent} {t : Task}
    (h : Consistent s) (hstep : NetworkLifecycle.step s e = some s')
    (halive : s.tasks.status t = .alive) (hdead : s'.tasks.status t ≠ .alive) :
    (∃ n, t = .network n ∧ e = .monitor ∧ s.monitor = .stopping (.stopTask n)) ∨
      t = .stopNetwork ∨ t = udpTask ∧ e = .udpExit := by
  cases e with
  | post e =>
      have hs' : post s e = s' := by simpa [NetworkLifecycle.step] using hstep
      obtain ⟨htasks, -⟩ := post_frame s e
      rw [← hs', htasks] at hdead
      exact absurd halive hdead
  | main ok =>
      rcases mainStep_cases hstep with ⟨n, -, rfl⟩ |
        ⟨-, -, -, ⟨htasks, -⟩ | ⟨htasks, -⟩⟩ |
        ⟨p, hmain, htasks, -⟩ | ⟨-, -, htasks, -⟩
      · cases ok with
        | false => exact absurd halive hdead
        | true =>
            have hne : t ≠ .network n := by
              rintro rfl
              simp [createNetworkTask] at hdead
            simp [createNetworkTask, status_create_of_ne, hne, halive] at hdead
      · by_cases hne : t = .stopNetwork
        · exact .inr (.inl hne)
        · rw [htasks, status_create_of_ne s.tasks hne] at hdead
          exact absurd halive hdead
      · rw [htasks] at hdead
        exact absurd halive hdead
      · rw [htasks, (wifiStop_of_null (h.null hmain) p).1] at hdead
        exact absurd halive hdead
      · rw [htasks] at hdead
        exact absurd halive hdead
  | monitor =>
      rcases monitorStep_cases hstep with ⟨-, htasks, -⟩ | ⟨p, -, hp, rfl⟩ | ⟨-, rfl⟩
      · rw [htasks] at hdead
        exact absurd halive hdead
      · rcases wifiStop_cases s p with ⟨n, rfl, heq⟩ | ⟨n, -, heq⟩ | ⟨-, -, -, hsame, -⟩
        · simp only [heq] at hdead
          cases hn : s.handles n with
          | none =>
              rw [stopTask_of_null hn] at hdead
              exact absurd halive hdead
          | some u =>
              rw [stopTask_of_handle hn, h.named n u hn] at hdead
              by_cases ht : t = .network n
              · exact .inl ⟨n, ht, rfl, hp⟩
              · rw [status_delete_of_ne s.tasks ht] at hdead
                exact absurd halive hdead
        · simp only [heq] at hdead
          exact absurd halive hdead
        · simp only [hsame] at hdead
          exact absurd halive hdead
      · by_cases hne : t = .stopNetwork
        · exact .inr (.inl hne)
        · rw [status_delete_of_ne s.tasks hne] at hdead
          exact absurd halive hdead
  | udpExit =>
      simp only [NetworkLifecycle.step] at hstep
      split at hstep
      · simp only [Option.some.injEq] at hstep
        subst s'
        by_cases hne : t = udpTask
        · exact .inr (.inr ⟨hne, rfl⟩)
        · rw [status_delete_of_ne s.tasks hne] at hdead
          exact absurd halive hdead
      · cases hstep

theorem not_alive_stopTask {s : Network} (hc : Consistent s) (n : NetworkTask) :
    (stopTask n s).1.tasks.status (.network n) ≠ .alive := by
  cases hn : s.handles n with
  | none =>
      rw [stopTask_of_null hn]
      intro halive
      simp [hc.handled n halive] at hn
  | some t =>
      rw [stopTask_of_handle hn, hc.named n t hn]
      exact status_delete_self s.tasks _

/-- Every handle is null or names a running task, the one whose clearing is the next
statement of the monitor apart, and no `vTaskDelete` so far was aimed at a task that
did not exist. -/
def HandlesLive (s : Network) : Prop :=
  (∀ n t, s.monitor ≠ .stopping (.clearHandle n) → s.handles n = some t →
    s.tasks.status t = .alive) ∧ s.tasks.badDeletes = []

theorem HandlesLive.of_frame {s s' : Network} (h : HandlesLive s)
    (htasks : s'.tasks = s.tasks) (hhandles : s'.handles = s.handles)
    (hclear : ∀ n, s.monitor = .stopping (.clearHandle n) →
      s'.monitor = .stopping (.clearHandle n)) : HandlesLive s' :=
  ⟨fun n t hn ht => htasks ▸ h.1 n t (mt (hclear n) hn) (hhandles ▸ ht), htasks ▸ h.2⟩

theorem HandlesLive.stopTask {s : Network} (hc : Consistent s) (h : HandlesLive s)
    {n : NetworkTask} (hp : s.monitor = .stopping (.stopTask n)) :
    HandlesLive { (NetworkLifecycle.stopTask n s).1 with
      monitor := .stopping (NetworkLifecycle.stopTask n s).2 } := by
  cases hn : s.handles n with
  | none =>
      rw [stopTask_of_null hn]
      exact h.of_frame rfl rfl fun m hm => by simp [hp] at hm
  | some t =>
      rw [stopTask_of_handle hn]
      refine ⟨?_, ?_⟩
      · intro m u hm hmu
        have hmn : m ≠ n := by
          rintro rfl
          exact hm rfl
        -- the other handles name other tasks
        have hut : u ≠ t := by
          rw [hc.named m u hmu, hc.named n t hn]
          simpa using hmn
        simpa [status_delete_of_ne, hut] using h.1 m u (by simp [hp]) hmu
      · simpa [badDeletes_delete_of_alive, h.1 n t (by simp [hp]) hn] using h.2

theorem HandlesLive.clearHandle {s : Network} (h : HandlesLive s) {n : NetworkTask}
    (hp : s.monitor = .stopping (.clearHandle n)) (p : StopPoint) :
    HandlesLive { NetworkLifecycle.clearHandle n s with monitor := .stopping p } := by
  refine ⟨?_, h.2⟩
  intro m t _ hmt
  have hmn : m ≠ n := by
    rintro rfl
    simp [NetworkLifecycle.clearHandle] at hmt
  exact h.1 m t (by simpa [hp, eq_comm] using hmn)
    (by simpa [NetworkLifecycle.clearHandle, hmn] using hmt)

theorem HandlesLive.wifiStop {s : Network} (hc : Consistent s) (h : HandlesLive s)
    {p : StopPoint} (hp : s.monitor = .stopping p) :
    HandlesLive { (NetworkLifecycle.wifiStop s p).1 with
      monitor := .stopping (NetworkLifecycle.wifiStop s p).2 } := by
  rcases wifiStop_cases s p with ⟨n, rfl, heq⟩ | ⟨n, rfl, heq⟩ |
    ⟨-, hclear, -, htasks, hhandles, -⟩
  · rw [heq]
    exact h.stopTask hc hp
  · rw [heq]
    exact h.clearHandle hp _
  · refine h.of_frame htasks hhandles ?_
    intro n hn
    rw [hp] at hn
    exact absurd (by simpa using hn) (hclear n)

theorem HandlesLive.create {s : Network} (h : HandlesLive s) (n : NetworkTask)
    (ok : Bool) : HandlesLive (createNetworkTask s n ok) := by
  cases ok with
  | false => exact h
  | true =>
      refine ⟨?_, h.2⟩
      intro m t hclear hmt
      by_cases ht : t = .network n
      · simp [createNetworkTask, ht]
      · have hmn : m ≠ n := by
          rintro rfl
          exact ht (by simpa [createNetworkTask, eq_comm] using hmt)
        have hold : s.handles m = some t := by simpa [createNetworkTask, hmn] using hmt
        simpa [createNetworkTask, status_create_of_ne, ht] using h.1 m t hclear hold

theorem handlesLive_step_iff {s s' : Network} {e : NetworkEvent}
    (hc : Consistent s) (h : HandlesLive s)
    (hstep : NetworkLifecycle.step s e = some s') :
    HandlesLive s' ↔ e ≠ .udpExit := by
  cases e with
  | post e =>
      have hs' : post s e = s' := by simpa [NetworkLifecycle.step] using hstep
      obtain ⟨htasks, hhandles, -, hmonitor⟩ := post_frame s e
      rw [hs'] at htasks hhandles hmonitor
      refine iff_of_true (h.of_frame htasks hhandles ?_) (by simp)
      intro n hn
      rcases hmonitor with heq | ⟨hblocked, -⟩
      · exact heq ▸ hn
      · rw [hblocked] at hn
        cases hn
  | main ok =>
      refine iff_of_true ?_ (by simp)
      rcases mainStep_cases hstep with ⟨n, -, rfl⟩ |
        ⟨hmain, -, hhandles, ⟨htasks, -⟩ | ⟨htasks, hmonitor⟩⟩ |
        ⟨p, hmain, htasks, hhandles, hmonitor, -⟩ | ⟨-, -, htasks, hhandles, hmonitor⟩
      · exact (h.create n ok).of_frame rfl rfl fun _ => id
      · refine ⟨?_, by rw [htasks]; exact h.2⟩
        intro n t _ hn
        simp [hhandles, (hc.fresh n (by simp [hmain, notYet])).2] at hn
      · exact h.of_frame htasks hhandles fun _ hn => hmonitor ▸ hn
      · obtain ⟨htasks', hhandles'⟩ := wifiStop_of_null (hc.null hmain) p
        exact h.of_frame (htasks.trans htasks') (hhandles.trans hhandles')
          fun _ hn => hmonitor ▸ hn
      · exact h.of_frame htasks hhandles fun _ hn => hmonitor ▸ hn
  | monitor =>
      refine iff_of_true ?_ (by simp)
      rcases monitorStep_cases hstep with ⟨hwait, htasks, hhandles, -, -⟩ |
        ⟨p, -, hp, rfl⟩ | ⟨hdone, rfl⟩
      · exact h.of_frame htasks hhandles fun n hn => by simp [hwait] at hn
      · exact h.wifiStop hc hp
      · have hself := hc.monitor (by simp [hdone]) (by simp [hdone])
        refine ⟨?_, ?_⟩
        · intro n t _ hn
          have hne : t ≠ .stopNetwork := by simp [hc.named n t hn]
          simpa [status_delete_of_ne, hne] using h.1 n t (by simp [hdone]) hn
        · simpa [badDeletes_delete_of_alive, hself] using h.2
  | udpExit =>
      refine iff_of_false ?_ (by simp)
      intro hlive
      simp only [NetworkLifecycle.step] at hstep
      split at hstep
      · rename_i halive
        simp only [Option.some.injEq] at hstep
        subst s'
        have hclear : s.monitor ≠ .stopping (.clearHandle .udpServer) :=
          fun hmonitor => (hc.clearing _ hmonitor).2 halive
        exact status_delete_self s.tasks _ (hlive.1 .udpServer _ hclear (hc.handled _ halive))
      · cases hstep

theorem consistent_board {b b' : Board} {e : BoardEvent} (h : Consistent b.net)
    (hstep : BoardSystem.step b e = some b') : Consistent b'.net := by
  have hcomponent : ∀ s f s', Consistent s → True →
      NetworkLifecycle.step s f = some s' → Consistent s' :=
    fun s f s' h _ hstep => h.step hstep
  exact networkProjection.invariant hcomponent b e b' h (fun _ _ => trivial) hstep

/-- In every run of the board, the handles are live in every state, each up to the
moment between its task's deletion by a stop function and its clearing, exactly if
`udp_server_task` never comes to the `vTaskDelete(NULL)` behind its loop, which it does
only after a failed `socket()`. -/
theorem handlesLive_always_iff (n : Storage.Nvs) (read : Bool) (ok : Fin 4 → Bool)
    (es : List BoardEvent) (b : Board)
    (hrun : run BoardSystem.step (boot n read ok) es = some b) :
    Always BoardSystem.step (fun b => HandlesLive b.net) (boot n read ok) es ↔
      EachStep BoardSystem.step (fun _ e => e ≠ .udp .exit) (boot n read ok) es := by
  have hinit : Consistent (boot n read ok).net := consistent_init
  have hlive : HandlesLive (boot n read ok).net :=
    ⟨fun n t _ h => by simp [boot, NetworkLifecycle.init] at h, rfl⟩
  refine always_iff_eachStep (fun _ _ _ h hstep => consistent_board h hstep) ?_ hinit hlive hrun
  intro b e b' hc hl hstep
  cases hlabel : networkLabel e with
  | none =>
      have hnet : b'.net = b.net := networkProjection.stutter b e b' hlabel hstep
      have hne : e ≠ .udp .exit := by
        rintro rfl
        cases hlabel
      exact iff_of_true (by rwa [hnet]) hne
  | some f =>
      have hiff := handlesLive_step_iff hc hl
        (networkProjection.simulate b e b' f hlabel hstep)
      refine Iff.trans hiff (not_congr ?_)
      constructor
      · rintro rfl
        cases e with
        | udp a => cases a <;> simp_all [networkLabel]
        | _ => simp [networkLabel] at hlabel
      · rintro rfl
        simpa [networkLabel, eq_comm] using hlabel

def teardown : List BoardEvent :=
  List.replicate 11 (.post .staDisconnected) ++ List.replicate 6 .monitor

theorem handlesLive_teardown :
    ∃ b, run BoardSystem.step (boot ⟨none, none⟩ true fun _ => true) (online ++ teardown) =
        some b ∧ (∀ n, b.net.handles n = none) ∧ HandlesLive b.net := by
  obtain ⟨b, hrun, hb⟩ := exists_run_of_any
    (show (run BoardSystem.step (boot ⟨none, none⟩ true fun _ => true)
      (online ++ teardown)).any (fun b => decide (b.net.handles .simpleOtaExample = none ∧
        b.net.handles .udpServer = none ∧ b.net.handles .bmiSendSensorData = none)) = true
      by decide)
  obtain ⟨hota, hudp, hbmi⟩ := of_decide_eq_true hb
  have hall := (handlesLive_always_iff ⟨none, none⟩ true (fun _ => true) _ b hrun).mpr
    (by decide)
  refine ⟨b, hrun, ?_, (always_last hall hrun :)⟩
  intro n
  cases n with
  | simpleOtaExample => exact hota
  | udpServer => exact hudp
  | bmiSendSensorData => exact hbmi

/-- With the network up and `socket()` out of descriptors, the UDP server
deletes itself under a handle that keeps naming it, and the next teardown
deletes it once more. -/
theorem failed_socket_leaves_stale_handle :
    (¬ ∀ (n : Storage.Nvs) (read : Bool) (ok : Fin 4 → Bool) (es : List BoardEvent)
        (b : Board), run BoardSystem.step (boot n read ok) es = some b →
          ∀ n t, b.net.handles n = some t → b.net.tasks.status t = .alive) ∧
      ¬ ∀ (n : Storage.Nvs) (read : Bool) (ok : Fin 4 → Bool) (es : List BoardEvent)
        (b : Board), run BoardSystem.step (boot n read ok) es = some b →
          b.net.tasks.badDeletes = [] := by
  let stale : List BoardEvent := online ++ [.udp (.socket false), .udp .exit]
  constructor
  · intro h
    obtain ⟨b, hrun, hb⟩ := exists_run_of_any
      (show (run BoardSystem.step (boot ⟨none, none⟩ true fun _ => true) stale).any
        (fun b => decide (b.net.handles .udpServer = some udpTask ∧
          b.net.tasks.status udpTask = .deleted)) = true by decide)
    have hstale := of_decide_eq_true hb
    have halive := h _ _ _ _ b hrun .udpServer udpTask hstale.1
    simp [hstale.2] at halive
  · intro h
    obtain ⟨b, hrun, hb⟩ := exists_run_of_any
      (show (run BoardSystem.step (boot ⟨none, none⟩ true fun _ => true)
        (stale ++ teardown)).any
        (fun b => decide (b.net.tasks.badDeletes = [udpTask])) = true by decide)
    have hbad := of_decide_eq_true hb
    simp [h _ _ _ _ b hrun] at hbad

end BikeMcu.TaskHandles
