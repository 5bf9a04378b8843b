import BikeMcu.LampMutex
import Mathlib.Tactic.TFAE

namespace BikeMcu.LampProgress

open BikeMcu.TransitionSystem
open BikeMcu.TaskKernel
open BikeMcu.LampCommands
open BikeMcu.NetworkLifecycle
open BikeMcu.BoardSystem
open BikeMcu.TaskHandles
open BikeMcu.LampOwnership
open BikeMcu.LampMutex

section Lamp

variable {Task : Type} [DecidableEq Task]

def statement (l : Lamp Task) (x : Task × LampStep) : Option (Lamp Task) :=
  LampCommands.step l x.1 x.2

/-- What is left of a call for the task that holds the mutex, when its transfer
succeeds. -/
def untilGive : SendPoint → List LampStep
  | .taken _ => [.record, .transmit true, .give]
  | .recorded _ => [.transmit true, .give]
  | .sent _ => [.give]
  | .outside | .waiting _ => []

theorem length_untilGive (p : SendPoint) : (untilGive p).length ≤ 3 := by
  cases p <;> simp [untilGive]

theorem run_untilGive {l : Lamp Task} {t : Task} (h : Exclusive l)
    (hp : (l.point t).critical = true) :
    ∃ l', run statement l ((untilGive (l.point t)).map fun a => (t, a)) = some l' ∧
      l'.cmdMutex = none ∧ l'.point = Function.update l.point t .outside ∧
      ∀ c, (l.point t).Pending c → l'.bus = (t, c) :: l.bus := by
  cases hpoint : l.point t with
  | outside | waiting c => simp [hpoint, SendPoint.critical] at hp
  | taken c =>
      refine ⟨{ l with
        cmdMutex := none, lastCommand := c, bus := (t, c) :: l.bus
        point := Function.update l.point t .outside }, ?_, rfl, rfl, ?_⟩
      · simp [untilGive, run, statement, LampCommands.step, hpoint, Lamp.setPoint]
      · intro d hd
        have hcd : c = d := by simpa [SendPoint.Pending] using hd
        rw [hcd]
  | recorded c =>
      refine ⟨{ l with
        cmdMutex := none, bus := (t, l.lastCommand) :: l.bus
        point := Function.update l.point t .outside }, ?_, rfl, rfl, ?_⟩
      · simp [untilGive, run, statement, LampCommands.step, hpoint, Lamp.setPoint]
      · intro d hd
        have hcd : c = d := by simpa [SendPoint.Pending] using hd
        rw [h.recorded t c hpoint, hcd]
  | sent c =>
      refine ⟨{ l with
        cmdMutex := none, point := Function.update l.point t .outside }, ?_, rfl, rfl, ?_⟩
      · simp [untilGive, run, statement, LampCommands.step, hpoint, Lamp.setPoint]
      · intro d hd
        simp [SendPoint.Pending] at hd

theorem run_waiting {l : Lamp Task} {t : Task} {c : UInt8} (hp : l.point t = .waiting c)
    (hfree : l.cmdMutex = none) :
    ∃ l', run statement l
        ([LampStep.take, .record, .transmit true, .give].map fun a => (t, a)) = some l' ∧
      l'.point t = .outside ∧ l'.bus = (t, c) :: l.bus := by
  refine ⟨{ l with
    cmdMutex := none, lastCommand := c, acquired := (t, c) :: l.acquired
    bus := (t, c) :: l.bus, point := Function.update l.point t .outside }, ?_, ?_, rfl⟩
  · simp [run, statement, LampCommands.step, hp, hfree, Lamp.setPoint]
  · simp

theorem bus_suffix_of_run {l l' : Lamp Task} {xs : List (Task × LampStep)}
    (hrun : run statement l xs = some l') : l.bus <:+ l'.bus := by
  have hstep : ∀ (m : Lamp Task) x m', l.bus <:+ m.bus → statement m x = some m' →
      l.bus <:+ m'.bus := by
    intro m x m' hm hs
    rcases step_eq_some hs with ⟨c, -, -, -, rfl⟩ | ⟨c, -, -, rfl⟩ | ⟨c, ok, -, -, rfl⟩ |
      ⟨c, -, -, rfl⟩
    · exact hm
    · exact hm
    · cases ok with
      | true => exact hm.trans (List.suffix_cons _ _)
      | false => exact hm
    · exact hm
  exact invariant_of_run hstep (List.suffix_refl l.bus) hrun

/-- A call completes by the holder's statements and then its own: at most three and
four. -/
theorem exists_completion {l : Lamp Task} {t : Task} (h : Exclusive l)
    (hp : l.point t ≠ .outside) :
    ∃ xs l', run statement l xs = some l' ∧ xs.length ≤ 7 ∧
      (∀ x ∈ xs, x.1 = t ∨ l.cmdMutex = some x.1) ∧ l'.point t = .outside ∧
      ∀ c, (l.point t).Pending c → ∃ bus, l'.bus = (t, c) :: bus ∧ l.bus <:+ bus := by
  cases hcritical : (l.point t).critical with
  | true =>
      obtain ⟨l', hrun, -, hpoint, hbus⟩ := run_untilGive h hcritical
      refine ⟨_, l', hrun, ?_, ?_, by simp [hpoint], fun c hc => ⟨_, hbus c hc, ?_⟩⟩
      · have hlength := length_untilGive (l.point t)
        rw [List.length_map]
        omega
      · intro x hx
        obtain ⟨a, -, rfl⟩ := List.mem_map.mp hx
        exact .inl rfl
      · exact List.suffix_refl l.bus
  | false =>
      obtain ⟨c, hwait⟩ : ∃ c, l.point t = .waiting c := by
        cases hpoint : l.point t <;> simp_all [SendPoint.critical]
      have hhead : ∀ {l' m : Lamp Task}, l'.bus = (t, c) :: m.bus → l.bus <:+ m.bus →
          ∀ d, (l.point t).Pending d → ∃ bus, l'.bus = (t, d) :: bus ∧ l.bus <:+ bus := by
        intro l' m hbus hsuffix d hd
        have hcd : c = d := by simpa [SendPoint.Pending, hwait] using hd
        exact ⟨m.bus, hcd ▸ hbus, hsuffix⟩
      cases hmutex : l.cmdMutex with
      | none =>
          obtain ⟨l', hrun, hpoint, hbus⟩ := run_waiting hwait hmutex
          refine ⟨_, l', hrun, by simp, ?_, hpoint, hhead hbus (List.suffix_refl l.bus)⟩
          intro x hx
          obtain ⟨a, -, rfl⟩ := List.mem_map.mp hx
          exact .inl rfl
      | some u =>
          have hu : (l.point u).critical = true := (h.holder u).mp hmutex
          have htu : t ≠ u := by
            rintro rfl
            simp [hcritical] at hu
          obtain ⟨m, hfirst, hfree, hpoint, -⟩ := run_untilGive h hu
          obtain ⟨l', hsecond, hout, hbus⟩ :=
            run_waiting (l := m) (t := t) (c := c) (by simp [hpoint, htu, hwait]) hfree
          refine ⟨_, l', run_append_eq_some.mpr ⟨m, hfirst, hsecond⟩, ?_, ?_, hout,
            hhead hbus (bus_suffix_of_run hfirst)⟩
          · have hlength := length_untilGive (l.point u)
            simp only [List.length_append, List.length_map, List.length_cons, List.length_nil]
            omega
          · intro x hx
            rcases List.mem_append.mp hx with hx | hx
            · obtain ⟨a, -, rfl⟩ := List.mem_map.mp hx
              exact .inr rfl
            · obtain ⟨a, -, rfl⟩ := List.mem_map.mp hx
              exact .inl rfl

end Lamp

def lampEvent (x : Task × LampStep) : BoardEvent := .lamp x.1 x.2

theorem run_statements {b : Board} {xs : List (Task × LampStep)} {l : Lamp Task}
    (halive : ∀ x ∈ xs, alive b x.1) (hrun : run statement b.lamp xs = some l) :
    run BoardSystem.step b (xs.map lampEvent) = some { b with lamp := l } := by
  induction xs generalizing b with
  | nil =>
      have heq : b.lamp = l := by simpa [run] using hrun
      simp [run, ← heq]
  | cons x xs ih =>
      obtain ⟨m, hm, htail⟩ := run_cons_eq_some.mp hrun
      rw [List.map_cons]
      refine run_cons_eq_some.mpr ⟨{ b with lamp := m }, ?_, ?_⟩
      · have hx : alive b x.1 := halive x List.mem_cons_self
        have hstep : LampCommands.step b.lamp x.1 x.2 = some m := hm
        simp [BoardSystem.step, lampEvent, hx, hstep]
      · exact ih (b := { b with lamp := m })
          (fun y hy => halive y (List.mem_cons_of_mem x hy)) htail

/-- A task is created once and never again after its deletion. -/
theorem status_step {s s' : Network} {e : NetworkEvent} {t : Task} (h : Consistent s)
    (ht : t ≠ .stopNetwork) (hstep : NetworkLifecycle.step s e = some s') :
    s'.tasks.status t = s.tasks.status t ∨
      s.tasks.status t = .absent ∧ s'.tasks.status t = .alive ∨
      s.tasks.status t = .alive ∧ s'.tasks.status t = .deleted := by
  have hdelete : ∀ u, (delete s.tasks u).status t = s.tasks.status t ∨
      s.tasks.status t = .alive ∧ (delete s.tasks u).status t = .deleted := by
    intro u
    by_cases htu : t = u
    · subst htu
      by_cases halive : s.tasks.status t = .alive
      · exact .inr ⟨halive, by simp [delete, halive]⟩
      · exact .inl (by simp [delete, halive])
    · exact .inl (status_delete_of_ne s.tasks htu)
  cases e with
  | post e =>
      have hs' : post s e = s' := by simpa [NetworkLifecycle.step] using hstep
      rw [← hs', (post_frame s e).1]
      exact .inl rfl
  | main ok =>
      rcases mainStep_cases hstep with ⟨n, hmain, rfl⟩ |
        ⟨-, -, -, ⟨htasks, -⟩ | ⟨htasks, -⟩⟩ |
        ⟨p, hmain, htasks, -⟩ | ⟨-, -, htasks, -⟩
      · cases ok with
        | false => exact .inl rfl
        | true =>
            by_cases hne : t = .network n
            · subst hne
              have hfresh := (h.fresh n (by rw [hmain]; cases n <;> rfl)).1
              exact .inr (.inl ⟨hfresh, by simp [createNetworkTask]⟩)
            · exact .inl (status_create_of_ne s.tasks hne)
      · rw [htasks]
        exact .inl (status_create_of_ne s.tasks ht)
      · exact .inl (by rw [htasks])
      · exact .inl (by rw [htasks, (wifiStop_of_null (h.null hmain) p).1])
      · exact .inl (by rw [htasks])
  | monitor =>
      rcases monitorStep_cases hstep with ⟨-, htasks, -⟩ | ⟨p, -, -, rfl⟩ | ⟨-, rfl⟩
      · exact .inl (by rw [htasks])
      · rcases wifiStop_cases s p with ⟨n, -, heq⟩ | ⟨n, -, heq⟩ | ⟨-, -, -, hsame, -⟩
        · simp only [heq]
          cases hn : s.handles n with
          | none =>
              rw [stopTask_of_null hn]
              exact .inl rfl
          | some u =>
              rw [stopTask_of_handle hn]
              exact (hdelete u).imp id .inr
        · exact .inl (by simp [heq, clearHandle])
        · exact .inl (by simp [hsame])
      · exact (hdelete .stopNetwork).imp id .inr
  | udpExit =>
      simp only [NetworkLifecycle.step] at hstep
      split at hstep
      · obtain rfl := Option.some.inj hstep
        exact (hdelete udpTask).imp id .inr
      · cases hstep

theorem board_status_step {b b' : Board} {e : BoardEvent} {t : Task} (h : Consistent b.net)
    (ht : t ≠ .stopNetwork) (hstep : step b e = some b') :
    b'.net.tasks.status t = b.net.tasks.status t ∨
      b.net.tasks.status t = .absent ∧ b'.net.tasks.status t = .alive ∨
      b.net.tasks.status t = .alive ∧ b'.net.tasks.status t = .deleted := by
  cases hlabel : networkLabel e with
  | none =>
      have hnet : b'.net = b.net := networkProjection.stutter b e b' hlabel hstep
      exact .inl (by rw [hnet])
  | some f => exact status_step h ht (networkProjection.simulate b e b' f hlabel hstep)

theorem resident_step {b b' : Board} {e : BoardEvent} {t : Task} (h : Consistent b.net)
    (ht : t = .detectBrake1 ∨ t = .bleCallback) (halive : alive b t)
    (hstep : step b e = some b') : alive b' t := by
  cases hlabel : networkLabel e with
  | none =>
      have hnet : b'.net = b.net := networkProjection.stutter b e b' hlabel hstep
      rw [alive, hnet]
      exact halive
  | some f =>
      by_contra hdead
      have hnet := networkProjection.simulate b e b' f hlabel hstep
      rcases dies_cases h hnet halive hdead with ⟨n, rfl, -⟩ | rfl | ⟨rfl, -⟩ <;> simp at ht

/-- What every reachable board knows about the tasks that call the lamp. -/
structure Reached (b : Board) : Prop where
  consistent : Consistent b.net
  owned : Owned b
  resident : ∀ t, t = .detectBrake1 ∨ t = .bleCallback → alive b t
  started : b.lamp.point udpTask ≠ .outside → b.net.tasks.status udpTask ≠ .absent

theorem reached_boot (n : Storage.Nvs) (read : Bool) (ok : Fin 4 → Bool) :
    Reached (boot n read ok) where
  consistent := consistent_init
  owned := owned_boot n read ok
  resident t ht := by rcases ht with rfl | rfl <;> rfl
  started h := absurd rfl h

theorem started_before {b b' : Board} {e : BoardEvent} (hb : Reached b)
    (hstep : step b e = some b') (hp : b'.lamp.point udpTask ≠ .outside) :
    b.net.tasks.status udpTask ≠ .absent := by
  by_cases hbefore : b.lamp.point udpTask = .outside
  · -- the server enters a call in this step, and only a living task does
    cases e with
    | udp a =>
        obtain ⟨halive, -⟩ := step_udp_eq_some hstep
        rw [alive] at halive
        simp [halive]
    | lamp t a =>
        obtain ⟨halive, l, hl, rfl⟩ := step_lamp_eq_some hstep
        obtain ⟨ht, hother⟩ := step_frame hl
        by_cases htu : udpTask = t
        · exact absurd hbefore (htu ▸ ht)
        · exact absurd ((hother udpTask htu).trans hbefore) hp
    | detect a =>
        exfalso
        apply hp
        rcases detectStep_cases hstep with ⟨-, l, hl, rfl⟩ | ⟨-, -, rfl⟩ |
          ⟨-, l, hl, rfl⟩ | ⟨-, -, rfl⟩
        · exact (point_of_sendSignal hl (by simp)).trans hbefore
        · exact hbefore
        · exact (point_of_sendSignal hl (by simp)).trans hbefore
        · exact hbefore
    | notify cmd =>
        exfalso
        apply hp
        rcases step_notify_eq_some hstep with rfl | ⟨g, l, -, hl, rfl⟩
        · exact hbefore
        · exact (point_of_sendSignal hl (by simp)).trans hbefore
    | post e | main e | monitor =>
        obtain ⟨n, -, rfl⟩ := netStep_eq_some hstep
        exact absurd hbefore hp
  · exact hb.started hbefore

theorem Reached.step {b b' : Board} {e : BoardEvent} (h : Reached b)
    (hstep : BoardSystem.step b e = some b') : Reached b' where
  consistent := consistent_board h.consistent hstep
  owned := h.owned.step hstep
  resident t ht := resident_step h.consistent ht (h.resident t ht) hstep
  started hp := by
    have hbefore := started_before h hstep hp
    rcases board_status_step (t := udpTask) h.consistent (by simp) hstep with heq | ⟨-, halive⟩ |
      ⟨-, hdead⟩
    · rw [heq]
      exact hbefore
    · simp [halive]
    · simp [hdead]

theorem reached_of_run {n : Storage.Nvs} {read : Bool} {ok : Fin 4 → Bool}
    {es : List BoardEvent} {b : Board}
    (hrun : run BoardSystem.step (boot n read ok) es = some b) : Reached b :=
  invariant_of_run (fun _ _ _ h hs => h.step hs) (reached_boot n read ok) hrun

/-- The mutex is held by the deleted UDP server. -/
structure Silenced (b : Board) : Prop where
  reached : Reached b
  held : b.lamp.cmdMutex = some udpTask
  deleted : b.net.tasks.status udpTask = .deleted

/-- Only the UDP server can die with the mutex. -/
theorem silenced_of_orphaned {b : Board} (hb : Reached b) (h : ¬ HolderAlive b) :
    Silenced b := by
  obtain ⟨t, hheld, hdead⟩ : ∃ t, b.lamp.cmdMutex = some t ∧ ¬ alive b t := by
    simpa [HolderAlive] using h
  have hpoint : b.lamp.point t ≠ .outside := by
    intro hout
    have hcritical := (hb.owned.exclusive.holder t).mp hheld
    simp [hout, SendPoint.critical] at hcritical
  rcases hb.owned.callers t hpoint with rfl | rfl | rfl
  · exact absurd (hb.resident _ (.inl rfl)) hdead
  · refine ⟨hb, hheld, ?_⟩
    cases hstatus : b.net.tasks.status udpTask with
    | absent => exact absurd hstatus (hb.started hpoint)
    | alive => exact absurd hstatus hdead
    | deleted => rfl
  · exact absurd (hb.resident _ (.inr rfl)) hdead

theorem Silenced.not_alive {b : Board} (h : Silenced b) : ¬ alive b udpTask := by
  simp [alive, h.deleted]

theorem Silenced.not_holderAlive {b : Board} (h : Silenced b) : ¬ HolderAlive b :=
  fun hb => h.not_alive (hb udpTask h.held)

/-- No statement inside a lamp command is enabled any more. -/
theorem Silenced.no_statement {b b' : Board} {t : Task} {a : LampStep} (h : Silenced b)
    (hstep : step b (.lamp t a) = some b') : False := by
  obtain ⟨halive, l, hl, -⟩ := step_lamp_eq_some hstep
  have hcritical : (b.lamp.point t).critical = true → False := by
    intro ht
    have hheld := (h.reached.owned.exclusive.holder t).mpr ht
    rw [h.held] at hheld
    exact h.not_alive (Option.some.inj hheld ▸ halive)
  rcases step_eq_some hl with ⟨c, -, -, hfree, -⟩ | ⟨c, -, hp, -⟩ | ⟨c, ok, -, hp, -⟩ |
    ⟨c, -, hp, -⟩
  · rw [h.held] at hfree
    cases hfree
  · exact hcritical (by rw [hp]; rfl)
  · exact hcritical (by rw [hp]; rfl)
  · exact hcritical (by rw [hp]; rfl)

/-- How many of the living callers are outside the lamp commands. -/
def idleCallers (b : Board) : ℕ :=
  (decide (b.lamp.point .detectBrake1 = .outside)).toNat +
    (decide (b.lamp.point .bleCallback = .outside)).toNat

/-- What a step leaves of a silenced lamp: the bus, every call in its place, and the
room for at most one more call of each living caller. -/
structure Frozen (b b' : Board) : Prop where
  bus : b'.lamp.bus = b.lamp.bus
  point : ∀ t, b.lamp.point t ≠ .outside → b'.lamp.point t = b.lamp.point t
  issued : b'.lamp.issued.length + idleCallers b' ≤ b.lamp.issued.length + idleCallers b

theorem Frozen.refl (b : Board) : Frozen b b := ⟨rfl, fun _ _ => rfl, le_rfl⟩

theorem Frozen.trans {b c d : Board} (h : Frozen b c) (h' : Frozen c d) : Frozen b d where
  bus := h'.bus.trans h.bus
  point t ht := by
    have hc := h.point t ht
    exact (h'.point t (hc ▸ ht)).trans hc
  issued := h'.issued.trans h.issued

theorem frozen_of_lamp {b b' : Board} (h : b'.lamp = b.lamp) : Frozen b b' := by
  refine ⟨by rw [h], fun t _ => by rw [h], ?_⟩
  rw [idleCallers, idleCallers, h]

theorem frozen_of_sendSignal {b b' : Board} {t : Task} {c : UInt8}
    (ht : t = .detectBrake1 ∨ t = .bleCallback)
    (h : sendSignal c b.lamp t = some b'.lamp) : Frozen b b' := by
  obtain ⟨hout, hl⟩ := sendSignal_eq_some h
  refine ⟨by rw [hl]; rfl, ?_, ?_⟩
  · intro u hu
    have hut : u ≠ t := by
      rintro rfl
      exact hu hout
    rw [hl]
    exact point_setPoint_of_ne b.lamp _ hut
  · rcases ht with rfl | rfl
    · simp [idleCallers, hl, hout, Lamp.setPoint]
      omega
    · simp [idleCallers, hl, hout, Lamp.setPoint]
      omega

theorem Silenced.step {b b' : Board} {e : BoardEvent} (h : Silenced b)
    (hstep : BoardSystem.step b e = some b') : Silenced b' ∧ Frozen b b' := by
  have hdeleted : b'.net.tasks.status udpTask = .deleted := by
    rcases board_status_step h.reached.consistent (t := udpTask) (by simp) hstep with
      heq | ⟨habsent, -⟩ | ⟨halive, -⟩
    · exact heq.trans h.deleted
    · rw [h.deleted] at habsent
      cases habsent
    · exact absurd halive h.not_alive
  rcases lamp_cases hstep with heq | ⟨t, a, rfl, -⟩ | ⟨t, c, ht, hl⟩
  · exact ⟨⟨h.reached.step hstep, heq ▸ h.held, hdeleted⟩, frozen_of_lamp heq⟩
  · exact (h.no_statement hstep).elim
  · have hcaller : t = .detectBrake1 ∨ t = .bleCallback := by
      rcases ht with rfl | rfl | rfl
      · exact .inl rfl
      · -- the server holds the mutex, so it is not about to enter a call
        have hcritical := (h.reached.owned.exclusive.holder udpTask).mp h.held
        rw [(sendSignal_eq_some hl).1] at hcritical
        cases hcritical
      · exact .inr rfl
    refine ⟨⟨h.reached.step hstep, ?_, hdeleted⟩, frozen_of_sendSignal hcaller hl⟩
    obtain ⟨-, hl'⟩ := sendSignal_eq_some hl
    rw [hl']
    exact h.held

theorem Silenced.run {b b' : Board} {es : List BoardEvent} (h : Silenced b)
    (hrun : TransitionSystem.run BoardSystem.step b es = some b') :
    Silenced b' ∧ Frozen b b' := by
  have hstep : ∀ c e d, Silenced c ∧ Frozen b c → BoardSystem.step c e = some d →
      Silenced d ∧ Frozen b d := by
    intro c e d hc hs
    obtain ⟨hsilenced, hfrozen⟩ := hc.1.step hs
    exact ⟨hsilenced, hc.2.trans hfrozen⟩
  exact invariant_of_run hstep ⟨h, Frozen.refl b⟩ hrun

/-- In every reachable state, a living task that is inside a lamp command can bring it to
its end by at most seven statements of lamp code, its byte, if not yet transmitted, being
the last one on the bus, exactly if `cmd_mutex` is free or held by a living task; otherwise
nothing at all that the board may do still ends the call. -/
theorem call_completes_iff (n : Storage.Nvs) (read : Bool) (ok : Fin 4 → Bool)
    (es : List BoardEvent) (b : Board)
    (hrun : run BoardSystem.step (boot n read ok) es = some b) (t : Task)
    (halive : alive b t) (hp : b.lamp.point t ≠ .outside) :
    List.TFAE [
      HolderAlive b,
      ∃ (xs : List (Task × LampStep)) (b' : Board), xs.length ≤ 7 ∧
        run BoardSystem.step b (xs.map lampEvent) = some b' ∧
        b'.lamp.point t = .outside ∧
        ∀ c, (b.lamp.point t).Pending c → b'.lamp.bus.head? = some (t, c),
      ∃ fs b', run BoardSystem.step b fs = some b' ∧ b'.lamp.point t = .outside] := by
  have hb := reached_of_run hrun
  tfae_have 1 → 2 := by
    intro hholder
    obtain ⟨xs, l, hxs, hlength, htasks, hout, hbus⟩ :=
      exists_completion hb.owned.exclusive hp
    refine ⟨xs, _, hlength, run_statements ?_ hxs, hout, ?_⟩
    · intro x hx
      rcases htasks x hx with heq | hheld
      · exact heq ▸ halive
      · exact hholder x.1 hheld
    · intro c hc
      obtain ⟨bus, hbus, -⟩ := hbus c hc
      exact congrArg List.head? hbus
  tfae_have 2 → 3 := by
    rintro ⟨xs, b', -, hxs, hout, -⟩
    exact ⟨_, b', hxs, hout⟩
  tfae_have 3 → 1 := by
    rintro ⟨fs, b', hfs, hout⟩
    by_contra horphan
    obtain ⟨-, hfrozen⟩ := (silenced_of_orphaned hb horphan).run hfs
    exact hp ((hfrozen.point t hp).symm.trans hout)
  tfae_finish

/-- The UDP server is inside its transfer when the detector calls: both finish. -/
theorem call_completes_behind_server :
    ∃ (b : Board) (xs : List (Task × LampStep)) (b' : Board),
      run BoardSystem.step (boot ⟨none, none⟩ true fun _ => true)
        (online ++ brakeCommand ++ [.detect .brake]) = some b ∧
      run BoardSystem.step b (xs.map lampEvent) = some b' ∧
      b'.lamp.bus.head? = some (.detectBrake1, 'B'.toUInt8) := by
  obtain ⟨b, hrun, hb⟩ := exists_run_of_any
    (show (run BoardSystem.step (boot ⟨none, none⟩ true fun _ => true)
      (online ++ brakeCommand ++ [.detect .brake])).any
      (fun b => decide (b.lamp.cmdMutex = some udpTask ∧ alive b udpTask ∧
        alive b .detectBrake1 ∧
        b.lamp.point .detectBrake1 = .waiting 'B'.toUInt8)) = true by decide)
  obtain ⟨hheld, hserver, hdetector, hwait⟩ := of_decide_eq_true hb
  have hholder : HolderAlive b := by
    intro t ht
    rw [hheld] at ht
    exact Option.some.inj ht ▸ hserver
  obtain ⟨xs, b', -, hxs, -, hbus⟩ :=
    ((call_completes_iff ⟨none, none⟩ true (fun _ => true) _ b hrun .detectBrake1 hdetector
      (by simp [hwait])).out 0 1).mp hholder
  exact ⟨b, xs, b', hrun, hxs, hbus _ (.inl hwait)⟩

/-- Once the holder of `cmd_mutex` is deleted, the board never recovers: whatever happens,
no further byte reaches the LED controller, every call that is under way stays where it
is, and the living tasks start at most two more. -/
theorem orphaned_lamp_is_silent (n : Storage.Nvs) (read : Bool) (ok : Fin 4 → Bool)
    (es fs : List BoardEvent) (b b' : Board)
    (hrun : run BoardSystem.step (boot n read ok) es = some b) (horphan : ¬ HolderAlive b)
    (hlater : run BoardSystem.step b fs = some b') :
    ¬ HolderAlive b' ∧ b'.lamp.bus = b.lamp.bus ∧
      (∀ t, b.lamp.point t ≠ .outside → b'.lamp.point t = b.lamp.point t) ∧
      b'.lamp.issued.length ≤ b.lamp.issued.length + 2 := by
  obtain ⟨hsilenced, hfrozen⟩ :=
    (silenced_of_orphaned (reached_of_run hrun) horphan).run hlater
  refine ⟨hsilenced.not_holderAlive, hfrozen.bus, hfrozen.point, ?_⟩
  have hissued := hfrozen.issued
  have hidle : idleCallers b ≤ 2 := by
    rw [idleCallers]
    have hdetector := Bool.toNat_le (decide (b.lamp.point .detectBrake1 = .outside))
    have hcallback := Bool.toNat_le (decide (b.lamp.point .bleCallback = .outside))
    omega
  omega

/-- The detector and the Bluetooth callback each make the one call they have left. -/
theorem orphaned_lamp_is_silent_two_calls :
    ∃ b b', run BoardSystem.step (boot ⟨none, none⟩ true fun _ => true)
        (online ++ brakeCommand ++ dropNetwork) = some b ∧
      run BoardSystem.step b [.detect .brake, .notify 'L'.toUInt8] = some b' ∧
      b'.lamp.issued.length = b.lamp.issued.length + 2 ∧ b'.lamp.bus = b.lamp.bus := by
  obtain ⟨b, hrun, hb⟩ := exists_run_of_any
    (show (run BoardSystem.step (boot ⟨none, none⟩ true fun _ => true)
      (online ++ brakeCommand ++ dropNetwork)).any
      (fun b => decide (b.lamp.cmdMutex = some udpTask ∧ ¬ alive b udpTask) &&
        (run BoardSystem.step b [.detect .brake, .notify 'L'.toUInt8]).any fun b' =>
          decide (b'.lamp.issued.length = b.lamp.issued.length + 2)) = true by decide)
  simp only [Bool.and_eq_true, decide_eq_true_eq] at hb
  obtain ⟨⟨hheld, hdead⟩, hnext⟩ := hb
  obtain ⟨b', hlater, hissued⟩ := exists_run_of_any hnext
  obtain ⟨-, hbus, -⟩ := orphaned_lamp_is_silent ⟨none, none⟩ true (fun _ => true) _ _ b b'
    hrun (fun h => hdead (h udpTask hheld)) hlater
  exact ⟨b, b', hrun, hlater, of_decide_eq_true hissued, hbus⟩

end BikeMcu.LampProgress
