import BikeMcu.LampOwnership

namespace BikeMcu.LampMutex

open BikeMcu.TransitionSystem
open BikeMcu.LampCommands
open BikeMcu.UdpServer
open BikeMcu.NetworkLifecycle
open BikeMcu.BoardSystem
open BikeMcu.TaskHandles
open BikeMcu.LampOwnership

def HolderAlive (b : Board) : Prop :=
  ∀ t, b.lamp.cmdMutex = some t → alive b t

/-- The monitor does not execute `stop_udp_server_task` while the UDP server is
between the take and the give of a lamp command. -/
def sparesLampCommand (b : Board) (e : BoardEvent) : Bool :=
  match e with
  | .monitor =>
      !(decide (b.net.monitor = .stopping (.stopTask .udpServer)) &&
        (b.lamp.point udpTask).critical)
  | _ => true

theorem holder_before {b b' : Board} {e : BoardEvent} {t : Task}
    (hstep : step b e = some b') (ht : b'.lamp.cmdMutex = some t) :
    b.lamp.cmdMutex = some t ∨ ∃ a, e = .lamp t a := by
  rcases lamp_cases hstep with heq | ⟨u, a, rfl, hl⟩ | ⟨u, c, -, hl⟩
  · exact .inl (heq ▸ ht)
  · rcases step_eq_some hl with ⟨c, rfl, -, -, heq⟩ | ⟨c, rfl, -, heq⟩ |
      ⟨c, ok, rfl, -, heq⟩ | ⟨c, rfl, -, heq⟩
    · rw [heq] at ht
      exact .inr ⟨.take, by rw [Option.some.inj ht]⟩
    · exact .inl (by rw [heq] at ht; exact ht)
    · exact .inl (by rw [heq] at ht; exact ht)
    · rw [heq] at ht
      cases ht
  · obtain ⟨-, heq⟩ := sendSignal_eq_some hl
    exact .inl (by rw [heq] at ht; exact ht)

theorem alive_before {b b' : Board} {e : BoardEvent} {t : Task}
    (h : HolderAlive b) (hstep : step b e = some b')
    (ht : b'.lamp.cmdMutex = some t) : alive b t := by
  rcases holder_before hstep ht with hold | ⟨a, rfl⟩
  · exact h t hold
  · exact (step_lamp_eq_some hstep).1

/-- Which step can kill a task that is inside a lamp command: only the teardown
of the UDP server. -/
theorem interrupts_of_dies {b b' : Board} {e : BoardEvent} {t : Task}
    (hc : Consistent b.net) (ho : Owned b) (hstep : step b e = some b')
    (ht : (b.lamp.point t).critical = true)
    (halive : alive b t) (hdead : ¬ alive b' t) :
    t = udpTask ∧ e = .monitor ∧
      b.net.monitor = .stopping (.stopTask .udpServer) := by
  have hcaller := ho.callers t (by rintro hout; simp [hout, SendPoint.critical] at ht)
  cases hlabel : networkLabel e with
  | none =>
      have hnet : b'.net = b.net := networkProjection.stutter b e b' hlabel hstep
      simp [alive, hnet] at hdead
      exact absurd halive hdead
  | some f =>
      have hnet : NetworkLifecycle.step b.net f = some b'.net :=
        networkProjection.simulate b e b' f hlabel hstep
      rcases dies_cases hc hnet halive hdead with ⟨n, rfl, rfl, hstop⟩ | rfl | ⟨rfl, rfl⟩
      · have hn : n = .udpServer := by simpa using hcaller
        subst n
        refine ⟨rfl, ?_, hstop⟩
        cases e with
        | udp a => cases a <;> simp [networkLabel] at hlabel
        | monitor => rfl
        | _ => simp [networkLabel] at hlabel
      · simp at hcaller
      · -- the server deletes itself behind its loops, outside every call
        cases e with
        | udp a =>
            obtain ⟨-, u, b₁, hu, -, -⟩ := step_udp_eq_some hstep
            have ha : a = .exit := by cases a <;> simp_all [networkLabel]
            subst a
            have hpoint : ∀ todo, b.udp.point ≠ .signalling todo := fun todo htodo => by
              cases returned_of_signalling htodo hu
            simp [ho.udp hpoint, SendPoint.critical] at ht
        | _ => simp [networkLabel] at hlabel

theorem holderAlive_step_iff {b b' : Board} {e : BoardEvent}
    (hc : Consistent b.net) (ho : Owned b) (h : HolderAlive b)
    (hstep : step b e = some b') :
    HolderAlive b' ↔ sparesLampCommand b e = true := by
  constructor
  · intro h'
    cases e with
    | monitor =>
        by_contra hspare
        simp only [sparesLampCommand, Bool.not_eq_true', Bool.not_eq_false,
          Bool.and_eq_true, decide_eq_true_eq] at hspare
        obtain ⟨hstop, hcritical⟩ := hspare
        obtain ⟨n, hn, rfl⟩ := netStep_eq_some hstep
        have hdead := h' udpTask ((ho.exclusive.holder udpTask).mpr hcritical)
        rcases monitorStep_cases hn with ⟨hwait, -⟩ | ⟨p, -, hp, rfl⟩ | ⟨hdone, -⟩
        · simp [hstop] at hwait
        · have hpu : StopPoint.stopTask .udpServer = p := by
            simpa [hstop] using hp
          subst p
          exact not_alive_stopTask hc .udpServer hdead
        · simp [hstop] at hdone
    | _ => rfl
  · intro hspare t ht
    have halive := alive_before h hstep ht
    by_contra hdead
    have hlabel : networkLabel e ≠ none := by
      intro hnone
      have hnet : b'.net = b.net := networkProjection.stutter b e b' hnone hstep
      exact hdead (by simpa [alive, hnet] using halive)
    rcases holder_before hstep ht with hold | ⟨a, rfl⟩
    · have hcritical := (ho.exclusive.holder t).mp hold
      obtain ⟨rfl, rfl, hstop⟩ := interrupts_of_dies hc ho hstep hcritical halive hdead
      simp [sparesLampCommand, hstop, hcritical] at hspare
    · exact hlabel rfl

/-- In every run of the board, the lamp mutex is free or held by a living task
in every state exactly if `stop_udp_server_task` never hits the UDP server
between the take and the give of a lamp command. -/
theorem holderAlive_always_iff (n : Storage.Nvs) (read : Bool) (ok : Fin 4 → Bool)
    (es : List BoardEvent) (b : Board)
    (hrun : run BoardSystem.step (boot n read ok) es = some b) :
    Always BoardSystem.step HolderAlive (boot n read ok) es ↔
      EachStep BoardSystem.step (fun b e => sparesLampCommand b e = true)
        (boot n read ok) es := by
  have hinit : Consistent (boot n read ok).net ∧ Owned (boot n read ok) :=
    ⟨consistent_init, owned_boot n read ok⟩
  have hfree : HolderAlive (boot n read ok) := fun t ht => by
    simp [boot, i2cInit, sendAlone, lampInit] at ht
  have hinv : ∀ (b : Board) e b', Consistent b.net ∧ Owned b →
      BoardSystem.step b e = some b' → Consistent b'.net ∧ Owned b' :=
    fun b e b' h hs => ⟨consistent_board h.1 hs, h.2.step hs⟩
  exact always_iff_eachStep hinv
    (fun b e b' h hl hs => holderAlive_step_iff h.1 h.2 hl hs) hinit hfree hrun

def brakeCommand : List BoardEvent :=
  [.udp (.socket true), .udp (.bind true),
    .udp (.recvfrom (some ['B'.toUInt8, '\n'.toUInt8])), .udp (.call .brake),
    .lamp udpTask .take, .lamp udpTask .record]

def brakeReturns : List BoardEvent :=
  [.lamp udpTask (.transmit true), .lamp udpTask .give, .udp .returned]

def dropNetwork : List BoardEvent :=
  List.replicate 11 (.post .staDisconnected) ++ List.replicate 3 .monitor

theorem holderAlive_teardown_between_commands :
    ∃ b, run BoardSystem.step (boot ⟨none, none⟩ true fun _ => true)
        (online ++ brakeCommand ++ brakeReturns ++ dropNetwork) = some b ∧
      HolderAlive b := by
  obtain ⟨b, hrun, -⟩ := exists_run_of_any
    (show (run BoardSystem.step (boot ⟨none, none⟩ true fun _ => true)
      (online ++ brakeCommand ++ brakeReturns ++ dropNetwork)).any
      (fun _ => true) = true by decide)
  have hall := (holderAlive_always_iff ⟨none, none⟩ true (fun _ => true) _ b hrun).mpr
    (by decide)
  exact ⟨b, hrun, always_last hall hrun⟩

/-- The WiFi fails while a lamp command is inside its transfer: the mutex stays
with the deleted UDP server. -/
theorem teardown_orphans_mutex :
    ¬ ∀ (n : Storage.Nvs) (read : Bool) (ok : Fin 4 → Bool) (es : List BoardEvent)
      (b : Board), run BoardSystem.step (boot n read ok) es = some b →
        HolderAlive b := by
  intro h
  obtain ⟨b, hrun, hb⟩ := exists_run_of_any
    (show (run BoardSystem.step (boot ⟨none, none⟩ true fun _ => true)
      (online ++ brakeCommand ++ dropNetwork)).any
      (fun b => decide (b.lamp.cmdMutex = some udpTask ∧
        b.net.tasks.status udpTask = .deleted)) = true by decide)
  have horphan := of_decide_eq_true hb
  have halive := h _ _ _ _ b hrun udpTask horphan.1
  simp [alive, horphan.2] at halive

end BikeMcu.LampMutex
