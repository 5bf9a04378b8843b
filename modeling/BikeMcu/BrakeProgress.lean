import BikeMcu.LampProgress

namespace BikeMcu.BrakeProgress

open BikeMcu.TransitionSystem
open BikeMcu.LampCommands
open BikeMcu.NetworkLifecycle
open BikeMcu.BrakeDetector
open BikeMcu.BoardSystem
open BikeMcu.LampOwnership
open BikeMcu.LampMutex
open BikeMcu.LampProgress

/-- The statements of the lamp commands and of the detector. -/
def isLampStatement : BoardEvent → Bool
  | .lamp _ _ | .detect _ => true
  | _ => false

structure Ready (b : Board) : Prop where
  reached : Reached b
  holder : HolderAlive b

theorem Ready.step {b b' : Board} {e : BoardEvent} (h : Ready b)
    (he : isLampStatement e = true) (hstep : BoardSystem.step b e = some b') : Ready b' := by
  refine ⟨h.reached.step hstep, ?_⟩
  refine (holderAlive_step_iff h.reached.consistent h.reached.owned h.holder hstep).mpr ?_
  cases e <;> first | rfl | cases he

/-- The detector's byte for a brake is the latest on the bus, and it was not there. -/
def BrakeLit (b b' : Board) : Prop :=
  ∃ bus, b'.lamp.bus = (.detectBrake1, 'B'.toUInt8) :: bus ∧ b.lamp.bus <:+ bus

def CanBrake (k : ℕ) (b : Board) : Prop :=
  ∃ fs b', fs.length ≤ k ∧ (∀ e ∈ fs, isLampStatement e = true) ∧
    run BoardSystem.step b fs = some b' ∧ BrakeLit b b'

theorem CanBrake.after {j k : ℕ} {b m : Board} {fs : List BoardEvent}
    (hfs : fs.length ≤ j) (hown : ∀ e ∈ fs, isLampStatement e = true)
    (hrun : run BoardSystem.step b fs = some m) (hbus : b.lamp.bus <:+ m.lamp.bus)
    (h : CanBrake k m) : CanBrake (j + k) b := by
  obtain ⟨gs, b', hgs, hown', hrun', bus, hlit, hsuffix⟩ := h
  refine ⟨fs ++ gs, b', ?_, ?_, run_append_eq_some.mpr ⟨m, hrun, hrun'⟩, bus, hlit,
    hbus.trans hsuffix⟩
  · rw [List.length_append]
    omega
  · intro e he
    rcases List.mem_append.mp he with he | he
    · exact hown e he
    · exact hown' e he

theorem CanBrake.mono {j k : ℕ} {b : Board} (h : CanBrake j b) (hjk : j ≤ k) :
    CanBrake k b := by
  obtain ⟨fs, b', hfs, h⟩ := h
  exact ⟨fs, b', hfs.trans hjk, h⟩

theorem CanBrake.detect {k : ℕ} {b m : Board} {a : DetectStep}
    (hstep : BoardSystem.step b (.detect a) = some m) (hbus : m.lamp.bus = b.lamp.bus)
    (h : CanBrake k m) : CanBrake (1 + k) b := by
  have hlength : [BoardEvent.detect a].length ≤ 1 := le_rfl
  have hrun : run BoardSystem.step b [.detect a] = some m :=
    run_cons_eq_some.mpr ⟨m, hstep, rfl⟩
  exact h.after hlength (by simp [isLampStatement]) hrun (hbus ▸ List.suffix_refl _)

theorem Ready.run {b b' : Board} {fs : List BoardEvent} (h : Ready b)
    (hfs : ∀ e ∈ fs, isLampStatement e = true)
    (hrun : TransitionSystem.run BoardSystem.step b fs = some b') : Ready b' := by
  induction fs generalizing b with
  | nil =>
      obtain rfl : b = b' := by simpa [TransitionSystem.run] using hrun
      exact h
  | cons e fs ih =>
      obtain ⟨m, hm, htail⟩ := run_cons_eq_some.mp hrun
      obtain ⟨he, hfs⟩ := List.forall_mem_cons.mp hfs
      exact ih (h.step he hm) hfs htail

/-- The detector's call, if it is in one, is brought to its end. -/
theorem exists_outside {b : Board} (h : Ready b) :
    ∃ fs b', fs.length ≤ 7 ∧ (∀ e ∈ fs, isLampStatement e = true) ∧
      run BoardSystem.step b fs = some b' ∧ Ready b' ∧ b'.detector = b.detector ∧
      b'.lamp.point .detectBrake1 = .outside ∧ b.lamp.bus <:+ b'.lamp.bus ∧
      ((b.lamp.point .detectBrake1).Pending 'B'.toUInt8 → BrakeLit b b') := by
  by_cases hp : b.lamp.point .detectBrake1 = .outside
  · refine ⟨[], b, by simp, by simp, rfl, h, rfl, hp, List.suffix_refl _, ?_⟩
    intro hpending
    simp [hp, SendPoint.Pending] at hpending
  · obtain ⟨xs, l, hxs, hlength, htasks, hout, hbus⟩ :=
      exists_completion h.reached.owned.exclusive hp
    have halive : ∀ x ∈ xs, alive b x.1 := by
      intro x hx
      rcases htasks x hx with heq | hheld
      · exact heq ▸ h.reached.resident _ (.inl rfl)
      · exact h.holder x.1 hheld
    have hown : ∀ e ∈ xs.map lampEvent, isLampStatement e = true := by
      intro e he
      obtain ⟨x, -, rfl⟩ := List.mem_map.mp he
      rfl
    have hrun := run_statements halive hxs
    exact ⟨xs.map lampEvent, _, by rwa [List.length_map], hown, hrun, h.run hown hrun, rfl,
      hout, bus_suffix_of_run hxs, fun hpending => hbus _ hpending⟩

theorem canBrake_sampling {b : Board} (h : Ready b) (hd : b.detector = .sampling)
    (hp : b.lamp.point .detectBrake1 = .outside) : CanBrake 8 b := by
  let m : Board := { b with
    lamp := { b.lamp.setPoint .detectBrake1 (.waiting 'B'.toUInt8) with
      issued := (.detectBrake1, 'B'.toUInt8) :: b.lamp.issued }
    detector := .braking }
  have hstep : BoardSystem.step b (.detect .brake) = some m := by
    simp [BoardSystem.step, detectStep, hd, sendBrakeSignal, sendSignal, hp, m]
  obtain ⟨fs, b', hlength, hown, hrun, -, -, -, -, hlit⟩ := exists_outside (h.step rfl hstep)
  have hwait : m.lamp.point .detectBrake1 = .waiting 'B'.toUInt8 := by simp [m]
  exact CanBrake.detect (k := 7) hstep rfl
    ⟨fs, b', hlength, hown, hrun, hlit (.inl hwait)⟩

theorem canBrake_restoring {b : Board} (h : Ready b) (hd : b.detector = .restoring) :
    CanBrake 16 b := by
  obtain ⟨fs, m, hlength, hown, hrun, hm, hdm, hout, hbus, -⟩ := exists_outside h
  have hstep : BoardSystem.step m (.detect .restored) =
      some { m with detector := .sampling } := by
    simp [BoardSystem.step, detectStep, hdm, hd, hout]
  have hnext := canBrake_sampling (hm.step rfl hstep) rfl hout
  exact (hnext.detect hstep rfl).after hlength hown hrun hbus

theorem canBrake_holding {b : Board} (h : Ready b) (hd : b.detector = .holding)
    (hp : b.lamp.point .detectBrake1 = .outside) : CanBrake 17 b := by
  let m : Board := { b with
    lamp := { b.lamp.setPoint .detectBrake1 (.waiting (restoreSignal b).byte) with
      issued := (.detectBrake1, (restoreSignal b).byte) :: b.lamp.issued }
    detector := .restoring }
  have hstep : BoardSystem.step b (.detect .wake) = some m := by
    simp [BoardSystem.step, detectStep, hd, Signal.send_eq, sendSignal, hp, m]
  exact (canBrake_restoring (h.step rfl hstep) rfl).detect hstep rfl

theorem canBrake_of_ready {b : Board} (h : Ready b) : CanBrake 25 b := by
  obtain ⟨fs, m, hlength, hown, hrun, hm, hdm, hout, hbus, -⟩ := exists_outside h
  have hnext : CanBrake 18 m := by
    cases hd : b.detector with
    | sampling => exact (canBrake_sampling hm (hdm.trans hd) hout).mono (by omega)
    | holding => exact (canBrake_holding hm (hdm.trans hd) hout).mono (by omega)
    | restoring => exact (canBrake_restoring hm (hdm.trans hd)).mono (by omega)
    | braking =>
        have hstep : BoardSystem.step m (.detect .signalled) =
            some { m with detector := .holding } := by
          simp [BoardSystem.step, detectStep, hdm, hd, hout]
        exact (canBrake_holding (hm.step rfl hstep) rfl hout).detect hstep rfl
  exact hnext.after hlength hown hrun hbus

/-- In every reachable state the detector can come to light the brake light again, wherever
it stands in a hold and given that its next window brakes, by at most 25 statements of its
own and of lamp code, exactly if `cmd_mutex` is free or held by a living task; otherwise
nothing the board may do puts another byte on the bus. The decision on the window counts as
one of the statements, the ten samples it takes do not. -/
theorem brake_light_available_iff (n : Storage.Nvs) (read : Bool) (ok : Fin 4 → Bool)
    (es : List BoardEvent) (b : Board)
    (hrun : run BoardSystem.step (boot n read ok) es = some b) :
    List.TFAE [HolderAlive b, CanBrake 25 b,
      ∃ fs b', run BoardSystem.step b fs = some b' ∧ b'.lamp.bus ≠ b.lamp.bus] := by
  have hb := reached_of_run hrun
  tfae_have 1 → 2 := fun hholder => canBrake_of_ready ⟨hb, hholder⟩
  tfae_have 2 → 3 := by
    rintro ⟨fs, b', -, -, hfs, bus, hlit, hsuffix⟩
    refine ⟨fs, b', hfs, ?_⟩
    intro hsame
    have hlength := hsuffix.length_le
    rw [← hsame, hlit, List.length_cons] at hlength
    omega
  tfae_have 3 → 1 := by
    rintro ⟨fs, b', hfs, hbus⟩
    by_contra horphan
    exact hbus ((silenced_of_orphaned hb horphan).run hfs).2.bus
  tfae_finish

/-- The UDP server is inside its transfer when the detector calls for a brake. -/
theorem brake_light_available_behind_server :
    ∃ b, run BoardSystem.step (boot ⟨none, none⟩ true fun _ => true)
        (online ++ brakeCommand ++ [.detect .brake]) = some b ∧
      b.lamp.cmdMutex = some udpTask ∧ CanBrake 25 b := by
  obtain ⟨b, hrun, hb⟩ := exists_run_of_any
    (show (run BoardSystem.step (boot ⟨none, none⟩ true fun _ => true)
      (online ++ brakeCommand ++ [.detect .brake])).any
      (fun b => decide (b.lamp.cmdMutex = some udpTask ∧ alive b udpTask)) = true by decide)
  obtain ⟨hheld, hserver⟩ := of_decide_eq_true hb
  have hholder : HolderAlive b := by
    intro t ht
    rw [hheld] at ht
    exact Option.some.inj ht ▸ hserver
  exact ⟨b, hrun, hheld,
    ((brake_light_available_iff ⟨none, none⟩ true (fun _ => true) _ b hrun).out 0 1).mp hholder⟩

end BikeMcu.BrakeProgress
