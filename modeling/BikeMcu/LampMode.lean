import BikeMcu.BrakeHold

/-!
The lamp mode lives twice: in `BMCU_TAILLIGHT_ENABLE`, written by `i2c_init`
alone, and in the NVS cell, written by the 'O' and 'S' commands.
-/

namespace BikeMcu.LampMode

open BikeMcu.TransitionSystem
open BikeMcu.LampCommands
open BikeMcu.Storage
open BikeMcu.UdpServer
open BikeMcu.BoardSystem
open BikeMcu.BrakeHold

def storedBy : Action → Option UInt8
  | .send _ => none
  | .storageWriteChar c => some c

def pendingStores : UdpPoint → List UInt8
  | .command todo => todo.filterMap storedBy
  | .signalling todo => todo.filterMap storedBy
  | .storing c _ todo => c :: todo.filterMap storedBy
  | _ => []

/-- The stores ahead of the server, each with the NVS call it has reached. -/
def stores : UdpPoint → List (UInt8 × StoragePoint)
  | .command todo => (todo.filterMap storedBy).map fun c => (c, .nvsOpen)
  | .signalling todo => (todo.filterMap storedBy).map fun c => (c, .nvsOpen)
  | .storing c p todo => (c, p) :: (todo.filterMap storedBy).map fun c => (c, .nvsOpen)
  | _ => []

def SameMode (enable : Bool) (cell : Option UInt8) : Prop :=
  enable = false ↔ cell = some 'O'.toUInt8

structure ModesAgree (b : Board) : Prop where
  stored : SameMode b.bmcuTaillightEnable b.udp.nvs.stored
  durable : SameMode b.bmcuTaillightEnable b.udp.nvs.durable
  pending : ∀ c ∈ pendingStores b.udp.point, SameMode b.bmcuTaillightEnable (some c)

/-- The command does not change the lamp mode this boot came up in. -/
def keepsModeCommand (enable : Bool) (command : UInt8) : Bool :=
  if command = 'O'.toUInt8 then !enable
  else if command = 'S'.toUInt8 then enable
  else true

def keepsMode (b : Board) (e : BoardEvent) : Bool :=
  match e with
  | .udp (.recvfrom (some [command, _])) =>
      keepsModeCommand b.bmcuTaillightEnable command
  | _ => true

theorem mem_storedBy_commandHandler {c command : UInt8}
    (hc : c ∈ (commandHandler command).filterMap storedBy) :
    c = command ∧ (command = 'O'.toUInt8 ∨ command = 'S'.toUInt8) := by
  unfold commandHandler at hc
  split at hc
  · simp [storedBy] at hc
  split at hc
  · simp [storedBy] at hc
  split at hc
  · simp [storedBy] at hc
  split at hc
  · simp [storedBy] at hc
  split at hc
  · rename_i hcommand
    have hO : 'O'.toUInt8 = c := by simpa [storedBy] using hc
    exact ⟨hO.symm.trans hcommand.symm, .inl hcommand⟩
  split at hc
  · rename_i hcommand
    have hS : 'S'.toUInt8 = c := by simpa [storedBy] using hc
    exact ⟨hS.symm.trans hcommand.symm, .inr hcommand⟩
  · cases hc

/-- Only a datagram of two bytes makes the server store anything, and the limit
on `recvfrom` does not shorten it. -/
theorem mem_storedBy_handleDatagram {c : UInt8} {d : List UInt8}
    (hc : c ∈ (handleDatagram (d.take rxLimit)).filterMap storedBy) :
    ∃ command x, d = [command, x] ∧
      c ∈ (commandHandler command).filterMap storedBy := by
  unfold handleDatagram at hc
  split at hc
  · rename_i command x heq
    have hlen : (d.take rxLimit).length = 2 := by rw [heq]; rfl
    have hshort : d.length ≤ rxLimit := by
      rw [List.length_take] at hlen
      unfold rxLimit at hlen ⊢
      omega
    exact ⟨command, x, by rw [← heq, List.take_of_length_le hshort], hc⟩
  · cases hc

theorem sameMode_of_keepsModeCommand {enable : Bool} {c command : UInt8}
    (hkeep : keepsModeCommand enable command = true)
    (hc : c ∈ (commandHandler command).filterMap storedBy) :
    SameMode enable (some c) := by
  obtain ⟨rfl, rfl | rfl⟩ := mem_storedBy_commandHandler hc
  · have henable : enable = false := by simpa [keepsModeCommand] using hkeep
    simp [SameMode, henable]
  · have henable : enable = true := by
      simpa [keepsModeCommand, show 'S'.toUInt8 ≠ 'O'.toUInt8 by decide] using hkeep
    simp [SameMode, henable, show 'S'.toUInt8 ≠ 'O'.toUInt8 by decide]

/-- What a statement of the server does to the cell and to the stores ahead. -/
theorem stores_step {s s' : Server} {a : UdpStep}
    (hstep : UdpServer.step s a = some s') :
    (∃ d, a = .recvfrom (some d) ∧ s.point = .recvfrom ∧ s'.nvs = s.nvs ∧
      s'.point = .command (handleDatagram (d.take rxLimit))) ∨
    (∃ c p todo ok, a = .storage ok ∧ s.point = .storing c p todo ∧
      s'.nvs = (Storage.storageWriteChar c ok s.nvs p).1 ∧
      s'.point = ((Storage.storageWriteChar c ok s.nvs p).2.elim (.command todo)
        fun q => .storing c q todo)) ∨
    ((∀ d, a ≠ .recvfrom (some d)) ∧ (∀ ok, a ≠ .storage ok) ∧ s'.nvs = s.nvs ∧
      stores s'.point = stores s.point) := by
  cases udpMove hstep with
  | received hpoint d => exact .inl ⟨d, rfl, hpoint, rfl, rfl⟩
  | @storage c p todo hpoint ok =>
      refine .inr (.inl ⟨c, p, todo, ok, rfl, hpoint, rfl, ?_⟩)
      cases (Storage.storageWriteChar c ok s.nvs p).2 with
      | none => rfl
      | some q => rfl
  | sendto hpoint ok => cases ok <;> exact .inr (.inr ⟨by simp, by simp, rfl, hpoint ▸ rfl⟩)
  | socketCreated hpoint
  | socketFailed hpoint
  | bind hpoint ok
  | call hpoint
  | returned hpoint
  | store hpoint
  | close hpoint => exact .inr (.inr ⟨by simp, by simp, rfl, hpoint ▸ rfl⟩)
  | recvfromFailed hpoint
  | exit hpoint => exact .inr (.inr ⟨by simp, by simp, rfl, rfl⟩)

theorem pendingStores_eq (p : UdpPoint) : pendingStores p = (stores p).map Prod.fst := by
  cases p <;> simp [pendingStores, stores, Function.comp_def]

theorem pendingStores_step {s s' : Server} {a : UdpStep} {c : UInt8}
    (hstep : UdpServer.step s a = some s') (hc : c ∈ pendingStores s'.point) :
    c ∈ pendingStores s.point ∨ ∃ d, a = .recvfrom (some d) ∧
      c ∈ (handleDatagram (d.take rxLimit)).filterMap storedBy := by
  rcases stores_step hstep with ⟨d, rfl, -, -, hnext⟩ |
    ⟨c', p, todo, ok, rfl, hpoint, -, hnext⟩ | ⟨-, -, -, hnext⟩
  · rw [hnext] at hc
    exact .inr ⟨d, rfl, hc⟩
  · left
    rw [hnext] at hc
    rw [hpoint]
    cases hrest : (Storage.storageWriteChar c' ok s.nvs p).2 with
    | none =>
        rw [hrest] at hc
        exact List.mem_cons_of_mem c' hc
    | some q =>
        rw [hrest] at hc
        exact hc
  · left
    rw [pendingStores_eq] at hc ⊢
    rwa [← hnext]

theorem nvs_step {s s' : Server} {a : UdpStep}
    (hstep : UdpServer.step s a = some s') :
    (∀ ok, a ≠ .storage ok) ∧ s'.nvs = s.nvs ∨ ∃ c p todo ok, a = .storage ok ∧
      s.point = .storing c p todo ∧
      s'.nvs = (Storage.storageWriteChar c ok s.nvs p).1 := by
  rcases stores_step hstep with ⟨d, rfl, -, hnvs, -⟩ |
    ⟨c, p, todo, ok, rfl, hpoint, hnvs, -⟩ | ⟨-, hstorage, hnvs, -⟩
  · exact .inl ⟨by simp, hnvs⟩
  · exact .inr ⟨c, p, todo, ok, rfl, hpoint, hnvs⟩
  · exact .inl ⟨hstorage, hnvs⟩

theorem enable_step {b b' : Board} {e : BoardEvent}
    (hstep : BoardSystem.step b e = some b') :
    b'.bmcuTaillightEnable = b.bmcuTaillightEnable ∧
      ((∀ a, e ≠ .udp a) ∧ b'.udp = b.udp ∨
        ∃ a, e = .udp a ∧ UdpServer.step b.udp a = some b'.udp) := by
  cases e with
  | post e =>
      obtain ⟨n, -, rfl⟩ := netStep_eq_some hstep
      exact ⟨rfl, .inl ⟨by simp, rfl⟩⟩
  | main ok =>
      obtain ⟨n, -, rfl⟩ := netStep_eq_some hstep
      exact ⟨rfl, .inl ⟨by simp, rfl⟩⟩
  | monitor =>
      obtain ⟨n, -, rfl⟩ := netStep_eq_some hstep
      exact ⟨rfl, .inl ⟨by simp, rfl⟩⟩
  | lamp t a =>
      obtain ⟨-, l, -, rfl⟩ := step_lamp_eq_some hstep
      exact ⟨rfl, .inl ⟨by simp, rfl⟩⟩
  | detect a =>
      rcases detectStep_cases hstep with ⟨-, l, -, rfl⟩ | ⟨-, -, rfl⟩ |
        ⟨-, l, -, rfl⟩ | ⟨-, -, rfl⟩
      all_goals exact ⟨rfl, .inl ⟨by simp, rfl⟩⟩
  | udp a =>
      obtain ⟨-, u, b₁, hu, heffect, rfl⟩ := step_udp_eq_some hstep
      have henable : b₁.bmcuTaillightEnable = b.bmcuTaillightEnable := by
        rcases udpEffect_cases heffect with ⟨g, l, -, -, rfl⟩ | ⟨-, -, rfl⟩ |
          ⟨n, -, -, rfl⟩ | ⟨-, -, -, rfl⟩
        all_goals rfl
      exact ⟨henable, .inr ⟨a, rfl, hu⟩⟩
  | notify cmd =>
      rcases step_notify_eq_some hstep with rfl | ⟨g, l, -, -, rfl⟩
      · exact ⟨rfl, .inl ⟨by simp, rfl⟩⟩
      · exact ⟨rfl, .inl ⟨by simp, rfl⟩⟩

theorem sameMode_boot (n : Nvs) (ok : Fin 4 → Bool) :
    SameMode (boot n true ok).bmcuTaillightEnable n.durable := by
  simp only [SameMode, boot, i2cInit, Nvs.reboot, storageReadChar, bootMode, if_true]
  cases n.durable with
  | none => decide
  | some c => by_cases hc : c = 'O'.toUInt8 <;> simp [hc]

theorem modesAgree_boot (n : Nvs) (ok : Fin 4 → Bool) :
    ModesAgree (boot n true ok) where
  stored := sameMode_boot n ok
  durable := sameMode_boot n ok
  pending c hc := by cases hc

theorem ModesAgree.step {b b' : Board} {e : BoardEvent} (h : ModesAgree b)
    (hkeep : keepsMode b e = true) (hstep : BoardSystem.step b e = some b') :
    ModesAgree b' := by
  obtain ⟨henable, ⟨-, hudp⟩ | ⟨a, rfl, hu⟩⟩ := enable_step hstep
  · exact ⟨by rw [henable, hudp]; exact h.stored, by rw [henable, hudp]; exact h.durable,
      by rw [henable, hudp]; exact h.pending⟩
  · have hpending : ∀ c ∈ pendingStores b'.udp.point,
        SameMode b.bmcuTaillightEnable (some c) := by
      intro c hc
      rcases pendingStores_step hu hc with hold | ⟨d, rfl, hnew⟩
      · exact h.pending c hold
      · obtain ⟨command, x, rfl, hcommand⟩ := mem_storedBy_handleDatagram hnew
        exact sameMode_of_keepsModeCommand hkeep hcommand
    rcases nvs_step hu with ⟨-, hnvs⟩ | ⟨c, p, todo, ok, -, hpoint, hnvs⟩
    · exact ⟨by rw [henable, hnvs]; exact h.stored, by rw [henable, hnvs]; exact h.durable,
        by rw [henable]; exact hpending⟩
    · have hc : SameMode b.bmcuTaillightEnable (some c) :=
        h.pending c (by simp [hpoint, pendingStores])
      refine ⟨?_, ?_, by rw [henable]; exact hpending⟩
      · rw [henable, hnvs]
        rcases stored_storageWriteChar c ok b.udp.nvs p with heq | heq
        · exact heq ▸ h.stored
        · exact heq ▸ hc
      · rw [henable, hnvs]
        rcases durable_storageWriteChar c ok b.udp.nvs p with heq | heq
        · exact heq ▸ h.durable
        · exact heq ▸ h.stored

/-- What `i2c_init` would send last if the power were cut now. -/
def bootSignal (b : Board) : Signal :=
  (bootMode (storageReadChar true b.udp.nvs.reboot)).1

theorem ModesAgree.restoreSignal_eq {b : Board} (h : ModesAgree b) :
    restoreSignal b = bootSignal b := by
  have hdurable := h.durable
  simp only [SameMode] at hdurable
  simp only [restoreSignal, bootSignal, bootMode, storageReadChar, Nvs.reboot, if_true]
  cases hcell : b.udp.nvs.durable with
  | none =>
      have henable : b.bmcuTaillightEnable = true := by simpa [hcell] using hdurable
      rw [henable]
      decide
  | some c =>
      by_cases hc : c = 'O'.toUInt8
      · have henable : b.bmcuTaillightEnable = false := hdurable.mpr (by rw [hcell, hc])
        simp [henable, hc]
      · have henable : b.bmcuTaillightEnable = true := by
          simpa [hcell, hc] using hdurable
        simp [henable, hc]

def storesMode (b : Board) (e : BoardEvent) : Prop :=
  match e, b.udp.point with
  | .udp (.storage true), .storing c .nvsSetI8 _ => SameMode b.bmcuTaillightEnable (some c)
  | _, _ => True

/-- The one statement at which flag and cell part: `nvs_set_i8` in the 'O' or
'S' command of a boot that came up in the other mode. -/
theorem sameMode_step_iff {b b' : Board} {e : BoardEvent}
    (h : SameMode b.bmcuTaillightEnable b.udp.nvs.stored)
    (hstep : BoardSystem.step b e = some b') :
    SameMode b'.bmcuTaillightEnable b'.udp.nvs.stored ↔ storesMode b e := by
  obtain ⟨henable, ⟨hother, hudp⟩ | ⟨a, rfl, hu⟩⟩ := enable_step hstep
  · rw [henable, hudp]
    cases e with
    | udp a => exact absurd rfl (hother a)
    | _ => exact ⟨fun _ => trivial, fun _ => h⟩
  · rw [henable]
    rcases nvs_step hu with ⟨ha, hnvs⟩ | ⟨c, p, todo, ok, rfl, hpoint, hnvs⟩
    · rw [hnvs]
      refine ⟨?_, fun _ => h⟩
      intro _
      cases a with
      | storage ok => exact absurd rfl (ha ok)
      | _ => trivial
    · rw [hnvs]
      unfold storesMode
      rw [hpoint]
      cases p with
      | nvsSetI8 =>
          cases ok with
          | false => exact ⟨fun _ => trivial, fun _ => h⟩
          | true => exact Iff.rfl
      | _ => cases ok <;> exact ⟨fun _ => trivial, fun _ => h⟩

theorem sameMode_always_iff (n : Nvs) (ok : Fin 4 → Bool) (es : List BoardEvent)
    (b : Board) (hrun : run BoardSystem.step (boot n true ok) es = some b) :
    Always BoardSystem.step (fun b => SameMode b.bmcuTaillightEnable b.udp.nvs.stored)
        (boot n true ok) es ↔
      EachStep BoardSystem.step storesMode (boot n true ok) es :=
  always_iff_eachStep (fun _ _ _ (_ : True) _ => trivial)
    (fun _ _ _ _ h hs => sameMode_step_iff h hs) trivial (modesAgree_boot n ok).stored hrun

/-- As long as no command asks for the mode the boot did not come up in, the
flag is false exactly when the stored char is 'O', and every hold restores the
byte that a reboot would send. -/
theorem lamp_mode_survives_reboot (n : Nvs) (ok : Fin 4 → Bool)
    (es : List BoardEvent) (b : Board)
    (hrun : run BoardSystem.step (boot n true ok) es = some b)
    (hok : EachStep BoardSystem.step (fun _ e => transmitsOk e = true)
      (boot n true ok) es)
    (hkeep : EachStep BoardSystem.step (fun b e => keepsMode b e = true)
      (boot n true ok) es) :
    (b.bmcuTaillightEnable = false ↔ b.udp.nvs.stored = some 'O'.toUInt8) ∧
      restoreSignal b = bootSignal b ∧
      (restoreSent b = true → b.lamp.lastByte = some (bootSignal b).byte) := by
  have hagree : ModesAgree b :=
    invariant_of_run_under (fun _ _ _ h he hs => ModesAgree.step h he hs)
      (modesAgree_boot n ok) hkeep hrun
  obtain ⟨hhold, hhead⟩ := holdInvariant_of_run hrun hok
  refine ⟨hagree.stored, hagree.restoreSignal_eq, ?_⟩
  intro hsent
  rw [← hagree.restoreSignal_eq]
  exact lastByte_of_restoreSent hhold hhead hsent

def modeCommand (g : Signal) (command : UInt8) : List BoardEvent :=
  [.udp (.socket true), .udp (.bind true),
    .udp (.recvfrom (some [command, '\n'.toUInt8])), .udp (.call g),
    .lamp udpTask .take, .lamp udpTask .record, .lamp udpTask (.transmit true),
    .lamp udpTask .give, .udp .returned, .udp .store, .udp (.storage true),
    .udp (.storage true), .udp (.storage true), .udp (.storage true),
    .udp (.sendto true)]

theorem lamp_mode_survives_reboot_after_S :
    ∃ b, run BoardSystem.step (boot ⟨none, none⟩ true fun _ => true)
        (online ++ modeCommand .normal 'S'.toUInt8 ++ brakes ++ restores) = some b ∧
      b.udp.nvs.stored = some 'S'.toUInt8 ∧
      b.lamp.lastByte = some (bootSignal b).byte := by
  obtain ⟨b, hrun, hb⟩ := exists_run_of_any
    (show (run BoardSystem.step (boot ⟨none, none⟩ true fun _ => true)
      (online ++ modeCommand .normal 'S'.toUInt8 ++ brakes ++ restores)).any
      (fun b => restoreSent b && b.udp.nvs.stored = some 'S'.toUInt8) = true by decide)
  simp only [Bool.and_eq_true, decide_eq_true_eq] at hb
  have hmode := lamp_mode_survives_reboot ⟨none, none⟩ (fun _ => true) _ b hrun
    (by decide) (by decide)
  exact ⟨b, hrun, hb.2, hmode.2.2 hb.1⟩

def quiet (e : BoardEvent) : Bool :=
  match e with
  | .udp (.recvfrom (some _)) => false
  | .notify _ => false
  | _ => true

/-- 'O' in a boot that came up in normal mode is persisted but does not reach
`BMCU_TAILLIGHT_ENABLE`: flag and cell disagree, and the next hold switches the
lamp back on although a reboot would leave it off. -/
theorem off_command_forgotten_by_restore :
    (¬ ∀ (n : Nvs) (ok : Fin 4 → Bool) (es : List BoardEvent) (b : Board),
      run BoardSystem.step (boot n true ok) es = some b →
        EachStep BoardSystem.step (fun _ e => transmitsOk e = true) (boot n true ok) es →
          (b.bmcuTaillightEnable = false ↔ b.udp.nvs.stored = some 'O'.toUInt8)) ∧
    ¬ ∀ (n : Nvs) (ok : Fin 4 → Bool) (es hold : List BoardEvent) (b₀ b : Board),
      run BoardSystem.step (boot n true ok) es = some b₀ → b₀.detector = .sampling →
        run BoardSystem.step b₀ hold = some b → (∀ e ∈ hold, quiet e = true) →
          EachStep BoardSystem.step (fun _ e => transmitsOk e = true) (boot n true ok)
              (es ++ hold) →
            restoreSent b = true → b.lamp.lastByte = some (bootSignal b).byte := by
  have hoff : (run BoardSystem.step (boot ⟨none, none⟩ true fun _ => true)
      (online ++ modeCommand .off 'O'.toUInt8)).any
      (fun b => decide (b.detector = .sampling ∧ b.bmcuTaillightEnable = true ∧
        b.udp.nvs.stored = some 'O'.toUInt8)) = true := by decide
  have hbrake : (run BoardSystem.step (boot ⟨none, none⟩ true fun _ => true)
      (online ++ modeCommand .off 'O'.toUInt8 ++ (brakes ++ restores))).any
      (fun b => decide (restoreSent b = true ∧
        b.lamp.lastByte ≠ some (bootSignal b).byte)) = true := by decide
  obtain ⟨b₀, hrun₀, hb₀⟩ := exists_run_of_any hoff
  have hoff₀ := of_decide_eq_true hb₀
  constructor
  · intro h
    have hflag := (h _ _ _ b₀ hrun₀ (by decide)).mpr hoff₀.2.2
    rw [hoff₀.2.1] at hflag
    cases hflag
  · intro h
    obtain ⟨b, hrun, hb⟩ := exists_run_of_any hbrake
    have hshown := of_decide_eq_true hb
    obtain ⟨b₁, hrun₁, hhold⟩ := run_append_eq_some.mp hrun
    have heq : b₁ = b₀ := Option.some.inj (hrun₁.symm.trans hrun₀)
    subst b₁
    exact hshown.2 (h _ _ _ _ b₀ b hrun₀ hoff₀.1 hhold (by decide) (by decide) hshown.1)

end BikeMcu.LampMode
