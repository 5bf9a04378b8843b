import BikeMcu.LampOwnership

namespace BikeMcu.BrakeHold

open BikeMcu.TransitionSystem
open BikeMcu.LampCommands
open BikeMcu.NetworkLifecycle
open BikeMcu.BoardSystem
open BikeMcu.LampOwnership

def transmitsOk (e : BoardEvent) : Bool :=
  match e with
  | .lamp _ (.transmit ok) => ok
  | _ => true

def isRider (t : Task) : Bool :=
  t = udpTask || t = .bleCallback

/-- From the detector's 'B' on the bus until its restoring byte. -/
def holdActive (b : Board) : Bool :=
  match b.detector with
  | .sampling => false
  | .braking => !(b.lamp.point .detectBrake1).unsent
  | .holding => true
  | .restoring => (b.lamp.point .detectBrake1).unsent

/-- The detector has sent the restoring byte of its latest hold, and the 'B' of the
next one is not on the bus. -/
def holdEnded (b : Board) : Bool :=
  match b.detector with
  | .sampling => b.lamp.bus.any fun e => e.1 = .detectBrake1
  | .braking =>
      (b.lamp.point .detectBrake1).unsent && b.lamp.bus.any fun e => e.1 = .detectBrake1
  | .restoring => !(b.lamp.point .detectBrake1).unsent
  | _ => false

/-- The restoring transfer has just been made: the detector is about to give the
mutex back. -/
def restoreSent (b : Board) : Bool :=
  match b.detector, b.lamp.point .detectBrake1 with
  | .restoring, .sent _ => true
  | _, _ => false

/-- The detector's last byte on the bus is `c`, and riders sent all that came
after it. -/
def ShownSince (c : UInt8) (bus : List (Task × UInt8)) : Prop :=
  ∃ riders earlier, bus = riders ++ (.detectBrake1, c) :: earlier ∧
    ∀ e ∈ riders, isRider e.1 = true

theorem shownSince_self (c : UInt8) (bus : List (Task × UInt8)) :
    ShownSince c ((.detectBrake1, c) :: bus) :=
  ⟨[], bus, rfl, by simp⟩

theorem ShownSince.cons {c d : UInt8} {bus : List (Task × UInt8)} {t : Task}
    (h : ShownSince c bus) (ht : isRider t = true) :
    ShownSince c ((t, d) :: bus) := by
  obtain ⟨riders, earlier, rfl, hriders⟩ := h
  refine ⟨(t, d) :: riders, earlier, rfl, ?_⟩
  intro e he
  rcases List.mem_cons.mp he with rfl | he
  · exact ht
  · exact hriders e he

/-- There has been no hold, or its restoring byte is the detector's last. -/
def Restored (b : Board) : Prop :=
  (∀ e ∈ b.lamp.bus, e.1 ≠ .detectBrake1) ∨ ShownSince (restoreSignal b).byte b.lamp.bus

def HoldInvariant (b : Board) : Prop :=
  match b.detector with
  | .sampling => b.lamp.point .detectBrake1 = .outside ∧ Restored b
  | .braking =>
      (b.lamp.point .detectBrake1).Pending 'B'.toUInt8 ∧ Restored b ∨
        (b.lamp.point .detectBrake1).Finished 'B'.toUInt8 ∧
          ShownSince 'B'.toUInt8 b.lamp.bus
  | .holding =>
      b.lamp.point .detectBrake1 = .outside ∧ ShownSince 'B'.toUInt8 b.lamp.bus
  | .restoring =>
      (b.lamp.point .detectBrake1).Pending (restoreSignal b).byte ∧
          ShownSince 'B'.toUInt8 b.lamp.bus ∨
        (b.lamp.point .detectBrake1).Finished (restoreSignal b).byte ∧
          ShownSince (restoreSignal b).byte b.lamp.bus

theorem holdInvariant_boot (n : Storage.Nvs) (read : Bool) (ok : Fin 4 → Bool) :
    HoldInvariant (boot n read ok) :=
  ⟨rfl, .inl fun e he => by simp [sender_boot he]⟩

theorem HoldInvariant.of_other {b b' : Board} (h : HoldInvariant b)
    (hdetector : b'.detector = b.detector)
    (henable : b'.bmcuTaillightEnable = b.bmcuTaillightEnable)
    (hpoint : b'.lamp.point .detectBrake1 = b.lamp.point .detectBrake1)
    (hbus : b'.lamp.bus = b.lamp.bus ∨
      ∃ t c, isRider t = true ∧ b'.lamp.bus = (t, c) :: b.lamp.bus) :
    HoldInvariant b' := by
  have hshown : ∀ c, ShownSince c b.lamp.bus → ShownSince c b'.lamp.bus := by
    intro c hc
    rcases hbus with heq | ⟨t, d, ht, heq⟩
    · exact heq ▸ hc
    · exact heq ▸ hc.cons ht
  have hnone : (∀ e ∈ b.lamp.bus, e.1 ≠ .detectBrake1) →
      ∀ e ∈ b'.lamp.bus, e.1 ≠ .detectBrake1 := by
    intro hold e he
    rcases hbus with heq | ⟨t, d, ht, heq⟩
    · exact hold e (heq ▸ he)
    · rw [heq] at he
      rcases List.mem_cons.mp he with rfl | he
      · rintro rfl
        cases ht
      · exact hold e he
  have hrestore : restoreSignal b' = restoreSignal b := by
    simp [restoreSignal, henable]
  have hrestored : Restored b → Restored b' := fun h =>
    h.imp hnone fun hc => hrestore ▸ hshown _ hc
  unfold HoldInvariant at h ⊢
  rw [hdetector, hpoint, hrestore]
  cases hd : b.detector with
  | sampling =>
      rw [hd] at h
      exact ⟨h.1, hrestored h.2⟩
  | braking =>
      rw [hd] at h
      exact h.imp (fun hp => ⟨hp.1, hrestored hp.2⟩) fun hf => ⟨hf.1, hshown _ hf.2⟩
  | holding =>
      rw [hd] at h
      exact ⟨h.1, hshown _ h.2⟩
  | restoring =>
      rw [hd] at h
      exact h.imp (fun hp => ⟨hp.1, hshown _ hp.2⟩) fun hf => ⟨hf.1, hshown _ hf.2⟩

theorem HoldInvariant.of_own {b : Board} {l : Lamp Task} {a : LampStep}
    (h : HoldInvariant b) (ho : Owned b) (hok : a ≠ .transmit false)
    (hl : LampCommands.step b.lamp .detectBrake1 a = some l) :
    HoldInvariant { b with lamp := l } := by
  have hinside := (step_frame hl).1
  unfold HoldInvariant at h ⊢
  cases hd : b.detector with
  | sampling =>
      rw [hd] at h
      exact absurd h.1 hinside
  | holding =>
      rw [hd] at h
      exact absurd h.1 hinside
  | braking =>
      rw [hd] at h
      rcases h with ⟨hp, hrestored⟩ | ⟨hf, hshown⟩
      · rcases ho.exclusive.step_pending hok hp hl with ⟨hp', hbus⟩ | ⟨hf', hbus⟩
        · exact .inl ⟨hp', by simpa [Restored, restoreSignal, hbus] using hrestored⟩
        · exact .inr ⟨hf', by simpa [hbus] using shownSince_self _ _⟩
      · obtain ⟨hf', hbus⟩ := step_finished hf hl
        exact .inr ⟨hf', by simpa [hbus] using hshown⟩
  | restoring =>
      rw [hd] at h
      rcases h with ⟨hp, hshown⟩ | ⟨hf, hshown⟩
      · rcases ho.exclusive.step_pending hok hp hl with ⟨hp', hbus⟩ | ⟨hf', hbus⟩
        · exact .inl ⟨hp', by simpa [hbus] using hshown⟩
        · exact .inr ⟨hf', by simpa [hbus, restoreSignal] using shownSince_self _ _⟩
      · obtain ⟨hf', hbus⟩ := step_finished hf hl
        exact .inr ⟨hf', by simpa [hbus, restoreSignal] using hshown⟩

theorem HoldInvariant.of_detect {b b' : Board} {a : DetectStep}
    (h : HoldInvariant b) (hstep : detectStep b a = some b') : HoldInvariant b' := by
  unfold HoldInvariant at h
  rcases detectStep_cases hstep with ⟨hd, l, hl, rfl⟩ | ⟨hd, hout, rfl⟩ |
    ⟨hd, l, hl, rfl⟩ | ⟨hd, hout, rfl⟩
  · rw [hd] at h
    obtain ⟨-, rfl⟩ := sendSignal_eq_some hl
    exact .inl ⟨.inl (by simp), h.2⟩
  · rw [hd] at h
    rcases h with ⟨hp, -⟩ | ⟨-, hshown⟩
    · simp [SendPoint.Pending, hout] at hp
    · exact ⟨hout, hshown⟩
  · rw [hd] at h
    obtain ⟨-, rfl⟩ := sendSignal_eq_some hl
    exact .inl ⟨.inl (by simp [restoreSignal]), h.2⟩
  · rw [hd] at h
    rcases h with ⟨hp, -⟩ | ⟨-, hshown⟩
    · simp [SendPoint.Pending, hout] at hp
    · exact ⟨hout, .inr hshown⟩

theorem HoldInvariant.step {b b' : Board} {e : BoardEvent} (h : HoldInvariant b)
    (ho : Owned b) (hok : transmitsOk e = true)
    (hstep : BoardSystem.step b e = some b') : HoldInvariant b' := by
  cases e with
  | post e =>
      obtain ⟨n, -, rfl⟩ := netStep_eq_some hstep
      exact h.of_other rfl rfl rfl (.inl rfl)
  | main ok =>
      obtain ⟨n, -, rfl⟩ := netStep_eq_some hstep
      exact h.of_other rfl rfl rfl (.inl rfl)
  | monitor =>
      obtain ⟨n, -, rfl⟩ := netStep_eq_some hstep
      exact h.of_other rfl rfl rfl (.inl rfl)
  | lamp t a =>
      obtain ⟨-, l, hl, rfl⟩ := step_lamp_eq_some hstep
      have ha : a ≠ .transmit false := by
        rintro rfl
        cases hok
      rcases ho.callers t (step_frame hl).1 with rfl | hrider
      · exact h.of_own ho ha hl
      · have hne : Task.detectBrake1 ≠ t := by
          rintro rfl
          simp at hrider
        obtain ⟨hpoint, hbus⟩ := step_other hl hne
        refine h.of_other rfl rfl hpoint (hbus.imp_right fun ⟨_, c, hc⟩ => ⟨t, c, ?_, hc⟩)
        simpa [isRider] using hrider
  | detect a => exact h.of_detect hstep
  | udp a =>
      obtain ⟨-, u, b₁, -, heffect, rfl⟩ := step_udp_eq_some hstep
      rcases udpEffect_cases heffect with ⟨g, l, -, hl, rfl⟩ | ⟨-, -, rfl⟩ |
        ⟨n, -, -, rfl⟩ | ⟨-, -, -, rfl⟩
      · refine h.of_other rfl rfl (point_of_sendSignal hl (by simp)) (.inl ?_)
        rw [(sendSignal_eq_some hl).2]
        rfl
      · exact h.of_other rfl rfl rfl (.inl rfl)
      · exact h.of_other rfl rfl rfl (.inl rfl)
      · exact h.of_other rfl rfl rfl (.inl rfl)
  | notify cmd =>
      rcases step_notify_eq_some hstep with rfl | ⟨g, l, -, hl, rfl⟩
      · exact h
      · refine h.of_other rfl rfl (point_of_sendSignal hl (by simp)) (.inl ?_)
        rw [(sendSignal_eq_some hl).2]
        rfl

def HeadShown (b : Board) : Prop :=
  ∀ t c, b.lamp.point t = .sent c → b.lamp.bus.head? = some (t, c)

theorem HeadShown.step {b b' : Board} {e : BoardEvent} (h : HeadShown b)
    (ho : Owned b) (hok : transmitsOk e = true)
    (hstep : BoardSystem.step b e = some b') : HeadShown b' := by
  rcases lamp_cases hstep with heq | ⟨t, a, rfl, hl⟩ | ⟨t, c, -, hl⟩
  · unfold HeadShown
    rwa [heq]
  · have ha : a ≠ .transmit false := by
      rintro rfl
      cases hok
    exact ho.exclusive.head_step ha h hl
  · intro u d hu
    have hne : u ≠ t := by
      rintro rfl
      simp [(sendSignal_eq_some hl).2] at hu
    have hold := h u d (point_of_sendSignal hl hne ▸ hu)
    rw [(sendSignal_eq_some hl).2]
    exact hold

theorem holdInvariant_of_run {n : Storage.Nvs} {read : Bool} {ok : Fin 4 → Bool}
    {es : List BoardEvent} {b : Board}
    (hrun : run BoardSystem.step (boot n read ok) es = some b)
    (hok : EachStep BoardSystem.step (fun _ e => transmitsOk e = true)
      (boot n read ok) es) : HoldInvariant b ∧ HeadShown b := by
  have hinit : Owned (boot n read ok) ∧ HoldInvariant (boot n read ok) ∧
      HeadShown (boot n read ok) :=
    ⟨owned_boot n read ok, holdInvariant_boot n read ok, fun t c ht => by
      simp [boot, i2cInit, sendAlone, lampInit] at ht⟩
  have hstep : ∀ (b : Board) e b', Owned b ∧ HoldInvariant b ∧ HeadShown b →
      transmitsOk e = true → BoardSystem.step b e = some b' →
        Owned b' ∧ HoldInvariant b' ∧ HeadShown b' :=
    fun b e b' h he hs => ⟨h.1.step hs, h.2.1.step h.1 he hs, h.2.2.step h.1 he hs⟩
  exact (invariant_of_run_under hstep hinit hok hrun).2

theorem shownSince_of_holdActive {b : Board} (h : HoldInvariant b)
    (hactive : holdActive b = true) : ShownSince 'B'.toUInt8 b.lamp.bus := by
  unfold HoldInvariant at h
  unfold holdActive at hactive
  cases hd : b.detector with
  | sampling => simp [hd] at hactive
  | braking =>
      simp only [hd] at h hactive
      exact (h.resolve_left fun hp => by simp [hp.1.unsent] at hactive).2
  | holding =>
      simp only [hd] at h
      exact h.2
  | restoring =>
      simp only [hd] at h hactive
      exact (h.resolve_right fun hf => by simp [hf.1.unsent] at hactive).2

theorem shownSince_of_holdEnded {b : Board} (h : HoldInvariant b)
    (hended : holdEnded b = true) :
    ShownSince (restoreSignal b).byte b.lamp.bus := by
  have hbraked : Restored b → (b.lamp.bus.any fun e => e.1 = .detectBrake1) = true →
      ShownSince (restoreSignal b).byte b.lamp.bus := by
    intro hrestored hany
    refine hrestored.resolve_left ?_
    intro hnone
    obtain ⟨e, he, hsender⟩ := List.any_eq_true.mp hany
    exact hnone e he (of_decide_eq_true hsender)
  unfold HoldInvariant at h
  unfold holdEnded at hended
  cases hd : b.detector with
  | sampling =>
      simp only [hd] at h hended
      exact hbraked h.2 hended
  | braking =>
      simp only [hd, Bool.and_eq_true] at h hended
      refine hbraked (h.resolve_right fun hf => ?_).2 hended.2
      simp [hf.1.unsent] at hended
  | restoring =>
      simp only [hd] at h hended
      exact (h.resolve_left fun hp => by simp [hp.1.unsent] at hended).2
  | holding => simp [hd] at hended

theorem lastByte_riders {l : Lamp Task} {c : UInt8}
    {riders earlier : List (Task × UInt8)}
    (hbus : l.bus = riders ++ (.detectBrake1, c) :: earlier) :
    l.lastByte = some ((riders.head?.map Prod.snd).getD c) := by
  cases riders <;> simp [Lamp.lastByte, hbus]

/-- During a hold the lamp shows 'B' until a rider's command is transmitted:
whatever is on the bus after the detector's 'B' was sent by a rider. -/
theorem brake_shown_until_rider (n : Storage.Nvs) (read : Bool) (ok : Fin 4 → Bool)
    (es : List BoardEvent) (b : Board)
    (hrun : run BoardSystem.step (boot n read ok) es = some b)
    (hok : EachStep BoardSystem.step (fun _ e => transmitsOk e = true)
      (boot n read ok) es)
    (hactive : holdActive b = true) :
    ∃ riders earlier,
      b.lamp.bus = riders ++ (.detectBrake1, 'B'.toUInt8) :: earlier ∧
      (∀ e ∈ riders, isRider e.1 = true) ∧
      b.lamp.lastByte = some ((riders.head?.map Prod.snd).getD 'B'.toUInt8) := by
  obtain ⟨riders, earlier, hbus, hriders⟩ :=
    shownSince_of_holdActive (holdInvariant_of_run hrun hok).1 hactive
  exact ⟨riders, earlier, hbus, hriders, lastByte_riders hbus⟩

def brakes : List BoardEvent :=
  [.detect .brake, .lamp .detectBrake1 .take, .lamp .detectBrake1 .record,
    .lamp .detectBrake1 (.transmit true), .lamp .detectBrake1 .give,
    .detect .signalled]

def restores : List BoardEvent :=
  [.detect .wake, .lamp .detectBrake1 .take, .lamp .detectBrake1 .record,
    .lamp .detectBrake1 (.transmit true)]

def notified (cmd : UInt8) : List BoardEvent :=
  [.notify cmd, .lamp .bleCallback .take, .lamp .bleCallback .record,
    .lamp .bleCallback (.transmit true), .lamp .bleCallback .give]

theorem brake_shown_in_quiet_hold :
    ∃ b, run BoardSystem.step (boot ⟨none, none⟩ true fun _ => true) brakes = some b ∧
      holdActive b = true ∧ b.lamp.lastByte = some 'B'.toUInt8 := by
  obtain ⟨b, hrun, hb⟩ := exists_run_of_any
    (show (run BoardSystem.step (boot ⟨none, none⟩ true fun _ => true) brakes).any
      (fun b => holdActive b && b.lamp.bus.head? = some (.detectBrake1, 'B'.toUInt8)) =
        true by decide)
  simp only [Bool.and_eq_true, decide_eq_true_eq] at hb
  obtain ⟨riders, earlier, hbus, hriders, hlast⟩ :=
    brake_shown_until_rider ⟨none, none⟩ true (fun _ => true) brakes b hrun
      (by decide) hb.1
  refine ⟨b, hrun, hb.1, ?_⟩
  cases riders with
  | nil => simpa using hlast
  | cons e riders =>
      have he := hriders e (by simp)
      have hhead : e = (.detectBrake1, 'B'.toUInt8) := by simpa [hbus] using hb.2
      rw [hhead] at he
      cases he

/-- A rider's 'N' over Bluetooth replaces the brake light in the middle of the
hold. -/
theorem rider_replaces_brake :
    ¬ ∀ (n : Storage.Nvs) (read : Bool) (ok : Fin 4 → Bool) (es : List BoardEvent)
      (b : Board), run BoardSystem.step (boot n read ok) es = some b →
        EachStep BoardSystem.step (fun _ e => transmitsOk e = true) (boot n read ok) es →
          holdActive b = true → b.lamp.lastByte = some 'B'.toUInt8 := by
  intro h
  obtain ⟨b, hrun, hb⟩ := exists_run_of_any
    (show (run BoardSystem.step (boot ⟨none, none⟩ true fun _ => true)
      (brakes ++ notified 'N'.toUInt8)).any
      (fun b => holdActive b && b.lamp.lastByte = some 'N'.toUInt8) = true by decide)
  simp only [Bool.and_eq_true, decide_eq_true_eq] at hb
  have hbrake := h _ _ _ _ b hrun (by decide) hb.1
  rw [hb.2] at hbrake
  exact absurd hbrake (by decide)

def lastRiderCommand (l : Lamp Task) : Option UInt8 :=
  (l.issued.find? fun e => isRider e.1).map Prod.snd

theorem lastByte_of_restoreSent {b : Board} (h : HoldInvariant b)
    (hhead : HeadShown b) (hsent : restoreSent b = true) :
    b.lamp.lastByte = some (restoreSignal b).byte := by
  unfold HoldInvariant at h
  unfold restoreSent at hsent
  split at hsent
  · rename_i c hd hp
    simp only [hd] at h
    have hc : c = (restoreSignal b).byte := by
      rcases h with ⟨hpending, -⟩ | ⟨hfinished, -⟩
      · simp [SendPoint.Pending, hp] at hpending
      · simpa [SendPoint.Finished, hp] using hfinished
    simp [Lamp.lastByte, hhead _ c hp, hc]
  · cases hsent

/-- The restore wins over every command transmitted before it: when its byte is
sent the lamp shows 'N' or 'O', never a turn, and from then on until the next 'B' of
the detector a rider's byte is shown only if it was transmitted after the restore. -/
theorem restore_shown_until_rider (n : Storage.Nvs) (read : Bool)
    (ok : Fin 4 → Bool) (es : List BoardEvent) (b : Board)
    (hrun : run BoardSystem.step (boot n read ok) es = some b)
    (hok : EachStep BoardSystem.step (fun _ e => transmitsOk e = true)
      (boot n read ok) es) :
    (restoreSignal b = .normal ∨ restoreSignal b = .off) ∧
    (restoreSent b = true → b.lamp.lastByte = some (restoreSignal b).byte) ∧
    (holdEnded b = true → ∃ riders earlier,
      b.lamp.bus = riders ++ (.detectBrake1, (restoreSignal b).byte) :: earlier ∧
      (∀ e ∈ riders, isRider e.1 = true) ∧
      b.lamp.lastByte =
        some ((riders.head?.map Prod.snd).getD (restoreSignal b).byte)) := by
  obtain ⟨hinv, hhead⟩ := holdInvariant_of_run hrun hok
  refine ⟨?_, lastByte_of_restoreSent hinv hhead, ?_⟩
  · unfold restoreSignal
    split
    · exact .inl rfl
    · exact .inr rfl
  · intro hended
    obtain ⟨riders, earlier, hbus, hriders⟩ := shownSince_of_holdEnded hinv hended
    exact ⟨riders, earlier, hbus, hriders, lastByte_riders hbus⟩

theorem restore_shown_after_turn :
    ∃ b, run BoardSystem.step (boot ⟨none, none⟩ true fun _ => true)
        (notified 'L'.toUInt8 ++ brakes ++ restores) = some b ∧
      lastRiderCommand b.lamp = some 'L'.toUInt8 ∧
      b.lamp.lastByte = some (restoreSignal b).byte := by
  obtain ⟨b, hrun, hb⟩ := exists_run_of_any
    (show (run BoardSystem.step (boot ⟨none, none⟩ true fun _ => true)
      (notified 'L'.toUInt8 ++ brakes ++ restores)).any
      (fun b => restoreSent b && lastRiderCommand b.lamp = some 'L'.toUInt8) = true
      by decide)
  simp only [Bool.and_eq_true, decide_eq_true_eq] at hb
  have hshown := restore_shown_until_rider ⟨none, none⟩ true (fun _ => true) _ b hrun
    (by decide)
  exact ⟨b, hrun, hb.2, hshown.2.1 hb.1⟩

/-- A left turn issued and shown before the brake is lost to the restoring 'N'. -/
theorem restore_cancels_turn :
    ¬ ∀ (n : Storage.Nvs) (read : Bool) (ok : Fin 4 → Bool) (es : List BoardEvent)
      (b : Board), run BoardSystem.step (boot n read ok) es = some b →
        EachStep BoardSystem.step (fun _ e => transmitsOk e = true) (boot n read ok) es →
          restoreSent b = true → ∀ c, lastRiderCommand b.lamp = some c →
            c = 'L'.toUInt8 ∨ c = 'R'.toUInt8 → b.lamp.lastByte = some c := by
  intro h
  obtain ⟨b, hrun, hb⟩ := exists_run_of_any
    (show (run BoardSystem.step (boot ⟨none, none⟩ true fun _ => true)
      (notified 'L'.toUInt8 ++ brakes ++ restores)).any
      (fun b => restoreSent b && (lastRiderCommand b.lamp = some 'L'.toUInt8 &&
        b.lamp.lastByte = some 'N'.toUInt8)) = true by decide)
  simp only [Bool.and_eq_true, decide_eq_true_eq] at hb
  have hturn := h _ _ _ _ b hrun (by decide) hb.1 _ hb.2.1 (.inl rfl)
  rw [hb.2.2] at hturn
  exact absurd hturn (by decide)

end BikeMcu.BrakeHold
