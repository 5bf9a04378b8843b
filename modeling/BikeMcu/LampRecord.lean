import BikeMcu.LampLinearization

namespace BikeMcu.LampRecord

open BikeMcu.TransitionSystem
open BikeMcu.RunHistory
open BikeMcu.LampCommands
open BikeMcu.LampLinearization

variable {Task : Type} [DecidableEq Task]

/-- A transfer with its byte and its outcome. -/
def transfer : Lamp Task × CallEvent Task → Option (UInt8 × Bool)
  | (l, .step _ (.transmit ok)) => some (l.lastCommand, ok)
  | _ => none

def acceptedByte : Lamp Task × CallEvent Task → Option UInt8
  | (l, .step _ (.transmit true)) => some l.lastCommand
  | _ => none

def lastTransfer (h : History Task) : Option (UInt8 × Bool) :=
  (h.filterMap transfer).getLast?

def lastAccepted (h : History Task) : Option UInt8 :=
  (h.filterMap acceptedByte).getLast?

structure Recorded (h : History Task) (l : Lamp Task) : Prop where
  exclusive : Exclusive l
  record : (∀ t c, l.point t ≠ .recorded c) → ∀ b ok, lastTransfer h = some (b, ok) →
    l.lastCommand = b
  lastByte : l.lastByte = lastAccepted h
  succeeded : ∀ b, lastTransfer h = some (b, true) → lastAccepted h = some b
  transferred : lastTransfer h = none → lastAccepted h = none

theorem getLast?_filterMap_concat {α β : Type} (f : α → Option β) (h : List α) (x : α) :
    ((h ++ [x]).filterMap f).getLast? = (f x).or (h.filterMap f).getLast? := by
  rw [List.filterMap_append, List.getLast?_append]
  cases hf : f x <;> simp [hf]

theorem recorded_idle (c : UInt8) : Recorded ([] : History Task) (idleLamp c) := by
  refine ⟨(linear_idle c).exclusive, ?_, rfl, ?_, fun _ => rfl⟩
  · rintro _ b ok hnone
    cases hnone
  · rintro b hnone
    cases hnone

omit [DecidableEq Task] in
/-- Events other than a transfer leave the transfers and the bus as they are, and
the record too, but for the step that writes it. -/
theorem Recorded.quiet {h : History Task} {l l' : Lamp Task} {e : CallEvent Task}
    (hr : Recorded h l) (hexclusive : Exclusive l') (hnone : transfer (l, e) = none)
    (hother : ∀ u, u ≠ e.task → l'.point u = l.point u)
    (hpoint : ∀ c, l.point e.task ≠ .recorded c) (hbus : l'.bus = l.bus)
    (hrecord : l'.lastCommand = l.lastCommand ∨ ∃ c, l'.point e.task = .recorded c) :
    Recorded (h ++ [(l, e)]) l' := by
  have haccepted : acceptedByte (l, e) = none := by
    unfold acceptedByte
    split
    · rename_i heq
      obtain ⟨rfl, rfl⟩ := Prod.mk.inj heq
      cases hnone
    · rfl
  have htransfer : lastTransfer (h ++ [(l, e)]) = lastTransfer h := by
    rw [lastTransfer, getLast?_filterMap_concat, hnone]
    rfl
  have hlast : lastAccepted (h ++ [(l, e)]) = lastAccepted h := by
    rw [lastAccepted, getLast?_filterMap_concat, haccepted]
    rfl
  refine ⟨hexclusive, ?_, ?_, ?_, ?_⟩
  · intro hnot b ok hb
    have hold : ∀ u c, l.point u ≠ .recorded c := by
      intro u c
      by_cases hu : u = e.task
      · exact hu ▸ hpoint c
      · exact hother u hu ▸ hnot u c
    rcases hrecord with hsame | ⟨c, hc⟩
    · rw [htransfer] at hb
      rw [hsame, hr.record hold b ok hb]
    · exact absurd hc (hnot e.task c)
  · rw [hlast, Lamp.lastByte, hbus]
    exact hr.lastByte
  · rw [htransfer, hlast]
    exact hr.succeeded
  · rw [htransfer, hlast]
    exact hr.transferred

theorem Recorded.transmit {h : History Task} {l : Lamp Task} {t : Task} {c : UInt8}
    {ok : Bool} (hr : Recorded h l)
    (hexclusive : Exclusive { l.setPoint t (.sent c) with
      bus := if ok then (t, l.lastCommand) :: l.bus else l.bus }) :
    Recorded (h ++ [(l, .step t (.transmit ok))]) { l.setPoint t (.sent c) with
      bus := if ok then (t, l.lastCommand) :: l.bus else l.bus } := by
  have htransfer : lastTransfer (h ++ [(l, .step t (.transmit ok))]) =
      some (l.lastCommand, ok) := by
    rw [lastTransfer, getLast?_filterMap_concat]
    rfl
  refine ⟨hexclusive, ?_, ?_, ?_, ?_⟩
  · intro _ b ok' hb
    rw [htransfer] at hb
    cases hb
    rfl
  · rw [lastAccepted, getLast?_filterMap_concat]
    cases ok with
    | false => exact hr.lastByte
    | true => rfl
  · intro b hb
    rw [htransfer] at hb
    cases hb
    rw [lastAccepted, getLast?_filterMap_concat]
    rfl
  · rw [htransfer]
    rintro ⟨⟩

theorem Recorded.callStep {h : History Task} {l l' : Lamp Task} {e : CallEvent Task}
    (hr : Recorded h l) (hstep : LampLinearization.callStep l e = some l') :
    Recorded (h ++ [(l, e)]) l' := by
  cases e with
  | call t g =>
      have hcall : sendSignal g.byte l t = some l' := by
        rw [← Signal.send_eq]
        exact hstep
      have hexclusive := hr.exclusive.sendSignal hcall
      obtain ⟨hout, rfl⟩ := sendSignal_eq_some hcall
      exact hr.quiet hexclusive rfl (fun u hu => point_setPoint_of_ne l _ hu)
        (by simp [CallEvent.task, hout]) rfl (.inl rfl)
  | step t a =>
      have hexclusive := hr.exclusive.step hstep
      have hother := (step_frame hstep).2
      rcases step_eq_some hstep with ⟨c, rfl, hp, -, rfl⟩ | ⟨c, rfl, hp, rfl⟩ |
        ⟨c, ok, rfl, -, rfl⟩ | ⟨c, rfl, hp, rfl⟩
      · exact hr.quiet hexclusive rfl hother (by simp [CallEvent.task, hp]) rfl (.inl rfl)
      · refine hr.quiet hexclusive rfl hother (by simp [CallEvent.task, hp]) rfl ?_
        exact .inr ⟨c, point_setPoint_self l t _⟩
      · exact hr.transmit hexclusive
      · exact hr.quiet hexclusive rfl hother (by simp [CallEvent.task, hp]) rfl (.inl rfl)

theorem recorded_of_run {c : UInt8} {es : List (CallEvent Task)} {l : Lamp Task}
    (hrun : run LampLinearization.callStep (idleLamp c) es = some l) :
    Recorded (steps LampLinearization.callStep (idleLamp c) es) l := by
  have hr : Recorded ([] ++ steps LampLinearization.callStep (idleLamp c) es) l :=
    history_of_run (fun _ _ _ _ hr hs => hr.callStep hs) (recorded_idle c) hrun
  rwa [List.nil_append] at hr

/-- Whenever the mutex is free after a byte was accepted, `lastCommand` is the byte
of the latest transfer, whatever its outcome, and the controller shows the byte of
the latest successful one; so the two agree if the latest transfer succeeded. -/
theorem last_command_is_last_transfer (c : UInt8) (es : List (CallEvent Task))
    (l : Lamp Task) (hrun : run LampLinearization.callStep (idleLamp c) es = some l)
    (hfree : l.cmdMutex = none) (haccepted : l.bus ≠ []) :
    l.lastByte = lastAccepted (steps LampLinearization.callStep (idleLamp c) es) ∧
    ∃ ok, lastTransfer (steps LampLinearization.callStep (idleLamp c) es) =
        some (l.lastCommand, ok) ∧
      (ok = true → l.lastByte = some l.lastCommand) := by
  have hr : Recorded (steps LampLinearization.callStep (idleLamp c) es) l :=
    recorded_of_run hrun
  refine ⟨hr.lastByte, ?_⟩
  have hnot : ∀ t c, l.point t ≠ .recorded c := by
    intro t c ht
    have hmutex := (hr.exclusive.holder t).mpr (by rw [ht]; rfl)
    rw [hfree] at hmutex
    cases hmutex
  cases hlast : lastTransfer (steps LampLinearization.callStep (idleLamp c) es) with
  | none =>
      have hnone := hr.lastByte.trans (hr.transferred hlast)
      simp [Lamp.lastByte, haccepted] at hnone
  | some x =>
      obtain ⟨b, ok⟩ := x
      have hb : l.lastCommand = b := hr.record hnot b ok hlast
      refine ⟨ok, by rw [hb], ?_⟩
      rintro rfl
      rw [hb]
      exact hr.lastByte.trans (hr.succeeded b hlast)

def sends (t : Bool) (g : Signal) (ok : Bool) : List (CallEvent Bool) :=
  [.call t g, .step t .take, .step t .record, .step t (.transmit ok), .step t .give]

theorem last_command_is_last_transfer_after_failure :
    ∃ l, run LampLinearization.callStep (idleLamp 0)
        (sends true .normal true ++ sends false .brake false ++ sends true .left true) =
          some l ∧ l.lastByte = some 'L'.toUInt8 ∧ l.lastByte = some l.lastCommand := by
  obtain ⟨l, hrun, hl⟩ := exists_run_of_any
    (show (run LampLinearization.callStep (idleLamp 0) (sends true .normal true ++
      sends false .brake false ++ sends true .left true)).any
      (fun l => decide (l.cmdMutex = none ∧ l.bus ≠ [] ∧ l.lastCommand = 'L'.toUInt8)) =
        true by decide)
  obtain ⟨hfree, haccepted, hleft⟩ := of_decide_eq_true hl
  obtain ⟨-, ok, hlast, hok⟩ := last_command_is_last_transfer 0 _ l hrun hfree haccepted
  have hvalue : lastTransfer (steps LampLinearization.callStep (idleLamp 0)
      (sends true .normal true ++ sends false .brake false ++ sends true .left true)) =
        some ('L'.toUInt8, true) := by decide
  obtain rfl : ok = true :=
    (Prod.mk.inj (Option.some.inj (hlast.symm.trans hvalue))).2
  exact ⟨l, hrun, (hok rfl).trans (congrArg some hleft), hok rfl⟩

/-- A brake command that fails after a normal one: `lastCommand` is 'B', the lamp
shows 'N'. -/
theorem failed_transfer_still_recorded :
    ¬ ∀ (c : UInt8) (es : List (CallEvent Bool)) (l : Lamp Bool),
      run LampLinearization.callStep (idleLamp c) es = some l →
        l.cmdMutex = none → l.bus ≠ [] → l.lastByte = some l.lastCommand := by
  intro h
  obtain ⟨l, hrun, hl⟩ := exists_run_of_any
    (show (run LampLinearization.callStep (idleLamp 0)
      (sends true .normal true ++ sends false .brake false)).any
      (fun l => decide (l.cmdMutex = none ∧ l.bus ≠ [] ∧
        l.lastByte ≠ some l.lastCommand)) = true by decide)
  obtain ⟨hfree, haccepted, hdiffer⟩ := of_decide_eq_true hl
  exact hdiffer (h 0 _ l hrun hfree haccepted)

end BikeMcu.LampRecord
