import BikeMcu.RunHistory
import BikeMcu.LampCommands

namespace BikeMcu.LampLinearization

open BikeMcu.TransitionSystem
open BikeMcu.RunHistory
open BikeMcu.LampCommands

inductive CallEvent (Task : Type) where
  | call (t : Task) (g : Signal)
  | step (t : Task) (a : LampStep)

variable {Task : Type} [DecidableEq Task]

def CallEvent.task {Task : Type} : CallEvent Task → Task
  | .call t _ => t
  | .step t _ => t

def callStep (l : Lamp Task) : CallEvent Task → Option (Lamp Task)
  | .call t g => g.send l t
  | .step t a => LampCommands.step l t a

/-- The lamp as the creation of `cmd_mutex` in `i2c_init` leaves it. -/
def idleLamp (lastCommand : UInt8) : Lamp Task :=
  { cmdMutex := none, lastCommand := lastCommand, point := fun _ => .outside,
    issued := [], acquired := [], bus := [] }

def called : Lamp Task × CallEvent Task → Option (Task × UInt8)
  | (_, .call t g) => some (t, g.byte)
  | _ => none

/-- The task that takes the mutex, with the byte of its own call. -/
def acquired : Lamp Task × CallEvent Task → Option (Task × UInt8)
  | (l, .step t .take) =>
      match l.point t with
      | .waiting c => some (t, c)
      | _ => none
  | _ => none

/-- The task that transmits, with the byte it hands to the I2C driver. -/
def transmitted : Lamp Task × CallEvent Task → Option (Task × UInt8)
  | (l, .step t (.transmit _)) => some (t, l.lastCommand)
  | _ => none

def transfersOk : CallEvent Task → Bool
  | .step _ (.transmit ok) => ok
  | _ => true

def pending (t : Task) (p : SendPoint) : List (Task × UInt8) :=
  match p with
  | .waiting c | .taken c | .recorded c => [(t, c)]
  | .outside | .sent _ => []

/-- The byte that the holder of the mutex has still to transmit. -/
def held (l : Lamp Task) : List (Task × UInt8) :=
  l.cmdMutex.elim [] fun t => pending t (l.point t)

abbrev History (Task : Type) := List (Lamp Task × CallEvent Task)

/-- What the history of a run has in common with the state it leads to. -/
structure Linear (h : History Task) (l : Lamp Task) : Prop where
  exclusive : Exclusive l
  order : h.filterMap acquired = h.filterMap transmitted ++ held l
  calls : ∀ t, (h.filterMap called).filter (fun x => x.1 = t) =
    (h.filterMap transmitted).filter (fun x => x.1 = t) ++ pending t (l.point t)
  bus : (∀ x ∈ h, transfersOk x.2 = true) → l.bus.reverse = h.filterMap transmitted

theorem linear_idle (c : UInt8) : Linear ([] : History Task) (idleLamp c) := by
  refine ⟨⟨?_, ?_, ?_⟩, rfl, fun _ => rfl, fun _ => rfl⟩
  · simp [idleLamp, SendPoint.critical]
  · simp [idleLamp]
  · simp [idleLamp]

omit [DecidableEq Task] in
theorem called_task {l : Lamp Task} {e : CallEvent Task} :
    ∀ x ∈ called (l, e), x.1 = e.task := by
  rintro x hx
  cases e with
  | call t g =>
      cases hx
      rfl
  | step t a => cases hx

omit [DecidableEq Task] in
theorem transmitted_task {l : Lamp Task} {e : CallEvent Task} :
    ∀ x ∈ transmitted (l, e), x.1 = e.task := by
  rintro x hx
  cases e with
  | call t g => cases hx
  | step t a =>
      cases a with
      | transmit ok =>
          cases hx
          rfl
      | _ => cases hx

theorem filter_own {o : Option (Task × UInt8)} {t : Task} (h : ∀ x ∈ o, x.1 = t)
    (u : Task) : o.toList.filter (fun x => x.1 = u) = if t = u then o.toList else [] := by
  cases o with
  | none => simp
  | some x =>
      rw [Option.toList_some, List.filter_singleton, h x rfl]
      simp

/-- Only the task of the event moves: the lists stay in step when what it adds to
each is balanced by what it holds and what it has pending. -/
theorem Linear.of_move {h : History Task} {l l' : Lamp Task} {e : CallEvent Task}
    (hl : Linear h l) (hexclusive : Exclusive l')
    (hother : ∀ u, u ≠ e.task → l'.point u = l.point u)
    (horder : held l ++ (acquired (l, e)).toList = (transmitted (l, e)).toList ++ held l')
    (hcalls : pending e.task (l.point e.task) ++ (called (l, e)).toList =
      (transmitted (l, e)).toList ++ pending e.task (l'.point e.task))
    (hbus : transfersOk e = true → l'.bus = (transmitted (l, e)).toList ++ l.bus) :
    Linear (h ++ [(l, e)]) l' := by
  have hconcat : ∀ f : Lamp Task × CallEvent Task → Option (Task × UInt8),
      (h ++ [(l, e)]).filterMap f = h.filterMap f ++ (f (l, e)).toList := by
    intro f
    cases hf : f (l, e) <;> simp [hf]
  refine ⟨hexclusive, ?_, ?_, ?_⟩
  · rw [hconcat, hconcat, hl.order, List.append_assoc, List.append_assoc, horder]
  · intro u
    rw [hconcat, hconcat, List.filter_append, List.filter_append, hl.calls u,
      List.append_assoc, List.append_assoc]
    rw [filter_own called_task, filter_own transmitted_task]
    split
    · subst u
      rw [hcalls]
    · rename_i hne
      rw [hother u (Ne.symm hne), List.append_nil, List.nil_append]
  · intro hok
    have hold := hl.bus fun x hx => hok x (List.mem_append_left _ hx)
    have hnew := hbus (hok (l, e) (by simp))
    rw [hconcat, hnew, List.reverse_append, hold]
    cases transmitted (l, e) <;> simp

theorem Linear.call {h : History Task} {l l' : Lamp Task} {t : Task} {g : Signal}
    (hl : Linear h l) (hcall : g.send l t = some l') :
    Linear (h ++ [(l, .call t g)]) l' := by
  rw [Signal.send_eq] at hcall
  have hexclusive := hl.exclusive.sendSignal hcall
  obtain ⟨hout, rfl⟩ := sendSignal_eq_some hcall
  refine hl.of_move hexclusive (fun u hu => point_setPoint_of_ne l _ hu) ?_ ?_ ?_
  · cases hmutex : l.cmdMutex with
    | none => simp [acquired, transmitted, held, hmutex]
    | some u =>
        have hne : u ≠ t := by
          rintro rfl
          have hcritical := (hl.exclusive.holder u).mp hmutex
          rw [hout] at hcritical
          cases hcritical
        simp [acquired, transmitted, held, hmutex, point_setPoint_of_ne l _ hne]
  · simp [called, transmitted, pending, CallEvent.task, hout]
  · simp [transmitted]

theorem Linear.step {h : History Task} {l l' : Lamp Task} {t : Task} {a : LampStep}
    (hl : Linear h l) (hstep : LampCommands.step l t a = some l') :
    Linear (h ++ [(l, .step t a)]) l' := by
  have hexclusive := hl.exclusive.step hstep
  have hother := (step_frame hstep).2
  have hholder : (l.point t).critical = true → l.cmdMutex = some t :=
    (hl.exclusive.holder t).mpr
  rcases step_eq_some hstep with ⟨c, rfl, hp, hfree, rfl⟩ | ⟨c, rfl, hp, rfl⟩ |
    ⟨c, ok, rfl, hp, rfl⟩ | ⟨c, rfl, hp, rfl⟩
  · refine hl.of_move hexclusive hother ?_ ?_ ?_
    · simp [acquired, transmitted, held, pending, hfree, hp]
    · simp [called, transmitted, pending, CallEvent.task, hp]
    · simp [transmitted]
  · have ht : l.cmdMutex = some t := hholder (by rw [hp]; rfl)
    refine hl.of_move hexclusive hother ?_ ?_ ?_
    · simp [acquired, transmitted, held, pending, ht, hp]
    · simp [called, transmitted, pending, CallEvent.task, hp]
    · simp [transmitted]
  · have ht : l.cmdMutex = some t := hholder (by rw [hp]; rfl)
    have hlast : l.lastCommand = c := hl.exclusive.recorded t c hp
    refine hl.of_move hexclusive hother ?_ ?_ ?_
    · simp [acquired, transmitted, held, pending, ht, hp, hlast]
    · simp [called, transmitted, pending, CallEvent.task, hp, hlast]
    · rintro hok
      obtain rfl : ok = true := hok
      simp [transmitted]
  · have ht : l.cmdMutex = some t := hholder (by rw [hp]; rfl)
    refine hl.of_move hexclusive hother ?_ ?_ ?_
    · simp [acquired, transmitted, held, pending, ht, hp]
    · simp [called, transmitted, pending, CallEvent.task, hp]
    · simp [transmitted]

theorem Linear.callStep {h : History Task} {l l' : Lamp Task} {e : CallEvent Task}
    (hl : Linear h l) (hstep : LampLinearization.callStep l e = some l') :
    Linear (h ++ [(l, e)]) l' := by
  cases e with
  | call t g => exact hl.call hstep
  | step t a => exact hl.step hstep

/-- At the end of any run, the bytes handed to the bus are those of the calls that
acquired the mutex, in that order and with the task that made each call, up to the
present holder's; and each task's calls have gone out one byte each, in the order it
made them, up to the call it is in. -/
theorem lamp_commands_linearizable (c : UInt8) (es : List (CallEvent Task))
    (l : Lamp Task) (hrun : run callStep (idleLamp c) es = some l) :
    (steps callStep (idleLamp c) es).filterMap acquired =
      (steps callStep (idleLamp c) es).filterMap transmitted ++ held l ∧
    (∀ t, ((steps callStep (idleLamp c) es).filterMap called).filter (fun x => x.1 = t) =
      ((steps callStep (idleLamp c) es).filterMap transmitted).filter (fun x => x.1 = t) ++
        pending t (l.point t)) ∧
    ((∀ e ∈ es, transfersOk e = true) →
      l.bus.reverse = (steps callStep (idleLamp c) es).filterMap transmitted) := by
  have hl : Linear ([] ++ steps callStep (idleLamp c) es) l :=
    history_of_run (fun _ _ _ _ hl hs => hl.callStep hs) (linear_idle c) hrun
  rw [List.nil_append] at hl
  refine ⟨hl.order, hl.calls, ?_⟩
  intro hok
  exact hl.bus fun x hx => hok x.2 (event_mem_of_mem_steps hx)

/-- Task `false` is inside its command while task `true` calls, waits, and goes out
second. -/
def overlappingCalls : List (CallEvent Bool) :=
  [.call false .brake, .step false .take, .call true .left, .step false .record,
    .step false (.transmit true), .step false .give, .step true .take,
    .step true .record, .step true (.transmit true), .call false .normal]

theorem lamp_commands_linearizable_overlapping :
    ∃ l, run callStep (idleLamp 0) overlappingCalls = some l ∧
      l.bus.reverse = [(false, 'B'.toUInt8), (true, 'L'.toUInt8)] ∧
      (steps callStep (idleLamp 0) overlappingCalls).filterMap acquired =
        (steps callStep (idleLamp 0) overlappingCalls).filterMap transmitted := by
  obtain ⟨l, hrun, hheld⟩ := exists_run_of_any
    (show (run callStep (idleLamp 0) overlappingCalls).any
      (fun l => decide (held l = [])) = true by decide)
  obtain ⟨horder, -, hbus⟩ := lamp_commands_linearizable 0 overlappingCalls l hrun
  rw [of_decide_eq_true hheld, List.append_nil] at horder
  refine ⟨l, hrun, ?_, horder⟩
  rw [hbus (by decide)]
  decide

end BikeMcu.LampLinearization
