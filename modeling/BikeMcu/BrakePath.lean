import BikeMcu.BikeSystem
import BikeMcu.BrakeHold
import BikeMcu.LampMode

namespace BikeMcu.BrakePath

open BikeMcu.TransitionSystem
open BikeMcu.RunHistory
open BikeMcu.RunLedger
open BikeMcu.StreamBlocks
open BikeMcu.LampCommands
open BikeMcu.LampLinearization
open BikeMcu.BrakeDetector (initDetector Window)
open BikeMcu.FloatDetector
open BikeMcu.Storage
open BikeMcu.SensorPipeline
open BikeMcu.NetworkLifecycle
open BikeMcu.BoardSystem
open BikeMcu.LampOwnership
open BikeMcu.LampTrace
open BikeMcu.BrakeHold (transmitsOk)
open BikeMcu.BikeSystem

def transferOk : BikeEvent → Bool
  | .board (.lamp _ (.transmit ok)) => ok
  | _ => true

/-- The calls of task `t` on the bike's lamp, with what it hands to the I2C driver. -/
def callsOf (t : Task) : Ledger BikeSystem.step (fun s => Exclusive s.board.lamp) UInt8 :=
  ((callLedger t).pull lampView).pull boardView

def busOf (t : Task) : Ledger BikeSystem.step (fun s => Exclusive s.board.lamp) UInt8 :=
  ((busLedger t).pull lampView).pull boardView

/-- The bytes that task `t` calls for in a step of the board. -/
def boardCalls (t : Task) (x : Board × BoardEvent) : List UInt8 :=
  (lampLabel x).elim [] fun f => callBytes t (x.1.lamp, f)

theorem callsOf_taken (t : Task) (s : Bike) (e : BikeEvent) :
    (callsOf t).taken (s, e) =
      (boardLabel (s, e)).elim [] fun f => boardCalls t (s.board, f) := rfl

theorem accepted_sublist_done (t : Task) (x : Bike × BikeEvent) :
    ((busOf t).taken x).Sublist ((callsOf t).done x) := by
  simp only [busOf, callsOf, Ledger.pull]
  cases boardView.label x with
  | none => exact List.Sublist.refl []
  | some e =>
      simp only [Option.elim_some]
      cases lampView.label (boardView.state x.1, e) with
      | none => exact List.Sublist.refl []
      | some f => exact accepted_sublist t _

theorem transfersOk_lampLabel {b : Board} {e : BoardEvent} {f : CallEvent Task}
    (he : transmitsOk e = true) (hf : lampLabel (b, e) = some f) : transfersOk f = true := by
  cases e with
  | lamp t a =>
      cases hf
      cases a with
      | transmit ok => exact he
      | _ => rfl
  | detect a =>
      cases a with
      | brake | wake =>
          cases hf
          rfl
      | _ => cases hf
  | udp a =>
      cases a with
      | call g =>
          cases hf
          rfl
      | _ => cases hf
  | notify cmd =>
      obtain ⟨g, -, rfl⟩ := Option.map_eq_some_iff.mp hf
      rfl
  | _ => cases hf

theorem transmitsOk_boardLabel {s : Bike} {e : BikeEvent} {g : BoardEvent}
    (he : transferOk e = true) (hg : boardLabel (s, e) = some g) : transmitsOk g = true := by
  cases e with
  | sensor e =>
      obtain ⟨p, -, hp⟩ := Option.bind_eq_some_iff.mp hg
      obtain ⟨a, -, rfl⟩ := Option.map_eq_some_iff.mp hp
      rfl
  | board e =>
      cases hg
      cases g with
      | lamp t a =>
          cases a with
          | transmit ok => exact he
          | _ => rfl
      | _ => rfl
  | ble e =>
      obtain ⟨cmd, -, rfl⟩ := Option.map_eq_some_iff.mp hg
      rfl
  | upload a => cases hg

theorem accepted_eq_done (t : Task) {s : Bike} {e : BikeEvent} (he : transferOk e = true) :
    (busOf t).taken (s, e) = (callsOf t).done (s, e) := by
  simp only [busOf, callsOf, Ledger.pull]
  cases hg : boardView.label (s, e) with
  | none => rfl
  | some g =>
      simp only [Option.elim_some]
      cases hf : lampView.label (boardView.state s, g) with
      | none => rfl
      | some f =>
          exact accepted_of_transfersOk t
            (transfersOk_lampLabel (transmitsOk_boardLabel he hg) hf)

theorem owned_step (s : Bike) (e : BikeEvent) (t : Bike) (hs : Owned s.board)
    (hstep : BikeSystem.step s e = some t) : Owned t.board :=
  boardView.invariant (fun _ _ _ h hs => h.step hs) s e t hs hstep

/-- What a task hands to the driver reaches the bus unless the transfer fails. -/
theorem onBus_of_run {s t : Bike} {es : List BikeEvent} (hs : Owned s.board)
    (hrun : run BikeSystem.step s es = some t) (u : Task) :
    ∃ accepted : List UInt8,
      onBus u t.board.lamp = onBus u s.board.lamp ++ accepted ∧
      accepted.Sublist ((steps BikeSystem.step s es).flatMap (callsOf u).done) ∧
      ((∀ e ∈ es, transferOk e = true) →
        accepted = (steps BikeSystem.step s es).flatMap (callsOf u).done) := by
  refine ⟨(steps BikeSystem.step s es).flatMap (busOf u).taken, ?_, ?_, ?_⟩
  · have hbus := ((busOf u).weaken fun s (h : Owned s.board) => h.exclusive).run
      owned_step hs hrun
    have hnone : (steps BikeSystem.step s es).flatMap (busOf u).done = [] := by
      rw [List.flatMap_eq_nil_iff]
      intro x _
      simp only [busOf, Ledger.pull]
      cases boardView.label x with
      | none => rfl
      | some e => cases hf : lampView.label (boardView.state x.1, e) <;> simp [busLedger, hf]
    simp only [Ledger.weaken, hnone, List.nil_append] at hbus
    exact hbus.symm
  · exact List.Sublist.flatMap_right _ fun x _ => accepted_sublist_done u x
  · intro hok
    apply List.flatMap_congr
    intro x hx
    exact accepted_eq_done u (hok x.2 (event_mem_of_mem_steps hx))

theorem detector_step {b b' : Board} {e : BoardEvent} (he : ∀ a, e ≠ .detect a)
    (hstep : BoardSystem.step b e = some b') : b'.detector = b.detector := by
  cases e with
  | post e | main e | monitor =>
      obtain ⟨n, -, rfl⟩ := netStep_eq_some hstep
      rfl
  | lamp t a =>
      obtain ⟨-, l, -, rfl⟩ := step_lamp_eq_some hstep
      rfl
  | detect a => exact absurd rfl (he a)
  | udp a =>
      obtain ⟨-, u, b₁, -, heffect, rfl⟩ := step_udp_eq_some hstep
      rcases udpEffect_cases heffect with ⟨g, l, -, -, rfl⟩ | ⟨-, -, rfl⟩ |
        ⟨n, -, -, rfl⟩ | ⟨-, -, -, rfl⟩
      all_goals rfl
  | notify cmd =>
      rcases step_notify_eq_some hstep with rfl | ⟨g, l, -, -, rfl⟩
      all_goals rfl

theorem detect_of_call {b : Board} {e : BoardEvent} {g : Signal}
    (h : lampLabel (b, e) = some (.call .detectBrake1 g)) : ∃ a, e = .detect a := by
  cases e with
  | detect a => exact ⟨a, rfl⟩
  | udp a => cases a <;> simp [lampLabel] at h
  | notify cmd => simp [lampLabel] at h
  | _ => simp [lampLabel] at h

/-- Where the detector waits for a sample or for the end of the hold, it is in no lamp
command. -/
def AtRest (b : Board) : Prop :=
  b.detector = .sampling ∨ b.detector = .holding → b.lamp.point .detectBrake1 = .outside

theorem AtRest.step {b b' : Board} {e : BoardEvent} (h : AtRest b)
    (hstep : BoardSystem.step b e = some b') : AtRest b' := by
  by_cases he : ∃ a, e = .detect a
  · obtain ⟨a, rfl⟩ := he
    rcases detectStep_cases hstep with ⟨-, l, -, rfl⟩ | ⟨-, hout, rfl⟩ |
      ⟨-, l, -, rfl⟩ | ⟨-, hout, rfl⟩
    · simp [AtRest]
    · exact fun _ => hout
    · simp [AtRest]
    · exact fun _ => hout
  · have hdetector := detector_step (fun a ha => he ⟨a, ha⟩) hstep
    unfold AtRest at h ⊢
    rw [hdetector]
    intro hrest
    have hout := h hrest
    suffices hpoint : b'.lamp.point .detectBrake1 = b.lamp.point .detectBrake1 from
      hpoint.trans hout
    rcases lampView.simulate b e b' hstep with ⟨-, hsame⟩ | ⟨f, hf, hl⟩
    · rw [show b'.lamp = b.lamp from hsame]
    · cases f with
      | call t g =>
          have hne : Task.detectBrake1 ≠ t := by
            rintro rfl
            exact he (detect_of_call hf)
          have hsend : sendSignal g.byte b.lamp t = some b'.lamp := by
            rw [← Signal.send_eq]
            exact hl
          exact point_of_sendSignal hsend hne
      | step t a =>
          have hne : Task.detectBrake1 ≠ t := by
            rintro rfl
            exact (step_frame hl).1 hout
          exact (step_frame hl).2 _ hne

/-- The detector is one party on both sides, and what it restores is the mode of the
boot. -/
structure Joint (g : Signal) (s : Bike) : Prop where
  owned : Owned s.board
  restore : restoreSignal s.board = g
  point : s.sensor.point = s.board.detector
  rest : AtRest s.board

theorem point_cases {p p' : Pipeline} {e : PipelineEvent}
    (h : SensorPipeline.step p e = some p') :
    (e = .receive ∧ p.point = .sampling ∧ (p'.point = .braking ∨ p'.point = .sampling)) ∨
    (e = .signalled ∧ p.point = .braking ∧ p'.point = .holding) ∨
    (e = .wake ∧ p.point = .holding ∧ p'.point = .restoring) ∨
    (e = .restored ∧ p.point = .restoring ∧ p'.point = .sampling) ∨
    e ≠ .receive ∧ e ≠ .wake ∧ detectLabel p' e = none ∧ p'.point = p.point := by
  cases e with
  | receive =>
      obtain ⟨hp, x, q, d, w, -, -, rfl⟩ := step_receive_eq_some h
      refine .inl ⟨rfl, hp, ?_⟩
      simp only [detected]
      split
      · exact .inl rfl
      · exact .inr rfl
  | signalled =>
      obtain ⟨hp, rfl⟩ := guarded_eq_some.mp h
      exact .inr (.inl ⟨rfl, hp, rfl⟩)
  | wake =>
      obtain ⟨hp, rfl⟩ := guarded_eq_some.mp h
      exact .inr (.inr (.inl ⟨rfl, hp, rfl⟩))
  | restored =>
      obtain ⟨hp, rfl⟩ := guarded_eq_some.mp h
      exact .inr (.inr (.inr (.inl ⟨rfl, hp, rfl⟩)))
  | isr now =>
      cases Option.some.inj h
      refine .inr (.inr (.inr (.inr ⟨by simp, by simp, rfl, ?_⟩)))
      unfold gpioHandshakeIsrHandler
      split <;> rfl
  | upload =>
      obtain ⟨x, q, -, rfl⟩ := SensorPipeline.step_upload_eq_some h
      exact .inr (.inr (.inr (.inr ⟨by simp, by simp, rfl, rfl⟩)))
  | give | take | timeout | readGyro | readAccel | publish | offer | advance =>
      obtain ⟨-, rfl⟩ := guarded_eq_some.mp h
      exact .inr (.inr (.inr (.inr ⟨by simp, by simp, rfl, rfl⟩)))

theorem detector_detectStep {b b' : Board} {a : DetectStep} (h : detectStep b a = some b') :
    b'.detector = match a with
      | .brake => .braking
      | .signalled => .holding
      | .wake => .restoring
      | .restored => .sampling := by
  cases a with
  | brake | wake =>
      simp only [detectStep] at h
      split at h
      · obtain ⟨l, -, rfl⟩ := Option.map_eq_some_iff.mp h
        rfl
      · cases h
  | signalled | restored =>
      simp only [detectStep] at h
      split at h
      · cases h
        rfl
      · cases h

theorem Joint.step {g : Signal} {s t : Bike} {e : BikeEvent} (h : Joint g s)
    (hstep : BikeSystem.step s e = some t) : Joint g t where
  owned := owned_step s e t h.owned hstep
  restore := by
    have hkeep : ∀ b e b', restoreSignal b = g → BoardSystem.step b e = some b' →
        restoreSignal b' = g := by
      intro b e b' hb hs
      rw [restoreSignal, (LampMode.enable_step hs).1]
      exact hb
    exact boardView.invariant hkeep s e t h.restore hstep
  point := by
    cases e with
    | sensor e =>
        obtain ⟨-, p, hp, ⟨ha, rfl⟩ | ⟨a, b, ha, hb, rfl⟩⟩ := step_sensor_eq_some hstep
        · rcases point_cases hp with ⟨rfl, hpoint, hnext | hnext⟩ | ⟨rfl, -, -⟩ |
            ⟨rfl, -, -⟩ | ⟨rfl, -, -⟩ | ⟨-, -, -, hsame⟩
          · simp [detectLabel, hnext] at ha
          · exact hnext.trans (hpoint.symm.trans h.point)
          · cases ha
          · cases ha
          · cases ha
          · exact hsame.trans h.point
        · have hdetector := detector_detectStep hb
          rcases point_cases hp with ⟨rfl, -, hnext | hnext⟩ | ⟨rfl, -, hnext⟩ |
            ⟨rfl, -, hnext⟩ | ⟨rfl, -, hnext⟩ | ⟨-, -, hnone, -⟩
          · obtain rfl : DetectStep.brake = a := by simpa [detectLabel, hnext] using ha
            exact hnext.trans hdetector.symm
          · simp [detectLabel, hnext] at ha
          · cases ha
            exact hnext.trans hdetector.symm
          · cases ha
            exact hnext.trans hdetector.symm
          · cases ha
            exact hnext.trans hdetector.symm
          · rw [hnone] at ha
            cases ha
    | board e =>
        obtain ⟨hdetect, -, b, hb, rfl⟩ := step_board_eq_some hstep
        exact h.point.trans (detector_step hdetect hb).symm
    | ble e =>
        obtain ⟨b, rfl, ⟨-, rfl⟩ | ⟨cmd, -, hb⟩⟩ := step_ble_eq_some hstep
        · exact h.point
        · exact h.point.trans (detector_step (by simp) hb).symm
    | upload a =>
        obtain ⟨-, u, -, ⟨x, q, -, -, rfl⟩ | ⟨-, rfl⟩⟩ := step_upload_eq_some hstep
        · exact h.point
        · exact h.point
  rest := boardView.invariant (fun _ _ _ h hs => h.step hs) s e t h.rest hstep

theorem restoreSignal_bootMode (lastState : UInt8) :
    (if (bootMode lastState).2 then Signal.normal else .off) = (bootMode lastState).1 := by
  unfold bootMode
  split <;> rfl

theorem joint_boot (a : Arithmetic) (n : Nvs) (read : Bool) (ok : Fin 4 → Bool)
    (scratch : Vector UInt8 128) :
    Joint (bootMode (storageReadChar read n.reboot)).1 (BikeSystem.boot a n read ok scratch) where
  owned := owned_boot n read ok
  restore := restoreSignal_bootMode _
  point := rfl
  rest _ := rfl

/-- Whether the detector decides to brake on the sample it is about to receive. -/
def brakesNow (s : Bike) : Bool :=
  (SensorPipeline.step s.sensor .receive).any fun p => p.point = .braking

/-- The two bytes of a hold. -/
def holdBytes (g : Signal) (brakes : Bool) : List UInt8 :=
  if brakes then [Signal.brake.byte, g.byte] else []

/-- What the detector has still to call for the hold it is in. -/
def owedBytes (g : Signal) (s : Bike) : List UInt8 :=
  match s.sensor.point with
  | .braking | .holding => [g.byte]
  | .sampling | .restoring => []

/-- A decision to brake is followed by the two calls of its hold before the next
decision. -/
def brakeLedger (g : Signal) : Ledger BikeSystem.step (Joint g) UInt8 where
  taken x :=
    match x.2 with
    | .sensor .receive => holdBytes g (brakesNow x.1)
    | _ => []
  done x :=
    match x.2 with
    | .sensor .receive => if brakesNow x.1 then [Signal.brake.byte] else []
    | .sensor .wake => [g.byte]
    | _ => []
  todo := owedBytes g
  balance s e t hs hstep := by
    cases e with
    | sensor e =>
        obtain ⟨-, p, hp, hrest⟩ := step_sensor_eq_some hstep
        have hsensor : t.sensor = p := by
          rcases hrest with ⟨-, rfl⟩ | ⟨a, b, -, -, rfl⟩ <;> rfl
        rcases point_cases hp with ⟨rfl, hpoint, hnext | hnext⟩ | ⟨rfl, hpoint, hnext⟩ |
          ⟨rfl, hpoint, hnext⟩ | ⟨rfl, hpoint, hnext⟩ | ⟨hreceive, hwake, -, hsame⟩
        · simp [owedBytes, hpoint, hsensor, hnext, brakesNow, hp, holdBytes]
        · simp [owedBytes, hpoint, hsensor, hnext, brakesNow, hp, holdBytes]
        · simp [owedBytes, hpoint, hsensor, hnext]
        · simp [owedBytes, hpoint, hsensor, hnext]
        · simp [owedBytes, hpoint, hsensor, hnext]
        · rw [owedBytes, owedBytes, hsensor, hsame]
          cases e with
          | receive => exact absurd rfl hreceive
          | wake => exact absurd rfl hwake
          | _ => exact List.append_nil _
    | board e =>
        obtain ⟨-, -, b, -, rfl⟩ := step_board_eq_some hstep
        exact List.append_nil _
    | ble e =>
        obtain ⟨b, rfl, -⟩ := step_ble_eq_some hstep
        exact List.append_nil _
    | upload a =>
        obtain ⟨-, u, -, ⟨x, q, -, -, rfl⟩ | ⟨-, rfl⟩⟩ := step_upload_eq_some hstep
        · exact List.append_nil _
        · exact List.append_nil _

/-- What the detector does about a decision are the calls of its task. -/
theorem brakeLedger_done {g : Signal} {s t : Bike} {e : BikeEvent} (hs : Joint g s)
    (hstep : BikeSystem.step s e = some t) :
    (brakeLedger g).done (s, e) = (callsOf .detectBrake1).taken (s, e) := by
  rw [callsOf_taken]
  cases e with
  | sensor e =>
      obtain ⟨-, p, hp, hrest⟩ := step_sensor_eq_some hstep
      rcases point_cases hp with ⟨rfl, hpoint, hnext | hnext⟩ | ⟨rfl, hpoint, hnext⟩ |
        ⟨rfl, hpoint, hnext⟩ | ⟨rfl, hpoint, hnext⟩ | ⟨hreceive, hwake, hnone, -⟩
      · simp [brakeLedger, brakesNow, hp, boardLabel, detectLabel, hnext, boardCalls,
          lampLabel, callBytes]
      · simp [brakeLedger, brakesNow, hp, boardLabel, detectLabel, hnext]
      · simp [brakeLedger, hp, boardLabel, detectLabel, boardCalls, lampLabel]
      · simp [brakeLedger, hp, boardLabel, detectLabel, boardCalls, lampLabel, callBytes,
          hs.restore]
      · simp [brakeLedger, hp, boardLabel, detectLabel, boardCalls, lampLabel]
      · have hlabel : boardLabel (s, .sensor e) = none := by simp [boardLabel, hp, hnone]
        rw [hlabel]
        cases e with
        | receive => exact absurd rfl hreceive
        | wake => exact absurd rfl hwake
        | _ => rfl
  | board e =>
      obtain ⟨hdetect, hnotify, -⟩ := step_board_eq_some hstep
      cases e with
      | detect a => exact absurd rfl (hdetect a)
      | notify cmd => exact absurd rfl (hnotify cmd)
      | udp a => cases a <;> rfl
      | _ => rfl
  | ble e =>
      cases hcmd : notification s.client e with
      | none => simp [brakeLedger, boardLabel, hcmd]
      | some cmd =>
          cases hg : notifyCommand cmd <;>
            simp [brakeLedger, boardLabel, hcmd, boardCalls, lampLabel, hg, callBytes]
  | upload a => rfl

/-- From the decisions to the I2C driver. -/
def brakePath (g : Signal) : Ledger BikeSystem.step (Joint g) UInt8 :=
  (brakeLedger g).comp ((callsOf .detectBrake1).weaken fun _ h => h.owned.exclusive)
    fun _ _ _ hs hstep => brakeLedger_done hs hstep

/-- The detector's state and its decisions so far belong to the samples it received. -/
structure Decided (a : Arithmetic) (g : Signal) (h : List (Bike × BikeEvent)) (s : Bike) :
    Prop where
  arithmetic : s.sensor.arithmetic = a
  windows : ∃ ws, transduce (detectBrake1 a.round a.contraction) initDetector
      (s.sensor.received.map fun x => x.data.ax) = some (s.sensor.detector, ws) ∧
    h.flatMap (brakeLedger g).taken = (ws.map (brakes a.round)).flatMap (holdBytes g)

theorem received_step {p p' : Pipeline} {e : PipelineEvent} (he : e ≠ .receive)
    (h : SensorPipeline.step p e = some p') :
    p'.received = p.received ∧ p'.detector = p.detector := by
  cases e with
  | receive => exact absurd rfl he
  | isr now =>
      cases Option.some.inj h
      unfold gpioHandshakeIsrHandler
      split
      · exact ⟨rfl, rfl⟩
      · exact ⟨rfl, rfl⟩
  | upload =>
      obtain ⟨x, q, -, rfl⟩ := SensorPipeline.step_upload_eq_some h
      exact ⟨rfl, rfl⟩
  | _ =>
      obtain ⟨-, rfl⟩ := guarded_eq_some.mp h
      exact ⟨rfl, rfl⟩

theorem Decided.of_frame {a : Arithmetic} {g : Signal} {h : List (Bike × BikeEvent)}
    {s t : Bike} {e : BikeEvent} (hs : Decided a g h s)
    (htaken : (brakeLedger g).taken (s, e) = [])
    (harithmetic : t.sensor.arithmetic = s.sensor.arithmetic)
    (hreceived : t.sensor.received = s.sensor.received)
    (hdetector : t.sensor.detector = s.sensor.detector) : Decided a g (h ++ [(s, e)]) t where
  arithmetic := harithmetic.trans hs.arithmetic
  windows := by
    rw [hreceived, hdetector, List.flatMap_append, List.flatMap_singleton, htaken,
      List.append_nil]
    exact hs.windows

theorem Decided.step {a : Arithmetic} {g : Signal} {h : List (Bike × BikeEvent)} {s t : Bike}
    {e : BikeEvent} (hs : Decided a g h s) (hstep : BikeSystem.step s e = some t) :
    Decided a g (h ++ [(s, e)]) t := by
  cases e with
  | sensor e =>
      obtain ⟨-, p, hp, hrest⟩ := step_sensor_eq_some hstep
      have hsensor : t.sensor = p := by
        rcases hrest with ⟨-, rfl⟩ | ⟨a, b, -, -, rfl⟩ <;> rfl
      have harithmetic : t.sensor.arithmetic = s.sensor.arithmetic :=
        hsensor ▸ arithmetic_step hp
      by_cases he : e = .receive
      · subst he
        obtain ⟨hpoint, x, q, d, w, -, hd, hnext⟩ := step_receive_eq_some hp
        obtain ⟨ws, hrun, htaken⟩ := hs.windows
        have hbrakes : brakesNow s = w.any (brakes a.round) := by
          rw [brakesNow, hp, hnext, ← hs.arithmetic]
          cases hw : w.any (brakes s.sensor.arithmetic.round) <;> simp [detected, hw]
        refine ⟨harithmetic.trans hs.arithmetic, ws ++ w.toList, ?_, ?_⟩
        · rw [hsensor, hnext]
          rw [hs.arithmetic] at hd
          simp only [detected, List.map_append, List.map_cons, List.map_nil]
          exact transduce_concat hrun hd
        · rw [List.flatMap_append, List.flatMap_singleton, htaken, List.map_append,
            List.flatMap_append]
          simp only [brakeLedger, hbrakes]
          cases w with
          | none => rfl
          | some v => simp
      · obtain ⟨hreceived, hdetector⟩ := received_step he hp
        refine hs.of_frame ?_ harithmetic (hsensor ▸ hreceived) (hsensor ▸ hdetector)
        cases e with
        | receive => exact absurd rfl he
        | _ => rfl
  | board e =>
      obtain ⟨-, -, b, -, rfl⟩ := step_board_eq_some hstep
      exact hs.of_frame rfl rfl rfl rfl
  | ble e =>
      obtain ⟨b, rfl, -⟩ := step_ble_eq_some hstep
      exact hs.of_frame rfl rfl rfl rfl
  | upload a =>
      obtain ⟨-, u, -, ⟨x, q, -, -, rfl⟩ | ⟨-, rfl⟩⟩ := step_upload_eq_some hstep
      · exact hs.of_frame rfl rfl rfl rfl
      · exact hs.of_frame rfl rfl rfl rfl

/-- The decisions on the samples received so far. -/
def decided (a : Arithmetic) (s : Bike) : List Bool :=
  batchDecisions a.round a.contraction (s.sensor.received.map fun x => x.data.ax)

theorem Decided.taken_eq {a : Arithmetic} {g : Signal} {h : List (Bike × BikeEvent)} {s : Bike}
    (hs : Decided a g h s) :
    h.flatMap (brakeLedger g).taken = (decided a s).flatMap (holdBytes g) := by
  obtain ⟨ws, hrun, htaken⟩ := hs.windows
  have hdecisions := decisions_eq a.round a.contraction
    (s.sensor.received.map fun x => x.data.ax)
  rw [decisions, hrun, Option.map_some] at hdecisions
  rw [htaken, decided, ← Option.some.inj hdecisions]

/-- What is left of a hold: the command the detector is in, and the one it still owes. -/
def brakePending (g : Signal) (s : Bike) : List UInt8 :=
  unsent (s.board.lamp.point .detectBrake1) ++ owedBytes g s

theorem brakePending_of_sampling {g : Signal} {s : Bike} (hs : Joint g s)
    (hpoint : s.sensor.point = .sampling) : brakePending g s = [] := by
  have hout : s.board.lamp.point .detectBrake1 = .outside :=
    hs.rest (.inl (hs.point.symm.trans hpoint))
  rw [brakePending, hout, owedBytes, hpoint]
  rfl

theorem onBus_boot (a : Arithmetic) (n : Nvs) (read : Bool) (ok : Fin 4 → Bool) {t : Task}
    (scratch : Vector UInt8 128) (ht : t ≠ .appMain) :
    onBus t (BikeSystem.boot a n read ok scratch).board.lamp = [] := by
  rw [onBus, List.map_eq_nil_iff, List.filter_eq_nil_iff]
  intro x hx hsender
  exact ht ((of_decide_eq_true hsender).symm.trans (sender_boot (List.mem_reverse.mp hx)))

/-- Over every run of the unit, and in any arithmetic that it is compiled to, the detector's
bytes on the LED bus are those of its decisions on the samples it received: for each
decision to brake 'B' and then the byte of the boot's mode, in order, up to the hold in
progress. A failed transfer only leaves its byte out. In exact arithmetic these are the
batch decisions, in any other they lie between the exact ones with 1/2^14 g to spare and
those with as much forgiven. -/
theorem brakes_reach_lamp (a : Arithmetic) (n : Nvs) (read : Bool) (ok : Fin 4 → Bool)
    (scratch : Vector UInt8 128) (es : List BikeEvent) (s : Bike)
    (hrun : run BikeSystem.step (BikeSystem.boot a n read ok scratch) es = some s) :
    (∃ handed : List UInt8,
      (decided a s).flatMap (holdBytes (bootMode (storageReadChar read n.reboot)).1) =
        handed ++ brakePending (bootMode (storageReadChar read n.reboot)).1 s ∧
      (s.sensor.point = .sampling →
        brakePending (bootMode (storageReadChar read n.reboot)).1 s = []) ∧
      (onBus .detectBrake1 s.board.lamp).Sublist handed ∧
      ((∀ e ∈ es, transferOk e = true) → onBus .detectBrake1 s.board.lamp = handed)) ∧
    decided .exact s =
      BatchDetection.batchDecisions (s.sensor.received.map fun x => x.data.ax) ∧
    List.Forall₂ (fun sure b => sure = true → b = true)
      (decisionsBy (1 / 2 ^ 14) (s.sensor.received.map fun x => x.data.ax)) (decided a s) ∧
    List.Forall₂ (fun b possible => b = true → possible = true) (decided a s)
      (decisionsBy (-(1 / 2 ^ 14)) (s.sensor.received.map fun x => x.data.ax)) := by
  have hboot := joint_boot a n read ok scratch
  generalize (bootMode (storageReadChar read n.reboot)).1 = g at hboot ⊢
  have hjoint : Joint g s := invariant_of_run (fun _ _ _ h hs => h.step hs) hboot hrun
  have hdecided : Decided a g
      ([] ++ steps BikeSystem.step (BikeSystem.boot a n read ok scratch) es) s :=
    history_of_run (fun _ _ _ _ h hs => h.step hs) ⟨rfl, [], rfl, rfl⟩ hrun
  have hpath := (brakePath g).run (fun _ _ _ h hs => h.step hs) hboot hrun
  obtain ⟨accepted, hbus, hsublist, hok⟩ := onBus_of_run hboot.owned hrun .detectBrake1
  rw [onBus_boot a n read ok scratch (by simp), List.nil_append] at hbus
  refine ⟨⟨_, ?_, brakePending_of_sampling hjoint, hbus ▸ hsublist, fun h => hbus ▸ hok h⟩,
    batchDecisions_id _ _, batchDecisions_near a.within a.contraction _⟩
  rw [← hdecided.taken_eq, List.nil_append]
  exact hpath

def sendSignalSteps (t : Task) : List BikeEvent :=
  [.board (.lamp t .take), .board (.lamp t .record), .board (.lamp t (.transmit true)),
    .board (.lamp t .give)]

def hardBraking : List PipelineEvent :=
  .give :: iteration .take (reading 0 0) (reading 0 0xC0) ++
    (List.replicate 9 (iteration (.timeout none) (reading 0 0) (reading 0 0xC0))).flatten ++
    List.replicate 10 .receive

/-- Ten samples of hard braking, and the hold they lead to. -/
def brakeOnce : List BikeEvent :=
  hardBraking.map .sensor ++
  sendSignalSteps .detectBrake1 ++ [.sensor .signalled, .sensor .wake] ++
  sendSignalSteps .detectBrake1 ++ [.sensor .restored]

theorem brakes_reach_lamp_once :
    ∃ s, run BikeSystem.step (BikeSystem.boot (.binary32 .separate) ⟨none, none⟩ true
        (fun _ => true) (Vector.replicate 128 0)) brakeOnce = some s ∧
      onBus .detectBrake1 s.board.lamp = ['B'.toUInt8, 'N'.toUInt8] := by
  obtain ⟨s, hrun, hs⟩ := exists_run_of_any
    (show (run BikeSystem.step (BikeSystem.boot (.binary32 .separate) ⟨none, none⟩ true
        (fun _ => true) (Vector.replicate 128 0)) brakeOnce).any (fun s =>
          decide (s.sensor.point = .sampling ∧
            (decided (.binary32 .separate) s).flatMap (holdBytes .normal) =
              ['B'.toUInt8, 'N'.toUInt8])) = true by decide +kernel)
  obtain ⟨hpoint, hdecided⟩ := of_decide_eq_true hs
  obtain ⟨⟨handed, hbytes, hpending, -, hok⟩, -⟩ :=
    brakes_reach_lamp (.binary32 .separate) ⟨none, none⟩ true (fun _ => true)
      (Vector.replicate 128 0) brakeOnce s hrun
  refine ⟨s, hrun, ?_⟩
  rw [hok (by decide), ← hdecided]
  rw [hpending hpoint, List.append_nil] at hbytes
  exact hbytes.symm

end BikeMcu.BrakePath
