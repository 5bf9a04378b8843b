import BikeMcu.RunHistory
import BikeMcu.SensorPipeline

namespace BikeMcu.DataReady

open BikeMcu.TransitionSystem
open BikeMcu.RunHistory
open BikeMcu.FloatDetector (Arithmetic)
open BikeMcu.SensorPipeline

def accepted (now : UInt32) (s : Pipeline) : Bool :=
  !decide (now - s.lasthandshaketimeUs < 1000)

/-- `poll_sensor` sits in `xSemaphoreTake` and there is nothing to take. -/
def blocked (s : Pipeline) : Bool :=
  decide (s.poll = .waiting) && !s.rdySem

def startsRead : Pipeline × PipelineEvent → Bool
  | (_, .readGyro _ _) => true
  | _ => false

def acceptsInterrupt : Pipeline × PipelineEvent → Bool
  | (s, .isr now) => accepted now s
  | _ => false

def timesOut : Pipeline × PipelineEvent → Bool
  | (_, .timeout _) => true
  | _ => false

/-- The token, the read it has been exchanged for, or the initial give to come. -/
def tokens (s : Pipeline) : ℕ :=
  s.rdySem.toNat + (decide (s.poll = .readGyro)).toNat + (decide (s.poll = .start)).toNat

theorem gpioHandshakeIsrHandler_eq (now : UInt32) (s : Pipeline) :
    gpioHandshakeIsrHandler now s =
      if accepted now s then
        { s with rdySem := true, lasthandshaketimeUs := now, isrCount := s.isrCount + 1 }
      else s := by
  by_cases h : now - s.lasthandshaketimeUs < 1000 <;>
    simp [gpioHandshakeIsrHandler, accepted, h]

/-- Everything a step can do to the semaphore and to the place of `poll_sensor`. -/
theorem poll_cases {s t : Pipeline} {e : PipelineEvent}
    (h : SensorPipeline.step s e = some t) :
    (e = .give ∧ s.poll = .start ∧ t.poll = .waiting ∧ t.rdySem = true) ∨
    (∃ now, e = .isr now ∧ t.poll = s.poll ∧ t.rdySem = (accepted now s || s.rdySem)) ∨
    (e = .take ∧ s.poll = .waiting ∧ s.rdySem = true ∧ t.poll = .readGyro ∧
      t.rdySem = false) ∨
    (∃ chip, e = .timeout chip ∧ s.poll = .waiting ∧ s.rdySem = false ∧
      t.poll = .readGyro ∧ t.rdySem = false) ∨
    (∃ scratch rx, e = .readGyro scratch rx ∧ s.poll = .readGyro ∧
      t.poll = .readAccel ∧ t.rdySem = s.rdySem) ∨
    (∃ rx, e = .readAccel rx ∧ s.poll = .readAccel ∧ t.poll = .publish ∧
      t.rdySem = s.rdySem) ∨
    (startsRead (s, e) = false ∧ t.rdySem = s.rdySem ∧ (t.poll = s.poll ∨
      s.poll ≠ .readGyro ∧ s.poll ≠ .readAccel ∧ t.poll ≠ .readGyro ∧
        t.poll ≠ .start)) := by
  cases e with
  | give =>
      obtain ⟨hp, rfl⟩ := guarded_eq_some.mp h
      exact .inl ⟨rfl, hp, rfl, rfl⟩
  | isr now =>
      obtain rfl := Option.some.inj h
      refine .inr (.inl ⟨now, rfl, ?_⟩)
      rw [gpioHandshakeIsrHandler_eq]
      cases accepted now s <;> exact ⟨rfl, rfl⟩
  | take =>
      obtain ⟨hp, rfl⟩ := guarded_eq_some.mp h
      exact .inr (.inr (.inl ⟨rfl, hp.1, hp.2, rfl, rfl⟩))
  | timeout chip =>
      obtain ⟨hp, rfl⟩ := guarded_eq_some.mp h
      exact .inr (.inr (.inr (.inl ⟨chip, rfl, hp.1, hp.2, rfl, hp.2⟩)))
  | readGyro scratch rx =>
      obtain ⟨hp, rfl⟩ := guarded_eq_some.mp h
      exact .inr (.inr (.inr (.inr (.inl ⟨scratch, rx, rfl, hp, rfl, rfl⟩))))
  | readAccel rx =>
      obtain ⟨hp, rfl⟩ := guarded_eq_some.mp h
      exact .inr (.inr (.inr (.inr (.inr (.inl ⟨rx, rfl, hp, rfl, rfl⟩)))))
  | publish =>
      obtain ⟨hp, rfl⟩ := guarded_eq_some.mp h
      exact .inr (.inr (.inr (.inr (.inr (.inr ⟨rfl, rfl, .inr (by simp [hp, publish])⟩)))))
  | offer =>
      obtain ⟨hp, rfl⟩ := guarded_eq_some.mp h
      exact .inr (.inr (.inr (.inr (.inr (.inr ⟨rfl, rfl, .inr (by simp [hp, offer])⟩)))))
  | advance =>
      obtain ⟨hp, rfl⟩ := guarded_eq_some.mp h
      exact .inr (.inr (.inr (.inr (.inr (.inr ⟨rfl, rfl, .inr (by simp [hp])⟩)))))
  | receive =>
      obtain ⟨-, x, q, d, w, -, -, rfl⟩ := step_receive_eq_some h
      exact .inr (.inr (.inr (.inr (.inr (.inr ⟨rfl, rfl, .inl rfl⟩)))))
  | upload =>
      obtain ⟨x, q, -, rfl⟩ := step_upload_eq_some h
      exact .inr (.inr (.inr (.inr (.inr (.inr ⟨rfl, rfl, .inl rfl⟩)))))
  | signalled =>
      obtain ⟨-, rfl⟩ := guarded_eq_some.mp h
      exact .inr (.inr (.inr (.inr (.inr (.inr ⟨rfl, rfl, .inl rfl⟩)))))
  | wake =>
      obtain ⟨-, rfl⟩ := guarded_eq_some.mp h
      exact .inr (.inr (.inr (.inr (.inr (.inr ⟨rfl, rfl, .inl rfl⟩)))))
  | restored =>
      obtain ⟨-, rfl⟩ := guarded_eq_some.mp h
      exact .inr (.inr (.inr (.inr (.inr (.inr ⟨rfl, rfl, .inl rfl⟩)))))

theorem tokens_step {s t : Pipeline} {e : PipelineEvent}
    (h : SensorPipeline.step s e = some t) :
    tokens t + (startsRead (s, e)).toNat ≤
      tokens s + (acceptsInterrupt (s, e)).toNat + (timesOut (s, e)).toNat := by
  rcases poll_cases h with ⟨rfl, hs, ht, hsem⟩ | ⟨now, rfl, hpoll, hsem⟩ |
    ⟨rfl, hs, hfull, ht, hsem⟩ | ⟨chip, rfl, hs, hempty, ht, hsem⟩ |
    ⟨scratch, rx, rfl, hs, ht, hsem⟩ | ⟨rx, rfl, hs, ht, hsem⟩ | ⟨hquiet, hsem, hpoll⟩
  · simp [tokens, hs, ht, hsem, startsRead, acceptsInterrupt, timesOut]
  · have hor : (accepted now s || s.rdySem).toNat ≤
        (accepted now s).toNat + s.rdySem.toNat := by
      cases accepted now s <;> cases s.rdySem <;> decide
    simp only [tokens, hpoll, hsem, startsRead, acceptsInterrupt, timesOut,
      Bool.toNat_false]
    omega
  · simp [tokens, hs, ht, hsem, hfull, startsRead, acceptsInterrupt, timesOut]
  · simp [tokens, hs, ht, hsem, startsRead, acceptsInterrupt, timesOut]
  · simp [tokens, hs, ht, hsem, startsRead, acceptsInterrupt, timesOut]
  · simp [tokens, hs, ht, hsem, startsRead, acceptsInterrupt, timesOut]
  · rw [hquiet, Bool.toNat_false]
    rcases hpoll with heq | ⟨-, -, hgyro, hstart⟩
    · simp only [tokens, heq, hsem]
      omega
    · simp only [tokens, hsem, hgyro, hstart, decide_false, Bool.toNat_false]
      omega

/-- The sensor's two register reads of one `bmi160_read_data`, one after the
other. -/
def CompletesRead (es : List PipelineEvent) : Prop :=
  ∃ scratch gyro accel, List.Sublist [.readGyro scratch gyro, .readAccel accel] es

/-- The token lasts until it is taken, and what is then taken up is the gyro
read. -/
theorem readGyro_of_leaving {s t : Pipeline} {e : PipelineEvent}
    (h : SensorPipeline.step s e = some t)
    (hs : s.rdySem = true ∨ s.poll = .readGyro)
    (ht : ¬ (t.rdySem = true ∨ t.poll = .readGyro)) :
    ∃ scratch rx, e = .readGyro scratch rx ∧ t.poll = .readAccel := by
  rcases poll_cases h with ⟨rfl, -, -, hsem⟩ | ⟨now, rfl, hpoll, hsem⟩ |
    ⟨rfl, -, -, hpoll, -⟩ | ⟨chip, rfl, -, -, hpoll, -⟩ |
    ⟨scratch, rx, rfl, -, hpoll, -⟩ | ⟨rx, rfl, hp, -, hsem⟩ | ⟨-, hsem, hpoll⟩
  · exact absurd (.inl hsem) ht
  · refine absurd ?_ ht
    rcases hs with hs | hs
    · exact .inl (by rw [hsem, hs, Bool.or_true])
    · exact .inr (hpoll.trans hs)
  · exact absurd (.inr hpoll) ht
  · exact absurd (.inr hpoll) ht
  · exact ⟨scratch, rx, rfl, hpoll⟩
  · refine absurd (.inl (hsem.trans ?_)) ht
    rcases hs with hs | hs
    · exact hs
    · exact absurd (hp.symm.trans hs) (by decide)
  · refine absurd ?_ ht
    rcases hs with hs | hs
    · exact .inl (hsem.trans hs)
    rcases hpoll with heq | ⟨hne, -⟩
    · exact .inr (heq.trans hs)
    · exact absurd hs hne

theorem readAccel_of_leaving {s t : Pipeline} {e : PipelineEvent}
    (h : SensorPipeline.step s e = some t) (hs : s.poll = .readAccel)
    (ht : t.poll ≠ .readAccel) : ∃ rx, e = .readAccel rx := by
  rcases poll_cases h with ⟨-, hp, -⟩ | ⟨now, -, hpoll, -⟩ | ⟨-, hp, -⟩ |
    ⟨chip, -, hp, -⟩ | ⟨scratch, rx, -, hp, -⟩ | ⟨rx, rfl, -⟩ | ⟨-, -, hpoll⟩
  · exact absurd (hp.symm.trans hs) (by decide)
  · exact absurd (hpoll.trans hs) ht
  · exact absurd (hp.symm.trans hs) (by decide)
  · exact absurd (hp.symm.trans hs) (by decide)
  · exact absurd (hp.symm.trans hs) (by decide)
  · exact ⟨rx, rfl⟩
  · rcases hpoll with heq | ⟨-, hne, -⟩
    · exact absurd (heq.trans hs) ht
    · exact absurd hs hne

/-- Once there is a token, `poll_sensor` cannot block again without a read. -/
theorem completesRead_of_token {s t : Pipeline} {es : List PipelineEvent}
    (htoken : s.rdySem = true) (hrun : run SensorPipeline.step s es = some t)
    (hblocked : blocked t = true) : CompletesRead es := by
  simp only [blocked, Bool.and_eq_true, decide_eq_true_eq, Bool.not_eq_true'] at hblocked
  obtain ⟨pre, e, post, u, v, rfl, -, hu, hgyro, hv, hpost⟩ :=
    exists_leaving_step (P := fun s => s.rdySem = true ∨ s.poll = .readGyro)
      (.inl htoken) hrun (by simp [hblocked.1, hblocked.2])
  obtain ⟨scratch, gyro, rfl, hpoll⟩ := readGyro_of_leaving hgyro hu hv
  obtain ⟨pre', e', post', u', v', rfl, -, hu', haccel, hv', -⟩ :=
    exists_leaving_step (P := fun s => s.poll = .readAccel) hpoll hpost
      (by simp [hblocked.1])
  obtain ⟨accel, rfl⟩ := readAccel_of_leaving haccel hu' hv'
  refine ⟨scratch, gyro, accel, ?_⟩
  have htail : List.Sublist [.readAccel accel] (pre' ++ .readAccel accel :: post') := by simp
  exact (htail.cons_cons _).trans (List.sublist_append_right _ _)

/-- No accepted interrupt is lost: a complete read starts after it before
`poll_sensor` can next block without a token. And no read is spurious: each
answers the initial give, an accepted interrupt or a timeout. -/
theorem data_ready_handshake (a : Arithmetic) (es : List PipelineEvent) (s : Pipeline)
    (hrun : run SensorPipeline.step (SensorPipeline.init a) es = some s) :
    (∀ pre now fs u, es = pre ++ .isr now :: fs →
      run SensorPipeline.step (SensorPipeline.init a) pre = some u → accepted now u = true →
        blocked s = true → CompletesRead fs) ∧
    (steps SensorPipeline.step (SensorPipeline.init a) es).countP startsRead ≤
      1 + (steps SensorPipeline.step (SensorPipeline.init a) es).countP acceptsInterrupt +
        (steps SensorPipeline.step (SensorPipeline.init a) es).countP timesOut := by
  constructor
  · rintro pre now fs u rfl hpre haccepted hblocked
    obtain ⟨u', hu', htail⟩ := run_append_eq_some.mp hrun
    obtain rfl := Option.some.inj (hu'.symm.trans hpre)
    obtain ⟨v, hisr, hfs⟩ := run_cons_eq_some.mp htail
    obtain rfl := Option.some.inj hisr
    refine completesRead_of_token ?_ hfs hblocked
    rw [gpioHandshakeIsrHandler_eq, haccepted]
    rfl
  · have hcount := countP_le_of_credit hrun (fun _ _ _ hstep => tokens_step hstep)
    have hinit : tokens (SensorPipeline.init a) = 1 := rfl
    rw [hinit] at hcount
    exact (Nat.le_add_left _ _).trans hcount

/-- An interrupt between the take and the read it belongs to: the read in
progress and one more follow. -/
def readTwice : List PipelineEvent :=
  (iteration .take (reading 0 0) (reading 0 0)).tail ++
    iteration .take (reading 0 0) (reading 0 0)

theorem data_ready_handshake_interrupt_before_read :
    ∃ s, run SensorPipeline.step (SensorPipeline.init .exact)
        ([.give, .take] ++ .isr 5000 :: readTwice) = some s ∧
      blocked s = true ∧ CompletesRead readTwice ∧
      (steps SensorPipeline.step (SensorPipeline.init .exact)
        ([.give, .take] ++ .isr 5000 :: readTwice)).countP startsRead ≤ 2 := by
  obtain ⟨s, hrun, hblocked⟩ := exists_run_of_any
    (show (run SensorPipeline.step (SensorPipeline.init .exact)
      ([.give, .take] ++ .isr 5000 :: readTwice)).any blocked = true by decide +kernel)
  obtain ⟨u, hpre, hnow⟩ := exists_run_of_any
    (show (run SensorPipeline.step (SensorPipeline.init .exact) [.give, .take]).any
      (accepted 5000) = true by decide +kernel)
  have hshake := data_ready_handshake .exact _ s hrun
  have hbound : 1 + (steps SensorPipeline.step (SensorPipeline.init .exact)
      ([.give, .take] ++ .isr 5000 :: readTwice)).countP acceptsInterrupt +
        (steps SensorPipeline.step (SensorPipeline.init .exact)
          ([.give, .take] ++ .isr 5000 :: readTwice)).countP timesOut = 2 := by
    decide +kernel
  exact ⟨s, hrun, hblocked, hshake.1 _ 5000 _ u rfl hpre hnow hblocked,
    hbound ▸ hshake.2⟩

end BikeMcu.DataReady
