import BikeMcu.SensorPipeline

namespace BikeMcu.SensorFanOut

open BikeMcu.TransitionSystem
open BikeMcu.BoundedQueue
open BikeMcu.FloatDetector (Arithmetic)
open BikeMcu.SensorPipeline

def awaitingOffer (s : Pipeline) : List Sample :=
  if s.poll = .offer then [s.current] else []

def nextSeq (s : Pipeline) : Int32 :=
  if s.poll = .offer ∨ s.poll = .advance then s.data.seq + 1 else s.data.seq

structure Internal (s s' : Pipeline) : Prop where
  uploadQueue : s'.uploadQueue = s.uploadQueue
  processQueue : s'.processQueue = s.processQueue
  produced : s'.produced = s.produced
  offers : s'.offers = s.offers
  received : s'.received = s.received
  uploaded : s'.uploaded = s.uploaded
  awaitingOffer : awaitingOffer s' = awaitingOffer s
  nextSeq : nextSeq s' = nextSeq s

theorem history_cases {s s' : Pipeline} {e : PipelineEvent} (h : step s e = some s') :
    (e = .publish ∧ s.poll = .publish ∧ s' = publish s) ∨
    (s.poll = .offer ∧ s' = offer s) ∨
    (∃ x q d w, s.processQueue.receive = some (x, q) ∧ s' = detected x q d w s) ∨
    (∃ x q, s.uploadQueue.receive = some (x, q) ∧
      s' = { s with uploadQueue := q, uploaded := s.uploaded ++ [x] }) ∨
    Internal s s' := by
  cases e with
  | publish =>
      obtain ⟨hp, rfl⟩ := guarded_eq_some.mp h
      exact .inl ⟨rfl, hp, rfl⟩
  | offer =>
      obtain ⟨hp, rfl⟩ := guarded_eq_some.mp h
      exact .inr (.inl ⟨hp, rfl⟩)
  | receive =>
      obtain ⟨-, x, q, d, w, hq, -, rfl⟩ := step_receive_eq_some h
      exact .inr (.inr (.inl ⟨x, q, d, w, hq, rfl⟩))
  | upload =>
      obtain ⟨x, q, hq, rfl⟩ := step_upload_eq_some h
      exact .inr (.inr (.inr (.inl ⟨x, q, hq, rfl⟩)))
  | isr now =>
      cases Option.some.inj h
      unfold gpioHandshakeIsrHandler
      split
      · exact .inr (.inr (.inr (.inr ⟨rfl, rfl, rfl, rfl, rfl, rfl, rfl, rfl⟩)))
      · exact .inr (.inr (.inr (.inr ⟨rfl, rfl, rfl, rfl, rfl, rfl, rfl, rfl⟩)))
  | signalled | wake | restored =>
      obtain ⟨-, rfl⟩ := guarded_eq_some.mp h
      exact .inr (.inr (.inr (.inr ⟨rfl, rfl, rfl, rfl, rfl, rfl, rfl, rfl⟩)))
  | give | take | timeout | readGyro | readAccel | advance =>
      obtain ⟨hp, rfl⟩ := guarded_eq_some.mp h
      refine .inr (.inr (.inr (.inr ⟨rfl, rfl, rfl, rfl, rfl, rfl, ?_, ?_⟩)))
      · simp [awaitingOffer, hp, readGyro, readAccel]
      · simp [nextSeq, hp, readGyro, readAccel]

/-- Both queues tied to the samples published and to one another's history. -/
structure FanOut (s : Pipeline) : Prop where
  sequence : s.produced.map (fun x => x.data.seq) =
    (List.range s.produced.length).map Int32.ofNat
  next : nextSeq s = Int32.ofNat s.produced.length
  offered : s.offers.map Prod.fst ++ awaitingOffer s = s.produced
  fill : ∀ o ∈ s.offers, o.2 ≤ 10
  accepted : s.received ++ s.processQueue.items =
    (s.offers.filter fun o => o.2 < 10).map Prod.fst
  latest : ∀ x ∈ s.uploadQueue.items, s.produced.getLast? = some x
  uploads : (s.uploaded ++ s.uploadQueue.items).Sublist s.produced

theorem fanOut_init (a : Arithmetic) : FanOut (init a) where
  sequence := rfl
  next := rfl
  offered := rfl
  fill := by simp [init]
  accepted := rfl
  latest := by simp [init]
  uploads := by simp [init]

theorem FanOut.publish {s : Pipeline} (h : FanOut s) (hp : s.poll = .publish) :
    FanOut (publish s) where
  sequence := by
    have hseq : s.data.seq = Int32.ofNat s.produced.length := by
      simpa [nextSeq, hp] using h.next
    simp [SensorPipeline.publish, Pipeline.current, List.range_succ, h.sequence, hseq]
  next := by
    have hseq : s.data.seq = Int32.ofNat s.produced.length := by
      simpa [nextSeq, hp] using h.next
    simp [SensorPipeline.publish, nextSeq, hseq, Int32.ofNat_add]
  offered := by
    have hoffered : s.offers.map Prod.fst = s.produced := by
      simpa [awaitingOffer, hp] using h.offered
    simp only [SensorPipeline.publish, awaitingOffer, if_true, hoffered]
    rfl
  fill := h.fill
  accepted := h.accepted
  latest x hx := by
    have hx' : x = s.current := by simpa [SensorPipeline.publish] using hx
    simp [SensorPipeline.publish, hx']
  uploads := by
    have hsub : s.uploaded.Sublist s.produced :=
      (List.sublist_append_left _ _).trans h.uploads
    exact hsub.append (List.Sublist.refl [s.current])

theorem FanOut.offer {s : Pipeline} (h : FanOut s) (hp : s.poll = .offer) :
    FanOut (offer s) where
  sequence := h.sequence
  next := by
    have hseq : s.data.seq + 1 = Int32.ofNat s.produced.length := by
      simpa [nextSeq, hp] using h.next
    simpa [SensorPipeline.offer, nextSeq] using hseq
  offered := by
    have hoffered : s.offers.map Prod.fst ++ [s.current] = s.produced := by
      simpa [awaitingOffer, hp] using h.offered
    simpa [SensorPipeline.offer, awaitingOffer] using hoffered
  fill o ho := by
    rcases List.mem_append.mp ho with hold | hnew
    · exact h.fill o hold
    · rw [List.mem_singleton.mp hnew]
      exact s.processQueue.bounded
  accepted := by
    by_cases hroom : s.processQueue.items.length < 10
    · simp [SensorPipeline.offer, items_send_of_lt _ hroom, hroom, ← List.append_assoc,
        h.accepted]
    · simp [SensorPipeline.offer, send_of_full _ hroom, hroom, h.accepted]
  latest := h.latest
  uploads := h.uploads

theorem FanOut.step {s s' : Pipeline} {e : PipelineEvent} (h : FanOut s)
    (hstep : SensorPipeline.step s e = some s') : FanOut s' := by
  rcases history_cases hstep with ⟨-, hp, rfl⟩ | ⟨hp, rfl⟩ | ⟨x, q, d, w, hq, rfl⟩ |
    ⟨x, q, hq, rfl⟩ | hsame
  · exact h.publish hp
  · exact h.offer hp
  · refine ⟨h.sequence, h.next, h.offered, h.fill, ?_, h.latest, h.uploads⟩
    have hitems := receive_eq_some hq
    simpa [detected, hitems] using h.accepted
  · have hitems := receive_eq_some hq
    refine ⟨h.sequence, h.next, h.offered, h.fill, h.accepted, ?_, ?_⟩
    · intro y hy
      exact h.latest y (by rw [hitems]; exact List.mem_cons_of_mem x hy)
    · have huploads := h.uploads
      rw [hitems] at huploads
      simpa using huploads
  · exact ⟨by rw [hsame.produced]; exact h.sequence,
      by rw [hsame.nextSeq, hsame.produced]; exact h.next,
      by rw [hsame.offers, hsame.awaitingOffer, hsame.produced]; exact h.offered,
      by rw [hsame.offers]; exact h.fill,
      by rw [hsame.received, hsame.processQueue, hsame.offers]; exact h.accepted,
      by rw [hsame.uploadQueue, hsame.produced]; exact h.latest,
      by rw [hsame.uploaded, hsame.uploadQueue, hsame.produced]; exact h.uploads⟩

theorem fanOut_of_run {a : Arithmetic} {es : List PipelineEvent} {s : Pipeline}
    (hrun : run SensorPipeline.step (init a) es = some s) : FanOut s :=
  invariant_of_run (fun _ _ _ h hs => FanOut.step h hs) (fanOut_init a) hrun

theorem FanOut.increasing {s : Pipeline} (h : FanOut s)
    (hlen : s.produced.length < 2 ^ 31) :
    s.produced.Pairwise fun x y => x.data.seq < y.data.seq := by
  rw [← List.pairwise_map (f := fun x : Sample => x.data.seq) (R := (· < ·)), h.sequence,
    List.pairwise_map]
  refine List.Pairwise.imp_of_mem ?_ List.pairwise_lt_range
  intro i j hi hj hij
  have hi' := List.mem_range.mp hi
  have hj' := List.mem_range.mp hj
  rw [Int32.lt_iff_toInt_lt, Int32.toInt_ofNat_of_lt (by omega),
    Int32.toInt_ofNat_of_lt (by omega)]
  omega

/-- A sample is published or still to be published; once offered, it was taken in
or found ten others before it. -/
theorem FanOut.sublist {s : Pipeline} (h : FanOut s) :
    (s.received ++ s.processQueue.items).Sublist s.produced := by
  rw [h.accepted, ← h.offered]
  exact (List.filter_sublist.map Prod.fst).trans (List.sublist_append_left _ _)

def Publishes (events : List PipelineEvent) (s : Pipeline) : Prop :=
  ∃ es s', (∀ e ∈ es, e ∈ events) ∧ run SensorPipeline.step s es = some s' ∧
    ∃ x, s'.produced = s.produced ++ [x]

theorem Publishes.cons {events : List PipelineEvent} {s t : Pipeline} {e : PipelineEvent}
    (he : e ∈ events) (hstep : SensorPipeline.step s e = some t)
    (hproduced : t.produced = s.produced) (h : Publishes events t) :
    Publishes events s := by
  obtain ⟨es, s', hes, hrun, x, hx⟩ := h
  refine ⟨e :: es, s', ?_, run_cons_eq_some.mpr ⟨t, hstep, hrun⟩, x, ?_⟩
  · intro f hf
    rcases List.mem_cons.mp hf with rfl | hf
    · exact he
    · exact hes f hf
  · rw [hx, hproduced]

end BikeMcu.SensorFanOut
