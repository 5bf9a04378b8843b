import BikeMcu.BrakePath

namespace BikeMcu.UploadPath

open BikeMcu.TransitionSystem
open BikeMcu.RunHistory
open BikeMcu.RunLedger
open BikeMcu.CString
open BikeMcu.Printf
open BikeMcu.Storage
open BikeMcu.FloatDetector (Arithmetic)
open BikeMcu.SensorPipeline
open BikeMcu.SensorFanOut
open BikeMcu.TelemetryLine
open BikeMcu.UdpClient
open BikeMcu.BikeSystem

/-- The upload task's own history. -/
def uploadHistory (scratch : Vector UInt8 128) (es : List BikeEvent) : UdpClient.History :=
  steps UdpClient.step (UdpClient.init scratch) (es.filterMap uploadLabel)

theorem uploaded_step {p p' : Pipeline} {e : PipelineEvent} (he : e ≠ .upload)
    (h : SensorPipeline.step p e = some p') : p'.uploaded = p.uploaded := by
  cases e with
  | upload => exact absurd rfl he
  | receive =>
      obtain ⟨-, x, q, d, w, -, -, rfl⟩ := step_receive_eq_some h
      rfl
  | isr now =>
      cases Option.some.inj h
      unfold gpioHandshakeIsrHandler
      split <;> rfl
  | _ =>
      obtain ⟨-, rfl⟩ := guarded_eq_some.mp h
      rfl

/-- The samples taken from the upload queue are those that the task receives. -/
def queueLedger : Ledger BikeSystem.step (fun _ => True) Sample where
  taken x := (uploadLabel x.2).elim [] receivedSamples
  done _ := []
  todo s := s.sensor.uploaded
  balance s e t _ hstep := by
    rw [List.nil_append]
    cases e with
    | sensor e =>
        obtain ⟨he, p, hp, hrest⟩ := step_sensor_eq_some hstep
        have hsensor : t.sensor = p := by
          rcases hrest with ⟨-, rfl⟩ | ⟨a, b, -, -, rfl⟩ <;> rfl
        rw [hsensor, uploaded_step he hp]
        exact List.append_nil _
    | board e =>
        obtain ⟨-, -, b, -, rfl⟩ := step_board_eq_some hstep
        exact List.append_nil _
    | ble e =>
        obtain ⟨b, rfl, -⟩ := step_ble_eq_some hstep
        exact List.append_nil _
    | upload a =>
        obtain ⟨-, u, -, ⟨x, q, rfl, -, rfl⟩ | ⟨hreceived, rfl⟩⟩ := step_upload_eq_some hstep
        · rfl
        · simp [uploadLabel, hreceived]

theorem uploaded_of_run {a : Arithmetic} {n : Nvs} {read : Bool} {ok : Fin 4 → Bool}
    {scratch : Vector UInt8 128} {es : List BikeEvent} {s : Bike}
    (hrun : run BikeSystem.step (BikeSystem.boot a n read ok scratch) es = some s) :
    s.sensor.uploaded = (es.filterMap uploadLabel).flatMap receivedSamples := by
  have hqueue := queueLedger.run (fun _ _ _ _ _ => trivial) trivial hrun
  have hdone : (steps BikeSystem.step (BikeSystem.boot a n read ok scratch) es).flatMap
      queueLedger.done = [] := List.flatMap_eq_nil_iff.mpr fun _ _ => rfl
  rw [hdone, List.nil_append] at hqueue
  rw [flatMap_filterMap, ← flatMap_events _ hrun]
  exact hqueue.symm

/-- Over every run of the unit, the samples taken from the upload queue are those given up
to a call of `socket()`, those sent, and the one in hand, in this order: one is given up
for each call, until and including the first that succeeds, and no socket is opened
after it. What is sent goes to this socket and is the whole line of its sample, and the
sequence numbers sent increase. -/
theorem samples_uploaded (a : Arithmetic) (n : Nvs) (read : Bool) (ok : Fin 4 → Bool)
    (scratch : Vector UInt8 128) (es : List BikeEvent) (s : Bike)
    (hrun : run BikeSystem.step (BikeSystem.boot a n read ok scratch) es = some s) :
    s.sensor.uploaded = (uploadHistory scratch es).flatMap dropped ++
        ((uploadHistory scratch es).flatMap sent).map Datagram.sample ++ inHand s.uploader ∧
      Phase (uploadHistory scratch es) s.uploader ∧
      (∀ d ∈ (uploadHistory scratch es).flatMap sent, d.sock = 0 ∧
        (0 ≤ d.timer → d.payload = bytes (format (line d.timer d.sample.data)))) ∧
      (s.sensor.produced.length < 2 ^ 31 →
        ((uploadHistory scratch es).flatMap sent).Pairwise fun d d' =>
          d.sample.data.seq < d'.sample.data.seq) := by
  have hsensor : run SensorPipeline.step (SensorPipeline.init a) (es.filterMap sensorLabel) =
      some s.sensor := sensorProjection.run hrun
  have hupload : run UdpClient.step (UdpClient.init scratch) (es.filterMap uploadLabel) =
      some s.uploader := uploadProjection.run hrun
  have hfan : FanOut s.sensor := fanOut_of_run hsensor
  have haccount : Account (uploadHistory scratch es) s.uploader := account_of_run hupload
  have hsamples : s.sensor.uploaded = (uploadHistory scratch es).flatMap dropped ++
      ((uploadHistory scratch es).flatMap sent).map Datagram.sample ++ inHand s.uploader := by
    have hledger := sampleLedger.run (fun _ _ _ _ _ => trivial) trivial hupload
    have htaken : (uploadHistory scratch es).flatMap sampleLedger.taken =
        (es.filterMap uploadLabel).flatMap receivedSamples :=
      flatMap_events receivedSamples hupload
    rw [uploaded_of_run hrun, ← htaken, ← haccount.split]
    exact hledger
  have hsublist : (((uploadHistory scratch es).flatMap sent).map Datagram.sample).Sublist
      s.sensor.produced := by
    have huploaded := (List.sublist_append_left _ _).trans hfan.uploads
    rw [hsamples] at huploaded
    exact ((List.sublist_append_right _ _).trans (List.sublist_append_left _ _)).trans huploaded
  have hscaled : AllScaled s.sensor :=
    invariant_of_run (fun _ _ _ h => h.step) (allScaled_init a) hsensor
  refine ⟨hsamples, haccount.phase, ?_, ?_⟩
  · intro d hd
    obtain ⟨hsock, hpayload⟩ := haccount.payloads d hd
    refine ⟨hsock, ?_⟩
    intro htimer
    have hdata : Scaled d.sample.data :=
      hscaled.2 d.sample (hsublist.subset (List.mem_map_of_mem hd))
    rw [hpayload, composed, msg_eq_line htimer hdata]
  · intro hlen
    have hsent := (hfan.increasing hlen).sublist hsublist
    rwa [List.pairwise_map] at hsent

def firstIteration : List PipelineEvent :=
  .give :: iteration .take (reading 1 0) (reading 2 0)

def secondIteration : List PipelineEvent :=
  iteration (.timeout none) (reading 3 0) (reading 4 0)

/-- The upload of the latest sample of a run of the sensor. -/
def uploads (es : List PipelineEvent) (timer : Int64) (call : UploadStep) : List BikeEvent :=
  ((run SensorPipeline.step (SensorPipeline.init .exact) es).bind fun s =>
      s.produced.getLast?).toList.map (fun x => .upload (.receive x)) ++
    [.upload (.snprintf timer), .upload call]

/-- Two samples while the network is up: the first costs the socket. -/
def uploadTwo : List BikeEvent :=
  BoardSystem.online.map .board ++ .board (.main true) :: firstIteration.map .sensor ++
    uploads firstIteration 1000 (.socket true) ++ secondIteration.map .sensor ++
    uploads (firstIteration ++ secondIteration) 6000 (.sendto true)

theorem samples_uploaded_second :
    ∃ s, run BikeSystem.step
        (BikeSystem.boot .exact ⟨none, none⟩ true (fun _ => true) (Vector.replicate 128 0))
        uploadTwo = some s ∧
      s.sensor.uploaded.length = 2 ∧
      ∀ d ∈ (uploadHistory (Vector.replicate 128 0) uploadTwo).flatMap sent,
        d.timer = 6000 ∧ d.payload = bytes (format (line d.timer d.sample.data)) := by
  obtain ⟨s, hrun, hs⟩ := exists_run_of_any
    (show (run BikeSystem.step
        (BikeSystem.boot .exact ⟨none, none⟩ true (fun _ => true) (Vector.replicate 128 0))
        uploadTwo).any (fun s => decide (s.sensor.uploaded.length = 2)) = true by decide +kernel)
  have hsent := (samples_uploaded .exact ⟨none, none⟩ true (fun _ => true) (Vector.replicate 128 0)
    uploadTwo s hrun).2.2.1
  have htimer : ∀ d ∈ (uploadHistory (Vector.replicate 128 0) uploadTwo).flatMap sent,
      d.timer = 6000 := by decide +kernel
  refine ⟨s, hrun, of_decide_eq_true hs, ?_⟩
  intro d hd
  exact ⟨htimer d hd, (hsent d hd).2 (by rw [htimer d hd]; decide)⟩

end BikeMcu.UploadPath
