import BikeMcu.RunHistory
import BikeMcu.ScanCycle

namespace BikeMcu.RadioRecovery

open BikeMcu.TransitionSystem
open BikeMcu.RunHistory
open BikeMcu.BleClient
open BikeMcu.ScanCycle

def Linkable (s : Radio) : Prop :=
  s.linked = true ∨ s.opening = true ∨ Alert s

/-- The last way to a link is gone with this event: a scan ends with nothing under way,
the stack refuses the open or reports it as failed, or a link is lost behind the one
scan. -/
def loses (s : Radio) : RadioEvent → Bool
  | .gap (.scanResultEvt _ _ advName) openOk =>
      idle s && !openOk && decide (advName = some remoteDeviceName)
  | .gap (.scanStartCompleteEvt ok) _ => idle s && !ok
  | .gap .searchInqCmplEvt _ => idle s
  | .gap (.scanStopCompleteEvt ok) _ => idle s && ok
  | .gattc _ (.openEvt ok) => !ok && !s.linked && !decide (Alert s)
  | .gattc _ .disconnectEvt => !s.opening && decide (s.scan = .off)
  | _ => false

/-- What the callback asks for on the event. -/
def radioCalls : Radio × RadioEvent → List Call
  | (s, .gap e _) => (espGapCb s.client e).calls
  | (s, .gattc gattcIf e) => (gattcProfileEventHandler s.client gattcIf e).calls

theorem not_idle_iff (s : Radio) : idle s = false ↔ s.linked = true ∨ s.opening = true := by
  cases hlinked : s.linked <;> simp [idle, hlinked]

theorem linkable_iff (s : Radio) : Linkable s ↔ idle s = false ∨ Alert s := by
  rw [not_idle_iff, Linkable, or_assoc]

/-- An advertisement that is ignored takes no way to a link: the flag that hides the named
device is set only beside an open or a link. -/
theorem loses_ignored {s : Radio} {bda : BdAddr} {bleAddrType : UInt8}
    {advName : Option (List UInt8)} {openOk : Bool} (hs : Linkable s)
    (hignored : ¬ (advName = some remoteDeviceName ∧ s.client.connect = false)) :
    loses s (.gap (.scanResultEvt bda bleAddrType advName) openOk) = false := by
  by_contra hloses
  simp only [loses, Bool.not_eq_false, Bool.and_eq_true, decide_eq_true_eq] at hloses
  obtain ⟨⟨hidle, -⟩, hname⟩ := hloses
  rcases (linkable_iff s).mp hs with hbusy | halert
  · rw [hidle] at hbusy
    cases hbusy
  · exact hignored ⟨hname, halert.1⟩

theorem linkable_step_iff {s t : Radio} {e : RadioEvent} (hs : Linkable s)
    (h : ScanCycle.step s e = some t) : Linkable t ↔ loses s e = false := by
  obtain ⟨hadm, rfl⟩ := guarded_eq_some.mp h
  cases e with
  | gap e openOk =>
      cases e with
      | scanParamSetCompleteEvt => cases hadm
      | scanStartCompleteEvt ok =>
          have hscan : s.scan = .requested := of_decide_eq_true hadm
          cases ok with
          | true =>
              have hkeep : Alert s ↔ s.client.connect = false := by simp [Alert, hscan]
              rw [linkable_iff, hkeep] at hs
              simpa [linkable_iff, Alert, react, progress, callback, espGapCb, idle, loses]
                using hs
          | false =>
              simp [linkable_iff, Alert, react, progress, callback, espGapCb, idle, loses]
      | scanResultEvt bda bleAddrType advName =>
          rw [react_scanResult]
          split
          · rename_i hmatch
            obtain ⟨rfl, -⟩ := hmatch
            cases openOk <;>
              simp [linkable_iff, Alert, progress, idle, loses]
          · exact iff_of_true hs (loses_ignored hs ‹_›)
      | searchInqCmplEvt =>
          simp [linkable_iff, Alert, react, progress, callback, espGapCb, idle, loses]
      | scanStopCompleteEvt ok =>
          cases ok with
          | true => simp [linkable_iff, Alert, react, progress, callback, espGapCb, idle, loses]
          | false => exact iff_of_true hs (by simp [loses])
      | otherEvt => exact iff_of_true hs rfl
  | gattc gattcIf e =>
      rw [react_gattc]
      have hconnect := connect_gattc s.client gattcIf e
      cases e with
      | connectEvt connId remoteBda => simp [Linkable, progress, loses]
      | openEvt ok =>
          have halert : Alert s ↔ s.client.connect = false ∧ s.scan ≠ .off := Iff.rfl
          rw [loses, Linkable, Alert]
          simp only [progress, hconnect, ← halert]
          cases ok <;> cases s.linked <;> simp
      | disconnectEvt =>
          simp only [linkable_iff, Alert, progress, idle, loses, hconnect]
          cases s.opening <;> simp
      | _ =>
          refine iff_of_true ?_ rfl
          simpa only [Linkable, Alert, progress, hconnect] using hs

/-- Without a way to a link every event is ignored. -/
theorem lost_step {s t : Radio} {e : RadioEvent} (hs : ¬ Linkable s)
    (h : ScanCycle.step s e = some t) : ¬ Linkable t ∧ radioCalls (s, e) = [] := by
  obtain ⟨hadm, rfl⟩ := guarded_eq_some.mp h
  simp only [Linkable, not_or, Bool.not_eq_true] at hs
  obtain ⟨hlinked, hopening, halert⟩ := hs
  have hstay : ∀ {t : Radio}, t.linked = s.linked → t.opening = s.opening →
      (Alert t → Alert s) → ¬ Linkable t := by
    rintro t hl ho ha (hlink | hopen | hal)
    · rw [hl, hlinked] at hlink
      cases hlink
    · rw [ho, hopening] at hopen
      cases hopen
    · exact halert (ha hal)
  cases e with
  | gap e openOk =>
      cases e with
      | scanParamSetCompleteEvt => cases hadm
      | scanStartCompleteEvt ok =>
          have hscan : s.scan = .requested := of_decide_eq_true hadm
          exact ⟨hstay rfl rfl fun ha => ⟨ha.1, by simp [hscan]⟩, rfl⟩
      | scanResultEvt bda bleAddrType advName =>
          have hscan : s.scan = .running := of_decide_eq_true hadm
          have hmatch : ¬ (advName = some remoteDeviceName ∧ s.client.connect = false) :=
            fun hmatch => halert ⟨hmatch.2, by simp [hscan]⟩
          refine ⟨?_, ?_⟩
          · rw [react_scanResult]
            exact if_neg hmatch ▸ hstay rfl rfl id
          · simp [radioCalls, espGapCb, hmatch]
      | searchInqCmplEvt => exact ⟨hstay rfl rfl fun ha => absurd rfl ha.2, rfl⟩
      | scanStopCompleteEvt ok =>
          cases ok with
          | true => exact ⟨hstay rfl rfl fun ha => absurd rfl ha.2, rfl⟩
          | false => exact ⟨hstay rfl rfl id, rfl⟩
      | otherEvt => exact ⟨hstay rfl rfl id, rfl⟩
  | gattc gattcIf e =>
      -- an event of a link cannot come, and the callback registers once only
      cases e <;> simp [admissible, hlinked, hopening] at hadm

theorem exists_link_of_opening {s : Radio} (hs : s.opening = true) :
    ∃ t, run ScanCycle.step s [.gattc 0 (.connectEvt 0 (Vector.replicate 6 0))] = some t ∧
      t.linked = true := by
  refine ⟨_, run_cons_eq_some.mpr ⟨_, guarded_eq_some.mpr ⟨?_, rfl⟩, rfl⟩, ?_⟩
  · simp [admissible, hs]
  · rw [react_gattc]
    rfl

theorem exists_link_of_running {s : Radio} (hscan : s.scan = .running)
    (hconnect : s.client.connect = false) :
    ∃ es t, run ScanCycle.step s es = some t ∧ t.linked = true := by
  let e := RadioEvent.gap
    (.scanResultEvt (Vector.replicate 6 0) 0 (some remoteDeviceName)) true
  have hstep : ScanCycle.step s e = some (react s e) :=
    guarded_eq_some.mpr ⟨by simp [e, admissible, hscan], rfl⟩
  have hopening : (react s e).opening = true := by
    simp [e, react_scanResult, hconnect]
  obtain ⟨t, hrun, ht⟩ := exists_link_of_opening hopening
  exact ⟨_, t, run_cons_eq_some.mpr ⟨_, hstep, hrun⟩, ht⟩

theorem exists_link {s : Radio} (hs : Linkable s) :
    ∃ es t, run ScanCycle.step s es = some t ∧ t.linked = true := by
  rcases hs with hlinked | hopening | ⟨hconnect, hscan⟩
  · exact ⟨[], s, rfl, hlinked⟩
  · obtain ⟨t, hrun, ht⟩ := exists_link_of_opening hopening
    exact ⟨_, t, hrun, ht⟩
  cases hs : s.scan with
  | off => exact absurd hs hscan
  | running => exact exists_link_of_running hs hconnect
  | requested =>
      let started : Radio := { s with scan := .running }
      have hstep : ScanCycle.step s (.gap (.scanStartCompleteEvt true) false) = some started :=
        guarded_eq_some.mpr ⟨by simp [admissible, hs], rfl⟩
      obtain ⟨es, t, hrun, ht⟩ := exists_link_of_running (s := started) rfl hconnect
      exact ⟨_, t, run_cons_eq_some.mpr ⟨started, hstep, hrun⟩, ht⟩

/-- Since then nothing has been asked for. -/
structure Lost (h : List (Radio × RadioEvent)) (s : Radio) : Prop where
  unlinkable : ¬ Linkable s
  silent : ∀ x ∈ h, radioCalls x = []

theorem Lost.step {h : List (Radio × RadioEvent)} {s t : Radio} {e : RadioEvent}
    (hs : Lost h s) (hstep : ScanCycle.step s e = some t) : Lost (h ++ [(s, e)]) t := by
  obtain ⟨hlost, hcalls⟩ := lost_step hs.unlinkable hstep
  refine ⟨hlost, ?_⟩
  intro x hx
  rcases List.mem_append.mp hx with hx | hx
  · exact hs.silent x hx
  · exact List.mem_singleton.mp hx ▸ hcalls

theorem lost_of_run {s t : Radio} {es : List RadioEvent} (hs : ¬ Linkable s)
    (hrun : run ScanCycle.step s es = some t) : Lost (steps ScanCycle.step s es) t := by
  have hlost : Lost ([] ++ steps ScanCycle.step s es) t :=
    history_of_run (fun _ _ _ _ h hs => h.step hs) ⟨hs, by simp⟩ hrun
  rwa [List.nil_append] at hlost

theorem linkable_run_iff {s t : Radio} {es : List RadioEvent} (hs : Linkable s)
    (hrun : run ScanCycle.step s es = some t) :
    Linkable t ↔ EachStep ScanCycle.step (fun s e => loses s e = false) s es := by
  induction es generalizing s with
  | nil =>
      obtain rfl : s = t := by simpa [run] using hrun
      exact iff_of_true hs trivial
  | cons e es ih =>
      obtain ⟨u, hu, htail⟩ := run_cons_eq_some.mp hrun
      have hnext := linkable_step_iff hs hu
      by_cases hu' : Linkable u
      · rw [ih hu' htail]
        constructor
        · intro hrest
          exact ⟨hnext.mp hu', fun v hv => Option.some.inj (hu.symm.trans hv) ▸ hrest⟩
        · exact fun heach => heach.2 u hu
      · refine iff_of_false (lost_of_run hu' htail).unlinkable ?_
        exact fun heach => hu' (hnext.mpr heach.1)

/-- After any run a link is still possible exactly if no event of the run has taken the
last way to one. Once it is not, no event that can still come makes the client ask the
stack for anything or command the lamp, in any continuation. -/
theorem link_possible_iff (gattcIf : UInt16) (es : List RadioEvent) (s : Radio)
    (hrun : run ScanCycle.step (init gattcIf) es = some s) :
    ((∃ fs t, run ScanCycle.step s fs = some t ∧ t.linked = true) ↔
      EachStep ScanCycle.step (fun s e => loses s e = false) (init gattcIf) es) ∧
    ((∃ fs t, run ScanCycle.step s fs = some t ∧ t.linked = true) ∨
      ∀ fs t, run ScanCycle.step s fs = some t →
        ∀ x ∈ steps ScanCycle.step s fs, radioCalls x = []) := by
  have hinit : Linkable (init gattcIf) := .inr (.inr ⟨rfl, nofun⟩)
  have hpossible : (∃ fs t, run ScanCycle.step s fs = some t ∧ t.linked = true) ↔
      Linkable s := by
    constructor
    · rintro ⟨fs, t, hfs, ht⟩
      by_contra hlost
      exact (lost_of_run hlost hfs).unlinkable (.inl ht)
    · exact exists_link
  rw [hpossible, linkable_run_iff hinit hrun]
  refine ⟨Iff.rfl, ?_⟩
  rw [← linkable_run_iff hinit hrun]
  by_cases hs : Linkable s
  · exact .inl hs
  · exact .inr fun fs t hfs => (lost_of_run hs hfs).silent

/-- The link is lost after the scan was stopped for it. -/
theorem no_link_after_disconnect :
    ∃ s, run ScanCycle.step (init 3) linkedOnce = some s ∧
      (¬ ∃ fs t, run ScanCycle.step s fs = some t ∧ t.linked = true) ∧
      ∀ fs t, run ScanCycle.step s fs = some t →
        ∀ x ∈ steps ScanCycle.step s fs, radioCalls x = [] := by
  obtain ⟨s, hrun, -⟩ := exists_run_of_any
    (show (run ScanCycle.step (init 3) linkedOnce).any idle = true by decide)
  obtain ⟨hiff, hquiet⟩ := link_possible_iff 3 linkedOnce s hrun
  have hnone : ¬ ∃ fs t, run ScanCycle.step s fs = some t ∧ t.linked = true :=
    fun hlink => absurd (hiff.mp hlink) (by decide)
  exact ⟨s, hrun, hnone, hquiet.resolve_left hnone⟩

end BikeMcu.RadioRecovery
