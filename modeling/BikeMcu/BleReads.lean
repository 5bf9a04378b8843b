import BikeMcu.RunHistory
import BikeMcu.BleClient

namespace BikeMcu.BleReads

open BikeMcu.RunHistory
open BikeMcu.BoardSystem
open BikeMcu.BleClient

def handle (c : Client) (x : UInt16 × GattcEvent) : Outcome :=
  gattcProfileEventHandler c x.1 x.2

/-- The elements read while the handler works through a list of events. -/
def readsOf (c : Client) (es : List (UInt16 × GattcEvent)) : List Access :=
  (steps (fun c x => some (handle c x).client) c es).flatMap fun x => (handle x.1 x.2).reads

def hasBytes : GattcEvent → Bool
  | .notifyEvt valueLen _ => decide (valueLen ≠ 0)
  | _ => true

theorem toNat_pos {n : UInt16} (h : ¬ n = 0) : 0 < n.toNat := by
  have hne : n.toNat ≠ 0 := fun hzero => h (UInt16.toNat_inj.mp hzero)
  omega

theorem inBounds_of_readsFirst {count found : UInt16} {reads : List Access}
    (h : ReadsFirst count found reads) {x : Access} (hx : x ∈ reads) : x.InBounds := by
  obtain ⟨rfl, hcount, hfound⟩ := h x hx
  exact ⟨toNat_pos hfound, toNat_pos hcount⟩

theorem reads_notified (c : Client) (valueLen : UInt16) (memory : ℕ → UInt8) :
    (∀ x ∈ (notified c (notifyValue valueLen memory)).reads, x.InBounds) ↔
      valueLen ≠ 0 := by
  have hreads : (notified c (notifyValue valueLen memory)).reads =
      [{ index := 0, allocated := valueLen.toNat, reported := valueLen.toNat }] := rfl
  rw [hreads]
  simp only [List.mem_singleton, forall_eq, Access.InBounds, and_self]
  constructor
  · rintro hpos rfl
    cases hpos
  · exact toNat_pos

theorem reads_handle (c : Client) (x : UInt16 × GattcEvent) :
    (∀ a ∈ (handle c x).reads, a.InBounds) ↔ hasBytes x.2 = true := by
  obtain ⟨gattcIf, e⟩ := x
  cases e with
  | notifyEvt valueLen memory =>
      simp only [hasBytes, decide_eq_true_eq]
      exact reads_notified c valueLen memory
  | searchCmplEvt ok connId answers =>
      refine iff_of_true ?_ rfl
      intro a ha
      simp only [handle, gattcProfileEventHandler] at ha
      split at ha
      · exact inBounds_of_readsFirst (findChar_cases c gattcIf connId answers).1 ha
      · cases ha
  | regForNotifyEvt ok handle answers =>
      refine iff_of_true ?_ rfl
      intro a ha
      simp only [BleReads.handle, gattcProfileEventHandler] at ha
      split at ha
      · exact inBounds_of_readsFirst (findDescr_cases c gattcIf handle answers).1 ha
      · cases ha
  | _ =>
      refine iff_of_true ?_ rfl
      intro a ha
      simp only [handle, gattcProfileEventHandler] at ha
      first
        | cases ha
        | (split at ha <;> cases ha)

theorem reads_run (c : Client) (es : List (UInt16 × GattcEvent)) :
    (∀ a ∈ readsOf c es, a.InBounds) ↔ ∀ x ∈ es, hasBytes x.2 = true := by
  induction es generalizing c with
  | nil => simp [readsOf, steps]
  | cons x es ih =>
      have htail := ih (handle c x).client
      have hreads : readsOf c (x :: es) =
          (handle c x).reads ++ readsOf (handle c x).client es := rfl
      rw [hreads, List.forall_mem_append, List.forall_mem_cons, reads_handle, htail]

/-- The lamp command of a notification depends on its own bytes alone. -/
def OwnBytesOnly (valueLen : UInt16) : Prop :=
  ∀ (c : Client) (gattcIf : UInt16) (memory memory' : ℕ → UInt8),
    (∀ k, k < valueLen.toNat → memory k = memory' k) →
      (handle c (gattcIf, .notifyEvt valueLen memory)).calls =
        (handle c (gattcIf, .notifyEvt valueLen memory')).calls

theorem ownBytesOnly_iff (valueLen : UInt16) : OwnBytesOnly valueLen ↔ valueLen ≠ 0 := by
  constructor
  · rintro h rfl
    have hcalls := h initClient 0 (fun _ => 'L'.toUInt8) (fun _ => 0)
      (fun k hk => absurd hk (Nat.not_lt_zero k))
    revert hcalls
    decide
  · intro hlen c gattcIf memory memory' hagree
    have hfirst : memory 0 = memory' 0 := hagree 0 (toNat_pos hlen)
    simp only [handle, gattcProfileEventHandler, notified, notifyValue, Buffer.read, hfirst]

/-- Over every list of events, the handler reads in bounds exactly if no
notification among them is empty, and exactly the notifications of non-zero length
command the lamp by their own bytes. -/
theorem reads_in_bounds_iff (c : Client) (es : List (UInt16 × GattcEvent)) :
    ((∀ a ∈ readsOf c es, a.InBounds) ↔ ∀ x ∈ es, hasBytes x.2 = true) ∧
      ∀ valueLen, OwnBytesOnly valueLen ↔ valueLen ≠ 0 :=
  ⟨reads_run c es, ownBytesOnly_iff⟩

/-- An empty notification: the byte behind it, here an 'L' left in memory, is read
and switches on the left indicator. -/
theorem empty_notification_reads_stale_byte :
    (¬ ∀ (c : Client) (es : List (UInt16 × GattcEvent)),
      ∀ a ∈ readsOf c es, a.InBounds) ∧ ¬ ∀ valueLen, OwnBytesOnly valueLen := by
  constructor
  · intro h
    have hread := h initClient [(0, .notifyEvt 0 fun _ => 'L'.toUInt8)]
      { index := 0, allocated := 0, reported := 0 } (by decide)
    exact absurd hread (by decide)
  · intro h
    exact (ownBytesOnly_iff 0).mp (h 0) rfl

end BikeMcu.BleReads
