import BikeMcu.HeapBlocks
import BikeMcu.TransitionSystem
import BikeMcu.BleClient

namespace BikeMcu.BleBuffers

open BikeMcu.TransitionSystem
open BikeMcu.HeapBlocks
open BikeMcu.BleClient

inductive StaticPtr where
  | charElemResult
  | descrElemResult
  deriving DecidableEq, Repr

structure Memory where
  heap : Heap
  statics : StaticPtr → Ptr

def initMemory : Memory := { heap := .empty, statics := fun _ => none }

/-- What the two queries do to the memory. The stack stores the `found` elements it
reports, and the callback then reads those at `reads`. A buffer that has been used is
freed, but its static pointer stays. -/
def queryBuffer (b : StaticPtr) (countOk : Bool) (count : UInt16) (memory queryOk : Bool)
    (found : UInt16) (reads : List ℕ) (m : Memory) : Option Memory :=
  if !countOk then some m
  else if count = 0 then some m
  else
    let r := m.heap.malloc count.toNat memory
    let m : Memory := { heap := r.2, statics := Function.update m.statics b r.1 }
    if (m.statics b).isNone then some m
    else if !queryOk then
      (m.heap.free (m.statics b)).map fun h =>
        { heap := h, statics := Function.update m.statics b none }
    else if m.heap.room (m.statics b) found.toNat &&
        reads.all fun i => m.heap.room (m.statics b) (i + 1) then
      (m.heap.free (m.statics b)).map fun h => { m with heap := h }
    else none

def readIndices (r : Outcome) : List ℕ := r.reads.map Access.index

def memoryStep (c : Client) (gattcIf : UInt16) (m : Memory) : GattcEvent → Option Memory
  | .searchCmplEvt ok connId a =>
      if ok && c.getServer then
        queryBuffer .charElemResult a.countOk a.count a.memory a.queryOk a.found
          (readIndices (findChar c gattcIf connId a)) m
      else some m
  | .regForNotifyEvt ok handle a =>
      if ok then
        queryBuffer .descrElemResult a.countOk a.count a.memory a.queryOk a.found
          (readIndices (findDescr c gattcIf handle a)) m
      else some m
  | _ => some m

/-- The client with its memory; there is no next state behind an access that is not
allowed. -/
def step (s : Client × Memory) (x : UInt16 × GattcEvent) : Option (Client × Memory) :=
  (memoryStep s.1 x.1 s.2 x.2).map fun m =>
    ((gattcProfileEventHandler s.1 x.1 x.2).client, m)

/-- The query gets as far as its buffer, and the stack then stores more elements than it
was told there is room for. -/
def storesTooMany (countOk : Bool) (count : UInt16) (memory queryOk : Bool)
    (found : UInt16) : Bool :=
  countOk && count != 0 && memory && queryOk && decide (count < found)

def overruns (c : Client) : GattcEvent → Bool
  | .searchCmplEvt ok _ a =>
      ok && c.getServer && storesTooMany a.countOk a.count a.memory a.queryOk a.found
  | .regForNotifyEvt ok _ a =>
      ok && storesTooMany a.countOk a.count a.memory a.queryOk a.found
  | _ => false

theorem queryBuffer_spec (b : StaticPtr) (countOk : Bool) (count : UInt16)
    (memory queryOk : Bool) (found : UInt16) {reads : List ℕ}
    (hreads : ∀ i ∈ reads, i < count.toNat) (m : Memory) :
    (storesTooMany countOk count memory queryOk found = true ∧
      queryBuffer b countOk count memory queryOk found reads m = none) ∨
    (storesTooMany countOk count memory queryOk found = false ∧
      ∃ m', queryBuffer b countOk count memory queryOk found reads m = some m' ∧
        m'.heap.size = m.heap.size) := by
  cases countOk with
  | false => exact .inr ⟨rfl, m, rfl, rfl⟩
  | true =>
      by_cases hcount : count = 0
      · exact .inr ⟨by simp [storesTooMany, hcount], m, by simp [queryBuffer, hcount], rfl⟩
      cases memory with
      | false =>
          refine .inr ⟨by simp [storesTooMany], ?_⟩
          simp [queryBuffer, hcount, Heap.malloc]
      | true =>
          obtain ⟨h, hfree, hsize⟩ := free_allocate m.heap count.toNat
          cases queryOk with
          | false =>
              refine .inr ⟨by simp [storesTooMany], ?_⟩
              simp [queryBuffer, hcount, Heap.malloc, hfree, hsize]
          | true =>
              have hall : ∀ i ∈ reads, i + 1 ≤ count.toNat := fun i hi => hreads i hi
              by_cases hfound : count < found
              · refine .inl ⟨by simp [storesTooMany, hcount, hfound], ?_⟩
                have hroom : ¬ found.toNat ≤ count.toNat :=
                  not_le.mpr (UInt16.lt_iff_toNat_lt.mp hfound)
                simp [queryBuffer, hcount, Heap.malloc, room_allocate, hroom]
              · refine .inr ⟨by simp [storesTooMany, hfound], ?_⟩
                have hroom : found.toNat ≤ count.toNat :=
                  not_lt.mp fun hlt => hfound (UInt16.lt_iff_toNat_lt.mpr hlt)
                have hread : (reads.all fun i => decide (i + 1 ≤ count.toNat)) = true :=
                  List.all_eq_true.mpr fun i hi => decide_eq_true (hall i hi)
                simp only [queryBuffer, Heap.malloc, hcount, room_allocate, hread,
                  decide_eq_true hroom, hfree, Function.update_self, Option.isNone_some,
                  Bool.not_true, Bool.false_eq_true, Bool.and_self, if_true, if_false,
                  Option.map_some]
                exact ⟨_, rfl, hsize⟩

theorem readIndices_lt {count found : UInt16} {r : Outcome}
    (h : ReadsFirst count found r.reads) : ∀ i ∈ readIndices r, i < count.toNat := by
  intro i hi
  obtain ⟨x, hx, rfl⟩ := List.mem_map.mp hi
  obtain ⟨rfl, hcount, -⟩ := h x hx
  exact UInt16.pos_iff_ne_zero.mpr hcount

/-- An event either makes the stack store too much, or leaves as many blocks allocated
as it finds. -/
theorem memoryStep_spec (c : Client) (gattcIf : UInt16) (m : Memory) (e : GattcEvent) :
    (overruns c e = true ∧ memoryStep c gattcIf m e = none) ∨
    (overruns c e = false ∧
      ∃ m', memoryStep c gattcIf m e = some m' ∧ m'.heap.size = m.heap.size) := by
  cases e with
  | searchCmplEvt ok connId a =>
      cases hquery : (ok && c.getServer) with
      | false => exact .inr ⟨by simp [overruns, hquery], m, by simp [memoryStep, hquery], rfl⟩
      | true =>
          simp only [overruns, memoryStep, hquery, Bool.true_and, if_true]
          exact queryBuffer_spec _ _ _ _ _ _
            (readIndices_lt (findChar_cases c gattcIf connId a).1) m
  | regForNotifyEvt ok handle a =>
      cases ok with
      | false => exact .inr ⟨rfl, m, rfl, rfl⟩
      | true =>
          simp only [overruns, memoryStep, Bool.true_and, if_true]
          exact queryBuffer_spec _ _ _ _ _ _
            (readIndices_lt (findDescr_cases c gattcIf handle a).1) m
  | _ => exact .inr ⟨rfl, m, rfl, rfl⟩

/-- Over any sequence of GATT events, with any outcomes of `malloc` and of the queries,
no access through the two pointers goes outside a live block and none is freed twice,
exactly as long as the stack does not itself store more elements than it is given room
for; and after every event all memory is free again. -/
theorem buffers_safe (xs : List (UInt16 × GattcEvent)) :
    ((run step (initClient, initMemory) xs).isSome = true ↔
      EachStep step (fun s x => overruns s.1 x.2 = false) (initClient, initMemory) xs) ∧
    ∀ s, run step (initClient, initMemory) xs = some s → ∀ p, s.2.heap.size p = none := by
  constructor
  · generalize (initClient, initMemory) = s
    induction xs generalizing s with
    | nil => simp [run, EachStep]
    | cons x xs ih =>
        rcases memoryStep_spec s.1 x.1 s.2 x.2 with ⟨hover, hnone⟩ | ⟨hfits, m, hm, -⟩
        · have hstep : step s x = none := by rw [step, hnone, Option.map_none]
          simp [run, EachStep, hstep, hover]
        · have hstep : step s x =
              some ((gattcProfileEventHandler s.1 x.1 x.2).client, m) := by
            rw [step, hm, Option.map_some]
          simp [run, EachStep, hstep, hfits, ih]
  · intro s hrun
    have hkeep : ∀ (s : Client × Memory) x t, (∀ p, s.2.heap.size p = none) →
        step s x = some t → ∀ p, t.2.heap.size p = none := by
      intro s x t hs hstep
      obtain ⟨m, hm, rfl⟩ := Option.map_eq_some_iff.mp hstep
      rcases memoryStep_spec s.1 x.1 s.2 x.2 with ⟨-, hnone⟩ | ⟨-, m', hm', hsize⟩
      · rw [hnone] at hm
        cases hm
      · rw [hm', Option.some.injEq] at hm
        subst hm
        exact fun p => (congrFun hsize p).trans (hs p)
    exact invariant_of_run hkeep (fun _ => rfl) hrun

end BikeMcu.BleBuffers
