import BikeMcu.LampMode

/-!
The persisted lamp mode over power cuts. Each written value carries the datagram
it comes from, so that the mode of the next boot can be compared with the last
command that became durable.
-/

namespace BikeMcu.PowerCycle

open BikeMcu.TransitionSystem
open BikeMcu.LampCommands
open BikeMcu.Storage
open BikeMcu.UdpServer
open BikeMcu.BoardSystem
open BikeMcu.LampMode

/-- `received` is the datagram `udp_server_task` received last in this boot, `setBy`
and `durableBy` the datagrams that wrote the stored and the durable value. -/
structure Powered where
  board : Board
  received : Option (List UInt8)
  setBy : Option (List UInt8)
  durableBy : Option (List UInt8)

inductive PowerEvent where
  | board (e : BoardEvent)
  | persist
  | powerCut (ok : Fin 4 → Bool)

def nvsSucceeds : BoardEvent → Bool
  | .udp (.storage ok) => ok
  | _ => true

def receivedAfter (s : Powered) : BoardEvent → Option (List UInt8)
  | .udp (.recvfrom (some d)) => some d
  | _ => s.received

def setByAfter (s : Powered) (e : BoardEvent) : Option (List UInt8) :=
  match e, s.board.udp.point with
  | .udp (.storage _), .storing _ .nvsSetI8 _ => s.received
  | _, _ => s.setBy

def durableByAfter (s : Powered) (e : BoardEvent) : Option (List UInt8) :=
  match e, s.board.udp.point with
  | .udp (.storage _), .storing _ .nvsCommit _ => s.setBy
  | _, _ => s.durableBy

def nextBoot (s : Powered) (ok : Fin 4 → Bool) : Board :=
  boot s.board.udp.nvs true ok

/-- A statement of the board whose NVS call succeeds, a flash write ahead of its
commit, or a power cut followed by the next boot. -/
def step (s : Powered) : PowerEvent → Option Powered
  | .board e =>
      if nvsSucceeds e = true then
        (BoardSystem.step s.board e).map fun b =>
          { board := b, received := receivedAfter s e, setBy := setByAfter s e,
            durableBy := durableByAfter s e }
      else none
  | .persist =>
      some { s with
        board.udp.nvs.durable := s.board.udp.nvs.stored
        durableBy := s.setBy }
  | .powerCut ok =>
      some { s with board := nextBoot s ok, received := none, setBy := s.durableBy }

def init (ok : Fin 4 → Bool) : Powered :=
  { board := boot ⟨none, none⟩ true ok, received := none, setBy := none,
    durableBy := none }

inductive WrittenBy : Option UInt8 → Option (List UInt8) → Prop where
  | never : WrittenBy none none
  | off (x : UInt8) : WrittenBy (some 'O'.toUInt8) (some ['O'.toUInt8, x])
  | on (x : UInt8) : WrittenBy (some 'S'.toUInt8) (some ['S'.toUInt8, x])

def isModeCommand : List UInt8 → Bool
  | [command, _] => command = 'O'.toUInt8 || command = 'S'.toUInt8
  | _ => false

structure Attributed (s : Powered) : Prop where
  stored : WrittenBy s.board.udp.nvs.stored s.setBy
  durable : WrittenBy s.board.udp.nvs.durable s.durableBy
  single : stores s.board.udp.point = [] ∨
    ∃ c p, stores s.board.udp.point = [(c, p)] ∧ WrittenBy (some c) s.received
  settled : (∀ c, (c, .nvsCommit) ∉ stores s.board.udp.point) →
    s.board.udp.nvs.stored = s.board.udp.nvs.durable ∧ s.setBy = s.durableBy
  committing : ∀ c, (c, .nvsCommit) ∈ stores s.board.udp.point → s.setBy = s.received
  carried : (∀ x ∈ stores s.board.udp.point, x.2 = .nvsClose) →
    ∀ d, s.received = some d → isModeCommand d = true → s.durableBy = some d

theorem stores_datagram (d : List UInt8) :
    isModeCommand d = false ∧ stores (.command (handleDatagram (d.take rxLimit))) = [] ∨
      ∃ c, WrittenBy (some c) (some d) ∧
        stores (.command (handleDatagram (d.take rxLimit))) = [(c, .nvsOpen)] := by
  by_cases hmode : isModeCommand d = true
  · right
    unfold isModeCommand at hmode
    split at hmode
    · rename_i command x
      rw [Bool.or_eq_true, decide_eq_true_eq, decide_eq_true_eq] at hmode
      rcases hmode with rfl | rfl
      · exact ⟨_, .off x, rfl⟩
      · exact ⟨_, .on x, rfl⟩
    · cases hmode
  · refine .inl ⟨by simpa using hmode, ?_⟩
    rw [stores, List.map_eq_nil_iff, List.eq_nil_iff_forall_not_mem]
    intro c hc
    obtain ⟨command, x, rfl, hcommand⟩ := mem_storedBy_handleDatagram hc
    obtain ⟨-, rfl | rfl⟩ := mem_storedBy_commandHandler hcommand
    · exact hmode rfl
    · exact hmode rfl

def receivesMode : PowerEvent → Bool
  | .board (.udp (.recvfrom (some d))) => isModeCommand d
  | _ => false

/-- `i2c_init` ends by sending `g`, which the controller accepts if the transfer
succeeds, with the flag at `enable`. -/
structure Boots (b : Board) (sent : Bool) (g : Signal) (enable : Bool) : Prop where
  lastCommand : b.lamp.lastCommand = g.byte
  lastByte : sent = true → b.lamp.lastByte = some g.byte
  flag : b.bmcuTaillightEnable = enable

theorem attributed_init (ok : Fin 4 → Bool) : Attributed (init ok) := by
  refine ⟨.never, .never, .inl rfl, ?_, ?_, ?_⟩
  · intro _
    exact ⟨rfl, rfl⟩
  · rintro c hc
    cases hc
  · rintro _ d hd
    cases hd

theorem Attributed.powerCut {s : Powered} (h : Attributed s) (ok : Fin 4 → Bool) :
    Attributed { s with
      board := nextBoot s ok, received := none, setBy := s.durableBy } := by
  refine ⟨h.durable, h.durable, .inl rfl, ?_, ?_, ?_⟩
  · intro _
    exact ⟨rfl, rfl⟩
  · rintro c hc
    cases hc
  · rintro _ d hd
    cases hd

theorem Attributed.persist {s : Powered} (h : Attributed s) :
    Attributed { s with
      board.udp.nvs.durable := s.board.udp.nvs.stored
      durableBy := s.setBy } := by
  refine ⟨h.stored, h.stored, h.single, fun _ => ⟨rfl, rfl⟩, h.committing, ?_⟩
  intro hclosed d hd hmode
  have hnone : ∀ c, (c, .nvsCommit) ∉ stores s.board.udp.point := by
    rintro c hc
    cases hclosed _ hc
  exact (h.settled hnone).2.trans (h.carried hclosed d hd hmode)

/-- Statements that neither receive a datagram nor make an NVS call. -/
theorem Attributed.other {s t : Powered} (h : Attributed s)
    (hnvs : t.board.udp.nvs = s.board.udp.nvs)
    (hstores : stores t.board.udp.point = stores s.board.udp.point)
    (hreceived : t.received = s.received) (hset : t.setBy = s.setBy)
    (hdurable : t.durableBy = s.durableBy) : Attributed t := by
  refine ⟨?_, ?_, ?_, ?_, ?_, ?_⟩
  · rw [hnvs, hset]
    exact h.stored
  · rw [hnvs, hdurable]
    exact h.durable
  · rw [hstores, hreceived]
    exact h.single
  · rw [hstores, hnvs, hset, hdurable]
    exact h.settled
  · rw [hstores, hset, hreceived]
    exact h.committing
  · rw [hstores, hreceived, hdurable]
    exact h.carried

theorem Attributed.recvfrom {s t : Powered} {d : List UInt8} (h : Attributed s)
    (hpoint : s.board.udp.point = .recvfrom)
    (hnvs : t.board.udp.nvs = s.board.udp.nvs)
    (hnext : t.board.udp.point = .command (handleDatagram (d.take rxLimit)))
    (hreceived : t.received = some d) (hset : t.setBy = s.setBy)
    (hdurable : t.durableBy = s.durableBy) : Attributed t := by
  have hsettled := h.settled (by simp [hpoint, stores])
  rcases stores_datagram d with ⟨hother, hnone⟩ | ⟨c, hwritten, hone⟩
  · refine ⟨by rw [hnvs, hset]; exact h.stored, by rw [hnvs, hdurable]; exact h.durable,
      ?_, ?_, ?_, ?_⟩
    · exact .inl (by rw [hnext, hnone])
    · rw [hnvs, hset, hdurable]
      exact fun _ => hsettled
    · rw [hnext, hnone]
      rintro c hc
      cases hc
    · intro _ d' hd' hmode
      rw [hreceived, Option.some.injEq] at hd'
      rw [← hd', hother] at hmode
      cases hmode
  · refine ⟨by rw [hnvs, hset]; exact h.stored, by rw [hnvs, hdurable]; exact h.durable,
      ?_, ?_, ?_, ?_⟩
    · exact .inr ⟨c, .nvsOpen, by rw [hnext, hone], hreceived ▸ hwritten⟩
    · rw [hnvs, hset, hdurable]
      exact fun _ => hsettled
    · rw [hnext, hone]
      intro c' hc'
      simp at hc'
    · rw [hnext, hone]
      intro hclosed
      cases hclosed _ (List.mem_singleton_self _)

theorem Attributed.storage {s t : Powered} {c : UInt8} {p : StoragePoint}
    {todo : List Action} (h : Attributed s)
    (hpoint : s.board.udp.point = .storing c p todo)
    (hnvs : t.board.udp.nvs = (storageWriteChar c true s.board.udp.nvs p).1)
    (hnext : t.board.udp.point = ((storageWriteChar c true s.board.udp.nvs p).2.elim
      (.command todo) fun q => .storing c q todo))
    (hreceived : t.received = s.received)
    (hset : t.setBy = if p = .nvsSetI8 then s.received else s.setBy)
    (hdurable : t.durableBy = if p = .nvsCommit then s.setBy else s.durableBy) :
    Attributed t := by
  obtain ⟨c', p', hone, hwritten⟩ : ∃ c p, stores s.board.udp.point = [(c, p)] ∧
      WrittenBy (some c) s.received := by
    rcases h.single with hnone | hone
    · rw [hpoint] at hnone
      cases hnone
    · exact hone
  obtain ⟨⟨rfl, rfl⟩, hrest⟩ : (c = c' ∧ p = p') ∧
      (todo.filterMap storedBy).map (fun c => (c, StoragePoint.nvsOpen)) = [] := by
    rw [hpoint, stores, List.cons.injEq, Prod.mk.injEq] at hone
    exact hone
  rw [← hreceived] at hwritten
  cases p with
  | nvsOpen =>
      have hsettled := h.settled (by simp [hone])
      have hnow : stores t.board.udp.point = [(c, .nvsSetI8)] := by
        rw [hnext, ← hrest]
        rfl
      refine ⟨?_, ?_, .inr ⟨c, _, hnow, hwritten⟩, ?_, ?_, ?_⟩
      · rw [hnvs, hset]
        exact h.stored
      · rw [hnvs, hdurable]
        exact h.durable
      · rw [hnvs, hset, hdurable]
        exact fun _ => hsettled
      · simp [hnow]
      · simp [hnow]
  | nvsSetI8 =>
      have hnow : stores t.board.udp.point = [(c, .nvsCommit)] := by
        rw [hnext, ← hrest]
        rfl
      have hby : t.setBy = t.received := by
        rw [hset, hreceived]
        rfl
      refine ⟨?_, ?_, .inr ⟨c, _, hnow, hwritten⟩, ?_, ?_, ?_⟩
      · rw [hnvs, hby]
        exact hwritten
      · rw [hnvs, hdurable]
        exact h.durable
      · simp [hnow]
      · exact fun _ _ => hby
      · simp [hnow]
  | nvsCommit =>
      have hnow : stores t.board.udp.point = [(c, .nvsClose)] := by
        rw [hnext, ← hrest]
        rfl
      have hby : s.setBy = s.received := h.committing c (by simp [hone])
      refine ⟨?_, ?_, .inr ⟨c, _, hnow, hwritten⟩, ?_, ?_, ?_⟩
      · rw [hnvs, hset]
        exact h.stored
      · rw [hnvs, hdurable]
        exact h.stored
      · rw [hnvs, hset, hdurable]
        exact fun _ => ⟨rfl, rfl⟩
      · simp [hnow]
      · intro _ d hd _
        rw [hdurable, ← hd, hreceived]
        exact hby
  | nvsClose =>
      have hnow : stores t.board.udp.point = [] := by
        rw [hnext, ← hrest]
        rfl
      have hsettled := h.settled (by simp [hone])
      refine ⟨?_, ?_, .inl hnow, ?_, ?_, ?_⟩
      · rw [hnvs, hset]
        exact h.stored
      · rw [hnvs, hdurable]
        exact h.durable
      · rw [hnvs, hset, hdurable]
        exact fun _ => hsettled
      · simp [hnow]
      · intro _ d hd hmode
        rw [hdurable]
        exact h.carried (by simp [hone]) d (hreceived ▸ hd) hmode

theorem ghosts_of_other {s : Powered} {e : BoardEvent}
    (hrecv : ∀ d, e ≠ .udp (.recvfrom (some d))) (hstorage : ∀ ok, e ≠ .udp (.storage ok)) :
    receivedAfter s e = s.received ∧ setByAfter s e = s.setBy ∧
      durableByAfter s e = s.durableBy := by
  refine ⟨?_, ?_, ?_⟩
  · unfold receivedAfter
    split
    · exact absurd rfl (hrecv _)
    · rfl
  · unfold setByAfter
    split
    · exact absurd rfl (hstorage _)
    · rfl
  · unfold durableByAfter
    split
    · exact absurd rfl (hstorage _)
    · rfl

theorem Attributed.boardStep {s : Powered} {e : BoardEvent} {b : Board}
    (h : Attributed s) (hnvs : nvsSucceeds e = true)
    (hstep : BoardSystem.step s.board e = some b) :
    Attributed { board := b, received := receivedAfter s e, setBy := setByAfter s e,
                 durableBy := durableByAfter s e } := by
  obtain ⟨-, ⟨hother, hudp⟩ | ⟨a, rfl, hu⟩⟩ := enable_step hstep
  · obtain ⟨hreceived, hset, hdurable⟩ :=
      ghosts_of_other (s := s) (fun d => hother _) (fun ok => hother _)
    exact h.other (congrArg Server.nvs hudp) (congrArg (fun u => stores u.point) hudp)
      hreceived hset hdurable
  rcases stores_step hu with ⟨d, rfl, hpoint, hcell, hnext⟩ |
    ⟨c, p, todo, ok, rfl, hpoint, hcell, hnext⟩ | ⟨hrecv, hstorage, hcell, hnext⟩
  · exact h.recvfrom hpoint hcell hnext rfl rfl rfl
  · obtain rfl : ok = true := hnvs
    refine h.storage hpoint hcell hnext rfl ?_ ?_
    · cases p <;> simp [setByAfter, hpoint]
    · cases p <;> simp [durableByAfter, hpoint]
  · obtain ⟨hreceived, hset, hdurable⟩ :=
      ghosts_of_other (s := s) (e := .udp a) (by simpa using hrecv) (by simpa using hstorage)
    exact h.other hcell hnext hreceived hset hdurable

theorem Attributed.step {s t : Powered} {e : PowerEvent} (h : Attributed s)
    (hstep : PowerCycle.step s e = some t) : Attributed t := by
  cases e with
  | persist =>
      cases hstep
      exact h.persist
  | powerCut ok =>
      cases hstep
      exact h.powerCut ok
  | board e =>
      simp only [PowerCycle.step] at hstep
      split at hstep
      · obtain ⟨b, hb, rfl⟩ := Option.map_eq_some_iff.mp hstep
        exact h.boardStep ‹_› hb
      · cases hstep

theorem attributed_of_run {first : Fin 4 → Bool} {es : List PowerEvent} {s : Powered}
    (hrun : run PowerCycle.step (init first) es = some s) : Attributed s :=
  invariant_of_run (fun _ _ _ h hs => h.step hs) (attributed_init first) hrun

/-- Without a store ahead, a step that receives no mode command leaves the cell as
it is. -/
theorem nvs_of_no_mode {s t : Powered} {e : PowerEvent} (h : Attributed s)
    (hnone : stores s.board.udp.point = []) (he : receivesMode e = false)
    (hstep : PowerCycle.step s e = some t) :
    stores t.board.udp.point = [] ∧ t.board.udp.nvs = s.board.udp.nvs := by
  have hsettled := (h.settled (by simp [hnone])).1
  cases e with
  | persist =>
      cases hstep
      refine ⟨hnone, ?_⟩
      change ({ stored := s.board.udp.nvs.stored, durable := s.board.udp.nvs.stored } : Nvs) = _
      exact congrArg (Nvs.mk _) hsettled
  | powerCut ok =>
      cases hstep
      refine ⟨rfl, ?_⟩
      change ({ stored := s.board.udp.nvs.durable, durable := s.board.udp.nvs.durable } : Nvs) = _
      exact congrArg (fun x => Nvs.mk x _) hsettled.symm
  | board e =>
      simp only [PowerCycle.step] at hstep
      split at hstep
      · obtain ⟨b, hb, rfl⟩ := Option.map_eq_some_iff.mp hstep
        obtain ⟨-, ⟨-, hudp⟩ | ⟨a, rfl, hu⟩⟩ := enable_step hb
        · exact ⟨hudp ▸ hnone, congrArg Server.nvs hudp⟩
        rcases stores_step hu with ⟨d, rfl, -, hcell, hnext⟩ |
          ⟨c, p, todo, ok, -, hpoint, -⟩ | ⟨-, -, hcell, hnext⟩
        · refine ⟨?_, hcell⟩
          rcases stores_datagram d with ⟨-, hstores⟩ | ⟨c, hwritten, -⟩
          · exact hnext ▸ hstores
          · cases hwritten with
            | off x => cases he
            | on x => cases he
        · rw [hpoint] at hnone
          cases hnone
        · exact ⟨hnext.trans hnone, hcell⟩
      · cases hstep

theorem nvs_of_no_mode_run {s t : Powered} {es : List PowerEvent} (h : Attributed s)
    (hnone : stores s.board.udp.point = []) (hes : ∀ e ∈ es, receivesMode e = false)
    (hrun : run PowerCycle.step s es = some t) : t.board.udp.nvs = s.board.udp.nvs := by
  induction es generalizing s with
  | nil =>
      have heq : s = t := by simpa [run] using hrun
      rw [heq]
  | cons e es ih =>
      obtain ⟨u, hu, htail⟩ := run_cons_eq_some.mp hrun
      obtain ⟨he, hes⟩ := List.forall_mem_cons.mp hes
      obtain ⟨hnext, hcell⟩ := nvs_of_no_mode h hnone he hu
      exact (ih (h.step hu) hnext hes htail).trans hcell

theorem boots_of_bootMode {n : Nvs} {g : Signal} {enable : Bool} (ok : Fin 4 → Bool)
    (h : bootMode (storageReadChar true n.reboot) = (g, enable)) :
    Boots (boot n true ok) (ok 3) g enable := by
  refine ⟨?_, ?_, ?_⟩
  · simp [boot, i2cInit, sendAlone, h]
  · intro hsent
    simp [boot, i2cInit, sendAlone, h, hsent, Lamp.lastByte]
  · simp [boot, i2cInit, h]

theorem WrittenBy.boots {n : Nvs} {written : Option (List UInt8)}
    (h : WrittenBy n.durable written) (ok : Fin 4 → Bool) :
    (∀ x, written = some ['O'.toUInt8, x] → Boots (boot n true ok) (ok 3) .off false) ∧
    (∀ x, written = some ['S'.toUInt8, x] → Boots (boot n true ok) (ok 3) .normal true) ∧
    (written = none → Boots (boot n true ok) (ok 3) .normal true) ∧
    ∀ d, written = some d → isModeCommand d = true := by
  have hdistinct : 'O'.toUInt8 ≠ 'S'.toUInt8 := by decide
  obtain ⟨stored, durable⟩ := n
  cases h with
  | never =>
      refine ⟨by simp, by simp, ?_, by simp⟩
      exact fun _ => boots_of_bootMode ok rfl
  | off x =>
      refine ⟨?_, ?_, by simp, ?_⟩
      · exact fun _ _ => boots_of_bootMode ok rfl
      · intro y hy
        exact absurd (List.cons.inj (Option.some.inj hy)).1 hdistinct
      · intro d hd
        rw [← Option.some.inj hd]
        rfl
  | on x =>
      refine ⟨?_, ?_, by simp, ?_⟩
      · intro y hy
        exact absurd (List.cons.inj (Option.some.inj hy)).1 hdistinct.symm
      · exact fun _ _ => boots_of_bootMode ok rfl
      · intro d hd
        rw [← Option.some.inj hd]
        rfl

/-- After any run with power cuts, the next boot ends with 'O' and the flag false
if the last command that became durable was an 'O', with 'N' and the flag true if
it was an 'S' or there was none; only such two-byte datagrams become durable, each
has become so when its handling is over, and between two of them, whatever else is
received, the next boot stays what it is. -/
theorem mode_survives_power_cuts (first : Fin 4 → Bool) (es : List PowerEvent)
    (s : Powered) (hrun : run PowerCycle.step (init first) es = some s)
    (ok : Fin 4 → Bool) :
    (∀ x, s.durableBy = some ['O'.toUInt8, x] → Boots (nextBoot s ok) (ok 3) .off false) ∧
    (∀ x, s.durableBy = some ['S'.toUInt8, x] → Boots (nextBoot s ok) (ok 3) .normal true) ∧
    (s.durableBy = none → Boots (nextBoot s ok) (ok 3) .normal true) ∧
    (∀ d, s.durableBy = some d → isModeCommand d = true) ∧
    (∀ d, s.received = some d → isModeCommand d = true →
      s.board.udp.point = .command [] → s.durableBy = some d) ∧
    (s.board.udp.point = .recvfrom → ∀ fs t, run PowerCycle.step s fs = some t →
      (∀ e ∈ fs, receivesMode e = false) → nextBoot t ok = nextBoot s ok) := by
  have h : Attributed s := attributed_of_run hrun
  obtain ⟨hoff, hon, hnever, hmode⟩ := h.durable.boots ok
  refine ⟨hoff, hon, hnever, hmode, ?_, ?_⟩
  · intro d hd hdmode hpoint
    exact h.carried (by simp [hpoint, stores]) d hd hdmode
  · intro hpoint fs t hfs hno
    rw [nextBoot, nextBoot, nvs_of_no_mode_run h (by simp [hpoint, stores]) hno hfs]

def threeBytes : List UInt8 := ['S'.toUInt8, '\r'.toUInt8, '\n'.toUInt8]

/-- An 'O' carried out up to its commit, the power cut before the answer, and a
three-byte datagram in the next boot. -/
def cutAfterCommit : List PowerEvent :=
  (online ++ (modeCommand .off 'O'.toUInt8).take 13).map .board ++
    .powerCut (fun _ => true) :: (online ++ [BoardEvent.udp (.socket true),
      .udp (.bind true), .udp (.recvfrom (some threeBytes))]).map .board

theorem mode_survives_power_cuts_after_commit :
    ∃ s, run PowerCycle.step (init fun _ => true) cutAfterCommit = some s ∧
      s.received = some threeBytes ∧
      (nextBoot s fun _ => true).lamp.lastByte = some 'O'.toUInt8 ∧
      (nextBoot s fun _ => true).bmcuTaillightEnable = false := by
  obtain ⟨s, hrun, hs⟩ := exists_run_of_any
    (show (run PowerCycle.step (init fun _ => true) cutAfterCommit).any
      (fun s => decide (s.durableBy = some ['O'.toUInt8, '\n'.toUInt8] ∧
        s.received = some threeBytes)) = true by decide)
  obtain ⟨hdurable, hreceived⟩ := of_decide_eq_true hs
  obtain ⟨-, hbyte, hflag⟩ :=
    (mode_survives_power_cuts _ _ s hrun fun _ => true).1 _ hdurable
  exact ⟨s, hrun, hreceived, hbyte rfl, hflag⟩

end BikeMcu.PowerCycle
