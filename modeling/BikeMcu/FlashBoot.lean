import BikeMcu.RunHistory
import BikeMcu.LampMode

/-!
The flash behind the lamp mode when its calls fail: `nvs_flash_init` with the erase that
`app_main` and `ble_init` answer it with, aborts and power cuts in the middle of a boot,
and `storage_write_char` with any outcome of its calls.
-/

namespace BikeMcu.FlashBoot

open BikeMcu.TransitionSystem
open BikeMcu.RunHistory
open BikeMcu.LampCommands
open BikeMcu.Storage
open BikeMcu.UdpServer
open BikeMcu.BoardSystem
open BikeMcu.LampMode

inductive InitResult where
  | ok
  | noFreePages
  | newVersionFound
  | failed
  deriving DecidableEq, Repr

/-- `wiped` is what an erase that reports an error has done nevertheless. -/
inductive EraseResult where
  | ok
  | failed (wiped : Bool)
  deriving DecidableEq, Repr

structure FlashOutcomes where
  first : InitResult
  erase : EraseResult
  second : InitResult
  deriving DecidableEq, Repr

def blank : Nvs := ⟨none, none⟩

/-- Initialise the flash, erase it if that is what the error asks for, and initialise it
again. An `ESP_ERROR_CHECK` that fails aborts, which is `false` here. -/
def flashInit (o : FlashOutcomes) (n : Nvs) : Nvs × Bool :=
  match o.first with
  | .ok => (n, true)
  | .noFreePages | .newVersionFound =>
      match o.erase with
      | .ok => (blank, decide (o.second = .ok))
      | .failed wiped => (if wiped then blank else n, false)
  | .failed => (n, false)

/-- Either the unit is down, and this is what the flash holds, or it is up. -/
inductive Device where
  | down (n : Nvs)
  | up (b : Board)

/-- `appMain` is a boot, up to the end of `ble_init` or to the abort before. -/
inductive DeviceEvent where
  | appMain (start : FlashOutcomes) (read : Bool) (ok : Fin 4 → Bool)
      (bleStart : FlashOutcomes)
  | board (e : BoardEvent)
  | persist
  | powerCut

/-- `ble_init` initialises the flash once more when `i2c_init` has read it. -/
def appMain (start : FlashOutcomes) (read : Bool) (ok : Fin 4 → Bool)
    (bleStart : FlashOutcomes) (n : Nvs) : Device :=
  let r := flashInit start n
  if r.2 then
    let b := boot r.1 read ok
    let r := flashInit bleStart b.udp.nvs
    if r.2 then .up { b with udp := { b.udp with nvs := r.1 } } else .down r.1
  else .down r.1

def step : Device → DeviceEvent → Option Device
  | .down n, .appMain start read ok bleStart =>
      some (appMain start read ok bleStart n.reboot)
  | .up b, .board e => (BoardSystem.step b e).map .up
  | .up b, .persist =>
      some (.up { b with udp.nvs.durable := b.udp.nvs.stored })
  | .up b, .powerCut => some (.down b.udp.nvs)
  | _, _ => none

def wiped (o : FlashOutcomes) : Bool :=
  (o.first = .noFreePages || o.first = .newVersionFound) &&
    match o.erase with
    | .ok => true
    | .failed wiped => wiped

/-- The boot erases the flash, before or after the mode is read. -/
def wipes : DeviceEvent → Bool
  | .appMain start _ _ bleStart => wiped start || ((flashInit start blank).2 && wiped bleStart)
  | _ => false

def receivesMode (c : UInt8) : DeviceEvent → Bool
  | .board (.udp (.recvfrom (some [command, _]))) => decide (command = c)
  | _ => false

/-- A two-byte datagram that starts with `c` has come in, and since then the flash has not
been erased. -/
def Commanded (c : UInt8) (h : List DeviceEvent) : Prop :=
  ∃ pre e post, h = pre ++ e :: post ∧ receivesMode c e = true ∧
    ∀ f ∈ post, wipes f = false

theorem Commanded.concat {c : UInt8} {h : List DeviceEvent} {e : DeviceEvent}
    (hc : Commanded c h) (he : wipes e = false) : Commanded c (h ++ [e]) := by
  obtain ⟨pre, f, post, rfl, hf, hpost⟩ := hc
  refine ⟨pre, f, post ++ [e], by simp, hf, ?_⟩
  intro g hg
  rcases List.mem_append.mp hg with hg | hg
  · exact hpost g hg
  · exact List.mem_singleton.mp hg ▸ he

theorem commanded_concat {c : UInt8} {h : List DeviceEvent} {e : DeviceEvent}
    (he : receivesMode c e = true) : Commanded c (h ++ [e]) :=
  ⟨h, e, [], rfl, he, fun _ hf => absurd hf List.not_mem_nil⟩

def Device.nvs : Device → Nvs
  | .down n => n
  | .up b => b.udp.nvs

def Device.pending : Device → List UInt8
  | .down _ => []
  | .up b => pendingStores b.udp.point

def isMode (c : UInt8) : Prop :=
  c = 'O'.toUInt8 ∨ c = 'S'.toUInt8

/-- The bytes that the flash holds or may be given next. -/
def Device.bytes (d : Device) : List UInt8 :=
  d.nvs.stored.toList ++ d.nvs.durable.toList ++ d.pending

/-- Every one of them comes from a command. -/
def Accounted (h : List DeviceEvent) (d : Device) : Prop :=
  ∀ c ∈ d.bytes, isMode c ∧ Commanded c h

theorem flashInit_fst (o : FlashOutcomes) (n : Nvs) :
    (flashInit o n).1 = if wiped o then blank else n := by
  obtain ⟨first, erase, second⟩ := o
  cases first with
  | ok => rfl
  | failed => rfl
  | noFreePages
  | newVersionFound =>
      cases erase with
      | ok => rfl
      | failed wiped => cases wiped <;> rfl

theorem flashInit_snd (o : FlashOutcomes) (n m : Nvs) :
    (flashInit o n).2 = (flashInit o m).2 := by
  obtain ⟨first, erase, second⟩ := o
  cases first with
  | ok => rfl
  | failed => rfl
  | noFreePages
  | newVersionFound => cases erase <;> rfl

/-- A boot leaves the flash as it was, or empty, and no store is under way behind it. -/
theorem appMain_spec (start : FlashOutcomes) (read : Bool) (ok : Fin 4 → Bool)
    (bleStart : FlashOutcomes) (n : Nvs) :
    (appMain start read ok bleStart n.reboot).nvs =
        (if wipes (.appMain start read ok bleStart) then blank else n.reboot) ∧
      (appMain start read ok bleStart n.reboot).pending = [] := by
  have hsecond : (flashInit bleStart (flashInit start n.reboot).1.reboot).1 =
      if wiped start || wiped bleStart then blank else n.reboot := by
    rw [flashInit_fst, flashInit_fst]
    cases wiped start <;> cases wiped bleStart <;> rfl
  have hboot : (boot (flashInit start n.reboot).1 read ok).udp.nvs =
      (flashInit start n.reboot).1.reboot := rfl
  rw [wipes, ← flashInit_snd start n.reboot blank, appMain]
  cases hstarted : (flashInit start n.reboot).2 with
  | false =>
      rw [if_neg Bool.false_ne_true]
      simp [Device.nvs, Device.pending, flashInit_fst]
  | true =>
      rw [if_pos rfl, Bool.true_and]
      simp only [hboot]
      split
      · exact ⟨hsecond, rfl⟩
      · exact ⟨hsecond, rfl⟩

/-- A statement of the server puts into the flash what it held or what was to be stored. -/
theorem udp_bytes {s t : Server} {a : UdpStep} (h : UdpServer.step s a = some t) {c : UInt8}
    (hc : c ∈ t.nvs.stored.toList ++ t.nvs.durable.toList) :
    c ∈ s.nvs.stored.toList ++ s.nvs.durable.toList ∨ c ∈ pendingStores s.point := by
  rcases nvs_step h with ⟨-, hnvs⟩ | ⟨c', p, todo, ok, -, hpoint, hnvs⟩
  · exact .inl (hnvs ▸ hc)
  · rw [hnvs, List.mem_append] at hc
    rw [hpoint, List.mem_append]
    rcases hc with hc | hc
    · rcases stored_storageWriteChar c' ok s.nvs p with hsame | hnew
      · exact .inl (.inl (hsame ▸ hc))
      · rw [hnew, Option.toList_some, List.mem_singleton] at hc
        exact .inr (hc ▸ List.mem_cons_self)
    · rcases durable_storageWriteChar c' ok s.nvs p with hsame | hnew
      · exact .inl (.inr (hsame ▸ hc))
      · exact .inl (.inl (hnew ▸ hc))

theorem bytes_appMain {start bleStart : FlashOutcomes} {read : Bool} {ok : Fin 4 → Bool}
    {n : Nvs} {c : UInt8} (hc : c ∈ (appMain start read ok bleStart n.reboot).bytes) :
    c ∈ (Device.down n).bytes ∧ wipes (.appMain start read ok bleStart) = false := by
  obtain ⟨hnvs, hpending⟩ := appMain_spec start read ok bleStart n
  rw [Device.bytes, hnvs, hpending, List.append_nil] at hc
  cases hwipes : wipes (.appMain start read ok bleStart) with
  | true => simp [hwipes, blank] at hc
  | false =>
      rw [hwipes] at hc
      simp only [Bool.false_eq_true, if_false, Nvs.reboot, List.mem_append, or_self] at hc
      exact ⟨by simp [Device.bytes, Device.nvs, hc], rfl⟩

theorem bytes_step {d t : Device} {e : DeviceEvent} (h : FlashBoot.step d e = some t)
    {c : UInt8} (hc : c ∈ t.bytes) :
    (c ∈ d.bytes ∧ wipes e = false) ∨ (isMode c ∧ receivesMode c e = true) := by
  cases d with
  | down n =>
      cases e with
      | appMain start read ok bleStart =>
          obtain rfl := Option.some.inj h
          exact .inl (bytes_appMain hc)
      | board e => cases h
      | persist => cases h
      | powerCut => cases h
  | up b =>
      cases e with
      | appMain start read ok bleStart => cases h
      | persist =>
          obtain rfl := Option.some.inj h
          left
          refine ⟨?_, rfl⟩
          simp only [Device.bytes, Device.nvs, Device.pending, List.mem_append] at hc ⊢
          tauto
      | powerCut =>
          obtain rfl := Option.some.inj h
          left
          refine ⟨?_, rfl⟩
          simp only [Device.bytes, Device.nvs, Device.pending, List.append_nil] at hc ⊢
          exact List.mem_append_left _ hc
      | board e =>
          obtain ⟨b', hb, rfl⟩ := Option.map_eq_some_iff.mp h
          obtain ⟨-, ⟨-, hudp⟩ | ⟨a, rfl, hu⟩⟩ := enable_step hb
          · left
            refine ⟨?_, rfl⟩
            simpa only [Device.bytes, Device.nvs, Device.pending, hudp] using hc
          · simp only [Device.bytes, Device.nvs, Device.pending] at hc ⊢
            rcases List.mem_append.mp hc with hc | hc
            · exact .inl ⟨List.mem_append.mpr (udp_bytes hu hc), rfl⟩
            · rcases pendingStores_step hu hc with hold | ⟨datagram, rfl, hnew⟩
              · exact .inl ⟨List.mem_append_right _ hold, rfl⟩
              · obtain ⟨command, x, rfl, hcommand⟩ := mem_storedBy_handleDatagram hnew
                obtain ⟨rfl, hmode⟩ := mem_storedBy_commandHandler hcommand
                exact .inr ⟨hmode, decide_eq_true rfl⟩

theorem Accounted.step {h : List DeviceEvent} {d t : Device} {e : DeviceEvent}
    (hd : Accounted h d) (hstep : FlashBoot.step d e = some t) : Accounted (h ++ [e]) t := by
  intro c hc
  rcases bytes_step hstep hc with ⟨hold, hkeeps⟩ | ⟨hmode, hnew⟩
  · exact ⟨(hd c hold).1, (hd c hold).2.concat hkeeps⟩
  · exact ⟨hmode, commanded_concat hnew⟩

theorem boot_off_iff (n : Nvs) (read : Bool) (ok : Fin 4 → Bool) :
    (boot n read ok).bmcuTaillightEnable = false ↔
      read = true ∧ n.durable = some 'O'.toUInt8 := by
  cases read with
  | true => simpa [SameMode] using sameMode_boot n ok
  | false =>
      have henable : (boot n false ok).bmcuTaillightEnable = true := by
        simp only [boot, i2cInit, storageReadChar, Bool.false_eq_true, if_false]
        decide
      simp [henable]

theorem lastByte_boot (n : Nvs) (read : Bool) {ok : Fin 4 → Bool} (hok : ok 3 = true) :
    (boot n read ok).lamp.lastByte = some (restoreSignal (boot n read ok)).byte := by
  have hbyte : (boot n read ok).lamp.lastByte =
      some (bootMode (storageReadChar read n.reboot)).1.byte := by
    simp [boot, i2cInit, sendAlone, hok, Lamp.lastByte]
  have hmode : ∀ c, (bootMode c).1 = if (bootMode c).2 then .normal else .off := by
    intro c
    unfold bootMode
    split <;> rfl
  rw [hbyte, hmode]
  rfl

theorem up_of_appMain {start bleStart : FlashOutcomes} {read : Bool} {ok : Fin 4 → Bool}
    {n : Nvs} {b : Board} (h : appMain start read ok bleStart n = .up b) :
    b.bmcuTaillightEnable = (boot (flashInit start n).1 read ok).bmcuTaillightEnable ∧
      b.lamp = (boot (flashInit start n).1 read ok).lamp := by
  simp only [appMain] at h
  split at h
  · split at h
    · cases h
      exact ⟨rfl, rfl⟩
    · cases h
  · cases h

/-- Whatever fails, in any number of boots: the flash never holds anything but an 'O' or
an 'S' of a two-byte datagram received since it was last erased. So the unit comes up off
exactly if it can read an 'O' that was not erased in this very boot, and only if one has
been received; and it shows the mode it is in unless the transfer fails. -/
theorem mode_was_commanded (es : List DeviceEvent) (d : Device)
    (hrun : run FlashBoot.step (.down blank) es = some d) :
    (∀ c, d.nvs.durable = some c → isMode c ∧ Commanded c es) ∧
      ∀ start read ok bleStart b,
        FlashBoot.step d (.appMain start read ok bleStart) = some (.up b) →
          (b.bmcuTaillightEnable = false ↔
            wiped start = false ∧ read = true ∧ d.nvs.durable = some 'O'.toUInt8) ∧
          (b.bmcuTaillightEnable = false → Commanded 'O'.toUInt8 es) ∧
          (ok 3 = true → b.lamp.lastByte = some (restoreSignal b).byte) := by
  have hd : Accounted ([] ++ es) d :=
    trace_of_run (fun _ _ _ _ h hs => h.step hs) (fun _ hc => by cases hc) hrun
  rw [List.nil_append] at hd
  have hdurable : ∀ c, d.nvs.durable = some c → isMode c ∧ Commanded c es :=
    fun c hc => hd c (by simp [Device.bytes, hc])
  refine ⟨hdurable, ?_⟩
  intro start read ok bleStart b hboot
  cases d with
  | up b => cases hboot
  | down n =>
      obtain ⟨henable, hlamp⟩ := up_of_appMain (Option.some.inj hboot)
      have hiff : b.bmcuTaillightEnable = false ↔
          wiped start = false ∧ read = true ∧ n.durable = some 'O'.toUInt8 := by
        rw [henable, boot_off_iff, flashInit_fst]
        cases wiped start <;> simp [blank, Nvs.reboot]
      refine ⟨hiff, fun hoff => (hdurable _ (hiff.mp hoff).2.2).2, ?_⟩
      intro hok
      rw [hlamp, lastByte_boot _ _ hok, restoreSignal, restoreSignal, henable]

def noFailure : FlashOutcomes := ⟨.ok, .ok, .ok⟩

/-- An 'O' carried out up to its commit, a power cut, and a boot whose `nvs_flash_init`
fails. -/
def offThenAbort : List DeviceEvent :=
  .appMain noFailure true (fun _ => true) noFailure ::
    ((online ++ (modeCommand .off 'O'.toUInt8).take 13).map .board ++
      [.powerCut, .appMain ⟨.failed, .ok, .ok⟩ true (fun _ => true) noFailure])

def holdsOff : Device → Bool
  | .down n => n.durable = some 'O'.toUInt8
  | .up _ => false

theorem mode_was_commanded_after_abort :
    ∃ d b, run FlashBoot.step (.down blank) offThenAbort = some d ∧
      FlashBoot.step d (.appMain noFailure true (fun _ => true) noFailure) = some (.up b) ∧
      b.bmcuTaillightEnable = false ∧ Commanded 'O'.toUInt8 offThenAbort := by
  obtain ⟨d, hrun, hd⟩ := exists_run_of_any
    (show (run FlashBoot.step (.down blank) offThenAbort).any holdsOff = true by decide)
  cases d with
  | up b => cases hd
  | down n =>
      have hdurable : n.durable = some 'O'.toUInt8 := of_decide_eq_true hd
      have hboot : FlashBoot.step (.down n)
          (.appMain noFailure true (fun _ => true) noFailure) = some (.up _) := rfl
      obtain ⟨hiff, hcommand, -⟩ := (mode_was_commanded offThenAbort _ hrun).2 _ _ _ _ _ hboot
      have hoff := hiff.mpr ⟨rfl, rfl, hdurable⟩
      exact ⟨_, _, hrun, hboot, hoff, hcommand hoff⟩

end BikeMcu.FlashBoot
