import Mathlib.Data.Option.Basic

namespace BikeMcu.Storage

/-- The cell under the key "mychar" of the namespace "storage", as `nvs_get_i8` sees it in
this boot, and what a power cut now would leave of it. -/
structure Nvs where
  stored : Option UInt8
  durable : Option UInt8
  deriving DecidableEq, Repr

inductive StoragePoint where
  | nvsOpen
  | nvsSetI8
  | nvsCommit
  | nvsClose
  deriving DecidableEq, Repr

/-- One NVS call of `storage_write_char(my_char)` with its outcome. The second
component is `none` once the function has returned; a failed `nvs_open` returns
at once and the result of `nvs_commit` is ignored. -/
def storageWriteChar (myChar : UInt8) (ok : Bool) (n : Nvs) :
    StoragePoint → Nvs × Option StoragePoint
  | .nvsOpen => (n, if ok then some .nvsSetI8 else none)
  | .nvsSetI8 =>
      if ok then ({ n with stored := some myChar }, some .nvsCommit)
      else (n, some .nvsClose)
  | .nvsCommit =>
      (if ok then { n with durable := n.stored } else n, some .nvsClose)
  | .nvsClose => (n, none)

def storageReadChar (ok : Bool) (n : Nvs) : UInt8 :=
  if ok then n.stored.getD 0 else 0

def Nvs.reboot (n : Nvs) : Nvs :=
  { n with stored := n.durable }

theorem stored_storageWriteChar (myChar : UInt8) (ok : Bool) (n : Nvs)
    (p : StoragePoint) :
    (storageWriteChar myChar ok n p).1.stored = n.stored ∨
      (storageWriteChar myChar ok n p).1.stored = some myChar := by
  cases p <;> cases ok <;> simp [storageWriteChar]

theorem durable_storageWriteChar (myChar : UInt8) (ok : Bool) (n : Nvs)
    (p : StoragePoint) :
    (storageWriteChar myChar ok n p).1.durable = n.durable ∨
      (storageWriteChar myChar ok n p).1.durable = n.stored := by
  cases p <;> cases ok <;> simp [storageWriteChar]

end BikeMcu.Storage
