import Mathlib.Logic.Function.Basic

namespace BikeMcu.TaskKernel

inductive TaskStatus where
  | absent
  | alive
  | deleted
  deriving DecidableEq, Repr

/-- Status of every task, each of which is created at most once, with a log of the
deletions aimed at a task that did not exist at that moment. -/
structure TaskTable (Task : Type) where
  status : Task → TaskStatus
  badDeletes : List Task

def create {Task : Type} [DecidableEq Task] (k : TaskTable Task) (t : Task) :
    TaskTable Task :=
  { k with status := Function.update k.status t .alive }

/-- `vTaskDelete`: the target goes away at whatever point it has reached. -/
def delete {Task : Type} [DecidableEq Task] (k : TaskTable Task) (t : Task) :
    TaskTable Task :=
  if k.status t = .alive then
    { k with status := Function.update k.status t .deleted }
  else
    { k with badDeletes := t :: k.badDeletes }

@[simp] theorem status_create_self {Task : Type} [DecidableEq Task]
    (k : TaskTable Task) (t : Task) : (create k t).status t = .alive := by
  simp [create]

theorem status_create_of_ne {Task : Type} [DecidableEq Task]
    (k : TaskTable Task) {t u : Task} (h : u ≠ t) :
    (create k t).status u = k.status u := by
  simp [create, h]

@[simp] theorem badDeletes_create {Task : Type} [DecidableEq Task]
    (k : TaskTable Task) (t : Task) :
    (create k t).badDeletes = k.badDeletes := rfl

theorem status_delete_self {Task : Type} [DecidableEq Task]
    (k : TaskTable Task) (t : Task) : (delete k t).status t ≠ .alive := by
  by_cases h : k.status t = .alive <;> simp [delete, h]

theorem status_delete_of_ne {Task : Type} [DecidableEq Task]
    (k : TaskTable Task) {t u : Task} (h : u ≠ t) :
    (delete k t).status u = k.status u := by
  by_cases ht : k.status t = .alive <;> simp [delete, ht, h]

theorem badDeletes_delete_of_alive {Task : Type} [DecidableEq Task]
    (k : TaskTable Task) {t : Task} (h : k.status t = .alive) :
    (delete k t).badDeletes = k.badDeletes := by
  simp [delete, h]

theorem alive_of_alive_delete {Task : Type} [DecidableEq Task]
    (k : TaskTable Task) {t u : Task} (h : (delete k t).status u = .alive) :
    u ≠ t ∧ k.status u = .alive := by
  have hne : u ≠ t := by
    rintro rfl
    exact status_delete_self k u h
  exact ⟨hne, (status_delete_of_ne k hne) ▸ h⟩

end BikeMcu.TaskKernel
