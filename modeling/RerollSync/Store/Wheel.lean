import RerollSync.Store.Schema
import Mathlib.Logic.Function.Basic

/-!
# A wheel across the tables

The rows of one wheel in `wheels`, `wheel_repodata`, `skips` and `work`, read
together.  The other three tables have foreign keys to `wheels`.
-/

namespace RerollSync.Store

open RerollSync.Support

/-- A row of `wheels` with the rows that belong to it. -/
structure Wheel where
  row : WheelRow
  repodata : Option RepodataRow
  skips : Stage → Option SkipRow
  work : Stage → Option WorkRow

instance decidableForallStage {p : Stage → Prop} [DecidablePred p] : Decidable (∀ stage, p stage) :=
  decidable_of_iff (p .fetch ∧ p .convert)
    ⟨fun h stage => match stage with | .fetch => h.1 | .convert => h.2, fun h => ⟨h _, h _⟩⟩

instance decidableExistsStage {p : Stage → Prop} [DecidablePred p] : Decidable (∃ stage, p stage) :=
  decidable_of_iff (p .fetch ∨ p .convert)
    ⟨fun h => h.elim (fun h => ⟨_, h⟩) fun h => ⟨_, h⟩, fun ⟨stage, h⟩ =>
      match stage, h with | .fetch, h => .inl h | .convert, h => .inr h⟩

namespace Db

/-- What belongs to a row with this id. -/
def wheelAt (id : ℕ) (db : Db) (row : WheelRow) : Wheel where
  row := row
  repodata := db.wheelRepodata.get? id
  skips stage := db.skips.get? (id, stage)
  work stage := db.work.get? (id, stage)

/-- The wheel with this id. -/
def wheel? (id : ℕ) (db : Db) : Option Wheel := (db.wheels.get? id).map (db.wheelAt id)

theorem wheel?_eq_some_iff {id : ℕ} {db : Db} {w : Wheel} :
    db.wheel? id = some w ↔ db.wheels.get? id = some w.row ∧ w = db.wheelAt id w.row := by
  rw [wheel?, Option.map_eq_some_iff]
  constructor
  · rintro ⟨row, hrow, rfl⟩
    exact ⟨hrow, rfl⟩
  · rintro ⟨hrow, hw⟩
    exact ⟨w.row, hrow, hw.symm⟩

theorem wheel?_of_get? {id : ℕ} {db : Db} {row : WheelRow} (h : db.wheels.get? id = some row) :
    db.wheel? id = some (db.wheelAt id row) := by
  rw [wheel?, h, Option.map_some]

theorem wheel?_eq_none_iff {id : ℕ} {db : Db} :
    db.wheel? id = none ↔ db.wheels.get? id = none := by
  rw [wheel?, Option.map_eq_none_iff]

/-- No row of the other tables belongs to the id. -/
structure Unowned (id : ℕ) (db : Db) : Prop where
  wheelRepodata : db.wheelRepodata.get? id = none
  skips : ∀ stage, db.skips.get? (id, stage) = none
  work : ∀ stage, db.work.get? (id, stage) = none

/-- Every row of the other tables belongs to a wheel. -/
def Attached (db : Db) : Prop := ∀ id, db.wheels.get? id = none → db.Unowned id

theorem attached_empty : Db.empty.Attached := fun _ _ => ⟨rfl, fun _ => rfl, fun _ => rfl⟩

theorem Unowned.wheelAt {id : ℕ} {db : Db} (h : db.Unowned id) (row : WheelRow) :
    db.wheelAt id row = ⟨row, none, fun _ => none, fun _ => none⟩ := by
  simp only [Db.wheelAt, h.wheelRepodata, h.skips, h.work]

/-! ### Statements, wheel by wheel -/

variable (db : Db) (id i : ℕ) (stage : Stage) (row : WheelRow)

@[simp] theorem wheelAt_updateWheels (p : ℕ → WheelRow → Bool) (f : WheelRow → WheelRow) :
    (db.updateWheels p f).wheelAt id row = db.wheelAt id row := rfl

@[simp] theorem wheelAt_updateWheel (f : WheelRow → WheelRow) :
    (db.updateWheel i f).wheelAt id row = db.wheelAt id row := rfl

@[simp] theorem wheelAt_addError (error : ErrorRow) :
    (db.addError error).wheelAt id row = db.wheelAt id row := rfl

theorem wheelAt_setRepodata (repodata : RepodataRow) :
    (db.setRepodata i repodata).wheelAt id row =
      if id = i then { db.wheelAt id row with repodata := some repodata }
      else db.wheelAt id row := by
  by_cases hid : id = i <;> simp [wheelAt, setRepodata, Table.get?_set, hid]

theorem wheelAt_setSkip (skip : SkipRow) :
    (db.setSkip i stage skip).wheelAt id row =
      if id = i then
        { db.wheelAt id row with
          skips := Function.update (db.wheelAt id row).skips stage (some skip) }
      else db.wheelAt id row := by
  by_cases hid : id = i
  · simp only [wheelAt, setSkip, Table.get?_set, Prod.mk.injEq, hid, true_and, if_true,
      Wheel.mk.injEq, and_true]
    funext stage'
    by_cases hstage : stage' = stage <;> simp [hstage]
  · simp [wheelAt, setSkip, Table.get?_set, hid]

theorem wheelAt_setWork (work : WorkRow) :
    (db.setWork i stage work).wheelAt id row =
      if id = i then
        { db.wheelAt id row with
          work := Function.update (db.wheelAt id row).work stage (some work) }
      else db.wheelAt id row := by
  by_cases hid : id = i
  · simp only [wheelAt, setWork, Table.get?_set, Prod.mk.injEq, hid, true_and, if_true,
      Wheel.mk.injEq]
    funext stage'
    by_cases hstage : stage' = stage <;> simp [hstage]
  · simp [wheelAt, setWork, Table.get?_set, hid]

theorem wheelAt_deleteWork (p : ℕ → Stage → Bool) :
    (db.deleteWork p).wheelAt id row =
      { db.wheelAt id row with
        work := fun stage => if p id stage then none else (db.wheelAt id row).work stage } := by
  simp only [wheelAt, deleteWork, Wheel.mk.injEq, true_and]
  funext stage'
  refine (Table.get?_filter_key db.work (fun key => !p key.1 key.2) (id, stage')).trans ?_
  by_cases hp : p id stage' = true <;> simp [hp]

/-! ### Statements give nothing to an id that has no wheel -/

section Unowned

variable {db} {id} {i}

theorem ne_of_hasWheel (hwheel : db.hasWheel i = true) (hnone : db.wheels.get? id = none) :
    id ≠ i := by
  rintro rfl
  simp [hasWheel, hnone] at hwheel

theorem Unowned.updateWheel (h : db.Unowned id) (i : ℕ) (f : WheelRow → WheelRow) :
    (db.updateWheel i f).Unowned id := ⟨h.wheelRepodata, h.skips, h.work⟩

theorem Unowned.addError (h : db.Unowned id) (error : ErrorRow) :
    (db.addError error).Unowned id := ⟨h.wheelRepodata, h.skips, h.work⟩

theorem Unowned.setRepodata (h : db.Unowned id) (hne : id ≠ i) (repodata : RepodataRow) :
    (db.setRepodata i repodata).Unowned id :=
  ⟨(Table.get?_set_of_ne _ _ hne).trans h.wheelRepodata, h.skips, h.work⟩

theorem Unowned.setSkip (h : db.Unowned id) (hne : id ≠ i) (stage : Stage) (skip : SkipRow) :
    (db.setSkip i stage skip).Unowned id :=
  ⟨h.wheelRepodata, fun stage' => (Table.get?_set_of_ne _ _ fun heq =>
    hne (congrArg Prod.fst heq)).trans (h.skips stage'), h.work⟩

theorem Unowned.setWork (h : db.Unowned id) (hne : id ≠ i) (stage : Stage) (work : WorkRow) :
    (db.setWork i stage work).Unowned id :=
  ⟨h.wheelRepodata, h.skips, fun stage' => (Table.get?_set_of_ne _ _ fun heq =>
    hne (congrArg Prod.fst heq)).trans (h.work stage')⟩

theorem get?_filter_eq_none {κ ρ : Type} [DecidableEq κ] {t : Table κ ρ} {k : κ}
    (h : t.get? k = none) (p : κ → ρ → Bool) : (t.filter p).get? k = none := by
  rw [Table.get?_filter, h, Option.filter_none]

theorem Unowned.deleteWork (h : db.Unowned id) (p : ℕ → Stage → Bool) :
    (db.deleteWork p).Unowned id :=
  ⟨h.wheelRepodata, h.skips, fun stage => get?_filter_eq_none (h.work stage) _⟩

end Unowned

end Db

end RerollSync.Store
