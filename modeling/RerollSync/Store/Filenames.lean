import RerollSync.Store.Schema

/-!
# Wheels by filename

`wheels.filename` is unique, so a filename names a row.  The ids are sqlite's, which
counts from one.
-/

namespace RerollSync.Store

open RerollSync.Support

namespace Db

/-- The row of a filename, with its id. -/
def named (filename : String) (db : Db) : Option (ℕ × WheelRow) :=
  db.wheels.rows.find? fun r => r.2.filename = filename

/-- The constraints that sqlite keeps on `wheels`. -/
structure Constrained (db : Db) : Prop where
  unique : ∀ id id' row row', db.wheels.get? id = some row → db.wheels.get? id' = some row' →
    row.filename = row'.filename → id = id'
  positive : ∀ id row, db.wheels.get? id = some row → 0 < id

theorem constrained_empty : Db.empty.Constrained :=
  ⟨fun id id' row row' h => by simp [Db.empty] at h, fun id row h => by simp [Db.empty] at h⟩

variable {db db' : Db} {filename : String}

theorem get?_of_named {id : ℕ} {row : WheelRow} (h : db.named filename = some (id, row)) :
    db.wheels.get? id = some row ∧ row.filename = filename := by
  have hmem := List.mem_of_find?_eq_some h
  have hname := List.find?_some h
  exact ⟨Table.get?_eq_some_iff.mpr hmem, by simpa using hname⟩

theorem named_eq_none_iff :
    db.named filename = none ↔
      ∀ id row, db.wheels.get? id = some row → row.filename ≠ filename := by
  rw [named, List.find?_eq_none]
  constructor
  · intro h id row hrow
    simpa using h (id, row) (Table.get?_eq_some_iff.mp hrow)
  · intro h r hr
    simpa using h r.1 r.2 (Table.get?_eq_some_iff.mpr hr)

theorem Constrained.named_eq_some_iff (h : db.Constrained) {id : ℕ} {row : WheelRow} :
    db.named filename = some (id, row) ↔
      db.wheels.get? id = some row ∧ row.filename = filename := by
  constructor
  · exact get?_of_named
  · rintro ⟨hrow, hname⟩
    cases hnamed : db.named filename with
    | none => exact (named_eq_none_iff.mp hnamed id row hrow hname).elim
    | some r =>
        obtain ⟨hr, hrname⟩ := get?_of_named hnamed
        obtain rfl := h.unique r.1 id r.2 row hr hrow (hrname.trans hname.symm)
        rw [hr] at hrow
        rw [← Option.some.inj hrow]

theorem Constrained.named_of_get? (h : db.Constrained) {id : ℕ} {row : WheelRow}
    (hrow : db.wheels.get? id = some row) : db.named row.filename = some (id, row) :=
  h.named_eq_some_iff.mpr ⟨hrow, rfl⟩

/-- A row is found by its own filename. -/
theorem Constrained.get?_iff_named (h : db.Constrained) {id : ℕ} {row : WheelRow} :
    db.wheels.get? id = some row ↔ db.named row.filename = some (id, row) :=
  ⟨h.named_of_get?, fun hrow => (get?_of_named hrow).1⟩

/-- Lookups agree when the rows do. -/
theorem named_congr (h : db'.wheels = db.wheels) : db'.named filename = db.named filename := by
  rw [named, named, h]

theorem Constrained.congr (h : db.Constrained) (hwheels : db'.wheels = db.wheels) :
    db'.Constrained :=
  ⟨by rw [hwheels]; exact h.unique, by rw [hwheels]; exact h.positive⟩

/-! ## A new row -/

theorem get?_addWheel (row : WheelRow) (id : ℕ) : (db.addWheel row).wheels.get? id =
    if id = nextId db.wheels then some row else db.wheels.get? id := by
  rw [addWheel, Table.get?_insertNew, get?_nextId, Option.getD_none]

theorem Constrained.addWheel (h : db.Constrained) {row : WheelRow}
    (hfree : db.named row.filename = none) : (db.addWheel row).Constrained where
  unique id id' r r' hr hr' hname := by
    have hfresh := named_eq_none_iff.mp hfree
    rw [get?_addWheel] at hr hr'
    by_cases hid : id = nextId db.wheels
    · by_cases hid' : id' = nextId db.wheels
      · rw [hid, hid']
      · rw [if_pos hid] at hr
        rw [if_neg hid'] at hr'
        obtain rfl := Option.some.inj hr
        exact (hfresh id' r' hr' hname.symm).elim
    · rw [if_neg hid] at hr
      by_cases hid' : id' = nextId db.wheels
      · rw [if_pos hid'] at hr'
        obtain rfl := Option.some.inj hr'
        exact (hfresh id r hr hname).elim
      · rw [if_neg hid'] at hr'
        exact h.unique id id' r r' hr hr' hname
  positive id r hr := by
    rw [get?_addWheel] at hr
    by_cases hid : id = nextId db.wheels
    · rw [hid]
      exact Nat.succ_pos _
    · rw [if_neg hid] at hr
      exact h.positive id r hr

theorem Constrained.named_addWheel (h : db.Constrained) {row : WheelRow}
    (hfree : db.named row.filename = none) : (db.addWheel row).named filename =
      if filename = row.filename then some (nextId db.wheels, row) else db.named filename := by
  have hadd := h.addWheel hfree
  by_cases hname : filename = row.filename
  · rw [if_pos hname, hadd.named_eq_some_iff, get?_addWheel, if_pos rfl]
    exact ⟨rfl, hname.symm⟩
  · rw [if_neg hname]
    ext ⟨id, r⟩
    rw [hadd.named_eq_some_iff, h.named_eq_some_iff, get?_addWheel]
    by_cases hid : id = nextId db.wheels
    · rw [if_pos hid, hid, get?_nextId]
      refine iff_of_false ?_ fun hr => by cases hr.1
      rintro ⟨hr, hrname⟩
      obtain rfl := Option.some.inj hr
      exact hname hrname.symm
    · rw [if_neg hid]

/-! ## Changed rows -/

section Modified

variable {f : ℕ → WheelRow → WheelRow}
  (hget : ∀ id, db'.wheels.get? id = (db.wheels.get? id).map (f id))
  (hname : ∀ id row, (f id row).filename = row.filename)

include hget hname

theorem Constrained.modified (h : db.Constrained) : db'.Constrained where
  unique id id' row row' hrow hrow' heq := by
    rw [hget] at hrow hrow'
    obtain ⟨r, hr, rfl⟩ := Option.map_eq_some_iff.mp hrow
    obtain ⟨r', hr', rfl⟩ := Option.map_eq_some_iff.mp hrow'
    rw [hname, hname] at heq
    exact h.unique id id' r r' hr hr' heq
  positive id row hrow := by
    rw [hget] at hrow
    obtain ⟨r, hr, -⟩ := Option.map_eq_some_iff.mp hrow
    exact h.positive id r hr

theorem Constrained.named_modified (h : db.Constrained) : db'.named filename =
    (db.named filename).map fun r => (r.1, f r.1 r.2) := by
  ext ⟨id, row⟩
  rw [(h.modified hget hname).named_eq_some_iff, hget]
  constructor
  · rintro ⟨hrow, rfl⟩
    obtain ⟨r, hr, rfl⟩ := Option.map_eq_some_iff.mp hrow
    rw [h.named_eq_some_iff.mpr ⟨hr, (hname id r).symm⟩]
    rfl
  · intro hnamed
    obtain ⟨⟨id', r⟩, hr, heq⟩ := Option.map_eq_some_iff.mp hnamed
    obtain ⟨rfl, rfl⟩ := Prod.mk.inj heq
    obtain ⟨hrow, rfl⟩ := h.named_eq_some_iff.mp hr
    exact ⟨by rw [hrow]; rfl, hname id' r⟩

end Modified

end Db

end RerollSync.Store
