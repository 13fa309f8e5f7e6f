import RerollSync.Catalog.Statements
import Mathlib.Data.List.Perm.Subperm

/-!
# One table of the schema

What `init_db` does about one table: when it goes on to the next one, and what the database
has then under the names of this table and of the others.
-/

namespace RerollSync.Catalog

open RerollSync.Support Database

/-- What a database has under the names of a table is accepted: the table as it is declared,
or nothing that sqlite would refuse to put it beside. -/
structure Acceptable (py : Python) (db : Database) (d : Declaration) : Prop where
  existing : ∀ info, db.existingTable d.name = some info → Conforms py info d
  missing : db.findTable d.name = none →
    db.hasIndex d.name = false ∧ ∀ idx ∈ d.indexes, db.findTable idx.name = none
  /-- A view, or a name in another case. -/
  taken : ∀ name info, db.findTable d.name = some (name, info) →
    db.existingTable d.name = none → ∀ idx ∈ d.indexes, Indexable db info idx

/-- Nothing but a table of exactly this name is found under the name. -/
def FreeName (db : Database) (d : Declaration) : Prop :=
  ∀ name info, db.findTable d.name = some (name, info) → name = d.name ∧ info.kind ≠ .view

/-- If a table is missing, the names of its indexes are free. -/
def FreeIndexes (db : Database) (d : Declaration) : Prop :=
  db.findTable d.name = none → ∀ idx ∈ d.indexes, db.hasIndex idx.name = false

/-- The statements of a table have nothing left to do. -/
structure Settled (db : Database) (d : Declaration) : Prop where
  found : db.findTable d.name ≠ none
  indexed : ∀ name info, db.findTable d.name = some (name, info) →
    db.existingTable d.name = none →
      ∀ idx ∈ d.indexes, Indexable db info idx ∧ db.hasIndex idx.name = true

/-- Two databases have the same under the names of a table. -/
def SameFor (d : Declaration) (db db' : Database) : Prop :=
  ∀ name ∈ d.ownNames, db'.findTable name = db.findTable name ∧ db'.hasIndex name = db.hasIndex name

variable {py : Python} {db db' : Database} {d d' : Declaration} {name : String}
  {info : TableInfo}

/-! ## What depends on the names of one table -/

theorem existingTable_congr (h : db'.findTable name = db.findTable name) :
    db'.existingTable name = db.existingTable name := by
  refine Option.ext fun info => ?_
  rw [existingTable_eq_some_iff, existingTable_eq_some_iff, h]

namespace SameFor

theorem trans {db'' : Database} (h : SameFor d db db') (h' : SameFor d db' db'') :
    SameFor d db db'' := fun name hname =>
  ⟨(h' name hname).1.trans (h name hname).1, (h' name hname).2.trans (h name hname).2⟩

theorem of_creates (hd : d ∈ schema) (hd' : d' ∈ schema) (hne : d' ≠ d)
    (h : Creates d db db') : SameFor d' db db' := fun _ hname =>
  ⟨h.findTable_of_ne (folded_ne_of_ne hd' hd hne hname (name_mem_ownNames d)),
    h.hasIndex_of_ne fun _ hown => folded_ne_of_ne hd hd' hne.symm hown hname⟩

theorem findTable (h : SameFor d db db') : db'.findTable d.name = db.findTable d.name :=
  (h d.name (name_mem_ownNames d)).1

theorem hasIndex (h : SameFor d db db') {idx : Index} (hidx : idx ∈ d.indexes) :
    db'.hasIndex idx.name = db.hasIndex idx.name :=
  (h idx.name (index_mem_ownNames hidx)).2

theorem existingTable (h : SameFor d db db') :
    db'.existingTable d.name = db.existingTable d.name :=
  existingTable_congr h.findTable

theorem indexable_iff (h : SameFor d db db') {idx : Index} (hidx : idx ∈ d.indexes) :
    Indexable db' info idx ↔ Indexable db info idx := by
  obtain ⟨hfind, hindex⟩ := h idx.name (index_mem_ownNames hidx)
  constructor
  · rintro ⟨hkind, hname, hcolumns⟩
    exact ⟨hkind, hfind ▸ hname, hindex ▸ hcolumns⟩
  · rintro ⟨hkind, hname, hcolumns⟩
    exact ⟨hkind, hfind.trans hname, hindex.symm ▸ hcolumns⟩

theorem acceptable_iff (h : SameFor d db db') : Acceptable py db' d ↔ Acceptable py db d := by
  have hindex := (h d.name (name_mem_ownNames d)).2
  have hnames : (∀ idx ∈ d.indexes, db'.findTable idx.name = none) ↔
      ∀ idx ∈ d.indexes, db.findTable idx.name = none :=
    forall₂_congr fun idx hidx => by rw [(h idx.name (index_mem_ownNames hidx)).1]
  have hable : ∀ info, (∀ idx ∈ d.indexes, Indexable db' info idx) ↔
      ∀ idx ∈ d.indexes, Indexable db info idx :=
    fun info => forall₂_congr fun idx hidx => h.indexable_iff hidx
  constructor
  · rintro ⟨hexisting, hmissing, htaken⟩
    rw [h.findTable, hindex, hnames] at hmissing
    simp only [h.findTable, h.existingTable, hable] at hexisting htaken
    exact ⟨hexisting, hmissing, htaken⟩
  · rintro ⟨hexisting, hmissing, htaken⟩
    rw [← h.findTable, ← hindex, ← hnames] at hmissing
    simp only [← h.findTable, ← h.existingTable, ← hable] at hexisting htaken
    exact ⟨hexisting, hmissing, htaken⟩

theorem freeName_iff (h : SameFor d db db') : FreeName db' d ↔ FreeName db d := by
  rw [FreeName, FreeName, h.findTable]

theorem freeIndexes_iff (h : SameFor d db db') : FreeIndexes db' d ↔ FreeIndexes db d := by
  rw [FreeIndexes, FreeIndexes, h.findTable]
  exact imp_congr_right fun _ => forall₂_congr fun idx hidx => by rw [h.hasIndex hidx]

theorem settled (h : SameFor d db db') (hsettled : Settled db d) : Settled db' d where
  found := by
    rw [h.findTable]
    exact hsettled.found
  indexed := by
    intro name info hfind hmissing idx hidx
    rw [h.findTable] at hfind
    rw [h.existingTable] at hmissing
    obtain ⟨hable, hindex⟩ := hsettled.indexed name info hfind hmissing idx hidx
    exact ⟨(h.indexable_iff hidx).mpr hable, (h.hasIndex hidx).trans hindex⟩

end SameFor

/-! ## One table -/

theorem initTable_of_existing (py : Python) (h : db.existingTable d.name = some info) :
    (initTable py db d).1 = db ∧ ((initTable py db d).2 = .ok () ↔ Conforms py info d) := by
  rw [← validateTable_eq_ok_nil_iff, initTable, h]
  dsimp only
  cases validateTable py info d with
  | error e => simp
  | ok problems =>
      cases problems with
      | nil => simp
      | cons problem problems => simp

theorem initTable_of_missing (py : Python) (h : db.existingTable d.name = none) :
    (initTable py db d).1 = (db.create d).1 ∧
      ((initTable py db d).2 = .ok () ↔ (db.create d).2 = .ok ()) := by
  rw [initTable, h]
  dsimp only
  rcases db.create d with ⟨db', e | u⟩
  · simp
  · simp

/-- Everything that the loop of `init_db` can do for one table. -/
theorem initTable_cases (hd : d ∈ schema) (py : Python) (db : Database) :
    (initTable py db d).1 = db ∨
      db.existingTable d.name = none ∧ Creates d db (initTable py db d).1 := by
  cases hexisting : db.existingTable d.name with
  | some info => exact Or.inl (initTable_of_existing py hexisting).1
  | none =>
      refine Or.inr ⟨rfl, ?_⟩
      rw [(initTable_of_missing py hexisting).1]
      exact creates_create hd db

theorem initTable_ok_iff (hd : d ∈ schema) :
    (initTable py db d).2 = .ok () ↔ Acceptable py db d := by
  cases hexisting : db.existingTable d.name with
  | some info =>
      have hfind := (existingTable_eq_some_iff.mp hexisting).1
      rw [(initTable_of_existing py hexisting).2]
      constructor
      · intro hconforms
        refine ⟨fun info' h => ?_, by simp [hfind], by simp [hexisting]⟩
        rw [hexisting] at h
        exact Option.some.inj h ▸ hconforms
      · exact fun h => h.existing info hexisting
  | none =>
      rw [(initTable_of_missing py hexisting).2, create_ok_iff hd]
      constructor
      · rintro ⟨hmissing, htaken⟩
        exact ⟨by simp [hexisting], hmissing, fun name info hfind _ => htaken name info hfind⟩
      · exact fun h => ⟨h.missing, fun name info hfind => h.taken name info hfind hexisting⟩

theorem sameFor_initTable (hd : d ∈ schema) (hd' : d' ∈ schema) (hne : d' ≠ d) :
    SameFor d' db (initTable py db d).1 := by
  rcases initTable_cases hd py db with hsame | ⟨-, hcreates⟩
  · rw [hsame]
    exact fun _ _ => ⟨rfl, rfl⟩
  · exact .of_creates hd hd' hne hcreates

/-- A new table has the indexes whose names were free. -/
theorem conforms_indexed_iff (py : Python) (hd : d ∈ schema)
    (hfind : db.findTable d.name = none) {made : List Index} (hmade : made.Sublist d.indexes)
    (hfree : ∀ idx ∈ made, db.hasIndex idx.name = false)
    (hall : ∀ idx ∈ d.indexes, ((db.addTable d.name d.created hfind).withIndexes d.name d.name
      made).hasIndex idx.name = true) :
    Conforms py (d.created.indexed d.name made) d ↔
      ∀ idx ∈ d.indexes, db.hasIndex idx.name = false := by
  constructor
  · intro h idx hidx
    obtain ⟨actual, hactual, hnames, -⟩ := h.indexes
    have hkey := mem_keys_of_existingIndexes hactual
      ((hnames idx.name).mpr (List.mem_map_of_mem hidx))
    rcases mem_keys_indexed.mp hkey with hkey | hkey
    · exact absurd rfl (folded_key_ne hd hidx hkey)
    · obtain ⟨other, hother, hname⟩ := List.mem_map.mp hkey
      exact hname ▸ hfree other hother
  · intro hclear
    have hsubset : d.indexes ⊆ made := by
      intro idx hidx
      rcases hasIndex_withIndexes.mp (hall idx hidx) with hindex | ⟨-, other, hother, hname⟩
      · rcases (hasIndex_addTable hfind).mp hindex with hindex | ⟨key, hkey, hname⟩
        · simp [hclear idx hidx] at hindex
        · exact absurd hname (folded_key_ne hd hidx hkey)
      · exact List.inj_on_of_nodup_map (nodup_indexNames hd) (hmade.subset hother) hidx hname ▸
          hother
    have hnodup : d.indexes.Nodup := .of_map _ (nodup_indexNames hd)
    rw [hmade.eq_of_length_le (List.Nodup.subperm hnodup hsubset).length_le]
    exact finished_conforms py d hd

/-- What is found but does not exist is a view or has its name in another case. -/
theorem not_existing_of_eq_none (hfind : db.findTable d.name = some (name, info))
    (hexisting : db.existingTable d.name = none) : ¬(name = d.name ∧ info.kind ≠ .view) := by
  rintro ⟨rfl, hkind⟩
  rw [existingTable_eq_some_iff.mpr ⟨hfind, hkind⟩] at hexisting
  cases hexisting

theorem existingTable_new (hfind : db.findTable d.name = none) {made : List Index} :
    ((db.addTable d.name d.created hfind).withIndexes d.name d.name made).existingTable d.name =
      some (d.created.indexed d.name made) := by
  have hkind : (d.created.indexed d.name made).kind ≠ .view := by
    simp [kind_indexed, Declaration.created]
  exact existingTable_eq_some_iff.mpr ⟨findTable_withIndexes (findTable_addTable hfind), hkind⟩

theorem existingTable_withIndexes_eq_none (hfind : db.findTable d.name = some (name, info))
    (hexisting : db.existingTable d.name = none) {made : List Index} :
    (db.withIndexes name d.name made).existingTable d.name = none := by
  refine Option.eq_none_iff_forall_ne_some.mpr fun info' h => ?_
  obtain ⟨hname, hkind⟩ := existingTable_eq_some_iff.mp h
  rw [findTable_withIndexes hfind] at hname
  obtain ⟨rfl, rfl⟩ := Prod.mk.inj (Option.some.inj hname)
  exact not_existing_of_eq_none hfind hexisting ⟨rfl, kind_indexed ▸ hkind⟩

/-- When every index is there, what stands in the place of a table needs no more. -/
theorem settled_withIndexes (hfind : db.findTable d.name = some (name, info))
    (hable : ∀ idx ∈ d.indexes, Indexable db info idx) {made : List Index}
    (hall : ∀ idx ∈ d.indexes, (db.withIndexes name d.name made).hasIndex idx.name = true) :
    Settled (db.withIndexes name d.name made) d where
  found := by simp [findTable_withIndexes hfind]
  indexed := by
    intro name' info' h _ idx hidx
    rw [findTable_withIndexes hfind] at h
    obtain ⟨rfl, rfl⟩ := Prod.mk.inj (Option.some.inj h)
    refine ⟨⟨kind_indexed.trans (hable idx hidx).kind, ?_, Or.inl (hall idx hidx)⟩, hall idx hidx⟩
    exact findTable_withIndexes_eq_none_iff.mpr (hable idx hidx).name

/-- After a table was accepted it is there as a table exactly when nothing else had its name,
and is the declared one when it can have got its indexes. -/
theorem initTable_of_ok (hd : d ∈ schema) (hok : (initTable py db d).2 = .ok ()) :
    ((∃ info, (initTable py db d).1.existingTable d.name = some info) ↔ FreeName db d) ∧
      ((∀ info, (initTable py db d).1.existingTable d.name = some info → Conforms py info d) ↔
        FreeIndexes db d) ∧
      Settled (initTable py db d).1 d := by
  cases hexisting : db.existingTable d.name with
  | some info =>
      obtain ⟨hfind, hkind⟩ := existingTable_eq_some_iff.mp hexisting
      obtain ⟨hsame, hiff⟩ := initTable_of_existing py hexisting
      have hconforms := hiff.mp hok
      rw [hsame, hexisting]
      refine ⟨?_, ?_, by simp [hfind], by simp [hexisting]⟩
      · simp [FreeName, hfind, hkind]
      · simp [FreeIndexes, hfind, hconforms]
  | none =>
      obtain ⟨hleft, hiff⟩ := initTable_of_missing py hexisting
      have hcreated := hiff.mp hok
      have hall := hasIndex_of_create_ok hd hcreated
      have hcreates := creates_create hd db
      rw [hleft]
      generalize (db.create d).1 = db' at hall hcreates
      cases hcreates with
      | refused hfind hindex => simp [((create_ok_iff hd).mp hcreated).1 hfind] at hindex
      | @new hfind made hmade hfree =>
          have hthere := @existingTable_new db d hfind made
          have hfind' := (existingTable_eq_some_iff.mp hthere).1
          rw [hthere]
          refine ⟨by simp [FreeName, hfind], ?_, by simp [hfind'], by simp [hthere]⟩
          rw [FreeIndexes, forall_prop_of_true hfind,
            ← conforms_indexed_iff py hd hfind hmade hfree hall]
          simp
      | @found name info hfind made hmade hfree =>
          have hother := not_existing_of_eq_none hfind hexisting
          have hable := ((create_ok_iff hd).mp hcreated).2 name info hfind
          rw [existingTable_withIndexes_eq_none hfind hexisting]
          exact ⟨by simp [FreeName, hfind, hother], by simp [FreeIndexes, hfind],
            settled_withIndexes hfind hable hall⟩

/-- A second time there is nothing left to do for a table. -/
theorem initTable_of_settled (py : Python) (hd : d ∈ schema) (h : Settled db d) :
    (initTable py db d).1 = db ∧ ((initTable py db d).2 = .ok () ↔
      ∀ info, db.existingTable d.name = some info → Conforms py info d) := by
  cases hexisting : db.existingTable d.name with
  | some info => simpa using initTable_of_existing py hexisting
  | none =>
      obtain ⟨⟨name, info⟩, hfind⟩ := Option.ne_none_iff_exists'.mp h.found
      have hindexed := h.indexed name info hfind hexisting
      obtain ⟨hok, done, hdone, -, -, hleft⟩ := createIndexes_spec (nodup_indexNames hd) hfind
      have hnil : (done.filter fun idx => !db.hasIndex idx.name) = [] :=
        List.filter_eq_nil_iff.mpr fun idx hidx => by
          simp [(hindexed idx (hdone.subset hidx)).2]
      have hcreate := create_of_findTable_some hfind
      obtain ⟨hleft', hok'⟩ := initTable_of_missing py hexisting
      rw [hleft', hok', hcreate, hleft, hnil, withIndexes_nil, hok]
      exact ⟨rfl, iff_of_true (fun idx hidx => (hindexed idx hidx).1) (by simp)⟩

/-! ## What becomes of a table that is there -/

theorem get?_initTable_of_ne (py : Python) (hd : d ∈ schema)
    (hget : db.tables.get? name = some info) (hne : folded name ≠ folded d.name) :
    (initTable py db d).1.tables.get? name = some info := by
  rcases initTable_cases hd py db with hsame | ⟨-, hcreates⟩
  · rw [hsame, hget]
  · exact hcreates.get?_of_ne hget hne

theorem get?_initTable_of_eq (py : Python) (hd : d ∈ schema)
    (hget : db.tables.get? name = some info) (heq : folded name = folded d.name) :
    ∃ made : List Index, made.Sublist d.indexes ∧
      (∀ idx ∈ made, name ≠ d.name ∧ db.hasIndex idx.name = false) ∧
      (initTable py db d).1.tables.get? name = some (info.indexed d.name made) := by
  rcases initTable_cases hd py db with hsame | ⟨hexisting, hcreates⟩
  · exact ⟨[], List.nil_sublist _, by simp, by rw [hsame, hget]; rfl⟩
  · obtain ⟨made, hmade, hfree, hget'⟩ := hcreates.get?_of_eq hget heq
    refine ⟨made, hmade, fun idx hidx => ⟨?_, (hfree idx hidx).2⟩, hget'⟩
    -- an index was put on it, so it is a table, which `_table_exists` has not found
    rintro rfl
    have hkind : info.kind ≠ .view := by simp [(hfree idx hidx).1.kind]
    have hfind : db.findTable d.name = some (d.name, info) :=
      findTable_eq_some_iff.mpr ⟨hget, rfl⟩
    exact not_existing_of_eq_none hfind hexisting ⟨rfl, hkind⟩

theorem hasIndex_initTable (hd : d ∈ schema) (h : db.hasIndex name = true) :
    (initTable py db d).1.hasIndex name = true := by
  rcases initTable_cases hd py db with hsame | ⟨-, hcreates⟩
  · rw [hsame, h]
  · exact hcreates.hasIndex_mono h

theorem eq_of_get?_initTable (hd : d ∈ schema)
    (hget : (initTable py db d).1.tables.get? name = some info)
    (hnone : db.tables.get? name = none) : name = d.name ∧ ∃ made : List Index,
      made.Sublist d.indexes ∧ info = d.created.indexed d.name made := by
  rcases initTable_cases hd py db with hsame | ⟨-, hcreates⟩
  · rw [hsame, hnone] at hget
    cases hget
  · exact hcreates.eq_of_get? hget hnone

theorem pragmas_initTable (hd : d ∈ schema) : (initTable py db d).1.autoVacuum = db.autoVacuum ∧
    (initTable py db d).1.userVersion = db.userVersion := by
  rcases initTable_cases hd py db with hsame | ⟨-, hcreates⟩
  · rw [hsame]
    exact ⟨rfl, rfl⟩
  · exact hcreates.pragmas

end RerollSync.Catalog
