import RerollSync.Catalog.InitTable

/-!
# Preparing a database

`init_db` leaves the tables that are there as they are, but that a table with a declared name
in another case may get the declared indexes.  It succeeds exactly when the tables that are
there are the declared ones and sqlite refuses nothing that is missing; what it then leaves
behind is complete exactly when no name was taken, and a second `init_db` changes nothing.
-/

namespace RerollSync.Catalog

open RerollSync.Support Database

variable {py : Python} {db : Database} {d : Declaration} {ds : List Declaration} {name : String}
  {info : TableInfo}

/-! ## The loop over the tables -/

theorem nodup_schema : schema.Nodup := by
  have h := ownNames_schema
  rw [List.map_flatMap, List.nodup_flatMap] at h
  refine h.2.imp fun {a b} hdisjoint => ?_
  rintro rfl
  exact hdisjoint (List.mem_map_of_mem (name_mem_ownNames a))
    (List.mem_map_of_mem (name_mem_ownNames a))

/-- The loop stops at the first table that is not accepted. -/
theorem initTables_cons (py : Python) (ds : List Declaration) (db : Database) (d : Declaration) :
    (initTable py db d).2 = .ok () ∧
        initTables py (d :: ds) db = initTables py ds (initTable py db d).1 ∨
      (initTable py db d).2 ≠ .ok () ∧ initTables py (d :: ds) db = initTable py db d := by
  rw [initTables]
  rcases initTable py db d with ⟨db', e | u⟩
  · exact Or.inr ⟨by simp, rfl⟩
  · exact Or.inl ⟨rfl, rfl⟩

/-- What the steps of the loop keep, the loop keeps. -/
theorem initTables_induction {P : Database → Prop}
    (hstep : ∀ d ∈ ds, ∀ db, P db → P (initTable py db d).1) (h : P db) :
    P (initTables py ds db).1 := by
  induction ds generalizing db with
  | nil => exact h
  | cons d ds ih =>
      obtain ⟨hd, hds⟩ := List.forall_mem_cons.mp hstep
      rcases initTables_cons py ds db d with ⟨-, heq⟩ | ⟨-, heq⟩
      · rw [heq]
        exact ih hds (hd db h)
      · rw [heq]
        exact hd db h

theorem sameFor_initTables (hds : ∀ d ∈ ds, d ∈ schema) (hd : d ∈ schema) (hnot : d ∉ ds) :
    SameFor d db (initTables py ds db).1 := by
  refine initTables_induction (P := SameFor d db) (fun d' hd' db' h => ?_) fun _ _ => ⟨rfl, rfl⟩
  refine h.trans (sameFor_initTable (hds d' hd') hd ?_)
  rintro rfl
  exact hnot hd'

theorem pragmas_initTables (py : Python) (db : Database) (hds : ∀ d ∈ ds, d ∈ schema) :
    (initTables py ds db).1.autoVacuum = db.autoVacuum ∧
      (initTables py ds db).1.userVersion = db.userVersion :=
  initTables_induction
    (P := fun db' => db'.autoVacuum = db.autoVacuum ∧ db'.userVersion = db.userVersion)
    (fun d hd _ h => ⟨(pragmas_initTable (hds d hd)).1.trans h.1,
      (pragmas_initTable (hds d hd)).2.trans h.2⟩) ⟨rfl, rfl⟩

/-- The loop reaches its end exactly when every table is accepted in the database that it
started with. -/
theorem initTables_ok_iff (hds : ∀ d ∈ ds, d ∈ schema) (hnodup : ds.Nodup) :
    (initTables py ds db).2 = .ok () ↔ ∀ d ∈ ds, Acceptable py db d := by
  induction ds generalizing db with
  | nil => simp [initTables]
  | cons d ds ih =>
      obtain ⟨hd, hds⟩ := List.forall_mem_cons.mp hds
      obtain ⟨hnot, hnodup⟩ := List.nodup_cons.mp hnodup
      rw [List.forall_mem_cons, ← initTable_ok_iff hd]
      rcases initTables_cons py ds db d with ⟨hok, heq⟩ | ⟨hok, heq⟩
      · rw [heq, ih hds hnodup, and_iff_right hok]
        refine forall₂_congr fun d' hd' => (sameFor_initTable hd (hds d' hd') ?_).acceptable_iff
        rintro rfl
        exact hnot hd'
      · rw [heq]
        exact iff_of_false hok fun h => hok h.1

/-- A table of the schema is found by its own step as it was at the start, and left by the
loop as its own step leaves it. -/
theorem exists_initTable_of_ok (hds : ∀ d ∈ ds, d ∈ schema) (hnodup : ds.Nodup)
    (hok : (initTables py ds db).2 = .ok ()) (hd : d ∈ ds) : ∃ db',
      SameFor d db db' ∧ (initTable py db' d).2 = .ok () ∧
        SameFor d (initTable py db' d).1 (initTables py ds db).1 := by
  induction ds generalizing db with
  | nil => cases hd
  | cons d' ds ih =>
      obtain ⟨hd', hrest⟩ := List.forall_mem_cons.mp hds
      obtain ⟨hnot, hnodup'⟩ := List.nodup_cons.mp hnodup
      rcases initTables_cons py ds db d' with ⟨hok', heq⟩ | ⟨hok', heq⟩
      · rw [heq] at hok ⊢
        rcases List.mem_cons.mp hd with rfl | hmem
        · exact ⟨db, fun _ _ => ⟨rfl, rfl⟩, hok', sameFor_initTables hrest hd' hnot⟩
        · obtain ⟨db', hsame, hafter⟩ := ih hrest hnodup' hok hmem
          have hne : d ≠ d' := by
            rintro rfl
            exact hnot hmem
          exact ⟨db', (sameFor_initTable hd' (hrest d hmem) hne).trans hsame, hafter⟩
      · rw [heq] at hok
        exact (hok' hok).elim

/-- What the loop leaves under the names of a table, when it has reached its end. -/
theorem initTables_of_ok (hok : (initTables py schema db).2 = .ok ()) (hd : d ∈ schema) :
    ((∃ info, (initTables py schema db).1.existingTable d.name = some info) ↔ FreeName db d) ∧
      ((∀ info, (initTables py schema db).1.existingTable d.name = some info →
        Conforms py info d) ↔ FreeIndexes db d) ∧
      Settled (initTables py schema db).1 d := by
  obtain ⟨db', hbefore, hok', hafter⟩ :=
    exists_initTable_of_ok (fun _ hd => hd) nodup_schema hok hd
  obtain ⟨hname, hindexes, hsettled⟩ := initTable_of_ok hd hok'
  rw [hafter.existingTable, ← hbefore.freeName_iff, ← hbefore.freeIndexes_iff]
  exact ⟨hname, hindexes, hafter.settled hsettled⟩

theorem initTables_of_settled (py : Python) (hds : ∀ d ∈ ds, d ∈ schema)
    (h : ∀ d ∈ ds, Settled db d) :
    (initTables py ds db).1 = db ∧ ((initTables py ds db).2 = .ok () ↔
      ∀ d ∈ ds, ∀ info, db.existingTable d.name = some info → Conforms py info d) := by
  induction ds with
  | nil => exact ⟨rfl, by simp [initTables]⟩
  | cons d ds ih =>
      obtain ⟨hd, hds⟩ := List.forall_mem_cons.mp hds
      obtain ⟨hsettled, h⟩ := List.forall_mem_cons.mp h
      obtain ⟨hsame, hiff⟩ := initTable_of_settled py hd hsettled
      rw [List.forall_mem_cons, ← hiff]
      rcases initTables_cons py ds db d with ⟨hok, heq⟩ | ⟨hok, heq⟩
      · rw [heq, hsame, and_iff_right hok]
        exact ih hds h
      · rw [heq]
        exact ⟨hsame, iff_of_false hok fun h => hok h.1⟩

/-! ## What becomes of the tables that are there -/

theorem get?_initTables_of_ne (py : Python) (hds : ∀ d ∈ ds, d ∈ schema)
    (hget : db.tables.get? name = some info) (hne : ∀ d ∈ ds, folded name ≠ folded d.name) :
    (initTables py ds db).1.tables.get? name = some info :=
  initTables_induction (P := fun db => db.tables.get? name = some info)
    (fun d hd _ h => get?_initTable_of_ne py (hds d hd) h (hne d hd)) hget

/-- A table that has the name of a declared one gets indexes at most, and none if it has
exactly the name. -/
theorem get?_initTables_of_eq (hds : ∀ d ∈ ds, d ∈ schema) (hnodup : ds.Nodup)
    (hget : db.tables.get? name = some info) (hd : d ∈ schema)
    (heq : folded name = folded d.name) : ∃ made : List Index, made.Sublist d.indexes ∧
      (∀ idx ∈ made, name ≠ d.name ∧ db.hasIndex idx.name = false) ∧
      (initTables py ds db).1.tables.get? name = some (info.indexed d.name made) := by
  have hother : ∀ d' ∈ schema, d' ≠ d → folded name ≠ folded d'.name := fun d' hd' hne =>
    heq ▸ folded_ne_of_ne hd hd' hne.symm (name_mem_ownNames d) (name_mem_ownNames d')
  induction ds generalizing db with
  | nil => exact ⟨[], List.nil_sublist _, by simp, hget⟩
  | cons d' ds ih =>
      obtain ⟨hd', hds⟩ := List.forall_mem_cons.mp hds
      obtain ⟨hnot, hnodup⟩ := List.nodup_cons.mp hnodup
      by_cases hsame : d' = d
      · subst hsame
        obtain ⟨made, hmade, hfree, hget'⟩ := get?_initTable_of_eq py hd' hget heq
        refine ⟨made, hmade, hfree, ?_⟩
        rcases initTables_cons py ds db d' with ⟨-, hcons⟩ | ⟨-, hcons⟩
        · rw [hcons]
          refine get?_initTables_of_ne py hds hget' fun d'' hd'' => hother d'' (hds d'' hd'') ?_
          rintro rfl
          exact hnot hd''
        · rw [hcons, hget']
      · have hget' := get?_initTable_of_ne py hd' hget (hother d' hd' hsame)
        rcases initTables_cons py ds db d' with ⟨-, hcons⟩ | ⟨-, hcons⟩
        · obtain ⟨made, hmade, hfree, hleft⟩ := ih hds hnodup hget'
          refine ⟨made, hmade, fun idx hidx => ⟨(hfree idx hidx).1, ?_⟩, hcons ▸ hleft⟩
          have hafter := (hfree idx hidx).2
          cases hindex : db.hasIndex idx.name with
          | false => rfl
          | true => simp [hasIndex_initTable hd' hindex] at hafter
        · exact ⟨[], List.nil_sublist _, by simp, hcons ▸ hget'⟩

/-- What was not there before is a declared table, with some of its indexes. -/
theorem eq_of_get?_initTables (hds : ∀ d ∈ ds, d ∈ schema) (hnodup : ds.Nodup)
    (hget : (initTables py ds db).1.tables.get? name = some info)
    (hnone : db.tables.get? name = none) : ∃ d ∈ ds, name = d.name ∧ ∃ made : List Index,
      made.Sublist d.indexes ∧ info = d.created.indexed d.name made := by
  induction ds generalizing db with
  | nil =>
      rw [initTables, hnone] at hget
      cases hget
  | cons d ds ih =>
      obtain ⟨hd, hds⟩ := List.forall_mem_cons.mp hds
      obtain ⟨hnot, hnodup⟩ := List.nodup_cons.mp hnodup
      cases hstep : (initTable py db d).1.tables.get? name with
      | none =>
          rcases initTables_cons py ds db d with ⟨-, hcons⟩ | ⟨-, hcons⟩
          · obtain ⟨d', hd', h⟩ := ih hds hnodup (hcons ▸ hget) hstep
            exact ⟨d', List.mem_cons_of_mem d hd', h⟩
          · rw [hcons, hstep] at hget
            cases hget
      | some info' =>
          obtain ⟨rfl, made, hmade, rfl⟩ := eq_of_get?_initTable hd hstep hnone
          refine ⟨d, List.mem_cons_self, rfl, made, hmade, ?_⟩
          rcases initTables_cons py ds db d with ⟨-, hcons⟩ | ⟨-, hcons⟩
          · have hrest := get?_initTables_of_ne py hds hstep fun d' hd' =>
              folded_ne_of_ne hd (hds d' hd') (fun h => hnot (h ▸ hd')) (name_mem_ownNames d)
                (name_mem_ownNames d')
            rw [hcons, hrest] at hget
            exact (Option.some.inj hget).symm
          · rw [hcons, hstep] at hget
            exact (Option.some.inj hget).symm

/-! ## The whole of it -/

/-- What there is to say of an outcome of `init_db`. -/
structure Prepared (py : Python) (file : Option Database)
    (outcome : Database × Except InitError Unit) : Prop where
  /-- Whatever comes of it, the tables and views that were there are as they were, if no
  declared table has their name in another case. -/
  kept : ∀ db ∈ file, ∀ name info, db.tables.get? name = some info →
    (∀ d ∈ schema, folded name = folded d.name → name = d.name) →
      outcome.1.tables.get? name = some info
  /-- If one does, they get declared indexes at most, of names that were free. -/
  extended : ∀ db ∈ file, ∀ d ∈ schema, ∀ name info, db.tables.get? name = some info →
    folded name = folded d.name → ∃ made : List Index, made.Sublist d.indexes ∧
      (∀ idx ∈ made, db.hasIndex idx.name = false) ∧
      outcome.1.tables.get? name = some (info.indexed d.name made)
  /-- What was not there is a declared table, with some of its indexes. -/
  new : ∀ name info, outcome.1.tables.get? name = some info →
    (∀ db ∈ file, db.tables.get? name = none) → ∃ d ∈ schema, name = d.name ∧
      ∃ made : List Index, made.Sublist d.indexes ∧ info = d.created.indexed d.name made
  ok_iff : outcome.2 = .ok () ↔
    ∀ db ∈ file, db.autoVacuum = 2 ∧ db.userVersion = schemaVersion ∧
      ∀ d ∈ schema, Acceptable py db d
  /-- After success a table is there and passes the check exactly when its names were free. -/
  complete : outcome.2 = .ok () → ∀ d ∈ schema,
    ((∃ info, outcome.1.existingTable d.name = some info ∧ Conforms py info d) ↔
      ∀ db ∈ file, FreeName db d ∧ FreeIndexes db d)
  /-- A second time there is nothing left to do, and only a table that has not got its indexes
  is found wanting. -/
  again : outcome.2 = .ok () → (initDb py (some outcome.1)).1 = outcome.1 ∧
    ((initDb py (some outcome.1)).2 = .ok () ↔ ∀ db ∈ file, ∀ d ∈ schema, FreeIndexes db d)

theorem initDb_eq_initTables (hvacuum : db.autoVacuum = 2)
    (hversion : db.userVersion = schemaVersion) :
    initDb py (some db) = initTables py schema db := by
  simp [initDb, hvacuum, hversion]

/-- In an empty database every name is free. -/
theorem findTable_of_empty (h : db.tables = ∅) (name : String) : db.findTable name = none := by
  rw [findTable_eq_none_iff, h]
  exact List.not_mem_nil

theorem hasIndex_of_empty (h : db.tables = ∅) (name : String) : db.hasIndex name = false := by
  rw [hasIndex, h]
  rfl

theorem acceptable_of_empty (h : db.tables = ∅) : Acceptable py db d where
  existing := by simp [existingTable, h]
  missing := fun _ => ⟨hasIndex_of_empty h _, fun _ _ => findTable_of_empty h _⟩
  taken := by simp [findTable_of_empty h]

theorem freeName_of_empty (h : db.tables = ∅) : FreeName db d := by
  simp [FreeName, findTable_of_empty h]

theorem freeIndexes_of_empty (h : db.tables = ∅) : FreeIndexes db d := fun _ _ _ =>
  hasIndex_of_empty h _

/-- The loop over an accepted file, and over a new one, leaves what `init_db` is for. -/
theorem prepared_initTables {file : Option Database} (hfile : ∀ db' ∈ file, db' = db)
    (hnew : file = none → db.tables = ∅) (hvacuum : db.autoVacuum = 2)
    (hversion : db.userVersion = schemaVersion) :
    Prepared py file (initTables py schema db) := by
  have hds : ∀ d ∈ schema, d ∈ schema := fun _ hd => hd
  -- what is said of the file is said of the database that the loop starts with
  have hall : ∀ Q : Database → Prop, (db.tables = ∅ → Q db) → ((∀ db' ∈ file, Q db') ↔ Q db) := by
    intro Q hempty
    cases file with
    | none => exact iff_of_true (by simp) (hempty (hnew rfl))
    | some db' =>
        obtain rfl := hfile db' rfl
        simp
  obtain ⟨hvacuum', hversion'⟩ := pragmas_initTables py db hds
  exact
    { kept := by
        intro db' hdb' name info hget hname
        obtain rfl := hfile db' hdb'
        by_cases hd : ∃ d ∈ schema, folded name = folded d.name
        · obtain ⟨d, hd, heq⟩ := hd
          obtain ⟨made, -, hfree, hleft⟩ := get?_initTables_of_eq hds nodup_schema hget hd heq
          obtain rfl : made = [] := List.eq_nil_iff_forall_not_mem.mpr fun idx hidx =>
            (hfree idx hidx).1 (hname d hd heq)
          exact hleft
        · exact get?_initTables_of_ne py hds hget fun d hmem heq => hd ⟨d, hmem, heq⟩
      extended := by
        intro db' hdb' d hd name info hget heq
        obtain rfl := hfile db' hdb'
        obtain ⟨made, hmade, hfree, hleft⟩ := get?_initTables_of_eq hds nodup_schema hget hd heq
        exact ⟨made, hmade, fun idx hidx => (hfree idx hidx).2, hleft⟩
      new := by
        intro name info hget hnone
        have hmissing : db.tables.get? name = none :=
          (hall (fun db => db.tables.get? name = none)
            fun h => by rw [h, Table.get?_empty]).mp hnone
        exact eq_of_get?_initTables hds nodup_schema hget hmissing
      ok_iff := by
        rw [initTables_ok_iff hds nodup_schema, hall (fun db => db.autoVacuum = 2 ∧
          db.userVersion = schemaVersion ∧ ∀ d ∈ schema, Acceptable py db d)
          fun h => ⟨hvacuum, hversion, fun _ _ => acceptable_of_empty h⟩]
        simp [hvacuum, hversion]
      complete := by
        intro hok d hd
        obtain ⟨hname, hindexes, -⟩ := initTables_of_ok hok hd
        rw [hall (fun db => FreeName db d ∧ FreeIndexes db d)
          fun h => ⟨freeName_of_empty h, freeIndexes_of_empty h⟩, ← hname, ← hindexes]
        constructor
        · rintro ⟨info, hexisting, hconforms⟩
          refine ⟨⟨info, hexisting⟩, fun info' h => ?_⟩
          rw [hexisting] at h
          exact Option.some.inj h ▸ hconforms
        · rintro ⟨⟨info, hexisting⟩, hconforms⟩
          exact ⟨info, hexisting, hconforms info hexisting⟩
      again := by
        intro hok
        rw [hall (fun db => ∀ d ∈ schema, FreeIndexes db d) fun h _ _ => freeIndexes_of_empty h,
          initDb_eq_initTables (hvacuum'.trans hvacuum) (hversion'.trans hversion)]
        obtain ⟨hsame, hiff⟩ := initTables_of_settled py hds fun d hd =>
          (initTables_of_ok hok hd).2.2
        exact ⟨hsame, hiff.trans (forall₂_congr fun d hd => (initTables_of_ok hok hd).2.1)⟩ }

/-- `init_db`, for every file that sqlite can hold. -/
theorem initDb_prepared (py : Python) (file : Option Database) :
    Prepared py file (initDb py file) := by
  cases file with
  | none =>
      have hfile : ∀ db' ∈ (none : Option Database),
          db' = ⟨2, schemaVersion, ∅, List.nodup_nil⟩ := by simp
      rw [initDb]
      exact prepared_initTables hfile (fun _ => rfl) rfl rfl
  | some db =>
      have hunchanged : ∀ e : InitError,
          ¬(db.autoVacuum = 2 ∧ db.userVersion = schemaVersion) →
            Prepared py (some db) (db, .error e) := by
        intro e hnot
        constructor
        · rintro _ ⟨⟩ name info hget -
          exact hget
        · rintro _ ⟨⟩ d - name info hget -
          exact ⟨[], List.nil_sublist _, by simp, hget⟩
        · intro name info hget hnone
          rw [hnone db rfl] at hget
          cases hget
        · refine iff_of_false (by simp) fun h => hnot ?_
          obtain ⟨hvacuum, hversion, -⟩ := h db rfl
          exact ⟨hvacuum, hversion⟩
        · simp
        · simp
      by_cases hvacuum : db.autoVacuum = 2
      · by_cases hversion : db.userVersion = schemaVersion
        · rw [initDb_eq_initTables hvacuum hversion]
          exact prepared_initTables (fun db' hdb' => (Option.some.inj hdb').symm) (by simp) hvacuum
            hversion
        · rw [initDb, if_neg (not_not.mpr hvacuum), if_pos hversion]
          exact hunchanged _ fun h => hversion h.2
      · rw [initDb, if_pos hvacuum]
        exact hunchanged _ fun h => hvacuum h.1

end RerollSync.Catalog
