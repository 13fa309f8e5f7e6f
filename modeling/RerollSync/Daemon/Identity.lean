import RerollSync.Daemon.Lanes
import RerollSync.Daemon.Steps
import RerollSync.Store.Frame

/-!
# What a wheel is, throughout

A row of `wheels` is never deleted: over any run of the daemon a file keeps its id and its
project, no two rows have one filename, and a wheel that has gone to the backfill lane does
not come back from it.
-/

namespace RerollSync.Daemon

open RerollSync.Support RerollSync.Store RerollSync.Dispatcher RerollSync.Ingest
open RerollSync.Pipeline RerollSync.Fetch

/-- A row may have come of another one. -/
structure SameFile (row row' : WheelRow) : Prop where
  filename : row'.filename = row.filename
  project : row'.project = row.project
  lane : row'.lane = row.lane ∨ row'.lane = 1

theorem SameFile.refl (row : WheelRow) : SameFile row row := ⟨rfl, rfl, .inl rfl⟩

theorem SameFile.trans {row row' row'' : WheelRow} (h : SameFile row row')
    (h' : SameFile row' row'') : SameFile row row'' where
  filename := h'.filename.trans h.filename
  project := h'.project.trans h.project
  lane := by
    rcases h'.lane with hsame | hback
    · rw [hsame]
      exact h.lane
    · exact .inr hback

/-- A database may have come of another one. -/
structure SameFiles (db db' : Db) : Prop where
  constrained : db.Constrained → db'.Constrained
  kept : ∀ id row, db.wheels.get? id = some row →
    ∃ row', db'.wheels.get? id = some row' ∧ SameFile row row'

namespace SameFiles

variable {db db' db'' : Db}

theorem refl (db : Db) : SameFiles db db := ⟨id, fun _ row hrow => ⟨row, hrow, .refl row⟩⟩

theorem trans (h : SameFiles db db') (h' : SameFiles db' db'') : SameFiles db db'' where
  constrained hdb := h'.constrained (h.constrained hdb)
  kept id row hrow := by
    obtain ⟨row', hrow', hsame⟩ := h.kept id row hrow
    obtain ⟨row'', hrow'', hsame'⟩ := h'.kept id row' hrow'
    exact ⟨row'', hrow'', hsame.trans hsame'⟩

theorem of_wheels (h : db'.wheels = db.wheels) : SameFiles db db' where
  constrained hdb := hdb.congr h
  kept _ row hrow := ⟨row, h ▸ hrow, .refl row⟩

/-- No row is inserted, and each one comes of itself. -/
theorem of_kept (hnone : ∀ id, db.wheels.get? id = none → db'.wheels.get? id = none)
    (hkept : ∀ id row, db.wheels.get? id = some row →
      ∃ row', db'.wheels.get? id = some row' ∧ SameFile row row') : SameFiles db db' where
  constrained hdb := by
    have hback : ∀ id row', db'.wheels.get? id = some row' →
        ∃ row, db.wheels.get? id = some row ∧ row'.filename = row.filename := by
      intro id row' hrow'
      cases hrow : db.wheels.get? id with
      | none =>
          rw [hnone id hrow] at hrow'
          cases hrow'
      | some row =>
          obtain ⟨row'', hrow'', hsame⟩ := hkept id row hrow
          obtain rfl := Option.some.inj (hrow''.symm.trans hrow')
          exact ⟨row, rfl, hsame.filename⟩
    refine ⟨fun id₁ id₂ row₁ row₂ hrow₁ hrow₂ hname => ?_, fun id row hrow => ?_⟩
    · obtain ⟨r₁, hr₁, hname₁⟩ := hback id₁ row₁ hrow₁
      obtain ⟨r₂, hr₂, hname₂⟩ := hback id₂ row₂ hrow₂
      exact hdb.unique id₁ id₂ r₁ r₂ hr₁ hr₂ (hname₁.symm.trans (hname.trans hname₂))
    · obtain ⟨r, hr, -⟩ := hback id row hrow
      exact hdb.positive id r hr
  kept := hkept

theorem updateWheels (p : ℕ → WheelRow → Bool) {f : WheelRow → WheelRow}
    (hf : ∀ row, SameFile row (f row)) : SameFiles db (db.updateWheels p f) := by
  have hget : ∀ id, (db.updateWheels p f).wheels.get? id =
      (db.wheels.get? id).map fun row => if p id row then f row else row :=
    fun id => Table.get?_modify _ _ _
  refine of_kept (fun id hnone => by rw [hget, hnone, Option.map_none]) fun id row hrow => ?_
  refine ⟨_, by rw [hget, hrow, Option.map_some], ?_⟩
  split
  · exact hf row
  · exact .refl row

theorem addWheel {row : WheelRow} (hfree : db.named row.filename = none) :
    SameFiles db (db.addWheel row) where
  constrained hdb := hdb.addWheel hfree
  kept id r hr := by
    refine ⟨r, ?_, .refl r⟩
    rw [Db.get?_addWheel, if_neg ?_, hr]
    rintro rfl
    rw [get?_nextId] at hr
    cases hr

end SameFiles

/-! ## The moves of the daemon -/

theorem sameFile_apply (m : ℕ) (w : Wheel) (move : Move) : SameFile w.row (move.apply m w).row := by
  cases move with
  | unquarantined nowIso =>
      by_cases hstate : w.row.state = .quarantined
      · simp only [Move.apply, hstate, if_true]
        exact ⟨rfl, rfl, .inl rfl⟩
      · simp only [Move.apply, hstate, if_false]
        exact .refl w.row
  | reprocessed selector nowIso => exact ⟨rfl, rfl, .inr rfl⟩
  | _ => exact ⟨rfl, rfl, .inl rfl⟩

theorem sameFiles_of_moves {move : ℕ → WheelRow → Option Move} {db db' : Db}
    (h : Moves move unborn db db') : SameFiles db db' := by
  refine .of_kept (fun id hnone => ?_) fun id row hrow => ?_
  · by_contra hsome
    obtain ⟨row, hrow⟩ := Option.ne_none_iff_exists'.mp hsome
    exact h.fresh id row hnone hrow
  · obtain ⟨m, hwheel⟩ := h.kept id row hrow
    refine ⟨_, (Db.wheel?_eq_some_iff.mp hwheel).1, ?_⟩
    cases move id row with
    | none => exact .refl row
    | some move => exact sameFile_apply m (db.wheelAt id row) move

/-! ## The plan of a project -/

/-- What a statement leaves comes of what it finds. -/
def KeepsFiles (f : Db → Except OpError (Db × ℕ)) : Prop :=
  ∀ db db' count, f db = .ok (db', count) → SameFiles db db'

theorem keepsFiles_of_keeps {α : Type} {op : Op α} (h : op.Keeps Db.wheels) :
    op.Writes KeepsFiles :=
  Program.writes_mono (fun _ hf db db' count hok => .of_wheels (hf db db' count hok)) h

theorem keepsFiles_updateWheel (id : ℕ) {f : WheelRow → WheelRow}
    (hf : ∀ row, SameFile row (f row)) : (Op.updateWheel id f).Writes KeepsFiles := by
  refine Program.writes_write.mpr fun db db' count hok => ?_
  obtain ⟨rfl, -⟩ := Prod.mk.inj (Except.ok.inj hok)
  exact .updateWheels _ hf

theorem keepsFiles_insertWheel (row : WheelRow) :
    (Op.tryInsert (Db.insertWheel row)).Writes KeepsFiles := by
  refine Program.writes_bind (Program.writes_attempt.mpr fun db db' count hok => ?_)
    fun result => ?_
  · cases hinsert : db.insertWheel row with
    | none => simp [hinsert] at hok
    | some inserted =>
        obtain ⟨hfree, rfl⟩ := Db.insertWheel_eq_some_iff.mp hinsert
        simp only [hinsert] at hok
        obtain ⟨rfl, -⟩ := Prod.mk.inj (Except.ok.inj hok)
        refine .addWheel (Db.named_eq_none_iff.mpr fun id r hr => ?_)
        exact hfree (id, r) (Table.get?_eq_some_iff.mp hr)
  · rcases result with (_ | _ | _ | _) | count <;> trivial

theorem keepsFiles_insertNewWheel (settings : Ingest.Settings) (plan : ProjectPlan)
    (w : NewWheel) : (insertNewWheel settings plan w).Writes KeepsFiles := by
  refine Program.writes_bind Program.writes_seq fun seq => ?_
  refine Program.writes_bind (keepsFiles_insertWheel _) fun inserted => ?_
  cases inserted with
  | false =>
      refine Program.writes_bind (Program.writes_bind (Program.writes_query _) fun _ => ?_)
        fun _ => Program.writes_pure _
      refine Program.writes_bind (keepsFiles_of_keeps ?_) fun _ => Program.writes_pure _
      refine Op.keeps_insert fun db db' h => ?_
      obtain ⟨-, heq⟩ := Option.ite_none_right_eq_some.mp h
      exact Option.some.inj heq ▸ rfl
  | true =>
      cases w.unlinkedBlobFilename with
      | none => exact Program.writes_pure _
      | some filename =>
          exact Program.writes_bind (keepsFiles_of_keeps (Op.keeps_exec fun _ => rfl)) fun _ =>
            Program.writes_pure _

theorem keepsFiles_applyChange (settings : Ingest.Settings) (change : ChangedWheel) :
    (applyChange settings change).Writes KeepsFiles := by
  refine Program.writes_bind Program.writes_seq fun seq => ?_
  refine Program.writes_bind (keepsFiles_updateWheel _ fun row => ⟨rfl, rfl, .inl rfl⟩) fun _ => ?_
  have hrepodata : (if change.deleteRepodata then do
      let _ ← Op.deleteRepodata fun id => id = change.wheelId
      else pure () : Op Unit).Writes KeepsFiles := by
    split
    · exact Program.writes_bind (keepsFiles_of_keeps (Op.keeps_exec fun _ => rfl)) fun _ =>
        Program.writes_pure _
    · exact Program.writes_pure _
  by_cases hskip : change.deleteNoSidecarSkip = true
  · simp only [hskip, if_true]
    exact Program.writes_bind (keepsFiles_of_keeps (Op.keeps_exec fun _ => rfl)) fun _ => hrepodata
  · simp only [hskip]
    exact hrepodata

theorem keepsFiles_tombstone (nowIso : String) (wheelId : ℕ) :
    (tombstone nowIso wheelId).Writes KeepsFiles := by
  refine Program.writes_bind Program.writes_seq fun seq => ?_
  exact Program.writes_bind (keepsFiles_updateWheel _ fun row => ⟨rfl, rfl, .inl rfl⟩) fun _ =>
    Program.writes_pure _

theorem keepsFiles_projectApply (settings : Ingest.Settings) (plan : ProjectPlan) :
    (projectApply settings plan).Writes KeepsFiles := by
  refine Program.writes_bind
    (Program.writes_each fun w _ => keepsFiles_insertNewWheel settings plan w) fun _ => ?_
  refine Program.writes_bind
    (Program.writes_each fun change _ => keepsFiles_applyChange settings change) fun _ => ?_
  refine Program.writes_bind
    (Program.writes_each fun id _ => keepsFiles_tombstone settings.nowIso id) fun _ => ?_
  exact Program.writes_bind (keepsFiles_of_keeps (Op.keeps_exec fun _ => rfl)) fun _ =>
    Program.writes_pure _

theorem sameFiles_runAtomic {α : Type} {op : Op α} (h : op.Writes KeepsFiles) (db : Db) (n : ℕ) :
    SameFiles db (op.runAtomic db n).db := by
  rw [Program.runAtomic]
  have hrun := Program.run_rel SameFiles.refl (fun _ _ _ => SameFiles.trans) h db n
  rcases hresult : op.run db n with ⟨db', n', e | a⟩
  · exact .refl db
  · rwa [hresult] at hrun

/-! ## Runs -/

variable {M : Type} {env : Env M}

theorem sameFiles_step {s s' : State} {e : Event} (hs : Intact s)
    (hstep : step env s e = some s') : SameFiles s.db s'.db := by
  have hmoves := moves_step hs hstep
  cases e with
  | pipeline e =>
      cases e with
      | applySync name nowIso =>
          obtain ⟨sync, hsync, hrest⟩ := Option.bind_eq_some_iff.mp (step_pipeline hstep).2.1
          obtain rfl := Option.some.inj hrest
          cases sync with
          | plan plan => exact sameFiles_runAtomic (keepsFiles_projectApply _ plan) _ _
          | gone =>
              refine sameFiles_of_moves (hmoves.congr (fun _ _ => rfl) ?_)
              rintro row ⟨plan, hplan, -⟩
              rw [hsync] at hplan
              cases hplan
      | _ => exact sameFiles_of_moves hmoves
  | _ => exact sameFiles_of_moves hmoves

theorem sameFiles_run {s t : State} {l : List Event} (hs : Intact s)
    (hrun : (machine env).run s l = some t) : Intact t ∧ SameFiles s.db t.db := by
  refine Machine.run_invariant (P := fun t => Intact t ∧ SameFiles s.db t.db)
    (fun t e t' ht hstep => ?_) ⟨hs, .refl _⟩ hrun
  exact ⟨intact_step ht.1 hstep, ht.2.trans (sameFiles_step ht.1 hstep)⟩

/-- Throughout the runs of the daemon, filenames are unique, and a file keeps the id and the
project that it was first inserted with; a wheel that is not in the live lane any more never
is again. -/
theorem files_kept {s t : State} {l l' : List Event} (hs : (machine env).run start l = some s)
    (ht : (machine env).run s l' = some t) : t.db.Constrained ∧
      ∀ filename id row, s.db.named filename = some (id, row) →
        ∃ row', t.db.named filename = some (id, row') ∧ SameFile row row' := by
  obtain ⟨hintact, hstart⟩ := sameFiles_run intact_start hs
  obtain ⟨-, hrun⟩ := sameFiles_run hintact ht
  have hconstrained := hrun.constrained (hstart.constrained Db.constrained_empty)
  refine ⟨hconstrained, fun filename id row hnamed => ?_⟩
  obtain ⟨hrow, rfl⟩ := Db.get?_of_named hnamed
  obtain ⟨row', hrow', hsame⟩ := hrun.kept id row hrow
  exact ⟨row', hconstrained.named_eq_some_iff.mpr ⟨hrow', hsame.filename⟩, hsame⟩

/-- A wheel leaves its index, and comes back after a restart. -/
theorem files_kept_restored : ∃ s t,
    (machine exampleEnv).run start (syncEvents ["a.whl"]) = some s ∧
    (machine exampleEnv).run s (syncEvents [] ++ [.restart] ++ syncEvents ["a.whl"]) = some t ∧
    t.db.Constrained ∧ ∀ filename id row, s.db.named filename = some (id, row) →
      ∃ row', t.db.named filename = some (id, row') ∧ SameFile row row' := by
  obtain ⟨t, ht⟩ : ∃ t, (machine exampleEnv).run start (syncEvents ["a.whl"] ++
      (syncEvents [] ++ [.restart] ++ syncEvents ["a.whl"])) = some t :=
    Option.isSome_iff_exists.mp (by decide)
  obtain ⟨s, hs, hrest⟩ := Machine.run_append_eq_some.mp ht
  exact ⟨s, t, hs, hrest, files_kept hs hrest⟩

end RerollSync.Daemon
