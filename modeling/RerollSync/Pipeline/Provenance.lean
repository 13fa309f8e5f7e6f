import RerollSync.Pipeline.Soundness

/-!
# Provenance of published repodata

A `READY` wheel publishes what `convert` made of the archived bytes.  A
conversion takes its bytes along and commits later; a project sync may reset the
wheel in between.
-/

namespace RerollSync.Pipeline

open RerollSync.Support RerollSync.Store RerollSync.Dispatcher RerollSync.Ingest
open RerollSync.Convert

variable {M : Type} {env : Env M}

/-- What convert makes of the bytes of an item. -/
def converted (env : Env M) (filename : String) (data : Bytes) :
    Except RerollRaised ConvertOutcome :=
  convert env.lib env.dispatcher.rerollVersion data filename

/-- The outcomes the stages submit: an `Ok` comes from convert, for the bytes the
item carries; the fetch's `Ok` is the step `archive`. -/
def produced (env : Env M) (s : State) : Event → Bool
  | .apply i (.ok ok) _ =>
      match s.held[i]? with
      | some ⟨.convert, _, .bytes filename data⟩ =>
          match converted env filename data with
          | .ok outcome => adaptConvertOutcome outcome env.dispatcher.rerollVersion = .ok ok
          | .error _ => false
      | _ => false
  | _ => true

/-- The pipeline, with the outcomes its stages submit. -/
def stages (env : Env M) : Machine State Event :=
  ⟨fun s e => if produced env s e then step env s e else none⟩

/-- The row publishes what `convert` made of `data`. -/
structure PublishedFrom (env : Env M) (db : Db) (id : ℕ) (row : WheelRow) (data : Bytes) :
    Prop where
  blobSha256 : row.blobSha256 = some (env.sha256 data)
  metadataSha256 : row.metadataSha256 = none ∨ row.metadataSha256 = some (env.sha256 data)
  wheelRepodata : ∃ outcome, converted env row.filename data = .ok (.ok outcome) ∧
    db.wheelRepodata.get? id =
      some (repodataRow env.dispatcher outcome env.dispatcher.rerollVersion)

/-- Every `READY` wheel publishes what `convert` made of the bytes its blob is. -/
def Published (env : Env M) (db : Db) : Prop :=
  ∀ id row, db.wheels.get? id = some row → row.state = .ready →
    ∃ data, PublishedFrom env db id row data

/-! ## Steps that keep the provenance -/

/-- The bytes are the ones the wheel is still linked to, and the index publishes
no other hash for it. -/
def Linked (env : Env M) (row : WheelRow) (data : Bytes) : Prop :=
  row.blobSha256 = some (env.sha256 data) ∧
    (row.metadataSha256 = none ∨ row.metadataSha256 = some (env.sha256 data))

/-- A change leaves a published wheel published: it takes the wheel out of
`READY`, or it keeps its blob, its repodata and a hash that agrees. -/
def KeepsPublished (c : ChangedWheel) (row : WheelRow) : Prop :=
  c.changes.state ≠ none ∨
    (c.changes.clearBlobSha256 = false ∧ c.deleteRepodata = false ∧
      ∀ hash, c.changes.metadataSha256 = some hash → hash = none ∨ hash = row.blobSha256)

/-- What a step commits still matches the wheel: a conversion commits only while
the wheel is linked to its bytes, and a sync that was computed before a wheel was
published does not touch what it publishes. -/
def Matching (env : Env M) (s : State) (e : Event) : Prop :=
  match e with
  | .apply i (.ok _) _ => ∀ h, s.held[i]? = some h → ∀ filename data,
      h.loaded = .bytes filename data → ∀ row, s.db.wheels.get? h.item.id = some row →
        Linked env row data
  | .applySync name _ => ∀ plan, s.syncs.get? name = some (.plan plan) →
      ∀ c ∈ plan.changedWheels, ∀ row, s.db.wheels.get? c.wheelId = some row →
        row.state = .ready → KeepsPublished c row
  | _ => True

/-- A row that keeps its filename, blob and published hash, and its repodata, stays
published. -/
theorem PublishedFrom.congr {db db' : Db} {id : ℕ} {row row' : WheelRow} {data : Bytes}
    (h : PublishedFrom env db id row data) (hname : row'.filename = row.filename)
    (hblob : row'.blobSha256 = row.blobSha256)
    (hmetadata : row'.metadataSha256 = none ∨ row'.metadataSha256 = row.metadataSha256 ∨
      row'.metadataSha256 = row.blobSha256)
    (hrepodata : db'.wheelRepodata.get? id = db.wheelRepodata.get? id) :
    PublishedFrom env db' id row' data where
  blobSha256 := hblob.trans h.blobSha256
  metadataSha256 := by
    rcases hmetadata with hnone | hsame | hblob'
    · exact Or.inl hnone
    · rw [hsame]
      exact h.metadataSha256
    · exact Or.inr (hblob'.trans h.blobSha256)
  wheelRepodata := by
    rw [hname, hrepodata]
    exact h.wheelRepodata

/-- The `Ok` of a conversion. -/
theorem converted_of_produced {s : State} {i : ℕ} {ok : Ok} {clock : Clock} {h : Held}
    (hproduced : produced env s (.apply i (.ok ok) clock) = true) (hheld : s.held[i]? = some h) :
    ∃ filename data outcome, h.stage = .convert ∧ h.loaded = .bytes filename data ∧
      converted env filename data = .ok (.ok outcome) ∧
      ok = ⟨.ready, .convertOk outcome env.dispatcher.rerollVersion⟩ := by
  rcases h with ⟨_ | _, item, _ | _ | ⟨filename, data⟩⟩ <;> simp only [produced, hheld] at hproduced
  all_goals try exact absurd hproduced Bool.false_ne_true
  cases hconv : converted env filename data with
  | error e => simp [hconv] at hproduced
  | ok outcome =>
      rw [hconv] at hproduced
      cases outcome with
      | ok outcome =>
          refine ⟨filename, data, outcome, rfl, rfl, hconv, ?_⟩
          simpa [adaptConvertOutcome, eq_comm] using hproduced
      | skip outcome => simp [adaptConvertOutcome] at hproduced
      | retry outcome => simp [adaptConvertOutcome] at hproduced

theorem outcomeRepodata_of_ne {settings : Dispatcher.Settings} {item : QueueItem} {db : Db}
    (outcome : Outcome) {id : ℕ} (hid : id ≠ item.id) :
    (outcomeRepodata settings item db outcome).get? id = db.wheelRepodata.get? id := by
  rcases outcome with ⟨nextState, blobSha256 | ⟨outcome, rerollVersion⟩⟩ | skip | retry
  · rfl
  · exact Table.get?_set_of_ne _ _ hid
  · rfl
  · rfl

/-- Only convert publishes a wheel, and what it publishes is what the wheel is
linked to. -/
theorem publishedFrom_moved {s : State} {e : Event} {i : ℕ} {outcome : Outcome} {clock : Clock}
    {h : Held} (hs : Sound s) (he : e.submits env = some (i, outcome, clock))
    (hproduced : produced env s e = true) (hmatching : Matching env s e)
    (hheld : s.held[i]? = some h)
    (htarget : target env.dispatcher h.stage h.item s.db outcome = some .ready)
    {row : WheelRow} (hrow : s.db.wheels.get? h.item.id = some row) {db' : Db}
    (hrepodata : db'.wheelRepodata = outcomeRepodata env.dispatcher h.item s.db outcome)
    (seq : ℕ) :
    ∃ data, PublishedFrom env db' h.item.id
      (outcomeRow env.dispatcher clock h.stage h.item s.db seq row outcome) data := by
  have hstate : (outcomeRow env.dispatcher clock h.stage h.item s.db seq row outcome).state =
      .ready := outcomeRow_state htarget seq row
  cases e with
  | apply i' outcome' clock' =>
      obtain ⟨rfl, rfl, rfl⟩ : i' = i ∧ outcome' = outcome ∧ clock' = clock := by
        simpa [Event.submits] using he
      cases outcome' with
      | ok ok =>
          obtain ⟨filename, data, converted, hstage, hloaded, hconvert, rfl⟩ :=
            converted_of_produced hproduced hheld
          obtain ⟨hblob, hmetadata⟩ := hmatching h hheld filename data hloaded row hrow
          obtain ⟨-, row', hrow', hname⟩ := hs.held h (List.mem_of_getElem? hheld)
          obtain rfl : row' = row := by simpa [hrow'] using hrow
          obtain rfl : row'.filename = filename := hname filename (by rw [hloaded]; rfl)
          refine ⟨data, hblob, hmetadata, converted, hconvert, ?_⟩
          rw [hrepodata]
          exact Table.get?_set_self _ _ _
      | skip skip => simp [outcomeRow, enterState] at hstate
      | retry retry =>
          obtain ⟨-, hnext⟩ := Option.ite_none_right_eq_some.mp htarget
          cases hnext
  | archive i' data clock' =>
      obtain ⟨-, rfl, -⟩ : i' = i ∧ State.archived env data = outcome ∧ clock' = clock := by
        simpa [Event.submits] using he
      simp [outcomeRow, okRow, State.archived, enterState] at hstate
  | _ => cases he

/-- A change that keeps what is published, at a plan that changes a wheel once. -/
theorem publishedFrom_changed {s : State} {plan : ProjectPlan} {settings : Ingest.Settings}
    {db' : Db} (hsynced : Synced settings plan s.db db')
    (hnodup : (plan.changedWheels.map ChangedWheel.wheelId).Nodup) {c : ChangedWheel}
    (hc : c ∈ plan.changedWheels) {row : WheelRow}
    (hentry : ∀ next, c.changes.state = some next → next ∈ entryStates) {m : ℕ}
    (hready : (changedRow settings c m row).state = .ready)
    (hkeeps : row.state = .ready → KeepsPublished c row)
    (hpublished : row.state = .ready → ∃ data, PublishedFrom env s.db c.wheelId row data) :
    ∃ data, PublishedFrom env db' c.wheelId (changedRow settings c m row) data := by
  have hsame : c.changes.state = none := by
    cases hnext : c.changes.state with
    | none => rfl
    | some next =>
        obtain rfl : next = .ready := by simpa [changedRow, Changes.apply, hnext] using hready
        simpa [entryStates] using hentry _ hnext
  have hrow : row.state = .ready := by simpa [changedRow, Changes.apply, hsame] using hready
  obtain ⟨data, hfrom⟩ := hpublished hrow
  obtain ⟨hblob, hrepodata, hmetadata⟩ := (hkeeps hrow).resolve_left (fun hne => hne hsame)
  refine ⟨data, hfrom.congr rfl ?_ ?_ ?_⟩
  · simp [changedRow, Changes.apply, hblob]
  · cases hhash : c.changes.metadataSha256 with
    | none => exact Or.inr (Or.inl (by simp [changedRow, Changes.apply, hhash]))
    | some hash =>
        rcases hmetadata hash hhash with rfl | rfl
        · exact Or.inl (by simp [changedRow, Changes.apply, hhash])
        · exact Or.inr (Or.inr (by simp [changedRow, Changes.apply, hhash]))
  · rw [hsynced.wheelRepodata, Table.get?_filter]
    have hnone : plan.changedWheels.any (·.deletesRepodata c.wheelId) = false := by
      rw [List.any_eq_false]
      intro c' hc' hdeletes
      obtain ⟨hdelete, hid⟩ : c'.deleteRepodata = true ∧ c.wheelId = c'.wheelId := by
        simpa [ChangedWheel.deletesRepodata] using hdeletes
      obtain rfl : c = c' := List.inj_on_of_nodup_map hnodup hc hc' hid
      rw [hrepodata] at hdelete
      cases hdelete
    cases s.db.wheelRepodata.get? c.wheelId <;> simp [hnone]

/-- A row a plan does not name keeps its repodata. -/
theorem repodata_of_not_named {settings : Ingest.Settings} {plan : ProjectPlan} {db db' : Db}
    (hsynced : Synced settings plan db db') {id : ℕ} (hid : id ∉ plan.wheelIds) :
    db'.wheelRepodata.get? id = db.wheelRepodata.get? id := by
  have hnone : plan.changedWheels.any (·.deletesRepodata id) = false := by
    rw [List.any_eq_false]
    intro c hc hdeletes
    obtain ⟨-, rfl⟩ : c.deleteRepodata = true ∧ id = c.wheelId := by
      simpa [ChangedWheel.deletesRepodata] using hdeletes
    exact hid (List.mem_append_left _ (List.mem_map.mpr ⟨c, hc, rfl⟩))
  rw [hsynced.wheelRepodata, Table.get?_filter]
  cases db.wheelRepodata.get? id <;> simp [hnone]

/-- A step whose commit matches the wheels keeps every published wheel published. -/
theorem published_step {s s' : State} {e : Event} (hs : Sound s) (h : Published env s.db)
    (hmatching : Matching env s e) (hproduced : produced env s e = true)
    (hstep : step env s e = some s') : Published env s'.db := by
  have hcommit := (stepped_of_step hs hstep).commit
  generalize s'.db = db' at hcommit ⊢
  intro id row' hrow' hready
  cases hcommit with
  | quiet => exact h id row' hrow' hready
  | unmoved he hheld htarget wheels wheelRepodata =>
      obtain ⟨data, hfrom⟩ := h id row' (by rw [← wheels, hrow']) hready
      exact ⟨data, hfrom.congr rfl rfl (Or.inr (Or.inl rfl)) (by rw [wheelRepodata])⟩
  | @moved _ i outcome clock held next _ he hheld htarget wheels wheelRepodata =>
      rw [wheels, Table.get?_modify] at hrow'
      obtain ⟨row, hrow, rfl⟩ := Option.map_eq_some_iff.mp hrow'
      by_cases hid : id = held.item.id
      · rw [Db.atWheel, if_pos hid] at hready ⊢
        obtain rfl : next = .ready := by rwa [outcomeRow_state htarget] at hready
        subst hid
        exact publishedFrom_moved hs he hproduced hmatching hheld htarget hrow wheelRepodata _
      · rw [Db.atWheel, if_neg hid] at hready ⊢
        obtain ⟨data, hfrom⟩ := h id row hrow hready
        refine ⟨data, hfrom.congr rfl rfl (Or.inr (Or.inl rfl)) ?_⟩
        rw [wheelRepodata, outcomeRepodata_of_ne outcome hid]
  | planned hfits hsync synced =>
      cases hrow : s.db.wheels.get? id with
      | none =>
          obtain ⟨w, hw, -, m, rfl⟩ := synced.fresh id row' hrow hrow'
          have hentry := hfits.new w hw
          rw [show w.state = .ready from hready] at hentry
          simp [entryStates] at hentry
      | some row =>
          obtain ⟨m, m', hget⟩ := synced.kept id row hrow
          obtain rfl := Option.some.inj (hrow'.symm.trans hget)
          rcases plannedRow_cases _ _ id m m' row with
            ⟨-, changed, -, -, heq⟩ | ⟨-, c, hc, rfl, heq⟩ | ⟨hid, heq⟩
          · rw [heq] at hready
            cases hready
          · obtain ⟨found, hfound, -, hentry, -⟩ := hfits.changed c hc
            rw [heq] at hready ⊢
            exact publishedFrom_changed synced hfits.changedOnce hc hentry hready
              (hmatching _ hsync c hc row hrow) (h c.wheelId row hrow)
          · rw [heq] at hready ⊢
            obtain ⟨data, hfrom⟩ := h id row hrow hready
            exact ⟨data, hfrom.congr rfl rfl (Or.inr (Or.inl rfl))
              (repodata_of_not_named synced hid)⟩
  | gone hsync wheels wheelRepodata =>
      obtain ⟨m, hm⟩ := wheels id
      obtain ⟨row, hrow, rfl⟩ := Option.map_eq_some_iff.mp (hm.symm.trans hrow')
      rw [goneRow] at hready ⊢
      split at hready
      · simp [tombstoned] at hready
      · rename_i hlive
        rw [if_neg hlive]
        obtain ⟨data, hfrom⟩ := h id row hrow hready
        exact ⟨data, hfrom.congr rfl rfl (Or.inr (Or.inl rfl)) (by rw [wheelRepodata])⟩
  | @reprocessed _ _ ids _ _ hchunk wheels wheelRepodata =>
      obtain ⟨m, hm⟩ := wheels id
      obtain ⟨row, hrow, rfl⟩ := Option.map_eq_some_iff.mp (hm.symm.trans hrow')
      by_cases hid : id ∈ ids
      · simp [hid, reprocessedRow] at hready
      · rw [if_neg hid] at hready ⊢
        obtain ⟨data, hfrom⟩ := h id row hrow hready
        refine ⟨data, hfrom.congr rfl rfl (Or.inr (Or.inl rfl)) ?_⟩
        rw [wheelRepodata, Table.get?_filter]
        cases s.db.wheelRepodata.get? id <;> simp [hid]
  | @unquarantined _ _ ids _ hids wheels wheelRepodata =>
      obtain ⟨m, hm⟩ := wheels id
      obtain ⟨row, hrow, rfl⟩ := Option.map_eq_some_iff.mp (hm.symm.trans hrow')
      split at hready
      · simp [enterState] at hready
      · rename_i hnot
        rw [if_neg hnot]
        obtain ⟨data, hfrom⟩ := h id row hrow hready
        exact ⟨data, hfrom.congr rfl rfl (Or.inr (Or.inl rfl)) (by rw [wheelRepodata])⟩

/-! ## Runs -/

theorem stages_step_eq_some {s s' : State} {e : Event} :
    (stages env).step s e = some s' ↔ produced env s e = true ∧ step env s e = some s' :=
  Option.ite_none_right_eq_some

/-- In a run of the stages whose commits match the wheels, every wheel that is
`READY` publishes what `convert` made of the bytes its blob is. -/
theorem published_of_matching {db : Db} {n : ℕ} (hdb : Published env db) {l : List Event}
    {t : State} (hrun : (stages env).run (.initial db n) l = some t)
    (hmatching : (stages env).Along (Matching env) (.initial db n) l) : Published env t.db := by
  have hstep : ∀ s e s', (Sound s ∧ Published env s.db) → Matching env s e →
      (stages env).step s e = some s' → Sound s' ∧ Published env s'.db := by
    intro s e s' h hmatching hstep
    obtain ⟨hproduced, hstep⟩ := stages_step_eq_some.mp hstep
    exact ⟨sound_step h.1 hstep, published_step h.1 h.2 hmatching hproduced hstep⟩
  have hend : Sound t ∧ Published env t.db :=
    Machine.run_invariant_along (P := fun s => Sound s ∧ Published env s.db) hstep
      ⟨sound_initial db n, hdb⟩ hmatching hrun
  exact hend.2

/-! ## A stale conversion -/

/-- The page that publishes another hash for the wheel. -/
def examplePage : ProjectPage where
  lastSerial := 2
  files :=
    [{ filename := "p-1.0-py3-none-any.whl", url := "https://files/p-1.0-py3-none-any.whl"
       hasMetadata := true, metadataSha256 := some "2" }]

/-- The wheel is fetched and handed to convert. -/
def fedRun : List Event :=
  [.claim .fetch 10 "t1", .loadSidecar 0, .archive 0 [65] exampleClock]

/-- What convert makes of the bytes. -/
def exampleConverted : Ok :=
  ⟨.ready, .convertOk ⟨[⟨"p", [], "p-1.0-py3-none-any.whl"⟩], [], "p", false⟩ "1.0"⟩

/-- The conversion is committed. -/
def convertedRun : List Event := fedRun ++ [.apply 0 (.ok exampleConverted) exampleClock]

/-- The conversion is committed after a sync that reset the wheel. -/
def resetRun : List Event :=
  fedRun ++ [.planSync "p" (.page examplePage), .applySync "p" "t2",
    .apply 0 (.ok exampleConverted) exampleClock]

/-- What the example is about: the state, the blob and the published hash. -/
def stateAndBlob (s : State) : Option (WheelState × Option String × Option String) :=
  (s.db.wheels.get? 1).map fun row => (row.state, row.blobSha256, row.metadataSha256)

theorem published_exampleDb : Published exampleEnv exampleDb := by
  have hnone : ∀ id row, exampleDb.wheels.get? id = some row → row.state ≠ .ready :=
    Table.forall_get?_iff.mpr (by decide)
  exact fun id row hrow hready => (hnone id row hrow hready).elim

theorem published_of_matching_conversion :
    ∃ t row, (stages exampleEnv).run (.initial exampleDb 1) convertedRun = some t ∧
      t.db.wheels.get? 1 = some row ∧ row.state = .ready ∧ Published exampleEnv t.db := by
  have hfed : ((stages exampleEnv).run (.initial exampleDb 1) fedRun).map (fun s =>
      (s.held[0]?.map fun h => (h.item.id, h.loaded), stateAndBlob s)) =
      some (some (1, .bytes "p-1.0-py3-none-any.whl" [65]),
        some (.needConvert, some "65", none)) := by
    decide
  have hconverted : ((stages exampleEnv).run (.initial exampleDb 1) convertedRun).map stateAndBlob =
      some (some (.ready, some "65", none)) := by
    decide
  obtain ⟨s, hs, hpair⟩ := Option.map_eq_some_iff.mp hfed
  obtain ⟨hheld, hbefore⟩ := Prod.mk.inj hpair
  obtain ⟨t, hrun, hafter⟩ := Option.map_eq_some_iff.mp hconverted
  obtain ⟨s', hs', hstep⟩ := Machine.run_snoc_eq_some.mp hrun
  obtain rfl : s = s' := by simpa using hs.symm.trans hs'
  obtain ⟨h, hh, hloaded⟩ := Option.map_eq_some_iff.mp hheld
  obtain ⟨row, hrow, hrowEq⟩ := Option.map_eq_some_iff.mp hbefore
  obtain ⟨row', hrow', hrowEq'⟩ := Option.map_eq_some_iff.mp hafter
  refine ⟨t, row', hrun, hrow', congrArg Prod.fst hrowEq', ?_⟩
  refine published_of_matching published_exampleDb hrun ((Machine.along_append hs).mpr ⟨?_, ?_⟩)
  · exact Machine.along_of_forall (by simp [fedRun, Matching]) _
  · refine (Machine.along_cons hstep).mpr
      ⟨fun h' hh' filename data hdata row'' hrow'' => ?_, trivial⟩
    obtain rfl : h = h' := by simpa using hh.symm.trans hh'
    obtain ⟨hid, hbytes⟩ := Prod.mk.inj hloaded
    obtain ⟨-, rfl⟩ : "p-1.0-py3-none-any.whl" = filename ∧ [65] = data := by
      simpa using hbytes.symm.trans hdata
    rw [hid, hrow] at hrow''
    obtain rfl := Option.some.inj hrow''
    obtain ⟨-, hblob, hmetadata⟩ : row.state = _ ∧ row.blobSha256 = _ ∧ row.metadataSha256 = _ := by
      simpa using hrowEq
    exact ⟨hblob.trans (by decide), Or.inl hmetadata⟩

/-- A conversion that was fed before a sync reset the wheel commits after it: the
wheel is `READY` without a blob, and the index publishes another hash. -/
theorem stale_conversion_unpublished :
    Published exampleEnv exampleDb ∧
      ∃ t row, (stages exampleEnv).run (.initial exampleDb 1) resetRun = some t ∧
        t.db.wheels.get? 1 = some row ∧ row.state = .ready ∧ row.blobSha256 = none ∧
        row.metadataSha256 = some "2" ∧ ¬Published exampleEnv t.db := by
  refine ⟨published_exampleDb, ?_⟩
  have hrun : ((stages exampleEnv).run (.initial exampleDb 1) resetRun).map stateAndBlob =
      some (some (.ready, none, some "2")) := by
    decide
  obtain ⟨t, ht, hafter⟩ := Option.map_eq_some_iff.mp hrun
  obtain ⟨row, hrow, hrowEq⟩ := Option.map_eq_some_iff.mp hafter
  obtain ⟨hready, hrest⟩ := Prod.mk.inj hrowEq
  obtain ⟨hblob, hmetadata⟩ := Prod.mk.inj hrest
  refine ⟨t, row, ht, hrow, hready, hblob, hmetadata, fun hpublished => ?_⟩
  obtain ⟨data, hfrom⟩ := hpublished 1 row hrow hready
  simpa [hblob] using hfrom.blobSha256

end RerollSync.Pipeline
