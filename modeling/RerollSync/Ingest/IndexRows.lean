import RerollSync.Ingest.DisjointProjects
import RerollSync.Store.Frame

/-!
# The index row of a completed project

Whatever rows its worker has read, a project that completes with a page has the serial of
that page, one that is gone has none, and a retry leaves every serial as it is.
-/

namespace RerollSync.Ingest

open RerollSync.Store RerollSync.Support

/-! ## The ops -/

theorem keeps_pypiIndex_recordDuplicateFilename (settings : Settings)
    (project filename : String) :
    (recordDuplicateFilename settings project filename).Keeps Db.pypiIndex :=
  Program.writes_bind (Program.writes_query _) fun _ =>
    Program.writes_bind (Op.keeps_insert fun _ _ => Db.part_of_ite rfl) fun _ =>
      Program.writes_pure _

theorem keeps_pypiIndex_insertNewWheel (settings : Settings) (plan : ProjectPlan)
    (w : NewWheel) : (insertNewWheel settings plan w).Keeps Db.pypiIndex := by
  refine Program.writes_bind Program.writes_seq fun seq => ?_
  refine Program.writes_bind (Op.keeps_tryInsert fun db db' hinsert => ?_) fun inserted => ?_
  · obtain ⟨-, rfl⟩ := Db.insertWheel_eq_some_iff.mp hinsert
    rfl
  · cases inserted with
    | true =>
        rw [if_pos rfl]
        cases w.unlinkedBlobFilename with
        | none => exact Program.writes_pure _
        | some filename =>
            exact Program.writes_bind (Op.keeps_exec fun _ => rfl) fun _ => Program.writes_pure _
    | false =>
        exact Program.writes_bind (keeps_pypiIndex_recordDuplicateFilename _ _ _) fun _ =>
          Program.writes_pure _

theorem keeps_pypiIndex_applyChange (settings : Settings) (change : ChangedWheel) :
    (applyChange settings change).Keeps Db.pypiIndex := by
  refine Program.writes_bind Program.writes_seq fun seq => ?_
  refine Program.writes_bind (Op.keeps_exec fun _ => rfl) fun _ => ?_
  have hrepodata : Program.Keeps Db.pypiIndex (do
      if change.deleteRepodata then
        let _ ← Op.deleteRepodata fun id => id = change.wheelId : Op Unit) := by
    split
    · exact Program.writes_bind (Op.keeps_exec fun _ => rfl) fun _ => Program.writes_pure _
    · exact Program.writes_pure _
  by_cases hskip : change.deleteNoSidecarSkip = true
  · simp only [hskip, if_true]
    exact Program.writes_bind (Op.keeps_exec fun _ => rfl) fun _ => hrepodata
  · simp only [hskip]
    exact hrepodata

theorem keeps_pypiIndex_tombstone (nowIso : String) (id : ℕ) :
    (tombstone nowIso id).Keeps Db.pypiIndex :=
  Program.writes_bind Program.writes_seq fun _ =>
    Program.writes_bind (Op.keeps_exec fun _ => rfl) fun _ => Program.writes_pure _

/-- A plan that is applied leaves the serial of its page. -/
theorem pypiIndex_projectApply {settings : Settings} {plan : ProjectPlan} {n : ℕ} {db : Db}
    {result : ApplyResult}
    (h : ((projectApply settings plan).runAtomic db n).value = .ok result) :
    ((projectApply settings plan).runAtomic db n).db.pypiIndex =
      db.pypiIndex.set plan.project ⟨plan.remoteSerial, settings.nowIso⟩ := by
  have hupsert : Program.Triple (fun _ => True) (fun db' => db'.pypiIndex = db.pypiIndex)
      (Op.upsertIndex plan.project ⟨plan.remoteSerial, settings.nowIso⟩) fun _ db' =>
        db'.pypiIndex = db.pypiIndex.set plan.project ⟨plan.remoteSerial, settings.nowIso⟩ := by
    refine Program.Triple.write fun db₁ db₂ count hsame hok => ?_
    obtain ⟨rfl, -⟩ := Prod.mk.inj (Except.ok.inj hok)
    exact congrArg (Table.set · _ _) hsame
  have happly : Program.Triple (fun _ => True) (fun db' => db'.pypiIndex = db.pypiIndex)
      (projectApply settings plan) fun _ db' =>
        db'.pypiIndex = db.pypiIndex.set plan.project ⟨plan.remoteSerial, settings.nowIso⟩ := by
    refine (Program.Triple.of_keeps (Program.writes_each fun w _ =>
      keeps_pypiIndex_insertNewWheel settings plan w) (P := (· = db.pypiIndex))).bind fun _ => ?_
    refine (Program.Triple.of_keeps (Program.writes_each fun change _ =>
      keeps_pypiIndex_applyChange settings change) (P := (· = db.pypiIndex))).bind fun _ => ?_
    refine (Program.Triple.of_keeps (Program.writes_each fun id _ =>
      keeps_pypiIndex_tombstone settings.nowIso id) (P := (· = db.pypiIndex))).bind fun _ => ?_
    exact hupsert.bind fun _ => Program.Triple.pure _ fun _ hdb => hdb
  rw [Program.runAtomic] at h ⊢
  rcases hrun : (projectApply settings plan).run db n with ⟨db', n', e | a⟩
  · rw [hrun] at h
    cases h
  · exact happly db n db' n' a rfl (fun _ _ _ => trivial) hrun

/-! ## A turn of the loop -/

/-- Whether a project is reconciled with the answer: with a page, or that it is gone. -/
def FetchedProject.reconciles : FetchedProject → Bool
  | .page _ | .notFound => true
  | .rateLimited _ _ | .transient _ | .protocolError _ => false

/-- The serial that a project is reconciled to. -/
def FetchedProject.serial : FetchedProject → Option ℤ
  | .page p => some p.lastSerial
  | _ => none

variable {batch : Batch} {eligible : List String} {schedule : Schedule eligible}
  {s s' : IngestState} {name : String}

theorem serialOf_of_pypiIndex_set {db db' : Db} {row : IndexRow}
    (h : db'.pypiIndex = db.pypiIndex.set name row) (other : String) :
    serialOf other db' = if other = name then some row.serial else serialOf other db := by
  rw [serialOf, h]
  by_cases hother : other = name
  · rw [if_pos hother, hother, Table.get?_set_self, Option.map_some]
  · rw [if_neg hother, Table.get?_set_of_ne _ _ hother, serialOf]

theorem serialOf_of_pypiIndex_filter {db db' : Db}
    (h : db'.pypiIndex = db.pypiIndex.filter fun key _ => key ≠ name) (other : String) :
    serialOf other db' = if other = name then none else serialOf other db := by
  rw [serialOf, h, Table.get?_filter_key]
  by_cases hother : other = name
  · simp [hother]
  · simp [hother, serialOf]

/-- A retry is recorded, and at most an error is written. -/
theorem pypiIndex_retry (h : s.retry batch schedule name = .ok s') :
    s'.db.pypiIndex = s.db.pypiIndex := by
  rw [IngestState.retry] at h
  cases hbackoff : s.backoff with
  | none =>
      simp only [hbackoff] at h
      obtain rfl := Except.ok.inj h
      rfl
  | some b =>
      simp only [hbackoff] at h
      split at h
      · split at h
        · cases h
        · obtain rfl := Except.ok.inj h
          have hkeeps : ∀ settings project attempts,
              (quarantineErrorApply settings project attempts).Keeps Db.pypiIndex :=
            fun _ _ _ => Program.writes_bind (Op.keeps_insert fun _ _ => Db.part_of_ite rfl)
              fun _ => Program.writes_pure _
          exact (hkeeps _ _ _).runAtomic s.db s.changeSeq
      · obtain rfl := Except.ok.inj h
        rfl

/-- What completing a project does to the serials. -/
theorem serialOf_complete (h : s.complete batch schedule name = .ok s') (other : String) :
    serialOf other s'.db =
      if other = name ∧ (batch.fetched name).reconciles then (batch.fetched name).serial
      else serialOf other s.db := by
  rw [IngestState.complete] at h
  cases hfetched : batch.fetched name with
  | page page =>
      obtain ⟨plan, houtcome, hproject, hserial⟩ : ∃ plan : ProjectPlan,
          s.workerOutcome batch schedule name = .ok plan ∧ plan.project = name ∧
            plan.remoteSerial = page.lastSerial := by
        rw [IngestState.workerOutcome, hfetched]
        exact ⟨_, rfl, rfl, rfl⟩
      simp only [houtcome, applyProjectOutcome, writeOp] at h
      cases hvalue : ((projectApply (IngestState.settingsAt batch (schedule.appliedAt name))
          plan).runAtomic s.db s.changeSeq).value with
      | error e =>
          rw [hvalue] at h
          cases h
      | ok result =>
          rw [hvalue] at h
          obtain rfl := Except.ok.inj h
          refine (serialOf_of_pypiIndex_set (pypiIndex_projectApply hvalue) other).trans ?_
          simp [hproject, hserial, FetchedProject.reconciles, FetchedProject.serial]
  | notFound =>
      have houtcome : s.workerOutcome batch schedule name = .gone name := by
        rw [IngestState.workerOutcome, hfetched]
        rfl
      obtain ⟨wheels, n', result, hrun, -⟩ := runAtomic_goneApply name
        (IngestState.settingsAt batch (schedule.appliedAt name)).nowIso s.db s.changeSeq
      simp only [houtcome, applyProjectOutcome, writeOp, hrun] at h
      obtain rfl := Except.ok.inj h
      refine (serialOf_of_pypiIndex_filter rfl other).trans ?_
      simp [FetchedProject.reconciles, FetchedProject.serial]
  | rateLimited child retryAfter =>
      have houtcome : s.workerOutcome batch schedule name =
          .rateLimited child (retryAfter.getD 0) := by
        rw [IngestState.workerOutcome, hfetched]
        rfl
      rw [houtcome] at h
      obtain rfl := Except.ok.inj h
      simp [FetchedProject.reconciles, serialOf]
  | transient message =>
      have houtcome : s.workerOutcome batch schedule name = .retry "transient" message := by
        rw [IngestState.workerOutcome, hfetched]
        rfl
      rw [houtcome] at h
      simp [FetchedProject.reconciles, serialOf, pypiIndex_retry h]
  | protocolError message =>
      have houtcome : s.workerOutcome batch schedule name = .retry "protocol_error" message := by
        rw [IngestState.workerOutcome, hfetched]
        rfl
      rw [houtcome] at h
      simp [FetchedProject.reconciles, serialOf, pypiIndex_retry h]

end RerollSync.Ingest
