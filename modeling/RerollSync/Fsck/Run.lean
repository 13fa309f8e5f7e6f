import RerollSync.Archive.VerifySoundness
import RerollSync.Fsck.Consistent

/-!
# The run of fsck

`run` makes one check after the other and puts what they find together.  Its report is
`ok` exactly when the tables are consistent and agree with the writer's counter and with
the sealed segments, whatever the size of the chunks and the number of examples.
-/

namespace RerollSync.Fsck

open RerollSync.Support RerollSync.Store RerollSync.Archive

/-! ## The report -/

/-- An example of a violation: a value of a row, or a text. -/
inductive Sample
  | value (v : Value)
  | text (s : String)
deriving DecidableEq, Repr

/-- A `Violation` of any check. -/
structure Finding where
  invariant : String
  description : String
  count : ℕ
  exampleIds : List Sample
  informational : Bool
deriving DecidableEq, Repr

def Violation.finding (v : Violation) : Finding :=
  ⟨v.invariant, v.description, v.count, v.exampleIds.map .value, v.informational⟩

/-- `FsckReport.ok`. -/
def reportOk (violations : List Finding) : Bool := !violations.any fun v => !v.informational

/-- What `run` raises: a scan's error, or an error of the archive that no clause catches. -/
inductive RunError
  | scan (e : FsckError)
  | archive (e : ArchiveError)

/-- What a part of the run comes to; `none` when it is not over. -/
abbrev Outcome := Option (Except RunError (List Finding))

/-- A check's violation, added to the list unless it is `None`. -/
def ofCheck : Run (Option Violation) → Outcome
  | none => none
  | some (.error e) => some (.error (.scan e))
  | some (.ok violation) => some (.ok (violation.toList.map Violation.finding))

/-- One part of the run, and the rest. -/
def andThen (first rest : Outcome) : Outcome :=
  match first with
  | none => none
  | some (.error e) => some (.error e)
  | some (.ok found) => rest.map fun r => r.map (found ++ ·)

/-! ## The checks -/

/-- `SELECT COALESCE(MAX(change_seq), 0) FROM wheels`. -/
def Tables.maxChangeSeq (t : Tables) : ℤ := t.seqs.max?.getD 0

/-- `_check_writer_change_seq`. -/
def checkWriterChangeSeq (t : Tables) (reader : Reader) (writerChangeSeq : ℤ) : Outcome :=
  if reader.overBudget 0 then some (.error (.scan .readTxnBudgetExceeded))
  else if t.maxChangeSeq = writerChangeSeq then some (.ok [])
  else
    some (.ok
      [{ invariant := "18_writer_change_seq_mismatch"
         description := "MAX(wheels.change_seq) does not match the writer's change_seq counter"
         count := 1
         exampleIds :=
          [.text ("db_max=" ++ toString t.maxChangeSeq ++ " writer=" ++ toString writerChangeSeq)]
         informational := false }])

/-- What fsck reads through an `ArchiveStore`. -/
structure ArchiveView where
  disk : Disk
  sealedSegmentIds : List ℕ
  blobRowsForSegment : ℕ → Table String BlobPosition

/-- `_check_sealed_segments`. -/
def checkArchive (c : Codec) (py : Python) (archive : ArchiveView) (exampleLimit : ℕ) : Outcome :=
  match checkSealedSegments c py archive.disk archive.sealedSegmentIds archive.blobRowsForSegment
    exampleLimit with
  | .error e => some (.error (.archive e))
  | .ok none => some (.ok [])
  | .ok (some (count, examples)) =>
      some (.ok
        [{ invariant := "15_sealed_segment_integrity"
           description := "a sealed segment is missing on disk or its footer/blobs disagree"
           count := count
           exampleIds := examples.map .text
           informational := false }])

/-- A check that is made only when there is something to compare with. -/
def whenGiven {α : Type} (given : Option α) (check : α → Outcome) : Outcome :=
  match given with
  | none => some (.ok [])
  | some a => check a

/-- The row checks, one after the other; each has reads of its own. -/
def runRowChecks (t : Tables) (readers : String → Reader) (chunkSize exampleLimit turns : ℕ) :
    List RowCheck → Outcome
  | [] => some (.ok [])
  | check :: checks =>
      andThen
        (ofCheck (runRowCheck check t (readers check.invariant) chunkSize exampleLimit turns))
        (runRowChecks t readers chunkSize exampleLimit turns checks)

/-- `run`. -/
def run (c : Codec) (py : Python) (t : Tables) (readers : String → Reader) (maxAttempts : ℤ)
    (writerChangeSeq : Option ℤ) (archive : Option ArchiveView)
    (chunkSize exampleLimit turns : ℕ) : Outcome :=
  andThen (runRowChecks t readers chunkSize exampleLimit turns (rowChecks maxAttempts))
    (andThen
      (ofCheck (checkDuplicateChangeSeq t (readers "17_duplicate_change_seq") chunkSize
        exampleLimit turns))
      (andThen
        (whenGiven writerChangeSeq
          (checkWriterChangeSeq t (readers "18_writer_change_seq_mismatch")))
        (whenGiven archive fun archive => checkArchive c py archive exampleLimit)))

/-! ## Parts of the run -/

/-- The part ends, in a list without violations exactly when `p` holds, or in an error of
the kind `E`. -/
def Decides (E : RunError → Prop) (p : Prop) (outcome : Outcome) : Prop :=
  (∃ found, outcome = some (.ok found) ∧ (reportOk found = true ↔ p)) ∨
    ∃ e, outcome = some (.error e) ∧ E e

theorem reportOk_append (found found' : List Finding) :
    reportOk (found ++ found') = (reportOk found && reportOk found') := by
  simp [reportOk, List.any_append]

theorem decides_nil {E : RunError → Prop} {p : Prop} (h : p) : Decides E p (some (.ok [])) :=
  .inl ⟨[], rfl, iff_of_true rfl h⟩

theorem Decides.andThen {E : RunError → Prop} {p q : Prop} {first rest : Outcome}
    (hfirst : Decides E p first) (hrest : Decides E q rest) :
    Decides E (p ∧ q) (andThen first rest) := by
  rcases hfirst with ⟨found, rfl, hp⟩ | ⟨e, rfl, he⟩
  · rcases hrest with ⟨found', rfl, hq⟩ | ⟨e, rfl, he⟩
    · refine .inl ⟨found ++ found', rfl, ?_⟩
      rw [reportOk_append, Bool.and_eq_true, hp, hq]
    · exact .inr ⟨e, rfl, he⟩
  · exact .inr ⟨e, rfl, he⟩

theorem Decides.congr {E : RunError → Prop} {p q : Prop} {outcome : Outcome}
    (h : Decides E p outcome) (hpq : p ↔ q) : Decides E q outcome := by
  rcases h with ⟨found, rfl, hp⟩ | herror
  · exact .inl ⟨found, rfl, hp.trans hpq⟩
  · exact .inr herror

theorem decides_whenGiven {α : Type} {E : RunError → Prop} {p : α → Prop} {check : α → Outcome}
    {given : Option α} (h : ∀ a ∈ given, Decides E (p a) (check a)) :
    Decides E (∀ a ∈ given, p a) (whenGiven given check) := by
  cases given with
  | none => exact decides_nil fun a ha => nomatch ha
  | some a => exact (h a rfl).congr (by simp)

/-- The errors of `run`: a read that goes over its budget, and what escapes from the
archive. -/
def Raises (readers : String → Reader) (archive : Option ArchiveView) : RunError → Prop
  | .scan e => e = .readTxnBudgetExceeded ∧ ∃ invariant n, (readers invariant).overBudget n = true
  | .archive e => e.isCaught = false ∧ archive.isSome = true

variable {readers : String → Reader} {archive : Option ArchiveView}

/-- A check that ends in a violation exactly when `p` does not hold. -/
theorem decides_ofCheck {P : Option Violation → Prop} {p : Prop} {invariant : String}
    {result : Run (Option Violation)} (h : Ends (readers invariant) P result)
    (hsome : ∀ v, P (some v) → v.informational = false → ¬p)
    (hinformational : ∀ v, result = some (.ok (some v)) → P (some v) →
      v.informational = true → p) (hnone : P none → p) :
    Decides (Raises readers archive) p (ofCheck result) := by
  rcases h with ⟨violation, rfl, hviolation⟩ | ⟨rfl, n, hover⟩
  · refine .inl ⟨violation.toList.map Violation.finding, rfl, ?_⟩
    cases violation with
    | none => exact iff_of_true rfl (hnone hviolation)
    | some v =>
        cases hinfo : v.informational with
        | true =>
            refine iff_of_true ?_ (hinformational v rfl hviolation hinfo)
            simp [reportOk, Violation.finding, hinfo]
        | false =>
            refine iff_of_false ?_ (hsome v hviolation hinfo)
            simp [reportOk, Violation.finding, hinfo]
  · exact .inr ⟨_, rfl, rfl, invariant, n, hover⟩

/-! ## Each part -/

variable {t : Tables} {chunkSize exampleLimit : ℕ}

/-- A row check looks for the rows of its query, and is told of them only where they are
not merely informational. -/
theorem decides_runRowCheck (check : RowCheck) (hchunk : 0 < chunkSize) {turns : ℕ}
    (hturns : (check.baseQuery t).rows.length < turns) :
    Decides (Raises readers archive)
      (check.informational = false → (check.baseQuery t).rows = [])
      (ofCheck (runRowCheck check t (readers check.invariant) chunkSize exampleLimit turns)) := by
  refine decides_ofCheck (ends_runRowCheck check t hchunk exampleLimit hturns) ?_ ?_ ?_
  · intro v hv hinfo hsilent
    rw [RowCheck.wholeTable, RowCheck.violation] at hv
    by_cases hzero : (check.baseQuery t).rows.length = 0
    · rw [if_pos hzero] at hv
      cases hv
    · rw [if_neg hzero] at hv
      cases hv
      exact hzero (List.length_eq_zero_iff.mpr (hsilent hinfo))
  · intro v _ hv hinfo hfalse
    rw [RowCheck.wholeTable, RowCheck.violation] at hv
    by_cases hzero : (check.baseQuery t).rows.length = 0
    · exact List.length_eq_zero_iff.mp hzero
    · rw [if_neg hzero] at hv
      cases hv
      exact absurd hinfo (by simp [hfalse])
  · intro hv _
    by_contra hrows
    rw [RowCheck.wholeTable, RowCheck.violation,
      if_neg fun hzero => hrows (List.length_eq_zero_iff.mp hzero)] at hv
    cases hv

theorem decides_runRowChecks (hchunk : 0 < chunkSize) {turns : ℕ} {checks : List RowCheck}
    (hturns : ∀ check ∈ checks, (check.baseQuery t).rows.length < turns) :
    Decides (Raises readers archive)
      (∀ check ∈ checks, check.informational = false → (check.baseQuery t).rows = [])
      (runRowChecks t readers chunkSize exampleLimit turns checks) := by
  induction checks with
  | nil => exact decides_nil fun check hcheck => nomatch hcheck
  | cons check checks ih =>
      have hfirst : Decides (Raises readers archive)
          (check.informational = false → (check.baseQuery t).rows = [])
          (ofCheck (runRowCheck check t (readers check.invariant) chunkSize exampleLimit turns)) :=
        decides_runRowCheck check hchunk (hturns check List.mem_cons_self)
      have hrest := ih fun check hcheck => hturns check (List.mem_cons_of_mem _ hcheck)
      exact (hfirst.andThen hrest).congr
        (List.forall_mem_cons (p := fun check : RowCheck =>
          check.informational = false → (check.baseQuery t).rows = [])).symm

theorem informational_of_checkDuplicateChangeSeq {reader : Reader} {turns : ℕ} {v : Violation}
    (h : checkDuplicateChangeSeq t reader chunkSize exampleLimit turns = some (.ok (some v))) :
    v.informational = false := by
  obtain ⟨scan, -, h⟩ := Option.map_eq_some_iff.mp h
  cases scan with
  | error e => cases h
  | ok acc =>
      have h := Except.ok.inj h
      dsimp only at h
      split at h
      · cases h
      · obtain rfl := Option.some.inj h
        rfl

theorem decides_checkDuplicateChangeSeq {invariant : String} (hchunk : 0 < chunkSize) {turns : ℕ}
    (hturns : t.distinctSeqs.length < turns) :
    Decides (Raises readers archive) (t.duplicates = [])
      (ofCheck (checkDuplicateChangeSeq t (readers invariant) chunkSize exampleLimit turns)) := by
  refine decides_ofCheck (ends_checkDuplicateChangeSeq hchunk hturns) ?_ ?_ id
  · exact fun v hv _ => hv.1
  · intro v hresult _ hinfo
    exact absurd hinfo (by simp [informational_of_checkDuplicateChangeSeq hresult])

theorem decides_checkWriterChangeSeq (invariant : String) (n : ℤ) :
    Decides (Raises readers archive) (t.maxChangeSeq = n)
      (checkWriterChangeSeq t (readers invariant) n) := by
  rw [checkWriterChangeSeq]
  by_cases hover : (readers invariant).overBudget 0 = true
  · rw [if_pos hover]
    exact .inr ⟨_, rfl, rfl, invariant, 0, hover⟩
  rw [if_neg hover]
  by_cases heq : t.maxChangeSeq = n
  · rw [if_pos heq]
    exact decides_nil heq
  · rw [if_neg heq]
    exact .inl ⟨_, rfl, iff_of_false (by simp [reportOk]) heq⟩

/-- A sealed segment whose footer is read and gives the positions of its `blobs` rows. -/
def ArchiveView.Matches (c : Codec) (py : Python) (archive : ArchiveView) : Prop :=
  ∀ id ∈ archive.sealedSegmentIds, ∃ footer entries,
    loadFooterFields c archive.disk id = .ok footer ∧ footerRecords py footer = .ok entries ∧
      PositionsMatch py entries (archive.blobRowsForSegment id)

theorem checkOneSealedSegment_eq_nil_iff {c : Codec} {py : Python} {disk : Disk} {id : ℕ}
    {rows : Table String BlobPosition} :
    checkOneSealedSegment c py disk id rows = .ok [] ↔ ∃ footer entries,
      loadFooterFields c disk id = .ok footer ∧ footerRecords py footer = .ok entries ∧
        PositionsMatch py entries rows := by
  rw [checkOneSealedSegment, reportCaught_eq_nil_iff]
  simp only [positionProblems_eq_nil_iff]
  constructor
  · rintro ⟨entries, hread, hmatch⟩
    obtain ⟨footer, hfooter, hentries⟩ := bind_eq_ok_iff.mp hread
    exact ⟨footer, entries, hfooter, hentries, hmatch⟩
  · rintro ⟨footer, entries, hfooter, hentries, hmatch⟩
    exact ⟨entries, bind_eq_ok_iff.mpr ⟨footer, hfooter, hentries⟩, hmatch⟩

theorem isCaught_of_reportCaught_eq_error {α : Type} {py : Python} {name : String}
    {body : Except ArchiveError α} {report : α → List String} {e : ArchiveError}
    (h : reportCaught py name body report = .error e) : e.isCaught = false := by
  cases body with
  | ok a => cases h
  | error e' =>
      by_cases hcaught : e'.isCaught = true
      · simp [reportCaught, hcaught] at h
      · simp only [reportCaught, hcaught] at h
        rw [← Except.error.inj h]
        exact Bool.eq_false_iff.mpr hcaught

theorem decides_checkArchive (c : Codec) (py : Python) {given : ArchiveView}
    (hgiven : archive = some given) :
    Decides (Raises readers archive) (given.Matches c py)
      (checkArchive c py given exampleLimit) := by
  have hmatches : given.Matches c py ↔ ∀ id ∈ given.sealedSegmentIds,
      checkOneSealedSegment c py given.disk id (given.blobRowsForSegment id) = .ok [] :=
    forall₂_congr fun id _ => checkOneSealedSegment_eq_nil_iff.symm
  cases hproblems : given.sealedSegmentIds.mapM fun id =>
      checkOneSealedSegment c py given.disk id (given.blobRowsForSegment id) with
  | error e =>
      obtain ⟨_, id, -, herror, -⟩ := mapM_eq_error_iff.mp hproblems
      have hcheck : checkSealedSegments c py given.disk given.sealedSegmentIds
          given.blobRowsForSegment exampleLimit = .error e := by
        rw [checkSealedSegments, hproblems]
        rfl
      rw [checkArchive, hcheck]
      exact .inr ⟨.archive e, rfl, isCaught_of_reportCaught_eq_error herror, by simp [hgiven]⟩
  | ok problems =>
      have hcheck : checkSealedSegments c py given.disk given.sealedSegmentIds
          given.blobRowsForSegment exampleLimit = .ok (if problems.flatten.length = 0 then none
            else some (problems.flatten.length, problems.flatten.take exampleLimit)) := by
        rw [checkSealedSegments, hproblems]
        rfl
      rw [hmatches, ← flatten_eq_nil_iff_of_mapM_eq_ok hproblems, checkArchive, hcheck,
        ← List.length_eq_zero_iff]
      by_cases hzero : problems.flatten.length = 0
      · rw [if_pos hzero]
        exact decides_nil hzero
      · rw [if_neg hzero]
        exact .inl ⟨_, rfl, iff_of_false (by simp [reportOk]) hzero⟩

/-! ## The whole run -/

/-- fsck comes to an end, and its report is `ok` exactly when the tables are consistent, the
writer's counter is the highest of their sequence numbers and the footers of the sealed
segments give the positions of their blobs; a read over its budget and what no clause catches
of an archive are all that it raises. -/
theorem run_decides (c : Codec) (py : Python) (t : Tables) (readers : String → Reader)
    (maxAttempts : ℤ) (writerChangeSeq : Option ℤ) (archive : Option ArchiveView)
    (hchunk : 1 ≤ chunkSize) (exampleLimit : ℕ) : ∃ enough, ∀ turns ≥ enough,
      Decides (Raises readers archive)
        (t.Consistent maxAttempts ∧ (∀ n ∈ writerChangeSeq, t.maxChangeSeq = n) ∧
          ∀ given ∈ archive, given.Matches c py)
        (run c py t readers maxAttempts writerChangeSeq archive chunkSize exampleLimit turns) := by
  let longest := ((rowChecks maxAttempts).map fun check => (check.baseQuery t).rows.length).sum
  refine ⟨longest + t.distinctSeqs.length + 1, fun turns hturns => ?_⟩
  have hrows : ∀ check ∈ rowChecks maxAttempts, (check.baseQuery t).rows.length < turns := by
    intro check hcheck
    have hle : (check.baseQuery t).rows.length ≤ longest :=
      List.single_le_sum (fun _ _ => Nat.zero_le _) _ (List.mem_map_of_mem hcheck)
    omega
  have hsilent : Decides (Raises readers archive)
      (∀ check ∈ rowChecks maxAttempts, check.informational = false →
        (check.baseQuery t).rows = [])
      (runRowChecks t readers chunkSize exampleLimit turns (rowChecks maxAttempts)) :=
    decides_runRowChecks hchunk hrows
  have hduplicates : Decides (Raises readers archive) (t.duplicates = [])
      (ofCheck (checkDuplicateChangeSeq t (readers "17_duplicate_change_seq") chunkSize
        exampleLimit turns)) :=
    decides_checkDuplicateChangeSeq hchunk (by omega)
  have hwriter : Decides (Raises readers archive) (∀ n ∈ writerChangeSeq, t.maxChangeSeq = n)
      (whenGiven writerChangeSeq fun n =>
        checkWriterChangeSeq t (readers "18_writer_change_seq_mismatch") n) :=
    decides_whenGiven fun n _ => decides_checkWriterChangeSeq "18_writer_change_seq_mismatch" n
  have harchive : Decides (Raises readers archive) (∀ given ∈ archive, given.Matches c py)
      (whenGiven archive fun given => checkArchive c py given exampleLimit) :=
    decides_whenGiven fun given hgiven => decides_checkArchive c py hgiven
  refine (hsilent.andThen (hduplicates.andThen (hwriter.andThen harchive))).congr ?_
  rw [Tables.consistent_iff, Tables.Silent, and_assoc]

/-- The mistimed commit, in chunks of one row, against a counter that is behind. -/
theorem run_decides_mistimedCommit : ∃ enough, ∀ turns ≥ enough,
    Decides (Raises (fun _ => storedOrder) none)
      (mistimedCommit.Consistent 8 ∧ (∀ n ∈ some (5 : ℤ), mistimedCommit.maxChangeSeq = n) ∧
        ∀ given ∈ (none : Option ArchiveView), given.Matches exampleCodec examplePython)
      (run exampleCodec examplePython mistimedCommit (fun _ => storedOrder) 8 (some 5) none 1 2
        turns) :=
  run_decides exampleCodec examplePython mistimedCommit (fun _ => storedOrder) 8 (some 5) none
    le_rfl 2

end RerollSync.Fsck
