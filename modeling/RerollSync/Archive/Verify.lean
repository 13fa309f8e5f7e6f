import RerollSync.Archive.Documents

/-!
# Verifying sealed segments

`verify_archive` of `verify.py` and the check of sealed segments of `fsck.py`.  Both
compare the positions that a footer gives with the `blobs` rows of its segment;
`verify_archive` first reads every record that the footer's blocks hold.
-/

namespace RerollSync.Archive

open RerollSync.Support
open RerollSync.Store (Bytes)

/-- `f"segment {segment_id:06d}"`. -/
def segmentName (segmentId : ℕ) : String :=
  let digits := toString segmentId
  "segment " ++ "".pushn '0' (6 - digits.length) ++ digits

/-- `str(exc)`. -/
def ArchiveError.text (py : Python) : ArchiveError → String
  | .corruptSegment segmentId reason => segmentName segmentId ++ ": " ++ reason
  | e => py.str e

/-- `CorruptSegmentError` and the subclasses of `OSError`. -/
def ArchiveError.isCaught : ArchiveError → Bool
  | .corruptSegment _ _ | .fileNotFound | .fileExists | .invalidArgument => true
  | _ => false

/-! ## Positions -/

/-- The value of a key in the dict that entries make: the last one. -/
def lastOf {α : Type} (entries : List (String × α)) (key : String) : Option α :=
  (entries.reverse.find? fun e => e.1 = key).map Prod.snd

/-- `(block_no, offset, length) == position`. -/
def FooterPosition.agrees (py : Python) (p : FooterPosition) (position : BlobPosition) : Bool :=
  p.blockNo.number py = some position.blockNo ∧ p.offset.number py = some position.offset ∧
    p.length.number py = some position.length

def FooterPosition.text (py : Python) (p : FooterPosition) : String :=
  "(" ++ py.repr p.blockNo ++ ", " ++ py.repr p.offset ++ ", " ++ py.repr p.length ++ ")"

def BlobPosition.text (p : BlobPosition) : String :=
  "(" ++ toString p.blockNo ++ ", " ++ toString p.offset ++ ", " ++ toString p.length ++ ")"

/-- What is wrong with a key of the footer. -/
def footerProblem (py : Python) (name : String) (entries : List (String × FooterPosition))
    (rows : Table String BlobPosition) (sha256 : String) : Option String :=
  match rows.get? sha256, lastOf entries sha256 with
  | none, _ => some (name ++ ": footer record " ++ sha256 ++ " has no blobs row")
  | some row, some p =>
      if p.agrees py row then none
      else some (name ++ ": blobs row for " ++ sha256 ++ " is at " ++ row.text ++
        ", footer says " ++ p.text py)
  | some _, none => none

/-- The comparison that ends `_verify_segment` and `_check_one_sealed_segment`. -/
def positionProblems (py : Python) (name : String) (entries : List (String × FooterPosition))
    (rows : Table String BlobPosition) : List String :=
  (entries.map Prod.fst).eraseDups.filterMap (footerProblem py name entries rows) ++
    (rows.keys.filter fun sha256 => sha256 ∉ entries.map Prod.fst).map fun sha256 =>
      name ++ ": blobs row " ++ sha256 ++ " has no matching footer record"

/-! ## Segments -/

/-- The records whose bytes do not have the hash that is claimed. -/
def digestProblems (c : Codec) (name : String) (pairs : List (String × Bytes)) : List String :=
  pairs.filterMap fun pair =>
    if c.hexdigest pair.2 = pair.1 then none
    else some (name ++ ": footer record " ++ pair.1 ++
      " does not match its bytes (actual sha256 " ++ c.hexdigest pair.2 ++ ")")

/-- `try: ... except (CorruptSegmentError, OSError) as exc: return [f"{prefix}: {exc}"]`. -/
def reportCaught {α : Type} (py : Python) (name : String) (body : Except ArchiveError α)
    (report : α → List String) : Except ArchiveError (List String) :=
  match body with
  | .ok a => .ok (report a)
  | .error e => if e.isCaught then .ok [name ++ ": " ++ e.text py] else .error e

/-- What `_verify_segment` reads of the files: the positions that the footer gives, and the
records. -/
def readSegment (c : Codec) (py : Python) (disk : Disk) (segmentId : ℕ) :
    Except ArchiveError (List (String × FooterPosition) × List (String × Bytes)) := do
  let footer ← loadFooterFields c disk segmentId
  let entries ← footerRecords py footer
  let file ← openSegment disk segmentId
  let pairs ← iterRecordsFields c py file footer
  return (entries, pairs)

/-- `_verify_segment`. -/
def verifySegment (c : Codec) (py : Python) (disk : Disk) (segmentId : ℕ)
    (rows : Table String BlobPosition) : Except ArchiveError (List String) :=
  let name := segmentName segmentId
  reportCaught py name (readSegment c py disk segmentId) fun read =>
    digestProblems c name read.2 ++ positionProblems py name read.1 rows

/-- `verify_archive` over the segments of a list. -/
def verifyArchive (c : Codec) (py : Python) (disk : Disk) (segmentIds : List ℕ)
    (rows : ℕ → Table String BlobPosition) : Except ArchiveError (List String) := do
  let problems ← segmentIds.mapM fun id => verifySegment c py disk id (rows id)
  return problems.flatten

/-- `_check_one_sealed_segment`. -/
def checkOneSealedSegment (c : Codec) (py : Python) (disk : Disk) (segmentId : ℕ)
    (rows : Table String BlobPosition) : Except ArchiveError (List String) :=
  let name := segmentName segmentId
  reportCaught py name (do footerRecords py (← loadFooterFields c disk segmentId)) fun entries =>
    positionProblems py name entries rows

/-- `_check_sealed_segments`: the count of a violation and its examples, if there is one. -/
def checkSealedSegments (c : Codec) (py : Python) (disk : Disk) (segmentIds : List ℕ)
    (rows : ℕ → Table String BlobPosition) (exampleLimit : ℕ) :
    Except ArchiveError (Option (ℕ × List String)) := do
  let problems ← segmentIds.mapM fun id => checkOneSealedSegment c py disk id (rows id)
  let problems := problems.flatten
  return if problems.length = 0 then none
    else some (problems.length, problems.take exampleLimit)

/-! ## When the positions match -/

/-- The footer and the rows have the same keys, at the same positions. -/
def PositionsMatch (py : Python) (entries : List (String × FooterPosition))
    (rows : Table String BlobPosition) : Prop :=
  ∀ sha256, Option.Rel (fun p row => FooterPosition.agrees py p row = true)
    (lastOf entries sha256) (rows.get? sha256)

theorem lastOf_eq_none_iff {α : Type} {entries : List (String × α)} {key : String} :
    lastOf entries key = none ↔ key ∉ entries.map Prod.fst := by
  rw [lastOf, Option.map_eq_none_iff, List.find?_eq_none]
  simp only [List.mem_reverse, decide_eq_true_eq, List.mem_map, not_exists, not_and]

theorem mem_of_lastOf {α : Type} {entries : List (String × α)} {key : String} {a : α}
    (h : lastOf entries key = some a) : (key, a) ∈ entries := by
  obtain ⟨e, he, rfl⟩ := Option.map_eq_some_iff.mp h
  have hkey : e.1 = key := by simpa using List.find?_some he
  subst hkey
  exact List.mem_reverse.mp (List.mem_of_find?_eq_some he)

theorem lastOf_of_mem {α : Type} {entries : List (String × α)} {key : String} {a : α}
    (hnodup : (entries.map Prod.fst).Nodup) (h : (key, a) ∈ entries) :
    lastOf entries key = some a := by
  cases hlast : lastOf entries key with
  | none => exact absurd (List.mem_map_of_mem h) (lastOf_eq_none_iff.mp hlast)
  | some a' =>
      have heq := List.inj_on_of_nodup_map hnodup (mem_of_lastOf hlast) h rfl
      rw [(Prod.mk.inj heq).2]

theorem positionProblems_eq_nil_iff {py : Python} {name : String}
    {entries : List (String × FooterPosition)} {rows : Table String BlobPosition} :
    positionProblems py name entries rows = [] ↔ PositionsMatch py entries rows := by
  rw [positionProblems, List.append_eq_nil_iff, List.filterMap_eq_nil_iff, List.map_eq_nil_iff,
    List.filter_eq_nil_iff]
  simp only [List.mem_eraseDups, decide_eq_true_eq, not_not]
  constructor
  · rintro ⟨hfooter, hrows⟩ sha256
    cases hlast : lastOf entries sha256 with
    | none =>
        have hnot := lastOf_eq_none_iff.mp hlast
        rw [Table.get?_eq_none_iff.mpr fun hkey => hnot (hrows sha256 hkey)]
        exact Option.Rel.none
    | some p =>
        have hproblem := hfooter sha256 (List.mem_map_of_mem (mem_of_lastOf hlast))
        rw [footerProblem, hlast] at hproblem
        cases hrow : rows.get? sha256 with
        | none => simp [hrow] at hproblem
        | some row =>
            refine Option.Rel.some ?_
            by_contra hdiffer
            simp [hrow, hdiffer] at hproblem
  · intro hmatch
    refine ⟨fun sha256 hkey => ?_, fun sha256 hkey => ?_⟩
    · have hrel := hmatch sha256
      rw [footerProblem]
      cases hlast : lastOf entries sha256 with
      | none => exact absurd hkey (lastOf_eq_none_iff.mp hlast)
      | some p =>
          rw [hlast] at hrel
          cases hrow : rows.get? sha256 with
          | none =>
              rw [hrow] at hrel
              cases hrel
          | some row =>
              rw [hrow] at hrel
              cases hrel with
              | some hagrees => simp [hagrees]
    · have hrel := hmatch sha256
      by_contra hnot
      rw [lastOf_eq_none_iff.mpr hnot] at hrel
      cases hrow : rows.get? sha256 with
      | none => exact Table.get?_eq_none_iff.mp hrow hkey
      | some row =>
          rw [hrow] at hrel
          cases hrel

end RerollSync.Archive
