import RerollSync.Store.Schema
import Mathlib.Data.List.Sort

/-!
# Conversion

`convert` of `convert.py`.  The parser and the record builder belong to the
`reroll` package and are parameters, with the exceptions they raise sorted by
the `except` clause that catches them first.
-/

namespace RerollSync.Convert

open RerollSync.Store RerollSync.Support

/-- `NameResolution`: the resolved name and its JSON form. -/
structure NameResolution where
  pypiName : String
  json : String
deriving DecidableEq

/-- `WheelRecord`: its name, its resolutions and its JSON form. -/
structure WheelRecord where
  name : String
  resolutions : List NameResolution
  json : String
deriving DecidableEq

/-- `ConvertOk`. -/
structure ConvertOk where
  records : List WheelRecord
  resolutions : List NameResolution
  condaName : String
  requiresPrerelease : Bool
deriving DecidableEq

/-- `ConvertSkip`. -/
structure ConvertSkip where
  reason : String
  subcategory : String
  details : String
  permanent : Bool
  rerollVersion : Option String
deriving DecidableEq

/-- `ConvertRetry`. -/
structure ConvertRetry where
  reason : String
  details : String
deriving DecidableEq

inductive ConvertOutcome
  | ok (outcome : ConvertOk)
  | skip (outcome : ConvertSkip)
  | retry (outcome : ConvertRetry)
deriving DecidableEq

/-- The exceptions of the `reroll` package: a `RerollRuntimeError`, one of
`PRERELEASE_RETRY_ERRORS`, another `RerollError`, or one that `convert` does
not catch. -/
inductive RerollRaised
  | runtime (typeName message : String)
  | prerelease (typeName message : String)
  | reroll (typeName message : String)
  | uncaught (typeName message : String)
deriving DecidableEq

/-- The functions `convert` calls: the text of a `UnicodeDecodeError`, Python's
`repr` of a list of strings, `parse`, and `get_wheel_records` as a function of
the metadata, the filename and `allow_pre`. -/
structure Reroll (M : Type) where
  decodeError : Bytes → String
  reprList : List String → String
  parse : String → Except RerollRaised M
  getWheelRecords : M → String → Bool → Except RerollRaised (List WheelRecord)

/-- `metadata_bytes.decode("utf-8-sig")`. -/
def decodeUtf8Sig (data : Bytes) : Option String :=
  let body := if [0xef, 0xbb, 0xbf] <+: data then data.drop 3 else data
  String.fromUTF8? ⟨body.toArray⟩

/-- `_deduped_resolutions`. -/
def dedupedResolutions (records : List WheelRecord) : List NameResolution :=
  let seen : Table String NameResolution :=
    (records.flatMap WheelRecord.resolutions).foldl (fun seen r => seen.insertNew r.pypiName r) ∅
  (seen.rows.insertionSort fun a b => a.1 ≤ b.1).map Prod.snd

/-- `_outcome_from_records`. -/
def outcomeFromRecords {M : Type} (lib : Reroll M) (records : List WheelRecord)
    (requiresPrerelease : Bool) : ConvertOutcome :=
  if records = [] then
    .retry ⟨"no_records_returned", "get_wheel_records returned no records"⟩
  else
    match (records.map WheelRecord.name).dedup with
    | [condaName] => .ok ⟨records, dedupedResolutions records, condaName, requiresPrerelease⟩
    | condaNames =>
        .retry ⟨"conda_name_disagreement", "records disagree on conda_name: " ++
          lib.reprList (condaNames.insertionSort fun a b => a ≤ b)⟩

/-- The second attempt, with `allow_pre=True`, after `firstError`. -/
def retryWithPrereleases {M : Type} (lib : Reroll M) (metadata : M) (filename : String)
    (rerollVersion firstType firstMessage : String) : Except RerollRaised ConvertOutcome :=
  let skip (retryType retryMessage : String) : ConvertOutcome :=
    .skip
      { reason := "reroll_conversion_failed"
        subcategory := firstType
        details := firstMessage ++ " (retry with allow_pre=True failed with " ++ retryType ++
          ": " ++ retryMessage ++ ")"
        permanent := false
        rerollVersion := some rerollVersion }
  match lib.getWheelRecords metadata filename true with
  | .ok records => .ok (outcomeFromRecords lib records true)
  | .error (.runtime _ message) => .ok (.retry ⟨"conversion_runtime_error", message⟩)
  | .error (.prerelease typeName message) => .ok (skip typeName message)
  | .error (.reroll typeName message) => .ok (skip typeName message)
  | .error (.uncaught typeName message) => .error (.uncaught typeName message)

/-- `convert`. -/
def convert {M : Type} (lib : Reroll M) (rerollVersion : String) (metadataBytes : Bytes)
    (filename : String) : Except RerollRaised ConvertOutcome :=
  let skip (reason typeName message : String) : ConvertOutcome :=
    .skip ⟨reason, typeName, message, false, some rerollVersion⟩
  match decodeUtf8Sig metadataBytes with
  | none =>
      .ok (.skip ⟨"invalid_metadata_encoding", "UnicodeDecodeError",
        lib.decodeError metadataBytes, true, none⟩)
  | some text =>
      match lib.parse text with
      | .error (.runtime _ message) => .ok (.retry ⟨"parse_runtime_error", message⟩)
      | .error (.prerelease typeName message) =>
          .ok (skip "invalid_metadata" typeName message)
      | .error (.reroll typeName message) => .ok (skip "invalid_metadata" typeName message)
      | .error (.uncaught typeName message) => .error (.uncaught typeName message)
      | .ok metadata =>
          match lib.getWheelRecords metadata filename false with
          | .ok records => .ok (outcomeFromRecords lib records false)
          | .error (.runtime _ message) => .ok (.retry ⟨"conversion_runtime_error", message⟩)
          | .error (.prerelease typeName message) =>
              retryWithPrereleases lib metadata filename rerollVersion typeName message
          | .error (.reroll typeName message) =>
              .ok (skip "reroll_conversion_failed" typeName message)
          | .error (.uncaught typeName message) => .error (.uncaught typeName message)

/-! ## Attribution of skips -/

/-- A skip is attributed to the version that made it unless no version can change
it. -/
def ConvertSkip.AttributedTo (rerollVersion : String) (s : ConvertSkip) : Prop :=
  s.rerollVersion = if s.permanent then none else some rerollVersion

section Attribution

variable {M : Type} {lib : Reroll M} {rerollVersion : String} {s : ConvertSkip}

theorem outcomeFromRecords_ne_skip (records : List WheelRecord) (requiresPrerelease : Bool) :
    outcomeFromRecords lib records requiresPrerelease ≠ .skip s := by
  unfold outcomeFromRecords
  split
  · exact ConvertOutcome.noConfusion
  · split <;> exact ConvertOutcome.noConfusion

theorem attributedTo_of_retryWithPrereleases {metadata : M}
    {filename firstType firstMessage : String}
    (h : retryWithPrereleases lib metadata filename rerollVersion firstType firstMessage =
      .ok (.skip s)) : s.AttributedTo rerollVersion := by
  unfold retryWithPrereleases at h
  split at h
  · exact (outcomeFromRecords_ne_skip _ _ (Except.ok.inj h)).elim
  · cases h
  · obtain rfl := ConvertOutcome.skip.inj (Except.ok.inj h)
    rfl
  · obtain rfl := ConvertOutcome.skip.inj (Except.ok.inj h)
    rfl
  · cases h

/-- Every skip of `convert` is attributed. -/
theorem attributedTo_of_convert {metadataBytes : Bytes} {filename : String}
    (h : convert lib rerollVersion metadataBytes filename = .ok (.skip s)) :
    s.AttributedTo rerollVersion := by
  unfold convert at h
  split at h
  · obtain rfl := ConvertOutcome.skip.inj (Except.ok.inj h)
    rfl
  · split at h
    · cases h
    · obtain rfl := ConvertOutcome.skip.inj (Except.ok.inj h)
      rfl
    · obtain rfl := ConvertOutcome.skip.inj (Except.ok.inj h)
      rfl
    · cases h
    · split at h
      · exact (outcomeFromRecords_ne_skip _ _ (Except.ok.inj h)).elim
      · cases h
      · exact attributedTo_of_retryWithPrereleases h
      · obtain rfl := ConvertOutcome.skip.inj (Except.ok.inj h)
        rfl
      · cases h

end Attribution

end RerollSync.Convert
