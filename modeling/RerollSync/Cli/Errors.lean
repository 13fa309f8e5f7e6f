import RerollSync.Dispatcher.Timestamps

/-!
# The errors listing

`errors --since S` parses `S`, renders it again and compares the text with the texts of
`created_at`, which are in UTC.  The rendering keeps the offset of `S`: the comparison is
one of instants when `S` is in UTC, and otherwise it is off by the offset.
-/

namespace RerollSync.Cli

open RerollSync.Store RerollSync.Support RerollSync.Dispatcher

/-! ## The command -/

/-- The arguments of `errors`. -/
structure ErrorsArgs where
  category : Option String
  since : Option String
  limit : ℤ

/-- How `errors` fails: `invalidSince` is the message of exit code 1. -/
inductive ErrorsFailure
  | invalidSince
  | overflowError
deriving DecidableEq, Repr

/-- An order of rows with `ORDER BY created_at DESC`: rows of one time stand in any order. -/
structure NewestFirst where
  sort : List (ℕ × ErrorRow) → List (ℕ × ErrorRow)
  perm : ∀ rows, (sort rows).Perm rows
  sorted : ∀ rows, (sort rows).Pairwise fun a b => b.2.createdAt ≤ a.2.createdAt

/-- The rows of a category. -/
def ofCategory (category : Option String) (db : Db) : List (ℕ × ErrorRow) :=
  db.errors.rows.filter fun r => category.all (· = r.2.errorCategory)

/-- `LIMIT ?`: a negative one is none. -/
def sqlLimit {α : Type} (limit : ℤ) (rows : List α) : List α :=
  if limit < 0 then rows else rows.take limit.toNat

section Command

variable (fromisoformat : String → Option (DateTime × Option UtcOffset)) (order : NewestFirst)

/-- The rows that `_cmd_errors` prints. -/
def cmdErrors (args : ErrorsArgs) (db : Db) : Except ErrorsFailure (List (ℕ × ErrorRow)) := do
  let rows ←
    match args.since with
    | none => .ok (ofCategory args.category db)
    | some text =>
        match fromisoformat text with
        | none => .error .invalidSince
        | some (since, offset) =>
            .ok ((ofCategory args.category db).filter fun r =>
              String.ofList (isoformat since offset) ≤ r.2.createdAt)
  if -2 ^ 63 ≤ args.limit ∧ args.limit < 2 ^ 63 then .ok (sqlLimit args.limit (order.sort rows))
  else .error .overflowError

end Command

/-! ## Instants -/

/-- The rows of a category whose `created_at` denotes an instant at or after `since`. -/
def createdSince (localTimestamp : DateTime → ℤ) (category : Option String) (since : ℤ) (db : Db) :
    List (ℕ × ErrorRow) :=
  (ofCategory category db).filter fun r =>
    (parseIso localTimestamp r.2.createdAt).any (since ≤ ·)

/-- Instants between the one that `since` denotes and the one it would denote in UTC. -/
def Misplaced (since : DateTime) (offset : UtcOffset) (ts : ℤ) : Prop :=
  0 < offset.micros ∧ timestamp since offset ≤ ts ∧ ts ≤ timestamp since .utc ∨
    offset.micros < 0 ∧ timestamp since .utc < ts ∧ ts < timestamp since offset

/-- A row is not before the text of `since` when it is after it taken as UTC, or at it and
it is UTC. -/
theorem since_le_createdAt_iff {since : DateTime} {offset : UtcOffset} {ts : ℤ} {text : String}
    (h : iso ts = some text) : String.ofList (isoformat since (some offset)) ≤ text ↔
      timestamp since .utc < ts ∨ timestamp since .utc = ts ∧ offset.micros = 0 := by
  obtain ⟨t, ht, htext⟩ := iso_eq_some h
  have hutc : timestamp since .utc = since.micros - epochMicros := by
    rw [timestamp, UtcOffset.utc, sub_zero]
  rw [← String.not_lt, String.lt_iff_toList_lt, htext, String.toList_ofList,
    isoformat_lt_iff, ← DateTime.micros_lt_iff, ← DateTime.micros_inj, hutc]
  have hformat : UtcOffset.utc.format < offset.format ↔ offset.micros ≠ 0 := by
    refine ⟨fun hlt hzero => ?_, UtcOffset.utc_format_lt⟩
    rw [show offset = .utc from UtcOffset.ext hzero] at hlt
    exact lt_irrefl _ hlt
  rw [hformat]
  omega

theorem timestamp_utc (since : DateTime) (offset : UtcOffset) :
    timestamp since .utc = timestamp since offset + offset.micros := by
  simp only [timestamp, UtcOffset.utc]
  omega

/-- What the text comparison finds differs from what the instants say at the misplaced
instants only. -/
theorem misplaced_iff {since : DateTime} {offset : UtcOffset} {ts : ℤ} :
    Misplaced since offset ts ↔
      ¬((timestamp since .utc < ts ∨ timestamp since .utc = ts ∧ offset.micros = 0) ↔
        timestamp since offset ≤ ts) := by
  rw [Misplaced, timestamp_utc since offset]
  omega

/-- The elements of an upward closed property are at the front of a descending list. -/
theorem take_length_filter {α : Type} {p : α → Bool} {l : List α}
    (h : l.Pairwise fun a b => p b = true → p a = true) :
    l.take (l.filter p).length = l.filter p := by
  induction l with
  | nil => rfl
  | cons a l ih =>
      obtain ⟨hhead, htail⟩ := List.pairwise_cons.mp h
      by_cases hp : p a = true
      · rw [List.filter_cons_of_pos hp, List.length_cons, List.take_succ_cons, ih htail]
      · have hnone : l.filter p = [] :=
          List.filter_eq_nil_iff.mpr fun b hb hpb => hp (hhead b hb hpb)
        rw [List.filter_cons_of_neg hp, hnone]
        rfl

/-- The first `n` of the rows with `p` are the rows with `q`: no row tells the two apart,
or every row with `q` has `p` and `n` cuts the others off. -/
theorem take_perm_filter_iff {α : Type} {rows sorted : List α} {p q : α → Bool} {n : ℕ}
    (hperm : sorted.Perm (rows.filter p))
    (hsorted : sorted.Pairwise fun a b => q b = true → q a = true)
    (hn : (rows.filter q).length ≤ n) : (sorted.take n).Perm (rows.filter q) ↔
      (∀ a ∈ rows, p a = q a) ∨
        (∀ a ∈ rows, q a = true → p a = true) ∧ n = (rows.filter q).length := by
  have hnested : (∀ a ∈ rows, q a = true → p a = true) →
      (rows.filter p).filter q = rows.filter q := by
    intro himp
    rw [List.filter_filter]
    refine List.filter_congr fun a ha => ?_
    cases hq : q a with
    | false => rfl
    | true => simp [himp a ha hq]
  constructor
  · intro htake
    have himp : ∀ a ∈ rows, q a = true → p a = true := by
      intro a ha hq
      have hmem := htake.mem_iff.mpr (List.mem_filter.mpr ⟨ha, hq⟩)
      exact (List.mem_filter.mp (hperm.mem_iff.mp (List.mem_of_mem_take hmem))).2
    by_cases hlimit : n = (rows.filter q).length
    · exact Or.inr ⟨himp, hlimit⟩
    · refine Or.inl fun a ha => Bool.eq_iff_iff.mpr ⟨fun hp => ?_, himp a ha⟩
      have hlength := htake.length_eq
      rw [List.length_take, hperm.length_eq] at hlength
      have hle : (rows.filter p).length ≤ ((rows.filter p).filter q).length := by
        rw [hnested himp]
        omega
      have hall := List.filter_sublist.eq_of_length_le hle
      have hmem : a ∈ (rows.filter p).filter q := by
        rw [hall]
        exact List.mem_filter.mpr ⟨ha, hp⟩
      exact (List.mem_filter.mp hmem).2
  · rintro (hagree | ⟨himp, hlimit⟩)
    · rw [← List.filter_congr hagree] at hn ⊢
      rw [List.take_of_length_le (hperm.length_eq.le.trans hn)]
      exact hperm
    · have hfilter : (sorted.filter q).Perm (rows.filter q) := by
        rw [← hnested himp]
        exact hperm.filter q
      rw [hlimit, ← hfilter.length_eq, take_length_filter hsorted]
      exact hfilter

section Listing

variable {fromisoformat : String → Option (DateTime × Option UtcOffset)} {order : NewestFirst}
  {args : ErrorsArgs} {db : Db} {text : String} {since : DateTime} {offset : UtcOffset}
  {localTimestamp : DateTime → ℤ}

/-- What the column `created_at` holds. -/
def Written (db : Db) : Prop := ∀ r ∈ db.errors.rows, ∃ ts, iso ts = some r.2.createdAt

theorem cmdErrors_eq_ok_iff (hsince : args.since = some text)
    (hparse : fromisoformat text = some (since, some offset)) (hlimit : 0 ≤ args.limit)
    {answer : List (ℕ × ErrorRow)} : cmdErrors fromisoformat order args db = .ok answer ↔
      args.limit < 2 ^ 63 ∧
        (order.sort ((ofCategory args.category db).filter fun r =>
          String.ofList (isoformat since (some offset)) ≤ r.2.createdAt)).take
            args.limit.toNat = answer := by
  have hrange : -2 ^ 63 ≤ args.limit ∧ args.limit < 2 ^ 63 ↔ args.limit < 2 ^ 63 :=
    and_iff_right (le_trans (by decide) hlimit)
  simp only [cmdErrors, hsince, hparse, sqlLimit, if_neg (not_lt.mpr hlimit), hrange]
  change (if args.limit < 2 ^ 63 then _ else _) = _ ↔ _
  split
  · rename_i hlt
    rw [Except.ok.injEq, and_iff_right hlt]
  · rename_i hge
    exact iff_of_false (by simp) fun h => hge h.1

/-- `errors --since` lists the rows created at or after the instant of `since`, for every
limit that has room for them, when no row of the category is misplaced, or `since` is
behind UTC and the limit cuts the misplaced rows off. -/
theorem errors_since_iff (hwritten : Written db) (hsince : args.since = some text)
    (hparse : fromisoformat text = some (since, some offset))
    (hlimit : (createdSince localTimestamp args.category (timestamp since offset) db).length ≤
      args.limit) :
    (∃ answer, cmdErrors fromisoformat order args db = .ok answer ∧ answer.Perm
      (createdSince localTimestamp args.category (timestamp since offset) db)) ↔
      args.limit < 2 ^ 63 ∧
        ((∀ r ∈ ofCategory args.category db, ∀ ts, iso ts = some r.2.createdAt →
          ¬Misplaced since offset ts) ∨
          offset.micros < 0 ∧ args.limit =
            (createdSince localTimestamp args.category (timestamp since offset) db).length) := by
  have hinstant : ∀ r ∈ ofCategory args.category db, ∃ ts, iso ts = some r.2.createdAt :=
    fun r hr => hwritten r (List.mem_of_mem_filter hr)
  have hcreated : ∀ (r : ℕ × ErrorRow) (ts : ℤ), iso ts = some r.2.createdAt →
      ((parseIso localTimestamp r.2.createdAt).any (timestamp since offset ≤ ·) = true ↔
        timestamp since offset ≤ ts) := by
    intro r ts hts
    simp [parseIso_iso hts]
  have hagree : ∀ (r : ℕ × ErrorRow) (ts : ℤ), iso ts = some r.2.createdAt →
      (decide (String.ofList (isoformat since (some offset)) ≤ r.2.createdAt) =
        (parseIso localTimestamp r.2.createdAt).any (timestamp since offset ≤ ·) ↔
          ¬Misplaced since offset ts) := by
    intro r ts hts
    rw [Bool.eq_iff_iff, hcreated r ts hts, decide_eq_true_eq, since_le_createdAt_iff hts,
      misplaced_iff, not_not]
  have hsorted : (order.sort ((ofCategory args.category db).filter fun r =>
      String.ofList (isoformat since (some offset)) ≤ r.2.createdAt)).Pairwise fun a b =>
        (parseIso localTimestamp b.2.createdAt).any (timestamp since offset ≤ ·) = true →
          (parseIso localTimestamp a.2.createdAt).any (timestamp since offset ≤ ·) = true := by
    refine (order.sorted _).imp_of_mem fun {a b} ha hb hle hb' => ?_
    obtain ⟨tsA, htsA⟩ := hinstant a (List.mem_of_mem_filter ((order.perm _).mem_iff.mp ha))
    obtain ⟨tsB, htsB⟩ := hinstant b (List.mem_of_mem_filter ((order.perm _).mem_iff.mp hb))
    have hlt := iso_lt_iff htsA htsB
    rw [← String.not_lt, hlt, not_lt] at hle
    rw [hcreated a tsA htsA]
    exact ((hcreated b tsB htsB).mp hb').trans hle
  have hnonneg : 0 ≤ args.limit := (Int.natCast_nonneg _).trans hlimit
  have htake := take_perm_filter_iff (order.perm _) hsorted
    ((Int.le_toNat hnonneg).mpr hlimit)
  have hutc := timestamp_utc since offset
  simp only [cmdErrors_eq_ok_iff hsince hparse hnonneg, and_assoc, exists_and_left,
    exists_eq_left']
  refine and_congr_right fun _ => htake.trans ⟨?_, ?_⟩
  · rintro (hall | ⟨himp, heq⟩)
    · exact Or.inl fun r hr ts hts => (hagree r ts hts).mp (hall r hr)
    · by_cases hbehind : offset.micros < 0
      · exact Or.inr ⟨hbehind, by rw [createdSince, ← heq, Int.toNat_of_nonneg hnonneg]⟩
      · refine Or.inl fun r hr ts hts => misplaced_iff.not.mpr (not_not.mpr ⟨fun h => by omega, ?_⟩)
        intro hle
        have hselected := himp r hr ((hcreated r ts hts).mpr hle)
        rwa [decide_eq_true_eq, since_le_createdAt_iff hts] at hselected
  · rintro (hall | ⟨hbehind, heq⟩)
    · refine Or.inl fun r hr => ?_
      obtain ⟨ts, hts⟩ := hinstant r hr
      exact (hagree r ts hts).mpr (hall r hr ts hts)
    · refine Or.inr ⟨fun r hr h => ?_, by rw [heq, Int.toNat_natCast, createdSince]⟩
      obtain ⟨ts, hts⟩ := hinstant r hr
      have hle := (hcreated r ts hts).mp h
      rw [decide_eq_true_eq, since_le_createdAt_iff hts]
      omega

end Listing

/-! ## At fixed texts -/

/-- `ORDER BY created_at DESC`. -/
def newer (a b : ℕ × ErrorRow) : Prop := b.2.createdAt ≤ a.2.createdAt

instance : DecidableRel newer := fun _ b => inferInstanceAs (Decidable (b.2.createdAt ≤ _))

instance : Std.Total newer where
  total a b := String.le_total b.2.createdAt a.2.createdAt

instance : IsTrans (ℕ × ErrorRow) newer where
  trans _ _ _ hab hbc := String.le_trans hbc hab

/-- Rows sorted by insertion. -/
def NewestFirst.insertion : NewestFirst where
  sort := List.insertionSort newer
  perm := List.perm_insertionSort newer
  sorted := List.pairwise_insertionSort newer

/-- An error at the epoch. -/
def exampleErrorRow : ErrorRow where
  wheelId := some 1
  errorCategory := "hash_mismatch"
  errorSubcat := none
  details := none
  rerollVersion := "1.0"
  createdAt := "1970-01-01T00:00:00+00:00"

/-- A database with one error. -/
def exampleErrors : Db :=
  { Db.empty with errors := Db.empty.errors.insertNew 1 exampleErrorRow }

/-- Two hours after the epoch, by the clock. -/
def twoOClock : DateTime := DateTime.ofMicros (epochMicros + 7200000000) (by decide)

/-- Two hours ahead of UTC. -/
def twoHours : UtcOffset := ⟨7200000000, by decide⟩

/-- `errors --since 1970-01-01T02:00:00+02:00` does not list an error of that instant. -/
theorem errors_since_ahead :
    fromisoformat "1970-01-01T02:00:00+02:00".toList = some (twoOClock, some twoHours) ∧
      ¬∃ answer, cmdErrors (fun text => fromisoformat text.toList) .insertion
        ⟨none, some "1970-01-01T02:00:00+02:00", 50⟩ exampleErrors = .ok answer ∧ answer.Perm
          (createdSince (fun _ => 0) none (timestamp twoOClock twoHours) exampleErrors) := by
  have hempty : cmdErrors (fun text => fromisoformat text.toList) .insertion
      ⟨none, some "1970-01-01T02:00:00+02:00", 50⟩ exampleErrors = .ok [] := by rfl
  have hrow : createdSince (fun _ => 0) none (timestamp twoOClock twoHours) exampleErrors =
      [(1, exampleErrorRow)] := by
    decide
  refine ⟨by decide, ?_⟩
  rintro ⟨answer, hanswer, hperm⟩
  rw [hempty] at hanswer
  rw [hrow, ← Except.ok.inj hanswer] at hperm
  exact List.cons_ne_nil _ _ hperm.nil_eq.symm

/-- An error three hours after the epoch. -/
def laterErrorRow : ErrorRow :=
  { exampleErrorRow with createdAt := "1970-01-01T03:00:00+00:00" }

/-- A database with both errors. -/
def hourlyErrors : Db :=
  { exampleErrors with errors := exampleErrors.errors.insertNew 2 laterErrorRow }

theorem rows_hourlyErrors :
    hourlyErrors.errors.rows = [(1, exampleErrorRow), (2, laterErrorRow)] := rfl

theorem written_hourlyErrors : Written hourlyErrors := by
  intro r hr
  rw [rows_hourlyErrors] at hr
  rcases List.mem_pair.mp hr with rfl | rfl
  · exact ⟨0, by decide⟩
  · exact ⟨10800000000, by decide⟩

/-- A listing since two o'clock UTC has the later of the two errors. -/
theorem errors_since_twoOClock :
    createdSince (fun _ => 0) none (timestamp twoOClock .utc) hourlyErrors =
        [(2, laterErrorRow)] ∧
      ∃ answer, cmdErrors (fun text => fromisoformat text.toList) .insertion
        ⟨none, some "1970-01-01T02:00:00+00:00", 50⟩ hourlyErrors = .ok answer ∧ answer.Perm
          (createdSince (fun _ => 0) none (timestamp twoOClock .utc) hourlyErrors) :=
  ⟨by decide,
    (errors_since_iff written_hourlyErrors rfl (by decide) (by decide)).mpr
      ⟨by decide, Or.inl fun _ _ _ _ h => by simp [Misplaced, UtcOffset.utc] at h⟩⟩

end RerollSync.Cli
