import RerollSync.Support.PyString

/-!
# Dates of HTTP headers

`email.utils.parsedate_to_datetime`: the words of a date in the forms that it knows, and
the `datetime` of its fields, which may be numbers of any size.
-/

namespace RerollSync.Client

open RerollSync.Support

/-! ## Names -/

/-- `_monthnames`. -/
def monthNames : List String :=
  ["jan", "feb", "mar", "apr", "may", "jun", "jul", "aug", "sep", "oct", "nov", "dec",
   "january", "february", "march", "april", "may", "june", "july", "august", "september",
   "october", "november", "december"]

/-- `_daynames`. -/
def dayNames : List String := ["mon", "tue", "wed", "thu", "fri", "sat", "sun"]

/-- `_timezones`. -/
def timezones : List (String × ℤ) :=
  [("UT", 0), ("UTC", 0), ("GMT", 0), ("Z", 0), ("AST", -400), ("ADT", -300), ("EST", -500),
   ("EDT", -400), ("CST", -600), ("CDT", -500), ("MST", -700), ("MDT", -600), ("PST", -800),
   ("PDT", -700)]

/-! ## Words -/

/-- The words of a date whose zone may stand at the end of its time. -/
def splitZone (data : List (List Char)) : List (List Char) :=
  match data with
  | [day, month, year, time] =>
      match splitFirst '+' time <|> splitFirst '-' time with
      | some (before, zone) =>
          if before = [] then data ++ [[]] else [day, month, year, before, zone]
      | none => data ++ [[]]
  | _ => data

/-- The words of a date whose day, month and year may be one word. -/
def splitDate (data : List (List Char)) : List (List Char) :=
  match data with
  | [date, time, zone] =>
      match date.splitOn '-' with
      | [day, month, year] => [day, month, year, time, zone]
      | _ => data
  | _ => data

/-- The hour, minute and second of a time. -/
def splitTime (time : List Char) : Option (List Char × List Char × List Char) :=
  match time.splitOn ':' with
  | [hour, minute] => some (hour, minute, ['0'])
  | [hour, minute, second] => some (hour, minute, second)
  | [_] =>
      match time.splitOn '.' with
      | [hour, minute] => some (hour, minute, ['0'])
      | [hour, minute, second] => some (hour, minute, second)
      | _ => none
  | _ => none

/-- The year of two digits. -/
def expandYear (year : ℤ) : ℤ :=
  if year < 100 then if 68 < year then year + 1900 else year + 2000 else year

/-- The number of a month. -/
def monthNumber (name : List Char) : Option ℕ :=
  (monthNames.idxOf? (String.ofList name)).map fun i => i % 12 + 1

/-- What `_parsedate_tz` returns, less the fields that never vary; the offset is in
seconds. -/
structure DateTuple where
  year : ℤ
  month : ℕ
  day : ℤ
  hour : ℤ
  minute : ℤ
  second : ℤ
  zone : Option ℤ
deriving DecidableEq, Repr

section Fields

variable (u : UnicodeData)

/-- The words behind the day of the week. -/
def dropDayName (data : List (List Char)) : List (List Char) :=
  match data with
  | [] => []
  | word :: data =>
      if word.getLast? = some ',' ∨ String.ofList (lowerChars u word) ∈ dayNames then data
      else afterLast ',' word :: data

/-- Day and month, which may stand in either order. -/
def splitMonth (day month : List Char) : Option (List Char × ℕ) :=
  match monthNumber (lowerChars u month) with
  | some n => some (day, n)
  | none => (monthNumber (lowerChars u day)).map fun n => (lowerChars u month, n)

/-- The offset of a zone; `-0000` is none. -/
def readZone (zone : List Char) : Option ℤ :=
  let zone := upperChars u zone
  let offset := match timezones.lookup (String.ofList zone) with
    | some offset => some offset
    | none => (pyInt u zone).filter fun offset => ¬(offset = 0 ∧ zone.head? = some '-')
  offset.map fun offset => offset.sign * (offset.natAbs / 100 * 3600 + offset.natAbs % 100 * 60)

/-- The fields of a date's five words. -/
def readFields (day month year time zone : List Char) : Option DateTuple := do
  guard (day ≠ [] ∧ month ≠ [] ∧ year ≠ [])
  let (day, month) ← splitMonth u day month
  let day := dropLast? ',' day
  let (year, time) := if (splitFirst ':' year).any (·.1 ≠ []) then (time, year) else (year, time)
  let year := dropLast? ',' year
  guard (year ≠ [])
  let (year, zone) := if year.head?.any u.isDigit then (year, zone) else (zone, year)
  let (hour, minute, second) ← splitTime (dropLast? ',' time)
  return {
    year := expandYear (← pyInt u year)
    month := month
    day := ← pyInt u day
    hour := ← pyInt u hour
    minute := ← pyInt u minute
    second := ← pyInt u second
    zone := readZone u zone }

/-- `_parsedate_tz`. -/
def parsedateTz (cs : List Char) : Option DateTuple :=
  match splitZone (splitDate (dropDayName u (splitWords cs))) with
  | day :: month :: year :: time :: zone :: _ => readFields u day month year time zone
  | _ => none

end Fields

/-! ## The datetime -/

/-- The exceptions of `parsedate_to_datetime`. -/
inductive DateError
  | valueError
  | overflowError
deriving DecidableEq, Repr

/-- The days of `timedelta.max`. -/
def maxDeltaDays : ℤ := 999999999

/-- What fits a C `int`. -/
def FitsInt (n : ℤ) : Prop := -2147483648 ≤ n ∧ n ≤ 2147483647

instance (n : ℤ) : Decidable (FitsInt n) := inferInstanceAs (Decidable (_ ∧ _))

namespace DateTuple

variable (t : DateTuple)

/-- The offset has a `timedelta`. -/
def ZoneFits : Prop := ∀ zone ∈ t.zone, |zone / 86400| ≤ maxDeltaDays

/-- The offset, if it has a `timedelta`, has a `timezone`. -/
def ZoneValid : Prop := ∀ zone ∈ t.zone, |zone| < 86400

/-- The fields are arguments of `datetime`. -/
def FieldsFit : Prop :=
  FitsInt t.year ∧ FitsInt t.day ∧ FitsInt t.hour ∧ FitsInt t.minute ∧ FitsInt t.second

instance : Decidable t.ZoneFits := inferInstanceAs (Decidable (∀ zone ∈ t.zone, _))

instance : Decidable t.ZoneValid := inferInstanceAs (Decidable (∀ zone ∈ t.zone, _))

instance : Decidable t.FieldsFit := inferInstanceAs (Decidable (_ ∧ _))

/-- The `datetime` without its offset, when the fields are in range. -/
def toDateTime : Option DateTime :=
  if 0 ≤ t.year ∧ 0 ≤ t.day ∧ 0 ≤ t.hour ∧ 0 ≤ t.minute ∧ 0 ≤ t.second then
    (Date.ofFields t.year.toNat t.month t.day.toNat).bind fun date =>
      DateTime.ofFields date t.hour.toNat t.minute.toNat t.second.toNat 0
  else none

end DateTuple

/-- `parsedate_to_datetime`: the `datetime` and its offset.  The offset is made before the
fields are looked at. -/
def parsedateToDatetime (u : UnicodeData) (cs : List Char) :
    Except DateError (DateTime × Option ℤ) :=
  match parsedateTz u cs with
  | none => .error .valueError
  | some t =>
      if ¬t.ZoneFits then .error .overflowError
      else if ¬t.ZoneValid then .error .valueError
      else if ¬t.FieldsFit then .error .overflowError
      else match t.toDateTime with
        | none => .error .valueError
        | some d => .ok (d, t.zone)

/-- The dates whose fields or offset are too large for the types of C behind them. -/
def DateOverflows (u : UnicodeData) (cs : List Char) : Prop :=
  ∃ t, parsedateTz u cs = some t ∧ (t.ZoneFits → t.ZoneValid ∧ ¬t.FieldsFit)

theorem parsedateToDatetime_eq_overflowError_iff {u : UnicodeData} {cs : List Char} :
    parsedateToDatetime u cs = .error .overflowError ↔ DateOverflows u cs := by
  unfold parsedateToDatetime DateOverflows
  cases parsedateTz u cs with
  | none => simp
  | some t =>
      simp only [Option.some.injEq, exists_eq_left']
      by_cases hzone : t.ZoneFits
      · by_cases hvalid : t.ZoneValid
        · by_cases hfields : t.FieldsFit
          · cases t.toDateTime <;> simp [hzone, hvalid, hfields]
          · simp [hzone, hvalid, hfields]
        · simp [hzone, hvalid]
      · simp [hzone]

example : parsedateToDatetime .ascii7 "1 Jan 99999999999 00:00:00 GMT".toList =
    .error .overflowError := by
  rfl

end RerollSync.Client
