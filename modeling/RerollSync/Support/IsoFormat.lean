import Mathlib.Data.Int.Notation
import RerollSync.Support.Calendar
import RerollSync.Support.Dotted

/-!
# ISO 8601 texts of instants

A `datetime` is written with fields of a fixed width, the largest first, and its
fraction only when there is one.  What follows the seconds is an offset, which starts
with a sign, or a fraction, which starts with a point, and signs sort before the point:
the texts are ordered as the fields are, and then as the offsets' texts.
-/

namespace RerollSync.Support

/-! ## Fields of a fixed width -/

/-- The last `width` decimals of a number, zeros in front. -/
def pad : ℕ → ℕ → List Char
  | 0, _ => []
  | width + 1, n => (n / 10 ^ width % 10).digitChar :: pad width n

/-- Quotients decide an order, and remainders where they agree. -/
theorem lt_or_eq_and_iff_div_mod {n m k : ℕ} (hk : 0 < k) (p : Prop) :
    n / k < m / k ∨ n / k = m / k ∧ (n % k < m % k ∨ n % k = m % k ∧ p) ↔
      n < m ∨ n = m ∧ p := by
  have hn := Nat.div_add_mod n k
  have hm := Nat.div_add_mod m k
  have hnk := Nat.mod_lt n hk
  have hmk := Nat.mod_lt m hk
  rcases Nat.lt_trichotomy (n / k) (m / k) with h | h | h
  · have hle : k * (n / k + 1) ≤ k * (m / k) := Nat.mul_le_mul_left k h
    rw [Nat.mul_succ] at hle
    have hlt : n < m := by omega
    exact iff_of_true (Or.inl h) (Or.inl hlt)
  · rw [← h] at hm ⊢
    have hlt : n % k < m % k ↔ n < m := by omega
    have heq : n % k = m % k ↔ n = m := by omega
    simp [hlt, heq]
  · have hle : k * (m / k + 1) ≤ k * (n / k) := Nat.mul_le_mul_left k h
    rw [Nat.mul_succ] at hle
    have hlt : m < n := by omega
    exact iff_of_false (by omega) (by omega)

theorem digitChar_inj {d e : ℕ} (hd : d < 10) (he : e < 10) :
    d.digitChar = e.digitChar ↔ d = e := by
  refine ⟨fun h => ?_, fun h => h ▸ rfl⟩
  have hd' := Nat.toNat_digitChar_of_lt_ten hd
  have he' := Nat.toNat_digitChar_of_lt_ten he
  rw [h] at hd'
  omega

theorem length_pad (width n : ℕ) : (pad width n).length = width := by
  induction width with
  | zero => rfl
  | succ width ih => rw [pad, List.length_cons, ih]

theorem pad_mod (width k n : ℕ) (h : width ≤ k) : pad width (n % 10 ^ k) = pad width n := by
  induction width with
  | zero => rfl
  | succ width ih =>
      have hpow : 10 ^ k = 10 ^ width * (10 * 10 ^ (k - (width + 1))) := by
        rw [← Nat.pow_succ', ← Nat.pow_add]
        congr 1
        omega
      rw [pad, pad, ih (by omega), hpow, Nat.mod_mul_right_div_self, Nat.mod_mul_right_mod]

/-- Numbers that fit their width are ordered as their texts, whatever follows. -/
theorem pad_append_lt_iff {width n m : ℕ} (hn : n < 10 ^ width) (hm : m < 10 ^ width)
    {r s : List Char} : pad width n ++ r < pad width m ++ s ↔ n < m ∨ n = m ∧ r < s := by
  induction width generalizing n m with
  | zero =>
      obtain rfl : n = 0 := by simpa using hn
      obtain rfl : m = 0 := by simpa using hm
      simp [pad]
  | succ width ih =>
      have hpos : 0 < 10 ^ width := Nat.pow_pos (by decide)
      have hn10 : n / 10 ^ width < 10 := by rwa [Nat.div_lt_iff_lt_mul hpos, ← Nat.pow_succ']
      have hm10 : m / 10 ^ width < 10 := by rwa [Nat.div_lt_iff_lt_mul hpos, ← Nat.pow_succ']
      have hrest := ih (Nat.mod_lt n hpos) (Nat.mod_lt m hpos)
      rw [pad_mod _ _ _ le_rfl, pad_mod _ _ _ le_rfl] at hrest
      rw [pad, pad, Nat.mod_eq_of_lt hn10, Nat.mod_eq_of_lt hm10, List.cons_append,
        List.cons_append, List.cons_lt_cons_iff, digitChar_lt_iff hn10 hm10,
        digitChar_inj hn10 hm10, hrest]
      exact lt_or_eq_and_iff_div_mod hpos (r < s)

/-! ## Instants and offsets -/

/-- The microseconds of a day. -/
def dayMicros : ℕ := 86400000000

/-- A `datetime` without its offset. -/
@[ext]
structure DateTime extends Date where
  hour : ℕ
  minute : ℕ
  second : ℕ
  microsecond : ℕ
  year_le : year ≤ 9999
  hour_lt : hour < 24
  minute_lt : minute < 60
  second_lt : second < 60
  microsecond_lt : microsecond < 1000000
deriving DecidableEq

namespace DateTime

/-- The microseconds of the day. -/
def timeMicros (t : DateTime) : ℕ :=
  ((t.hour * 60 + t.minute) * 60 + t.second) * 1000000 + t.microsecond

/-- The microseconds since 1 January of year 1. -/
def micros (t : DateTime) : ℕ := (t.ordinal - 1) * dayMicros + t.timeMicros

theorem timeMicros_lt (t : DateTime) : t.timeMicros < dayMicros := by
  have hhour := t.hour_lt
  have hminute := t.minute_lt
  have hsecond := t.second_lt
  have hmicrosecond := t.microsecond_lt
  rw [timeMicros, dayMicros]
  omega

/-- The order of the fields, the largest first. -/
def Before (t t' : DateTime) : Prop :=
  t.year < t'.year ∨ t.year = t'.year ∧ (t.month < t'.month ∨ t.month = t'.month ∧
    (t.day < t'.day ∨ t.day = t'.day ∧ (t.hour < t'.hour ∨ t.hour = t'.hour ∧
      (t.minute < t'.minute ∨ t.minute = t'.minute ∧ (t.second < t'.second ∨
        t.second = t'.second ∧ t.microsecond < t'.microsecond)))))

theorem timeMicros_lt_iff {t t' : DateTime} : t.timeMicros < t'.timeMicros ↔
    t.hour < t'.hour ∨ t.hour = t'.hour ∧ (t.minute < t'.minute ∨ t.minute = t'.minute ∧
      (t.second < t'.second ∨ t.second = t'.second ∧ t.microsecond < t'.microsecond)) := by
  have hminute := t.minute_lt
  have hsecond := t.second_lt
  have hmicrosecond := t.microsecond_lt
  have hminute' := t'.minute_lt
  have hsecond' := t'.second_lt
  have hmicrosecond' := t'.microsecond_lt
  rw [timeMicros, timeMicros]
  omega

theorem before_iff {t t' : DateTime} :
    t.Before t' ↔ t.toDate.Before t'.toDate ∨ t.toDate = t'.toDate ∧
      t.timeMicros < t'.timeMicros := by
  rw [timeMicros_lt_iff, Before, Date.Before, Date.ext_iff]
  tauto

theorem micros_lt_iff {t t' : DateTime} : t.micros < t'.micros ↔ t.Before t' := by
  have htime := t.timeMicros_lt
  have htime' := t'.timeMicros_lt
  have hpos := t.toDate.ordinal_pos
  have hpos' := t'.toDate.ordinal_pos
  rw [before_iff, ← Date.ordinal_lt_iff, ← Date.ordinal_inj, micros, micros]
  simp only [dayMicros] at htime htime' ⊢
  omega

theorem micros_inj {t t' : DateTime} : t.micros = t'.micros ↔ t = t' := by
  refine ⟨fun h => ?_, fun h => h ▸ rfl⟩
  have hlt : ¬t.Before t' := fun hb => (micros_lt_iff.mpr hb).ne h
  have hgt : ¬t'.Before t := fun hb => (micros_lt_iff.mpr hb).ne' h
  rw [Before] at hlt hgt
  rw [DateTime.ext_iff]
  omega

end DateTime

/-- The microseconds of the years 1 to 9999. -/
def endMicros : ℕ := 3652059 * dayMicros

theorem daysBeforeYear_tenThousand : daysBeforeYear 10000 = 3652059 := by decide

theorem year_le_of_lt_endMicros {n : ℕ} (h : n < endMicros) :
    (Date.ofOrdinal (n / dayMicros + 1)).year ≤ 9999 := by
  by_contra hlarge
  have hordinal := Date.ordinal_ofOrdinal (Nat.le_add_left 1 (n / dayMicros))
  have hyear := daysBeforeYear_mono (by decide) (Nat.lt_of_not_le hlarge)
  have hpos := (Date.ofOrdinal (n / dayMicros + 1)).day_mem.1
  rw [daysBeforeYear_tenThousand] at hyear
  rw [Date.ordinal] at hordinal
  have hdays : n / dayMicros < 3652059 := (Nat.div_lt_iff_lt_mul (by decide)).mpr h
  omega

theorem hour_lt_of_dayMicros (n : ℕ) : n % dayMicros / 3600000000 < 24 := by
  have hday := Nat.mod_lt n (show 0 < dayMicros by decide)
  simp only [dayMicros] at hday ⊢
  omega

/-- The `datetime` of a count of microseconds. -/
def DateTime.ofMicros (n : ℕ) (h : n < endMicros) : DateTime where
  toDate := Date.ofOrdinal (n / dayMicros + 1)
  hour := n % dayMicros / 3600000000
  minute := n % dayMicros / 60000000 % 60
  second := n % dayMicros / 1000000 % 60
  microsecond := n % dayMicros % 1000000
  year_le := year_le_of_lt_endMicros h
  hour_lt := hour_lt_of_dayMicros n
  minute_lt := Nat.mod_lt _ (by decide)
  second_lt := Nat.mod_lt _ (by decide)
  microsecond_lt := Nat.mod_lt _ (by decide)

theorem DateTime.micros_ofMicros {n : ℕ} (h : n < endMicros) : (ofMicros n h).micros = n := by
  have hordinal := Date.ordinal_ofOrdinal (Nat.le_add_left 1 (n / dayMicros))
  simp only [micros, ofMicros, hordinal, timeMicros]
  have hday := Nat.mod_lt n (show 0 < dayMicros by decide)
  simp only [dayMicros] at hday ⊢
  omega

theorem DateTime.micros_lt_endMicros (t : DateTime) : t.micros < endMicros := by
  have hle := t.toDate.ordinal_le
  have hmono := daysBeforeYear_mono (Nat.le_add_left 1 t.year) (Nat.succ_le_succ t.year_le)
  rw [daysBeforeYear_tenThousand] at hmono
  have htime := t.timeMicros_lt
  have hpos := t.toDate.ordinal_pos
  rw [micros, endMicros]
  simp only [dayMicros] at htime ⊢
  omega

/-- The offset of an aware `datetime`, less than a day from UTC. -/
@[ext]
structure UtcOffset where
  micros : ℤ
  lt_day : micros.natAbs < dayMicros
deriving DecidableEq

/-- `timezone.utc`. -/
def UtcOffset.utc : UtcOffset := ⟨0, by decide⟩

/-- `_format_offset`. -/
def UtcOffset.format (o : UtcOffset) : List Char :=
  let n := o.micros.natAbs
  let second := n / 1000000 % 60
  (if o.micros < 0 then '-' else '+') :: pad 2 (n / 3600000000) ++
    ':' :: pad 2 (n / 60000000 % 60) ++
    (if second ≠ 0 ∨ n % 1000000 ≠ 0 then
      ':' :: pad 2 second ++ (if n % 1000000 ≠ 0 then '.' :: pad 6 (n % 1000000) else [])
    else [])

/-- What follows the seconds. -/
def fractionAndOffset (microsecond : ℕ) (offset : List Char) : List Char :=
  (if microsecond ≠ 0 then '.' :: pad 6 microsecond else []) ++ offset

/-- `isoformat` of a `datetime`, naive or aware. -/
def isoformat (t : DateTime) (o : Option UtcOffset) : List Char :=
  pad 4 t.year ++ '-' :: pad 2 t.month ++ '-' :: pad 2 t.day ++ 'T' :: pad 2 t.hour ++
    ':' :: pad 2 t.minute ++ ':' :: pad 2 t.second ++
      fractionAndOffset t.microsecond ((o.map UtcOffset.format).getD [])

/-! ## The order of texts -/

theorem UtcOffset.exists_format_eq_cons (o : UtcOffset) :
    ∃ c rest, o.format = c :: rest ∧ c < '.' := by
  refine ⟨if o.micros < 0 then '-' else '+', _, rfl, ?_⟩
  split <;> decide

/-- An offset's sign sorts before the point of a fraction. -/
theorem fractionAndOffset_lt_iff {n m : ℕ} (hn : n < 1000000) (hm : m < 1000000)
    (o o' : UtcOffset) : fractionAndOffset n o.format < fractionAndOffset m o'.format ↔
      n < m ∨ n = m ∧ o.format < o'.format := by
  obtain ⟨c, rest, hformat, hsign⟩ := o.exists_format_eq_cons
  obtain ⟨c', rest', hformat', hsign'⟩ := o'.exists_format_eq_cons
  have hirrefl : ¬ '.' < '.' := by decide
  by_cases hn0 : n = 0
  · by_cases hm0 : m = 0
    · simp [fractionAndOffset, hn0, hm0]
    · have hlt : 0 < m := Nat.pos_of_ne_zero hm0
      simp [fractionAndOffset, hn0, hm0, hformat, List.cons_lt_cons_iff, hsign, hlt]
  · by_cases hm0 : m = 0
    · have hle : ¬ '.' < c' := Char.lt_asymm hsign'
      have hne : '.' ≠ c' := (Char.ne_of_lt hsign').symm
      simp [fractionAndOffset, hn0, hm0, hformat', List.cons_lt_cons_iff, hle, hne]
    · simp only [fractionAndOffset, hn0, hm0, ne_eq, not_false_iff, if_true, List.cons_append,
        List.cons_lt_cons_iff, hirrefl, false_or, true_and]
      exact pad_append_lt_iff hn hm

theorem DateTime.day_lt (t : DateTime) : t.day < 100 := by
  have hday := t.day_mem.2
  rw [daysInMonth] at hday
  split_ifs at hday <;> omega

theorem isoformat_lt_iff {t t' : DateTime} {o o' : UtcOffset} :
    isoformat t (some o) < isoformat t' (some o') ↔
      t.Before t' ∨ t = t' ∧ o.format < o'.format := by
  have hfields : ∀ u : DateTime, u.year < 10 ^ 4 ∧ u.month < 10 ^ 2 ∧ u.day < 10 ^ 2 ∧
      u.hour < 10 ^ 2 ∧ u.minute < 10 ^ 2 ∧ u.second < 10 ^ 2 := fun u =>
    ⟨Nat.lt_succ_of_le u.year_le, u.month_mem.2.trans_lt (by decide), u.day_lt,
      u.hour_lt.trans (by decide), u.minute_lt.trans (by decide), u.second_lt.trans (by decide)⟩
  obtain ⟨hyear, hmonth, hday, hhour, hminute, hsecond⟩ := hfields t
  obtain ⟨hyear', hmonth', hday', hhour', hminute', hsecond'⟩ := hfields t'
  have hsep : ∀ c : Char, ¬c < c := Char.lt_irrefl
  simp only [isoformat, List.append_assoc, List.cons_append, Option.map_some, Option.getD_some,
    pad_append_lt_iff hyear hyear', pad_append_lt_iff hmonth hmonth',
    pad_append_lt_iff hday hday', pad_append_lt_iff hhour hhour',
    pad_append_lt_iff hminute hminute', pad_append_lt_iff hsecond hsecond',
    List.cons_lt_cons_iff, hsep, false_or, true_and,
    fractionAndOffset_lt_iff t.microsecond_lt t'.microsecond_lt]
  simp only [DateTime.Before, DateTime.ext_iff, and_or_left, or_assoc, and_assoc]

/-- Texts of one offset are ordered as the instants. -/
theorem isoformat_lt_iff_micros {t t' : DateTime} {o : UtcOffset} :
    isoformat t (some o) < isoformat t' (some o) ↔ t.micros < t'.micros := by
  rw [isoformat_lt_iff, DateTime.micros_lt_iff]
  simp

/-- UTC sorts before every other offset. -/
theorem UtcOffset.utc_format_lt {o : UtcOffset} (h : o.micros ≠ 0) :
    UtcOffset.utc.format < o.format := by
  have hutc : UtcOffset.utc.format = '+' :: (pad 2 0 ++ ':' :: (pad 2 0 ++ [])) := by decide
  have hlt := o.lt_day
  have hpos : o.micros.natAbs ≠ 0 := Int.natAbs_ne_zero.mpr h
  rw [hutc, format]
  simp only [List.cons_append, List.append_assoc]
  split
  · exact List.cons_lt_cons_iff.mpr (Or.inl (by decide))
  · simp only [dayMicros] at hlt
    rw [List.cons_lt_cons_self, pad_append_lt_iff (by decide) (by omega), List.cons_lt_cons_self,
      pad_append_lt_iff (by decide) (by omega)]
    by_cases hsmall : o.micros.natAbs / 3600000000 = 0 ∧ o.micros.natAbs / 60000000 % 60 = 0
    · have hrest : o.micros.natAbs / 1000000 % 60 ≠ 0 ∨ o.micros.natAbs % 1000000 ≠ 0 := by omega
      simp [hsmall.1, hsmall.2, hrest]
    · omega

/-! ## Parsing -/

/-- The value of decimals. -/
def digitsValue (cs : List Char) : ℕ := cs.foldl (fun n c => 10 * n + (c.toNat - 48)) 0

/-- `int` of a field: `width` decimals. -/
def readDigits (width : ℕ) (cs : List Char) : Option ℕ :=
  if cs.length = width ∧ cs.all Char.isDigit then some (digitsValue cs) else none

/-- The `datetime` of its fields, when they are in range. -/
def DateTime.ofFields (date : Date) (hour minute second microsecond : ℕ) : Option DateTime :=
  if h : date.year ≤ 9999 ∧ hour < 24 ∧ minute < 60 ∧ second < 60 ∧ microsecond < 1000000 then
    some { date with
      hour := hour, minute := minute, second := second, microsecond := microsecond
      year_le := h.1, hour_lt := h.2.1, minute_lt := h.2.2.1, second_lt := h.2.2.2.1
      microsecond_lt := h.2.2.2.2 }
  else none

/-- The date of its fields, when they are in range. -/
def Date.ofFields (year month day : ℕ) : Option Date :=
  if h : 1 ≤ year ∧ (1 ≤ month ∧ month ≤ 12) ∧ 1 ≤ day ∧ day ≤ daysInMonth (isLeap year) month then
    some ⟨year, month, day, h.1, h.2.1, h.2.2⟩
  else none

/-- The ordinal of the Monday of the first week of a year, as `_isoweek1monday` has it:
the week with the year's first Thursday.  It may lie in the year before. -/
def isoWeekOneMonday (year : ℕ) : ℤ :=
  let firstDay : ℤ := daysBeforeYear year + 1
  let firstWeekday := (firstDay + 6) % 7
  if 3 < firstWeekday then firstDay - firstWeekday + 7 else firstDay - firstWeekday

/-- A year has a 53rd week when it starts on a Thursday, or on a Wednesday and is leap. -/
def hasWeek53 (year : ℕ) : Bool :=
  let firstWeekday := (daysBeforeYear year + 1) % 7
  firstWeekday = 4 ∨ firstWeekday = 3 ∧ isLeap year

/-- `_isoweek_to_gregorian`. -/
def Date.ofIsoWeek (year week day : ℕ) : Option Date :=
  let ordinal := isoWeekOneMonday year + ((week - 1) * 7 + (day - 1) : ℕ)
  if 1 ≤ year ∧ year ≤ 9999 ∧ (1 ≤ week ∧ week ≤ 52 ∨ week = 53 ∧ hasWeek53 year) ∧
      (1 ≤ day ∧ day ≤ 7) ∧ 1 ≤ ordinal ∧ ordinal ≤ 3652059 then
    some (ofOrdinal ordinal.toNat)
  else none

/-- `_find_isoformat_datetime_separator`: where the date ends. -/
def datetimeSeparator (cs : List Char) : Option ℕ :=
  let digitAt (i : ℕ) := (cs[i]?).any Char.isDigit
  if cs.length = 7 then some 7
  else if cs[4]? = some '-' then
    if cs[5]? = some 'W' then
      if cs[8]? = some '-' then
        if cs.length = 9 then none else some (if digitAt 10 then 8 else 10)
      else some 8
    else some 10
  else if cs[4]? = some 'W' then
    let last := 7 + ((cs.drop 7).takeWhile Char.isDigit).length
    some (if last < 9 then last else if last % 2 = 0 then 7 else 8)
  else some 8

/-- A field behind the separator that the fields before it had, or had not. -/
def dropSeparator (c : Char) (separated : Bool) (cs : List Char) : Option (List Char) :=
  if (cs.head? == some c) = separated then some (cs.drop (if separated then 1 else 0)) else none

/-- `_parse_isoformat_date`. -/
def parseDate (cs : List Char) : Option Date := do
  let year ← readDigits 4 (cs.take 4)
  let separated := cs[4]? == some '-'
  let rest := cs.drop (if separated then 5 else 4)
  if rest.head? = some 'W' then
    let week ← readDigits 2 ((rest.drop 1).take 2)
    if rest.length = 3 then Date.ofIsoWeek year week 1
    else
      let day ← dropSeparator '-' separated (rest.drop 3)
      Date.ofIsoWeek year week (← readDigits 1 day)
  else
    let month ← readDigits 2 (rest.take 2)
    let day ← dropSeparator '-' separated (rest.drop 2)
    Date.ofFields year month (← readDigits 2 day)

/-- The fraction of a second: the first six decimals count. -/
def parseFraction (cs : List Char) : Option ℕ := do
  if cs = [] then return 0
  if cs.head? ≠ some '.' ∧ cs.head? ≠ some ',' then none
  let digits := (cs.drop 1).take 6
  let n ← if digits = [] then none else readDigits digits.length digits
  if (cs.drop 7).all Char.isDigit then some (n * 10 ^ (6 - digits.length)) else none

/-- `_parse_hh_mm_ss_ff`: hour, minute, second and microsecond. -/
def parseClock (cs : List Char) : Option (ℕ × ℕ × ℕ × ℕ) := do
  let hour ← readDigits 2 (cs.take 2)
  if cs.length = 2 then return (hour, 0, 0, 0)
  let separated := cs[2]? == some ':'
  let rest := cs.drop (if separated then 3 else 2)
  let minute ← readDigits 2 (rest.take 2)
  if rest.length = 2 then return (hour, minute, 0, 0)
  let rest ← dropSeparator ':' separated (rest.drop 2)
  let second ← readDigits 2 (rest.take 2)
  return (hour, minute, second, ← parseFraction (rest.drop 2))

/-- The offset behind its sign. -/
def parseOffset (sign : Char) (cs : List Char) : Option UtcOffset := do
  let (hour, minute, second, microsecond) ← parseClock cs
  let n := ((hour * 60 + minute) * 60 + second) * 1000000 + microsecond
  if h : n < dayMicros then
    if sign = '-' then some ⟨-n, by simpa using h⟩ else some ⟨n, by simpa using h⟩
  else none

/-- `_parse_isoformat_time`: the offset starts at the first sign, or is a `Z`. -/
def parseTime (cs : List Char) : Option ((ℕ × ℕ × ℕ × ℕ) × Option UtcOffset) := do
  let clock := cs.takeWhile fun c => c ≠ '+' ∧ c ≠ '-' ∧ c ≠ 'Z'
  let fields ← parseClock clock
  match cs.drop clock.length with
  | [] => some (fields, none)
  | ['Z'] => some (fields, some .utc)
  | 'Z' :: _ => none
  | sign :: offset => some (fields, some (← parseOffset sign offset))

/-- `datetime.fromisoformat`. -/
def fromisoformat (cs : List Char) : Option (DateTime × Option UtcOffset) := do
  if cs.length < 7 then none
  let separator ← datetimeSeparator cs
  let date ← parseDate (cs.take separator)
  if cs.length ≤ separator then
    return (← DateTime.ofFields date 0 0 0 0, none)
  let ((hour, minute, second, microsecond), offset) ← parseTime (cs.drop (separator + 1))
  return (← DateTime.ofFields date hour minute second microsecond, offset)

/-! ## The round trip -/

theorem isDigit_of_mem_pad {width n : ℕ} {c : Char} (h : c ∈ pad width n) : c.isDigit := by
  induction width with
  | zero => cases h
  | succ width ih =>
      rcases List.mem_cons.mp h with rfl | h
      · rw [Nat.isDigit_digitChar, decide_eq_true_eq]
        exact Nat.mod_lt _ (by decide)
      · exact ih h

theorem foldl_pad {width n : ℕ} (h : n < 10 ^ width) (acc : ℕ) :
    (pad width n).foldl (fun n c => 10 * n + (c.toNat - 48)) acc = acc * 10 ^ width + n := by
  induction width generalizing n acc with
  | zero =>
      obtain rfl : n = 0 := by simpa using h
      simp [pad]
  | succ width ih =>
      have hpos : 0 < 10 ^ width := Nat.pow_pos (by decide)
      have hdigit : n / 10 ^ width < 10 := by rwa [Nat.div_lt_iff_lt_mul hpos, ← Nat.pow_succ']
      have hrest := ih (Nat.mod_lt n hpos) (10 * acc + n / 10 ^ width)
      rw [pad_mod _ _ _ le_rfl] at hrest
      rw [pad, List.foldl_cons, Nat.mod_eq_of_lt hdigit, Nat.toNat_digitChar_of_lt_ten hdigit,
        Nat.add_sub_cancel_left, hrest, Nat.add_mul, Nat.add_assoc, Nat.div_add_mod', Nat.pow_succ',
        Nat.mul_comm 10 acc, Nat.mul_assoc]

/-- The fields of a width are read back. -/
theorem readDigits_pad {width n : ℕ} (h : n < 10 ^ width) :
    readDigits width (pad width n) = some n := by
  have hdigits : (pad width n).all Char.isDigit = true :=
    List.all_eq_true.mpr fun c hc => isDigit_of_mem_pad hc
  rw [readDigits, if_pos ⟨length_pad width n, hdigits⟩, digitsValue, foldl_pad h]
  simp

/-- A field at the front of a text. -/
theorem readDigits_take_pad {width n : ℕ} (h : n < 10 ^ width) (rest : List Char) :
    readDigits width ((pad width n ++ rest).take width) = some n := by
  rw [List.take_left' (length_pad width n), readDigits_pad h]

theorem drop_pad_append (width n k : ℕ) (rest : List Char) :
    (pad width n ++ rest).drop (width + k) = rest.drop k := by
  rw [← List.drop_drop, List.drop_left' (length_pad width n)]

theorem Date.ofFields_self (d : Date) : Date.ofFields d.year d.month d.day = some d :=
  dif_pos ⟨d.year_pos, d.month_mem, d.day_mem⟩

theorem DateTime.ofFields_self (t : DateTime) :
    DateTime.ofFields t.toDate t.hour t.minute t.second t.microsecond = some t :=
  dif_pos ⟨t.year_le, t.hour_lt, t.minute_lt, t.second_lt, t.microsecond_lt⟩

theorem DateTime.fields_lt (t : DateTime) : t.year < 10 ^ 4 ∧ t.month < 10 ^ 2 ∧
    t.day < 10 ^ 2 ∧ t.hour < 10 ^ 2 ∧ t.minute < 10 ^ 2 ∧ t.second < 10 ^ 2 :=
  ⟨Nat.lt_succ_of_le t.year_le, t.month_mem.2.trans_lt (by decide), t.day_lt,
    t.hour_lt.trans (by decide), t.minute_lt.trans (by decide), t.second_lt.trans (by decide)⟩

/-- The date of a text. -/
def dateText (d : Date) : List Char :=
  pad 4 d.year ++ '-' :: (pad 2 d.month ++ '-' :: pad 2 d.day)

/-- The time of a text, without its offset. -/
def clockText (t : DateTime) : List Char :=
  pad 2 t.hour ++ ':' :: (pad 2 t.minute ++ ':' :: (pad 2 t.second ++
    fractionAndOffset t.microsecond []))

theorem isoformat_eq (t : DateTime) (o : Option UtcOffset) : isoformat t o =
    dateText t.toDate ++ 'T' :: (clockText t ++ (o.map UtcOffset.format).getD []) := by
  simp [isoformat, dateText, clockText, fractionAndOffset]

theorem length_dateText (d : Date) : (dateText d).length = 10 := by
  simp [dateText, length_pad]

theorem parseDate_dateText (t : DateTime) : parseDate (dateText t.toDate) = some t.toDate := by
  obtain ⟨hyear, hmonth, hday, -⟩ := t.fields_lt
  have hseparator : (dateText t.toDate)[4]? = some '-' := by
    simp [dateText, length_pad]
  have hrest : (dateText t.toDate).drop 5 = pad 2 t.month ++ '-' :: pad 2 t.day := by
    rw [dateText, drop_pad_append 4 _ 1, List.drop_one, List.tail_cons]
  have hweek : (pad 2 t.month ++ '-' :: pad 2 t.day).head? ≠ some 'W' := by
    intro h
    have hmem : 'W' ∈ pad 2 t.month := by
      rw [pad, List.cons_append, List.head?_cons, Option.some.injEq] at h
      rw [pad, h]
      exact List.mem_cons_self
    exact absurd (isDigit_of_mem_pad hmem) (by decide)
  have hyear' : readDigits 4 ((dateText t.toDate).take 4) = some t.year :=
    readDigits_take_pad hyear _
  have hafter : dropSeparator '-' true ((pad 2 t.month ++ '-' :: pad 2 t.day).drop 2) =
      some (pad 2 t.day) := by
    rw [List.drop_left' (length_pad 2 _)]
    rfl
  have hmonth' := readDigits_take_pad hmonth ('-' :: pad 2 t.day)
  generalize pad 2 t.month ++ '-' :: pad 2 t.day = rest at hrest hweek hafter hmonth'
  simp [parseDate, hyear', hseparator, hrest, hweek, hmonth', hafter, readDigits_pad hday,
    Date.ofFields_self]

theorem parseFraction_fraction {n : ℕ} (h : n < 1000000) :
    parseFraction (fractionAndOffset n []) = some n := by
  by_cases hzero : n = 0
  · simp [fractionAndOffset, hzero, parseFraction]
  · have htake : (pad 6 n).take 6 = pad 6 n := List.take_of_length_le (length_pad 6 n).le
    have hdrop : (pad 6 n).drop 6 = [] := List.drop_of_length_le (length_pad 6 n).le
    have hne : pad 6 n ≠ [] := by simp [pad]
    have hread : readDigits 6 (pad 6 n) = some n := readDigits_pad h
    simp [fractionAndOffset, hzero, parseFraction, htake, hdrop, hne, length_pad, hread]

theorem parseClock_clockText (t : DateTime) :
    parseClock (clockText t) = some (t.hour, t.minute, t.second, t.microsecond) := by
  obtain ⟨-, -, -, hhour, hminute, hsecond⟩ := t.fields_lt
  have hseparator : (clockText t)[2]? = some ':' := by
    simp [clockText, length_pad]
  have hlength : (clockText t).length ≠ 2 := by simp [clockText, length_pad]
  have hrest : (clockText t).drop 3 = pad 2 t.minute ++ ':' :: (pad 2 t.second ++
      fractionAndOffset t.microsecond []) := by
    rw [clockText, drop_pad_append 2 _ 1, List.drop_one, List.tail_cons]
  have hhour' : readDigits 2 ((clockText t).take 2) = some t.hour := readDigits_take_pad hhour _
  have hminute' := readDigits_take_pad hminute
    (':' :: (pad 2 t.second ++ fractionAndOffset t.microsecond []))
  have hafter : dropSeparator ':' true ((pad 2 t.minute ++ ':' :: (pad 2 t.second ++
      fractionAndOffset t.microsecond [])).drop 2) =
        some (pad 2 t.second ++ fractionAndOffset t.microsecond []) := by
    rw [List.drop_left' (length_pad 2 _)]
    rfl
  have hlength' : (pad 2 t.minute ++ ':' :: (pad 2 t.second ++
      fractionAndOffset t.microsecond [])).length ≠ 2 := by simp [length_pad]
  generalize pad 2 t.minute ++ ':' :: (pad 2 t.second ++ fractionAndOffset t.microsecond []) =
    rest at hrest hminute' hafter hlength'
  have hsecond' := readDigits_take_pad hsecond (fractionAndOffset t.microsecond [])
  have hfraction : parseFraction ((pad 2 t.second ++ fractionAndOffset t.microsecond []).drop 2) =
      some t.microsecond := by
    rw [List.drop_left' (length_pad 2 _), parseFraction_fraction t.microsecond_lt]
  generalize pad 2 t.second ++ fractionAndOffset t.microsecond [] = rest'
    at hafter hsecond' hfraction
  simp [parseClock, hhour', hlength, hseparator, hrest, hminute', hlength', hafter, hsecond',
    hfraction]

/-- No character of a time starts an offset. -/
theorem not_sign_of_mem_clockText {t : DateTime} {c : Char} (h : c ∈ clockText t) :
    c ≠ '+' ∧ c ≠ '-' ∧ c ≠ 'Z' := by
  have hdigit : ∀ width n, c ∈ pad width n → c ≠ '+' ∧ c ≠ '-' ∧ c ≠ 'Z' := by
    intro width n hc
    have hc' := isDigit_of_mem_pad hc
    refine ⟨?_, ?_, ?_⟩ <;>
    · rintro rfl
      exact absurd hc' (by decide)
  simp only [clockText, fractionAndOffset, List.mem_append, List.mem_cons, List.append_nil] at h
  rcases h with h | rfl | h | rfl | h | h
  · exact hdigit _ _ h
  · decide
  · exact hdigit _ _ h
  · decide
  · exact hdigit _ _ h
  · split at h
    · rcases List.mem_cons.mp h with rfl | h
      · decide
      · exact hdigit _ _ h
    · cases h

theorem parseTime_clockText (t : DateTime) :
    parseTime (clockText t ++ UtcOffset.utc.format) =
      some ((t.hour, t.minute, t.second, t.microsecond), some .utc) := by
  have hutc : UtcOffset.utc.format = '+' :: "00:00".toList := by decide
  have hclock : (clockText t ++ UtcOffset.utc.format).takeWhile
      (fun c => c ≠ '+' ∧ c ≠ '-' ∧ c ≠ 'Z') = clockText t := by
    rw [List.takeWhile_append_of_pos fun c hc => decide_eq_true (not_sign_of_mem_clockText hc),
      hutc]
    simp
  have hdrop : (clockText t ++ UtcOffset.utc.format).drop (clockText t).length =
      '+' :: "00:00".toList := by
    rw [List.drop_left, hutc]
  rw [parseTime]
  simp only [hclock, parseClock_clockText, Option.bind_eq_bind, Option.bind_some, hdrop]
  rfl

/-- `fromisoformat` inverts `isoformat`. -/
theorem fromisoformat_isoformat (t : DateTime) :
    fromisoformat (isoformat t (some .utc)) = some (t, some .utc) := by
  have hutc : ((some UtcOffset.utc).map UtcOffset.format).getD [] = UtcOffset.utc.format := rfl
  have hlength : 10 < (isoformat t (some .utc)).length := by
    rw [isoformat_eq, List.length_append, length_dateText]
    simp
  have hdash : (isoformat t (some .utc))[4]? = some '-' := by
    rw [isoformat_eq]
    simp [dateText, length_pad]
  have hweek : (isoformat t (some .utc))[5]? ≠ some 'W' := by
    intro h
    rw [isoformat_eq] at h
    simp only [dateText, List.append_assoc, List.cons_append] at h
    rw [List.getElem?_append_right (by simp [length_pad])] at h
    simp [pad] at h
  have hseparator : datetimeSeparator (isoformat t (some .utc)) = some 10 := by
    rw [datetimeSeparator]
    simp only [hdash, hweek, if_true, if_false]
    rw [if_neg (by omega)]
  have hdate : (isoformat t (some .utc)).take 10 = dateText t.toDate := by
    rw [isoformat_eq, List.take_left' (length_dateText _)]
  have htime : (isoformat t (some .utc)).drop (10 + 1) = clockText t ++ UtcOffset.utc.format := by
    rw [isoformat_eq, ← List.drop_drop, List.drop_left' (length_dateText _), List.drop_one,
      List.tail_cons, hutc]
  rw [fromisoformat, if_neg (by omega)]
  simp only [hseparator, hdate, htime, parseDate_dateText, parseTime_clockText,
    Option.bind_eq_bind, Option.bind_some, DateTime.ofFields_self]
  rw [if_neg (by omega)]
  rfl

end RerollSync.Support
