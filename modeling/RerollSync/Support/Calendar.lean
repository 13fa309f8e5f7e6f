import Mathlib.Algebra.Order.Ring.Nat
import Mathlib.Order.Monotone.Basic

/-!
# The proleptic Gregorian calendar

Days are counted from 1 January of year 1, which is day 1.  A date has an ordinal and
every ordinal is that of one date; ordinals are ordered as year, month and day are, the
year first.
-/

namespace RerollSync.Support

/-! ## Years and months -/

/-- A year of 366 days. -/
def isLeap (year : ℕ) : Bool := year % 4 = 0 ∧ (year % 100 ≠ 0 ∨ year % 400 = 0)

/-- The days before 1 January of a year. -/
def daysBeforeYear (year : ℕ) : ℕ :=
  (year - 1) * 365 + (year - 1) / 4 - (year - 1) / 100 + (year - 1) / 400

/-- The days of a month. -/
def daysInMonth (leap : Bool) (month : ℕ) : ℕ :=
  if month = 2 then if leap then 29 else 28
  else if month ∈ [4, 6, 9, 11] then 30
  else 31

/-- The days of a year before a month. -/
def daysBeforeMonth (leap : Bool) (month : ℕ) : ℕ :=
  [0, 0, 31, 59, 90, 120, 151, 181, 212, 243, 273, 304, 334].getD month 365 +
    if 2 < month ∧ leap then 1 else 0

/-- The days of a year. -/
def daysInYear (leap : Bool) : ℕ := if leap then 366 else 365

theorem daysBeforeYear_succ {year : ℕ} (h : 1 ≤ year) :
    daysBeforeYear (year + 1) = daysBeforeYear year + daysInYear (isLeap year) := by
  obtain ⟨n, rfl⟩ := Nat.exists_eq_add_of_le' h
  have h4 : (n + 1) / 4 = n / 4 + if 4 ∣ n + 1 then 1 else 0 := Nat.succ_div
  have h100 : (n + 1) / 100 = n / 100 + if 100 ∣ n + 1 then 1 else 0 := Nat.succ_div
  have h400 : (n + 1) / 400 = n / 400 + if 400 ∣ n + 1 then 1 else 0 := Nat.succ_div
  have hle : n / 100 ≤ n / 4 := Nat.div_le_div_left (by decide) (by decide)
  have hdvd : 400 ∣ n + 1 → 100 ∣ n + 1 := (Nat.dvd_trans (by decide) ·)
  have hdvd' : 100 ∣ n + 1 → 4 ∣ n + 1 := (Nat.dvd_trans (by decide) ·)
  simp only [daysBeforeYear, daysInYear, isLeap, decide_eq_true_eq, Nat.add_sub_cancel, ne_eq,
    ← Nat.dvd_iff_mod_eq_zero, h4, h100, h400]
  generalize n / 4 = q4 at hle
  generalize n / 100 = q100 at hle
  generalize n / 400 = q400
  by_cases h1 : 4 ∣ n + 1
  · by_cases h2 : 100 ∣ n + 1
    · by_cases h3 : 400 ∣ n + 1
      · simp only [h1, h2, h3, not_true, false_or, and_self, if_true]
        omega
      · simp only [h1, h2, h3, not_true, or_self, and_false, if_true, if_false]
        omega
    · simp only [h1, h2, mt hdvd h2, not_false_iff, true_or, and_self, if_true, if_false]
      omega
  · simp only [h1, mt hdvd' h1, mt (hdvd' ∘ hdvd) h1, false_and, if_false]
    omega

theorem daysBeforeYear_mono {year year' : ℕ} (h : 1 ≤ year) (hle : year ≤ year') :
    daysBeforeYear year ≤ daysBeforeYear year' := by
  induction year', hle using Nat.le_induction with
  | base => exact le_rfl
  | succ year' hle ih =>
      rw [daysBeforeYear_succ (h.trans hle)]
      exact ih.trans (Nat.le_add_right _ _)

theorem daysBeforeMonth_succ : ∀ (leap : Bool), ∀ month ∈ List.range' 1 12,
    daysBeforeMonth leap (month + 1) = daysBeforeMonth leap month + daysInMonth leap month := by
  decide

theorem daysBeforeMonth_mono (leap : Bool) {month month' : ℕ} (h : 1 ≤ month)
    (hle : month ≤ month') (hlast : month' ≤ 13) :
    daysBeforeMonth leap month ≤ daysBeforeMonth leap month' := by
  induction month', hle using Nat.le_induction with
  | base => exact le_rfl
  | succ month' hle ih =>
      rw [daysBeforeMonth_succ leap month' (List.mem_range'_1.mpr (by omega))]
      exact (ih (by omega)).trans (Nat.le_add_right _ _)

theorem daysBeforeMonth_thirteen (leap : Bool) : daysBeforeMonth leap 13 = daysInYear leap := by
  cases leap <;> rfl

/-! ## Dates -/

/-- A day of the calendar. -/
@[ext]
structure Date where
  year : ℕ
  month : ℕ
  day : ℕ
  year_pos : 1 ≤ year
  month_mem : 1 ≤ month ∧ month ≤ 12
  day_mem : 1 ≤ day ∧ day ≤ daysInMonth (isLeap year) month
deriving DecidableEq

namespace Date

/-- `_ymd2ord`. -/
def ordinal (d : Date) : ℕ :=
  daysBeforeYear d.year + daysBeforeMonth (isLeap d.year) d.month + d.day

/-- A date lies in its month. -/
theorem dayOfYear_le (d : Date) : daysBeforeMonth (isLeap d.year) d.month + d.day ≤
    daysBeforeMonth (isLeap d.year) (d.month + 1) := by
  rw [daysBeforeMonth_succ _ _ (List.mem_range'_1.mpr (by have := d.month_mem; omega))]
  exact Nat.add_le_add_left d.day_mem.2 _

/-- A date lies in its year. -/
theorem ordinal_le (d : Date) : d.ordinal ≤ daysBeforeYear (d.year + 1) := by
  have hmonth := daysBeforeMonth_mono (isLeap d.year) (Nat.le_add_left 1 d.month)
    (Nat.succ_le_succ d.month_mem.2) le_rfl
  have hday := d.dayOfYear_le
  rw [daysBeforeMonth_thirteen] at hmonth
  rw [ordinal, daysBeforeYear_succ d.year_pos]
  omega

theorem ordinal_lt_of_year {d d' : Date} (h : d.year < d'.year) : d.ordinal < d'.ordinal := by
  have hle := d.ordinal_le
  have hmono := daysBeforeYear_mono (Nat.le_add_left 1 d.year) h
  have hpos := d'.day_mem.1
  simp only [ordinal] at hle ⊢
  omega

theorem ordinal_lt_of_month {d d' : Date} (hyear : d.year = d'.year) (h : d.month < d'.month) :
    d.ordinal < d'.ordinal := by
  have hle := d.dayOfYear_le
  have hmono := daysBeforeMonth_mono (isLeap d.year) (Nat.le_add_left 1 d.month) h
    (d'.month_mem.2.trans (by omega))
  have hpos := d'.day_mem.1
  simp only [ordinal, ← hyear] at hle ⊢
  omega

/-- The order of dates. -/
def Before (d d' : Date) : Prop :=
  d.year < d'.year ∨ d.year = d'.year ∧
    (d.month < d'.month ∨ d.month = d'.month ∧ d.day < d'.day)

theorem ordinal_lt_of_before {d d' : Date} (h : d.Before d') : d.ordinal < d'.ordinal := by
  rcases h with hyear | ⟨hyear, hmonth | ⟨hmonth, hday⟩⟩
  · exact ordinal_lt_of_year hyear
  · exact ordinal_lt_of_month hyear hmonth
  · rw [ordinal, ordinal, hyear, hmonth]
    exact Nat.add_lt_add_left hday _

theorem before_or_eq_or_before (d d' : Date) : d.Before d' ∨ d = d' ∨ d'.Before d := by
  rw [Before, Before, Date.ext_iff]
  omega

theorem ordinal_lt_iff {d d' : Date} : d.ordinal < d'.ordinal ↔ d.Before d' := by
  refine ⟨fun hlt => ?_, ordinal_lt_of_before⟩
  rcases before_or_eq_or_before d d' with h | rfl | h
  · exact h
  · exact absurd hlt (lt_irrefl _)
  · exact absurd hlt (ordinal_lt_of_before h).asymm

theorem ordinal_inj {d d' : Date} : d.ordinal = d'.ordinal ↔ d = d' := by
  refine ⟨fun heq => ?_, fun h => h ▸ rfl⟩
  rcases before_or_eq_or_before d d' with h | h | h
  · exact absurd heq (ordinal_lt_of_before h).ne
  · exact h
  · exact absurd heq (ordinal_lt_of_before h).ne'

theorem ordinal_pos (d : Date) : 1 ≤ d.ordinal := d.day_mem.1.trans (Nat.le_add_left _ _)

end Date

/-! ## From ordinals -/

/-- The month a day of the year lies in, the first one being day 0; the estimate is exact
or one too large. -/
def monthOf (leap : Bool) (n : ℕ) : ℕ :=
  if n < daysBeforeMonth leap ((n + 50) / 32) then (n + 50) / 32 - 1 else (n + 50) / 32

theorem monthOf_spec : ∀ (leap : Bool), ∀ n < daysInYear leap,
    1 ≤ monthOf leap n ∧ monthOf leap n ≤ 12 ∧ daysBeforeMonth leap (monthOf leap n) ≤ n ∧
      n < daysBeforeMonth leap (monthOf leap n) + daysInMonth leap (monthOf leap n) := by
  decide +kernel

/-- The year of a day and the day in the year, days counted from 0: 400, 100, 4 years and
a year at a time.  The last day of a cycle is one more than its parts have. -/
def yearOf (n : ℕ) : ℕ × ℕ :=
  let n400 := n / 146097
  let n100 := n % 146097 / 36524
  let n4 := n % 146097 % 36524 / 1461
  let n1 := n % 146097 % 36524 % 1461 / 365
  let year := n400 * 400 + 1 + n100 * 100 + n4 * 4 + n1
  if n1 = 4 ∨ n100 = 4 then (year - 1, 365) else (year, n % 146097 % 36524 % 1461 % 365)

theorem daysBeforeYear_cycles {a b c d : ℕ} (hb : b ≤ 3) (hc : c ≤ 24) (hd : d ≤ 3) :
    daysBeforeYear (400 * a + 100 * b + 4 * c + d + 1) =
      146097 * a + 36524 * b + 1461 * c + 365 * d := by
  rw [daysBeforeYear]
  omega

theorem isLeap_cycles {a b c d : ℕ} (hb : b ≤ 3) (hc : c ≤ 24) (hd : d ≤ 3) :
    isLeap (400 * a + 100 * b + 4 * c + d + 1) = decide (d = 3 ∧ (c ≠ 24 ∨ b = 3)) := by
  rw [isLeap, decide_eq_decide]
  omega

theorem yearOf_spec (n : ℕ) : 1 ≤ (yearOf n).1 ∧ daysBeforeYear (yearOf n).1 + (yearOf n).2 = n ∧
    (yearOf n).2 < daysInYear (isLeap (yearOf n).1) := by
  obtain ⟨a, hrest⟩ : ∃ a, a = n / 146097 := ⟨_, rfl⟩
  obtain ⟨b, hb⟩ : ∃ b, b = n % 146097 / 36524 := ⟨_, rfl⟩
  obtain ⟨c, hc⟩ : ∃ c, c = n % 146097 % 36524 / 1461 := ⟨_, rfl⟩
  obtain ⟨d, hd⟩ : ∃ d, d = n % 146097 % 36524 % 1461 / 365 := ⟨_, rfl⟩
  obtain ⟨r, hr⟩ : ∃ r, r = n % 146097 % 36524 % 1461 % 365 := ⟨_, rfl⟩
  have hn : n = 146097 * a + 36524 * b + 1461 * c + 365 * d + r := by omega
  simp only [yearOf, ← hrest, ← hb, ← hc, ← hd, ← hr]
  split
  · rename_i hlast
    rcases hlast with hd4 | hb4
    · -- the last day of a leap year
      have hc3 : c ≤ 23 := by omega
      have hb3 : b ≤ 3 := by omega
      have hyear : a * 400 + 1 + b * 100 + c * 4 + d - 1 = 400 * a + 100 * b + 4 * c + 3 + 1 := by
        omega
      rw [hyear, daysBeforeYear_cycles hb3 (by omega) le_rfl, isLeap_cycles hb3 (by omega) le_rfl]
      have hleap : decide (3 = 3 ∧ (c ≠ 24 ∨ b = 3)) = true := by simp; omega
      rw [hleap]
      exact ⟨by omega, by omega, Nat.lt_succ_self 365⟩
    · -- the last day of 400 years
      have hyear : a * 400 + 1 + b * 100 + c * 4 + d - 1 =
          400 * a + 100 * 3 + 4 * 24 + 3 + 1 := by omega
      rw [hyear, daysBeforeYear_cycles le_rfl le_rfl le_rfl, isLeap_cycles le_rfl le_rfl le_rfl]
      exact ⟨by omega, by omega, Nat.lt_succ_self 365⟩
  · rename_i hnot
    have hb3 : b ≤ 3 := by omega
    have hc24 : c ≤ 24 := by omega
    have hd3 : d ≤ 3 := by omega
    have hyear : a * 400 + 1 + b * 100 + c * 4 + d = 400 * a + 100 * b + 4 * c + d + 1 := by omega
    dsimp only
    rw [hyear, daysBeforeYear_cycles hb3 hc24 hd3]
    refine ⟨by omega, by omega, ?_⟩
    rw [daysInYear]
    split <;> omega

/-- `_ord2ymd`. -/
def Date.ofOrdinal (n : ℕ) : Date where
  year := (yearOf (n - 1)).1
  month := monthOf (isLeap (yearOf (n - 1)).1) (yearOf (n - 1)).2
  day := (yearOf (n - 1)).2 - daysBeforeMonth (isLeap (yearOf (n - 1)).1)
    (monthOf (isLeap (yearOf (n - 1)).1) (yearOf (n - 1)).2) + 1
  year_pos := (yearOf_spec (n - 1)).1
  month_mem :=
    let h := monthOf_spec _ _ (yearOf_spec (n - 1)).2.2
    ⟨h.1, h.2.1⟩
  day_mem := by
    have h := monthOf_spec _ _ (yearOf_spec (n - 1)).2.2
    omega

theorem Date.ordinal_ofOrdinal {n : ℕ} (h : 1 ≤ n) : (Date.ofOrdinal n).ordinal = n := by
  have hyear := (yearOf_spec (n - 1)).2.1
  have hmonth := monthOf_spec _ _ (yearOf_spec (n - 1)).2.2
  simp only [ordinal, ofOrdinal]
  omega

end RerollSync.Support
