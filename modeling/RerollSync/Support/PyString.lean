import RerollSync.Support.LowerCase
import RerollSync.Support.Numeral
import Mathlib.Data.List.DropRight

/-!
# Strings as Python reads them

Whitespace, case and number literals of `str`, with the tables of Unicode that the
interpreter consults as parameters.
-/

namespace RerollSync.Support

/-! ## Characters -/

/-- `str.isspace`, of one character. -/
def isSpace (c : Char) : Bool :=
  c.toNat ∈ [0x85, 0xa0, 0x1680, 0x2028, 0x2029, 0x202f, 0x205f, 0x3000] ||
    (9 ≤ c.toNat && c.toNat ≤ 13) || (0x1c ≤ c.toNat && c.toNat ≤ 0x20) ||
    (0x2000 ≤ c.toNat && c.toNat ≤ 0x200a)

/-- The byte order mark. -/
def byteOrderMark : Char := '\uFEFF'

/-- `str.upper`, by characters. -/
structure UpperCase where
  upper : Char → List Char
  ascii : ∀ c, c.toNat < 128 → upper c = [c.toUpper]
  mark : upper byteOrderMark = [byteOrderMark]

/-- `str.upper` of ASCII. -/
def UpperCase.ascii7 : UpperCase where
  upper c := [c.toUpper]
  ascii _ _ := rfl
  mark := rfl

/-- The tables of Unicode: cases, the values of decimal digits, and `str.isdigit`. -/
structure UnicodeData where
  words : WordChars
  uppercase : UpperCase
  decimal : Char → Option ℕ
  isDigit : Char → Bool

/-- The tables of ASCII. -/
def UnicodeData.ascii7 : UnicodeData where
  words := ⟨fun _ => false, fun _ => false⟩
  uppercase := .ascii7
  decimal c := if c.isDigit then some (c.toNat - 48) else none
  isDigit c := c.isDigit

/-! ## Words -/

/-- `str.strip`. -/
def strip (cs : List Char) : List Char := (cs.dropWhile isSpace).rdropWhile isSpace

/-- `str.split`, at whitespace. -/
def splitWords (cs : List Char) : List (List Char) := (cs.splitOnP isSpace).filter (· ≠ [])

/-- `s[:i]` and `s[i:]`, for the index of the first `c`; `none` when there is none. -/
def splitFirst (c : Char) (cs : List Char) : Option (List Char × List Char) :=
  if c ∈ cs then some (cs.takeWhile (· ≠ c), cs.dropWhile (· ≠ c)) else none

/-- `s[i + 1:]`, for the index of the last `c`; the whole when there is none. -/
def afterLast (c : Char) (cs : List Char) : List Char := (cs.reverse.takeWhile (· ≠ c)).reverse

/-- Without a `c` at the end. -/
def dropLast? (c : Char) (cs : List Char) : List Char :=
  if cs.getLast? = some c then cs.dropLast else cs

section Literals

variable (u : UnicodeData)

/-- `str.lower`; the lower case of characters has no surrogates. -/
def lowerChars (cs : List Char) : List Char :=
  (lower u.words (cs.map .char)).filterMap fun
    | .char c => some c
    | .surrogate _ => none

/-- `str.upper`. -/
def upperChars (cs : List Char) : List Char := cs.flatMap u.uppercase.upper

/-! ## Number literals -/

/-- The form in which a literal is read: decimal digits and spaces in ASCII, and a question
mark for what is neither. -/
def toAscii (cs : List Char) : List Char :=
  if cs.all (·.toNat < 128) then cs
  else cs.map fun c =>
    if c.toNat < 127 then c
    else if isSpace c then ' '
    else match u.decimal c with
      | some d => Nat.digitChar d
      | none => '?'

/-- The whitespace of C. -/
def isAsciiSpace (c : Char) : Bool := c ∈ [' ', '\t', '\n', '\x0b', '\x0c', '\r']

/-- The literal without the whitespace around it. -/
def literal (cs : List Char) : List Char :=
  ((toAscii u cs).dropWhile isAsciiSpace).rdropWhile isAsciiSpace

end Literals

/-- The literal without underscores, which stand between digits only; `prev` is the
character before. -/
def dropUnderscores (prev : Char) : List Char → Option (List Char)
  | [] => if prev = '_' then none else some []
  | c :: cs =>
      if c = '_' then if prev.isDigit then dropUnderscores '_' cs else none
      else if prev = '_' ∧ ¬c.isDigit then none
      else (dropUnderscores c cs).map (c :: ·)

/-- A sign and the rest. -/
def splitSign : List Char → Bool × List Char
  | '-' :: cs => (true, cs)
  | '+' :: cs => (false, cs)
  | cs => (false, cs)

/-- `MAX_DIGITS` of the float reader. -/
def maxFloatDigits : ℕ := 1000000000

/-- `sys.int_info.default_max_str_digits`. -/
def maxIntDigits : ℕ := 4300

/-- The exponent of a literal. -/
def readExponent : List Char → Option ℤ
  | [] => some 0
  | e :: cs =>
      let (negative, digits) := splitSign cs
      if (e = 'e' ∨ e = 'E') ∧ digits ≠ [] ∧ digits.all Char.isDigit then
        some (if negative then -digitsValue digits else digitsValue digits)
      else none

/-- The digits behind a point and the rest. -/
def splitFraction : List Char → List Char × List Char
  | '.' :: cs => (cs.takeWhile Char.isDigit, cs.dropWhile Char.isDigit)
  | cs => ([], cs)

/-- A decimal literal without a sign. -/
def readNumeral (negative : Bool) (cs : List Char) : Option Numeral := do
  let integer := cs.takeWhile Char.isDigit
  let (fraction, rest) := splitFraction (cs.dropWhile Char.isDigit)
  let exponent ← readExponent rest
  if integer ++ fraction ≠ [] ∧ fraction.length ≤ maxFloatDigits ∧
      ((integer ++ fraction).dropWhile (· = '0')).length ≤ maxFloatDigits then
    some ⟨negative, integer, fraction, exponent⟩
  else none

/-- The names of an infinity. -/
def infinityNames : List (List Char) := ["inf".toList, "infinity".toList]

/-- The name of a NaN. -/
def nanName : List Char := "nan".toList

/-- A float literal without underscores. -/
def readFloat (cs : List Char) : Option PyFloat :=
  let (negative, cs) := splitSign cs
  let name := cs.map Char.toLower
  if name ∈ infinityNames then some (.inf negative)
  else if name = nanName then some .nan
  else (readNumeral negative cs).map Numeral.toFloat

/-- `float`; `none` is the `ValueError`. -/
def pyFloat (u : UnicodeData) (cs : List Char) : Option PyFloat := do
  readFloat (← dropUnderscores '\x00' (literal u cs))

/-- The literals of an infinite float: its names, and the numbers too large. -/
def ReadsInfinity (u : UnicodeData) (cs : List Char) : Prop :=
  ∃ body, dropUnderscores '\x00' (literal u cs) = some body ∧ (splitSign body).1 = false ∧
    ((splitSign body).2.map Char.toLower ∈ infinityNames ∨
      (splitSign body).2.map Char.toLower ≠ nanName ∧
        ∃ x, readNumeral false (splitSign body).2 = some x ∧ floatOverflow ≤ x.magnitude)

theorem readNumeral_negative {negative : Bool} {cs : List Char} {x : Numeral}
    (h : readNumeral negative cs = some x) : x.negative = negative := by
  simp only [readNumeral, Option.bind_eq_bind, Option.bind_eq_some_iff,
    Option.ite_none_right_eq_some] at h
  obtain ⟨exponent, -, -, hx⟩ := h
  rw [← Option.some.inj hx]

theorem Numeral.toFloat_eq_inf_iff {x : Numeral} {negative : Bool} :
    x.toFloat = .inf negative ↔ x.negative = negative ∧ floatOverflow ≤ x.magnitude := by
  rw [toFloat, PyFloat.ofRat]
  split
  next hlarge => simp [hlarge]
  next hlarge => split <;> simp [hlarge]

theorem pyFloat_eq_inf_iff {u : UnicodeData} {cs : List Char} :
    pyFloat u cs = some (.inf false) ↔ ReadsInfinity u cs := by
  simp only [pyFloat, Option.bind_eq_bind, Option.bind_eq_some_iff, ReadsInfinity]
  refine exists_congr fun body => and_congr_right fun _ => ?_
  rw [readFloat]
  generalize splitSign body = split
  obtain ⟨negative, rest⟩ := split
  simp only
  by_cases hinf : rest.map Char.toLower ∈ infinityNames
  · simp [hinf]
  · by_cases hnan : rest.map Char.toLower = nanName
    · rw [if_neg hinf, if_pos hnan]
      refine ⟨nofun, fun ⟨_, hreads⟩ => ?_⟩
      rcases hreads with hname | ⟨hnumeral, -⟩
      · exact absurd hname hinf
      · exact absurd hnan hnumeral
    · rw [if_neg hinf, if_neg hnan, Option.map_eq_some_iff]
      simp only [hinf, hnan, ne_eq, not_false_iff, true_and, false_or]
      constructor
      · rintro ⟨x, hx, hfloat⟩
        obtain ⟨hsign, hlarge⟩ := Numeral.toFloat_eq_inf_iff.mp hfloat
        obtain rfl := (readNumeral_negative hx).symm.trans hsign
        exact ⟨rfl, x, hx, hlarge⟩
      · rintro ⟨rfl, x, hx, hlarge⟩
        exact ⟨x, hx, Numeral.toFloat_eq_inf_iff.mpr ⟨readNumeral_negative hx, hlarge⟩⟩

/-- `int`; `none` is the `ValueError`. -/
def pyInt (u : UnicodeData) (cs : List Char) : Option ℤ := do
  let (negative, cs) := splitSign (literal u cs)
  let digits ← dropUnderscores '\x00' cs
  if digits ≠ [] ∧ digits.all Char.isDigit ∧ digits.length ≤ maxIntDigits then
    some (if negative then -digitsValue digits else digitsValue digits)
  else none

end RerollSync.Support
