import Mathlib.Data.List.Basic
import Mathlib.Data.Int.Notation

/-!
# Strings of code points and their lower case

A Python string is a list of code points, surrogates included.  `str.lower` follows the
lower-case mapping of Unicode 15.1, a table of ranges whose code points lie one or two
apart and move by one offset; what a range moves to, no range moves again.
-/

namespace RerollSync.Support

/-- A code point: a character, or one of the surrogates, counted from U+D800, which no
encoding accepts. -/
inductive CodePoint
  | char (c : Char)
  | surrogate (n : Fin 0x800)
deriving DecidableEq

/-! ## The table -/

/-- The code points `first`, `first + step`, ..., `last`, in lower case `offset` further. -/
structure CaseRange where
  first : ℕ
  last : ℕ
  step : ℕ
  offset : ℤ

namespace CaseRange

/-- The code point is one of the range. -/
def Holds (r : CaseRange) (n : ℕ) : Prop :=
  r.first ≤ n ∧ n ≤ r.last ∧ (n - r.first) % r.step = 0

instance (r : CaseRange) (n : ℕ) : Decidable (r.Holds n) := inferInstanceAs (Decidable (_ ∧ _))

/-- What `r` moves to lies before or behind `r'`, or between its code points. -/
def Apart (r r' : CaseRange) : Prop :=
  r.last + r.offset < r'.first ∨ r'.last < r.first + r.offset ∨
    r'.step = 2 ∧ (r.step = 2 ∨ r.first = r.last) ∧ (r.first + r.offset - r'.first) % 2 = 1

instance (r r' : CaseRange) : Decidable (r.Apart r') := inferInstanceAs (Decidable (_ ∨ _))

/-- What `r` moves to is a character, and none of `-`, `.` and `_`. -/
def Letters (r : CaseRange) : Prop :=
  (0 ≤ r.first + r.offset ∧ r.last + r.offset < 0xD800 ∨
    0xDFFF < r.first + r.offset ∧ r.last + r.offset < 0x110000) ∧
    ∀ s ∈ [(0x2D : ℤ), 0x2E, 0x5F], r.last + r.offset < s ∨ s < r.first + r.offset

instance (r : CaseRange) : Decidable r.Letters := inferInstanceAs (Decidable (_ ∧ _))

theorem not_holds_of_apart {r r' : CaseRange} {n m : ℕ} (hr : r.Holds n) (hapart : r.Apart r')
    (hm : (m : ℤ) = n + r.offset) : ¬r'.Holds m := by
  rintro ⟨hfirst', hlast', hstep'⟩
  obtain ⟨hfirst, hlast, hstep⟩ := hr
  rcases hapart with hbefore | hbehind | ⟨htwo', hone, hodd⟩
  · omega
  · omega
  · rw [htwo'] at hstep'
    rcases hone with htwo | hsingle
    · rw [htwo] at hstep
      omega
    · omega

/-- `Apart` in natural numbers, which are quicker to evaluate, for a range that moves to
`low` up to `high`. -/
def isApart (low high : ℕ) (r r' : CaseRange) : Bool :=
  high.blt r'.first || r'.last.blt low ||
    r'.step == 2 && (r.step == 2 || r.first == r.last) && 0 < low && (low + r'.first) % 2 == 1

theorem apart_of_isApart {r r' : CaseRange}
    (h : isApart (r.first + r.offset).toNat (r.last + r.offset).toNat r r' = true) :
    r.Apart r' := by
  simp only [isApart, Bool.or_eq_true, Bool.and_eq_true, Nat.blt_eq, beq_iff_eq,
    decide_eq_true_eq] at h
  rw [Apart]
  omega

/-- `isApart` from every range of a block, of which the bounds are often enough to tell. -/
def isApartFrom (low high : ℕ) (r : CaseRange) (block : List CaseRange) : Bool :=
  high.blt ((block.map first).foldr min 0x110000) || ((block.map last).foldr max 0).blt low ||
    block.all (isApart low high r)

theorem isApart_of_isApartFrom {low high : ℕ} {r r' : CaseRange} {block : List CaseRange}
    (h : isApartFrom low high r block = true) (hmem : r' ∈ block) :
    isApart low high r r' = true := by
  have hbounds : (block.map first).foldr min 0x110000 ≤ r'.first ∧
      r'.last ≤ (block.map last).foldr max 0 := by
    clear h
    induction block with
    | nil => cases hmem
    | cons r block ih =>
        simp only [List.map_cons, List.foldr_cons]
        rcases List.mem_cons.mp hmem with rfl | hmem
        · exact ⟨Nat.min_le_left _ _, Nat.le_max_left _ _⟩
        · have hrest := ih hmem
          omega
  simp only [isApartFrom, Bool.or_eq_true, Nat.blt_eq, List.all_eq_true] at h
  rcases h with (hbefore | hbehind) | hall
  · simp only [isApart, Bool.or_eq_true, Nat.blt_eq]
    omega
  · simp only [isApart, Bool.or_eq_true, Nat.blt_eq]
    omega
  · exact hall r' hmem

end CaseRange

/-- The code points with a lower case of their own. -/
def lowerRanges : List CaseRange :=
  [⟨65, 90, 1, 32⟩, ⟨192, 214, 1, 32⟩, ⟨216, 222, 1, 32⟩, ⟨256, 302, 2, 1⟩, ⟨304, 304, 1, -199⟩,
   ⟨306, 310, 2, 1⟩, ⟨313, 327, 2, 1⟩, ⟨330, 374, 2, 1⟩, ⟨376, 376, 1, -121⟩, ⟨377, 381, 2, 1⟩,
   ⟨385, 385, 1, 210⟩, ⟨386, 388, 2, 1⟩, ⟨390, 390, 1, 206⟩, ⟨391, 391, 1, 1⟩,
   ⟨393, 394, 1, 205⟩, ⟨395, 395, 1, 1⟩, ⟨398, 398, 1, 79⟩, ⟨399, 399, 1, 202⟩,
   ⟨400, 400, 1, 203⟩, ⟨401, 401, 1, 1⟩, ⟨403, 403, 1, 205⟩, ⟨404, 404, 1, 207⟩,
   ⟨406, 406, 1, 211⟩, ⟨407, 407, 1, 209⟩, ⟨408, 408, 1, 1⟩, ⟨412, 412, 1, 211⟩,
   ⟨413, 413, 1, 213⟩, ⟨415, 415, 1, 214⟩, ⟨416, 420, 2, 1⟩, ⟨422, 422, 1, 218⟩,
   ⟨423, 423, 1, 1⟩, ⟨425, 425, 1, 218⟩, ⟨428, 428, 1, 1⟩, ⟨430, 430, 1, 218⟩, ⟨431, 431, 1, 1⟩,
   ⟨433, 434, 1, 217⟩, ⟨435, 437, 2, 1⟩, ⟨439, 439, 1, 219⟩, ⟨440, 440, 1, 1⟩, ⟨444, 444, 1, 1⟩,
   ⟨452, 452, 1, 2⟩, ⟨453, 453, 1, 1⟩, ⟨455, 455, 1, 2⟩, ⟨456, 456, 1, 1⟩, ⟨458, 458, 1, 2⟩,
   ⟨459, 475, 2, 1⟩, ⟨478, 494, 2, 1⟩, ⟨497, 497, 1, 2⟩, ⟨498, 500, 2, 1⟩, ⟨502, 502, 1, -97⟩,
   ⟨503, 503, 1, -56⟩, ⟨504, 542, 2, 1⟩, ⟨544, 544, 1, -130⟩, ⟨546, 562, 2, 1⟩,
   ⟨570, 570, 1, 10795⟩, ⟨571, 571, 1, 1⟩, ⟨573, 573, 1, -163⟩, ⟨574, 574, 1, 10792⟩,
   ⟨577, 577, 1, 1⟩, ⟨579, 579, 1, -195⟩, ⟨580, 580, 1, 69⟩, ⟨581, 581, 1, 71⟩, ⟨582, 590, 2, 1⟩,
   ⟨880, 882, 2, 1⟩, ⟨886, 886, 1, 1⟩, ⟨895, 895, 1, 116⟩, ⟨902, 902, 1, 38⟩, ⟨904, 906, 1, 37⟩,
   ⟨908, 908, 1, 64⟩, ⟨910, 911, 1, 63⟩, ⟨913, 929, 1, 32⟩, ⟨931, 939, 1, 32⟩, ⟨975, 975, 1, 8⟩,
   ⟨984, 1006, 2, 1⟩, ⟨1012, 1012, 1, -60⟩, ⟨1015, 1015, 1, 1⟩, ⟨1017, 1017, 1, -7⟩,
   ⟨1018, 1018, 1, 1⟩, ⟨1021, 1023, 1, -130⟩, ⟨1024, 1039, 1, 80⟩, ⟨1040, 1071, 1, 32⟩,
   ⟨1120, 1152, 2, 1⟩, ⟨1162, 1214, 2, 1⟩, ⟨1216, 1216, 1, 15⟩, ⟨1217, 1229, 2, 1⟩,
   ⟨1232, 1326, 2, 1⟩, ⟨1329, 1366, 1, 48⟩, ⟨4256, 4293, 1, 7264⟩, ⟨4295, 4295, 1, 7264⟩,
   ⟨4301, 4301, 1, 7264⟩, ⟨5024, 5103, 1, 38864⟩, ⟨5104, 5109, 1, 8⟩, ⟨7312, 7354, 1, -3008⟩,
   ⟨7357, 7359, 1, -3008⟩, ⟨7680, 7828, 2, 1⟩, ⟨7838, 7838, 1, -7615⟩, ⟨7840, 7934, 2, 1⟩,
   ⟨7944, 7951, 1, -8⟩, ⟨7960, 7965, 1, -8⟩, ⟨7976, 7983, 1, -8⟩, ⟨7992, 7999, 1, -8⟩,
   ⟨8008, 8013, 1, -8⟩, ⟨8025, 8031, 2, -8⟩, ⟨8040, 8047, 1, -8⟩, ⟨8072, 8079, 1, -8⟩,
   ⟨8088, 8095, 1, -8⟩, ⟨8104, 8111, 1, -8⟩, ⟨8120, 8121, 1, -8⟩, ⟨8122, 8123, 1, -74⟩,
   ⟨8124, 8124, 1, -9⟩, ⟨8136, 8139, 1, -86⟩, ⟨8140, 8140, 1, -9⟩, ⟨8152, 8153, 1, -8⟩,
   ⟨8154, 8155, 1, -100⟩, ⟨8168, 8169, 1, -8⟩, ⟨8170, 8171, 1, -112⟩, ⟨8172, 8172, 1, -7⟩,
   ⟨8184, 8185, 1, -128⟩, ⟨8186, 8187, 1, -126⟩, ⟨8188, 8188, 1, -9⟩, ⟨8486, 8486, 1, -7517⟩,
   ⟨8490, 8490, 1, -8383⟩, ⟨8491, 8491, 1, -8262⟩, ⟨8498, 8498, 1, 28⟩, ⟨8544, 8559, 1, 16⟩,
   ⟨8579, 8579, 1, 1⟩, ⟨9398, 9423, 1, 26⟩, ⟨11264, 11311, 1, 48⟩, ⟨11360, 11360, 1, 1⟩,
   ⟨11362, 11362, 1, -10743⟩, ⟨11363, 11363, 1, -3814⟩, ⟨11364, 11364, 1, -10727⟩,
   ⟨11367, 11371, 2, 1⟩, ⟨11373, 11373, 1, -10780⟩, ⟨11374, 11374, 1, -10749⟩,
   ⟨11375, 11375, 1, -10783⟩, ⟨11376, 11376, 1, -10782⟩, ⟨11378, 11378, 1, 1⟩,
   ⟨11381, 11381, 1, 1⟩, ⟨11390, 11391, 1, -10815⟩, ⟨11392, 11490, 2, 1⟩, ⟨11499, 11501, 2, 1⟩,
   ⟨11506, 11506, 1, 1⟩, ⟨42560, 42604, 2, 1⟩, ⟨42624, 42650, 2, 1⟩, ⟨42786, 42798, 2, 1⟩,
   ⟨42802, 42862, 2, 1⟩, ⟨42873, 42875, 2, 1⟩, ⟨42877, 42877, 1, -35332⟩, ⟨42878, 42886, 2, 1⟩,
   ⟨42891, 42891, 1, 1⟩, ⟨42893, 42893, 1, -42280⟩, ⟨42896, 42898, 2, 1⟩, ⟨42902, 42920, 2, 1⟩,
   ⟨42922, 42922, 1, -42308⟩, ⟨42923, 42923, 1, -42319⟩, ⟨42924, 42924, 1, -42315⟩,
   ⟨42925, 42925, 1, -42305⟩, ⟨42926, 42926, 1, -42308⟩, ⟨42928, 42928, 1, -42258⟩,
   ⟨42929, 42929, 1, -42282⟩, ⟨42930, 42930, 1, -42261⟩, ⟨42931, 42931, 1, 928⟩,
   ⟨42932, 42946, 2, 1⟩, ⟨42948, 42948, 1, -48⟩, ⟨42949, 42949, 1, -42307⟩,
   ⟨42950, 42950, 1, -35384⟩, ⟨42951, 42953, 2, 1⟩, ⟨42960, 42960, 1, 1⟩, ⟨42966, 42968, 2, 1⟩,
   ⟨42997, 42997, 1, 1⟩, ⟨65313, 65338, 1, 32⟩, ⟨66560, 66599, 1, 40⟩, ⟨66736, 66771, 1, 40⟩,
   ⟨66928, 66938, 1, 39⟩, ⟨66940, 66954, 1, 39⟩, ⟨66956, 66962, 1, 39⟩, ⟨66964, 66965, 1, 39⟩,
   ⟨68736, 68786, 1, 64⟩, ⟨71840, 71871, 1, 32⟩, ⟨93760, 93791, 1, 32⟩, ⟨125184, 125217, 1, 34⟩]

/-- The table in blocks of twelve ranges. -/
def lowerBlocks : List (List CaseRange) :=
  (List.range 16).map fun i => (lowerRanges.drop (12 * i)).take 12

theorem exists_mem_lowerBlocks {r : CaseRange} (hr : r ∈ lowerRanges) :
    ∃ block ∈ lowerBlocks, r ∈ block := by
  obtain ⟨i, hi, rfl⟩ := List.mem_iff_getElem.mp hr
  have hlength : lowerRanges.length < 12 * 16 := by decide +kernel
  refine ⟨_, List.mem_map_of_mem (List.mem_range.mpr (by omega : i / 12 < 16)), ?_⟩
  refine List.mem_iff_getElem.mpr ⟨i % 12, ?_, ?_⟩
  · rw [List.length_take, List.length_drop]
    omega
  · rw [List.getElem_take, List.getElem_drop]
    congr 1
    omega

theorem apart_lowerRanges : ∀ r ∈ lowerRanges, ∀ r' ∈ lowerRanges, r.Apart r' := by
  have hall : (lowerRanges.all fun r => lowerBlocks.all <| CaseRange.isApartFrom
      (r.first + r.offset).toNat (r.last + r.offset).toNat r) = true := by
    decide +kernel
  intro r hr r' hr'
  obtain ⟨block, hblock, hmem⟩ := exists_mem_lowerBlocks hr'
  have hfrom := List.all_eq_true.mp (List.all_eq_true.mp hall r hr) block hblock
  exact CaseRange.apart_of_isApart (CaseRange.isApart_of_isApartFrom hfrom hmem)

theorem letters_lowerRanges : ∀ r ∈ lowerRanges, r.Letters := by decide +kernel

/-- The lower case of a code point. -/
def lowerCode (n : ℕ) : ℕ :=
  match lowerRanges.find? fun r => r.Holds n with
  | none => n
  | some r => (n + r.offset).toNat

/-- A code point stays, or is moved by the range that holds it. -/
theorem lowerCode_cases (n : ℕ) :
    lowerCode n = n ∨ ∃ r ∈ lowerRanges, r.Holds n ∧ (lowerCode n : ℤ) = n + r.offset := by
  rw [lowerCode]
  cases hfind : lowerRanges.find? fun r => r.Holds n with
  | none => exact Or.inl rfl
  | some r =>
      have hmem := List.mem_of_find?_eq_some hfind
      have hholds : r.Holds n := by simpa using List.find?_some hfind
      refine Or.inr ⟨r, hmem, hholds, Int.toNat_of_nonneg ?_⟩
      obtain ⟨hfirst, -, -⟩ := hholds
      rcases (letters_lowerRanges r hmem).1 with hlow | hhigh
      · omega
      · omega

/-- What is in lower case stays. -/
theorem lowerCode_lowerCode (n : ℕ) : lowerCode (lowerCode n) = lowerCode n := by
  rcases lowerCode_cases n with hstay | ⟨r, hr, hholds, hmove⟩
  · rw [hstay]
    exact hstay
  · rcases lowerCode_cases (lowerCode n) with hstay | ⟨r', hr', hholds', -⟩
    · exact hstay
    · exact absurd hholds'
        (CaseRange.not_holds_of_apart hholds (apart_lowerRanges r hr r' hr') hmove)

theorem isValidChar_lowerCode {n : ℕ} (hn : n.isValidChar) : (lowerCode n).isValidChar := by
  rcases lowerCode_cases n with hstay | ⟨r, hr, ⟨hfirst, hlast, -⟩, hmove⟩
  · rwa [hstay]
  · rw [Nat.isValidChar]
    rcases (letters_lowerRanges r hr).1 with hlow | hhigh
    · omega
    · omega

/-- No code point but itself has `-`, `.` or `_` for its lower case. -/
theorem lowerCode_eq_iff {n s : ℕ} (hs : s ∈ [0x2D, 0x2E, 0x5F]) : lowerCode n = s ↔ n = s := by
  have hcast : (s : ℤ) ∈ [(0x2D : ℤ), 0x2E, 0x5F] := by
    simp only [List.mem_cons, List.not_mem_nil, or_false] at hs ⊢
    omega
  have hseparator : lowerCode s = s := by
    simp only [List.mem_cons, List.not_mem_nil, or_false] at hs
    rcases hs with rfl | rfl | rfl <;> decide
  constructor
  · intro heq
    rcases lowerCode_cases n with hstay | ⟨r, hr, ⟨hfirst, hlast, -⟩, hmove⟩
    · rw [← hstay, heq]
    · have hletters := (letters_lowerRanges r hr).2 s hcast
      omega
  · rintro rfl
    exact hseparator

/-! ## Characters and strings -/

/-- The lower case of a character.  That of `İ` is two characters. -/
def lowerChar (c : Char) : List Char :=
  Char.ofNat (lowerCode c.toNat) :: if c.toNat = 0x130 then [Char.ofNat 0x307] else []

theorem toNat_ofNat_of_isValidChar {n : ℕ} (hn : n.isValidChar) : (Char.ofNat n).toNat = n := by
  rw [Char.ofNat, dif_pos hn]
  rfl

theorem toNat_ofNat_lowerCode (c : Char) :
    (Char.ofNat (lowerCode c.toNat)).toNat = lowerCode c.toNat :=
  toNat_ofNat_of_isValidChar (isValidChar_lowerCode c.valid)

/-- A character in lower case has itself for its lower case. -/
theorem lowerChar_of_mem {c c' : Char} (h : c' ∈ lowerChar c) : lowerChar c' = [c'] := by
  have hfixed : lowerCode c'.toNat = c'.toNat ∧ c'.toNat ≠ 0x130 := by
    rcases List.mem_cons.mp h with rfl | hmark
    · rw [toNat_ofNat_lowerCode]
      refine ⟨lowerCode_lowerCode _, fun heq => ?_⟩
      have hagain := lowerCode_lowerCode c.toNat
      rw [heq] at hagain
      exact absurd hagain (by decide)
    · split at hmark
      · rw [List.mem_singleton.mp hmark]
        decide
      · exact absurd hmark List.not_mem_nil
  rw [lowerChar, hfixed.1, if_neg hfixed.2, Char.ofNat_toNat]

/-- The properties of characters a word is made of. -/
structure WordChars where
  cased : CodePoint → Bool
  caseIgnorable : CodePoint → Bool

/-- A capital sigma between these ends a word. -/
def WordChars.finalSigma (w : WordChars) (before after : List CodePoint) : Bool :=
  ((before.reverse.find? fun c => !w.caseIgnorable c).any w.cased) &&
    !((after.find? fun c => !w.caseIgnorable c).any w.cased)

/-- The lower case of a code point; a capital sigma has another at the end of a word. -/
def lowerPoint (final : Bool) : CodePoint → List CodePoint
  | .char c => if c = 'Σ' ∧ final then [.char 'ς'] else (lowerChar c).map .char
  | .surrogate n => [.surrogate n]

/-- `str.lower` behind `before`. -/
def lowerFrom (w : WordChars) (before : List CodePoint) : List CodePoint → List CodePoint
  | [] => []
  | c :: after =>
      lowerPoint (w.finalSigma before after) c ++ lowerFrom w (before ++ [c]) after

/-- `str.lower`. -/
def lower (w : WordChars) (s : List CodePoint) : List CodePoint := lowerFrom w [] s

/-- In lower case, wherever it stands. -/
def IsLower (c : CodePoint) : Prop := ∀ final, lowerPoint final c = [c]

theorem isLower_of_mem_lowerPoint {final : Bool} {c c' : CodePoint} (h : c' ∈ lowerPoint final c) :
    IsLower c' := by
  have hchar : ∀ c : Char, lowerChar c = [c] → IsLower (.char c) := by
    intro c hc final
    rw [lowerPoint, if_neg ?_, hc, List.map_singleton]
    rintro ⟨rfl, -⟩
    exact absurd hc (by decide)
  cases c with
  | surrogate n =>
      rw [List.mem_singleton.mp h]
      exact fun _ => rfl
  | char c =>
      rw [lowerPoint] at h
      split at h
      · rw [List.mem_singleton.mp h]
        exact hchar _ (by decide)
      · obtain ⟨c', hc', rfl⟩ := List.mem_map.mp h
        exact hchar c' (lowerChar_of_mem hc')

variable (w : WordChars)

theorem isLower_of_mem_lowerFrom {before s : List CodePoint} {c : CodePoint}
    (h : c ∈ lowerFrom w before s) : IsLower c := by
  induction s generalizing before with
  | nil => exact absurd h List.not_mem_nil
  | cons c' s ih =>
      rcases List.mem_append.mp h with hhead | htail
      · exact isLower_of_mem_lowerPoint hhead
      · exact ih htail

theorem lowerFrom_of_isLower {before s : List CodePoint} (h : ∀ c ∈ s, IsLower c) :
    lowerFrom w before s = s := by
  induction s generalizing before with
  | nil => rfl
  | cons c s ih =>
      obtain ⟨hc, hs⟩ := List.forall_mem_cons.mp h
      rw [lowerFrom, hc, ih hs]
      rfl

/-- `s.lower().lower() == s.lower()`. -/
theorem lower_lower (s : List CodePoint) : lower w (lower w s) = lower w s :=
  lowerFrom_of_isLower w fun _ => isLower_of_mem_lowerFrom w

/-! ## Punctuation -/

/-- The lower case of `-`, `.` and `_` is themselves, and nothing else's is one of them. -/
theorem mem_lowerPoint_iff {final : Bool} {c : CodePoint} {s : Char} (hs : s ∈ ['-', '.', '_']) :
    .char s ∈ lowerPoint final c ↔ c = .char s := by
  have hcode : s.toNat ∈ [0x2D, 0x2E, 0x5F] := List.mem_map_of_mem hs
  have hmarks : s ≠ 'ς' ∧ s ≠ Char.ofNat 0x307 ∧ s ≠ 'Σ' := by
    simp only [List.mem_cons, List.not_mem_nil, or_false] at hs
    rcases hs with rfl | rfl | rfl <;> decide
  cases c with
  | surrogate n => simp [lowerPoint]
  | char c =>
      have hletter : s = Char.ofNat (lowerCode c.toNat) ↔ c = s := by
        rw [← Char.toNat_inj, toNat_ofNat_lowerCode, eq_comm, lowerCode_eq_iff hcode,
          Char.toNat_inj]
      rw [lowerPoint, CodePoint.char.injEq]
      split
      · rename_i hsigma
        rw [hsigma.1, List.mem_singleton, CodePoint.char.injEq]
        exact iff_of_false hmarks.1 hmarks.2.2.symm
      · rw [List.mem_map_of_injective fun _ _ => CodePoint.char.inj, lowerChar, List.mem_cons,
          hletter]
        refine or_iff_left fun hmark => ?_
        split at hmark
        · exact hmarks.2.1 (List.mem_singleton.mp hmark)
        · exact absurd hmark List.not_mem_nil

theorem lowerPoint_ne_nil (final : Bool) (c : CodePoint) : lowerPoint final c ≠ [] := by
  cases c with
  | surrogate n => simp [lowerPoint]
  | char c =>
      rw [lowerPoint]
      split
      · simp
      · simp [lowerChar]

/-- A surrogate stays, and nothing becomes one. -/
theorem surrogate_mem_lowerFrom_iff {before s : List CodePoint} {n : Fin 0x800} :
    .surrogate n ∈ lowerFrom w before s ↔ .surrogate n ∈ s := by
  induction s generalizing before with
  | nil => exact Iff.rfl
  | cons c s ih =>
      rw [lowerFrom, List.mem_append, ih, List.mem_cons]
      refine or_congr_left ?_
      cases c with
      | surrogate m => exact List.mem_singleton
      | char c =>
          rw [lowerPoint]
          split
          · simp
          · simp

end RerollSync.Support
