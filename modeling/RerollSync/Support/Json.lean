import RerollSync.Support.Decoding
import RerollSync.Support.Numeral

/-!
# JSON

The values that `json.loads` returns and the scanner behind it.  A text nests its arrays
and objects as deep as it likes; the scanner recurses for each of them, up to a limit of
the interpreter, and the error it ends in there is no `ValueError`.
-/

namespace RerollSync.Support

/-! ## Values -/

/-- A value; an object has its pairs in the order of the text. -/
inductive Json
  | null
  | bool (b : Bool)
  | int (n : ℤ)
  | float (x : PyFloat)
  | str (s : List CodePoint)
  | arr (items : List Json)
  | obj (pairs : List (List CodePoint × Json))

mutual

/-- How deep the arrays and objects of a value are nested. -/
def Json.nesting : Json → ℕ
  | .arr items => nestingItems items + 1
  | .obj pairs => nestingPairs pairs + 1
  | .null | .bool _ | .int _ | .float _ | .str _ => 0

def nestingItems : List Json → ℕ
  | [] => 0
  | item :: items => max item.nesting (nestingItems items)

def nestingPairs : List (List CodePoint × Json) → ℕ
  | [] => 0
  | (_, value) :: pairs => max value.nesting (nestingPairs pairs)

end

/-- A literal of the program as a string of code points. -/
def codePoints (s : String) : List CodePoint := s.toList.map .char

/-- `dict.get`, the last of the pairs with the key. -/
def lookup (key : String) (pairs : List (List CodePoint × Json)) : Option Json :=
  (pairs.reverse.find? fun pair => pair.1 = codePoints key).map Prod.snd

/-- `bool(value)`. -/
def Json.truthy : Json → Bool
  | .null => false
  | .bool b => b
  | .int n => n ≠ 0
  | .float x => x.truthy
  | .str s => s ≠ []
  | .arr items => !items.isEmpty
  | .obj pairs => !pairs.isEmpty

/-! ## The scanner -/

/-- What `json.loads` raises. -/
inductive LoadsError
  | valueError
  | recursionError
deriving DecidableEq, Repr

/-- A value scanned from the front of a text, and what is left of the text. -/
abbrev Scan (α : Type) := Except LoadsError (α × List CodePoint)

def isJsonSpace (c : CodePoint) : Bool := c ∈ [.char ' ', .char '\t', .char '\n', .char '\r']

/-- The value of a hexadecimal digit, in either case. -/
def hexDigitValue : CodePoint → Option ℕ
  | .char c => "0123456789abcdef".toList.idxOf? c.toLower
  | .surrogate _ => none

/-- The four digits of a `\u` escape. -/
def hexQuad (a b c d : CodePoint) : Option ℕ := do
  return 4096 * (← hexDigitValue a) + 256 * (← hexDigitValue b) + 16 * (← hexDigitValue c) +
    (← hexDigitValue d)

/-- `BACKSLASH`. -/
def unescape (c : CodePoint) : Option Char :=
  (("\"\\/bfnrt".toList.map CodePoint.char).zip
    ['"', '\\', '/', '\x08', '\x0c', '\n', '\r', '\t']).lookup c

/-- A character of a string before the others, each with a mark when a `\u` escape wrote
it.  Two escapes that follow one another may be the halves of one character. -/
def joinHalves (c : CodePoint × Bool) (cs : List (CodePoint × Bool)) : List (CodePoint × Bool) :=
  match c, cs with
  | (.surrogate high, true), (.surrogate low, true) :: rest =>
      if high.val < 0x400 ∧ 0x400 ≤ low.val then
        (chr (0x10000 + 0x400 * high.val + (low.val - 0x400)), false) :: rest
      else c :: cs
  | _, _ => c :: cs

/-- The characters up to the closing quote. -/
def scanChars : List CodePoint → Scan (List (CodePoint × Bool))
  | .char '"' :: cs => .ok ([], cs)
  | .char '\\' :: .char 'u' :: a :: b :: c :: d :: cs =>
      match hexQuad a b c d with
      | none => .error .valueError
      | some n => (scanChars cs).map fun r => (joinHalves (chr n, true) r.1, r.2)
  | .char '\\' :: c :: cs =>
      match unescape c with
      | none => .error .valueError
      | some c => (scanChars cs).map fun r => ((.char c, false) :: r.1, r.2)
  | .char c :: cs =>
      if c.toNat < 0x20 ∨ c = '\\' then .error .valueError
      else (scanChars cs).map fun r => ((.char c, false) :: r.1, r.2)
  | .surrogate n :: cs => (scanChars cs).map fun r => ((.surrogate n, false) :: r.1, r.2)
  | [] => .error .valueError

/-- `scanstring`, behind the opening quote. -/
def scanString (cs : List CodePoint) : Scan (List CodePoint) :=
  (scanChars cs).map fun r => (r.1.map Prod.fst, r.2)

/-- The digits at the front of a text. -/
def digitRun : List CodePoint → List Char × List CodePoint
  | .char c :: cs =>
      if c.isDigit then (c :: (digitRun cs).1, (digitRun cs).2) else ([], .char c :: cs)
  | cs => ([], cs)

/-- `0`, or digits that do not begin with it. -/
def integerPart : List CodePoint → List Char × List CodePoint
  | .char '0' :: cs => (['0'], cs)
  | cs => digitRun cs

/-- A point and digits. -/
def fractionPart : List CodePoint → List Char × List CodePoint
  | .char '.' :: cs => if (digitRun cs).1 = [] then ([], .char '.' :: cs) else digitRun cs
  | cs => ([], cs)

/-- A sign that may stand before digits, and the rest. -/
def signPart : List CodePoint → Bool × List CodePoint
  | .char '-' :: cs => (true, cs)
  | .char '+' :: cs => (false, cs)
  | cs => (false, cs)

/-- An `e`, a sign and digits. -/
def exponentPart : List CodePoint → Option ℤ × List CodePoint
  | .char c :: cs =>
      let (negative, rest) := signPart cs
      let (digits, rest) := digitRun rest
      if (c = 'e' ∨ c = 'E') ∧ digits ≠ [] then
        (some (if negative then -digitsValue digits else digitsValue digits), rest)
      else (none, .char c :: cs)
  | cs => (none, cs)

/-- A minus sign, and the rest. -/
def minusPart : List CodePoint → Bool × List CodePoint
  | .char '-' :: cs => (true, cs)
  | cs => (false, cs)

/-- `match_number`; an integer has at most `maxDigits` digits. -/
def scanNumber (maxDigits : ℕ) (cs : List CodePoint) : Scan Json :=
  let (negative, rest) := minusPart cs
  let (integer, rest) := integerPart rest
  let (fraction, rest) := fractionPart rest
  let (exponent, rest) := exponentPart rest
  if integer = [] then .error .valueError
  else if fraction = [] ∧ exponent = none then
    if maxDigits < integer.length then .error .valueError
    else
      let n : ℤ := digitsValue integer
      .ok (.int (if negative then -n else n), rest)
  else .ok (.float (Numeral.toFloat ⟨negative, integer, fraction, exponent.getD 0⟩), rest)

/-- The names of values. -/
def literals : List (String × Json) :=
  [("null", .null), ("true", .bool true), ("false", .bool false), ("NaN", .float .nan),
   ("Infinity", .float (.inf false)), ("-Infinity", .float (.inf true))]

/-- A name, or a number. -/
def scanLiteral (maxDigits : ℕ) (cs : List CodePoint) : Scan Json :=
  match literals.find? fun l => (codePoints l.1).isPrefixOf cs with
  | some l => .ok (l.2, cs.drop l.1.length)
  | none => scanNumber maxDigits cs

section Containers

/-- The loops of `parse_array` and `parse_object`, with a turn for each character: what they
scan is separated by commas. -/
def scanSeparated {α : Type} (scan : List CodePoint → Scan α) (close : Char) :
    ℕ → List CodePoint → Scan (List α)
  | 0, _ => .error .valueError
  | turns + 1, cs =>
      match scan cs with
      | .error e => .error e
      | .ok (item, rest) =>
          match rest.dropWhile isJsonSpace with
          | .char c :: rest =>
              if c = close then .ok ([item], rest)
              else if c = ',' then
                (scanSeparated scan close turns (rest.dropWhile isJsonSpace)).map fun r =>
                  (item :: r.1, r.2)
              else .error .valueError
          | _ => .error .valueError

/-- Nothing, or the loop, behind an opening bracket. -/
def scanClosed {α : Type} (scan : List CodePoint → Scan α) (close : Char) (cs : List CodePoint) :
    Scan (List α) :=
  let cs := cs.dropWhile isJsonSpace
  if cs.head? = some (.char close) then .ok ([], cs.tail)
  else scanSeparated scan close cs.length cs

variable (scan : List CodePoint → Scan Json)

/-- `parse_array`, behind the bracket. -/
def scanArray : List CodePoint → Scan (List Json) := scanClosed scan ']'

/-- A key, a colon and a value. -/
def scanPair : List CodePoint → Scan (List CodePoint × Json)
  | .char '"' :: cs =>
      match scanString cs with
      | .error e => .error e
      | .ok (key, rest) =>
          match rest.dropWhile isJsonSpace with
          | .char ':' :: rest =>
              (scan (rest.dropWhile isJsonSpace)).map fun r => ((key, r.1), r.2)
          | _ => .error .valueError
  | _ => .error .valueError

/-- `parse_object`, behind the brace. -/
def scanObject : List CodePoint → Scan (List (List CodePoint × Json)) :=
  scanClosed (scanPair scan) '}'

end Containers

/-- What is not a container. -/
def scanLeaf (maxDigits : ℕ) : List CodePoint → Scan Json
  | .char '"' :: cs => (scanString cs).map fun r => (.str r.1, r.2)
  | cs => scanLiteral maxDigits cs

/-- `scan_once`, with what is left of the limit on recursion. -/
def scanOnce (maxDigits : ℕ) : ℕ → List CodePoint → Scan Json
  | 0, .char '[' :: _ | 0, .char '{' :: _ => .error .recursionError
  | depth + 1, .char '[' :: cs =>
      (scanArray (scanOnce maxDigits depth) cs).map fun r => (.arr r.1, r.2)
  | depth + 1, .char '{' :: cs =>
      (scanObject (scanOnce maxDigits depth) cs).map fun r => (.obj r.1, r.2)
  | _, cs => scanLeaf maxDigits cs

/-- `JSONDecoder.decode`. -/
def decode (maxDigits depth : ℕ) (cs : List CodePoint) : Except LoadsError Json :=
  match scanOnce maxDigits depth (cs.dropWhile isJsonSpace) with
  | .error e => .error e
  | .ok (value, rest) =>
      if rest.dropWhile isJsonSpace = [] then .ok value else .error .valueError

/-- `json.loads` of bytes. -/
def loads (maxDigits depth : ℕ) (bytes : List UInt8) : Except LoadsError Json :=
  match decodeDetected bytes with
  | none => .error .valueError
  | some cs => decode maxDigits depth cs

/-! ## The limit on recursion -/

/-- A scanner under a limit, compared with one that got to an end: it returns the same, or
stops at the limit when what it would return is nested deeper. -/
def Agrees {α : Type} (nesting : α → ℕ) (depth : ℕ) (scan scan' : List CodePoint → Scan α) : Prop :=
  ∀ cs value rest, scan' cs = .ok (value, rest) →
    (nesting value ≤ depth → scan cs = .ok (value, rest)) ∧
    (depth < nesting value → scan cs = .error .recursionError)

theorem map_eq_ok_iff {α β : Type} {x : Scan α} {f : α → β} {b : β} {rest : List CodePoint} :
    (x.map fun r => (f r.1, r.2)) = .ok (b, rest) ↔ ∃ a, x = .ok (a, rest) ∧ f a = b := by
  rcases x with e | ⟨a, rest'⟩
  · simp [Except.map]
  · simp [Except.map, and_comm]

/-- The most that `f` is on a list. -/
def deepest {α : Type} (f : α → ℕ) (l : List α) : ℕ := (l.map f).foldr max 0

theorem nesting_arr (items : List Json) :
    (Json.arr items).nesting = deepest Json.nesting items + 1 := by
  have hitems : ∀ items, nestingItems items = deepest Json.nesting items := by
    intro items
    induction items with
    | nil => rfl
    | cons item items ih => exact congrArg (max item.nesting) ih
  exact congrArg (· + 1) (hitems items)

theorem nesting_obj (pairs : List (List CodePoint × Json)) :
    (Json.obj pairs).nesting = deepest (fun pair => pair.2.nesting) pairs + 1 := by
  have hpairs : ∀ pairs, nestingPairs pairs = deepest (fun pair => pair.2.nesting) pairs := by
    intro pairs
    induction pairs with
    | nil => rfl
    | cons pair pairs ih => exact congrArg (max pair.2.nesting) ih
  exact congrArg (· + 1) (hpairs pairs)

section Agrees

variable {α : Type} {nesting : α → ℕ} {depth : ℕ}

theorem Agrees.scanSeparated {scan scan' : List CodePoint → Scan α}
    (h : Agrees nesting depth scan scan') (close : Char) (turns : ℕ) :
    Agrees (deepest nesting) depth (scanSeparated scan close turns)
      (scanSeparated scan' close turns) := by
  induction turns with
  | zero => intro cs items rest hok; cases hok
  | succ turns ih =>
      intro cs items rest hok
      rw [Support.scanSeparated] at hok
      rcases hitem : scan' cs with e | ⟨item, rest'⟩
      · simp [hitem] at hok
      obtain ⟨hshallow, hdeep⟩ := h cs item rest' hitem
      simp only [hitem] at hok
      split at hok
      · next c tail hcons =>
        by_cases hclose : c = close
        · obtain ⟨rfl, rfl⟩ : [item] = items ∧ tail = rest := by simpa [hclose] using hok
          refine ⟨fun hle => ?_, fun hlt => ?_⟩
          · simp [Support.scanSeparated, hshallow (by simpa [deepest] using hle), hcons, hclose]
          · simp [Support.scanSeparated, hdeep (by simpa [deepest] using hlt)]
        rw [if_neg hclose] at hok
        by_cases hcomma : c = ','
        · subst hcomma
          rw [if_pos rfl] at hok
          obtain ⟨items', hitems, rfl⟩ := map_eq_ok_iff.mp hok
          obtain ⟨hshallow', hdeep'⟩ := ih _ _ _ hitems
          have hmax : deepest nesting (item :: items') =
              max (nesting item) (deepest nesting items') := rfl
          rw [hmax, max_le_iff, lt_max_iff]
          refine ⟨fun hle => ?_, fun hlt => ?_⟩
          · simp [Support.scanSeparated, hshallow hle.1, hcons, hclose, hshallow' hle.2,
              Except.map]
          · by_cases hitem' : depth < nesting item
            · simp [Support.scanSeparated, hdeep hitem']
            · simp [Support.scanSeparated, hshallow (Nat.not_lt.mp hitem'), hcons, hclose,
                hdeep' (hlt.resolve_left hitem'), Except.map]
        · rw [if_neg hcomma] at hok
          cases hok
      · cases hok

theorem Agrees.scanClosed {scan scan' : List CodePoint → Scan α}
    (h : Agrees nesting depth scan scan') (close : Char) :
    Agrees (deepest nesting) depth (scanClosed scan close) (scanClosed scan' close) := by
  intro cs items rest hok
  simp only [Support.scanClosed] at hok ⊢
  split at hok
  · next hclose =>
    obtain ⟨rfl, -⟩ : [] = items ∧ _ := by simpa using hok
    simpa [hclose, deepest] using hok
  · next hopen =>
    rw [if_neg hopen]
    exact h.scanSeparated close _ _ _ _ hok

theorem Agrees.scanPair {scan scan' : List CodePoint → Scan Json}
    (h : Agrees Json.nesting depth scan scan') :
    Agrees (fun pair : List CodePoint × Json => pair.2.nesting) depth (scanPair scan)
      (scanPair scan') := by
  intro cs pair rest hok
  rw [Support.scanPair.eq_def] at hok ⊢
  split at hok
  · next cs' =>
    rcases hkey : scanString cs' with e | ⟨key, rest'⟩
    · simp [hkey] at hok
    simp only [hkey] at hok ⊢
    split at hok
    · next tail hcolon =>
      obtain ⟨value, hvalue, rfl⟩ := map_eq_ok_iff.mp hok
      obtain ⟨hshallow, hdeep⟩ := h _ _ _ hvalue
      exact ⟨fun hle => by simp [hshallow hle, Except.map],
        fun hlt => by simp [hdeep hlt, Except.map]⟩
    · cases hok
  · cases hok

end Agrees

/-- A container, scanned with one level less. -/
theorem Agrees.container {α : Type} {nesting : α → ℕ} {depth : ℕ}
    {scan scan' : List CodePoint → Scan α} (h : Agrees nesting depth scan scan') (wrap : α → Json)
    (hwrap : ∀ a, (wrap a).nesting = nesting a + 1) :
    Agrees Json.nesting (depth + 1) (fun cs => (scan cs).map fun r => (wrap r.1, r.2))
      fun cs => (scan' cs).map fun r => (wrap r.1, r.2) := by
  intro cs value rest hok
  obtain ⟨a, ha, rfl⟩ := map_eq_ok_iff.mp hok
  obtain ⟨hshallow, hdeep⟩ := h cs a rest ha
  rw [hwrap, Nat.add_le_add_iff_right, Nat.add_lt_add_iff_right]
  exact ⟨fun hle => by simp [hshallow hle, Except.map],
    fun hlt => by simp [hdeep hlt, Except.map]⟩

/-- A number has no nesting. -/
theorem nesting_of_scanLiteral {maxDigits : ℕ} {cs rest : List CodePoint} {value : Json}
    (h : scanLiteral maxDigits cs = .ok (value, rest)) : value.nesting = 0 := by
  rw [scanLiteral] at h
  split at h
  · next l hl =>
    have hmem := List.mem_of_find?_eq_some hl
    obtain ⟨rfl, -⟩ : l.2 = value ∧ _ := by simpa using h
    revert hmem
    simp only [literals, List.mem_cons, List.not_mem_nil, or_false]
    rintro (rfl | rfl | rfl | rfl | rfl | rfl) <;> rfl
  · simp only [scanNumber] at h
    split at h
    · cases h
    · split at h
      · split at h
        · cases h
        · obtain ⟨rfl, -⟩ : _ = value ∧ _ := by simpa using h
          rfl
      · obtain ⟨rfl, -⟩ : _ = value ∧ _ := by simpa using h
        rfl

theorem nesting_of_scanLeaf {maxDigits : ℕ} {cs rest : List CodePoint} {value : Json}
    (h : scanLeaf maxDigits cs = .ok (value, rest)) : value.nesting = 0 := by
  rw [scanLeaf.eq_def] at h
  split at h
  · obtain ⟨s, -, rfl⟩ := map_eq_ok_iff.mp h
    rfl
  · exact nesting_of_scanLiteral h

theorem scanOnce_bracket (maxDigits depth : ℕ) (cs : List CodePoint) :
    scanOnce maxDigits (depth + 1) (.char '[' :: cs) =
      (scanArray (scanOnce maxDigits depth) cs).map fun r => (.arr r.1, r.2) :=
  rfl

theorem scanOnce_brace (maxDigits depth : ℕ) (cs : List CodePoint) :
    scanOnce maxDigits (depth + 1) (.char '{' :: cs) =
      (scanObject (scanOnce maxDigits depth) cs).map fun r => (.obj r.1, r.2) :=
  rfl

/-- A text that does not begin with a bracket is scanned without the limit. -/
theorem scanOnce_cases (maxDigits : ℕ) (cs : List CodePoint) :
    (∃ cs', cs = .char '[' :: cs') ∨ (∃ cs', cs = .char '{' :: cs') ∨
      ∀ depth, scanOnce maxDigits depth cs = scanLeaf maxDigits cs := by
  by_cases harray : ∃ cs', cs = .char '[' :: cs'
  · exact .inl harray
  by_cases hobject : ∃ cs', cs = .char '{' :: cs'
  · exact .inr (.inl hobject)
  refine .inr (.inr fun depth => ?_)
  rw [scanOnce.eq_def]
  split
  · next cs' => exact absurd ⟨cs', rfl⟩ harray
  · next cs' => exact absurd ⟨cs', rfl⟩ hobject
  · next cs' => exact absurd ⟨cs', rfl⟩ harray
  · next cs' => exact absurd ⟨cs', rfl⟩ hobject
  · rfl

/-- Two limits, compared. -/
theorem agrees_scanOnce (maxDigits depth depth' : ℕ) :
    Agrees Json.nesting depth (scanOnce maxDigits depth) (scanOnce maxDigits depth') := by
  induction depth' generalizing depth with
  | zero =>
      intro cs value rest hok
      rcases scanOnce_cases maxDigits cs with ⟨cs', rfl⟩ | ⟨cs', rfl⟩ | hleaf
      · cases hok
      · cases hok
      · rw [hleaf] at hok ⊢
        rw [nesting_of_scanLeaf hok]
        exact ⟨fun _ => hok, fun hlt => absurd hlt (Nat.not_lt_zero _)⟩
  | succ depth' ih =>
      intro cs value rest hok
      rcases scanOnce_cases maxDigits cs with ⟨cs', rfl⟩ | ⟨cs', rfl⟩ | hleaf
      · cases depth with
        | zero =>
            obtain ⟨items, -, rfl⟩ := map_eq_ok_iff.mp hok
            exact ⟨fun hle => absurd hle (Nat.not_succ_le_zero _), fun _ => rfl⟩
        | succ depth =>
            exact ((ih depth).scanClosed ']').container .arr nesting_arr cs' value rest hok
      · cases depth with
        | zero =>
            obtain ⟨pairs, -, rfl⟩ := map_eq_ok_iff.mp hok
            exact ⟨fun hle => absurd hle (Nat.not_succ_le_zero _), fun _ => rfl⟩
        | succ depth =>
            exact ((ih depth).scanPair.scanClosed '}').container .obj nesting_obj cs' value rest hok
      · rw [hleaf] at hok ⊢
        rw [nesting_of_scanLeaf hok]
        exact ⟨fun _ => hok, fun hlt => absurd hlt (Nat.not_lt_zero _)⟩

/-- A text that stands for a value under some limit ends at the limit exactly when its
arrays and objects are nested deeper. -/
theorem loads_eq_recursionError_iff {maxDigits depth' : ℕ} {bytes : List UInt8} {value : Json}
    (h : loads maxDigits depth' bytes = .ok value) (depth : ℕ) :
    loads maxDigits depth bytes = .error .recursionError ↔ depth < value.nesting := by
  rw [loads] at h ⊢
  rcases hcs : decodeDetected bytes with _ | cs
  · simp [hcs] at h
  simp only [hcs, decode] at h ⊢
  rcases hscan : scanOnce maxDigits depth' (cs.dropWhile isJsonSpace) with e | ⟨v, rest⟩
  · simp [hscan] at h
  simp only [hscan] at h
  split at h
  · next hrest =>
    obtain rfl : v = value := by simpa using h
    obtain ⟨hshallow, hdeep⟩ := agrees_scanOnce maxDigits depth depth' _ _ _ hscan
    by_cases hlt : depth < v.nesting
    · simp [hdeep hlt, hlt]
    · simp [hshallow (Nat.not_lt.mp hlt), hlt, hrest]
  · cases h

end RerollSync.Support
