import RerollSync.Support.Dotted
import RerollSync.Support.JsonString

/-!
# JSON texts

What `json.dumps` writes, `json.loads` reads: the value itself, when its strings are read
back as they are and its arrays and objects are not nested past the decoder's limit.
-/

namespace RerollSync.Support

/-! ## Writing -/

/-- `int.__repr__`. -/
def intText (n : ℤ) : List Char :=
  if n < 0 then '-' :: decimals n.natAbs else decimals n.natAbs

def boolText (b : Bool) : List Char := if b then "true".toList else "false".toList

/-- `item_separator`. -/
def comma : List Char := [',', ' ']

/-- `key_separator`. -/
def colon : List Char := [':', ' ']

section Dumps

-- `float.__repr__`, of a number
variable (repr : ℚ → List Char)

/-- `floatstr`. -/
def floatText : PyFloat → List Char
  | .nan => "NaN".toList
  | .inf negative => if negative then "-Infinity".toList else "Infinity".toList
  | .finite q => repr q

mutual

/-- `json.dumps`. -/
def dumps : Json → List Char
  | .null => ['n', 'u', 'l', 'l']
  | .bool b => boolText b
  | .int n => intText n
  | .float x => floatText repr x
  | .str s => quote s
  | .arr items => '[' :: (dumpsItems items ++ [']'])
  | .obj pairs => '{' :: (dumpsPairs pairs ++ ['}'])

def dumpsItems : List Json → List Char
  | [] => []
  | item :: items => dumps item ++ dumpsMoreItems items

def dumpsMoreItems : List Json → List Char
  | [] => []
  | item :: items => comma ++ dumps item ++ dumpsMoreItems items

def dumpsPairs : List (List CodePoint × Json) → List Char
  | [] => []
  | (key, value) :: pairs => quote key ++ colon ++ dumps value ++ dumpsMorePairs pairs

def dumpsMorePairs : List (List CodePoint × Json) → List Char
  | [] => []
  | (key, value) :: pairs => comma ++ quote key ++ colon ++ dumps value ++ dumpsMorePairs pairs

end

end Dumps

/-! ## What is read back -/

mutual

/-- The value that is read back. -/
def Json.rejoined : Json → Json
  | .str s => .str (rejoin s)
  | .arr items => .arr (rejoinedItems items)
  | .obj pairs => .obj (rejoinedPairs pairs)
  | .null => .null
  | .bool b => .bool b
  | .int n => .int n
  | .float x => .float x

def rejoinedItems : List Json → List Json
  | [] => []
  | item :: items => item.rejoined :: rejoinedItems items

def rejoinedPairs : List (List CodePoint × Json) → List (List CodePoint × Json)
  | [] => []
  | (key, value) :: pairs => (rejoin key, value.rejoined) :: rejoinedPairs pairs

end

mutual

/-- The integers have at most `maxDigits` digits, and there are no floats but those that
are not numbers. -/
def Json.Fits (maxDigits : ℕ) : Json → Prop
  | .int n => (decimals n.natAbs).length ≤ maxDigits
  | .float x => ∀ q, x ≠ .finite q
  | .arr items => FitsItems maxDigits items
  | .obj pairs => FitsPairs maxDigits pairs
  | .null => True
  | .bool _ => True
  | .str _ => True

def FitsItems (maxDigits : ℕ) : List Json → Prop
  | [] => True
  | item :: items => item.Fits maxDigits ∧ FitsItems maxDigits items

def FitsPairs (maxDigits : ℕ) : List (List CodePoint × Json) → Prop
  | [] => True
  | (_, value) :: pairs => value.Fits maxDigits ∧ FitsPairs maxDigits pairs

end

/-! ## Induction -/

theorem le_deepest {α : Type} {f : α → ℕ} {l : List α} {a : α} (h : a ∈ l) :
    f a ≤ deepest f l := by
  induction l with
  | nil => cases h
  | cons b l ih =>
      have hcons : deepest f (b :: l) = max (f b) (deepest f l) := rfl
      rw [hcons]
      rcases List.mem_cons.mp h with rfl | hmem
      · exact le_max_left _ _
      · exact (ih hmem).trans (le_max_right _ _)

/-- Induction on a value, with the items of its arrays and the values of its objects. -/
theorem Json.induction {motive : Json → Prop}
    (leaf : ∀ value, (∀ items, value ≠ .arr items) → (∀ pairs, value ≠ .obj pairs) → motive value)
    (arr : ∀ items, (∀ item ∈ items, motive item) → motive (.arr items))
    (obj : ∀ pairs : List (List CodePoint × Json),
      (∀ pair ∈ pairs, motive pair.2) → motive (.obj pairs))
    (value : Json) : motive value := by
  obtain ⟨depth, hdepth⟩ : ∃ depth, value.nesting ≤ depth := ⟨_, le_rfl⟩
  induction depth generalizing value with
  | zero =>
      refine leaf value ?_ ?_
      · rintro items rfl
        exact absurd hdepth (Nat.not_succ_le_zero _)
      · rintro pairs rfl
        exact absurd hdepth (Nat.not_succ_le_zero _)
  | succ depth ih =>
      by_cases harr : ∃ items, value = .arr items
      · obtain ⟨items, rfl⟩ := harr
        rw [nesting_arr, Nat.add_le_add_iff_right] at hdepth
        exact arr items fun item hitem => ih item ((le_deepest hitem).trans hdepth)
      by_cases hobj : ∃ pairs, value = .obj pairs
      · obtain ⟨pairs, rfl⟩ := hobj
        rw [nesting_obj, Nat.add_le_add_iff_right] at hdepth
        exact obj pairs fun pair hpair => ih pair.2 ((le_deepest hpair).trans hdepth)
      · exact leaf value (fun items heq => harr ⟨items, heq⟩) fun pairs heq => hobj ⟨pairs, heq⟩

/-! ## Numbers -/

/-- What may follow a value in a text. -/
def Closed (rest : List CodePoint) : Prop :=
  ∀ c tail, rest = c :: tail → c ∈ [CodePoint.char ',', .char ']', .char '}']

theorem closed_nil : Closed [] := fun _ _ h => nomatch h

theorem closed_cons {c : Char} (h : c ∈ [',', ']', '}']) (tail : List CodePoint) :
    Closed (.char c :: tail) := by
  rintro c' tail' heq
  obtain ⟨rfl, rfl⟩ : .char c = c' ∧ tail = tail' := by simpa using heq
  simpa using h

theorem Closed.digitRun {rest : List CodePoint} (h : Closed rest) : digitRun rest = ([], rest) := by
  cases rest with
  | nil => rfl
  | cons c tail =>
      have hmem := h c tail rfl
      simp only [List.mem_cons, List.not_mem_nil, or_false] at hmem
      rcases hmem with rfl | rfl | rfl <;> rfl

theorem Closed.fractionPart {rest : List CodePoint} (h : Closed rest) :
    fractionPart rest = ([], rest) := by
  cases rest with
  | nil => rfl
  | cons c tail =>
      have hmem := h c tail rfl
      simp only [List.mem_cons, List.not_mem_nil, or_false] at hmem
      rcases hmem with rfl | rfl | rfl <;> rfl

theorem Closed.exponentPart {rest : List CodePoint} (h : Closed rest) :
    exponentPart rest = (none, rest) := by
  cases rest with
  | nil => rfl
  | cons c tail =>
      have hmem := h c tail rfl
      simp only [List.mem_cons, List.not_mem_nil, or_false] at hmem
      rcases hmem with rfl | rfl | rfl <;> simp [Support.exponentPart]

theorem digitRun_append {digits : List Char} {rest : List CodePoint}
    (h : ∀ c ∈ digits, c.isDigit = true) (hrest : Closed rest) :
    digitRun (digits.map .char ++ rest) = (digits, rest) := by
  induction digits with
  | nil => exact hrest.digitRun
  | cons c digits ih =>
      obtain ⟨hc, hdigits⟩ := List.forall_mem_cons.mp h
      rw [List.map_cons, List.cons_append, digitRun, if_pos hc, ih hdigits]

theorem digitsValue_append (l : List Char) (c : Char) :
    digitsValue (l ++ [c]) = 10 * digitsValue l + (c.toNat - 48) := by
  simp [digitsValue]

theorem digitsValue_decimals (n : ℕ) : digitsValue (decimals n) = n := by
  induction n using Nat.strong_induction_on with
  | _ n ih =>
      by_cases hn : n < 10
      · rw [decimals_of_lt hn]
        have hchar := Nat.toNat_digitChar_of_lt_ten hn
        simp only [digitsValue, List.foldl_cons, List.foldl_nil]
        omega
      · have hdiv : n / 10 < n := by omega
        have hchar := Nat.toNat_digitChar_of_lt_ten (Nat.mod_lt n (by decide : 0 < 10))
        rw [decimals_eq_append (Nat.le_of_not_lt hn), digitsValue_append, ih _ hdiv, hchar]
        omega

theorem head_decimals_ne {n : ℕ} (h : 0 < n) : (decimals n).head? ≠ some '0' := by
  induction n using Nat.strong_induction_on with
  | _ n ih =>
      by_cases hn : n < 10
      · have hall : ∀ m < 10, 0 < m → some m.digitChar ≠ some '0' := by decide
        rw [decimals_of_lt hn]
        exact hall n hn h
      · have hdiv : n / 10 < n := by omega
        rw [decimals_eq_append (Nat.le_of_not_lt hn),
          List.head?_append_of_ne_nil _ (decimals_ne_nil _)]
        exact ih _ hdiv (by omega)

theorem integerPart_decimals (n : ℕ) {rest : List CodePoint} (hrest : Closed rest) :
    integerPart ((decimals n).map .char ++ rest) = (decimals n, rest) := by
  rcases Nat.eq_zero_or_pos n with rfl | hpos
  · rfl
  · have hhead := head_decimals_ne hpos
    have hdigits : ∀ c ∈ decimals n, c.isDigit = true := fun c hc => isDigit_of_mem_decimals hc
    rw [integerPart.eq_def]
    split
    · next cs heq =>
      obtain ⟨c, tail, hcons⟩ := List.exists_cons_of_ne_nil (decimals_ne_nil n)
      rw [hcons, List.map_cons, List.cons_append] at heq
      obtain ⟨hc, -⟩ := List.cons.inj heq
      rw [hcons, CodePoint.char.inj hc] at hhead
      exact absurd rfl hhead
    · exact digitRun_append hdigits hrest

/-- The decimals of an integer, behind its sign. -/
theorem scanNumber_decimals {maxDigits : ℕ} {n : ℤ} {rest : List CodePoint}
    (hn : (decimals n.natAbs).length ≤ maxDigits) (hrest : Closed rest) :
    scanNumber maxDigits ((intText n).map .char ++ rest) = .ok (.int n, rest) := by
  have hminus : minusPart ((intText n).map .char ++ rest) =
      (decide (n < 0), (decimals n.natAbs).map .char ++ rest) := by
    by_cases hneg : n < 0
    · rw [intText, if_pos hneg]
      simp [minusPart, hneg]
    · rw [intText, if_neg hneg]
      obtain ⟨c, tail, hcons⟩ := List.exists_cons_of_ne_nil (decimals_ne_nil n.natAbs)
      have hdigit : c.isDigit := isDigit_of_mem_decimals (hcons ▸ List.mem_cons_self)
      have hne : c ≠ '-' := by rintro rfl; cases hdigit
      rw [hcons, minusPart.eq_def]
      simp_all
  have hvalue : (if decide (n < 0) = true then -(n.natAbs : ℤ) else (n.natAbs : ℤ)) = n := by
    by_cases hneg : n < 0
    · simp only [hneg, decide_true, if_true]
      omega
    · simp only [hneg, decide_false, Bool.false_eq_true, if_false]
      omega
  simp only [scanNumber, hminus, integerPart_decimals _ hrest, hrest.fractionPart,
    hrest.exponentPart, decimals_ne_nil, if_false, and_self, if_true, digitsValue_decimals, hvalue]
  rw [if_neg (Nat.not_lt.mpr hn)]

/-! ## Leaves -/

/-- A text that begins with a digit, or with a sign and a digit, begins with no name. -/
theorem find_literals_eq_none {d : Char} (hd : d.isDigit = true) (cs : List CodePoint) :
    (literals.find? fun l => (codePoints l.1).isPrefixOf (.char d :: cs)) = none ∧
      (literals.find? fun l => (codePoints l.1).isPrefixOf (.char '-' :: .char d :: cs)) =
        none := by
  have hne : ∀ c : Char, c.isDigit = false → c ≠ d := fun c hc heq => by
    rw [heq, hd] at hc
    cases hc
  have hminus := hne '-' rfl
  have hn := hne 'n' rfl
  have ht := hne 't' rfl
  have hf := hne 'f' rfl
  have hN := hne 'N' rfl
  have hI := hne 'I' rfl
  simp [literals, codePoints, List.isPrefixOf, hminus, hn, ht, hf, hN, hI]

theorem scanLiteral_intText {maxDigits : ℕ} {n : ℤ} {rest : List CodePoint}
    (hn : (decimals n.natAbs).length ≤ maxDigits) (hrest : Closed rest) :
    scanLiteral maxDigits ((intText n).map .char ++ rest) = .ok (.int n, rest) := by
  obtain ⟨d, tail, hcons⟩ := List.exists_cons_of_ne_nil (decimals_ne_nil n.natAbs)
  have hdigit : d.isDigit := isDigit_of_mem_decimals (hcons ▸ List.mem_cons_self)
  have hfind : (literals.find? fun l =>
      (codePoints l.1).isPrefixOf ((intText n).map .char ++ rest)) = none := by
    rw [intText]
    split
    · rw [hcons]
      exact (find_literals_eq_none hdigit _).2
    · rw [hcons]
      exact (find_literals_eq_none hdigit _).1
  rw [scanLiteral, hfind]
  exact scanNumber_decimals hn hrest

/-- The names of values are read as these. -/
theorem scanLiteral_name {name : String} {value : Json} (h : (name, value) ∈ literals)
    (maxDigits : ℕ) (rest : List CodePoint) :
    scanLiteral maxDigits (name.toList.map .char ++ rest) = .ok (value, rest) := by
  simp only [literals, List.mem_cons, Prod.mk.injEq, List.not_mem_nil, or_false] at h
  rcases h with ⟨rfl, rfl⟩ | ⟨rfl, rfl⟩ | ⟨rfl, rfl⟩ | ⟨rfl, rfl⟩ | ⟨rfl, rfl⟩ | ⟨rfl, rfl⟩ <;>
    (simp [scanLiteral, literals, codePoints, List.isPrefixOf]; rfl)

/-! ## Lists -/

/-- Texts, each behind a comma. -/
def commaPrefixed (texts : List (List Char)) : List Char := texts.flatMap (comma ++ ·)

/-- Texts with commas between them. -/
def commaSeparated : List (List Char) → List Char
  | [] => []
  | text :: texts => text ++ commaPrefixed texts

theorem commaSeparated_singleton (text : List Char) : commaSeparated [text] = text := by
  simp [commaSeparated, commaPrefixed]

theorem commaSeparated_cons_cons (text text' : List Char) (texts : List (List Char)) :
    commaSeparated (text :: text' :: texts) =
      text ++ (comma ++ commaSeparated (text' :: texts)) := by
  simp [commaSeparated, commaPrefixed]

section Dumps

variable (repr : ℚ → List Char)

/-- A pair of an object. -/
def dumpsPair (pair : List CodePoint × Json) : List Char :=
  quote pair.1 ++ colon ++ dumps repr pair.2

theorem dumps_arr (items : List Json) :
    dumps repr (.arr items) = '[' :: (commaSeparated (items.map (dumps repr)) ++ [']']) := by
  have hmore : ∀ items, dumpsMoreItems repr items = commaPrefixed (items.map (dumps repr)) := by
    intro items
    induction items with
    | nil => rfl
    | cons item items ih => exact congrArg (comma ++ dumps repr item ++ ·) ih
  cases items with
  | nil => rfl
  | cons item items =>
      exact congrArg (fun more => '[' :: ((dumps repr item ++ more) ++ [']'])) (hmore items)

theorem dumps_obj (pairs : List (List CodePoint × Json)) :
    dumps repr (.obj pairs) =
      '{' :: (commaSeparated (pairs.map (dumpsPair repr)) ++ ['}']) := by
  have hmore : ∀ pairs, dumpsMorePairs repr pairs = commaPrefixed (pairs.map (dumpsPair repr)) := by
    intro pairs
    induction pairs with
    | nil => rfl
    | cons pair pairs ih =>
        have hcons : dumpsMorePairs repr (pair :: pairs) =
            comma ++ quote pair.1 ++ colon ++ dumps repr pair.2 ++ dumpsMorePairs repr pairs := rfl
        rw [hcons, ih]
        simp [commaPrefixed, dumpsPair]
  cases pairs with
  | nil => rfl
  | cons pair pairs =>
      exact congrArg (fun more => '{' :: ((dumpsPair repr pair ++ more) ++ ['}'])) (hmore pairs)

theorem rejoined_arr (items : List Json) :
    (Json.arr items).rejoined = .arr (items.map Json.rejoined) := by
  have hitems : ∀ items, rejoinedItems items = items.map Json.rejoined := by
    intro items
    induction items with
    | nil => rfl
    | cons item items ih => exact congrArg (item.rejoined :: ·) ih
  exact congrArg Json.arr (hitems items)

theorem rejoined_obj (pairs : List (List CodePoint × Json)) :
    (Json.obj pairs).rejoined =
      .obj (pairs.map fun pair => (rejoin pair.1, pair.2.rejoined)) := by
  have hpairs : ∀ pairs, rejoinedPairs pairs =
      pairs.map fun pair => (rejoin pair.1, pair.2.rejoined) := by
    intro pairs
    induction pairs with
    | nil => rfl
    | cons pair pairs ih => exact congrArg ((rejoin pair.1, pair.2.rejoined) :: ·) ih
  exact congrArg Json.obj (hpairs pairs)

theorem fits_int {maxDigits : ℕ} {n : ℤ} :
    (Json.int n).Fits maxDigits ↔ (decimals n.natAbs).length ≤ maxDigits :=
  Iff.rfl

theorem not_fits_finite {maxDigits : ℕ} {q : ℚ} : ¬(Json.float (.finite q)).Fits maxDigits :=
  fun h => h q rfl

theorem fits_arr {maxDigits : ℕ} {items : List Json} :
    (Json.arr items).Fits maxDigits ↔ ∀ item ∈ items, item.Fits maxDigits := by
  have hitems : ∀ items, FitsItems maxDigits items ↔ ∀ item ∈ items, item.Fits maxDigits := by
    intro items
    induction items with
    | nil => exact iff_of_true trivial (List.forall_mem_nil _)
    | cons item items ih => exact (and_congr_right' ih).trans List.forall_mem_cons.symm
  exact hitems items

theorem fits_obj {maxDigits : ℕ} {pairs : List (List CodePoint × Json)} :
    (Json.obj pairs).Fits maxDigits ↔ ∀ pair ∈ pairs, pair.2.Fits maxDigits := by
  have hpairs : ∀ pairs, FitsPairs maxDigits pairs ↔ ∀ pair ∈ pairs, pair.2.Fits maxDigits := by
    intro pairs
    induction pairs with
    | nil => exact iff_of_true trivial (List.forall_mem_nil _)
    | cons pair pairs ih =>
        rw [List.forall_mem_cons]
        exact and_congr_right' ih
  exact hpairs pairs

end Dumps

/-- A text begins with no space and no closing bracket. -/
def Opens (text : List Char) : Prop :=
  ∃ c tail, text = c :: tail ∧ isJsonSpace (.char c) = false ∧ c ≠ ']' ∧ c ≠ '}'

theorem Opens.dropWhile {text : List Char} (h : Opens text) (rest : List CodePoint) :
    (text.map CodePoint.char ++ rest).dropWhile isJsonSpace = text.map .char ++ rest := by
  obtain ⟨c, tail, rfl, hspace, -, -⟩ := h
  simp [hspace]

section Separated

variable {α β : Type} {scan : List CodePoint → Scan β} {text : α → List Char} {value : α → β}

theorem opens_commaSeparated {items : List α} (hne : items ≠ [])
    (hopens : ∀ item ∈ items, Opens (text item)) : Opens (commaSeparated (items.map text)) := by
  cases items with
  | nil => exact absurd rfl hne
  | cons item items =>
      obtain ⟨c, tail, htext, h⟩ := hopens item List.mem_cons_self
      exact ⟨c, _, by rw [List.map_cons, commaSeparated, htext]; rfl, h⟩

theorem length_le_commaSeparated {items : List α} (hopens : ∀ item ∈ items, Opens (text item)) :
    items.length ≤ (commaSeparated (items.map text)).length := by
  induction items with
  | nil => exact Nat.le_refl 0
  | cons item items ih =>
      obtain ⟨⟨c, tail, htext, -⟩, hopens'⟩ := List.forall_mem_cons.mp hopens
      have hrest := ih hopens'
      cases items with
      | nil => simp [commaSeparated, htext]
      | cons item' items =>
          rw [List.map_cons, List.map_cons, commaSeparated_cons_cons, htext]
          simp only [List.map_cons, List.length_append, List.length_cons] at hrest ⊢
          omega

/-- The texts of items, each read back by the scanner, are read back by the loop. -/
theorem scanSeparated_commaSeparated {close : Char} (hclose : close ∈ [']', '}'])
    {items : List α} (hne : items ≠ [])
    (hscan : ∀ item ∈ items, ∀ rest, Closed rest →
      scan ((text item).map .char ++ rest) = .ok (value item, rest))
    (hopens : ∀ item ∈ items, Opens (text item)) {turns : ℕ} (hturns : items.length ≤ turns)
    (rest : List CodePoint) :
    scanSeparated scan close turns
        ((commaSeparated (items.map text)).map .char ++ .char close :: rest) =
      .ok (items.map value, rest) := by
  have hmem : close ∈ [',', ']', '}'] := List.mem_cons_of_mem _ hclose
  have hspace : isJsonSpace (.char close) = false := by
    simp only [List.mem_cons, List.not_mem_nil, or_false] at hclose
    rcases hclose with rfl | rfl <;> rfl
  have hcomma : ',' ≠ close := by
    simp only [List.mem_cons, List.not_mem_nil, or_false] at hclose
    rcases hclose with rfl | rfl <;> decide
  induction items generalizing turns with
  | nil => exact absurd rfl hne
  | cons item items ih =>
      obtain ⟨turns, rfl⟩ : ∃ n, turns = n + 1 := ⟨turns - 1, by simp at hturns; omega⟩
      obtain ⟨hitem, hitems⟩ := List.forall_mem_cons.mp hscan
      obtain ⟨-, hopens'⟩ := List.forall_mem_cons.mp hopens
      cases items with
      | nil =>
          rw [List.map_cons, List.map_nil, commaSeparated_singleton, scanSeparated,
            hitem _ (closed_cons hmem rest)]
          simp [hspace]
      | cons item' items =>
          have hrest := ih (by simp) hitems hopens' (Nat.le_of_succ_le_succ hturns)
          have hopen : Opens (commaSeparated ((item' :: items).map text)) :=
            opens_commaSeparated (by simp) hopens'
          have htext : comma.map CodePoint.char = [.char ',', .char ' '] := rfl
          have hspace' : isJsonSpace (.char ',') = false := rfl
          have hspace'' : isJsonSpace (.char ' ') = true := rfl
          rw [List.map_cons, List.map_cons, commaSeparated_cons_cons, ← List.map_cons,
            scanSeparated, List.map_append, List.map_append, List.append_assoc,
            List.append_assoc, htext]
          simp only [List.cons_append, List.nil_append]
          rw [hitem _ (closed_cons (by decide) _)]
          simp only [List.dropWhile_cons, hspace', hspace'', Bool.false_eq_true, if_false, if_true,
            hopen.dropWhile]
          rw [if_neg hcomma, hrest]
          rfl

theorem scanClosed_commaSeparated {close : Char} (hclose : close ∈ [']', '}']) {items : List α}
    (hscan : ∀ item ∈ items, ∀ rest, Closed rest →
      scan ((text item).map .char ++ rest) = .ok (value item, rest))
    (hopens : ∀ item ∈ items, Opens (text item)) (rest : List CodePoint) :
    scanClosed scan close ((commaSeparated (items.map text)).map .char ++ .char close :: rest) =
      .ok (items.map value, rest) := by
  by_cases hne : items = []
  · subst hne
    have hspace : isJsonSpace (.char close) = false := by
      simp only [List.mem_cons, List.not_mem_nil, or_false] at hclose
      rcases hclose with rfl | rfl <;> rfl
    simp [scanClosed, commaSeparated, hspace]
  · have hopen := opens_commaSeparated hne hopens
    have hlength := length_le_commaSeparated hopens
    simp only [scanClosed, hopen.dropWhile]
    rw [if_neg, scanSeparated_commaSeparated hclose hne hscan hopens _ rest]
    · simp only [List.length_append, List.length_map] at hlength ⊢
      omega
    · obtain ⟨c, tail, htext, -, hbracket, hbrace⟩ := hopen
      rw [htext, List.map_cons, List.cons_append, List.head?_cons, Option.some_inj]
      intro heq
      rw [CodePoint.char.inj heq] at hbracket hbrace
      simp only [List.mem_cons, List.not_mem_nil, or_false] at hclose
      rcases hclose with rfl | rfl
      · exact hbracket rfl
      · exact hbrace rfl

end Separated

/-! ## Values -/

section Dumps

variable {repr : ℚ → List Char} {maxDigits : ℕ}

theorem opens_quote (s : List CodePoint) : Opens (quote s) :=
  ⟨'"', _, rfl, rfl, by decide, by decide⟩

theorem opens_dumpsPair (pair : List CodePoint × Json) : Opens (dumpsPair repr pair) :=
  ⟨'"', _, rfl, rfl, by decide, by decide⟩

theorem opens_intText (n : ℤ) : Opens (intText n) := by
  rw [intText]
  split
  · exact ⟨'-', _, rfl, rfl, by decide, by decide⟩
  · obtain ⟨d, tail, hcons⟩ := List.exists_cons_of_ne_nil (decimals_ne_nil n.natAbs)
    have hdigit : d.isDigit := isDigit_of_mem_decimals (hcons ▸ List.mem_cons_self)
    refine ⟨d, tail, hcons, ?_, ?_, ?_⟩
    · by_contra hspace
      simp only [isJsonSpace, List.mem_cons, List.not_mem_nil, or_false, CodePoint.char.injEq,
        Bool.not_eq_false, decide_eq_true_eq] at hspace
      rcases hspace with rfl | rfl | rfl | rfl <;> cases hdigit
    · rintro rfl
      cases hdigit
    · rintro rfl
      cases hdigit

theorem opens_dumps {value : Json} (h : value.Fits maxDigits) : Opens (dumps repr value) := by
  cases value with
  | null => exact ⟨'n', _, rfl, rfl, by decide, by decide⟩
  | bool b =>
      cases b with
      | false => exact ⟨'f', _, rfl, rfl, by decide, by decide⟩
      | true => exact ⟨'t', _, rfl, rfl, by decide, by decide⟩
  | int n => exact opens_intText n
  | float x =>
      cases x with
      | nan => exact ⟨'N', _, rfl, rfl, by decide, by decide⟩
      | inf negative =>
          cases negative with
          | false => exact ⟨'I', _, rfl, rfl, by decide, by decide⟩
          | true => exact ⟨'-', _, rfl, rfl, by decide, by decide⟩
      | finite q => exact absurd h not_fits_finite
  | str s => exact opens_quote s
  | arr items => exact ⟨'[', _, rfl, rfl, by decide, by decide⟩
  | obj pairs => exact ⟨'{', _, rfl, rfl, by decide, by decide⟩

/-- A text that begins neither with a bracket nor with a quote is scanned as a name or a
number. -/
theorem scanOnce_of_head {c : Char} (hquote : c ≠ '"') (hbracket : c ≠ '[') (hbrace : c ≠ '{')
    (depth : ℕ) (cs : List CodePoint) :
    scanOnce maxDigits depth (.char c :: cs) = scanLiteral maxDigits (.char c :: cs) := by
  rcases scanOnce_cases maxDigits (.char c :: cs) with ⟨cs', heq⟩ | ⟨cs', heq⟩ | hleaf
  · exact absurd (CodePoint.char.inj (List.cons.inj heq).1) hbracket
  · exact absurd (CodePoint.char.inj (List.cons.inj heq).1) hbrace
  · rw [hleaf, scanLeaf]
    simpa using hquote

theorem scanPair_dumpsPair {scan : List CodePoint → Scan Json} {pair : List CodePoint × Json}
    {value : Json} (hopens : Opens (dumps repr pair.2)) {rest : List CodePoint}
    (hscan : scan ((dumps repr pair.2).map .char ++ rest) = .ok (value, rest)) :
    scanPair scan ((dumpsPair repr pair).map .char ++ rest) =
      .ok ((rejoin pair.1, value), rest) := by
  have htext : colon.map CodePoint.char = [.char ':', .char ' '] := rfl
  have hspace : isJsonSpace (.char ':') = false := rfl
  have hspace' : isJsonSpace (.char ' ') = true := rfl
  have hkey : (dumpsPair repr pair).map .char ++ rest = .char '"' ::
      ((pair.1.flatMap escape ++ ['"']).map .char ++
        .char ':' :: .char ' ' :: ((dumps repr pair.2).map .char ++ rest)) := by
    simp only [dumpsPair, quote, List.map_append, List.map_cons, List.map_nil, htext,
      List.append_assoc, List.cons_append, List.nil_append]
  rw [hkey, scanPair, scanString_quote]
  simp only [List.dropWhile_cons, hspace, hspace', Bool.false_eq_true, if_false, if_true,
    hopens.dropWhile, hscan]
  rfl

theorem scanLiteral_dumps {name : String} {value : Json} (h : (name, value) ∈ literals)
    (depth : ℕ) (rest : List CodePoint) :
    scanOnce maxDigits depth (name.toList.map .char ++ rest) = .ok (value, rest) := by
  have hname := scanLiteral_name h maxDigits rest
  simp only [literals, List.mem_cons, Prod.mk.injEq, List.not_mem_nil, or_false] at h
  rcases h with ⟨rfl, rfl⟩ | ⟨rfl, rfl⟩ | ⟨rfl, rfl⟩ | ⟨rfl, rfl⟩ | ⟨rfl, rfl⟩ | ⟨rfl, rfl⟩ <;>
    exact (scanOnce_of_head (by decide) (by decide) (by decide) depth _).trans hname

/-- A value that is no container. -/
theorem scanOnce_dumps_leaf {value : Json} (harr : ∀ items, value ≠ .arr items)
    (hobj : ∀ pairs, value ≠ .obj pairs) (hfits : value.Fits maxDigits) (depth : ℕ)
    {rest : List CodePoint} (hrest : Closed rest) :
    scanOnce maxDigits depth ((dumps repr value).map .char ++ rest) =
      .ok (value.rejoined, rest) := by
  cases value with
  | null =>
      have hmem : ("null", Json.null) ∈ literals := List.mem_cons_self
      exact scanLiteral_dumps hmem depth rest
  | bool b =>
      cases b with
      | false =>
          have hmem : ("false", Json.bool false) ∈ literals := by simp [literals]
          exact scanLiteral_dumps hmem depth rest
      | true =>
          have hmem : ("true", Json.bool true) ∈ literals := by simp [literals]
          exact scanLiteral_dumps hmem depth rest
  | int n =>
      have hscan := scanLiteral_intText (fits_int.mp hfits) hrest
      obtain ⟨c, tail, hcons, hspace, hbracket, hbrace⟩ := opens_intText n
      have hhead : c = '-' ∨ c.isDigit = true := by
        rw [intText] at hcons
        split at hcons
        · exact .inl (List.cons.inj hcons).1.symm
        · exact .inr (isDigit_of_mem_decimals (hcons ▸ List.mem_cons_self))
      have hne : ∀ d : Char, d ≠ '-' → d.isDigit = false → c ≠ d := by
        rintro d hminus hdigit rfl
        rcases hhead with heq | hisDigit
        · exact hminus heq
        · rw [hdigit] at hisDigit
          cases hisDigit
      have hleaf : scanOnce maxDigits depth ((intText n).map .char ++ rest) =
          scanLiteral maxDigits ((intText n).map .char ++ rest) := by
        rw [hcons, List.map_cons, List.cons_append]
        exact scanOnce_of_head (hne _ (by decide) rfl) (hne _ (by decide) rfl)
          (hne _ (by decide) rfl) depth _
      exact hleaf.trans hscan
  | float x =>
      cases x with
      | nan =>
          have hmem : ("NaN", Json.float .nan) ∈ literals := by simp [literals]
          exact scanLiteral_dumps hmem depth rest
      | inf negative =>
          cases negative with
          | false =>
              have hmem : ("Infinity", Json.float (.inf false)) ∈ literals := by simp [literals]
              exact scanLiteral_dumps hmem depth rest
          | true =>
              have hmem : ("-Infinity", Json.float (.inf true)) ∈ literals := by simp [literals]
              exact scanLiteral_dumps hmem depth rest
      | finite q => exact absurd hfits not_fits_finite
  | str s =>
      have hquote : (dumps repr (.str s)).map CodePoint.char ++ rest =
          .char '"' :: ((s.flatMap escape ++ ['"']).map .char ++ rest) := rfl
      rw [hquote]
      rcases scanOnce_cases maxDigits (.char '"' :: ((s.flatMap escape ++ ['"']).map .char ++ rest))
        with ⟨cs', heq⟩ | ⟨cs', heq⟩ | hleaf
      · cases heq
      · cases heq
      · rw [hleaf, scanLeaf, scanString_quote]
        rfl
  | arr items => exact absurd rfl (harr items)
  | obj pairs => exact absurd rfl (hobj pairs)

/-- The text of a value is read back, whatever follows it. -/
theorem scanOnce_dumps {depth : ℕ} {value : Json} (hdepth : value.nesting ≤ depth)
    (hfits : value.Fits maxDigits) {rest : List CodePoint} (hrest : Closed rest) :
    scanOnce maxDigits depth ((dumps repr value).map .char ++ rest) =
      .ok (value.rejoined, rest) := by
  induction value using Json.induction generalizing depth rest with
  | leaf value harr hobj => exact scanOnce_dumps_leaf harr hobj hfits depth hrest
  | arr items ih =>
      rw [fits_arr] at hfits
      rw [nesting_arr] at hdepth
      obtain ⟨depth, rfl⟩ : ∃ d, depth = d + 1 := ⟨depth - 1, by omega⟩
      have hitems : ∀ item ∈ items, ∀ rest, Closed rest →
          scanOnce maxDigits depth ((dumps repr item).map .char ++ rest) =
            .ok (item.rejoined, rest) := by
        intro item hitem rest h
        have hle : item.nesting ≤ depth :=
          (le_deepest hitem).trans (Nat.le_of_succ_le_succ hdepth)
        exact ih item hitem hle (hfits item hitem) h
      have hscan : scanArray (scanOnce maxDigits depth)
          ((commaSeparated (items.map (dumps repr))).map .char ++ .char ']' :: rest) =
            .ok (items.map Json.rejoined, rest) :=
        scanClosed_commaSeparated (by decide) hitems
          (fun item hitem => opens_dumps (hfits item hitem)) rest
      have htext : (dumps repr (.arr items)).map CodePoint.char ++ rest = .char '[' ::
          ((commaSeparated (items.map (dumps repr))).map .char ++ .char ']' :: rest) := by
        simp [dumps_arr]
      rw [htext, scanOnce_bracket, hscan, rejoined_arr]
      rfl
  | obj pairs ih =>
      rw [fits_obj] at hfits
      rw [nesting_obj] at hdepth
      obtain ⟨depth, rfl⟩ : ∃ d, depth = d + 1 := ⟨depth - 1, by omega⟩
      have hpairs : ∀ pair ∈ pairs, ∀ rest, Closed rest →
          scanPair (scanOnce maxDigits depth) ((dumpsPair repr pair).map .char ++ rest) =
            .ok ((rejoin pair.1, pair.2.rejoined), rest) := by
        intro pair hpair rest h
        have hle : pair.2.nesting ≤ depth :=
          (le_deepest hpair).trans (Nat.le_of_succ_le_succ hdepth)
        exact scanPair_dumpsPair (opens_dumps (hfits pair hpair))
          (ih pair hpair hle (hfits pair hpair) h)
      have hscan : scanObject (scanOnce maxDigits depth)
          ((commaSeparated (pairs.map (dumpsPair repr))).map .char ++ .char '}' :: rest) =
            .ok (pairs.map fun pair => (rejoin pair.1, pair.2.rejoined), rest) :=
        scanClosed_commaSeparated (by decide) hpairs (fun pair _ => opens_dumpsPair pair) rest
      have htext : (dumps repr (.obj pairs)).map CodePoint.char ++ rest = .char '{' ::
          ((commaSeparated (pairs.map (dumpsPair repr))).map .char ++ .char '}' :: rest) := by
        simp [dumps_obj]
      rw [htext, scanOnce_brace, hscan, rejoined_obj]
      rfl

theorem decode_dumps {depth : ℕ} {value : Json} (hdepth : value.nesting ≤ depth)
    (hfits : value.Fits maxDigits) :
    decode maxDigits depth ((dumps repr value).map .char) = .ok value.rejoined := by
  have hscan : scanOnce maxDigits depth ((dumps repr value).map .char ++ []) = _ :=
    scanOnce_dumps hdepth hfits closed_nil
  have hopens : Opens (dumps repr value) := opens_dumps hfits
  have hdrop := hopens.dropWhile []
  rw [List.append_nil] at hscan hdrop
  rw [decode, hdrop, hscan]
  rfl

/-! ## Bytes -/

theorem plain_decimals (n : ℕ) : Plain (decimals n) := by
  intro c hc
  have hdigit := isDigit_of_mem_decimals hc
  simp only [Char.isDigit, Bool.and_eq_true, decide_eq_true_eq] at hdigit
  have hlow := UInt32.le_iff_toNat_le.mp hdigit.1
  have hhigh := UInt32.le_iff_toNat_le.mp hdigit.2
  exact ⟨le_trans (by decide) hlow, lt_of_le_of_lt hhigh (by decide)⟩

theorem plain_commaSeparated {texts : List (List Char)} (h : ∀ text ∈ texts, Plain text) :
    Plain (commaSeparated texts) := by
  cases texts with
  | nil => exact plain_nil
  | cons text texts =>
      obtain ⟨htext, htexts⟩ := List.forall_mem_cons.mp h
      refine plain_append.mpr ⟨htext, fun c hc => ?_⟩
      obtain ⟨text', hmem, hc⟩ := List.mem_flatMap.mp hc
      have hcomma : Plain comma := by
        simp only [comma, plain_cons]
        exact ⟨by decide, by decide, plain_nil⟩
      exact plain_append.mpr ⟨hcomma, htexts text' hmem⟩ c hc

/-- The names of values are plain. -/
theorem plain_names (repr : ℚ → List Char) : Plain (dumps repr .null) ∧ (∀ b, Plain (boolText b)) ∧
    Plain (floatText repr .nan) ∧ ∀ negative, Plain (floatText repr (.inf negative)) := by
  refine ⟨?_, ?_, ?_, ?_⟩
  · intro c hc
    have hall : (['n', 'u', 'l', 'l'] : List Char).all
        fun c => 0x20 ≤ c.toNat ∧ c.toNat < 0x80 := by decide
    simpa using List.all_eq_true.mp hall c hc
  · intro b c hc
    have hall : ∀ b, (boolText b).all fun c => 0x20 ≤ c.toNat ∧ c.toNat < 0x80 := by decide
    simpa using List.all_eq_true.mp (hall b) c hc
  · intro c hc
    have hall : ("NaN".toList).all fun c => 0x20 ≤ c.toNat ∧ c.toNat < 0x80 := by decide
    simpa using List.all_eq_true.mp hall c hc
  · intro negative c hc
    have hall : ∀ negative : Bool, (if negative then "-Infinity".toList else "Infinity".toList).all
        fun c => 0x20 ≤ c.toNat ∧ c.toNat < 0x80 := by decide
    simpa using List.all_eq_true.mp (hall negative) c hc

theorem plain_dumps_leaf {value : Json} (harr : ∀ items, value ≠ .arr items)
    (hobj : ∀ pairs, value ≠ .obj pairs) (hfits : value.Fits maxDigits) :
    Plain (dumps repr value) := by
  obtain ⟨hnull, hbool, hnan, hinf⟩ := plain_names repr
  cases value with
  | null => exact hnull
  | bool b => exact hbool b
  | int n =>
      have htext : dumps repr (.int n) = intText n := rfl
      rw [htext, intText]
      split
      · exact plain_cons.mpr ⟨by decide, plain_decimals _⟩
      · exact plain_decimals _
  | float x =>
      cases x with
      | nan => exact hnan
      | inf negative => exact hinf negative
      | finite q => exact absurd hfits not_fits_finite
  | str s => exact plain_quote s
  | arr items => exact absurd rfl (harr items)
  | obj pairs => exact absurd rfl (hobj pairs)

/-- A text is ASCII and has no control characters: it is one line. -/
theorem plain_dumps {value : Json} (hfits : value.Fits maxDigits) :
    Plain (dumps repr value) := by
  induction value using Json.induction with
  | leaf value harr hobj => exact plain_dumps_leaf harr hobj hfits
  | arr items ih =>
      rw [fits_arr] at hfits
      have hitems : Plain (commaSeparated (items.map (dumps repr))) :=
        plain_commaSeparated
          (List.forall_mem_map.mpr fun item hitem => ih item hitem (hfits item hitem))
      rw [dumps_arr]
      exact plain_cons.mpr ⟨by decide, plain_append.mpr
        ⟨hitems, plain_cons.mpr ⟨by decide, plain_nil⟩⟩⟩
  | obj pairs ih =>
      rw [fits_obj] at hfits
      have hcolon : Plain colon := by
        simp only [colon, plain_cons]
        exact ⟨by decide, by decide, plain_nil⟩
      have hpairs : Plain (commaSeparated (pairs.map (dumpsPair repr))) := by
        refine plain_commaSeparated (List.forall_mem_map.mpr fun pair hpair => ?_)
        exact plain_append.mpr ⟨plain_append.mpr ⟨plain_quote _, hcolon⟩,
          ih pair hpair (hfits pair hpair)⟩
      rw [dumps_obj]
      exact plain_cons.mpr ⟨by decide, plain_append.mpr
        ⟨hpairs, plain_cons.mpr ⟨by decide, plain_nil⟩⟩⟩

theorem loads_dumps {depth : ℕ} {value : Json} (hdepth : value.nesting ≤ depth)
    (hfits : value.Fits maxDigits) :
    loads maxDigits depth (encodeUtf8 (dumps repr value)) = .ok value.rejoined := by
  have hplain : Plain (dumps repr value) := plain_dumps hfits
  rw [loads, decodeDetected_of_plainBytes (plainBytes_encodeUtf8 hplain),
    decodeUtf8_encodeUtf8 hplain]
  exact decode_dumps hdepth hfits

theorem nesting_rejoined (value : Json) : value.rejoined.nesting = value.nesting := by
  induction value using Json.induction with
  | leaf value harr hobj =>
      cases value with
      | arr items => exact absurd rfl (harr items)
      | obj pairs => exact absurd rfl (hobj pairs)
      | _ => rfl
  | arr items ih =>
      have hsame : (items.map Json.rejoined).map Json.nesting = items.map Json.nesting := by
        rw [List.map_map]
        exact List.map_congr_left ih
      rw [rejoined_arr, nesting_arr, nesting_arr, deepest, deepest, hsame]
  | obj pairs ih =>
      have hsame : (pairs.map fun pair => (rejoin pair.1, pair.2.rejoined)).map
          (fun pair => pair.2.nesting) = pairs.map fun pair => pair.2.nesting := by
        rw [List.map_map]
        exact List.map_congr_left ih
      rw [rejoined_obj, nesting_obj, nesting_obj, deepest, deepest, hsame]

/-- What a value needs to be read back. -/
theorem loads_dumps_eq_self_iff {depth : ℕ} {value : Json} (hfits : value.Fits maxDigits) :
    loads maxDigits depth (encodeUtf8 (dumps repr value)) = .ok value ↔
      value.nesting ≤ depth ∧ value.rejoined = value := by
  by_cases hdepth : value.nesting ≤ depth
  · rw [loads_dumps hdepth hfits]
    simp [hdepth]
  · have hok : loads maxDigits value.nesting (encodeUtf8 (dumps repr value)) = _ :=
      loads_dumps le_rfl hfits
    have herror := (loads_eq_recursionError_iff hok depth).mpr
      ((nesting_rejoined value).symm ▸ Nat.not_le.mp hdepth)
    rw [herror]
    simp [hdepth]

end Dumps

end RerollSync.Support
