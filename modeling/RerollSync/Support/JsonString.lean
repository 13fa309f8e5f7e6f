import RerollSync.Support.Ascii
import RerollSync.Support.Encoding
import RerollSync.Support.Json

/-!
# JSON strings

`json.dumps` writes a string in ASCII: what has no character there is written as `\u`
escapes, two of them for a character beyond U+FFFF.  The decoder reads the string back,
unless a high and a low surrogate stand side by side in it: it reads the character that
their two escapes stand for.
-/

namespace RerollSync.Support

/-! ## Writing -/

/-- A `\u` escape. -/
def escapeUnit (n : ℕ) : List Char :=
  ['\\', 'u', hexDigit (n / 4096), hexDigit (n / 256 % 16), hexDigit (n / 16 % 16),
    hexDigit (n % 16)]

/-- `ESCAPE_DCT`, of the characters that have a short escape. -/
def shortEscapes : List (Char × Char) :=
  ['"', '\\', '\n', '\r', '\t', '\x0c', '\x08'].zip "\"\\nrtfb".toList

def shortEscape (c : Char) : Option Char := shortEscapes.lookup c

/-- `py_encode_basestring_ascii`, of one code point. -/
def escape : CodePoint → List Char
  | .surrogate n => escapeUnit (0xD800 + n.val)
  | .char c =>
      match shortEscape c with
      | some e => ['\\', e]
      | none =>
          if 0x20 ≤ c.toNat ∧ c.toNat ≤ 0x7E then [c]
          else if c.toNat < 0x10000 then escapeUnit c.toNat
          else escapeUnit (0xD800 + (c.toNat - 0x10000) / 0x400) ++
            escapeUnit (0xDC00 + (c.toNat - 0x10000) % 0x400)

/-- A string in quotes. -/
def quote (s : List CodePoint) : List Char := '"' :: (s.flatMap escape ++ ['"'])

/-! ## What is read back -/

/-- One `\u` escape writes the code point. -/
def isUnit : CodePoint → Bool
  | .surrogate _ => true
  | .char c =>
      shortEscape c = none ∧ ¬(0x20 ≤ c.toNat ∧ c.toNat ≤ 0x7E) ∧ c.toNat < 0x10000

/-- A string behind another code point, both read back. -/
def rejoinCons (c : CodePoint) (cs : List (CodePoint × Bool)) : List (CodePoint × Bool) :=
  joinHalves (c, isUnit c) cs

/-- The string that is read back. -/
def rejoin (s : List CodePoint) : List CodePoint := (s.foldr rejoinCons []).map Prod.fst

/-! ## Code points -/

theorem hexDigitValue_hexDigit : ∀ n < 16, hexDigitValue (.char (hexDigit n)) = some n := by decide

theorem hexQuad_escapeUnit {n : ℕ} (h : n < 0x10000) :
    hexQuad (.char (hexDigit (n / 4096))) (.char (hexDigit (n / 256 % 16)))
      (.char (hexDigit (n / 16 % 16))) (.char (hexDigit (n % 16))) = some n := by
  have hfirst : n / 4096 < 16 := by omega
  have hsum : 4096 * (n / 4096) + 256 * (n / 256 % 16) + 16 * (n / 16 % 16) + n % 16 = n := by omega
  rw [hexQuad, hexDigitValue_hexDigit _ hfirst,
    hexDigitValue_hexDigit _ (Nat.mod_lt _ (by decide)),
    hexDigitValue_hexDigit _ (Nat.mod_lt _ (by decide)),
    hexDigitValue_hexDigit _ (Nat.mod_lt _ (by decide))]
  simp only [Option.bind_eq_bind, Option.bind_some, hsum]
  rfl

theorem scanChars_escapeUnit {n : ℕ} (h : n < 0x10000) (cs : List CodePoint) :
    scanChars ((escapeUnit n).map .char ++ cs) =
      (scanChars cs).map fun r => (joinHalves (chr n, true) r.1, r.2) := by
  simp only [escapeUnit, List.map_cons, List.map_nil, List.cons_append, List.nil_append]
  rw [scanChars, hexQuad_escapeUnit h]

theorem joinHalves_char (c : Char) (mark : Bool) (cs : List (CodePoint × Bool)) :
    joinHalves (.char c, mark) cs = (.char c, mark) :: cs := by
  simp [joinHalves]

theorem joinHalves_low {n : Fin 0x800} (h : 0x400 ≤ n.val) (mark : Bool)
    (cs : List (CodePoint × Bool)) :
    joinHalves (.surrogate n, mark) cs = (.surrogate n, mark) :: cs := by
  rw [joinHalves.eq_def]
  split
  · next heq =>
    obtain ⟨rfl, -⟩ : _ = n ∧ _ := by simpa using heq.symm
    rw [if_neg (by omega)]
  · rfl

theorem joinHalves_pair {high low : Fin 0x800} (hhigh : high.val < 0x400) (hlow : 0x400 ≤ low.val)
    (cs : List (CodePoint × Bool)) :
    joinHalves (.surrogate high, true) ((.surrogate low, true) :: cs) =
      (chr (0x10000 + 0x400 * high.val + (low.val - 0x400)), false) :: cs := by
  rw [joinHalves, if_pos ⟨hhigh, hlow⟩]

theorem chr_of_surrogate {n : ℕ} (h : n < 0x800) : chr (0xD800 + n) = .surrogate ⟨n, h⟩ := by
  rw [chr, dif_pos (by omega)]
  simp

theorem unescape_of_shortEscape {c e : Char} (h : shortEscape c = some e) :
    unescape (.char e) = some c ∧ e ≠ 'u' := by
  have hall : shortEscapes.all fun p => unescape (.char p.2) = some p.1 ∧ p.2 ≠ 'u' := by decide
  obtain ⟨l, l', heq, -⟩ := List.lookup_eq_some_iff.mp h
  simpa using List.all_eq_true.mp hall (c, e) (heq ▸ List.mem_append_right l List.mem_cons_self)

theorem isUnit_of_shortEscape {c e : Char} (h : shortEscape c = some e) :
    isUnit (.char c) = false := by
  simp [isUnit, h]

theorem toNat_lt (c : Char) : c.toNat < 0x110000 := by
  rcases c.valid with hlt | ⟨-, hlt⟩
  · exact lt_trans hlt (by decide)
  · exact hlt

/-- The two halves of a character beyond U+FFFF. -/
theorem scanChars_halves {c : Char} (h : 0x10000 ≤ c.toNat) (cs : List CodePoint) :
    scanChars ((escapeUnit (0xD800 + (c.toNat - 0x10000) / 0x400) ++
        escapeUnit (0xDC00 + (c.toNat - 0x10000) % 0x400)).map .char ++ cs) =
      (scanChars cs).map fun r => ((.char c, false) :: r.1, r.2) := by
  have hmax := toNat_lt c
  obtain ⟨high, hhigh⟩ : ∃ high, (c.toNat - 0x10000) / 0x400 = high := ⟨_, rfl⟩
  obtain ⟨low, hlow⟩ : ∃ low, 0x400 + (c.toNat - 0x10000) % 0x400 = low := ⟨_, rfl⟩
  have hhigh' : high < 0x400 := by omega
  have hlow' : 0x400 ≤ low ∧ low < 0x800 := by omega
  have hdc : 0xDC00 + (c.toNat - 0x10000) % 0x400 = 0xD800 + low := by omega
  have hjoin : 0x10000 + 0x400 * high + (low - 0x400) = c.toNat := by omega
  have hhigh'' : high < 0x800 := by omega
  have hunit : 0xD800 + high < 0x10000 := by omega
  have hunit' : 0xD800 + low < 0x10000 := by omega
  rw [hhigh, hdc, List.map_append, List.append_assoc, scanChars_escapeUnit hunit,
    scanChars_escapeUnit hunit', chr_of_surrogate hhigh'', chr_of_surrogate hlow'.2]
  rcases scanChars cs with e | ⟨r, rest⟩
  · rfl
  · have hfin : 0x400 ≤ (⟨low, hlow'.2⟩ : Fin 0x800).val := hlow'.1
    have hfin' : (⟨high, hhigh''⟩ : Fin 0x800).val < 0x400 := hhigh'
    simp only [Except.map, joinHalves_low hfin, joinHalves_pair hfin' hfin, hjoin, chr_toNat]

/-- The text of a code point in front of the others. -/
theorem scanChars_escape (c : CodePoint) (cs : List CodePoint) :
    scanChars ((escape c).map .char ++ cs) =
      (scanChars cs).map fun r => (rejoinCons c r.1, r.2) := by
  cases c with
  | surrogate n =>
      have hlt : 0xD800 + n.val < 0x10000 := by omega
      rw [escape, scanChars_escapeUnit hlt, chr_of_surrogate n.isLt]
      rfl
  | char c =>
      rw [escape]
      rcases hshort : shortEscape c with _ | e
      · by_cases hplain : 0x20 ≤ c.toNat ∧ c.toNat ≤ 0x7E
        · have hquote : c ≠ '"' := by rintro rfl; cases hshort
          have hback : c ≠ '\\' := by rintro rfl; cases hshort
          have hunit : isUnit (.char c) = false := by simp [isUnit, hshort, hplain]
          simp only [if_pos hplain, List.map_cons, List.map_nil, List.cons_append, List.nil_append]
          rw [scanChars, if_neg (by simp [hback]; omega)]
          · simp only [rejoinCons, hunit, joinHalves_char]
          all_goals simp_all
        · rw [if_neg hplain]
          by_cases hlt : c.toNat < 0x10000
          · have hunit : isUnit (.char c) = true := by simp [isUnit, hshort, hplain, hlt]
            rw [if_pos hlt, scanChars_escapeUnit hlt, chr_toNat]
            simp only [rejoinCons, hunit]
          · have hunit : isUnit (.char c) = false := by simp [isUnit, hlt]
            rw [if_neg hlt, scanChars_halves (Nat.le_of_not_lt hlt)]
            simp only [rejoinCons, hunit, joinHalves_char]
      · obtain ⟨hunescape, hne⟩ := unescape_of_shortEscape hshort
        simp only [List.map_cons, List.map_nil, List.cons_append, List.nil_append]
        rw [scanChars, hunescape]
        · simp only [rejoinCons, isUnit_of_shortEscape hshort, joinHalves_char]
        · simp_all

/-- A string in quotes is read back, behind the quote that opens it. -/
theorem scanString_quote (s : List CodePoint) (rest : List CodePoint) :
    scanString ((s.flatMap escape ++ ['"']).map .char ++ rest) = .ok (rejoin s, rest) := by
  have hchars : scanChars ((s.flatMap escape).map .char ++ .char '"' :: rest) =
      .ok (s.foldr rejoinCons [], rest) := by
    induction s with
    | nil => simp [scanChars]
    | cons c s ih =>
        rw [List.flatMap_cons, List.map_append, List.append_assoc, scanChars_escape, ih]
        rfl
  rw [List.map_append, List.append_assoc]
  simp only [List.map_cons, List.map_nil, List.cons_append, List.nil_append]
  rw [scanString, hchars]
  rfl

/-- A high surrogate in front of a low one. -/
def Halves : CodePoint → CodePoint → Prop
  | .surrogate high, .surrogate low => high.val < 0x400 ∧ 0x400 ≤ low.val
  | _, _ => False

theorem length_joinHalves_le (c : CodePoint × Bool) (cs : List (CodePoint × Bool)) :
    (joinHalves c cs).length ≤ cs.length + 1 := by
  rw [joinHalves.eq_def]
  split
  · split
    · simp only [List.length_cons]
      omega
    · exact Nat.le_refl _
  · exact Nat.le_refl _

/-- Code points that are no halves stay as they are, and halves become one. -/
theorem rejoinCons_cons (c d : CodePoint) (cs : List (CodePoint × Bool)) :
    (¬Halves c d → rejoinCons c ((d, isUnit d) :: cs) = (c, isUnit c) :: (d, isUnit d) :: cs) ∧
      (Halves c d → (rejoinCons c ((d, isUnit d) :: cs)).length = cs.length + 1) := by
  cases c with
  | char c => exact ⟨fun _ => joinHalves_char _ _ _, fun h => h.elim⟩
  | surrogate high =>
      cases d with
      | char d =>
          refine ⟨fun _ => ?_, fun h => h.elim⟩
          simp [rejoinCons, joinHalves]
      | surrogate low =>
          have hunit : ∀ n, isUnit (.surrogate n) = true := fun _ => rfl
          rw [rejoinCons, hunit, hunit]
          refine ⟨fun h => ?_, fun h => ?_⟩
          · have hnot : ¬(high.val < 0x400 ∧ 0x400 ≤ low.val) := h
            rw [joinHalves, if_neg hnot]
          · rw [joinHalves_pair h.1 h.2]
            rfl

theorem foldr_rejoinCons {s : List CodePoint} :
    (s.IsChain (fun c d => ¬Halves c d) →
        s.foldr rejoinCons [] = s.map fun c => (c, isUnit c)) ∧
      (¬s.IsChain (fun c d => ¬Halves c d) → (s.foldr rejoinCons []).length < s.length) := by
  induction s with
  | nil => exact ⟨fun _ => rfl, fun h => absurd .nil h⟩
  | cons c s ih =>
      obtain ⟨hchain, hbroken⟩ := ih
      cases s with
      | nil =>
          refine ⟨fun _ => ?_, fun h => absurd (.singleton c) h⟩
          cases c <;> rfl
      | cons d s =>
          have hfold : ∀ c : CodePoint, (c :: d :: s).foldr rejoinCons [] =
              rejoinCons c ((d :: s).foldr rejoinCons []) := fun _ => rfl
          rw [List.isChain_cons_cons, hfold]
          by_cases hrest : (d :: s).IsChain fun c d => ¬Halves c d
          · obtain ⟨hsame, hjoined⟩ := rejoinCons_cons c d (s.map fun c => (c, isUnit c))
            rw [hchain hrest, List.map_cons]
            refine ⟨fun h => hsame h.1, fun h => ?_⟩
            have hhalves : Halves c d := by
              by_contra hnot
              exact h ⟨hnot, hrest⟩
            rw [hjoined hhalves]
            simp
          · refine ⟨fun h => absurd h.2 hrest, fun _ => ?_⟩
            have hshort := hbroken hrest
            have hle := length_joinHalves_le (c, isUnit c) ((d :: s).foldr rejoinCons [])
            simp only [rejoinCons, List.length_cons] at hshort hle ⊢
            omega

/-- A string is read back as it is exactly when no two of its surrogates are the halves of
a character. -/
theorem rejoin_eq_self_iff {s : List CodePoint} :
    rejoin s = s ↔ s.IsChain fun c d => ¬Halves c d := by
  obtain ⟨hchain, hbroken⟩ := foldr_rejoinCons (s := s)
  by_cases h : s.IsChain fun c d => ¬Halves c d
  · refine iff_of_true ?_ h
    rw [rejoin, hchain h, List.map_map]
    exact List.map_id _
  · refine iff_of_false (fun heq => ?_) h
    have hlength := congrArg List.length heq
    rw [rejoin, List.length_map] at hlength
    have := hbroken h
    omega

/-- Characters are no halves. -/
theorem rejoin_map_char (cs : List Char) : rejoin (cs.map .char) = cs.map .char := by
  rw [rejoin_eq_self_iff]
  induction cs with
  | nil => exact .nil
  | cons c cs ih =>
      cases cs with
      | nil => exact .singleton _
      | cons d cs => exact .cons_cons (fun h => h.elim) ih

/-! ## The characters of a text -/

theorem plain_hexDigit : ∀ n < 16, 0x20 ≤ (hexDigit n).toNat ∧ (hexDigit n).toNat < 0x80 := by
  decide

theorem plain_escapeUnit {n : ℕ} (h : n < 0x10000) : Plain (escapeUnit n) := by
  have hfirst : n / 4096 < 16 := by omega
  simp only [escapeUnit, plain_cons]
  exact ⟨by decide, by decide, plain_hexDigit _ hfirst, plain_hexDigit _ (Nat.mod_lt _ (by decide)),
    plain_hexDigit _ (Nat.mod_lt _ (by decide)), plain_hexDigit _ (Nat.mod_lt _ (by decide)),
    plain_nil⟩

theorem plain_of_shortEscape {c e : Char} (h : shortEscape c = some e) :
    0x20 ≤ e.toNat ∧ e.toNat < 0x80 := by
  have hall : shortEscapes.all fun p => 0x20 ≤ p.2.toNat ∧ p.2.toNat < 0x80 := by decide
  obtain ⟨l, l', heq, -⟩ := List.lookup_eq_some_iff.mp h
  simpa using List.all_eq_true.mp hall (c, e) (heq ▸ List.mem_append_right l List.mem_cons_self)

theorem plain_escape (c : CodePoint) : Plain (escape c) := by
  cases c with
  | surrogate n =>
      rw [escape]
      exact plain_escapeUnit (by omega)
  | char c =>
      rw [escape]
      split
      · next e hshort =>
        simp only [plain_cons]
        exact ⟨by decide, plain_of_shortEscape hshort, plain_nil⟩
      · split
        · next h => exact plain_cons.mpr ⟨by omega, plain_nil⟩
        · have hmax := toNat_lt c
          split
          · next h => exact plain_escapeUnit h
          · exact plain_append.mpr ⟨plain_escapeUnit (by omega), plain_escapeUnit (by omega)⟩

theorem plain_quote (s : List CodePoint) : Plain (quote s) := by
  refine plain_cons.mpr ⟨by decide, plain_append.mpr ⟨?_, plain_cons.mpr ⟨by decide, plain_nil⟩⟩⟩
  intro c hc
  obtain ⟨d, -, hd⟩ := List.mem_flatMap.mp hc
  exact plain_escape d c hd

end RerollSync.Support
