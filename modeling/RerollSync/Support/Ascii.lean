import RerollSync.Support.Decoding
import Mathlib.Tactic.Common

/-!
# ASCII as bytes

A text of ASCII without control characters is a line of as many bytes, and whatever guesses
its encoding reads it back.
-/

namespace RerollSync.Support

/-- `text.encode("utf-8")`, of characters. -/
def encodeUtf8 (text : List Char) : List UInt8 := text.flatMap String.utf8EncodeChar

/-- The characters are ASCII, and none is a null or a control character. -/
def Plain (text : List Char) : Prop := ∀ c ∈ text, 0x20 ≤ c.toNat ∧ c.toNat < 0x80

theorem plain_append {text text' : List Char} :
    Plain (text ++ text') ↔ Plain text ∧ Plain text' := List.forall_mem_append

theorem plain_cons {c : Char} {text : List Char} :
    Plain (c :: text) ↔ (0x20 ≤ c.toNat ∧ c.toNat < 0x80) ∧ Plain text := List.forall_mem_cons

theorem plain_nil : Plain [] := fun _ h => nomatch h

theorem chr_toNat (c : Char) : chr c.toNat = .char c := by
  have hvalid := c.valid
  have hne : ¬(0xD800 ≤ c.toNat ∧ c.toNat < 0xE000) := by
    rcases hvalid with h | ⟨h, -⟩
    · exact fun hs => absurd h (Nat.not_lt.mpr hs.1)
    · exact fun hs => absurd hs.2 (Nat.not_lt.mpr h)
  rw [chr, dif_neg hne, Char.ofNat_toNat]

theorem encodeUtf8_of_plain {text : List Char} (h : Plain text) :
    encodeUtf8 text = text.map fun c => UInt8.ofNat c.toNat := by
  induction text with
  | nil => rfl
  | cons c text ih =>
      obtain ⟨hc, htext⟩ := plain_cons.mp h
      have hencode : String.utf8EncodeChar c = [UInt8.ofNat c.toNat] := by
        have hval : c.val.toNat ≤ 0x7F := Nat.le_of_lt_succ hc.2
        rw [String.utf8EncodeChar, if_pos hval]
        rfl
      have hcons : encodeUtf8 (c :: text) = String.utf8EncodeChar c ++ encodeUtf8 text := rfl
      rw [hcons, hencode, ih htext]
      rfl

/-- The bytes of ASCII characters that are no control characters. -/
def PlainBytes (bytes : List UInt8) : Prop := ∀ b ∈ bytes, 0x20 ≤ b.toNat ∧ b.toNat < 0x80

theorem plainBytes_encodeUtf8 {text : List Char} (h : Plain text) :
    PlainBytes (encodeUtf8 text) := by
  rw [encodeUtf8_of_plain h]
  intro b hb
  obtain ⟨c, hc, rfl⟩ := List.mem_map.mp hb
  have hplain := h c hc
  rw [UInt8.toNat_ofNat', Nat.mod_eq_of_lt (by omega)]
  exact hplain

theorem decodeUtf8_cons_of_lt {a : UInt8} (h : a.toNat < 0x80) (bytes : List UInt8) :
    decodeUtf8 (a :: bytes) = consDecoded 0 a.toNat (decodeUtf8 bytes) := by
  rw [decodeUtf8.eq_def]
  exact if_pos h

theorem decodeUtf8_encodeUtf8 {text : List Char} (h : Plain text) :
    decodeUtf8 (encodeUtf8 text) = some (text.map .char) := by
  induction text with
  | nil => rfl
  | cons c text ih =>
      obtain ⟨hc, htext⟩ := plain_cons.mp h
      have hmod : c.toNat % 2 ^ 8 = c.toNat := Nat.mod_eq_of_lt (by omega)
      have hrest := ih htext
      rw [encodeUtf8_of_plain htext] at hrest
      have hlt : (UInt8.ofNat c.toNat).toNat < 0x80 := by
        rw [UInt8.toNat_ofNat', hmod]
        exact hc.2
      rw [encodeUtf8_of_plain h, List.map_cons, decodeUtf8_cons_of_lt hlt, hrest,
        UInt8.toNat_ofNat', hmod, consDecoded, if_pos (by omega), chr_toNat]
      rfl

theorem ne_of_notMem_cons {a b : UInt8} {bytes : List UInt8} (h : b ∉ a :: bytes) : a ≠ b :=
  fun hab => h (hab ▸ List.mem_cons_self)

set_option linter.auxLemma false in
/-- Plain bytes begin with none of the marks, nor with a zero byte. -/
theorem decodeDetected_of_plainBytes {bytes : List UInt8} (h : PlainBytes bytes) :
    decodeDetected bytes = decodeUtf8 bytes := by
  have hne : ∀ b : UInt8, b.toNat < 0x20 ∨ 0x80 ≤ b.toNat → b ∉ bytes := by
    intro b hb hmem
    have := h b hmem
    omega
  have h0 := hne 0 (by decide)
  have hfe := hne 0xFE (by decide)
  have hff := hne 0xFF (by decide)
  have hef := hne 0xEF (by decide)
  rcases bytes with _ | ⟨a, rest⟩
  · rfl
  · -- Not `split`: its hypotheses are about all bytes, and it tries to decide them.
    delta decodeDetected decodeDetected.match_1
    refine (dif_neg (ne_of_notMem_cons h0)).trans ?_
    refine (dif_neg (ne_of_notMem_cons hff)).trans ?_
    refine (dif_neg (ne_of_notMem_cons hfe)).trans ?_
    refine (dif_neg (ne_of_notMem_cons hef)).trans ?_
    rcases rest with _ | ⟨b, rest⟩
    · rfl
    · exact dif_neg (ne_of_notMem_cons (List.not_mem_of_not_mem_cons h0))

end RerollSync.Support
