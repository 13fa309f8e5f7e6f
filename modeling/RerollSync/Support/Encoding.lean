import Mathlib.Data.Nat.Basic
import Mathlib.Tactic.Ring

/-!
# Byte encodings

Fixed-width little-endian integers, and the hexadecimal text of a byte string.
Both round-trip.
-/

namespace RerollSync.Support

/-! ## Little-endian integers -/

/-- The `width` low bytes of `n`, least significant first. -/
def littleEndian : ℕ → ℕ → List UInt8
  | 0, _ => []
  | width + 1, n => UInt8.ofNat (n % 256) :: littleEndian width (n / 256)

/-- The number that little-endian bytes spell. -/
def fromLittleEndian : List UInt8 → ℕ
  | [] => 0
  | b :: l => b.toNat + 256 * fromLittleEndian l

@[simp] theorem length_littleEndian (width n : ℕ) : (littleEndian width n).length = width := by
  induction width generalizing n with
  | zero => rfl
  | succ width ih => rw [littleEndian, List.length_cons, ih]

/-- A number that fits its width is read back. -/
theorem fromLittleEndian_littleEndian {width n : ℕ} (h : n < 256 ^ width) :
    fromLittleEndian (littleEndian width n) = n := by
  induction width generalizing n with
  | zero =>
      obtain rfl : n = 0 := by simpa using h
      rfl
  | succ width ih =>
      have hlow : (UInt8.ofNat (n % 256)).toNat = n % 256 := by
        rw [UInt8.toNat_ofNat']
        exact Nat.mod_eq_of_lt (Nat.mod_lt n (by decide))
      have hhigh : n / 256 < 256 ^ width := by
        rw [Nat.div_lt_iff_lt_mul (by decide), ← pow_succ]
        exact h
      rw [littleEndian, fromLittleEndian, hlow, ih hhigh]
      exact Nat.mod_add_div n 256

/-! ## Hexadecimal text -/

def hexDigit (n : ℕ) : Char := if n < 10 then Char.ofNat (48 + n) else Char.ofNat (87 + n)

/-- The text of a byte string, two lower-case digits a byte. -/
def hexChars (l : List UInt8) : List Char :=
  l.flatMap fun b => [hexDigit (b.toNat / 16), hexDigit (b.toNat % 16)]

def hex (l : List UInt8) : String := String.ofList (hexChars l)

/-- The value of a digit of either case. -/
def hexValue (c : Char) : Option ℕ :=
  if '0' ≤ c ∧ c ≤ '9' then some (c.toNat - 48)
  else if 'a' ≤ c ∧ c ≤ 'f' then some (c.toNat - 87)
  else if 'A' ≤ c ∧ c ≤ 'F' then some (c.toNat - 55)
  else none

/-- Two digits a byte, with blanks between bytes. -/
def fromHexChars : List Char → Option (List UInt8)
  | [] => some []
  | [c] => if c.isWhitespace then some [] else none
  | c :: c' :: l =>
      if c.isWhitespace then fromHexChars (c' :: l)
      else do
        let high ← hexValue c
        let low ← hexValue c'
        let rest ← fromHexChars l
        return UInt8.ofNat (16 * high + low) :: rest

def fromHex (s : String) : Option (List UInt8) := fromHexChars s.toList

/-- The characters of a literal, which evaluation would decode from its bytes. -/
theorem toList_of_eq_ofList {s : String} {l : List Char} (h : s = String.ofList l) :
    s.toList = l := by
  rw [h, String.toList_ofList]

theorem hexValue_hexDigit : ∀ n < 16, hexValue (hexDigit n) = some n := by decide

theorem isWhitespace_hexDigit : ∀ n < 16, (hexDigit n).isWhitespace = false := by decide

theorem fromHexChars_hexChars (l : List UInt8) : fromHexChars (hexChars l) = some l := by
  induction l with
  | nil => rfl
  | cons b l ih =>
      have hhigh : b.toNat / 16 < 16 := by
        have := b.toNat_lt
        omega
      have hlow : b.toNat % 16 < 16 := Nat.mod_lt _ (by decide)
      have hbyte : UInt8.ofNat (16 * (b.toNat / 16) + b.toNat % 16) = b := by
        rw [Nat.div_add_mod, UInt8.ofNat_toNat]
      have hcons : hexChars (b :: l) =
          hexDigit (b.toNat / 16) :: hexDigit (b.toNat % 16) :: hexChars l := rfl
      rw [hcons, fromHexChars, isWhitespace_hexDigit _ hhigh, hexValue_hexDigit _ hhigh,
        hexValue_hexDigit _ hlow, ih]
      simp only [Bool.false_eq_true, if_false, Option.bind_eq_bind, Option.bind_some, hbyte]
      rfl

/-- The text of a byte string is read back. -/
theorem fromHex_hex (l : List UInt8) : fromHex (hex l) = some l := by
  simp [fromHex, hex, fromHexChars_hexChars]

theorem hex_injective {l l' : List UInt8} (h : hex l = hex l') : l = l' := by
  have hsome := congrArg fromHex h
  rw [fromHex_hex, fromHex_hex] at hsome
  exact Option.some.inj hsome

end RerollSync.Support
