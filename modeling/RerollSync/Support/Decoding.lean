import RerollSync.Support.LowerCase

/-!
# Bytes as text

`bytes.decode` with the handler `surrogatepass`, for the encodings of Unicode: UTF-8 in
its shortest form, UTF-16 and UTF-32 in either order of bytes.
-/

namespace RerollSync.Support

/-- `chr`. -/
def chr (n : ℕ) : CodePoint :=
  if h : 0xD800 ≤ n ∧ n < 0xE000 then .surrogate ⟨n - 0xD800, by omega⟩ else .char (Char.ofNat n)

/-- The six bits of a continuation byte. -/
def continuation (byte : UInt8) : Option ℕ :=
  if byte.toNat / 64 = 2 then some (byte.toNat % 64) else none

/-- A code point of at least `least`, before the others. -/
def consDecoded (least n : ℕ) (rest : Option (List CodePoint)) : Option (List CodePoint) :=
  if least ≤ n ∧ n < 0x110000 then rest.map (chr n :: ·) else none

/-- UTF-8. -/
def decodeUtf8 : List UInt8 → Option (List CodePoint)
  | [] => some []
  | a :: bs =>
      if a.toNat < 0x80 then consDecoded 0 a.toNat (decodeUtf8 bs)
      else match bs with
      | [] => none
      | b :: bs => do
          let b ← continuation b
          if a.toNat / 32 = 6 then consDecoded 0x80 (64 * (a.toNat % 32) + b) (decodeUtf8 bs)
          else match bs with
          | [] => none
          | c :: bs => do
              let c ← continuation c
              if a.toNat / 16 = 14 then
                consDecoded 0x800 (4096 * (a.toNat % 16) + 64 * b + c) (decodeUtf8 bs)
              else match bs with
              | [] => none
              | d :: bs => do
                  let d ← continuation d
                  if a.toNat / 8 = 30 then
                    consDecoded 0x10000 (262144 * (a.toNat % 8) + 4096 * b + 64 * c + d)
                      (decodeUtf8 bs)
                  else none

/-- Numbers of two bytes, the first the high one when `bigEndian` is set. -/
def units16 (bigEndian : Bool) : List UInt8 → Option (List ℕ)
  | [] => some []
  | a :: b :: bs =>
      (units16 bigEndian bs).map
        ((if bigEndian then 256 * a.toNat + b.toNat else 256 * b.toNat + a.toNat) :: ·)
  | [_] => none

/-- A unit of UTF-16 before decoded ones; two halves make a character. -/
def joinUnit (n : ℕ) (cs : List CodePoint) : List CodePoint :=
  match chr n, cs with
  | .surrogate high, .surrogate low :: rest =>
      if high.val < 0x400 ∧ 0x400 ≤ low.val then
        chr (0x10000 + 0x400 * high.val + (low.val - 0x400)) :: rest
      else chr n :: cs
  | c, cs => c :: cs

/-- UTF-16. -/
def decodeUtf16 (bigEndian : Bool) (bytes : List UInt8) : Option (List CodePoint) :=
  (units16 bigEndian bytes).map fun units => units.foldr joinUnit []

/-- UTF-32. -/
def decodeUtf32 (bigEndian : Bool) : List UInt8 → Option (List CodePoint)
  | [] => some []
  | a :: b :: c :: d :: bs =>
      let n := if bigEndian then 16777216 * a.toNat + 65536 * b.toNat + 256 * c.toNat + d.toNat
        else 16777216 * d.toNat + 65536 * c.toNat + 256 * b.toNat + a.toNat
      consDecoded 0 n (decodeUtf32 bigEndian bs)
  | _ => none

/-- `json.detect_encoding` and the decoding, without the byte order mark. -/
def decodeDetected (bytes : List UInt8) : Option (List CodePoint) :=
  match bytes with
  | 0 :: 0 :: 0xFE :: 0xFF :: rest => decodeUtf32 true rest
  | 0xFF :: 0xFE :: 0 :: 0 :: rest => decodeUtf32 false rest
  | 0xFE :: 0xFF :: rest => decodeUtf16 true rest
  | 0xFF :: 0xFE :: rest => decodeUtf16 false rest
  | 0xEF :: 0xBB :: 0xBF :: rest => decodeUtf8 rest
  | 0 :: 0 :: _ :: _ :: _ => decodeUtf32 true bytes
  | 0 :: _ :: _ :: _ :: _ => decodeUtf16 true bytes
  | _ :: 0 :: 0 :: 0 :: _ => decodeUtf32 false bytes
  | _ :: 0 :: _ :: _ :: _ => decodeUtf16 false bytes
  | [0, _] => decodeUtf16 true bytes
  | [_, 0] => decodeUtf16 false bytes
  | _ => decodeUtf8 bytes

end RerollSync.Support
