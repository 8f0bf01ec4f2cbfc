/-!
# UTF-8

The bytes of a text and back. Reading is strict: overlong forms, surrogates and anything beyond the
last code point are refused, so that reading accepts exactly what writing produces.
-/

namespace StoryMigration
namespace Utf8

/-- The bytes of a list of characters. -/
def encode (chars : List Char) : List UInt8 := chars.flatMap String.utf8EncodeChar

/-- The bytes of a string. -/
def ofString (s : String) : List UInt8 := encode s.toList

/-- Bytes that continue a character. -/
def isContinuation (b : UInt8) : Bool := 0x80 ≤ b && b < 0xc0

/-- The six bits a continuation byte carries. -/
def payload (b : UInt8) : Nat := b.toNat % 64

/-- The character of a code point written in more than the bytes of smaller ones; `least` is the first
code point that needs as many. -/
def charAtLeast? (least value : Nat) : Option Char :=
  if least ≤ value ∧ (value < 0xd800 ∨ (0xdfff < value ∧ value < 0x110000)) then
    some (Char.ofNat value)
  else none

/-- The characters of some bytes, unless they are no UTF-8. -/
def decode? : List UInt8 → Option (List Char)
  | [] => some []
  | a :: rest =>
    if a < 0x80 then (decode? rest).map (Char.ofNat a.toNat :: ·)
    else if a < 0xc0 then none
    else if a < 0xe0 then
      match rest with
      | b :: rest =>
        if isContinuation b then do
          let c ← charAtLeast? 0x80 (a.toNat % 32 * 64 + payload b)
          (decode? rest).map (c :: ·)
        else none
      | _ => none
    else if a < 0xf0 then
      match rest with
      | b :: d :: rest =>
        if isContinuation b && isContinuation d then do
          let c ← charAtLeast? 0x800 (a.toNat % 16 * 4096 + payload b * 64 + payload d)
          (decode? rest).map (c :: ·)
        else none
      | _ => none
    else if a < 0xf8 then
      match rest with
      | b :: d :: e :: rest =>
        if isContinuation b && isContinuation d && isContinuation e then do
          let c ← charAtLeast? 0x10000
            (a.toNat % 8 * 262144 + payload b * 4096 + payload d * 64 + payload e)
          (decode? rest).map (c :: ·)
        else none
      | _ => none
    else none

/-- The string of some bytes, unless they are no UTF-8. -/
def toString? (bytes : List UInt8) : Option String := (decode? bytes).map String.ofList

end Utf8
end StoryMigration
