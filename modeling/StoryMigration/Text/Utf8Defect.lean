import StoryMigration.Text.Utf8

/-!
# Bytes that are no UTF-8

Where the first defect of some bytes is and what it is. A defect covers the bytes that could have
started a character and did not, as far as they were right.
-/

namespace StoryMigration
namespace Utf8

/-- What is wrong with a byte. -/
inductive Reason where
  /-- No character starts with it. -/
  | start
  /-- It does not continue the character. -/
  | continuation
  /-- The bytes end within a character. -/
  | truncated
  deriving DecidableEq, Repr

/-- A reason in words. -/
def Reason.text : Reason → String
  | start => "invalid start byte"
  | continuation => "invalid continuation byte"
  | truncated => "unexpected end of data"

/-- A defect. -/
structure Defect where
  /-- Bytes before it. -/
  position : Nat
  /-- The bytes it covers. -/
  bytes : List UInt8
  reason : Reason
  deriving DecidableEq, Repr

/-- A byte as two hexadecimal digits. -/
def hexByte (b : UInt8) : String :=
  let digits := Nat.toDigits 16 b.toNat
  String.ofList (if digits.length < 2 then '0' :: digits else digits)

/-- A defect in words. -/
def Defect.text (defect : Defect) : String :=
  let place :=
    match defect.bytes with
    | [b] => "byte 0x" ++ hexByte b ++ " in position " ++ toString defect.position
    | bytes => "bytes in position " ++ toString defect.position ++ "-"
        ++ toString (defect.position + bytes.length - 1)
  "'utf-8' codec can't decode " ++ place ++ ": " ++ defect.reason.text

/-- The bytes a character takes that starts with some byte; none if no character does. -/
def widthOf (b : UInt8) : Nat :=
  if b < 0x80 then 1
  else if b < 0xc2 then 0
  else if b < 0xe0 then 2
  else if b < 0xf0 then 3
  else if b < 0xf5 then 4
  else 0

/-- Whether a second byte fits a first one: neither an overlong form nor a surrogate nor anything
beyond the last code point may follow. -/
def fitsSecond (first second : UInt8) : Bool :=
  isContinuation second
    && (first != 0xe0 || 0xa0 ≤ second) && (first != 0xed || second < 0xa0)
    && (first != 0xf0 || 0x90 ≤ second) && (first != 0xf4 || second < 0x90)

/-- How many of the bytes behind a first byte continue its character. -/
def fitting (first : UInt8) (wanted : Nat) (rest : List UInt8) : Nat :=
  match rest with
  | second :: others =>
    if wanted = 0 || !fitsSecond first second then 0
    else 1 + ((others.take (wanted - 1)).takeWhile isContinuation).length
  | [] => 0

/-- The first defect of some bytes that stand behind others; `skip` of them belong to a character that
is complete. -/
def defectFrom (position skip : Nat) : List UInt8 → Option Defect
  | [] => none
  | first :: rest =>
    match skip with
    | skip + 1 => defectFrom (position + 1) skip rest
    | 0 =>
      match widthOf first with
      | 0 => some ⟨position, [first], .start⟩
      | wanted + 1 =>
        let count := fitting first wanted rest
        if count = wanted then defectFrom (position + 1) wanted rest
        else some ⟨position, first :: rest.take count,
          if count = rest.length then .truncated else .continuation⟩

/-- The string of some bytes, or what is wrong with them. -/
def read (bytes : List UInt8) : Except Defect String :=
  match toString? bytes with
  | some s => .ok s
  | none => .error ((defectFrom 0 0 bytes).getD ⟨0, [], .truncated⟩)

end Utf8
end StoryMigration
