import StoryMigration.Text.CodePoint
import StoryMigration.Text.Utf8

/-!
# Edits

Replacing ranges of bytes in a source. Offsets that are negative count from the end, and offsets that
lie outside stand for the nearest end. Edits are applied from the back to the front, so that an edit
does not move the ranges still to be replaced.
-/

namespace StoryMigration

/-- The replacement of the bytes from `start` up to `stop`. -/
structure Edit where
  start : Int
  stop : Int
  replacement : Text
  deriving Repr

/-- Why edits cannot be applied. -/
inductive EditError where
  /-- Two edits claim the same bytes; the position is that of the first of them. -/
  | overlap (start : Int)
  /-- A replacement holds a surrogate without its partner. -/
  | unencodable
  /-- The edits cut a character in two. -/
  | undecodable
  deriving DecidableEq, Repr

namespace EditError

/-- How the failure is put into words, where it has words of its own. -/
def message : EditError → Option String
  | overlap start => some ("Overlapping edits at byte " ++ toString start)
  | _ => none

end EditError

namespace Edit

/-- The removal of some bytes. -/
def removal (start stop : Nat) : Edit := ⟨start, stop, []⟩

/-- The replacement of some bytes by a string. -/
def replacing (start stop : Nat) (text : String) : Edit := ⟨start, stop, .ofString text⟩

/-- An offset into a list of the given length. -/
def clamp (length : Nat) (offset : Int) : Nat :=
  if offset < 0 then (offset + length).toNat else min offset.toNat length

/-- A source with one range replaced. -/
def splice (source : List UInt8) (start stop : Int) (bytes : List UInt8) : List UInt8 :=
  source.take (clamp source.length start) ++ bytes ++ source.drop (clamp source.length stop)

/-- Whether an edit is to be applied before another one: it starts further back, or ends there. -/
def isBehind (a b : Edit) : Bool :=
  b.start < a.start || (b.start == a.start && b.stop ≤ a.stop)

/-- Applies edits in their order. None may reach beyond the start of the one before it. -/
def applyInOrder (source : List UInt8) (limit : Int) :
    List Edit → Except EditError (List UInt8)
  | [] => .ok source
  | edit :: rest =>
    if limit < edit.stop then .error (.overlap edit.start)
    else
      match edit.replacement.toChars? with
      | none => .error .unencodable
      | some chars =>
        applyInOrder (splice source edit.start edit.stop (Utf8.encode chars)) edit.start rest

/-- The bytes of a source after all edits. -/
def applyBytes (source : List UInt8) (edits : List Edit) : Except EditError (List UInt8) :=
  applyInOrder source (source.length + 1) (edits.mergeSort isBehind)

/-- The text of a source after all edits. -/
def apply (source : List UInt8) (edits : List Edit) : Except EditError String := do
  match Utf8.toString? (← applyBytes source edits) with
  | some text => pure text
  | none => throw .undecodable

end Edit

end StoryMigration
