import StoryMigration.Source.Edit
import StoryMigration.Syntax.Module

/-!
# Spans with their lines

A statement that is alone on its line is removed with the line, and perhaps with the blank lines that
follow. Such a span grows over ASCII white space only.
-/

namespace StoryMigration
namespace LineSpan

open Syntax

/-- How many bytes before an offset belong to a removal: those back to the start of the line, if they
are blank. -/
def blankBefore (bytes : List UInt8) (offset : Nat) : Nat :=
  let front := Module.lineFront bytes offset
  if front.all isBlankByte then front.length else 0

/-- Length of the blank lines that start some bytes. A line without a line feed is none. -/
def blankLines : Nat → List UInt8 → Nat
  | 0, _ => 0
  | fuel + 1, bytes =>
    let line := bytes.takeWhile (· != 0x0a)
    let rest := bytes.drop line.length
    if rest.isEmpty || !line.all isBlankByte then 0
    else line.length + 1 + blankLines fuel (rest.drop 1)

/-- How many of the bytes behind a statement belong to its removal: the rest of the line if it is
blank, its line feed, and with `absorb` the blank lines behind it. -/
def blankBehind (absorb : Bool) (bytes : List UInt8) : Nat :=
  let line := bytes.takeWhile (· != 0x0a)
  if !line.all isBlankByte then 0
  else
    let rest := bytes.drop (line.length + 1)
    let ended := min (line.length + 1) bytes.length
    if absorb then ended + blankLines rest.length rest else ended

/-- The span that goes when a node is removed. -/
def around (bytes : List UInt8) (node : Node) (absorb : Bool) : Span :=
  ⟨node.start - blankBefore bytes node.start,
    node.stop + blankBehind absorb (bytes.drop node.stop)⟩

/-- The removal of a node with its line. -/
def removal (m : Module) (node : Node) (absorb : Bool) : Edit :=
  let span := around m.bytes node absorb
  .removal span.start span.stop

end LineSpan
end StoryMigration
