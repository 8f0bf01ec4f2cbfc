/-!
# Lines with their ends

A text cut behind every line end. A carriage return and line feed are one line end; so are each of them
alone, the vertical tab, the form feed, three information separators, and the line separators of
Unicode. Main statement: the lines joined are the text.
-/

namespace StoryMigration
namespace Diff

/-- Characters that end a line. -/
def endsLine (c : Char) : Bool :=
  ('\n' ≤ c && c ≤ '\r') || ('\x1c' ≤ c && c ≤ '\x1e') || c == '\u0085' || c == '\u2028'
    || c == '\u2029'

/-- A character in front of lines: it starts a line of its own if it ends one. -/
def consLine (c : Char) (lines : List (List Char)) : List (List Char) :=
  if endsLine c then [c] :: lines
  else
    match lines with
    | [] => [[c]]
    | line :: rest => (c :: line) :: rest

/-- The lines of some characters. -/
def linesOfChars : List Char → List (List Char)
  | '\r' :: '\n' :: rest => ['\r', '\n'] :: linesOfChars rest
  | c :: rest => consLine c (linesOfChars rest)
  | [] => []

theorem flatten_consLine (c : Char) (lines : List (List Char)) :
    (consLine c lines).flatten = c :: lines.flatten := by
  unfold consLine
  split
  · rfl
  · cases lines <;> rfl

theorem flatten_linesOfChars (text : List Char) : (linesOfChars text).flatten = text := by
  fun_induction linesOfChars text with
  | case1 rest ih => simp [ih]
  | case2 c rest _ ih => rw [flatten_consLine, ih]
  | case3 => rfl

/-- The lines of a text. -/
def linesOf (text : String) : List String := (linesOfChars text.toList).map String.ofList

end Diff
end StoryMigration
