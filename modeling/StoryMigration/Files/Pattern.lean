/-!
# Name patterns

A pattern for one name: a star stands for any characters, a question mark for one, and brackets for one
of a set of characters or, behind an exclamation mark, for one outside of it. A pattern without special
characters fits itself only.
-/

namespace StoryMigration
namespace Pattern

/-- A part of a pattern. -/
inductive Part where
  /-- Exactly this character. -/
  | char (c : Char)
  /-- Any character. -/
  | one
  /-- Any characters. -/
  | many
  /-- A character in one of some ranges, or in none of them. -/
  | set (negated : Bool) (ranges : List (Char × Char))
  deriving DecidableEq, Repr

/-- The ranges that the inside of brackets lists. A hyphen between two characters makes a range of
them; the range is empty if they are in the wrong order. -/
def ranges : List Char → List (Char × Char)
  | a :: '-' :: b :: rest => (a, b) :: ranges rest
  | a :: rest => (a, a) :: ranges rest
  | [] => []

/-- The inside of brackets and what is left behind them, from behind the opening bracket. A closing
bracket ahead of everything else belongs to the set. -/
def brackets? (text : List Char) : Option (Part × List Char) :=
  let (negated, text) :=
    match text with
    | '!' :: rest => (true, rest)
    | rest => (false, rest)
  let (head, text) :=
    match text with
    | ']' :: rest => ([']'], rest)
    | rest => ([], rest)
  match text.span (· != ']') with
  | (inside, ']' :: rest) => some (.set negated (ranges (head ++ inside)), rest)
  | _ => none

/-- The parts of a pattern; `fuel` bounds its length. -/
def parts (fuel : Nat) (text : List Char) : List Part :=
  match fuel with
  | 0 => []
  | fuel + 1 =>
    match text with
    | [] => []
    | '*' :: rest => .many :: parts fuel rest
    | '?' :: rest => .one :: parts fuel rest
    | '[' :: rest =>
      match brackets? rest with
      | some (part, rest) => part :: parts fuel rest
      | none => .char '[' :: parts fuel rest
    | c :: rest => .char c :: parts fuel rest

/-- Whether a character fits a part that stands for one. -/
def Part.fits (part : Part) (c : Char) : Bool :=
  match part with
  | .char d => c == d
  | .set negated ranges =>
    (ranges.any fun range => range.1 ≤ c && c ≤ range.2) != negated
  | _ => true

/-- Whether some test holds of a list or of what is left of it further on. -/
def anyTail {α : Type} (test : List α → Bool) : List α → Bool
  | [] => test []
  | x :: rest => test (x :: rest) || anyTail test rest

/-- Whether a name fits some parts. -/
def matchParts : List Part → List Char → Bool
  | [], name => name.isEmpty
  | .many :: others, name => anyTail (matchParts others) name
  | part :: others, c :: rest => part.fits c && matchParts others rest
  | _ :: _, [] => false

/-- Whether a name fits a pattern. -/
def fits (pattern name : String) : Bool :=
  matchParts (parts (pattern.length + 1) pattern.toList) name.toList

/-- Whether a pattern has special characters. -/
def isSpecial (pattern : String) : Bool :=
  pattern.toList.any fun c => c == '*' || c == '?' || c == '['

end Pattern
end StoryMigration
