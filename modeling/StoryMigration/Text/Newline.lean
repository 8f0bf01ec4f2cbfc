/-!
# Line endings

The two line endings a module can be written with. A text that has one carriage return and line feed
anywhere is taken to be written with both.
-/

namespace StoryMigration

/-- A line ending. -/
inductive Newline where
  | lf
  | crlf
  deriving DecidableEq, Repr, Inhabited

namespace Newline

/-- The characters of a line ending. -/
def chars : Newline → List Char
  | lf => ['\n']
  | crlf => ['\r', '\n']

/-- Whether a carriage return is followed by a line feed anywhere. -/
def hasPair : List Char → Bool
  | '\r' :: '\n' :: _ => true
  | _ :: rest => hasPair rest
  | [] => false

/-- The line ending a text is written with. -/
def ofText (text : List Char) : Newline := if hasPair text then crlf else lf

/-- Every carriage return and line feed as a line feed alone. -/
def joined : List Char → List Char
  | '\r' :: '\n' :: rest => '\n' :: joined rest
  | c :: rest => c :: joined rest
  | [] => []

/-- The text with this line ending at every line end. -/
def spread (newline : Newline) (text : String) : String :=
  String.ofList ((joined text.toList).flatMap fun c => if c == '\n' then newline.chars else [c])

/-- Line feeds for all line endings, also for a carriage return alone. -/
def unified : List Char → List Char
  | '\r' :: '\n' :: rest => '\n' :: unified rest
  | '\r' :: rest => '\n' :: unified rest
  | c :: rest => c :: unified rest
  | [] => []

/-- A text without line ending characters at its two ends, and one line ending behind it, in the style
the text is written in. -/
def normalizedEnds (text : String) : String :=
  let isEnd (c : Char) : Bool := c == '\r' || c == '\n'
  let chars := text.toList
  String.ofList
    (((chars.dropWhile isEnd).reverse.dropWhile isEnd).reverse ++ (ofText chars).chars)

end Newline

/-- The lines of a text, cut at every line feed and without it. -/
def linesOf : List Char → List (List Char)
  | [] => [[]]
  | c :: rest =>
    match linesOf rest with
    | [] => [[c]]
    | line :: lines => if c == '\n' then [] :: line :: lines else (c :: line) :: lines

end StoryMigration
