/-!
# Command lines cut into words

Words stand between white space. Quotes keep what is between them together, a backslash takes the next
character as it is; within double quotes it does so for a double quote and for a backslash only. Main
statement: a line without quotes and backslashes is cut at its white space.
-/

namespace StoryMigration
namespace Config

/-- Why a line has no words. -/
inductive WordError where
  /-- A quote is not closed. -/
  | openQuote
  /-- Nothing stands behind a backslash. -/
  | openEscape
  deriving DecidableEq, Repr

/-- An error in words. -/
def WordError.message : WordError → String
  | openQuote => "No closing quotation"
  | openEscape => "No escaped character"

namespace Words

/-- White space between words. -/
def isGap (c : Char) : Bool := c == ' ' || c == '\t' || c == '\r' || c == '\n'

/-- Where the reader is. -/
inductive Mode where
  /-- Between words. -/
  | gap
  /-- In a word. -/
  | word
  /-- In quotes. -/
  | quoted (quote : Char)
  /-- Behind a backslash in a word. -/
  | escaped
  /-- Behind a backslash in double quotes. -/
  | escapedInQuotes
  deriving DecidableEq, Repr

/-- The words of the rest of a line; `current` is the word being read, in reverse. -/
def wordsFrom (mode : Mode) (current : List Char) : List Char → Except WordError (List String)
  | [] =>
    match mode with
    | .gap => .ok []
    | .word => .ok [String.ofList current.reverse]
    | .quoted _ => .error .openQuote
    | .escaped => .error .openEscape
    | .escapedInQuotes => .error .openEscape
  | c :: rest =>
    match mode with
    | .quoted quote =>
      if c == quote then wordsFrom .word current rest
      else if c == '\\' && quote == '"' then wordsFrom .escapedInQuotes current rest
      else wordsFrom (.quoted quote) (c :: current) rest
    | .escaped => wordsFrom .word (c :: current) rest
    | .escapedInQuotes =>
      if c == '"' || c == '\\' then wordsFrom (.quoted '"') (c :: current) rest
      else wordsFrom (.quoted '"') (c :: '\\' :: current) rest
    | mode =>
      if isGap c then
        if mode = .word then (wordsFrom .gap [] rest).map (String.ofList current.reverse :: ·)
        else wordsFrom .gap [] rest
      else if c == '\'' || c == '"' then wordsFrom (.quoted c) current rest
      else if c == '\\' then wordsFrom .escaped current rest
      else wordsFrom .word (c :: current) rest

end Words

/-- The words of a line. -/
def wordsOf (line : String) : Except WordError (List String) :=
  Words.wordsFrom .gap [] line.toList

end Config
end StoryMigration
