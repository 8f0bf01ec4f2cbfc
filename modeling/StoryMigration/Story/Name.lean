import StoryMigration.Text.LetterCase

/-!
# Story names

A story has a display name, written for people, and an export identifier, written for the module. Names
are split into words at separators, case changes and digit runs; identifiers are the words in camel
case, and an identifier's display name is its words with capitals. `identifierOf` is never empty.
-/

namespace StoryMigration
namespace StoryName

/-- Words a module cannot use as the name of a binding. -/
def reservedWords : List String :=
  ["arguments", "await", "break", "case", "catch", "class", "const", "continue", "debugger", "default",
    "delete", "do", "else", "enum", "eval", "export", "extends", "false", "finally", "for", "function",
    "if", "implements", "import", "in", "instanceof", "interface", "let", "new", "null", "package",
    "private", "protected", "public", "return", "static", "super", "switch", "this", "throw", "true",
    "try", "typeof", "undefined", "var", "void", "while", "with", "yield"]

/-- The identifier of a name without words. -/
def fallback : String := "story"

/-- Adds a run in front of others unless it is empty. -/
def pushRun {α : Type} : List α → List (List α) → List (List α)
  | [], runs => runs
  | run@(_ :: _), runs => run :: runs

/-- The run of items with a property that reaches the front of a list, and the runs behind it. -/
def runsFrom {α : Type} (test : α → Bool) : List α → List α × List (List α)
  | [] => ([], [])
  | a :: rest =>
    match runsFrom test rest with
    | (front, behind) => if test a then (a :: front, behind) else ([], pushRun front behind)

/-- The longest runs of items with a property. -/
def runs {α : Type} (test : α → Bool) (items : List α) : List (List α) :=
  match runsFrom test items with
  | (front, behind) => pushRun front behind

/-- The ending of an English ordinal number, where a number ends in one: no letter may follow it. -/
def ordinalEnding? (text : List Char) : Option (List Char) :=
  match text with
  | a :: b :: rest =>
    if ["st", "nd", "rd", "th"].contains (String.ofList [a, b]) then
      match rest with
      | [] => some [a, b]
      | c :: _ => if isDecimal c then some [a, b] else none
    else none
  | _ => none

/-- Numbers, ordinals and runs of letters in a run of word characters, at most `count` of them. -/
def piecesUpTo : Nat → List Char → List (List Char)
  | 0, _ => []
  | _ + 1, [] => []
  | count + 1, text@(c :: _) =>
    if isDecimal c then
      let digits := text.takeWhile isDecimal
      let behind := text.dropWhile isDecimal
      match ordinalEnding? behind with
      | some ending => (digits ++ ending) :: piecesUpTo count (behind.drop ending.length)
      | none => digits :: piecesUpTo count behind
    else
      text.takeWhile (!isDecimal ·) :: piecesUpTo count (text.dropWhile (!isDecimal ·))

/-- Numbers, ordinals and runs of letters in a run of word characters. -/
def pieces (run : List Char) : List (List Char) := piecesUpTo run.length run

/-- A word starts before a capital that follows a small letter or precedes one. -/
def startsWord (previous c : Char) (next : Option Char) : Bool :=
  isUpper c && (!isUpper previous || (next.map isLower).getD false)

/-- The rest of a word behind a letter, and the words behind it. -/
def wordsBehind (previous : Char) : List Char → List Char × List (List Char)
  | [] => ([], [])
  | c :: rest =>
    match wordsBehind c rest with
    | (front, behind) =>
      if startsWord previous c rest.head? then ([], (c :: front) :: behind) else (c :: front, behind)

/-- The words of a run of letters, by their capitals. -/
def splitCase : List Char → List (List Char)
  | [] => []
  | c :: rest =>
    match wordsBehind c rest with
    | (front, behind) => (c :: front) :: behind

/-- The words of one piece: a number is a word. -/
def pieceWords (piece : List Char) : List (List Char) :=
  if (piece.head?.map isDigitChar).getD false then [piece] else splitCase piece

/-- The words of a text. -/
def splitWords (text : List Char) : List (List Char) :=
  (runs isWordChar text).flatMap fun run => (pieces run).flatMap pieceWords

/-- A text with a capital at its front. -/
def capitalized (word : List Char) : List Char :=
  match word with
  | [] => []
  | c :: rest => upper c ++ rest

/-- Words in one, with a capital at the front of every word but the first. -/
def camelCase : List (List Char) → List Char
  | [] => []
  | word :: words => lower word ++ words.flatMap fun next => capitalized (lower next)

/-- An identifier behind an underscore if it starts with a digit or is reserved. -/
def guarded (key : List Char) : String :=
  let key := if (key.head?.map isDigitChar).getD false then '_' :: key else key
  let text := String.ofList key
  if reservedWords.contains text then "_" ++ text else text

/-- The export identifier of a display name. -/
def identifierOf (name : List Char) : String :=
  match camelCase (splitWords name) with
  | [] => guarded fallback.toList
  | key => guarded key

/-- The display name of an export identifier. -/
def displayName (identifier : List Char) : String :=
  " ".intercalate ((splitWords identifier).map fun word => String.ofList (capitalized word))

end StoryName
end StoryMigration
