/-!
# Basic regular expressions

Expressions over the characters of a line: single characters, sets, repetitions, groups and references
to what a group has found. A match takes as much as it can at each repetition, from the left.
-/

namespace StoryMigration
namespace Command

/-- What one character of a text is compared with. -/
inductive Atom where
  | char (c : Char)
  | any
  | set (negated : Bool) (ranges : List (Char × Char))
  deriving DecidableEq, Repr

/-- Whether a character fits an atom. -/
def Atom.fits (atom : Atom) (c : Char) : Bool :=
  match atom with
  | .char d => c == d
  | .any => true
  | .set negated ranges => (ranges.any fun r => r.1 ≤ c && c ≤ r.2) != negated

/-- A step of an expression. -/
inductive MatchStep where
  /-- A character, at least and at most some times. -/
  | repeated (atom : Atom) (least : Nat) (most : Option Nat)
  /-- A group starts. -/
  | opening (number : Nat)
  /-- A group ends. -/
  | closing (number : Nat)
  /-- What a group has found, once more. -/
  | again (number : Nat)
  /-- The end of the line. -/
  | lineEnd
  deriving DecidableEq, Repr

/-- An expression: its steps, and whether they start where the line starts. -/
structure Expression where
  atStart : Bool
  steps : List MatchStep
  deriving DecidableEq, Repr

/-- A match: how many characters it takes, and what its groups have found. -/
structure Match where
  length : Nat
  groups : List (Nat × List Char)
  deriving DecidableEq, Repr, Inhabited

namespace Expression

/-! ## Matching -/

/-- The match of steps at a position of a text. `starts` are the positions of the groups that are
open. -/
def matchSteps (text : List Char) (starts : List (Nat × Nat)) (groups : List (Nat × List Char)) :
    List MatchStep → Nat → Option Match
  | [], position => some ⟨position, groups⟩
  | .lineEnd :: steps, position =>
    if position < text.length then none else matchSteps text starts groups steps position
  | .opening number :: steps, position =>
    matchSteps text ((number, position) :: starts) groups steps position
  | .closing number :: steps, position =>
    let start := (starts.lookup number).getD position
    matchSteps text starts ((number, (text.take position).drop start) :: groups) steps position
  | .again number :: steps, position =>
    let found := (groups.lookup number).getD []
    if found.isPrefixOf (text.drop position) then
      matchSteps text starts groups steps (position + found.length)
    else none
  | .repeated atom least most :: steps, position =>
    let fitting := ((text.drop position).takeWhile atom.fits).length
    let longest := (most.map (min fitting)).getD fitting
    (List.range (longest + 1 - least)).reverse.findSome? fun n =>
      matchSteps text starts groups steps (position + least + n)

/-- The match of an expression at the start of a text, which is the start of the line or not. -/
def match? (e : Expression) (isLineStart : Bool) (text : List Char) : Option Match :=
  if e.atStart && !isLineStart then none else matchSteps text [] [] e.steps 0

/-- Whether an expression matches somewhere in a line. -/
def matchesLine (e : Expression) (line : List Char) : Bool :=
  (List.range (line.length + 1)).any fun n => (e.match? (n == 0) (line.drop n)).isSome

/-! ## Reading -/

/-- Ranges of characters in brackets. -/
def bracketRanges : List Char → List (Char × Char)
  | a :: '-' :: b :: rest => (a, b) :: bracketRanges rest
  | a :: rest => (a, a) :: bracketRanges rest
  | [] => []

/-- The characters up to the bracket that closes a set, and what is left behind it. A bracket at the
start is one of the characters. -/
def upToBracket (text : List Char) : List Char × List Char :=
  match text with
  | ']' :: rest => (']' :: rest.takeWhile (· != ']'), (rest.dropWhile (· != ']')).drop 1)
  | text => (text.takeWhile (· != ']'), (text.dropWhile (· != ']')).drop 1)

/-- How often an atom is repeated, by what stands behind it, and what is left. -/
def repetition (rest : List Char) : (Nat × Option Nat) × List Char :=
  match rest with
  | '*' :: rest => ((0, none), rest)
  | '\\' :: '+' :: rest => ((1, none), rest)
  | '\\' :: '?' :: rest => ((0, some 1), rest)
  | '\\' :: '\x7b' :: rest =>
    let (counts, rest) := rest.span (· != '\\')
    let (least, most) := counts.span (· != ',')
    let least := (String.ofList least).toNat?.getD 0
    let most :=
      match most with
      | [] => some least
      | _ :: most => (String.ofList most).toNat?
    ((least, most), rest.drop 2)
  | rest => ((1, some 1), rest)

/-- The steps of an expression as it is written. `count` groups have been opened, and those in `pending`
are open; `fuel` bounds the length. -/
def stepsOf (fuel count : Nat) (pending : List Nat) (text : List Char) : List MatchStep :=
  match fuel with
  | 0 => []
  | fuel + 1 =>
    let repeated (atom : Atom) (rest : List Char) : List MatchStep :=
      let ((least, most), rest) := repetition rest
      .repeated atom least most :: stepsOf fuel count pending rest
    match text with
    | [] => []
    | ['$'] => [.lineEnd]
    | '\\' :: '(' :: '*' :: rest =>
      .opening (count + 1) :: .repeated (.char '*') 1 (some 1)
        :: stepsOf fuel (count + 1) ((count + 1) :: pending) rest
    | '\\' :: '(' :: rest =>
      .opening (count + 1) :: stepsOf fuel (count + 1) ((count + 1) :: pending) rest
    | '\\' :: ')' :: rest =>
      match pending with
      | number :: pending => .closing number :: stepsOf fuel count pending rest
      | [] => stepsOf fuel count pending rest
    | '.' :: rest => repeated .any rest
    | '[' :: '^' :: rest =>
      let (inside, rest) := upToBracket rest
      repeated (.set true (bracketRanges inside)) rest
    | '[' :: rest =>
      let (inside, rest) := upToBracket rest
      repeated (.set false (bracketRanges inside)) rest
    | '\\' :: 'n' :: rest => repeated (.char '\n') rest
    | '\\' :: 't' :: rest => repeated (.char '\t') rest
    | '\\' :: c :: rest =>
      if c.isDigit && c != '0' then
        .again (c.toNat - '0'.toNat) :: stepsOf fuel count pending rest
      else repeated (.char c) rest
    | c :: rest => repeated (.char c) rest

/-- The basic form of an expression in which groups and counts need no backslash. `inSet` tells that a
set is open. -/
def basicForm (inSet : Bool) : List Char → List Char
  | [] => []
  | '\\' :: c :: rest =>
    if inSet then '\\' :: basicForm inSet (c :: rest)
    else if ['(', ')', '\x7b', '\x7d', '+', '?'].contains c then c :: basicForm false rest
    else '\\' :: c :: basicForm false rest
  | c :: rest =>
    if inSet then c :: basicForm (c != ']') rest
    else if ['(', ')', '\x7b', '\x7d', '+', '?'].contains c then
      '\\' :: c :: basicForm false rest
    else c :: basicForm (c == '[') rest

/-- The expression that a text writes. A star at its start stands for itself. -/
def ofChars (text : List Char) : Expression :=
  let (atStart, text) :=
    match text with
    | '^' :: rest => (true, rest)
    | rest => (false, rest)
  match text with
  | '*' :: rest => ⟨atStart, .repeated (.char '*') 1 (some 1) :: stepsOf (rest.length + 1) 0 [] rest⟩
  | rest => ⟨atStart, stepsOf (rest.length + 1) 0 [] rest⟩

end Expression
end Command
end StoryMigration
