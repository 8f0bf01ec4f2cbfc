import StoryMigration.Command.Expression
import StoryMigration.Command.Tool

/-!
# Editing line by line

Scripts of commands that each line of an input goes through: replacing text, leaving lines out, printing
them twice, and stopping.
-/

namespace StoryMigration
namespace Command
namespace LineEdit

/-- The lines that a command is for. -/
inductive Address where
  | line (number : Nat)
  /-- From one line to another one, or to the end. -/
  | lines (first : Nat) (last : Option Nat)
  | last
  | matching (e : Expression)
  deriving Repr

/-- How a text is replaced. -/
structure Substitution where
  pattern : Expression
  /-- The replacement as it is written. -/
  new : List Char
  /-- All that match are replaced, not the first one only. -/
  all : Bool := false
  /-- The first one that is replaced, counted from one. -/
  first : Nat := 1
  /-- A line in which something is replaced is printed. -/
  prints : Bool := false
  deriving Repr

/-- What is done with a line. -/
inductive Action where
  | substitute (s : Substitution)
  /-- Characters are replaced by others. -/
  | transliterate (old new : List Char)
  | delete
  | print
  | quit
  deriving Repr

/-- A command for some lines, or for all that it is not for if it is negated. -/
structure Order where
  address : Option Address
  negated : Bool
  action : Action
  deriving Repr

/-- Why a script cannot be read: where, and what is wrong. -/
structure ScriptFault where
  position : Nat
  reason : String
  deriving DecidableEq, Repr

/-! ## Reading scripts -/

/-- The text up to a sign that no backslash stands before, and what is left behind the sign. -/
def upTo? (sign : Char) : List Char → Option (List Char × List Char)
  | [] => none
  | [c] => if c == sign then some ([], []) else none
  | c :: d :: rest =>
    if c == sign then some ([], d :: rest)
    else if c == '\\' then
      (upTo? sign rest).map fun (text, rest) =>
        (if d == sign then d :: text else c :: d :: text, rest)
    else (upTo? sign (d :: rest)).map fun (text, rest) => (c :: text, rest)

/-- Signs behind which a new command starts. -/
def isEnd (c : Char) : Bool := c == ';' || c == '\n'

/-- White space between the parts of a script. -/
def isGap (c : Char) : Bool := c == ' ' || c == '\t'

/-- A substitution with the options that stand behind it. -/
def withFlags (s : Substitution) (flags : List Char) : Option Substitution :=
  let digits := flags.filter Char.isDigit
  (flags.filter (!·.isDigit)).foldlM
    (fun s c =>
      match c with
      | 'g' => some { s with all := true }
      | 'p' => some { s with prints := true }
      | _ => none)
    { s with first := (String.ofList digits).toNat?.getD 1 }

/-- The expression that a text writes, in its basic or its extended form. -/
def patternOf (extended : Bool) (text : List Char) : Expression :=
  .ofChars (if extended then Expression.basicForm false text else text)

/-- The address at the start of a command, and what is left behind it. -/
def address? (extended : Bool) (text : List Char) : Option Address × List Char :=
  match text with
  | '$' :: rest => (some .last, rest)
  | '/' :: rest =>
    match upTo? '/' rest with
    | some (pattern, rest) => (some (.matching (patternOf extended pattern)), rest)
    | none => (none, '/' :: rest)
  | text =>
    let (digits, rest) := text.span Char.isDigit
    match (String.ofList digits).toNat?, rest with
    | some first, ',' :: '$' :: rest => (some (.lines first none), rest)
    | some first, ',' :: rest =>
      let (digits, rest) := rest.span Char.isDigit
      (some (.lines first (some ((String.ofList digits).toNat?.getD 0))), rest)
    | number, rest => (number.map .line, rest)

/-- The action at the start of a text, and what is left behind it. `length` is that of the whole
script. -/
def action (extended : Bool) (length : Nat) (text : List Char) : Except ScriptFault (Action × List Char) :=
  match text with
  | 's' :: sign :: rest => do
    let unterminated : ScriptFault := ⟨length, "unterminated \x60s' command"⟩
    let some (pattern, rest) := upTo? sign rest | throw unterminated
    let some (new, rest) := upTo? sign rest | throw unterminated
    let (flags, rest) := rest.span fun c => !isEnd c && !isGap c && c != '\x7d'
    match withFlags { pattern := patternOf extended pattern, new } flags with
    | some s => pure (.substitute s, rest)
    | none =>
      let known := flags.takeWhile fun c => c == 'g' || c == 'p' || c.isDigit
      throw ⟨length - rest.length - flags.length + known.length + 1, "unknown option to \x60s'"⟩
  | ['s'] => .error ⟨length, "unterminated \x60s' command"⟩
  | 'y' :: sign :: rest => do
    let unterminated : ScriptFault := ⟨length, "unterminated \x60y' command"⟩
    let some (old, rest) := upTo? sign rest | throw unterminated
    let some (new, rest) := upTo? sign rest | throw unterminated
    if old.length != new.length then
      throw ⟨length - rest.length, "strings for \x60y' command are different lengths"⟩
    pure (.transliterate old new, rest)
  | 'd' :: rest => .ok (.delete, rest)
  | 'p' :: rest => .ok (.print, rest)
  | 'q' :: rest => .ok (.quit, rest)
  | c :: rest =>
    .error ⟨length - rest.length, "unknown command: \x60" ++ String.ofList [c] ++ "'"⟩
  | [] => .error ⟨length, "missing command"⟩

/-- The commands of a script; `fuel` bounds its length. -/
def ordersFrom (extended : Bool) (fuel length : Nat) (text : List Char) : Except ScriptFault (List Order) :=
  match fuel with
  | 0 => .ok []
  | fuel + 1 =>
    match text.dropWhile fun c => isEnd c || isGap c with
    | [] => .ok []
    | text => do
      let (address, rest) := address? extended text
      let rest := rest.dropWhile isGap
      let (negated, rest) :=
        match rest with
        | '!' :: rest => (true, rest.dropWhile isGap)
        | rest => (false, rest)
      let (action, rest) ← action extended length rest
      let rest := rest.dropWhile isGap
      if rest.head?.any (!isEnd ·) then
        throw ⟨length - rest.length + 1, "extra characters after command"⟩
      pure (⟨address, negated, action⟩ :: (← ordersFrom extended fuel length rest))

/-- The commands that a script writes. -/
def orders (extended : Bool) (script : String) : Except ScriptFault (List Order) :=
  ordersFrom extended (script.length + 1) script.length script.toList

/-! ## Editing -/

/-- A replacement: what stands for the text that is replaced. -/
def replacement (found : List Char) (groups : List (Nat × List Char)) : List Char → List Char
  | '\\' :: 'n' :: rest => '\n' :: replacement found groups rest
  | '\\' :: 't' :: rest => '\t' :: replacement found groups rest
  | '\\' :: c :: rest =>
    if c == '0' then found ++ replacement found groups rest
    else if c.isDigit then
      (groups.lookup (c.toNat - '0'.toNat)).getD [] ++ replacement found groups rest
    else c :: replacement found groups rest
  | '&' :: rest => found ++ replacement found groups rest
  | c :: rest => c :: replacement found groups rest
  | [] => []

/-- The rest of a line with what matches replaced, and whether anything is. `count` is the number of the
next match; `mayBeEmpty` tells that an empty match counts, because none has just ended here. -/
def replacedIn (fuel : Nat) (s : Substitution) (count : Nat) (isLineStart mayBeEmpty : Bool)
    (line : List Char) : List Char × Bool :=
  match fuel with
  | 0 => (line, false)
  | fuel + 1 =>
    let skip (_ : Unit) : List Char × Bool :=
      match line with
      | c :: rest =>
        let (more, changed) := replacedIn fuel s count false true rest
        (c :: more, changed)
      | [] => ([], false)
    match s.pattern.match? isLineStart line with
    | none => skip ()
    | some found =>
      if found.length = 0 && !mayBeEmpty then skip ()
      else
        let text := line.take found.length
        let behind := line.drop found.length
        let isReplaced := if s.all then s.first ≤ count else count = s.first
        let new := if isReplaced then replacement text found.groups s.new else text
        if isReplaced && !s.all then (new ++ behind, true)
        else
          match found.length, behind with
          | 0, c :: rest =>
            let (more, changed) := replacedIn fuel s (count + 1) false true rest
            (new ++ c :: more, changed || isReplaced)
          | 0, [] => (new, isReplaced)
          | _ + 1, behind =>
            let (more, changed) := replacedIn fuel s (count + 1) false false behind
            (new ++ more, changed || isReplaced)

/-- A line on its way through a script. -/
structure Passing where
  line : List Char
  /-- Lines printed on the way. -/
  printed : List (List Char) := []
  deleted : Bool := false
  quits : Bool := false

/-- Whether a command is for a line. -/
def Order.isFor (order : Order) (number : Nat) (isLast : Bool) (line : List Char) : Bool :=
  let chosen :=
    match order.address with
    | none => true
    | some (.line n) => n == number
    | some (.lines first last) =>
      number == first || (first < number && last.all fun last => number ≤ last)
    | some .last => isLast
    | some (.matching e) => e.matchesLine line
  chosen != order.negated

/-- A line behind a command. -/
def pass (number : Nat) (isLast : Bool) (p : Passing) (order : Order) : Passing :=
  if p.deleted || p.quits || !order.isFor number isLast p.line then p
  else
    match order.action with
    | .substitute s =>
      let (line, changed) := replacedIn (2 * p.line.length + 2) s 1 true true p.line
      { p with
        line
        printed := if changed && s.prints then p.printed ++ [line] else p.printed }
    | .transliterate old new =>
      { p with line := p.line.map fun c => ((old.zip new).lookup c).getD c }
    | .delete => { p with deleted := true }
    | .print => { p with printed := p.printed ++ [p.line] }
    | .quit => { p with quits := true }

/-- The lines that a script makes of lines. -/
def edit (quiet : Bool) (orders : List Order) (number : Nat) : List (List Char) → List (List Char)
  | [] => []
  | line :: rest =>
    let p := orders.foldl (pass number rest.isEmpty) { line }
    p.printed ++ (if quiet || p.deleted then [] else [p.line])
      ++ (if p.quits then [] else edit quiet orders (number + 1) rest)

/-- A script and the files that it is for. -/
structure Invocation where
  quiet : Bool := false
  /-- Expressions are in their extended form. -/
  extended : Bool := false
  scripts : List String := []
  files : List String := []

namespace Invocation

/-- Scripts behind `-e`, options, and what is left. -/
def gather (i : Invocation) : List String → Except Effect Invocation
  | [] => .ok i
  | "-n" :: rest => gather { i with quiet := true } rest
  | "-E" :: rest => gather { i with extended := true } rest
  | "-r" :: rest => gather { i with extended := true } rest
  | ["-e"] => .error (.failing 1 "sed: option requires an argument -- 'e'\n")
  | "-e" :: script :: rest => gather { i with scripts := i.scripts ++ [script] } rest
  | "--" :: rest => .ok { i with files := i.files ++ rest }
  | a :: rest =>
    if "-".isPrefixOf a && a != "-" then .error (Tool.unknownOption "sed" a)
    else gather { i with files := i.files ++ [a] } rest

/-- A script and files, as arguments name them. -/
def ofArguments (arguments : List String) : Except Effect Invocation := do
  let i ← gather {} arguments
  if i.scripts.isEmpty then
    match i.files with
    | [] =>
      throw (.failing 1
        "Usage: sed [OPTION]... \x7bscript-only-if-no-other-script\x7d [input-file]...\n")
    | script :: files => pure { i with scripts := [script], files }
  else pure i

/-- The edited form of an input. Its last line has no end if it had none before. -/
def run (i : Invocation) (input : List UInt8) : Effect :=
  match orders i.extended ("\n".intercalate i.scripts), Utf8.decode? input with
  | .error fault, _ =>
    .failing 1 ("sed: -e expression #" ++ toString i.scripts.length ++ ", char "
      ++ toString fault.position ++ ": " ++ fault.reason ++ "\n")
  | .ok _, none => { output := input }
  | .ok orders, some text =>
    if text.isEmpty then {}
    else
      let lines := text.splitOn '\n'
      let ended := lines.getLast? == some []
      let lines := if ended then lines.dropLast else lines
      let edited := edit i.quiet orders 1 lines
      let output := ['\n'].intercalate edited
      { output := Utf8.encode (output ++ (if ended && !edited.isEmpty then ['\n'] else [])) }

end Invocation
end LineEdit
end Command
end StoryMigration
