import StoryMigration.Text.Utf8

/-!
# Small tools

What the tools that formatter scripts are made of do with their arguments and their input: printing by
a format, replacing characters, and waiting.
-/

namespace StoryMigration
namespace Command

/-- What a tool leaves behind. -/
structure Effect where
  output : List UInt8 := []
  errors : String := ""
  code : Nat := 0
  deriving Inhabited

/-- A tool that does nothing but fail. -/
def Effect.failing (code : Nat) (errors : String) : Effect := { errors, code }

/-- A tool that prints a text. -/
def Effect.printing (text : String) : Effect := { output := Utf8.ofString text }

namespace Tool

/-- A hint behind the complaint about an option. -/
def hint (tool : String) : String := "Try '" ++ tool ++ " --help' for more information.\n"

/-- The complaint about an option that a tool does not know. -/
def unknownOption (tool option : String) : Effect :=
  let what :=
    if "--".isPrefixOf option then "unrecognized option '" ++ option ++ "'"
    else "invalid option -- '" ++ String.ofList ((option.toList.drop 1).take 1) ++ "'"
  .failing 1 (tool ++ ": " ++ what ++ "\n" ++ hint tool)

/-- The first argument that looks like an option. -/
def option? (arguments : List String) : Option String :=
  (arguments.takeWhile (· != "--")).find? fun a => "-".isPrefixOf a && a != "-"

/-! ## Escapes -/

/-- The byte of a letter behind a backslash. -/
def escape? : Char → Option UInt8
  | '\\' => some 92
  | 'a' => some 7
  | 'b' => some 8
  | 'f' => some 12
  | 'n' => some 10
  | 'r' => some 13
  | 't' => some 9
  | 'v' => some 11
  | _ => none

/-- Octal digits. -/
def isOctal (c : Char) : Bool := '0' ≤ c && c ≤ '7'

/-- Up to three octal digits as a byte, and what is left behind them. -/
def octal? (text : List Char) : Option (UInt8 × List Char) :=
  let ds := (text.take 3).takeWhile isOctal
  if ds.isEmpty then none
  else
    let n := ds.foldl (fun n d => n * 8 + (d.toNat - '0'.toNat)) 0
    some (n.toUInt8, text.drop ds.length)

/-- A text with its escapes read; `fuel` bounds its length. -/
def unescaped (fuel : Nat) (text : List Char) : List UInt8 :=
  match fuel with
  | 0 => []
  | fuel + 1 =>
    match text with
    | [] => []
    | '\\' :: rest =>
      match octal? rest with
      | some (b, rest) => b :: unescaped fuel rest
      | none =>
        match rest with
        | c :: rest =>
          match escape? c with
          | some b => b :: unescaped fuel rest
          | none => 92 :: unescaped fuel (c :: rest)
        | [] => [92]
    | c :: rest => String.utf8EncodeChar c ++ unescaped fuel rest

/-! ## Printing -/

/-- Arguments as words, with an end of line unless the first one is `-n`. -/
def echo (escapes : Bool) (arguments : List String) : Effect :=
  let (arguments, ending) :=
    match arguments with
    | "-n" :: rest => (rest, [])
    | rest => (rest, ['\n'])
  let text := (" ".intercalate arguments).toList ++ ending
  { output := if escapes then unescaped (text.length + 1) text else Utf8.encode text }

/-- A text of at least some length: with spaces before it, or behind it. -/
def padded (width : Nat) (behind : Bool) (text : String) : String :=
  let spaces := String.ofList (List.replicate (width - text.length) ' ')
  if behind then text ++ spaces else spaces ++ text

/-- A format being used: what it has printed, and the arguments that are left. -/
structure Printing where
  output : List UInt8 := []
  errors : String := ""
  arguments : List String
  /-- It has taken arguments. -/
  taken : Bool := false
  /-- The shell itself prints. -/
  isOwn : Bool := true

namespace Printing

/-- The printing with bytes more. -/
def put (printing : Printing) (bytes : List UInt8) : Printing :=
  { printing with output := printing.output ++ bytes }

/-- The next argument. -/
def argument (printing : Printing) : String := printing.arguments.head?.getD ""

/-- The printing with a text for its next argument. -/
def putArgument (printing : Printing) (bytes : List UInt8) : Printing :=
  { printing.put bytes with arguments := printing.arguments.drop 1, taken := true }

/-- The printing with a complaint about the next argument, unless it is a number in full. -/
def checkNumber (printing : Printing) : Printing :=
  let argument := printing.argument
  if printing.arguments.isEmpty || argument.toInt?.isSome then printing
  else
    let digits := (argument.toList.dropWhile (· == '-')).takeWhile Char.isDigit
    let complaint :=
      match digits.isEmpty, printing.isOwn with
      | true, true => argument ++ ": expected numeric value"
      | true, false => "‘" ++ argument ++ "’: expected a numeric value"
      | false, true => argument ++ ": not completely converted"
      | false, false => "‘" ++ argument ++ "’: value not completely converted"
    { printing with errors := printing.errors ++ "printf: " ++ complaint ++ "\n" }

end Printing

/-- The number that a text starts with, or zero. -/
def leadingNumber (text : String) : Int :=
  let number (ds : List Char) : Int :=
    ds.foldl (fun n d => n * 10 + ((d.toNat - '0'.toNat : Nat) : Int)) 0
  match text.toList with
  | '-' :: rest => -(number (rest.takeWhile Char.isDigit))
  | chars => number (chars.takeWhile Char.isDigit)

/-- A number in the base that a letter asks for. -/
def numeral? (letter : Char) (n : Int) : Option String :=
  match letter with
  | 'd' | 'i' => some (toString n)
  | 'u' => some (toString n.toNat)
  | 'x' => some (String.ofList (Nat.toDigits 16 n.toNat))
  | 'X' => some (String.ofList ((Nat.toDigits 16 n.toNat).map Char.toUpper))
  | 'o' => some (String.ofList (Nat.toDigits 8 n.toNat))
  | _ => none

/-- A number of at least some length, with zeros before its digits if they are asked for. -/
def paddedNumber (width : Nat) (flags : List Char) (text : String) : String :=
  if flags.contains '0' && !flags.contains '-' then
    match text.toList with
    | '-' :: digits =>
      String.ofList ('-' :: List.replicate (width - text.length) '0' ++ digits)
    | digits => String.ofList (List.replicate (width - text.length) '0' ++ digits)
  else padded width (flags.contains '-') text

/-- A format used once; `fuel` bounds its length. -/
def formatOnce (fuel : Nat) (format : List Char) (printing : Printing) : Printing :=
  match fuel with
  | 0 => printing
  | fuel + 1 =>
    match format with
    | [] => printing
    | '%' :: '%' :: rest => formatOnce fuel rest (printing.put [37])
    | '%' :: rest =>
      let (flags, rest) := rest.span fun c => c == '-' || c == '0'
      let (digits, rest) := rest.span Char.isDigit
      let width := (String.ofList digits).toNat?.getD 0
      let (most, rest) :=
        match rest with
        | '.' :: rest =>
          (some ((String.ofList (rest.takeWhile Char.isDigit)).toNat?.getD 0),
            rest.dropWhile Char.isDigit)
        | rest => (none, rest)
      let pad := padded width (flags.contains '-')
      let argument := printing.argument
      match rest with
      | 's' :: rest =>
        let text :=
          match most with
          | some most => String.ofList (argument.toList.take most)
          | none => argument
        formatOnce fuel rest (printing.putArgument (Utf8.ofString (pad text)))
      | 'c' :: rest =>
        formatOnce fuel rest
          (printing.putArgument (Utf8.ofString (pad (String.ofList (argument.toList.take 1)))))
      | 'b' :: rest =>
        formatOnce fuel rest
          (printing.putArgument (unescaped (argument.length + 1) argument.toList))
      | letter :: after =>
        match numeral? letter (leadingNumber argument) with
        | some text =>
          formatOnce fuel after
            (printing.checkNumber.putArgument (Utf8.ofString (paddedNumber width flags text)))
        | none => formatOnce fuel rest (printing.put [37])
      | [] => printing.put [37]
    | '\\' :: rest =>
      match octal? rest with
      | some (b, rest) => formatOnce fuel rest (printing.put [b])
      | none =>
        match rest with
        | c :: rest =>
          match escape? c with
          | some b => formatOnce fuel rest (printing.put [b])
          | none => formatOnce fuel (c :: rest) (printing.put [92])
        | [] => printing.put [92]
    | c :: rest => formatOnce fuel rest (printing.put (String.utf8EncodeChar c))

/-- A format used until no arguments are left, at least once. -/
def formatAll (fuel : Nat) (format : List Char) (printing : Printing) : Printing :=
  match fuel with
  | 0 => printing
  | fuel + 1 =>
    let after := formatOnce (format.length + 1) format { printing with taken := false }
    if after.arguments.isEmpty || !after.taken then after else formatAll fuel format after

/-- Prints arguments by a format; `isOwn` if the shell itself does it. -/
def printf (isOwn : Bool) (arguments : List String) : Effect :=
  match arguments with
  | [] =>
    if isOwn then .failing 2 "printf: usage: printf format [arg ...]\n"
    else .failing 1 ("printf: missing operand\n" ++ hint "printf")
  | format :: arguments =>
    let printing := formatAll (arguments.length + 1) format.toList { arguments, isOwn }
    { output := printing.output
      errors := printing.errors
      code := if printing.errors.isEmpty then 0 else 1 }

/-! ## Replacing characters -/

/-- The bytes a set of characters lists, with ranges. -/
def setOf : List UInt8 → List UInt8
  | a :: 45 :: b :: rest =>
    ((List.range (b.toNat + 1 - a.toNat)).map fun n => a + n.toUInt8) ++ setOf rest
  | a :: rest => a :: setOf rest
  | [] => []

/-- Named classes of characters. -/
def classes : List (String × String) :=
  [("[:lower:]", "a-z"), ("[:upper:]", "A-Z"), ("[:digit:]", "0-9"), ("[:alpha:]", "A-Za-z"),
    ("[:alnum:]", "0-9A-Za-z"), ("[:space:]", "\t-\r "), ("[:blank:]", "\t ")]

/-- The bytes of a set, with escapes and named classes. -/
def setFor (text : String) : List UInt8 :=
  match classes.lookup text with
  | some ranges => setOf (Utf8.ofString ranges)
  | none => setOf (unescaped (text.length + 1) text.toList)

/-- The byte that stands for another one: that at the same position of the second set, or its last. -/
def replacedByte (first second : List UInt8) (b : UInt8) : UInt8 :=
  match first.idxOf? b with
  | some position => second[position]?.getD (second.getLast?.getD b)
  | none => b

/-- Bytes with each run of one byte of a set written once; `before` is the byte in front of them. -/
def squeezed (set : List UInt8) (before : Option UInt8) : List UInt8 → List UInt8
  | [] => []
  | b :: rest =>
    if before == some b && set.contains b then squeezed set before rest
    else b :: squeezed set (some b) rest

/-- The sets and options of a replacement of characters. -/
structure Replacing where
  deletes : Bool := false
  squeezes : Bool := false
  /-- The first set stands for the bytes that are not in it. -/
  complements : Bool := false
  sets : List String := []

/-- Replacing with an option more, if it is known. -/
def Replacing.withOption? (r : Replacing) (option : String) : Option Replacing :=
  (option.toList.drop 1).foldlM
    (fun r c =>
      match c with
      | 'd' => some { r with deletes := true }
      | 's' => some { r with squeezes := true }
      | 'c' | 'C' => some { r with complements := true }
      | _ => none)
    r

/-- Replacing as arguments ask for it, or the option that is not known. -/
def Replacing.ofArguments (r : Replacing) : List String → Except String Replacing
  | [] => .ok r
  | "--" :: sets => .ok { r with sets := r.sets ++ sets }
  | a :: rest =>
    if "-".isPrefixOf a && a != "-" then
      match r.withOption? a with
      | some r => r.ofArguments rest
      | none => .error a
    else { r with sets := r.sets ++ [a] }.ofArguments rest

/-- What replacing makes of some bytes. -/
def Replacing.run (r : Replacing) (input : List UInt8) : List UInt8 :=
  let listed := setFor (r.sets.head?.getD "")
  let first :=
    if r.complements then
      ((List.range 256).map Nat.toUInt8).filter fun b => !listed.contains b
    else listed
  let second := setFor ((r.sets.drop 1).head?.getD "")
  if r.deletes then
    let kept := input.filter fun b => !first.contains b
    if r.squeezes then squeezed second none kept else kept
  else if r.sets.length < 2 then squeezed first none input
  else
    let replaced := input.map (replacedByte first second)
    if r.squeezes then squeezed second none replaced else replaced

/-- Replaces or deletes the bytes of a set. -/
def tr (arguments : List String) (input : List UInt8) : Effect :=
  match Replacing.ofArguments {} arguments with
  | .error option => unknownOption "tr" option
  | .ok r =>
    match r.sets with
    | [] => .failing 1 ("tr: missing operand\n" ++ hint "tr")
    | [only] =>
      if r.deletes != r.squeezes then { output := r.run input }
      else
        .failing 1 ("tr: missing operand after ‘" ++ only ++ "’\n"
          ++ "Two strings must be given when "
          ++ (if r.deletes then "both deleting and squeezing repeats" else "translating") ++ ".\n"
          ++ hint "tr")
    | [_, second] =>
      if r.deletes && !r.squeezes then
        .failing 1 ("tr: extra operand ‘" ++ second ++ "’\n"
          ++ "Only one string may be given when deleting without squeezing repeats.\n"
          ++ hint "tr")
      else { output := r.run input }
    | _ :: _ :: extra :: _ => .failing 1 ("tr: extra operand ‘" ++ extra ++ "’\n" ++ hint "tr")

/-! ## Waiting -/

/-- Milliseconds of an interval: a number with up to three places behind a point, and a unit. -/
def interval? (text : String) : Option Nat :=
  let chars := text.toList
  let (chars, unit) :=
    match chars.getLast? with
    | some 's' => (chars.dropLast, 1)
    | some 'm' => (chars.dropLast, 60)
    | some 'h' => (chars.dropLast, 3600)
    | some 'd' => (chars.dropLast, 86400)
    | _ => (chars, 1)
  let (whole, fraction) := chars.span (· != '.')
  let fraction := fraction.drop 1
  if (whole ++ fraction).isEmpty || !(whole ++ fraction).all Char.isDigit then none
  else
    let number (ds : List Char) : Nat := ds.foldl (fun n d => n * 10 + (d.toNat - '0'.toNat)) 0
    let places := (fraction ++ ['0', '0', '0']).take 3
    some ((number whole * 1000 + number places) * unit)

/-- Milliseconds that arguments ask to wait. -/
def sleepTime (arguments : List String) : Except Effect Nat :=
  match option? arguments with
  | some option => .error (unknownOption "sleep" option)
  | none =>
    if arguments.isEmpty then .error (.failing 1 ("sleep: missing operand\n" ++ hint "sleep"))
    else
      match arguments.mapM interval? with
      | some times => .ok (times.foldl (· + ·) 0)
      | none => .error (.failing 1 ("sleep: invalid time interval ‘"
          ++ ((arguments.find? fun a => (interval? a).isNone).getD "") ++ "’\n"
          ++ hint "sleep"))

end Tool
end Command
end StoryMigration
