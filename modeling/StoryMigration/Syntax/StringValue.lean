import StoryMigration.Syntax.Module
import StoryMigration.Text.CodePoint

/-!
# Values of string literals

What a string literal denotes: its fragments as they stand, its escape sequences decoded, and pairs of
surrogates joined, however they were written.
-/

namespace StoryMigration
namespace Syntax

/-- Why an escape sequence denotes nothing. -/
inductive EscapeError where
  /-- The number lies beyond the last code point. -/
  | beyondUnicode
  /-- The number does not even fit a machine integer. -/
  | beyondMachine
  deriving DecidableEq, Repr

namespace EscapeError

/-- How the failure is put into words; a number too large for the machine has no message of its
own. -/
def message : EscapeError → Option String
  | beyondUnicode => some "chr() arg not in range(0x110000)"
  | beyondMachine => none

end EscapeError

/-- The value of a hexadecimal digit. -/
def hexDigitValue (c : Char) : Nat :=
  if c.isDigit then c.toNat - '0'.toNat
  else if 'a' ≤ c then c.toNat - 'a'.toNat + 10
  else c.toNat - 'A'.toNat + 10

/-- The number that hexadecimal digits write. -/
def hexValue (digits : List Char) : Nat :=
  digits.foldl (fun value digit => value * 16 + hexDigitValue digit) 0

/-- The code point of a number from an escape sequence. -/
def codePointOf (n : Nat) : Except EscapeError CodePoint :=
  match CodePoint.ofNat? n with
  | some point => .ok point
  | none => .error (if n < 0x80000000 then .beyondUnicode else .beyondMachine)

/-- What an escape sequence that writes no number denotes, given without its backslash. A line end
that is escaped is none. -/
def plainEscape : List Char → List Char
  | '\n' :: _ => []
  | '\r' :: _ => []
  | ['n'] => ['\n']
  | ['r'] => ['\r']
  | ['t'] => ['\t']
  | ['b'] => ['\x08']
  | ['f'] => ['\x0c']
  | ['v'] => ['\x0b']
  | ['0'] => ['\x00']
  | other => other

/-- What an escape sequence denotes, given without its backslash. -/
def escapeValue (body : List Char) : Except EscapeError Text :=
  match body with
  | 'u' :: '\x7b' :: digits => do pure [← codePointOf (hexValue digits.dropLast)]
  | ['u', a, b, c, d] => do pure [← codePointOf (hexValue [a, b, c, d])]
  | ['x', a, b] => do pure [← codePointOf (hexValue [a, b])]
  | other => .ok (.ofChars (plainEscape other))

namespace Module

/-- What one part of a string literal denotes. -/
def fragmentValue (m : Module) (part : Node) : Except EscapeError Text :=
  let chars := (m.text part).toList
  if part.kind = .escapeSequence then escapeValue (chars.drop 1) else .ok (.ofChars chars)

/-- What a string literal denotes. -/
def stringValue (m : Module) (literal : Node) : Except EscapeError Text := do
  let parts ← literal.namedChildren.mapM m.fragmentValue
  pure (Text.paired parts.flatten)

/-- The static key of an object's member, if it has one: that of a pair, a shorthand or a method.
Spreads and computed keys have none. -/
def propertyKey (m : Module) (member : Node) : Except EscapeError (Option Text) :=
  match member.kind with
  | .shorthandProperty => .ok (some (.ofString (m.text member)))
  | .pair | .methodDefinition =>
    match member.child? .key <|> member.child? .name with
    | some key =>
      match key.kind with
      | .string => some <$> m.stringValue key
      | .propertyName | .number | .privateName => .ok (some (.ofString (m.text key)))
      | _ => .ok none
    | none => .ok none
  | _ => .ok none

end Module

end Syntax
end StoryMigration
