import StoryMigration.Syntax.Lexeme

/-!
# Goals

The grammar's rules refer to each other in circles. A goal names a rule that others call; the rules
themselves are ordinary functions that are given a reading for every goal. Tying the knot bounds how
deep goals may nest, and a bound proportional to the source is never reached.
-/

namespace StoryMigration
namespace Syntax

/-- The surroundings of an expression or type that decide how far it goes. -/
structure Place where
  /-- A statement may end behind it, so a line end can stop it. -/
  closes : Bool := false
  /-- The operator `in` may follow; it may not in the header of a loop. -/
  allowsIn : Bool := true
  /-- It stands between `?` and `:`, so a colon behind parameters may belong to the choice. -/
  betweenMarks : Bool := false
  /-- A binary operator could follow. -/
  operator : Bool := true
  deriving DecidableEq, Repr, Inhabited

namespace Place

/-- Inside brackets nothing of the surroundings matters. -/
def inside : Place := {}

/-- At the end of a statement. -/
def tail : Place := { closes := true }

/-- At the end of a statement, as a type that no operator can follow. -/
def typeTail : Place := { closes := true, operator := false }

/-- Inside brackets, as a type that no operator can follow. -/
def typeInside : Place := { operator := false }

end Place

/-- The rules that other rules call. -/
inductive Goal where
  | statement
  /-- An expression without commas outside brackets. -/
  | expression (place : Place)
  /-- An operand with its prefixes and suffixes. -/
  | operand (place : Place)
  /-- What a declaration or parameter binds. -/
  | binding
  /-- A type; `choice` admits conditional types. -/
  | type (place : Place) (choice : Bool)
  /-- A type without infix operators. -/
  | typeOperand (place : Place)
  /-- An element in angle brackets. -/
  | element

/-- What the rules need: the dialect, and a reading for every goal. -/
structure Grammar where
  dialect : Dialect
  read : Goal → Reading Node

namespace Grammar

variable (g : Grammar)

/-- Whether types can be written. -/
def typed : Bool := g.dialect.hasTypes

/-- The reading, in a dialect with types only. -/
def whenTyped {α : Type} (reading : Reading α) : Reading α := do
  Reading.require g.typed
  reading

/-- A reading that may be left out and exists in a dialect with types only. -/
def typedOption (reading : Reading Node) : Reading (List Node) := do
  if g.typed then pure (← Reading.maybe reading).toList else pure []

/-- Whether the place ends a statement right here without a semicolon. -/
def stopsHere (place : Place) : Reading Bool := do
  if place.closes then pure ((← get).statementEnd? g.dialect place.operator).isSome else pure false

/-- Fails where the place ends a statement. -/
def goesOn (place : Place) : Reading Unit := do
  Reading.require !(← g.stopsHere place)

/-- An expression inside brackets. -/
def inner : Reading Node := g.read (.expression .inside)

/-- Expressions with commas between them. -/
def commaExpression (place : Place) : Reading Node := do
  let first ← g.read (.expression place)
  let rest ← Reading.many do
    let comma ← Reading.sign ","
    let next ← g.read (.expression place)
    pure [comma, next]
  match rest with
  | [] => pure first
  | _ => Reading.build .sequence (first :: rest.flatten)

end Grammar

end Syntax
end StoryMigration
