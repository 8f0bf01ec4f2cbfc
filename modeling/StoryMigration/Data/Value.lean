/-!
# Values

Loosely typed values, as configuration and log records hold them. A number with a fraction is a decimal:
an integer and how many of its digits stand behind the point.
-/

namespace StoryMigration

/-- A loosely typed value. -/
inductive Value where
  | null
  | bool (b : Bool)
  | int (n : Int)
  /-- The decimal `digits / 10 ^ places`. -/
  | decimal (digits : Int) (places : Nat)
  | text (s : String)
  | list (items : List Value)
  | record (fields : List (String × Value))
  deriving Repr, Inhabited

/-- Named values; a later one of the same name counts. -/
abbrev Fields := List (String × Value)

namespace Fields

/-- The value of a name. -/
def find? (fields : Fields) (name : String) : Option Value :=
  (fields.reverse.find? (·.1 == name)).map (·.2)

/-- A value under a name, in the place of the name's first value if there is one. -/
def set (fields : Fields) (name : String) (value : Value) : Fields :=
  if fields.any (·.1 == name) then
    fields.map fun field => if field.1 == name then (name, value) else field
  else fields ++ [(name, value)]

/-- All fields, and those of the other list over them. -/
def overlaid (fields others : Fields) : Fields :=
  others.foldl (fun all field => all.set field.1 field.2) fields

/-- The fields without the one of a name. -/
def without (fields : Fields) (name : String) : Fields := fields.filter (·.1 != name)

end Fields

namespace Value

/-- A power of ten. -/
def tenTo : Nat → Nat
  | 0 => 1
  | n + 1 => tenTo n * 10

/-- The integer a decimal equals, if any. -/
def wholeOf? (digits : Int) (places : Nat) : Option Int :=
  if digits % tenTo places = 0 then some (digits / tenTo places) else none

/-- A value counts as true unless it is null, false, zero or empty. -/
def isTruthy : Value → Bool
  | null => false
  | bool b => b
  | int n => n != 0
  | decimal digits _ => digits != 0
  | text s => !s.isEmpty
  | list items => !items.isEmpty
  | record fields => !fields.isEmpty

end Value
end StoryMigration
