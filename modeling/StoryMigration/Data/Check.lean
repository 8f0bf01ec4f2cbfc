import StoryMigration.Data.Value
import StoryMigration.Text.Blank

/-!
# Checking values

Turning loosely typed values into what they are meant to be. Numbers and truth values may also be
written as texts. A check of several parts gathers what is wrong with all of them. Main statement: a
product of checks succeeds exactly if both do.
-/

namespace StoryMigration

/-- What is wrong with a value. -/
inductive Fault where
  | missing
  | unknownField
  | notText
  | notInteger
  | unreadableInteger
  | fractionalInteger
  | notBoolean
  | unreadableBoolean
  | notList
  | notRecord
  /-- None of a few texts. -/
  | notAChoice
  /-- None of a few names. -/
  | notAName
  /-- A date and time are wanted. -/
  | notATime
  | tooSmall
  | tooLarge
  deriving DecidableEq, Repr

/-- The name by which reports refer to a fault. -/
def Fault.name : Fault → String
  | missing => "missing"
  | unknownField => "extra_forbidden"
  | notText => "string_type"
  | notInteger => "int_type"
  | unreadableInteger => "int_parsing"
  | fractionalInteger => "int_from_float"
  | notBoolean => "bool_type"
  | unreadableBoolean => "bool_parsing"
  | notList => "list_type"
  | notRecord => "model_type"
  | notAChoice => "literal_error"
  | notAName => "enum"
  | notATime => "datetime_type"
  | tooSmall => "greater_than_equal"
  | tooLarge => "less_than_equal"

/-- A fault and where it is. -/
structure Complaint where
  /-- Names of fields and positions in lists, from the outside inwards. -/
  place : List String
  fault : Fault
  deriving DecidableEq, Repr

/-- A complaint in words. -/
def Complaint.text (complaint : Complaint) : String :=
  ".".intercalate complaint.place ++ ": " ++ complaint.fault.name

/-- Complaints in words, in the order of the words. -/
def complaintsText (complaints : List Complaint) : String :=
  "; ".intercalate ((complaints.map Complaint.text).mergeSort fun a b => decide (a ≤ b))

/-- A checked value, or all that is wrong with it. -/
inductive Checked (α : Type) where
  | ok (value : α)
  | faulty (complaints : List Complaint)
  deriving Repr

namespace Checked

variable {α β : Type}

/-- One fault, at the value itself. -/
def fault (fault : Fault) : Checked α := faulty [⟨[], fault⟩]

def map (f : α → β) : Checked α → Checked β
  | ok value => ok (f value)
  | faulty complaints => faulty complaints

/-- Two checks, with the complaints of both. -/
def both : Checked α → Checked β → Checked (α × β)
  | ok a, ok b => ok (a, b)
  | ok _, faulty cs => faulty cs
  | faulty cs, ok _ => faulty cs
  | faulty cs, faulty ds => faulty (cs ++ ds)

instance : Applicative Checked where
  pure := ok
  map := map
  seq f a := (f.both (a ())).map fun (f, a) => f a

theorem both_eq_ok_iff {a : Checked α} {b : Checked β} {pair : α × β} :
    a.both b = ok pair ↔ a = ok pair.1 ∧ b = ok pair.2 := by
  cases a <;> cases b <;> simp [both, Prod.ext_iff]

/-- A check of what depends on a checked value. -/
def thenCheck (checked : Checked α) (next : α → Checked β) : Checked β :=
  match checked with
  | ok value => next value
  | faulty complaints => faulty complaints

/-- The complaints at a place further out. -/
def within (place : String) : Checked α → Checked α
  | ok value => ok value
  | faulty complaints => faulty (complaints.map fun c => { c with place := place :: c.place })

/-- As an exception of complaints. -/
def toExcept : Checked α → Except (List Complaint) α
  | ok value => .ok value
  | faulty complaints => .error complaints

end Checked

namespace Value

/-- Digits with single underscores between them. -/
def digitsOf? : List Char → Option Nat :=
  let rec go (total : Nat) (afterDigit : Bool) : List Char → Option Nat
    | [] => if afterDigit then some total else none
    | c :: rest =>
      if c.isDigit then go (total * 10 + (c.toNat - '0'.toNat)) true rest
      else if c == '_' && afterDigit then go total false rest
      else none
  go 0 false

/-- The integer a text writes: a sign, digits, and zeros behind a point. -/
def integerOf? (text : List Char) : Option Int :=
  let (negative, unsigned) :=
    match trimWhite text with
    | '+' :: rest => (false, rest)
    | '-' :: rest => (true, rest)
    | rest => (false, rest)
  let (whole, fraction) := unsigned.span (· != '.')
  if (fraction.drop 1).all (· == '0') then
    (digitsOf? whole).map fun n => if negative then -(n : Int) else n
  else none

/-- The truth value a text names, in letters of either case. -/
def booleanOf? (text : String) : Option Bool :=
  let word := text.toLower
  if ["1", "on", "t", "true", "y", "yes"].contains word then some true
  else if ["0", "off", "f", "false", "n", "no"].contains word then some false
  else none

/-- The truth value of zero and one. -/
def bit? : Int → Option Bool
  | 0 => some false
  | 1 => some true
  | _ => none

/-- A text. -/
def asText : Value → Checked String
  | text s => .ok s
  | _ => .fault .notText

/-- An integer, also one written as a text or as a decimal, and also a truth value. -/
def asInteger : Value → Checked Int
  | int n => .ok n
  | bool b => .ok (if b then 1 else 0)
  | decimal digits places =>
    match wholeOf? digits places with
    | some n => .ok n
    | none => .fault .fractionalInteger
  | text s =>
    match integerOf? s.toList with
    | some n => .ok n
    | none => .fault .unreadableInteger
  | _ => .fault .notInteger

/-- A truth value, also one written as a text or as a number. -/
def asBoolean : Value → Checked Bool
  | bool b => .ok b
  | int n => read (bit? n)
  | decimal digits places =>
    match wholeOf? digits places with
    | some n => read (bit? n)
    | none => .fault .notBoolean
  | text s => read (booleanOf? s)
  | _ => .fault .notBoolean
where
  read : Option Bool → Checked Bool
    | some b => .ok b
    | none => .fault .unreadableBoolean

/-- A text that names one of a few things. -/
def asOneOf {α : Type} (fault : Fault) (read : String → Option α) : Value → Checked α
  | text s =>
    match read s with
    | some a => .ok a
    | none => .fault fault
  | _ => .fault fault

/-- Null, or what a check makes of the value. -/
def asOptional {α : Type} (check : Value → Checked α) : Value → Checked (Option α)
  | null => .ok none
  | value => (check value).map some

/-- A list of what a check makes of the items. -/
def asList {α : Type} (check : Value → Checked α) : Value → Checked (List α)
  | list items => go 0 items
  | _ => .fault .notList
where
  go (position : Nat) : List Value → Checked (List α)
    | [] => .ok []
    | item :: rest =>
      List.cons <$> (check item).within (toString position) <*> go (position + 1) rest

/-- The fields of a record. -/
def asRecord : Value → Checked Fields
  | record fields => .ok fields
  | _ => .fault .notRecord

end Value

namespace Checked

variable {α : Type}

/-- An integer within bounds. -/
def between (least : Int) (greatest? : Option Int) (checked : Checked Int) : Checked Int :=
  checked.thenCheck fun n =>
    if n < least then fault .tooSmall
    else match greatest? with
      | some greatest => if greatest < n then fault .tooLarge else ok n
      | none => ok n

end Checked

namespace Fields

variable {α : Type}

/-- What a check makes of a field; a default if the field is missing. -/
def get (fields : Fields) (name : String) (default : α) (check : Value → Checked α) : Checked α :=
  match fields.find? name with
  | some value => (check value).within name
  | none => .ok default

/-- What a check makes of a field that has to be there. -/
def require (fields : Fields) (name : String) (check : Value → Checked α) : Checked α :=
  match fields.find? name with
  | some value => (check value).within name
  | none => .faulty [⟨[name], .missing⟩]

/-- Complains about every field of another name. -/
def only (fields : Fields) (names : List String) : Checked Unit :=
  match fields.filter fun field => !names.contains field.1 with
  | [] => .ok ()
  | others => .faulty (others.map fun field => ⟨[field.1], .unknownField⟩)

end Fields

end StoryMigration
