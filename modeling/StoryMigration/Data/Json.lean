import StoryMigration.Data.Value
import StoryMigration.Text.Quotation

/-!
# JSON

Reading values that are written as JSON, and writing values as JSON in ASCII. White space may stand
between any two signs. Every part is read from the characters that are left, which become fewer.
-/

namespace StoryMigration
namespace Json

/-- White space of JSON. -/
def isBlank (c : Char) : Bool := c == ' ' || c == '\t' || c == '\n' || c == '\r'

/-- What is left behind white space. -/
def skipBlank (text : List Char) : List Char := text.dropWhile isBlank

/-- What is left behind a word. -/
def after? (word : List Char) (text : List Char) : Option (List Char) :=
  if word.isPrefixOf text then some (text.drop word.length) else none

/-- Digits and what is left behind them. -/
def digits (text : List Char) : List Char × List Char := text.span Char.isDigit

/-- The number some digits write. -/
def numberOf (ds : List Char) : Nat :=
  ds.foldl (fun n d => n * 10 + (d.toNat - '0'.toNat)) 0

/-- The digits behind a point, if there are any. -/
def fraction (text : List Char) : List Char × List Char :=
  match text with
  | '.' :: rest =>
    match digits rest with
    | ([], _) => ([], text)
    | found => found
  | _ => ([], text)

/-- The power of ten a number is scaled by, if it names one. -/
def exponent? (text : List Char) : Option Int × List Char :=
  match text with
  | e :: rest =>
    if e == 'e' || e == 'E' then
      let (negative, rest) :=
        match rest with
        | '-' :: rest => (true, rest)
        | '+' :: rest => (false, rest)
        | rest => (false, rest)
      match digits rest with
      | ([], _) => (none, text)
      | (ds, rest) => (some (if negative then -(numberOf ds : Int) else numberOf ds), rest)
    else (none, text)
  | [] => (none, text)

/-- A number. -/
def number? (text : List Char) : Option (Value × List Char) :=
  let (negative, rest) :=
    match text with
    | '-' :: rest => (true, rest)
    | rest => (false, rest)
  let whole :=
    match rest with
    | '0' :: rest => (['0'], rest)
    | rest => digits rest
  match whole with
  | ([], _) => none
  | (ds, rest) =>
    let (behind, rest) := fraction rest
    let (scale?, rest) := exponent? rest
    let size := numberOf (ds ++ behind)
    let signed : Int := if negative then -(size : Int) else size
    if behind.isEmpty && scale?.isNone then some (.int signed, rest)
    else
      let places := (behind.length : Int) - scale?.getD 0
      if 0 ≤ places then some (.decimal signed places.toNat, rest)
      else some (.decimal (signed * Value.tenTo (-places).toNat) 0, rest)

/-- The value of a hexadecimal digit. -/
def hexValue? (c : Char) : Option Nat :=
  if '0' ≤ c && c ≤ '9' then some (c.toNat - '0'.toNat)
  else if 'a' ≤ c && c ≤ 'f' then some (c.toNat - 'a'.toNat + 10)
  else if 'A' ≤ c && c ≤ 'F' then some (c.toNat - 'A'.toNat + 10)
  else none

/-- The code unit of four hexadecimal digits. -/
def unit? (a b c d : Char) : Option Nat := do
  pure ((((← hexValue? a) * 16 + (← hexValue? b)) * 16 + (← hexValue? c)) * 16 + (← hexValue? d))

/-- The character of a letter behind a backslash. -/
def escape? : Char → Option Char
  | '"' => some '"'
  | '\\' => some '\\'
  | '/' => some '/'
  | 'b' => some '\x08'
  | 'f' => some '\x0c'
  | 'n' => some '\n'
  | 'r' => some '\r'
  | 't' => some '\t'
  | _ => none

/-- The character of two code units that form a pair. -/
def pair? (high low : Nat) : Option Char :=
  if 0xd800 ≤ high ∧ high < 0xdc00 ∧ 0xdc00 ≤ low ∧ low < 0xe000 then
    some (Char.ofNat (0x10000 + (high - 0xd800) * 0x400 + (low - 0xdc00)))
  else none

/-- The rest of a text in quotes, its characters in reverse gathered so far. Control characters have to
be escaped. -/
def quoted? (done : List Char) : List Char → Option (String × List Char)
  | '"' :: rest => some (String.ofList done.reverse, rest)
  | '\\' :: 'u' :: a :: b :: c :: d :: '\\' :: 'u' :: e :: f :: g :: h :: rest =>
    match unit? a b c d, unit? e f g h with
    | some high, some low =>
      match pair? high low with
      | some character => quoted? (character :: done) rest
      | none => quoted? (Char.ofNat high :: done) ('\\' :: 'u' :: e :: f :: g :: h :: rest)
    | _, _ => none
  | '\\' :: 'u' :: a :: b :: c :: d :: rest =>
    match unit? a b c d with
    | some unit => quoted? (Char.ofNat unit :: done) rest
    | none => none
  | '\\' :: c :: rest =>
    match escape? c with
    | some character => quoted? (character :: done) rest
    | none => none
  | c :: rest => if c.toNat < 0x20 then none else quoted? (c :: done) rest
  | [] => none

mutual

/-- A value and what is left behind it; `fuel` bounds how many signs may be read. -/
def value? (fuel : Nat) (text : List Char) : Option (Value × List Char) :=
  match fuel with
  | 0 => none
  | fuel + 1 =>
    match skipBlank text with
    | '"' :: rest => (quoted? [] rest).map fun (s, rest) => (.text s, rest)
    | '[' :: rest =>
      match skipBlank rest with
      | ']' :: rest => some (.list [], rest)
      | rest => (items? fuel rest).map fun (items, rest) => (.list items, rest)
    | '\x7b' :: rest =>
      match skipBlank rest with
      | '\x7d' :: rest => some (.record [], rest)
      | rest => (fields? fuel rest).map fun (fields, rest) => (.record fields, rest)
    | rest =>
      ((after? "null".toList rest).map fun rest => (.null, rest))
        <|> ((after? "true".toList rest).map fun rest => (.bool true, rest))
        <|> ((after? "false".toList rest).map fun rest => (.bool false, rest))
        <|> number? rest

/-- The items of a list, the first one ahead. -/
def items? (fuel : Nat) (text : List Char) : Option (List Value × List Char) :=
  match fuel with
  | 0 => none
  | fuel + 1 => do
    let (item, rest) ← value? fuel text
    match skipBlank rest with
    | ',' :: rest => (items? fuel rest).map fun (items, rest) => (item :: items, rest)
    | ']' :: rest => some ([item], rest)
    | _ => none

/-- The fields of a record, the first one ahead. -/
def fields? (fuel : Nat) (text : List Char) : Option (Fields × List Char) :=
  match fuel with
  | 0 => none
  | fuel + 1 =>
    match skipBlank text with
    | '"' :: rest => do
      let (name, rest) ← quoted? [] rest
      match skipBlank rest with
      | ':' :: rest =>
        let (value, rest) ← value? fuel rest
        match skipBlank rest with
        | ',' :: rest =>
          (fields? fuel rest).map fun (fields, rest) => ((name, value) :: fields, rest)
        | '\x7d' :: rest => some ([(name, value)], rest)
        | _ => none
      | _ => none
    | _ => none

end

/-- The value a text writes. -/
def read? (text : String) : Option Value :=
  let chars := text.toList
  match value? (2 * chars.length + 1) chars with
  | some (value, rest) => if (skipBlank rest).isEmpty then some value else none
  | none => none

/-- A character between quotes, in ASCII. -/
def escaped (c : Char) : List Char :=
  if c == '"' || c == '\\' then ['\\', c]
  else if c == '\n' then ['\\', 'n']
  else if c == '\r' then ['\\', 'r']
  else if c == '\t' then ['\\', 't']
  else if c == '\x08' then ['\\', 'b']
  else if c == '\x0c' then ['\\', 'f']
  else if 0x20 ≤ c.toNat && c.toNat < 0x7f then [c]
  else if c.toNat == 0x7f then [c]
  else if c.toNat < 0x10000 then ['\\', 'u'] ++ Quotation.hexDigits 4 c.toNat
  else
    let n := c.toNat - 0x10000
    ['\\', 'u'] ++ Quotation.hexDigits 4 (0xd800 + n / 0x400)
      ++ ['\\', 'u'] ++ Quotation.hexDigits 4 (0xdc00 + n % 0x400)

/-- A text in quotes. -/
def quoted (s : String) : String :=
  String.ofList ('"' :: s.toList.flatMap escaped ++ ['"'])

end Json

namespace Value

/-- A number of digits with a point before the last `places` of them, at least one digit on either
side. -/
def pointed (size places : Nat) : String :=
  let ds := (toString size).toList
  let ds := List.replicate (places + 1 - ds.length) '0' ++ ds
  let (whole, behind) := ds.splitAt (ds.length - places)
  String.ofList (whole ++ '.' :: (if behind.isEmpty then ['0'] else behind))

/-- A decimal without zeros at its end. -/
def shortened (size : Nat) : Nat → Nat × Nat
  | 0 => (size, 0)
  | places + 1 => if size % 10 = 0 then shortened (size / 10) places else (size, places + 1)

/-- The text of a decimal: with a point, or with an exponent if it is below a ten-thousandth. -/
def decimalText (digits : Int) (places : Nat) : String :=
  let sign := if digits < 0 then "-" else ""
  let (size, places) := shortened digits.natAbs places
  let count := (toString size).length
  if size = 0 || places < count + 4 then sign ++ pointed size places
  else
    let power := toString (places + 1 - count)
    let lead := pointed size (count - 1)
    let lead := if count = 1 then toString size else lead
    sign ++ lead ++ "e-" ++ (if power.length < 2 then "0" ++ power else power)

mutual

/-- A value as JSON. -/
def json : Value → String
  | null => "null"
  | bool b => if b then "true" else "false"
  | int n => toString n
  | decimal digits places => decimalText digits places
  | text s => Json.quoted s
  | list items => "[" ++ ", ".intercalate (jsonItems items) ++ "]"
  | record fields => "\x7b" ++ ", ".intercalate (jsonFields fields) ++ "\x7d"

def jsonItems : List Value → List String
  | [] => []
  | item :: rest => json item :: jsonItems rest

def jsonFields : List (String × Value) → List String
  | [] => []
  | (name, value) :: rest => (Json.quoted name ++ ": " ++ json value) :: jsonFields rest

end

mutual

/-- A value as consoles show it. -/
def shown : Value → String
  | null => "None"
  | bool b => if b then "True" else "False"
  | int n => toString n
  | decimal digits places => decimalText digits places
  | text s => Quotation.of s
  | list items => "[" ++ ", ".intercalate (shownItems items) ++ "]"
  | record fields => "\x7b" ++ ", ".intercalate (shownFields fields) ++ "\x7d"

def shownItems : List Value → List String
  | [] => []
  | item :: rest => shown item :: shownItems rest

def shownFields : List (String × Value) → List String
  | [] => []
  | (name, value) :: rest => (Quotation.of name ++ ": " ++ shown value) :: shownFields rest

end

end Value
end StoryMigration
