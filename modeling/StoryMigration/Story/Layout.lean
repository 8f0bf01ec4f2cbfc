import StoryMigration.Syntax.StringValue
import StoryMigration.Text.Newline

/-!
# Layout of generated code

Literals, properties and statements as they are written into a module, and copied expressions moved to
their new place. An expression that holds a literal over several lines is copied unchanged, since moving
its lines would change the literal.
-/

namespace StoryMigration

/-- The quotes of generated string literals. -/
inductive QuoteStyle where
  | single
  | double
  deriving DecidableEq, Repr, Inhabited

namespace QuoteStyle

/-- The name by which options refer to a style. -/
def name : QuoteStyle → String
  | single => "single"
  | double => "double"

/-- The style of a name. -/
def ofName? : String → Option QuoteStyle
  | "single" => some single
  | "double" => some double
  | _ => none

/-- The quote character. -/
def char : QuoteStyle → Char
  | single => '\''
  | double => '"'

end QuoteStyle

/-- How generated code is written. -/
structure Layout where
  quoteStyle : QuoteStyle := .single
  /-- A comma stands behind the last member of a literal over several lines. -/
  trailingComma : Bool := true
  /-- Spaces per level. -/
  tabWidth : Int := 2
  deriving Repr, Inhabited

/-- A member of a generated literal. -/
structure Entry where
  text : String
  /-- The member is a comment, which takes no comma. -/
  isComment : Bool := false
  deriving Repr, Inhabited

namespace Layout

variable (layout : Layout)

/-- The white space of a level. -/
def indent (level : Int) : String :=
  String.ofList (List.replicate (layout.tabWidth * level).toNat ' ')

/-- A digit of hexadecimal notation, with small letters. -/
def hexDigit (n : Nat) : Char :=
  if n < 10 then Char.ofNat (0x30 + n) else Char.ofNat (0x57 + n)

/-- A code point below `0x10000` as an escape sequence. -/
def unitEscape (n : Nat) : List Char :=
  ['\\', 'u', hexDigit (n / 0x1000 % 16), hexDigit (n / 0x100 % 16), hexDigit (n / 16 % 16),
    hexDigit (n % 16)]

/-- How a code point is written inside a string literal. -/
def escaped (quote : Char) (p : CodePoint) : List Char :=
  match p.toChar? with
  | none => unitEscape p.value
  | some c =>
    if c == '\\' then ['\\', '\\']
    else if c == quote then ['\\', quote]
    else if c == '\n' then ['\\', 'n']
    else if c == '\r' then ['\\', 'r']
    else if c == '\t' then ['\\', 't']
    else if c == '\u2028' || c == '\u2029' then unitEscape c.toNat
    else [c]

/-- A string literal of a value. -/
def string (value : Text) : String :=
  let quote := layout.quoteStyle.char
  String.ofList (quote :: value.flatMap (escaped quote) ++ [quote])

/-- A member with its key. -/
def property (key value : String) : String := key ++ ": " ++ value

/-- The lines of a literal between its brackets. Every member but the last one has a comma behind it;
the last one has one if the layout wants it. -/
def entryLines (inner : String) : List Entry → List String
  | [] => []
  | entry :: rest =>
    let line :=
      if entry.isComment then inner ++ entry.text
      else if layout.trailingComma || rest.any (!·.isComment) then inner ++ entry.text ++ ","
      else inner ++ entry.text
    line :: entryLines inner rest

/-- A literal over several lines. -/
def block (opening closing : String) (entries : List Entry) (level : Int) : String :=
  opening ++ "\n" ++ "\n".intercalate (layout.entryLines (layout.indent (level + 1)) entries) ++ "\n"
    ++ layout.indent level ++ closing

/-- An object literal with its members one level deeper. -/
def object (entries : List Entry) (level : Int) : String :=
  if entries.isEmpty then "\x7b\x7d" else layout.block "\x7b" "\x7d" entries level

/-- An array literal, on one line unless an item spans lines. -/
def array (items : List String) (level : Int) : String :=
  if items.any fun item => item.toList.contains '\n' then
    layout.block "[" "]" (items.map fun item => ⟨item, false⟩) level
  else "[" ++ ", ".intercalate items ++ "]"

/-- A statement below its comments. -/
def statement (text : String) (comments : List String) : String :=
  "\n".intercalate (comments ++ [if text.toList.getLast? == some ';' then text else text ++ ";"])

/-- A continuation line moved from behind an old indent to a new one. -/
def movedLine (base indent line : List Char) : List Char :=
  if line.all isWhite then []
  else
    match Syntax.after? base line with
    | some rest => indent ++ rest
    | none => indent ++ line.dropWhile isWhite

/-- The lines of a text with all but the first moved from an old indent to a new one. -/
def movedLines (base indent : List Char) (text : List Char) : List (List Char) :=
  match linesOf text with
  | [] => []
  | first :: rest => first :: rest.map (movedLine base indent)

/-- The source text of a node with its continuation lines at a level. A text with a literal over
several lines stays as it is. -/
def node (m : Syntax.Module) (node : Syntax.Node) (level : Int) : String :=
  let text := m.text node
  if !(text.toList.contains '\n') || m.hasMultilineLiteral node then text
  else
    let lines :=
      movedLines (m.lineIndent node).toList (layout.indent level).toList text.toList
    "\n".intercalate (lines.map String.ofList)

end Layout

end StoryMigration
