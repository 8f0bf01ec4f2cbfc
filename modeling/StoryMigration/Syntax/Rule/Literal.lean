import StoryMigration.Syntax.Rule.Goal

/-!
# Literals with expressions inside

Template strings, arrays, objects and what can name an object's member.
-/

namespace StoryMigration
namespace Syntax

open Reading

/-- Length of the literal text of a template, up to its end, a backslash or a substitution. -/
def templateRun : List Char → Nat
  | '$' :: '\x7b' :: _ => 0
  | c :: rest => if c == '`' || c == '\\' then 0 else templateRun rest + 1
  | [] => 0

namespace Grammar

variable (g : Grammar)

/-- An expression in `${` and `}`. -/
def templateSubstitution : Reading Node := do
  let opening ← immediately "$\x7b"
  let body ← g.commaExpression .inside
  let closing ← sign "\x7d"
  build .templateSubstitution [opening, body, closing]

/-- A template string. -/
def template : Reading Node := do
  let opening ← mark "`"
  let parts ← many <|
    (do
      match templateRun (← get).rest with
      | 0 => reject
      | length => take .stringFragment length)
    <|> escape <|> g.templateSubstitution
  let closing ← immediately "`"
  build .templateString (opening :: parts ++ [closing])

/-- `...` and an expression. -/
def spread : Reading Node := do
  let dots ← sign "..."
  let value ← g.inner
  build .spreadElement [dots, value]

/-- An expression or a spread. -/
def item : Reading Node := g.spread <|> g.inner

/-- An array literal. -/
def array : Reading Node := do
  let opening ← sign "["
  let items ← commaSlots g.item
  let closing ← sign "]"
  build .array (opening :: items ++ [closing])

/-- A member name in brackets. -/
def computedName : Reading Node := do
  let opening ← sign "["
  let value ← g.inner
  let closing ← sign "]"
  build .computedName [opening, value, closing]

/-- What can name a member. -/
def memberName : Reading Node :=
  anyWord .propertyName <|> stringLiteral <|> number <|> privateName <|> g.computedName

/-- Words that can stand before a member's name, as far as a member's name follows them. -/
def modifiers (words : List String) (closes : Bool) : Reading (List Node) :=
  many do
    let word ← keywordOf words
    if closes then
      require !((← get).statementEnd? g.dialect false).isSome
    require (← ahead (do discard (maybe (sign "*")); discard g.memberName))
    pure word

end Grammar

end Syntax
end StoryMigration
