/-!
# Source dialects

The three grammars a story module can be written in, and the file extensions that pick them.
-/

namespace StoryMigration
namespace Syntax

/-- The grammar a module is read with. -/
inductive Dialect where
  /-- ECMAScript with JSX elements. -/
  | javascript
  /-- TypeScript with angle-bracket assertions and without elements. -/
  | typescript
  /-- TypeScript with JSX elements and without angle-bracket assertions. -/
  | tsx
  deriving DecidableEq, Repr, Inhabited

namespace Dialect

/-- The name by which options and reports refer to a dialect. -/
def name : Dialect → String
  | javascript => "javascript"
  | typescript => "typescript"
  | tsx => "tsx"

/-- The dialect of a name. -/
def ofName? : String → Option Dialect
  | "javascript" => some javascript
  | "typescript" => some typescript
  | "tsx" => some tsx
  | _ => none

theorem ofName?_name (dialect : Dialect) : ofName? dialect.name = some dialect := by
  cases dialect <;> rfl

/-- Dialects with type syntax. -/
def hasTypes : Dialect → Bool
  | javascript => false
  | _ => true

/-- Dialects in which `<` may open an element. -/
def hasElements : Dialect → Bool
  | typescript => false
  | _ => true

/-- The dialect of a lower-case file extension, its dot included. -/
def ofExtension? : String → Option Dialect
  | ".js" => some javascript
  | ".jsx" => some javascript
  | ".mjs" => some javascript
  | ".cjs" => some javascript
  | ".ts" => some typescript
  | ".mts" => some typescript
  | ".cts" => some typescript
  | ".tsx" => some tsx
  | _ => none

end Dialect

end Syntax
end StoryMigration
