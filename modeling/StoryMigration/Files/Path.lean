import StoryMigration.Syntax.Dialect

/-!
# Paths

Slash-separated paths in normal form: no empty and no `.` parts, `..` kept. One or two leading slashes
are a root of their own.
-/

namespace StoryMigration

/-- A path: its root, if any, and the names on the way. -/
structure Path where
  /-- Empty for a relative path, otherwise `/` or `//`. -/
  root : String
  /-- Names from the root, or from the current directory, downwards. -/
  parts : List String
  deriving DecidableEq, Repr, Inhabited

namespace Path

/-- Pieces of a list between separators. -/
def splitAt (separator : Char) : List Char → List (List Char)
  | [] => [[]]
  | c :: rest =>
    match splitAt separator rest with
    | [] => [[c]]
    | piece :: pieces => if c == separator then [] :: piece :: pieces else (c :: piece) :: pieces

/-- Names that lead nowhere else are left out of a path. -/
def isPart (name : List Char) : Bool := !name.isEmpty && name != ['.']

/-- The path a text writes. -/
def ofString (text : String) : Path :=
  let chars := text.toList
  let slashes := (chars.takeWhile (· == '/')).length
  let root := if slashes == 0 then "" else if slashes == 2 then "//" else "/"
  ⟨root, ((splitAt '/' chars).filter isPart).map String.ofList⟩

/-- The text of a path; the empty path is a point. -/
def toString (path : Path) : String :=
  match path.root, path.parts with
  | "", [] => "."
  | root, parts => root ++ "/".intercalate parts

/-- The last name of a path, empty if there is none. -/
def name (path : Path) : String := path.parts.getLast?.getD ""

/-- The directory a path lies in; a root lies in itself. -/
def parent (path : Path) : Path := { path with parts := path.parts.dropLast }

/-- A name below a path. -/
def child (path : Path) (name : String) : Path := { path with parts := path.parts ++ [name] }

/-- Whether a path starts at a root. -/
def isAbsolute (path : Path) : Bool := path.root != ""

/-- Characters from the last point of a name on, unless the point is the first or last character. -/
def extensionOf (name : List Char) : List Char :=
  let back := name.reverse
  let tail := back.takeWhile (· != '.')
  if tail.isEmpty || tail.length + 1 ≥ name.length then [] else '.' :: tail.reverse

/-- The extension of a path's last name, with its point. -/
def extension (path : Path) : String := String.ofList (extensionOf path.name.toList)

/-- The path with another extension in place of its own. -/
def withExtension (path : Path) (extension : String) : Path :=
  let name := path.name.toList
  let stem := name.take (name.length - (extensionOf name).length)
  { path with parts := path.parts.dropLast ++ [String.ofList stem ++ extension] }

/-- The dialect a path's extension picks; ECMAScript when it picks none. -/
def dialect (path : Path) : Syntax.Dialect :=
  (Syntax.Dialect.ofExtension? path.extension.toLower).getD .javascript

end Path

end StoryMigration
