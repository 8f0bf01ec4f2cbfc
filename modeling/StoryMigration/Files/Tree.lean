import StoryMigration.Files.Path
import StoryMigration.Text.CodePoint
import StoryMigration.Text.Newline
import StoryMigration.Text.Quotation
import StoryMigration.Text.Utf8Defect

/-!
# File trees

The files and directories below a working directory, as a value. Reading a file gives its text with
line feeds for all line endings; writing makes the directories that are missing. Main statement: what
was put at a place is found there, and every other place is as it was.
-/

namespace StoryMigration

/-- What a place holds. -/
inductive Item where
  | file (bytes : List UInt8)
  | directory
  deriving DecidableEq, Repr

/-- A place below the working directory: the names on the way. -/
abbrev Place := List String

/-- Places and what they hold. The working directory itself is a directory. -/
structure FileTree where
  entries : List (Place × Item) := []
  deriving Repr, Inhabited

/-- Why a file cannot be read, written or found. -/
inductive FileError where
  | noFile (path : String)
  | notAFile (path : String)
  | noDirectory (path : String)
  | notADirectory (path : String)
  | noPath (path : String)
  /-- The bytes of a file are no text. -/
  | undecodable (defect : Utf8.Defect)
  /-- A text holds an unpaired surrogate. -/
  | unencodable
  /-- Something else is where a directory has to be. -/
  | exists (path : String)
  /-- A directory is where a file has to be. -/
  | isDirectory (path : String)
  /-- A way leads through a file. -/
  | throughFile (path : String)
  /-- A path leads out of the tree. -/
  | outside (path : String)
  /-- A path has no last name. -/
  | nameless
  /-- The path of a file holds a null character. -/
  | nullInFile
  /-- The path of a directory holds a null character. -/
  | nullInDirectory
  deriving DecidableEq, Repr

/-- A file error in words. -/
def FileError.message : FileError → String
  | noFile path => "File not found: " ++ path
  | notAFile path => "Path is not a file: " ++ path
  | noDirectory path => "Directory not found: " ++ path
  | notADirectory path => "Path is not a directory: " ++ path
  | noPath path => "Path not found: " ++ path
  | undecodable defect => defect.text
  | unencodable => "surrogates not allowed"
  | .exists path => "[Errno 17] File exists: " ++ Quotation.of path
  | isDirectory path => "[Errno 21] Is a directory: " ++ Quotation.of path
  | throughFile path => "[Errno 20] Not a directory: " ++ Quotation.of path
  | outside path => "[Errno 13] Permission denied: " ++ Quotation.of path
  | nameless => "PosixPath('.') has an empty name"
  | nullInFile => "embedded null byte"
  | nullInDirectory => "mkdir: embedded null character in path"

namespace FileTree

/-- What a place holds, if anything. -/
def item? (tree : FileTree) (place : Place) : Option Item :=
  if place = [] then some .directory else tree.entries.lookup place

/-- The tree with an item at a place. -/
def put (tree : FileTree) (place : Place) (item : Item) : FileTree :=
  ⟨(place, item) :: tree.entries.filter (·.1 != place)⟩

theorem item?_put (tree : FileTree) (place other : Place) (item : Item) (proper : other ≠ []) :
    (tree.put place item).item? other = if other = place then some item else tree.item? other := by
  simp only [item?, put, proper, if_false, List.lookup_cons]
  by_cases same : other = place
  · simp [same]
  · have apart : (other == place) = false := by simpa using same
    simp only [apart, same, if_false]
    induction tree.entries with
    | nil => rfl
    | cons entry rest ih =>
      obtain ⟨key, held⟩ := entry
      by_cases isPlace : key = place
      · subst isPlace
        simp [List.lookup_cons, apart, ih]
      · have kept : (key != place) = true := by simpa using isPlace
        simp only [List.filter_cons, kept, if_true, List.lookup_cons, ih]

/-- The tree with a directory at a place and at all places on the way to it. -/
def addDirectory (tree : FileTree) (place : Place) : FileTree :=
  ((List.range place.length).map fun n => place.take (n + 1)).foldl
    (fun tree way => if (tree.item? way).isSome then tree else tree.put way .directory) tree

/-- The tree with a file at a place and with directories on the way to it. -/
def addFile (tree : FileTree) (place : Place) (bytes : List UInt8) : FileTree :=
  (tree.addDirectory place.dropLast).put place (.file bytes)

/-- All files. -/
def files (tree : FileTree) : List (Place × List UInt8) :=
  tree.entries.filterMap fun entry =>
    match entry.2 with
    | .file bytes => some (entry.1, bytes)
    | .directory => none

/-- The names in a directory. -/
def names (tree : FileTree) (place : Place) : List String :=
  tree.entries.filterMap fun entry =>
    if entry.1.dropLast = place then entry.1.getLast? else none

/-- Why a way leads nowhere. -/
inductive Obstacle where
  | missing
  | throughFile
  deriving DecidableEq, Repr

/-- The place some names lead to from a place. Every name but the last one has to lead to a directory;
nothing above the working directory is known. -/
def resolve (tree : FileTree) (place : Place) : List String → Except Obstacle Place
  | [] => .ok place
  | name :: rest =>
    match tree.item? place with
    | some .directory =>
      if name = ".." then
        if place = [] then .error .missing else resolve tree place.dropLast rest
      else
        let next := place ++ [name]
        if (tree.item? next).isSome then resolve tree next rest else .error .missing
    | some (.file _) => .error .throughFile
    | none => .error .missing

/-- The place a path leads to. -/
def placeOf (tree : FileTree) (path : Path) : Except Obstacle Place :=
  if path.isAbsolute then .error .missing else tree.resolve [] path.parts

/-- What a path leads to. -/
def find? (tree : FileTree) (path : Path) : Option Item :=
  match tree.placeOf path with
  | .ok place => tree.item? place
  | .error _ => none

/-- Whether a path leads to anything. -/
def contains (tree : FileTree) (path : Path) : Bool := (tree.find? path).isSome

/-- Whether a path leads to a directory. -/
def isDirectory (tree : FileTree) (path : Path) : Bool :=
  match tree.find? path with
  | some .directory => true
  | _ => false

/-- Whether a path leads to a file. -/
def isFile (tree : FileTree) (path : Path) : Bool :=
  match tree.find? path with
  | some (.file _) => true
  | _ => false

/-- The text of some bytes, with line feeds for all line endings. -/
def textOf (bytes : List UInt8) : Except FileError String :=
  match Utf8.read bytes with
  | .ok text => .ok (String.ofList (Newline.unified text.toList))
  | .error defect => .error (.undecodable defect)

/-- The text of a file. -/
def read (tree : FileTree) (given : String) : Except FileError String :=
  match tree.find? (Path.ofString given) with
  | none => .error (.noFile given)
  | some .directory => .error (.notAFile given)
  | some (.file bytes) => textOf bytes

/-- A path's text from its names in reverse. -/
def textOfNames (reversed : List String) : String := (Path.mk "" reversed.reverse).toString

/-- The tree with the directory that some names lead to, given in reverse. Directories that are missing
on the way are made too. -/
def makeDirectory (tree : FileTree) : List String → Except FileError FileTree
  | [] => .ok tree
  | name :: up =>
    let text := textOfNames (name :: up)
    if name.contains '\x00' then .error .nullInDirectory
    else
      let made (tree : FileTree) : Except FileError FileTree :=
        match tree.resolve [] (name :: up).reverse with
        | .ok place =>
          match tree.item? place with
          | some .directory => .ok tree
          | _ => .error (.exists text)
        | .error .throughFile => .error (.throughFile text)
        | .error .missing =>
          match tree.resolve [] up.reverse with
          | .ok place =>
            if tree.item? place = some .directory && name != ".." then
              .ok (tree.put (place ++ [name]) .directory)
            else .error (.throughFile text)
          | .error _ => .error (.noDirectory text)
      match tree.resolve [] (name :: up).reverse, tree.resolve [] up.reverse with
      | .error .missing, .error .missing => (makeDirectory tree up).bind made
      | _, _ => made tree

/-- The tree with a file's bytes replaced; the directory it lies in has to be there. -/
def putFile (tree : FileTree) (path : Path) (bytes : List UInt8) : Except FileError FileTree :=
  let text := path.toString
  if path.parts.any fun name => name.contains '\x00' then .error .nullInFile
  else
    match tree.placeOf path with
    | .ok place =>
      match tree.item? place with
      | some (.file _) => .ok (tree.put place (.file bytes))
      | _ => .error (.isDirectory text)
    | .error _ =>
      match tree.placeOf path.parent with
      | .ok place =>
        if path.name = ".." || path.isAbsolute then .error (.outside text)
        else if tree.item? place = some .directory then
          .ok (tree.put (place ++ [path.name]) (.file bytes))
        else .error (.throughFile text)
      | .error .throughFile => .error (.throughFile text)
      | .error .missing => .error (.noFile text)

/-- What a step leaves behind, also if it fails. -/
structure Step (α : Type) where
  result : Except FileError α
  tree : FileTree
  deriving Inhabited

/-- Writes a text to a file. A text that cannot be written leaves an empty file. -/
def write (tree : FileTree) (given : String) (text : Text) : Step String :=
  let path := Path.ofString given
  match tree.makeDirectory path.parent.parts.reverse with
  | .error e => ⟨.error e, tree⟩
  | .ok tree =>
    let (bytes, result) :=
      match text.toString? with
      | some s => (Utf8.ofString s, Except.ok path.toString)
      | none => ([], .error .unencodable)
    match tree.putFile path bytes with
    | .ok tree => ⟨result, tree⟩
    | .error e => ⟨.error e, tree⟩

/-- The extension of backups. -/
def backupExtension : String := ".bak"

/-- Copies the text of a file to a backup beside it, if there is such a file. -/
def backup (tree : FileTree) (given : String) : Step String :=
  let path := Path.ofString given
  if path.name.isEmpty then ⟨.error .nameless, tree⟩
  else
    let copy := path.withExtension (path.extension ++ backupExtension)
    match tree.find? path with
    | none => ⟨.ok copy.toString, tree⟩
    | some .directory => ⟨.error (.isDirectory path.toString), tree⟩
    | some (.file bytes) =>
      match textOf bytes with
      | .error e => ⟨.error e, tree⟩
      | .ok text =>
        match tree.putFile copy (Utf8.ofString text) with
        | .ok tree => ⟨.ok copy.toString, tree⟩
        | .error e => ⟨.error e, tree⟩

end FileTree
end StoryMigration
