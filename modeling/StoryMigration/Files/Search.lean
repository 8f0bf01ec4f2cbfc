import StoryMigration.Files.Pattern
import StoryMigration.Files.Tree

/-!
# Finding files

Files below a directory whose path fits one of some patterns, and files for a mixture of files and
directories. A pattern has one part per name; two stars stand for any directories. What is found are
files, each of them once and in order.
-/

namespace StoryMigration

/-- Why files cannot be searched. -/
inductive SearchError where
  | file (error : FileError)
  /-- A pattern starts at the root. -/
  | absolutePattern
  /-- A pattern is empty. -/
  | emptyPattern
  /-- A pattern names no part. -/
  | partlessPattern
  /-- Two stars stand beside other characters. -/
  | mixedPattern
  deriving DecidableEq, Repr

/-- A search error in words. -/
def SearchError.message : SearchError → String
  | file error => error.message
  | absolutePattern => "Non-relative patterns are unsupported"
  | emptyPattern => "Unacceptable pattern: ''"
  | partlessPattern => "tuple index out of range"
  | mixedPattern => "Invalid pattern: '**' can only be an entire path component"

namespace Search

/-- A step of a search. -/
inductive Step where
  /-- To the directory itself and all directories below it. -/
  | below
  /-- To the directory above. -/
  | up
  /-- To one name. -/
  | name (name : String)
  /-- To the names that fit a pattern. -/
  | fitting (pattern : String)
  /-- Nowhere else; whatever comes behind it does not matter. -/
  | stay
  deriving DecidableEq, Repr

/-- Whether two stars stand side by side. -/
def hasDoubleStar : List Char → Bool
  | '*' :: '*' :: _ => true
  | _ :: rest => hasDoubleStar rest
  | [] => false

/-- The step that a part of a pattern asks for. -/
def Step.ofPart (part : String) : Except SearchError Step :=
  if part == "" then .ok .stay
  else if part == "**" then .ok .below
  else if part == ".." then .ok .up
  else if hasDoubleStar part.toList then .error .mixedPattern
  else if Pattern.isSpecial part then .ok (.fitting part)
  else .ok (.name part)

/-- The steps that a pattern asks for. A slash at its end asks for directories. -/
def stepsOf (recursive : Bool) (pattern : String) : Except SearchError (List Step) := do
  if !recursive && pattern.isEmpty then throw .emptyPattern
  let path := Path.ofString pattern
  if path.isAbsolute then throw .absolutePattern
  let parts := path.parts ++ (if pattern.toList.getLast? == some '/' then [""] else [])
  if !recursive && parts.isEmpty then throw .partlessPattern
  let steps ← parts.mapM Step.ofPart
  pure (if recursive then .below :: steps else steps)

/-- The directories below a path, the path itself ahead of them. -/
def directoriesBelow (tree : FileTree) (path : Path) : List Path :=
  match tree.placeOf path with
  | .error _ => [path]
  | .ok place =>
    path :: tree.entries.filterMap fun entry =>
      if entry.2 = .directory && place.length < entry.1.length && place.isPrefixOf entry.1 then
        some { path with parts := path.parts ++ entry.1.drop place.length }
      else none

/-- The names in the directory a path leads to. -/
def namesAt (tree : FileTree) (path : Path) : List String :=
  match tree.placeOf path with
  | .error _ => []
  | .ok place => tree.names place

/-- The paths that some steps lead to. -/
def run (tree : FileTree) : List Step → Path → List Path
  | [], path => [path]
  | step :: rest, path =>
    let passes (path : Path) : Bool :=
      if rest.isEmpty then tree.contains path else tree.isDirectory path
    match step with
    | .stay => [path]
    | .below => (directoriesBelow tree path).flatMap (run tree rest)
    | .up => run tree rest (path.child "..")
    | .name name =>
      let next := path.child name
      if passes next then run tree rest next else []
    | .fitting pattern =>
      (((namesAt tree path).filter (Pattern.fits pattern)).map path.child).filter passes
        |>.flatMap (run tree rest)

/-- Directories that are not searched unless other ones are named. -/
def standardExcludes : List String :=
  ["node_modules", ".git", "dist", "build", "storybook-static"]

/-- Texts in order, each of them once. -/
def sortedOnce (texts : List String) : List String :=
  (texts.mergeSort fun a b => decide (a ≤ b)).eraseReps

/-- The files among what one pattern leads to, without excluded ones. -/
def filesFor (tree : FileTree) (directory : Path) (recursive : Bool) (excludes : List String)
    (pattern : String) : Except SearchError (List String) := do
  let found := run tree (← stepsOf recursive pattern) directory
  pure ((found.filter fun path => tree.isFile path
    && !(path.parts.drop directory.parts.length).any excludes.contains).map Path.toString)

/-- The files below a directory that fit one of some patterns. -/
def list (tree : FileTree) (directory : String) (patterns : List String) (recursive : Bool)
    (excludes : List String) : Except SearchError (List String) := do
  let path := Path.ofString directory
  if !tree.contains path then throw (.file (.noDirectory directory))
  if !tree.isDirectory path then throw (.file (.notADirectory directory))
  pure (sortedOnce (← patterns.mapM (filesFor tree path recursive excludes)).flatten)

/-- The files that one path stands for. -/
def candidates (tree : FileTree) (patterns excludes : List String) (given : String) :
    Except SearchError (List String) :=
  let path := Path.ofString given
  if tree.isDirectory path then list tree given patterns true excludes
  else if tree.isFile path then .ok [path.toString]
  else .error (.file (.noPath given))

/-- Texts without later repetitions. -/
def firstOnce (texts : List String) : List String :=
  (texts.foldl (fun done text => if done.contains text then done else text :: done) []).reverse

/-- The files that some paths stand for, each of them once, in the order of the paths. -/
def expand (tree : FileTree) (given patterns excludes : List String) :
    Except SearchError (List String) := do
  pure (firstOnce (← given.mapM (candidates tree patterns excludes)).flatten)

end Search
end StoryMigration
