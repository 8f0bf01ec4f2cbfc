import StoryMigration.Chain.Locate

/-!
# What a chain says about its stories

Decorators and parameters of the module, and the stories with their own. Parameters of several links are
merged so that a later one overrides an earlier one with the same key. Merging keeps the place of a
repeated key unless a spread stands in between, which the later value has to follow.
-/

namespace StoryMigration
namespace Story

open Syntax Chain

/-- A member of a generated object literal. -/
structure Member where
  node : Node
  /-- The key, if it is known without running the code. -/
  key : Option Text
  /-- The node stands for all members of its value. -/
  spread : Bool := false

namespace Member

/-- The member is a comment. -/
def isComment (member : Member) : Bool := member.node.kind == .comment

/-- The member gives a value for a key, as a pair or a shorthand. -/
def definesKey (key : Text) (member : Member) : Bool :=
  member.key == some key
    && (member.node.kind == .pair || member.node.kind == .shorthandProperty)

/-- A member of an object literal as it is written. -/
def ofNode (m : Module) (node : Node) : Except EscapeError Member := do
  pure ⟨node, ← m.propertyKey node, false⟩

/-- The members of an object literal, comments included. -/
def ofObject (m : Module) (node : Node) : Except EscapeError (List Member) :=
  node.namedChildren.mapM (ofNode m)

/-- The members that an argument for parameters contributes. What is no object literal is spread. -/
def ofArgument (m : Module) (argument : Node) : Except EscapeError (List Member) :=
  if argument.kind == .object then ofObject m argument else .ok [⟨argument, none, true⟩]

end Member

/-- Adds a member behind others. A member with a key that is there already takes its place, unless a
spread stands behind that place; then the earlier member goes. -/
def mergeMember (members : List Member) (member : Member) : List Member :=
  match member.key with
  | none => members ++ [member]
  | some key =>
    match members.findIdx? (·.key == some key) with
    | none => members ++ [member]
    | some index =>
      if (members.drop (index + 1)).any (·.spread) then members.eraseIdx index ++ [member]
      else members.set index member

/-- The shallow union of the arguments of some links. -/
def mergeParameters (m : Module) (links : List Link) : Except EscapeError (List Member) := do
  let arguments := links.filterMap (·.arguments.head?)
  let members ← arguments.mapM (Member.ofArgument m)
  pure (members.flatten.foldl mergeMember [])

/-- Parameters of a story: as written, or put together anew from some members. -/
inductive Parameters where
  | asWritten (expression : Node)
  | members (members : List Member)

/-- A story of a chain. -/
structure Entry where
  name : Text
  render : Node
  parameters : Option Parameters
  decorators : Option Node
  comments : List Node

/-- The key under which a story's own parameters hold its decorators. -/
def decoratorsKey : Text := .ofString "decorators"

/-- The value that a member gives to its key. -/
def Member.value (member : Member) : Node :=
  if member.node.kind == .pair then (member.node.child? .value).getD member.node else member.node

/-- Separates the decorators of a story from its other parameters. -/
def splitParameters (m : Module) (argument : Node) :
    Except EscapeError (Option Parameters × Option Node) := do
  if argument.kind != .object then pure (some (.asWritten argument), none)
  else
    let members ← Member.ofObject m argument
    match (members.filter (·.definesKey decoratorsKey)).getLast? with
    | none => pure (some (.asWritten argument), none)
    | some decorators =>
      let others := members.filter fun member => !member.definesKey decoratorsKey
      if others.all (·.isComment) then pure (none, some decorators.value)
      else pure (some (.members others), some decorators.value)

/-- The story that a link adds. -/
def ofLink (m : Module) (link : Link) : Except EscapeError (Option Entry) := do
  match link.arguments with
  | name :: render :: rest =>
    let name ← m.stringValue name
    let (parameters, decorators) ←
      match rest with
      | argument :: _ => splitParameters m argument
      | [] => pure (none, none)
    pure (some ⟨name, render, parameters, decorators, link.comments⟩)
  | _ => pure none

/-- The stories of a fragment in the order they are added. -/
def ofFragment (m : Module) (fragment : Fragment) : Except EscapeError (List Entry) := do
  pure ((← fragment.adds.mapM (ofLink m)).filterMap id)

/-- What all stories of a module share. -/
structure Metadata where
  title : Text
  decorators : List Node
  parameters : List Member
  /-- Exports of the module that are no stories. -/
  excluded : List Text
  comments : List Node

/-- What a fragment's stories share. -/
def Metadata.ofFragment (m : Module) (fragment : Fragment) (excluded : List Text) :
    Except EscapeError Metadata := do
  let parameters ← mergeParameters m fragment.parameters
  let comments := (fragment.decorators ++ fragment.parameters).flatMap (·.comments)
  pure
    { title := fragment.title
      decorators := fragment.decorators.filterMap (·.arguments.head?)
      parameters := parameters
      excluded := excluded
      comments := comments.mergeSort (fun a b => a.start ≤ b.start) }

end Story
end StoryMigration
