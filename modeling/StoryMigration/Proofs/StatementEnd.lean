import StoryMigration.Proofs.RegularStatement

/-!
# Where the node of a statement ends

The node that a statement is read as ends where the reading stops, and stands
for code: no comment, no token and no line for the shell.
-/

namespace StoryMigration
namespace Syntax

/-- Kinds of top-level nodes that are neither comments nor the line for the
shell nor tokens. -/
def Kind.isCode : Kind → Bool
  | comment | htmlComment | hashBang | token | defaultToken => false
  | _ => true

namespace Reading

variable {α β : Type} {promise : α → Cursor → Prop}

/-- Whenever the reading succeeds, what it gives and the place where it stops
keep a promise. -/
structure Yields
    (reading : Reading α)
    (promise : α → Cursor → Prop) : Prop where
  keeps : ∀ {cursor next : Cursor} {value : α},
    reading cursor = some (value, next) → promise value next

namespace Yields

theorem reject : Yields (reject : Reading α) promise where
  keeps read := by contradiction

theorem bind
    {reading : Reading β}
    {next : β → Reading α}
    (yields : ∀ value, Yields (next value) promise) :
    Yields (reading >>= next) promise where
  keeps read := by
    rw [bind_apply] at read
    obtain ⟨⟨value, middle⟩, -, readNext⟩ := Option.bind_eq_some_iff.1 read
    exact (yields value).keeps readNext

/-- What follows a reading may rely on what that one has promised. -/
theorem bind_of
    {first : β → Cursor → Prop}
    {reading : Reading β}
    {next : β → Reading α}
    (firstYields : Yields reading first)
    (yields : ∀ value cursor, first value cursor →
      Yields (next value) promise) :
    Yields (reading >>= next) promise where
  keeps read := by
    rw [bind_apply] at read
    obtain ⟨⟨value, middle⟩, readFirst, readNext⟩ :=
      Option.bind_eq_some_iff.1 read
    exact (yields value middle (firstYields.keeps readFirst)).keeps readNext

theorem get_bind
    {next : Cursor → Reading α}
    (yields : ∀ cursor, Yields (next cursor) promise) :
    Yields (get >>= next) promise where
  keeps {cursor _ _} read := (yields cursor).keeps read

theorem orElse
    {first second : Reading α}
    (firstYields : Yields first promise)
    (secondYields : Yields second promise) :
    Yields (first <|> second) promise where
  keeps {cursor _ _} read := by
    rw [orElse_apply] at read
    cases firstRead : first cursor with
    | none =>
      rw [firstRead] at read
      exact secondYields.keeps read
    | some result =>
      rw [firstRead] at read
      cases read
      exact firstYields.keeps firstRead

theorem pure
    {value : α}
    (holds : ∀ cursor, promise value cursor) :
    Yields (pure value : Reading α) promise where
  keeps read := by
    cases read
    exact holds _

/-- A value that is given back as it was read, at the place where it ends. -/
theorem returning
    {first : Reading α}
    {next : α → Reading α}
    (yields : Yields first promise)
    (returns : ∀ value cursor result,
      next value cursor = some result → result = (value, cursor)) :
    Yields (first >>= next) promise where
  keeps read := by
    rw [bind_apply] at read
    obtain ⟨⟨value, middle⟩, readFirst, readNext⟩ :=
      Option.bind_eq_some_iff.1 read
    cases returns value middle _ readNext
    exact yields.keeps readFirst

theorem require_returns
    {condition : Bool}
    {value : α}
    {cursor : Cursor}
    {result : α × Cursor}
    (read : (Reading.require condition >>= fun _ => Pure.pure value) cursor =
      some result) :
    result = (value, cursor) := by
  cases condition with
  | false => contradiction
  | true => exact (Option.some.inj read).symm

end Yields

/-- A reading whose nodes stand for code and end where it stops. -/
abbrev Concludes (reading : Reading Node) : Prop :=
  Yields reading fun node next =>
    node.stop = next.offset ∧ node.kind.isCode = true

namespace Concludes

open Yields

variable (g : Grammar) {kind : Kind}

theorem build
    {children : List Node}
    (isCode : kind.isCode = true) :
    Concludes (build kind children) where
  keeps read := by
    cases read
    exact ⟨rfl, isCode⟩

/-! ## Declarations -/

theorem declarators
    (place : Place) :
    Yields (g.declarators place) fun result _ => result.1.isCode = true := by
  unfold Grammar.declarators
  refine orElse ?_ (orElse ?_ ?_)
  · iterate 2 refine bind fun _ => ?_
    exact pure fun _ => rfl
  · iterate 2 refine bind fun _ => ?_
    exact pure fun _ => rfl
  · iterate 2 refine bind fun _ => ?_
    refine bind fun _ => get_bind fun _ => ?_
    iterate 2 refine bind fun _ => ?_
    exact pure fun _ => rfl

theorem block (operator : Bool) : Concludes (g.block operator) := by
  unfold Grammar.block
  iterate 4 refine bind fun _ => ?_
  exact build rfl

theorem classFrom
    (kind : Kind)
    (needsName ends operator : Bool)
    (front : List Node)
    (isCode : kind.isCode = true) :
    Concludes (g.classFrom kind needsName ends operator front) := by
  unfold Grammar.classFrom
  iterate 6 refine bind fun _ => ?_
  split
  · exact bind fun _ => build isCode
  · exact build isCode

theorem classDeclaration
    (operator : Bool) :
    Concludes (g.classDeclaration operator) := by
  unfold Grammar.classDeclaration
  refine bind fun _ => orElse (bind fun _ => bind fun _ => ?_) ?_
  · exact classFrom g _ _ _ _ _ rfl
  · exact classFrom g _ _ _ _ _ rfl

theorem functionDeclaration
    (operator : Bool) :
    Concludes (g.functionDeclaration operator) := by
  unfold Grammar.functionDeclaration
  iterate 6 refine bind fun _ => ?_
  split
  · refine bind fun _ => bind fun _ => build ?_
    split <;> rfl
  · iterate 2 refine bind fun _ => ?_
    exact build rfl

theorem variableDeclaration : Concludes g.variableDeclaration := by
  unfold Grammar.variableDeclaration
  exact bind_of (declarators g _) fun _ _ isCode => bind fun _ => build isCode

theorem enumDeclaration : Concludes g.enumDeclaration := by
  unfold Grammar.enumDeclaration
  iterate 6 refine bind fun _ => ?_
  exact build rfl

theorem typedDeclaration : Concludes g.typedDeclaration := by
  unfold Grammar.typedDeclaration
  refine bind fun word => ?_
  split
  · iterate 7 refine bind fun _ => ?_
    exact build rfl
  · iterate 5 refine bind fun _ => ?_
    exact build rfl
  · exact enumDeclaration g
  · exact enumDeclaration g
  · exact bind fun _ => classFrom g _ _ _ _ _ rfl
  · iterate 4 refine bind fun _ => ?_
    exact build rfl
  · iterate 5 refine bind fun _ => ?_
    exact build rfl
  · exact Yields.reject

theorem whenTyped
    {reading : Reading Node}
    (concludes : Concludes reading) :
    Concludes (g.whenTyped reading) :=
  bind fun _ => concludes

theorem importAlias : Concludes g.importAlias := by
  unfold Grammar.importAlias
  iterate 6 refine bind fun _ => ?_
  exact build rfl

theorem importStatement : Concludes g.importStatement := by
  unfold Grammar.importStatement
  iterate 4 refine bind fun _ => ?_
  exact build rfl

theorem exportStatement : Concludes g.exportStatement := by
  unfold Grammar.exportStatement
  iterate 3 refine bind fun _ => ?_
  exact build rfl

/-! ## Statements -/

theorem expressionStatement : Concludes g.expressionStatement := by
  unfold Grammar.expressionStatement
  iterate 2 refine bind fun _ => ?_
  exact build rfl

theorem jump
    (word : String)
    (isCode : kind.isCode = true) :
    Concludes (g.jump word kind) := by
  unfold Grammar.jump
  iterate 3 refine bind fun _ => ?_
  exact build isCode

theorem headed
    (word : String)
    (isCode : kind.isCode = true) :
    Concludes (g.headed word kind) := by
  unfold Grammar.headed
  iterate 3 refine bind fun _ => ?_
  exact build isCode

theorem ifStatement : Concludes g.ifStatement := by
  unfold Grammar.ifStatement
  iterate 4 refine bind fun _ => ?_
  exact build rfl

theorem forStatement : Concludes g.forStatement := by
  unfold Grammar.forStatement
  refine bind fun _ => bind fun head => ?_
  cases head with
  | none =>
    iterate 2 refine bind fun _ => ?_
    exact build rfl
  | some head =>
    iterate 2 refine bind fun _ => ?_
    exact build rfl

theorem doStatement : Concludes g.doStatement := by
  unfold Grammar.doStatement
  iterate 5 refine bind fun _ => ?_
  exact build rfl

theorem tryStatement : Concludes g.tryStatement := by
  unfold Grammar.tryStatement
  iterate 4 refine bind fun _ => ?_
  exact build rfl

theorem switchStatement : Concludes g.switchStatement := by
  unfold Grammar.switchStatement
  iterate 6 refine bind fun _ => ?_
  exact build rfl

theorem returnStatement : Concludes g.returnStatement := by
  unfold Grammar.returnStatement
  iterate 3 refine bind fun _ => ?_
  exact build rfl

theorem throwStatement : Concludes g.throwStatement := by
  unfold Grammar.throwStatement
  iterate 3 refine bind fun _ => ?_
  exact build rfl

theorem labeledStatement : Concludes g.labeledStatement := by
  unfold Grammar.labeledStatement
  iterate 3 refine bind fun _ => ?_
  exact build rfl

theorem declarationStatement
    {declaration : Reading Node}
    (concludes : Concludes declaration) :
    Concludes (g.declarationStatement declaration) := by
  unfold Grammar.declarationStatement
  refine orElse (returning concludes ?_) (expressionStatement g)
  intro node cursor result read
  rw [ahead_bind_apply] at read
  exact require_returns read

theorem braceStatement : Concludes g.braceStatement := by
  have ended : Concludes (Regular.endedBlock g) := by
    refine returning (block g false) fun node cursor result read => ?_
    rw [ahead_bind_apply] at read
    exact require_returns read
  rw [Regular.braceStatement_eq]
  refine orElse (returning ended ?_) (orElse (expressionStatement g) ended)
  exact fun node cursor result read => require_returns read

theorem wordStatement (word : String) : Concludes (g.wordStatement word) := by
  have value := expressionStatement g
  unfold Grammar.wordStatement
  split
  · exact orElse (importStatement g)
      (orElse (whenTyped g (importAlias g)) value)
  · refine orElse (bind fun _ => bind fun _ =>
      orElse ?_ (exportStatement g)) value
    iterate 2 refine bind fun _ => ?_
    exact build rfl
  · exact variableDeclaration g
  · exact orElse (variableDeclaration g) (whenTyped g (enumDeclaration g))
  · exact orElse (variableDeclaration g) value
  · exact orElse (variableDeclaration g) value
  · exact orElse value (variableDeclaration g)
  · exact declarationStatement g (functionDeclaration g true)
  · exact declarationStatement g (classDeclaration g true)
  · exact orElse (bind fun _ => bind fun _ =>
      declarationStatement g (functionDeclaration g true)) value
  · exact ifStatement g
  · exact forStatement g
  · exact headed g _ rfl
  · exact headed g _ rfl
  · exact doStatement g
  · exact switchStatement g
  · exact tryStatement g
  · exact jump g _ rfl
  · exact jump g _ rfl
  · exact returnStatement g
  · exact throwStatement g
  · exact bind fun _ => bind fun _ => build rfl
  · exact orElse (bind fun _ => bind fun _ => typedDeclaration g) value

/-- A statement's node ends where its reading stops, and stands for code. -/
theorem statementRule : Concludes g.statementRule := by
  refine bind fun _ => bind fun word => ?_
  cases word with
  | some word =>
    exact orElse (bind fun _ => bind fun _ => labeledStatement g)
      (wordStatement g word)
  | none =>
    refine get_bind fun cursor => ?_
    split
    · exact braceStatement g
    · exact bind fun _ => build rfl
    · exact orElse (exportStatement g)
        (declarationStatement g (classDeclaration g true))
    · exact expressionStatement g
    · exact Yields.reject

end Concludes
end Reading
end Syntax
end StoryMigration
