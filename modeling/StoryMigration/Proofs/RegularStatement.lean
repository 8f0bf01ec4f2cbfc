import StoryMigration.Proofs.RegularExpression
import StoryMigration.Syntax.Parse

/-!
# Statements are read from the text alone

The rules for statements and declarations are regular like those for
expressions, and so is the grammar that ties all rules together, to any depth.
-/

namespace StoryMigration
namespace Syntax
namespace Reading
namespace Regular

variable (g : Grammar) [regular : ∀ goal, Regular (g.read goal)]

/-! ## Statements and declarations -/

/-- A block that no operator continues. -/
def endedBlock : Reading Node := do
  let node ← g.block false
  Reading.require
    !(← Reading.ahead (Reading.signOf Grammar.continuingMarks))
  Pure.pure node

instance : Regular (endedBlock g) := by
  unfold endedBlock
  infer_instance

omit regular in
/-- Braces as three alternatives: a block that is no object, an expression, and
the block after all. -/
theorem braceStatement_eq :
    g.braceStatement =
      (unlabelled (endedBlock g) <|> g.expressionStatement
        <|> endedBlock g) := by
  funext cursor
  unfold Grammar.braceStatement
  rw [get_bind_apply, bind_apply, orElse_apply, orElse_apply]
  cases blockEq : endedBlock g cursor with
  | none =>
    rw [unlabelled_of_none blockEq]
    unfold endedBlock at blockEq
    rw [maybe_of_none blockEq]
    show g.expressionStatement cursor = _
    cases g.expressionStatement cursor <;> rfl
  | some result =>
    obtain ⟨node, next⟩ := result
    rw [unlabelled_of_some blockEq]
    unfold endedBlock at blockEq
    rw [maybe_of_some blockEq]
    cases labelled : startsWithLabel node with
    | false =>
      simp only [Option.bind_some, labelled]
      rfl
    | true =>
      simp only [Option.bind_some, labelled]
      rw [if_pos trivial, get_bind_apply, set_bind_apply, bind_apply]
      cases objectEq : g.expressionStatement cursor with
      | none =>
        rw [maybe_of_none objectEq]
        rfl
      | some object =>
        rw [maybe_of_some objectEq]
        rfl

instance condition : Regular g.condition := by
  unfold Grammar.condition
  infer_instance

instance declarator (place : Place) : Regular (g.declarator place) := by
  unfold Grammar.declarator
  infer_instance

instance declarators (place : Place) : Regular (g.declarators place) := by
  refine of_orElse inferInstance (of_orElse inferInstance ?_)
  refine andThen fun _ => andThen fun _ => andThen fun _ =>
    get_bind (fun cursor earlier => ?_) fun _ => inferInstance
  rw [Cursor.statementEnd?_behind, Option.isSome_map]

instance variableDeclaration : Regular g.variableDeclaration := by
  unfold Grammar.variableDeclaration
  infer_instance

instance functionDeclaration
    (operator : Bool) :
    Regular (g.functionDeclaration operator) := by
  unfold Grammar.functionDeclaration
  infer_instance

instance enumDeclaration : Regular g.enumDeclaration := by
  refine andThen fun _ => andThen fun _ => andThen fun _ => andThen fun _ =>
    of_bind (@commaList _ ?_) fun _ => inferInstance
  exact andThen fun _ => andThen fun value => by cases value <;> infer_instance

instance qualifiedName : Regular Grammar.qualifiedName := by
  unfold Grammar.qualifiedName
  infer_instance

instance typedDeclaration : Regular g.typedDeclaration := by
  refine andThen fun word => ?_
  split <;> infer_instance

instance classDeclaration
    (operator : Bool) :
    Regular (g.classDeclaration operator) := by
  unfold Grammar.classDeclaration
  infer_instance

instance importAlias : Regular g.importAlias := by
  unfold Grammar.importAlias
  infer_instance

instance declaration (operator : Bool) : Regular (g.declaration operator) := by
  unfold Grammar.declaration
  infer_instance

instance outerName : Regular g.outerName := by
  unfold Grammar.outerName
  infer_instance

instance aliased
    (kind : Kind)
    (outer inner : Reading Node)
    [outerRegular : Regular outer]
    [innerRegular : Regular inner] :
    Regular (g.aliased kind outer inner) := by
  refine of_bind (@typedOption _ _ ?_) fun _ => inferInstance
  refine andThen fun _ => of_bind (@ahead _ _ ?_) fun _ => inferInstance
  exact andThen fun whole => by cases whole <;> infer_instance

instance importSpecifier : Regular g.importSpecifier := by
  unfold Grammar.importSpecifier
  infer_instance

instance exportSpecifier : Regular g.exportSpecifier := by
  unfold Grammar.exportSpecifier
  infer_instance

instance fromClause : Regular Grammar.fromClause := by
  unfold Grammar.fromClause
  infer_instance

instance namedImports : Regular g.namedImports := by
  unfold Grammar.namedImports
  infer_instance

instance namespaceImport : Regular g.namespaceImport := by
  unfold Grammar.namespaceImport
  infer_instance

instance importClause : Regular g.importClause := by
  unfold Grammar.importClause
  infer_instance

instance importAttribute : Regular g.importAttribute := by
  unfold Grammar.importAttribute
  infer_instance

instance importStatement : Regular g.importStatement := by
  unfold Grammar.importStatement
  infer_instance

instance exportClause : Regular g.exportClause := by
  unfold Grammar.exportClause
  infer_instance

instance exportTail : Regular g.exportTail := by
  refine of_orElse inferInstance (of_orElse ?_ inferInstance)
  exact andThen fun _ => andThen fun name => by cases name <;> infer_instance

instance exportStatement : Regular g.exportStatement := by
  unfold Grammar.exportStatement
  infer_instance

instance jump (word : String) (kind : Kind) : Regular (g.jump word kind) := by
  unfold Grammar.jump
  infer_instance

instance headed
    (word : String)
    (kind : Kind) :
    Regular (g.headed word kind) := by
  unfold Grammar.headed
  infer_instance

instance ifStatement : Regular g.ifStatement := by
  unfold Grammar.ifStatement
  infer_instance

instance memberHead : Regular g.memberHead := by
  unfold Grammar.memberHead
  infer_instance

instance countHead : Regular g.countHead := by
  unfold Grammar.countHead
  infer_instance

instance forStatement : Regular g.forStatement :=
  andThen fun _ => andThen fun head => by cases head <;> infer_instance

instance doStatement : Regular g.doStatement := by
  unfold Grammar.doStatement
  infer_instance

instance tryStatement : Regular g.tryStatement := by
  unfold Grammar.tryStatement
  infer_instance

instance switchStatement : Regular g.switchStatement := by
  unfold Grammar.switchStatement
  infer_instance

instance returnStatement : Regular g.returnStatement := by
  unfold Grammar.returnStatement
  infer_instance

instance throwStatement : Regular g.throwStatement := by
  unfold Grammar.throwStatement
  infer_instance

instance labeledStatement : Regular g.labeledStatement := by
  unfold Grammar.labeledStatement
  infer_instance

instance expressionStatement : Regular g.expressionStatement := by
  unfold Grammar.expressionStatement
  infer_instance

instance declarationStatement
    (declaration : Reading Node)
    [declarationRegular : Regular declaration] :
    Regular (g.declarationStatement declaration) := by
  unfold Grammar.declarationStatement
  infer_instance

instance braceStatement : Regular g.braceStatement := by
  rw [braceStatement_eq]
  infer_instance

instance wordStatement (word : String) : Regular (g.wordStatement word) := by
  unfold Grammar.wordStatement
  split <;> infer_instance

instance statementRule : Regular g.statementRule := by
  refine andThen fun _ => andThen fun word => ?_
  cases word with
  | some word => infer_instance
  | none =>
    refine get_bind (fun _ _ => rfl) fun cursor => ?_
    split <;> infer_instance

instance rule (goal : Goal) : Regular (g.rule goal) := by
  cases goal <;> unfold Grammar.rule <;> infer_instance

theorem toDepth
    (dialect : Dialect)
    (depth : Nat)
    (goal : Goal) :
    Regular (Grammar.toDepth dialect depth goal) := by
  induction depth generalizing goal with
  | zero => exact reject
  | succ depth depthHypothesis =>
    exact @rule ⟨dialect, Grammar.toDepth dialect depth⟩ depthHypothesis goal

end Regular
end Reading
end Syntax
end StoryMigration
