import StoryMigration.Proofs.ExpressionStart

/-!
# Statements start at their first token

A statement is read from the token behind the blanks and comments in front of
it, and its node starts there.
-/

namespace StoryMigration
namespace Syntax
namespace Reading
namespace Begins

open Yields

variable (g : Grammar) {kind : Kind}

/-! ## Declarations -/

theorem declarators
    (place : Place) :
    Opens (g.declarators place) fun result => StartAt result.2 := by
  unfold Grammar.declarators
  refine Opens.orElse ?_ (Opens.orElse ?_ (Opens.require_bind ?_))
  · refine (keyword _ _).bind fun _ _ starts => bind fun _ => ?_
    exact pure fun _ => startAt_cons starts
  · refine Opens.bind ?_ fun _ _ starts => bind fun _ =>
      pure fun _ => startAt_cons starts
    refine (keyword _ _).orElse ((keyword _ _).bind fun _ _ starts => ?_)
    iterate 3 refine bind fun _ => ?_
    exact pure fun _ => starts
  · refine (keyword _ _).maybe_bind ?_ fun await offset starts => ?_
    · refine (keyword _ _).bind fun _ _ starts => get_bind fun _ => ?_
      iterate 2 refine bind fun _ => ?_
      exact pure fun _ => startAt_cons starts
    · refine bind fun _ => get_bind fun _ => ?_
      iterate 2 refine bind fun _ => ?_
      exact pure fun _ => startAt_cons starts

theorem variableDeclaration : Begins g.variableDeclaration := by
  unfold Grammar.variableDeclaration
  exact (declarators g _).bind fun _ _ starts => bind fun _ =>
    yields_build (starts.append _)

theorem functionDeclaration
    (operator : Bool) :
    Begins (g.functionDeclaration operator) := by
  unfold Grammar.functionDeclaration
  have marked : Begins (do
      let async ← Reading.keyword "async"
      g.goesOn .tail
      Pure.pure async) := by
    refine (keyword _ _).bind fun _ _ starts => bind fun _ => ?_
    exact pure fun _ => starts
  refine marked.maybe_bind ?_ fun async offset starts => ?_
  · refine (keyword _ _).bind fun _ _ starts => ?_
    iterate 4 refine bind fun _ => ?_
    split
    · iterate 2 refine bind fun _ => ?_
      exact yields_build (startAt_cons starts)
    · iterate 2 refine bind fun _ => ?_
      exact yields_build (startAt_cons starts)
  · iterate 5 refine bind fun _ => ?_
    split
    · iterate 2 refine bind fun _ => ?_
      exact yields_build (startAt_cons starts)
    · iterate 2 refine bind fun _ => ?_
      exact yields_build (startAt_cons starts)

theorem enumDeclaration : Begins g.enumDeclaration := by
  unfold Grammar.enumDeclaration
  refine (keyword _ _).maybe_bind ?_ fun const offset starts => ?_
  · refine (keyword _ _).bind fun _ _ starts => ?_
    iterate 4 refine bind fun _ => ?_
    exact yields_build (startAt_cons starts)
  · iterate 5 refine bind fun _ => ?_
    exact yields_build (startAt_cons starts)

theorem typedDeclaration : Begins g.typedDeclaration := by
  unfold Grammar.typedDeclaration
  refine Opens.nextWord_bind fun word => ?_
  split
  · refine (keyword _ _).bind fun _ _ starts => ?_
    iterate 6 refine bind fun _ => ?_
    exact yields_build (startAt_cons starts)
  · refine (keyword _ _).bind fun _ _ starts => ?_
    iterate 4 refine bind fun _ => ?_
    exact yields_build (startAt_cons starts)
  · exact enumDeclaration g
  · exact enumDeclaration g
  · refine (keyword _ _).bind fun _ _ starts => ?_
    exact yields_classFrom g _ _ _ (startAt_cons starts)
  · refine (keyword _ _).bind fun _ _ starts => ?_
    iterate 3 refine bind fun _ => ?_
    exact yields_build (startAt_cons starts)
  · refine Opens.require_bind ((anyWord _).bind fun _ _ starts => ?_)
    iterate 3 refine bind fun _ => ?_
    exact yields_build (startAt_cons starts)
  · exact Opens.reject

theorem classDeclaration
    (operator : Bool) :
    Begins (g.classDeclaration operator) := by
  unfold Grammar.classDeclaration
  refine (decorator g).many_bind ?_ fun first others offset starts => ?_
  · refine Opens.orElse ?_ (classFrom g _ _ _ rfl)
    refine (keyword _ _).bind fun _ _ starts => bind fun _ => ?_
    exact yields_classFrom g _ _ _ (startAt_cons starts)
  · refine orElse (bind fun _ => bind fun _ => ?_) ?_
    · exact yields_classFrom g _ _ _ (startAt_cons starts)
    · exact yields_classFrom g _ _ _ (startAt_cons starts)

theorem whenTyped
    {reading : Reading Node}
    (begins : Begins reading) :
    Begins (g.whenTyped reading) :=
  Opens.require_bind begins

theorem importAlias : Begins g.importAlias := by
  unfold Grammar.importAlias
  refine (keyword _ _).bind fun _ _ starts => ?_
  iterate 5 refine bind fun _ => ?_
  exact yields_build (startAt_cons starts)

theorem importStatement : Begins g.importStatement := by
  unfold Grammar.importStatement
  refine (keyword _ _).bind fun _ _ starts => ?_
  iterate 3 refine bind fun _ => ?_
  exact yields_build (startAt_cons starts)

theorem exportStatement : Begins g.exportStatement := by
  unfold Grammar.exportStatement
  refine (decorator g).many_bind ?_ fun first others offset starts => ?_
  · refine (keyword _ _).bind fun _ _ starts => bind fun _ => ?_
    exact yields_build (startAt_cons starts)
  · iterate 2 refine bind fun _ => ?_
    exact yields_build (startAt_cons starts)

/-! ## Statements -/

theorem jump (word : String) : Begins (g.jump word kind) := by
  unfold Grammar.jump
  refine (keyword _ _).bind fun _ _ starts => ?_
  iterate 2 refine bind fun _ => ?_
  exact yields_build (startAt_cons starts)

theorem headed (word : String) : Begins (g.headed word kind) := by
  unfold Grammar.headed
  refine (keyword _ _).bind fun _ _ starts => ?_
  iterate 2 refine bind fun _ => ?_
  exact yields_build (startAt_cons starts)

theorem ifStatement : Begins g.ifStatement := by
  unfold Grammar.ifStatement
  refine (keyword _ _).bind fun _ _ starts => ?_
  iterate 3 refine bind fun _ => ?_
  exact yields_build (startAt_cons starts)

theorem forStatement : Begins g.forStatement := by
  unfold Grammar.forStatement
  refine (keyword _ _).bind fun _ _ starts => bind fun head => ?_
  cases head with
  | none =>
    iterate 2 refine bind fun _ => ?_
    exact yields_build (startAt_cons starts)
  | some head =>
    iterate 2 refine bind fun _ => ?_
    exact yields_build (startAt_cons starts)

theorem doStatement : Begins g.doStatement := by
  unfold Grammar.doStatement
  refine (keyword _ _).bind fun _ _ starts => ?_
  iterate 4 refine bind fun _ => ?_
  exact yields_build (startAt_cons starts)

theorem tryStatement : Begins g.tryStatement := by
  unfold Grammar.tryStatement
  refine (keyword _ _).bind fun _ _ starts => ?_
  iterate 3 refine bind fun _ => ?_
  exact yields_build (startAt_cons starts)

theorem switchStatement : Begins g.switchStatement := by
  unfold Grammar.switchStatement
  refine (keyword _ _).bind fun _ _ starts => ?_
  iterate 5 refine bind fun _ => ?_
  exact yields_build (startAt_cons starts)

theorem returnStatement : Begins g.returnStatement := by
  unfold Grammar.returnStatement
  refine (keyword _ _).bind fun _ _ starts => ?_
  iterate 2 refine bind fun _ => ?_
  exact yields_build (startAt_cons starts)

theorem throwStatement : Begins g.throwStatement := by
  unfold Grammar.throwStatement
  refine (keyword _ _).bind fun _ _ starts => ?_
  iterate 2 refine bind fun _ => ?_
  exact yields_build (startAt_cons starts)

theorem labeledStatement : Begins g.labeledStatement := by
  unfold Grammar.labeledStatement
  refine (wordExcept _ _).bind fun _ _ starts => ?_
  iterate 2 refine bind fun _ => ?_
  exact yields_build (startAt_cons starts)

section Values

variable {g} (values : Values g)
include values

theorem declarationStatement
    {declaration : Reading Node}
    (begins : Begins declaration) :
    Begins (g.declarationStatement declaration) := by
  unfold Grammar.declarationStatement
  refine Opens.orElse ?_ (expressionStatement values)
  refine begins.bind fun _ _ starts => ?_
  iterate 2 refine bind fun _ => ?_
  exact pure fun _ => starts

theorem braceStatement : Begins g.braceStatement := by
  have ended : Begins (Regular.endedBlock g) := by
    refine (block g false).bind fun _ _ starts => ?_
    iterate 2 refine bind fun _ => ?_
    exact pure fun _ => starts
  have unlabelled : Begins (Regular.unlabelled (Regular.endedBlock g)) :=
    ended.bind fun _ _ starts => bind fun _ => pure fun _ => starts
  rw [Regular.braceStatement_eq]
  exact unlabelled.orElse ((expressionStatement values).orElse ended)

theorem wordStatement (word : String) : Begins (g.wordStatement word) := by
  have value := expressionStatement values
  unfold Grammar.wordStatement
  split
  · exact (importStatement g).orElse
      ((whenTyped g (importAlias g)).orElse value)
  · refine Opens.orElse (Opens.ahead_bind fun _ => Opens.require_bind ?_) value
    refine Opens.orElse ?_ (exportStatement g)
    refine (keyword _ _).bind fun _ _ starts => bind fun _ => ?_
    exact yields_build (startAt_cons starts)
  · exact variableDeclaration g
  · exact (variableDeclaration g).orElse (whenTyped g (enumDeclaration g))
  · exact (variableDeclaration g).orElse value
  · exact (variableDeclaration g).orElse value
  · exact value.orElse (variableDeclaration g)
  · exact declarationStatement values (functionDeclaration g true)
  · exact declarationStatement values (classDeclaration g true)
  · refine Opens.orElse (Opens.ahead_bind fun _ => Opens.require_bind ?_) value
    exact declarationStatement values (functionDeclaration g true)
  · exact ifStatement g
  · exact forStatement g
  · exact headed g _
  · exact headed g _
  · exact doStatement g
  · exact switchStatement g
  · exact tryStatement g
  · exact jump g _
  · exact jump g _
  · exact returnStatement g
  · exact throwStatement g
  · refine (keyword _ _).bind fun _ _ starts => bind fun _ => ?_
    exact yields_build (startAt_cons starts)
  · refine Opens.orElse ?_ value
    exact Opens.require_bind (Opens.require_bind (typedDeclaration g))

theorem statementRule : Begins g.statementRule := by
  unfold Grammar.statementRule
  refine Opens.gap_bind (Opens.nextWord_bind fun word => ?_)
  cases word with
  | some word =>
    refine Opens.orElse ?_ (wordStatement values word)
    exact Opens.ahead_bind fun _ => Opens.require_bind (labeledStatement g)
  | none =>
    refine Opens.get_bind fun cursor => ?_
    split
    · exact braceStatement values
    · refine (sign _).bind fun _ _ starts => ?_
      exact yields_build (startAt_cons starts)
    · refine (exportStatement g).orElse ?_
      exact declarationStatement values (classDeclaration g true)
    · exact expressionStatement values
    · exact Opens.reject

end Values
end Begins
end Reading

/-- A statement is read from the first token on. -/
theorem statementRule_skip
    (g : Grammar)
    (cursor : Cursor) :
    g.statementRule cursor = g.statementRule (cursor.skip true) := by
  unfold Grammar.statementRule
  rw [Reading.gap_bind_apply, Reading.gap_bind_apply,
    cursor.atToken_skip.skip]

/-- The node of a statement starts behind the blanks and comments in front of
it. -/
theorem start_of_read
    {dialect : Dialect}
    {text : List Char}
    {cursor next : Cursor}
    {node : Node}
    (read : (grammarFor dialect text).read .statement cursor =
      some (node, next)) :
    node.start = (cursor.skip true).offset := by
  obtain ⟨depth, depthEq⟩ : ∃ depth, 8 * (text.length + 8) = depth + 1 :=
    ⟨8 * (text.length + 8) - 1, by omega⟩
  rw [grammarFor, depthEq] at read
  have begins := Reading.Begins.statementRule
    (Reading.Begins.values_toDepth dialect depth)
  have readHere : Grammar.statementRule _ (cursor.skip true) = some (node, next) :=
    (statementRule_skip _ cursor).symm.trans read
  exact begins.keeps cursor.atToken_skip readHere

end Syntax
end StoryMigration
