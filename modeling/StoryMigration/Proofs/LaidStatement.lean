import StoryMigration.Proofs.LaidElement
import StoryMigration.Proofs.LaidExpression
import StoryMigration.Proofs.RegularStatement

/-!
# Statements are laid over the text

The rules for statements and declarations lay what they read like those for
expressions, and so does the grammar that ties all rules together, to any
depth.
-/

namespace StoryMigration
namespace Syntax
namespace Reading
namespace LaysSome

open HasNodes

variable {text before : List Char} {g : Grammar}

/-! ## Declarations -/

theorem qualifiedName : LaysSome text before Grammar.qualifiedName :=
  (anyWord _ (by decide)).read fun _ => .grow dotName (by simp)

section Goals

variable (goals : ∀ goal, LaysSome text before (g.read goal))
include goals

theorem declarator
    (place : Place) :
    LaysSome text before (g.declarator place) := by
  have sure : LaysSome text before (do
      let mark ← Reading.sign "!"
      Reading.require (← Reading.ahead (Reading.sign ":"))
      Pure.pure mark) :=
    (sign _ (by decide)).read fun _ => .ahead fun _ => .require (.pure (by simp))
  exact (declared goals).read fun _ => (typedOption g sure).pass fun _ =>
    (typedOption g (typeAscription goals _)).pass fun _ =>
      (initializer goals _).maybe.pass fun _ => .build (by simp) rfl

theorem declarators
    (place : Place) :
    LaysSome text before (g.declarators place) := by
  have names := commaSeparated (declarator goals place)
  have word : LaysSome text before (do
      let word ← Reading.keyword "let"
      g.goesOn .tail
      Reading.require
        !(["in", "instanceof"].contains ((← Reading.nextWord).getD ""))
      Pure.pure word) :=
    (keyword _ _ (by decide)).read fun _ => goesOn g (.nextWord fun _ =>
      .require (.pure (by simp)))
  refine .orElse ?_ (.orElse ?_ ?_)
  · exact (keyword _ _ (by decide)).read fun _ => names.read fun _ => .pure (by simp)
  · exact Lays.read ((keyword _ _ (by decide)).orElse word) fun _ =>
      names.read fun _ =>
      .pure (by simp)
  · exact .require <| (keyword _ _ (by decide)).maybe.pass fun _ =>
      (keyword _ _ (by decide)).read fun _ =>
      .get_bind fun _ => .require <| names.read fun _ => .pure (by simp)

omit goals in
/-- Declarators have a word in front of them, and are no name. -/
theorem yields_declarators
    (g : Grammar)
    (place : Place) :
    Yields (g.declarators place) fun result _ =>
      result.2 ≠ [] ∧ form result.1 = .plain := by
  unfold Grammar.declarators
  refine .orElse ?_ (.orElse ?_ ?_)
  · iterate 2 refine .bind fun _ => ?_
    exact .pure fun _ => ⟨List.cons_ne_nil _ _, rfl⟩
  · iterate 2 refine .bind fun _ => ?_
    exact .pure fun _ => ⟨List.cons_ne_nil _ _, rfl⟩
  · iterate 3 refine .bind fun _ => ?_
    refine .get_bind fun _ => .bind fun _ => .bind fun _ => ?_
    exact .pure fun _ => ⟨by simp, rfl⟩

theorem variableDeclaration : LaysSome text before g.variableDeclaration := by
  refine (declarators goals _).read_where (yields_declarators g _)
    fun declared _ promised => ?_
  obtain ⟨kind, parts⟩ := declared
  obtain ⟨nonempty, plain⟩ := promised
  exact (LaysAny.semicolon _ _ _).pass fun _ =>
    .build (by simp [nonempty]) plain

theorem functionDeclaration
    (operator : Bool) :
    LaysSome text before (g.functionDeclaration operator) := by
  have async : LaysSome text before (do
      let async ← Reading.keyword "async"
      g.goesOn .tail
      Pure.pure async) :=
    (keyword _ _ (by decide)).read fun _ => goesOn g (.pure (by simp))
  refine async.maybe.pass fun _ => (keyword _ _ (by decide)).read fun _ =>
    (sign _ (by decide)).maybe.pass fun _ => (nameIn _ _ (by decide)).read fun _ =>
      (callSignature goals _).read fun _ => .ahead fun isBlock => ?_
  split
  · exact (block goals _).read fun _ => (LaysAny.softEnd _ _).pass fun _ =>
      .build (by simp) (by split <;> rfl)
  · exact .require ((LaysAny.semicolon _ _ _).pass fun _ => .build (by simp) rfl)

theorem enumDeclaration : LaysSome text before g.enumDeclaration := by
  refine (keyword _ _ (by decide)).maybe.pass fun _ =>
    (keyword _ _ (by decide)).read fun _ =>
    (anyWord _ (by decide)).read fun _ => (sign _ (by decide)).read fun _ =>
      (commaList ?_).pass fun _ =>
      (sign _ (by decide)).read fun _ => .build (by simp) rfl
  refine (memberName goals).read fun _ =>
    (initializer goals _).maybe.pass fun value => ?_
  cases value with
  | none => exact .pure (by simp)
  | some value => exact .build (by simp) rfl

theorem typedDeclaration : LaysSome text before g.typedDeclaration := by
  refine .nextWord fun word => ?_
  split
  · exact (keyword _ _ (by decide)).read fun _ =>
      goesOn g <| (anyWord _ (by decide)).read fun _ =>
      (typeParameters goals).maybe.pass fun _ => (sign _ (by decide)).read fun _ =>
        (goals _).read fun _ => (LaysAny.semicolon _ _ _).pass fun _ =>
          .build (by simp) rfl
  · have bases : LaysSome text before (do
        let word ← Reading.keyword "extends"
        let bases ← Reading.commaSeparated g.namedType
        Pure.pure (word :: bases)) :=
      (keyword _ _ (by decide)).read fun _ =>
        (commaSeparated (namedType goals)).read fun _ =>
        .pure (by simp)
    exact (keyword _ _ (by decide)).read fun _ =>
      (anyWord _ (by decide)).read fun _ =>
      (typeParameters goals).maybe.pass fun _ => bases.maybe.pass fun _ =>
        (objectType goals).read fun _ => .build (by simp) rfl
  · exact enumDeclaration goals
  · exact enumDeclaration goals
  · exact (keyword _ _ (by decide)).read fun _ =>
      (classFrom goals _ _ _ _ _ rfl).ofShapes (by simp)
  · refine (keyword _ _ (by decide)).read fun _ =>
      goesOn g <| Lays.read (.orElse ?_ ?_) fun _ =>
      .require (.build (by simp) rfl)
    · exact (keyword _ _ (by decide)).read fun _ => (block goals _).read fun _ =>
        .pure (by simp)
    · exact .map (goals _) (by simp)
  · exact .require <| (anyWord _ (by decide)).read fun _ => goesOn g <|
      Lays.read (stringLiteral.orElse qualifiedName) fun _ =>
        (block goals _).maybe.pass fun _ => .build (by simp) rfl
  · exact .reject

theorem classDeclaration
    (operator : Bool) :
    LaysSome text before (g.classDeclaration operator) := by
  refine (decorator goals).many.pass fun _ => .orElse ?_ ?_
  · exact (keyword _ _ (by decide)).read fun _ => .require
      ((classFrom goals _ _ _ _ _ rfl).ofShapes (by simp))
  · exact (classFrom goals _ _ _ _ _ rfl).ofShapes (by simp)

omit goals in
theorem importAlias (g : Grammar) : LaysSome text before g.importAlias := by
  have type : LaysSome text before (do
      let type ← Reading.keyword "type"
      Reading.require (← Reading.ahead (Reading.anyWord .token))
      Pure.pure type) :=
    (keyword _ _ (by decide)).read fun _ => .ahead fun _ => .require (.pure (by simp))
  refine (keyword _ _ (by decide)).read fun _ => type.maybe.pass fun _ =>
    (anyWord _ (by decide)).read fun _ => (sign _ (by decide)).read fun _ =>
      Lays.read (.orElse ?_ ?_)
      fun _ => (LaysAny.semicolon _ _ _).pass fun _ => .build (by simp) rfl
  · exact (keyword _ _ (by decide)).read fun _ => (sign _ (by decide)).read fun _ =>
      stringLiteral.read fun _ =>
      (sign _ (by decide)).read fun _ => .pure (by simp)
  · exact .map qualifiedName (by simp)

theorem declaration
    (operator : Bool) :
    LaysSome text before (g.declaration operator) :=
  .orElse (whenTyped g (typedDeclaration goals))
    (.orElse (variableDeclaration goals) (.orElse (functionDeclaration goals _)
      (.orElse (classDeclaration goals _) (whenTyped g (importAlias g)))))

/-! ## Imports and exports -/

omit goals in
theorem outerName (g : Grammar) : LaysSome text before g.outerName :=
  .orElse (keyword _ _ (by decide)) (.orElse (nameIn _ _ (by decide)) stringLiteral)

omit goals in
theorem aliased
    (g : Grammar)
    {kind : Kind}
    {outer inner : Reading Node}
    (outerLays : LaysSome text before outer)
    (innerLays : LaysSome text before inner)
    (plain : form kind = .plain) :
    LaysSome text before (g.aliased kind outer inner) := by
  have renamed : LaysSome text before (do
      let word ← Reading.keyword "as"
      let newName ← inner
      Pure.pure [word, newName.withRole .rename]) :=
    (keyword _ _ (by decide)).read fun _ => innerLays.read fun _ => .pure (by simp)
  refine (typedOption g ?_).pass fun _ => outerLays.read fun _ =>
    renamed.maybe.pass fun _ => .build (by simp) plain
  exact (keywordOf _).read fun _ => .ahead fun _ => .require (.pure (by simp))

omit goals in
theorem importSpecifier (g : Grammar) : LaysSome text before g.importSpecifier :=
  aliased g (.orElse (keyword _ _ (by decide)) (.orElse
    (nameIn _ _ (by decide)) stringLiteral))
    (nameIn _ _ (by decide)) rfl

omit goals in
theorem exportSpecifier (g : Grammar) : LaysSome text before g.exportSpecifier :=
  aliased g (outerName g) (outerName g) rfl

omit goals in
theorem fromClause : LaysSome text before Grammar.fromClause :=
  (keyword _ _ (by decide)).read fun _ => stringLiteral.read fun _ => .pure (by simp)

omit goals in
theorem namedImports (g : Grammar) : LaysSome text before g.namedImports :=
  (sign _ (by decide)).read fun _ => (commaList (importSpecifier g)).pass fun _ =>
    (sign _ (by decide)).read fun _ => .build (by simp) rfl

omit goals in
theorem namespaceImport (g : Grammar) : LaysSome text before g.namespaceImport :=
  (sign _ (by decide)).read fun _ => (keyword _ _ (by decide)).read fun _ =>
    (nameIn _ _ (by decide)).read fun _ => .build (by simp) rfl

omit goals in
theorem importClause (g : Grammar) : LaysSome text before g.importClause := by
  have bindings : LaysSome text before (g.namespaceImport <|> g.namedImports) :=
    .orElse (namespaceImport g) (namedImports g)
  have more : LaysSome text before (do
      let comma ← Reading.sign ","
      let bindings ← g.namespaceImport <|> g.namedImports
      Pure.pure [comma, bindings]) :=
    (sign _ (by decide)).read fun _ => bindings.read fun _ => .pure (by simp)
  refine .orElse ?_ ?_
  · exact bindings.read fun _ => .build (by simp) rfl
  · exact (nameIn _ _ (by decide)).read fun _ => more.maybe.pass fun _ =>
      .build (by simp) rfl

theorem importAttribute : LaysSome text before g.importAttribute :=
  goesOn g <| (keyword _ _ (by decide)).read fun _ => (object goals).read fun _ =>
    .build (by simp) rfl

theorem importStatement : LaysSome text before g.importStatement := by
  have whole : LaysSome text before (do
      let clause ← g.importClause
      let source ← Grammar.fromClause
      Pure.pure (clause :: source)) :=
    (importClause g).read fun _ => fromClause.read fun _ => .pure (by simp)
  refine (keyword _ _ (by decide)).read fun _ => Lays.read (.orElse (whenTyped g ?_)
    (.orElse whole ?_)) fun _ => (importAttribute goals).maybe.pass fun _ =>
      (LaysAny.semicolon _ _ _).pass fun _ => .build (by simp) rfl
  · exact (keywordOf _).read fun _ => whole.read fun _ => .pure (by simp)
  · exact stringLiteral.read fun _ => .pure (by simp)

omit goals in
theorem exportClause (g : Grammar) : LaysSome text before g.exportClause :=
  (sign _ (by decide)).read fun _ => (commaList (exportSpecifier g)).pass fun _ =>
    (sign _ (by decide)).read fun _ => .build (by simp) rfl

theorem exportTail : LaysSome text before g.exportTail := by
  have named : LaysSome text before (do
      let word ← Reading.keyword "as"
      let name ← g.outerName
      Pure.pure [word, name]) :=
    (keyword _ _ (by decide)).read fun _ => (outerName g).read fun _ =>
      .pure (by simp)
  refine .orElse ?_ (.orElse ?_ (.orElse ?_ (.orElse (whenTyped g ?_) ?_)))
  · refine (keyword _ _ (by decide)).read fun _ => .orElse ?_ ?_
    · exact Lays.read ((functionDeclaration goals _).orElse
        ((classDeclaration goals _).orElse
          (whenTyped g (typedDeclaration goals)))) fun _ => .pure (by simp)
    · exact (goals _).read fun _ => (LaysAny.semicolon _ _ _).pass fun _ =>
        .pure (by simp)
  · refine (sign _ (by decide)).read fun star => named.maybe.pass fun name => ?_
    have rest (bindings : Node) : Lays text before true [bindings] (do
        let source ← Grammar.fromClause
        let ending ← Reading.semicolon g.dialect false
        Pure.pure (bindings :: source ++ ending)) true :=
      fromClause.read fun _ => (LaysAny.semicolon _ _ _).pass fun _ =>
        .pure (by simp)
    cases name with
    | none => exact .pure_bind (rest star)
    | some parts => exact .build_bind [] (by simp) rfl rest
  · exact (typedOption g (keyword _ _ (by decide))).pass fun _ =>
      (exportClause g).read fun _ =>
      fromClause.maybe.pass fun _ => (LaysAny.semicolon _ _ _).pass fun _ =>
        .pure (by simp)
  · refine .orElse ?_ ?_
    · exact (sign _ (by decide)).read fun _ => (goals _).read fun _ =>
        (LaysAny.semicolon _ _ _).pass fun _ => .pure (by simp)
    · exact (keyword _ _ (by decide)).read fun _ =>
        (keyword _ _ (by decide)).read fun _ =>
        (anyWord _ (by decide)).read fun _ => (LaysAny.semicolon _ _ _).pass fun _ =>
          .pure (by simp)
  · exact (declaration goals _).read fun _ => .pure (by simp)

theorem exportStatement : LaysSome text before g.exportStatement :=
  (decorator goals).many.pass fun _ => (keyword _ _ (by decide)).read fun _ =>
    (exportTail goals).read fun _ => .build (by simp) rfl

/-! ## Statements -/

theorem expressionStatement : LaysSome text before g.expressionStatement :=
  (commaExpression goals _).read fun _ => (LaysAny.semicolon _ _ _).pass fun _ =>
    .build (by simp) rfl

omit goals in
theorem jump
    (g : Grammar)
    (word : String)
    (kind : Kind)
    (plain : form kind = .plain) :
    LaysSome text before (g.jump word kind) := by
  have label : LaysSome text before (do
      g.goesOn .typeTail
      Reading.nameIn g.dialect .statementLabel) :=
    goesOn g (nameIn _ _ (by decide))
  exact (keyword _ _ (by decide)).read fun _ => label.maybe.pass fun _ =>
    (LaysAny.semicolon _ _ _).pass fun _ => .build (by simp) plain

theorem headed
    (word : String)
    (kind : Kind)
    (plain : form kind = .plain) :
    LaysSome text before (g.headed word kind) :=
  (keyword _ _ (by decide)).read fun _ => (parenthesized goals).read fun _ =>
    (goals _).read fun _ => .build (by simp) plain

theorem ifStatement : LaysSome text before g.ifStatement := by
  have other : LaysSome text before (do
      let word ← Reading.keyword "else"
      let body ← g.read .statement
      Reading.build .elseClause [word, body]) :=
    (keyword _ _ (by decide)).read fun _ => (goals _).read fun _ =>
      .build (by simp) rfl
  exact (keyword _ _ (by decide)).read fun _ => (parenthesized goals).read fun _ =>
    (goals _).read fun _ => other.maybe.pass fun _ => .build (by simp) rfl

theorem memberHead : LaysSome text before g.memberHead := by
  have word : LaysSome text before (Reading.keyword "var"
      <|> Reading.keyword "const" <|> Reading.keyword "let") :=
    .orElse (keyword _ _ (by decide)) (.orElse (keyword _ _ (by decide))
      (keyword _ _ (by decide)))
  refine (keyword _ _ (by decide)).maybe.pass fun _ =>
    (sign _ (by decide)).read fun _ =>
    Lays.read (.orElse ?_ (.map ((goals _).orElse (parenthesized goals))
      (by simp))) fun _ =>
        Lays.read ((keyword _ _ (by decide)).orElse
          (keyword _ _ (by decide))) fun _ =>
        (commaExpression goals _).read fun _ => (sign _ (by decide)).read fun _ =>
          .pure (by simp)
  exact word.read fun _ => (declared goals).read fun _ =>
    (initializer goals _).maybe.pass fun _ => .pure (by simp)

theorem countHead : LaysSome text before g.countHead := by
  refine (sign _ (by decide)).read fun _ => Lays.read (.orElse (sign _ (by decide))
    (.orElse (variableDeclaration goals) ?_)) fun _ =>
      (commaExpression goals _).maybe.pass fun _ =>
        (sign _ (by decide)).read fun _ =>
        (commaExpression goals _).maybe.pass fun _ =>
          (sign _ (by decide)).read fun _ => .pure (by simp)
  exact (commaExpression goals _).read fun _ => (sign _ (by decide)).read fun _ =>
    .build (by simp) rfl

theorem forStatement : LaysSome text before g.forStatement := by
  refine (keyword _ _ (by decide)).read fun _ =>
    (memberHead goals).maybe.pass fun head => ?_
  cases head with
  | none =>
    exact (countHead goals).read fun _ => (goals _).read fun _ =>
      .build (by simp) rfl
  | some head => exact .pure_bind ((goals _).read fun _ => .build (by simp) rfl)

theorem doStatement : LaysSome text before g.doStatement :=
  (keyword _ _ (by decide)).read fun _ => (goals _).read fun _ =>
    (keyword _ _ (by decide)).read fun _ =>
    (parenthesized goals).read fun _ =>
      (LaysAny.semicolon _ _ _).maybe.pass fun _ =>
      .build (by simp) rfl

theorem tryStatement : LaysSome text before g.tryStatement := by
  have parameter : LaysSome text before (do
      let opening ← Reading.sign "("
      let name ← g.declared
      let type ← g.typedOption (g.typeAscription .typeInside)
      let closing ← Reading.sign ")"
      Pure.pure ([opening, name] ++ type ++ [closing])) :=
    (sign _ (by decide)).read fun _ => (declared goals).read fun _ =>
      (typedOption g (typeAscription goals _)).pass fun _ =>
        (sign _ (by decide)).read fun _ =>
        .pure (by simp)
  refine (keyword _ _ (by decide)).read fun _ => (block goals _).read fun _ =>
    (maybe ?_).pass fun _ => (maybe ?_).pass fun _ => .build (by simp) rfl
  · exact (keyword _ _ (by decide)).read fun _ => parameter.maybe.pass fun _ =>
      (block goals _).read fun _ => .build (by simp) rfl
  · exact (keyword _ _ (by decide)).read fun _ => (block goals _).read fun _ =>
      .build (by simp) rfl

theorem switchStatement : LaysSome text before g.switchStatement := by
  refine (keyword _ _ (by decide)).read fun word =>
    (parenthesized goals).read fun head =>
    (sign _ (by decide)).read fun _ => (many (.orElse ?_ ?_)).pass fun _ =>
      (sign _ (by decide)).read fun _ =>
        .build_bind [word, head] (by simp) rfl fun _ => .build (by simp) rfl
  · exact (keyword _ _ (by decide)).read fun _ =>
      (commaExpression goals _).read fun _ =>
      (sign _ (by decide)).read fun _ => (goals _).many.pass fun _ =>
        .build (by simp) rfl
  · exact (keyword _ _ (by decide)).read fun _ => (sign _ (by decide)).read fun _ =>
      (goals _).many.pass fun _ => .build (by simp) rfl

theorem returnStatement : LaysSome text before g.returnStatement := by
  have value : LaysSome text before (do
      g.goesOn .typeTail
      g.commaExpression .tail) :=
    goesOn g (commaExpression goals _)
  exact (keyword _ _ (by decide)).read fun _ => value.maybe.pass fun _ =>
    (LaysAny.semicolon _ _ _).pass fun _ => .build (by simp) rfl

theorem throwStatement : LaysSome text before g.throwStatement :=
  (keyword _ _ (by decide)).read fun _ => (commaExpression goals _).read fun _ =>
    (LaysAny.semicolon _ _ _).pass fun _ => .build (by simp) rfl

theorem labeledStatement : LaysSome text before g.labeledStatement :=
  (wordExcept _ _ (by decide)).read fun _ => (sign _ (by decide)).read fun _ =>
    (goals _).read fun _ => .build (by simp) rfl

theorem declarationStatement
    {declaration : Reading Node}
    (lays : LaysSome text before declaration) :
    LaysSome text before (g.declarationStatement declaration) :=
  .orElse (lays.read fun _ => .ahead fun _ => .require (.pure (by simp)))
    (expressionStatement goals)

theorem braceStatement : LaysSome text before g.braceStatement := by
  have ended : LaysSome text before (Regular.endedBlock g) :=
    (block goals _).read fun _ => .ahead fun _ => .require (.pure (by simp))
  rw [Regular.braceStatement_eq]
  exact .orElse (ended.read fun _ => .require (.pure (by simp)))
    (.orElse (expressionStatement goals) ended)

theorem wordStatement (word : String) : LaysSome text before (g.wordStatement word) := by
  have value := expressionStatement goals
  unfold Grammar.wordStatement
  split
  · exact .orElse (importStatement goals)
      (.orElse (whenTyped g (importAlias g)) value)
  · refine .orElse (.ahead fun _ => .require
      (.orElse ?_ (exportStatement goals))) value
    exact (keyword _ _ (by decide)).read fun _ =>
      Lays.read (whenTyped g (importAlias g))
      fun _ => .build (by simp) rfl
  · exact variableDeclaration goals
  · exact .orElse (variableDeclaration goals)
      (whenTyped g (enumDeclaration goals))
  · exact .orElse (variableDeclaration goals) value
  · exact .orElse (variableDeclaration goals) value
  · exact .orElse value (variableDeclaration goals)
  · exact declarationStatement goals (functionDeclaration goals true)
  · exact declarationStatement goals (classDeclaration goals true)
  · exact .orElse (.ahead fun _ => .require
      (declarationStatement goals (functionDeclaration goals true))) value
  · exact ifStatement goals
  · exact forStatement goals
  · exact headed goals _ _ rfl
  · exact headed goals _ _ rfl
  · exact doStatement goals
  · exact switchStatement goals
  · exact tryStatement goals
  · exact jump g _ _ rfl
  · exact jump g _ _ rfl
  · exact returnStatement goals
  · exact throwStatement goals
  · exact (keyword _ _ (by decide)).read fun _ =>
      (LaysAny.semicolon _ _ _).pass fun _ =>
      .build (by simp) rfl
  · exact .orElse (.require (.require (typedDeclaration goals))) value

theorem statementRule : LaysSome text before g.statementRule := by
  refine .gap (.nextWord fun word => ?_)
  cases word with
  | some word =>
    exact .orElse (.ahead fun _ => .require (labeledStatement goals))
      (wordStatement goals word)
  | none =>
    refine .get_bind fun cursor => ?_
    split
    · exact braceStatement goals
    · exact (sign _ (by decide)).read fun _ => .build (by simp) rfl
    · exact .orElse (exportStatement goals)
        (declarationStatement goals (classDeclaration goals true))
    · exact expressionStatement goals
    · exact .reject

theorem rule
    [∀ goal, Regular (g.read goal)]
    (elements : EndsPart (g.read .element))
    (goal : Goal) :
    LaysSome text before (g.rule goal) := by
  cases goal with
  | statement => exact statementRule goals
  | expression place => exact expressionRule goals place
  | operand place => exact operandRule goals place
  | binding => exact binding goals
  | type place choice => exact typeRule goals place choice
  | typeOperand place => exact typeOperand goals place
  | element => exact element goals elements

end Goals

/-- Elements end with a tag to any depth. -/
theorem endsPart_toDepth
    (dialect : Dialect)
    (depth : Nat) :
    EndsPart (Grammar.toDepth dialect depth .element) := by
  cases depth with
  | zero => exact .reject
  | succ depth =>
    have regular : ∀ goal, Regular (Grammar.toDepth dialect depth goal) :=
      Regular.toDepth dialect depth
    exact .element ⟨dialect, Grammar.toDepth dialect depth⟩

/-- Whatever the grammar reads for a goal is laid over the text. -/
theorem toDepth
    (dialect : Dialect)
    (depth : Nat)
    (goal : Goal) :
    LaysSome text before (Grammar.toDepth dialect depth goal) := by
  induction depth generalizing goal with
  | zero => exact .reject
  | succ depth depthHypothesis =>
    have regular : ∀ goal, Regular (Grammar.toDepth dialect depth goal) :=
      Regular.toDepth dialect depth
    exact rule depthHypothesis (endsPart_toDepth dialect depth) goal

end LaysSome
end Reading
end Syntax
end StoryMigration
