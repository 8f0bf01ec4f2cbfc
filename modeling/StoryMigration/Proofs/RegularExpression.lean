import StoryMigration.Proofs.RegularReading
import StoryMigration.Syntax.Rule.Expression

/-!
# Expressions are read from the text alone

Every rule of the grammar up to expressions is regular if the rules that it
calls by their goals are.  A rule built from regular parts needs no more than
that; where one branches on what it has read, each branch is looked at by
itself.  The body of an arrow function goes back in the text to read it anew,
which is the same as trying alternatives in order.
-/

namespace StoryMigration
namespace Syntax
namespace Reading
namespace Regular

variable (g : Grammar) [regular : ∀ goal, Regular (g.read goal)]

/-! ## Goals -/

instance whenTyped
    {α : Type}
    (reading : Reading α)
    [readingRegular : Regular reading] :
    Regular (g.whenTyped reading) := by
  unfold Grammar.whenTyped
  infer_instance

instance typedOption
    (reading : Reading Node)
    [readingRegular : Regular reading] :
    Regular (g.typedOption reading) := by
  unfold Grammar.typedOption
  infer_instance

instance stopsHere (place : Place) : Regular (g.stopsHere place) := by
  unfold Grammar.stopsHere
  split
  · refine get_bind (fun cursor earlier => ?_) fun _ => inferInstance
    rw [Cursor.statementEnd?_behind, Option.isSome_map]
  · infer_instance

instance goesOn (place : Place) : Regular (g.goesOn place) := by
  unfold Grammar.goesOn
  infer_instance

instance inner : Regular g.inner := regular _

instance commaExpression (place : Place) : Regular (g.commaExpression place) :=
  andThen fun _ => andThen fun rest => by cases rest <;> infer_instance

/-! ## Literals -/

instance templateSubstitution : Regular g.templateSubstitution := by
  unfold Grammar.templateSubstitution
  infer_instance

instance template : Regular g.template := by
  refine andThen fun _ => of_bind (of_many ?_) fun _ => inferInstance
  refine of_orElse (get_bind (fun _ _ => rfl) fun _ => ?_) inferInstance
  split <;> infer_instance

instance spread : Regular g.spread := by
  unfold Grammar.spread
  infer_instance

instance item : Regular g.item := by
  unfold Grammar.item
  infer_instance

instance array : Regular g.array := by
  unfold Grammar.array
  infer_instance

instance computedName : Regular g.computedName := by
  unfold Grammar.computedName
  infer_instance

instance memberName : Regular g.memberName := by
  unfold Grammar.memberName
  infer_instance

instance modifiers
    (words : List String)
    (closes : Bool) :
    Regular (g.modifiers words closes) := by
  refine of_many (andThen fun _ => ?_)
  split
  · refine get_bind (fun cursor earlier => ?_) fun _ => inferInstance
    rw [Cursor.statementEnd?_behind, Option.isSome_map]
  · infer_instance

/-! ## Bindings -/

instance name (kind : Kind) : Regular (g.name kind) := by
  unfold Grammar.name
  infer_instance

instance memberWord (kind : Kind) : Regular (g.memberWord kind) := by
  unfold Grammar.memberWord
  infer_instance

instance initializer (place : Place) : Regular (g.initializer place) := by
  unfold Grammar.initializer
  infer_instance

instance bindingElement : Regular g.bindingElement :=
  andThen fun _ => andThen fun equals => by cases equals <;> infer_instance

instance restPattern : Regular g.restPattern := by
  unfold Grammar.restPattern
  infer_instance

instance pairPattern : Regular g.pairPattern := by
  unfold Grammar.pairPattern
  infer_instance

instance shorthandPattern : Regular g.shorthandPattern :=
  andThen fun _ => andThen fun equals => by cases equals <;> infer_instance

instance objectPattern : Regular g.objectPattern := by
  unfold Grammar.objectPattern
  infer_instance

instance arrayPattern : Regular g.arrayPattern := by
  unfold Grammar.arrayPattern
  infer_instance

instance placeSuffix (target : Node) : Regular (g.placeSuffix target) := by
  unfold Grammar.placeSuffix
  infer_instance

instance binding : Regular g.binding := by
  unfold Grammar.binding
  infer_instance

instance declared : Regular g.declared := by
  unfold Grammar.declared
  infer_instance

/-! ## Parameters -/

instance typeAscription (place : Place) : Regular (g.typeAscription place) := by
  unfold Grammar.typeAscription
  infer_instance

instance typePredicate (place : Place) : Regular (g.typePredicate place) := by
  unfold Grammar.typePredicate
  infer_instance

instance assertion (place : Place) : Regular (g.assertion place) := by
  unfold Grammar.assertion
  infer_instance

instance resultType (place : Place) : Regular (g.resultType place) := by
  unfold Grammar.resultType
  infer_instance

instance resultAscription
    (place : Place) :
    Regular (g.resultAscription place) := by
  unfold Grammar.resultAscription
  infer_instance

instance typeParameter : Regular g.typeParameter := by
  unfold Grammar.typeParameter
  infer_instance

instance typeParameters : Regular g.typeParameters := by
  unfold Grammar.typeParameters
  infer_instance

instance typeArguments : Regular g.typeArguments := by
  unfold Grammar.typeArguments
  infer_instance

instance arguments : Regular g.arguments := by
  unfold Grammar.arguments
  infer_instance

instance decoratorName : Regular Grammar.decoratorName := by
  unfold Grammar.decoratorName
  infer_instance

instance decorator : Regular g.decorator := by
  unfold Grammar.decorator
  infer_instance

instance typedParameter : Regular g.typedParameter := by
  unfold Grammar.typedParameter
  infer_instance

instance parameter : Regular g.parameter := by
  unfold Grammar.parameter
  infer_instance

instance formalParameters : Regular g.formalParameters := by
  unfold Grammar.formalParameters
  infer_instance

instance callSignature (place : Place) : Regular (g.callSignature place) := by
  unfold Grammar.callSignature
  infer_instance

/-! ## Elements -/

instance elementWord (kind : Kind) : Regular (Grammar.elementWord kind) :=
  gap_get_bind (fun _ _ => rfl) fun _ => by split <;> infer_instance

instance namespaceName : Regular Grammar.namespaceName := by
  unfold Grammar.namespaceName
  infer_instance

instance elementName : Regular Grammar.elementName := by
  unfold Grammar.elementName
  infer_instance

instance elementExpression : Regular g.elementExpression := by
  unfold Grammar.elementExpression
  infer_instance

instance reference : Regular Grammar.reference :=
  get_bind (fun _ _ => rfl) fun _ => by split <;> infer_instance

instance attributeString
    (quote : Char) :
    Regular (Grammar.attributeString quote) := by
  refine andThen fun _ => of_bind (of_many ?_) fun _ => inferInstance
  refine of_orElse (get_bind (fun _ _ => rfl) fun _ => ?_) inferInstance
  split <;> infer_instance

instance elementAttribute : Regular g.elementAttribute := by
  unfold Grammar.elementAttribute
  infer_instance

instance elementText : Regular Grammar.elementText :=
  get_bind (fun _ _ => rfl) fun _ =>
    get_bind (fun _ _ => rfl) fun _ => inferInstance

instance elementChild : Regular g.elementChild := by
  unfold Grammar.elementChild
  infer_instance

instance element : Regular g.element :=
  andThen fun _ => andThen fun _ => andThen fun closing => by
    cases closing <;> infer_instance

/-! ## Types -/

instance literalWord : Regular Grammar.literalWord := by
  unfold Grammar.literalWord
  infer_instance

instance innerType : Regular g.innerType := by
  unfold Grammar.innerType
  infer_instance

instance templateType : Regular g.templateType := by
  refine andThen fun _ => of_bind (of_many ?_) fun _ => inferInstance
  refine of_orElse (get_bind (fun _ _ => rfl) fun _ => ?_) inferInstance
  split <;> infer_instance

instance namedType : Regular g.namedType := by
  refine andThen fun _ => andThen fun more => ?_
  split <;> refine andThen fun _ => andThen fun arguments => ?_ <;>
    cases arguments <;> infer_instance

instance queriedValue : Regular g.queriedValue :=
  andThen fun _ => andThen fun _ => andThen fun arguments => by
    cases arguments <;> infer_instance

instance importedType : Regular g.importedType :=
  andThen fun _ => andThen fun _ => andThen fun _ => andThen fun _ =>
    andThen fun arguments => by cases arguments <;> infer_instance

instance tupleMember : Regular g.tupleMember := by
  refine of_orElse inferInstance (of_orElse inferInstance ?_)
  exact andThen fun _ => andThen fun mark => by cases mark <;> infer_instance

instance indexSignature (place : Place) : Regular (g.indexSignature place) := by
  unfold Grammar.indexSignature
  infer_instance

instance typeMember (place : Place) : Regular (g.typeMember place) := by
  refine of_orElse inferInstance (of_orElse inferInstance
    (of_orElse inferInstance ?_))
  exact andThen fun _ => andThen fun _ => andThen fun _ => andThen fun _ =>
    andThen fun signature => by cases signature <;> infer_instance

instance objectType : Regular g.objectType := by
  unfold Grammar.objectType
  infer_instance

instance functionType (place : Place) : Regular (g.functionType place) := by
  unfold Grammar.functionType
  infer_instance

instance wordType
    (word : String)
    (place : Place) :
    Regular (g.wordType word place) := by
  unfold Grammar.wordType
  infer_instance

instance typeAtom (place : Place) : Regular (g.typeAtom place) := by
  refine andThen fun word => ?_
  cases word with
  | none => infer_instance
  | some word =>
    simp only
    split <;> infer_instance

instance typeSuffix
    (place : Place)
    (type : Node) :
    Regular (g.typeSuffix place type) := by
  unfold Grammar.typeSuffix
  infer_instance

instance typeOperand (place : Place) : Regular (g.typeOperand place) := by
  unfold Grammar.typeOperand
  infer_instance

instance typeRule
    (place : Place)
    (choice : Bool) :
    Regular (g.typeRule place choice) := by
  refine andThen fun leading => andThen fun _ => andThen fun more => ?_
  dsimp only
  split
  all_goals
    refine andThen fun _ => of_ite inferInstance ?_
    exact andThen fun rest => by cases rest <;> infer_instance

/-! ## Functions and classes -/

instance block (operator : Bool) : Regular (g.block operator) := by
  unfold Grammar.block
  infer_instance

instance functionExpression : Regular g.functionExpression := by
  unfold Grammar.functionExpression
  infer_instance

instance method
    (words : List String)
    (closes : Bool) :
    Regular (g.method words closes) := by
  unfold Grammar.method
  infer_instance

instance pair : Regular g.pair := by
  unfold Grammar.pair
  infer_instance

instance shorthand : Regular g.shorthand := by
  unfold Grammar.shorthand
  infer_instance

instance object : Regular g.object := by
  unfold Grammar.object
  infer_instance

instance staticBlock : Regular g.staticBlock := by
  unfold Grammar.staticBlock
  infer_instance

instance plainField : Regular g.plainField := by
  unfold Grammar.plainField
  infer_instance

instance memberEnd
    (operator signature : Bool) :
    Regular (g.memberEnd operator signature) := by
  unfold Grammar.memberEnd
  infer_instance

instance typedMember : Regular g.typedMember := by
  unfold Grammar.typedMember
  infer_instance

instance classMember : Regular g.classMember := by
  unfold Grammar.classMember
  infer_instance

instance classBody : Regular g.classBody := by
  unfold Grammar.classBody
  infer_instance

instance classHeritage : Regular g.classHeritage := by
  unfold Grammar.classHeritage
  infer_instance

instance classFrom
    (kind : Kind)
    (needsName ends operator : Bool)
    (front : List Node) :
    Regular (g.classFrom kind needsName ends operator front) := by
  unfold Grammar.classFrom
  infer_instance

instance classExpression : Regular g.classExpression := by
  unfold Grammar.classExpression
  infer_instance

/-! ## Expressions -/

/-- A block whose first statement is no labelled one. -/
def unlabelled (block : Reading Node) : Reading Node := do
  let node ← block
  Reading.require !(startsWithLabel node)
  Pure.pure node

instance
    (block : Reading Node)
    [blockRegular : Regular block] :
    Regular (unlabelled block) := by
  unfold unlabelled
  infer_instance

theorem unlabelled_of_none
    {block : Reading Node}
    {cursor : Cursor}
    (fails : block cursor = none) :
    unlabelled block cursor = none := by
  unfold unlabelled
  rw [bind_apply, fails]
  rfl

theorem unlabelled_of_some
    {block : Reading Node}
    {cursor next : Cursor}
    {node : Node}
    (reads : block cursor = some (node, next)) :
    unlabelled block cursor =
      if startsWithLabel node then none else some (node, next) := by
  unfold unlabelled
  rw [bind_apply, reads]
  cases labelled : startsWithLabel node <;>
    simp only [Option.bind_some, labelled] <;> rfl

omit regular in
/-- The body of an arrow function as three alternatives: a block that is no
object, an expression where there is no block or where an object could stand,
and the block after all. -/
theorem arrowBody_eq (place : Place) :
    g.arrowBody place =
      (unlabelled (g.block true)
        <|> (do
          Reading.require
            (!(← Reading.ahead (g.block true)) || (← Reading.ahead g.object))
          g.read (.expression place))
        <|> (do
          Reading.require !(← Reading.ahead g.object)
          g.block true)) := by
  funext cursor
  unfold Grammar.arrowBody
  rw [get_bind_apply, bind_apply, orElse_apply, orElse_apply,
    ahead_bind_apply, ahead_bind_apply, ahead_bind_apply]
  cases blockEq : g.block true cursor with
  | none =>
    rw [unlabelled_of_none blockEq, maybe_of_none blockEq]
    show g.read (.expression place) cursor =
      (g.read (.expression place) cursor <|> _)
    cases g.read (.expression place) cursor with
    | some result => rfl
    | none =>
      cases g.object cursor with
      | none => exact blockEq.symm
      | some object => rfl
  | some result =>
    obtain ⟨body, next⟩ := result
    rw [unlabelled_of_some blockEq, maybe_of_some blockEq]
    cases labelled : startsWithLabel body with
    | false =>
      simp only [Option.bind_some, labelled]
      rfl
    | true =>
      simp only [Option.bind_some, labelled]
      rw [if_pos trivial, get_bind_apply, set_bind_apply, ahead_bind_apply]
      cases g.object cursor with
      | none => exact blockEq.symm
      | some object =>
        show g.read (.expression place) cursor =
          (g.read (.expression place) cursor <|> none)
        cases g.read (.expression place) cursor <;> rfl

instance arrowBody (place : Place) : Regular (g.arrowBody place) := by
  rw [arrowBody_eq]
  infer_instance

instance arrowHead : Regular g.arrowHead := by
  unfold Grammar.arrowHead
  infer_instance

instance arrowFunction (place : Place) : Regular (g.arrowFunction place) := by
  unfold Grammar.arrowFunction
  infer_instance

instance parenthesized : Regular g.parenthesized := by
  unfold Grammar.parenthesized
  infer_instance

instance literalOrPattern
    (literal pattern : Reading Node)
    [literalRegular : Regular literal]
    [patternRegular : Regular pattern] :
    Regular (Grammar.literalOrPattern literal pattern) := by
  unfold Grammar.literalOrPattern
  infer_instance

instance metaProperty : Regular Grammar.metaProperty := by
  unfold Grammar.metaProperty
  infer_instance

instance wordExpression
    (place : Place)
    (word : String) :
    Regular (g.wordExpression place word) := by
  unfold Grammar.wordExpression
  split <;> infer_instance

instance atom (place : Place) : Regular (g.atom place) := by
  refine andThen fun word => ?_
  cases word with
  | some word => infer_instance
  | none => exact andThen fun text => by cases text.head? <;> infer_instance

instance memberSuffix
    (receiver : Node) :
    Regular (Grammar.memberSuffix receiver) := by
  unfold Grammar.memberSuffix
  infer_instance

instance indexSuffix (receiver : Node) : Regular (g.indexSuffix receiver) := by
  unfold Grammar.indexSuffix
  infer_instance

instance templateSuffix
    (callee : Node) :
    Regular (g.templateSuffix callee) := by
  unfold Grammar.templateSuffix
  infer_instance

instance callSuffix (callee : Node) : Regular (g.callSuffix callee) := by
  unfold Grammar.callSuffix
  infer_instance

instance instantiationSuffix
    (place : Place)
    (value : Node) :
    Regular (g.instantiationSuffix place value) := by
  unfold Grammar.instantiationSuffix
  infer_instance

instance updateSuffix
    (value : Node) :
    Regular (Grammar.updateSuffix value) := by
  unfold Grammar.updateSuffix
  infer_instance

instance nonNullSuffix
    (value : Node) :
    Regular (Grammar.nonNullSuffix value) := by
  unfold Grammar.nonNullSuffix
  infer_instance

instance suffix
    (place : Place)
    (value : Node) :
    Regular (g.suffix place value) := by
  unfold Grammar.suffix
  infer_instance

instance constructor_ (place : Place) : Regular (g.constructor_ place) := by
  unfold Grammar.constructor_
  infer_instance

instance newExpression
    (fuel : Nat)
    (place : Place) :
    Regular (g.newExpression fuel place) := by
  induction fuel with
  | zero => exact reject
  | succ fuel fuelHypothesis =>
    unfold Grammar.newExpression
    infer_instance

instance unary (place : Place) : Regular (g.unary place) := by
  unfold Grammar.unary
  infer_instance

instance updatePrefix (place : Place) : Regular (g.updatePrefix place) := by
  unfold Grammar.updatePrefix
  infer_instance

instance awaitExpression
    (place : Place) :
    Regular (g.awaitExpression place) := by
  unfold Grammar.awaitExpression
  infer_instance

instance yieldExpression
    (place : Place) :
    Regular (g.yieldExpression place) := by
  unfold Grammar.yieldExpression
  infer_instance

instance privateOperand : Regular Grammar.privateOperand := by
  unfold Grammar.privateOperand
  infer_instance

instance assigned
    (place : Place)
    (target : Node) :
    Regular (g.assigned place target) := by
  unfold Grammar.assigned
  infer_instance

instance operandRule (place : Place) : Regular (g.operandRule place) := by
  refine gap_get_bind (fun _ _ => rfl) fun cursor => ?_
  cases cursor.rest.head? with
  | none => infer_instance
  | some c =>
    simp only
    split
    · infer_instance
    · refine andThen fun word => ?_
      split
      all_goals try infer_instance
      exact get_bind (fun _ _ => rfl) fun _ => inferInstance

instance binaryOperator (place : Place) : Regular (g.binaryOperator place) := by
  refine andThen fun _ => andThen fun _ => andThen fun word => ?_
  dsimp only
  cases word with
  | some word =>
    refine andThen fun _ => andThen fun _ => ?_
    split <;> infer_instance
  | none =>
    refine get_bind (fun _ _ => rfl) fun _ => andThen fun _ =>
      andThen fun _ => ?_
    split <;> infer_instance

instance typeOperator (place : Place) : Regular (g.typeOperator place) := by
  unfold Grammar.typeOperator
  infer_instance

instance binaryStep
    (place : Place)
    (state : List Pending × Node) :
    Regular (g.binaryStep place state) := by
  unfold Grammar.binaryStep
  infer_instance

instance binaryExpression
    (place : Place) :
    Regular (g.binaryExpression place) := by
  unfold Grammar.binaryExpression
  infer_instance

instance ternaryMark : Regular g.ternaryMark := by
  refine andThen fun _ => of_ite ?_ inferInstance
  refine get_bind (fun _ _ => rfl) fun _ => ?_
  split <;> infer_instance

instance expressionRule (place : Place) : Regular (g.expressionRule place) :=
  andThen fun _ => andThen fun choice => by cases choice <;> infer_instance

end Regular
end Reading
end Syntax
end StoryMigration
