import StoryMigration.Proofs.LaidType
import StoryMigration.Proofs.RegularExpression

/-!
# Expressions are laid over the text

Operands, and the expressions put together from them, lay what they read.
Operands of binary operators wait until it is known what binds them; combining
them with their operators leaves the nodes where they lie.
-/

namespace StoryMigration
namespace Syntax

open HasNodes

/-! ## Operands that wait -/

/-- Operands that wait and their operators, from left to right. -/
def waitingNodes (pending : List Pending) : List Node :=
  pending.reverse.flatMap fun waiting => [waiting.left, waiting.operator]

instance : HasNodes (List Pending × Node) :=
  ⟨fun state => waitingNodes state.1 ++ [state.2]⟩

theorem nodes_state
    (pending : List Pending)
    (right : Node) :
    nodes (pending, right) = waitingNodes pending ++ [right] := rfl

@[simp] theorem nodes_state_nil (right : Node) :
    nodes (([] : List Pending), right) = [right] := rfl

@[simp] theorem nodes_state_cons
    (waiting : Pending)
    (pending : List Pending)
    (right : Node) :
    nodes (waiting :: pending, right) =
      nodes (pending, waiting.left) ++ [waiting.operator, right] := by
  simp [nodes_state, waitingNodes]

section Waiting

variable
  {text before : List Char}
  {closed : Bool}
  {outer others : List Node}
  {cursor : Cursor}

/-- The last operand, the operator before it and the operand before that are
combined. -/
theorem Laid.combine
    {waiting : Pending}
    {pending : List Pending}
    {right : Node}
    (laid : Laid text before closed
      (outer ++ nodes (waiting :: pending, right) ++ others) cursor) :
    Laid text before closed
      (outer ++ nodes (pending, Node.mk .binary none
        ⟨waiting.left.start, right.stop⟩
        [waiting.left, waiting.operator, right]) ++ others) cursor := by
  have listEq (last : Node) (more : List Node) :
      outer ++ (nodes (pending, last) ++ more) ++ others =
        (outer ++ waitingNodes pending) ++ ([last] ++ (more ++ others)) := by
    simp [nodes_state]
  rw [nodes_state_cons, listEq] at laid
  have joined := laid.join .binary rfl
  have same := listEq (Node.mk .binary none
    ⟨waiting.left.start, right.stop⟩ [waiting.left, waiting.operator, right]) []
  rw [List.append_nil, List.nil_append, List.singleton_append] at same
  rwa [same]

theorem Laid.settle
    {pending : List Pending}
    {right : Node}
    (strength : Nat)
    (laid : Laid text before closed
      (outer ++ nodes (pending, right) ++ others) cursor) :
    Laid text before closed
      (outer ++ nodes (settle strength pending right) ++ others) cursor := by
  induction pending generalizing right with
  | nil => exact laid
  | cons waiting pending pendingHypothesis =>
    rw [Syntax.settle]
    split
    · exact pendingHypothesis laid.combine
    · exact laid

theorem Laid.settleAll
    {pending : List Pending}
    {right : Node}
    (laid : Laid text before closed (outer ++ nodes (pending, right)) cursor) :
    Laid text before closed (outer ++ [settleAll pending right]) cursor := by
  induction pending generalizing right with
  | nil => exact laid
  | cons waiting pending pendingHypothesis =>
    rw [Syntax.settleAll]
    rw [← List.append_nil (outer ++ _)] at laid
    have combined := laid.combine
    rw [List.append_nil] at combined
    exact pendingHypothesis combined

end Waiting

namespace Reading
namespace LaysSome

variable {text before : List Char} (g : Grammar)

section Goals

variable {g} (goals : ∀ goal, LaysSome text before (g.read goal))
include goals

/-! ## Operands -/

theorem arrowBody (place : Place) : LaysSome text before (g.arrowBody place) := by
  rw [Regular.arrowBody_eq]
  refine .orElse ?_ (.orElse ?_ ?_)
  · exact (block goals _).read fun _ => .require (.pure (by simp))
  · exact .ahead fun _ => .ahead fun _ => .require (goals _)
  · exact .ahead fun _ => .require (block goals _)

theorem arrowHead : LaysSome text before g.arrowHead :=
  .orElse
    ((name _ (by decide)).read fun _ => (sign _ (by decide)).read fun _ =>
      .pure (by simp))
    ((callSignature goals _).read fun _ => (sign _ (by decide)).read fun _ =>
      .pure (by simp))

theorem arrowFunction
    (place : Place) :
    LaysSome text before (g.arrowFunction place) := by
  have async : LaysSome text before (do
      let async ← Reading.keyword "async"
      g.goesOn place
      Reading.require (← Reading.ahead g.arrowHead)
      Pure.pure async) :=
    (keyword _ _ (by decide)).read fun _ => goesOn g (.ahead fun _ =>
      .require (.pure (by simp)))
  exact async.maybe.pass fun _ => (arrowHead goals).read fun _ =>
    (arrowBody goals _).read fun _ => .ahead fun _ =>
      .require (.build (by simp) rfl)

theorem parenthesized : LaysSome text before g.parenthesized :=
  (sign _ (by decide)).read fun _ => (commaExpression goals _).read fun _ =>
    (typedOption g (typeAscription goals _)).pass fun _ =>
      (sign _ (by decide)).read fun _ =>
      .build (by simp) rfl

omit goals in
theorem literalOrPattern
    {literal pattern : Reading Node}
    (literalLays : LaysSome text before literal)
    (patternLays : LaysSome text before pattern) :
    LaysSome text before (Grammar.literalOrPattern literal pattern) :=
  .orElse
    (literalLays.read fun _ => .ahead fun _ => .require (.pure (by simp)))
    (patternLays.read fun _ => .ahead fun _ => .require (.pure (by simp)))

omit goals in
theorem metaProperty : LaysSome text before Grammar.metaProperty :=
  Lays.read ((keyword _ _ (by decide)).orElse (keyword _ _ (by decide))) fun _ =>
    (sign _ (by decide)).read fun _ =>
    Lays.read ((keyword _ _ (by decide)).orElse (keyword _ _ (by decide))) fun _ =>
      .build (by simp) rfl

theorem wordExpression
    (place : Place)
    (word : String) :
    LaysSome text before (g.wordExpression place word) := by
  unfold Grammar.wordExpression
  split
  · exact functionExpression goals
  · exact classExpression goals
  iterate 6 exact anyWord _ (by decide)
  · exact metaProperty
  · exact .orElse metaProperty ((anyWord _ (by decide)).read fun _ =>
      .ahead fun _ => .require (.pure (by simp)))
  · exact .orElse (arrowFunction goals _) (.orElse
      (.ahead fun _ => .require (functionExpression goals)) (anyWord _ (by decide)))
  · exact .orElse (arrowFunction goals _) (name _ (by decide))

theorem atom (place : Place) : LaysSome text before (g.atom place) := by
  refine .nextWord fun word => ?_
  cases word with
  | some word => exact wordExpression goals place word
  | none =>
    refine .upcoming fun text' => ?_
    split
    · split
      · exact stringLiteral
      · split
        · exact template goals
        · split
          · exact .orElse (arrowFunction goals _) (parenthesized goals)
          · split
            · exact literalOrPattern (array goals) (arrayPattern goals)
            · split
              · exact literalOrPattern (object goals) (objectPattern goals)
              · split
                · exact regex
                · split
                  · exact classExpression goals
                  · split
                    · refine .orElse ?_ (.orElse ?_ ?_)
                      · exact .require (arrowFunction goals _)
                      · exact .require (goals _)
                      · exact .require ((typeArguments goals).read fun _ =>
                          (goals _).read fun _ => .build (by simp) rfl)
                    · exact number
    · exact .reject

omit goals in
theorem memberSuffix
    (receiver : Node) :
    Lays text before true [receiver] (Grammar.memberSuffix receiver) true :=
  Lays.read ((sign _ (by decide)).orElse (sign _ (by decide))) fun _ =>
    Lays.read (privateName.orElse (anyWord _ (by decide))) fun _ => .member _ _ _

theorem indexSuffix
    (receiver : Node) :
    Lays text before true [receiver] (g.indexSuffix receiver) true :=
  (sign _ (by decide)).maybe.pass fun _ => (sign _ (by decide)).read fun _ =>
    (commaExpression goals _).read fun _ => (sign _ (by decide)).read fun _ =>
      .build (by simp) rfl

theorem templateSuffix
    (callee : Node) :
    Lays text before true [callee] (g.templateSuffix callee) true :=
  .require ((template goals).read fun _ =>
    .gather (by simp) (.called _ _))

theorem callSuffix
    (callee : Node) :
    Lays text before true [callee] (g.callSuffix callee) true :=
  ((sign _ (by decide)).maybe true).read_where (yields_sign _).maybe
    fun chain _ chainRole => typesThen goals fun types typesRole =>
    (arguments goals).read fun _ => .gather (by simp)
      (.callee _ _ fun other member => by
        rcases List.mem_append.1 member with isChain | isType
        · exact chainRole other (Option.mem_toList.1 isChain)
        · exact typesRole other isType)

theorem instantiationSuffix
    (place : Place)
    (value : Node) :
    Lays text before true [value] (g.instantiationSuffix place value) true :=
  (typeArguments goals).read fun _ => .stay (stays_stopsHere g place) fun _ =>
    .upcoming fun _ => .require (.build (by simp) rfl)

omit goals in
theorem updateSuffix
    (value : Node) :
    Lays text before true [value] (Grammar.updateSuffix value) true :=
  Lays.read ((sign _ (by decide)).orElse (sign _ (by decide))) fun _ =>
    .build (by simp) rfl

omit goals in
theorem nonNullSuffix
    (value : Node) :
    Lays text before true [value] (Grammar.nonNullSuffix value) true :=
  (sign _ (by decide)).read fun _ => .build (by simp) rfl

theorem suffix
    (place : Place)
    (value : Node) :
    Lays text before true [value] (g.suffix place value) true := by
  refine goesOn g (.orElse (memberSuffix _) (.orElse (indexSuffix goals _)
    (.orElse (templateSuffix goals _) (.orElse (callSuffix goals _)
      (.orElse (updateSuffix _) (whenTyped g ?_))))))
  exact .orElse (nonNullSuffix _) (instantiationSuffix goals _ _)

theorem constructor_
    (place : Place) :
    LaysSome text before (g.constructor_ place) := by
  refine (atom goals place).read fun base =>
    .grow (fun value => goesOn g ?_) (by simp)
  exact .orElse (memberSuffix _) (.orElse (indexSuffix goals _)
    (.orElse (templateSuffix goals _) (whenTyped g (nonNullSuffix _))))

theorem newExpression
    (fuel : Nat)
    (place : Place) :
    LaysSome text before (g.newExpression fuel place) := by
  induction fuel with
  | zero => exact .reject
  | succ fuel fuelHypothesis =>
    have given : LaysSome text before (do
        g.goesOn place
        g.arguments) :=
      goesOn g (arguments goals)
    refine (keyword _ _ (by decide)).read fun _ =>
      Lays.read (.orElse ?_ (constructor_ goals _))
      fun _ => (typedOption g (typeArguments goals)).pass fun _ =>
        given.maybe.pass fun _ => .build (by simp) rfl
    exact .ahead fun _ => .require fuelHypothesis

theorem unary (place : Place) : LaysSome text before (g.unary place) := by
  refine Lays.read ?_ fun _ => (goals _).read fun _ => .build (by simp) rfl
  exact (sign _ (by decide)).orElse ((sign _ (by decide)).orElse
    ((sign _ (by decide)).orElse ((sign _ (by decide)).orElse (keywordOf _))))

theorem updatePrefix
    (place : Place) :
    LaysSome text before (g.updatePrefix place) :=
  Lays.read ((sign _ (by decide)).orElse (sign _ (by decide))) fun _ =>
    (goals _).read fun _ => .build (by simp) rfl

theorem awaitExpression
    (place : Place) :
    LaysSome text before (g.awaitExpression place) :=
  (keyword _ _ (by decide)).read fun _ => (goals _).read fun _ => .build (by simp) rfl

theorem yieldExpression
    (place : Place) :
    LaysSome text before (g.yieldExpression place) := by
  have value : LaysSome text before (do
      g.goesOn place
      let star ← Reading.maybe (Reading.sign "*")
      let value ← g.read (.expression place)
      Pure.pure (star.toList ++ [value])) :=
    goesOn g <| (sign _ (by decide)).maybe.pass fun _ => (goals _).read fun _ =>
      .pure (by simp)
  exact (keyword _ _ (by decide)).read fun _ => value.maybe.pass fun _ =>
    .build (by simp) rfl

omit goals in
theorem privateOperand : LaysSome text before Grammar.privateOperand :=
  privateName.read fun _ => .ahead fun _ => .require (.pure (by simp))

theorem assigned
    (place : Place)
    (target : Node) :
    Lays text before true [target] (g.assigned place target) true := by
  unfold Grammar.assigned
  split
  · exact .pure (by simp)
  · refine .orElse ?_ (.orElse ?_ (.pure (by simp)))
    · exact (sign _ (by decide)).read fun _ => (goals _).read fun _ =>
        .build (by simp) rfl
    · exact .require ((signOf _ (by decide)).read fun _ => (goals _).read fun _ =>
        .build (by simp) rfl)

theorem operandRule (place : Place) : LaysSome text before (g.operandRule place) := by
  have operand
      {first : Reading Node}
      (lays : LaysSome text before first) :
      LaysSome text before (first >>= fun base =>
        if base.kind == .unary || base.kind == .await || base.kind == .yield
        then Pure.pure base >>= g.assigned place
        else Reading.grow (g.suffix place) base >>= g.assigned place) := by
    refine lays.read fun base => ?_
    split
    · exact .pure_bind (assigned goals place base)
    · exact Lays.bind (.grow (suffix goals place) (by simp)) rfl (assigned goals place)
  unfold Grammar.operandRule
  refine .gap (.get_bind fun cursor => ?_)
  simp only
  split
  · split
    · exact operand ((unary goals _).orElse (updatePrefix goals _))
    · refine .nextWord fun word => ?_
      split
      iterate 3 exact operand (unary goals _)
      · exact operand (awaitExpression goals _)
      · exact operand (yieldExpression goals _)
      · exact .get_bind fun _ => operand (metaProperty.orElse
          ((newExpression goals _ _).orElse (whenTyped g (anyWord _ (by decide)))))
      · exact operand (privateOperand.orElse (atom goals _))
  · exact .reject_bind

/-- An operator with a spelling. -/
def spelledOperator (place : Place) (spelling : String) : Reading (Node × Nat) := do
  Reading.require (place.allowsIn || spelling != "in")
  match bindingStrength spelling with
  | some strength => Pure.pure (← Reading.take .token spelling.length, strength)
  | none => reject

omit goals in
/-- The operator is a word or a mark. -/
theorem binaryOperator
    (place : Place) :
    LaysSome text before (g.binaryOperator place) := by
  refine goesOn g ⟨fun {outer cursor next value} laid read => ?_⟩
  rw [gap_bind_apply] at read
  rw [List.append_nil] at laid
  have laidHere := laid.skip false
  have skipped := cursor.skip_skip false
  generalize cursor.skip false = here at read laidHere skipped
  have taken
      {spelling : String}
      (spelt : here.rest.take spelling.length = spelling.toList)
      (solid : IsSolid spelling.toList)
      (readHere : spelledOperator place spelling here = some (value, next)) :
      Laid text before true (outer ++ nodes value) next := by
    obtain ⟨⟨_, middle⟩, required, matched⟩ :=
      Option.bind_eq_some_iff.1 readHere
    have stays : middle = here := by
      cases condition : (place.allowsIn || spelling != "in") with
      | false =>
        rw [condition] at required
        contradiction
      | true =>
        rw [condition] at required
        cases required
        rfl
    rw [stays] at matched
    cases strength : bindingStrength spelling with
    | none =>
      simp only [strength] at matched
      contradiction
    | some strong =>
      have filled : spelling.toList ≠ [] := fun isNil => by
        rw [String.toList_eq_nil_iff.1 isNil] at strength
        contradiction
      simp only [strength] at matched
      cases matched
      refine laidHere.take_closed .token ?_ fun _ => .plain rfl
      rw [spelt]
      exact solid.isClosed filled
  have word : Reading.nextWord here =
      some ((Lexeme.wordLength? here.rest).map fun length =>
        String.ofList (here.rest.take length), here) := by
    show some ((Lexeme.wordLength? (here.skip).rest).map _, here) = _
    rw [skipped]
  rw [bind_apply, word, Option.bind_some] at read
  cases isWord : Lexeme.wordLength? here.rest with
  | none =>
    rw [isWord] at read
    refine taken ?_ ?_ read
    · rw [String.length_ofList, Lexeme.take_markOf, String.toList_ofList]
    · rw [String.toList_ofList]
      exact Lexeme.isSolid_markOf _
  | some length =>
    rw [isWord] at read
    refine taken ?_ ?_ read
    · rw [String.length_ofList, List.length_take, ← List.take_take,
        List.take_length, String.toList_ofList]
    · rw [String.toList_ofList]
      exact (Lexeme.isSolid_wordLength isWord).2

omit goals in
/-- Operands may be combined before more is read. -/
theorem of_settle
    {α : Type}
    [HasNodes α]
    {closed closes : Bool}
    {state : List Pending × Node}
    {others : List Node}
    {reading : Reading α}
    (strength : Nat)
    (lays : Lays text before closed
      (nodes (settle strength state.1 state.2) ++ others) reading closes) :
    Lays text before closed (nodes state ++ others) reading closes where
  keeps laid read := by
    rw [← List.append_assoc] at laid
    have settled := laid.settle strength
    rw [List.append_assoc] at settled
    exact lays.keeps settled read

theorem typeOperator_bind
    {α : Type}
    [HasNodes α]
    {place : Place}
    {given : List Node}
    {next : Node × List Node → Reading α}
    (rest : ∀ word type, Lays text before true (given ++ [word, type])
      (next (word, [word, type])) true) :
    Lays text before true given (g.typeOperator place >>= next) true := by
  unfold Grammar.typeOperator
  simp only [bind_assoc, pure_bind]
  refine goesOn g (Lays.read ((keyword _ _ (by decide)).orElse
    (keyword _ _ (by decide))) fun word => ?_)
  refine Lays.read ((keyword _ _ (by decide)).orElse (goals _)) fun type => ?_
  exact (rest word type).ofShapes (by simp)

theorem binaryStep
    (place : Place)
    (state : List Pending × Node) :
    Lays text before true (nodes state) (g.binaryStep place state) true := by
  refine .orElse ?_ (whenTyped g ?_)
  · refine (binaryOperator place).read fun operator => ?_
    obtain ⟨operator, strength⟩ := operator
    refine of_settle strength ?_
    dsimp only
    generalize settle strength state.1 state.2 = settled
    obtain ⟨pending, left⟩ := settled
    exact (goals _).read fun right => .pure (by simp)
  · rw [← List.append_nil (nodes state)]
    refine of_settle 7 ?_
    generalize settle 7 state.1 state.2 = settled
    obtain ⟨pending, left⟩ := settled
    refine typeOperator_bind goals fun word type => ?_
    refine .build_bind (waitingNodes pending) (by simp [nodes_state]) rfl
      fun node => ?_
    exact Lays.bind (.grow (suffix goals place) (by simp)) rfl fun full =>
      .pure (by simp [nodes_state])

theorem binaryExpression
    (place : Place) :
    LaysSome text before (g.binaryExpression place) := by
  have grown (first : Node) : Lays text before true [first]
      (Reading.grow (g.binaryStep place) ([], first)) true :=
    .grow (binaryStep goals place) (by simp)
  refine (goals _).read fun first => (grown first).bind rfl fun state => ?_
  obtain ⟨pending, last⟩ := state
  exact ⟨fun laid read => by cases read; exact laid.settleAll⟩

omit goals in
theorem ternaryMark : LaysSome text before g.ternaryMark := by
  refine (sign _ (by decide)).read fun _ => ?_
  split
  · refine .get_bind fun _ => ?_
    split
    · exact .require (.pure (by simp))
    · exact .pure (by simp)
  · exact .pure (by simp)

theorem expressionRule
    (place : Place) :
    LaysSome text before (g.expressionRule place) := by
  have choice : LaysSome text before (do
      let question ← g.ternaryMark
      let yes ← g.read (.expression { betweenMarks := true })
      let colon ← Reading.sign ":"
      let no ← g.read (.expression place)
      Pure.pure [question, yes, colon, no]) :=
    ternaryMark.read fun _ => (goals _).read fun _ =>
      (sign _ (by decide)).read fun _ =>
      (goals _).read fun _ => .pure (by simp)
  refine (binaryExpression goals place).read fun _ =>
    choice.maybe.pass fun parts => ?_
  cases parts with
  | none => exact .pure (by simp)
  | some parts => exact .build (by simp) rfl

end Goals

end LaysSome
end Reading
end Syntax
end StoryMigration
