import StoryMigration.Proofs.NodeStart

/-!
# Expressions start at their first token

Every rule of the grammar that an expression can start with starts with a
token, or with a node that starts there.
-/

namespace StoryMigration
namespace Syntax
namespace Reading
namespace Begins

open Yields

variable (g : Grammar) {kind : Kind}

/-- A reading whose first node starts at the token it is read from. -/
abbrev Lists (reading : Reading (List Node)) : Prop :=
  Opens reading StartAt

theorem yields_pure
    {nodes : List Node}
    {offset : Nat}
    (starts : StartAt nodes offset) :
    Yields (Pure.pure nodes : Reading (List Node)) fun result _ =>
      StartAt result offset :=
  pure fun _ => starts

/-- Two readings and a node of what they and a first one have read. -/
theorem between
    {α β : Type}
    {first : Reading Node}
    {second : Node → Reading α}
    {third : Node → α → Reading β}
    {others : Node → α → β → List Node}
    (begins : Begins first) :
    Begins (first >>= fun node => second node >>= fun value =>
      third node value >>= fun last =>
        build kind (node :: others node value last)) :=
  begins.bind fun _ _ starts => bind fun _ => bind fun _ =>
    yields_build (startAt_cons starts)

/-! ## Literals -/

theorem stringLiteral : Begins stringLiteral :=
  Opens.orElse (between (mark _ _)) (between (mark _ _))

theorem template : Begins g.template := between (mark _ _)

theorem array : Begins g.array := between (sign _)

theorem object : Begins g.object := between (sign _)

theorem arrayPattern : Begins g.arrayPattern := between (sign _)

theorem objectPattern : Begins g.objectPattern := between (sign _)

theorem typeArguments : Begins g.typeArguments := between (sign _)

theorem typeParameters : Begins g.typeParameters := between (sign _)

theorem formalParameters : Begins g.formalParameters := between (sign _)

theorem decorator : Begins g.decorator :=
  (sign _).bind fun _ _ starts => bind fun _ =>
    yields_build (startAt_cons starts)

theorem block (operator : Bool) : Begins (g.block operator) :=
  (sign _).bind fun _ _ starts => bind fun _ => bind fun _ => bind fun _ =>
    yields_build (startAt_cons starts)

theorem element : Begins g.element := by
  unfold Grammar.element
  refine (mark _ _).bind fun _ _ starts => bind fun _ => bind fun closing => ?_
  cases closing with
  | some closing => exact bind fun _ => yields_build (startAt_cons starts)
  | none =>
    refine bind fun closing => bind_of (yields_build (startAt_cons starts))
      fun tag _ tagStarts => ?_
    iterate 5 refine bind fun _ => ?_
    exact yields_build (startAt_cons tagStarts)

/-! ## Functions and classes -/

theorem typedOption_bind
    {α : Type}
    {promise : α → Nat → Prop}
    {reading : Reading Node}
    {next : List Node → Reading α}
    (begins : Begins reading)
    (without : Opens (next []) promise)
    (yields : ∀ node offset, node.start = offset →
      Yields (next [node]) fun result _ => promise result offset) :
    Opens (g.typedOption reading >>= next) promise where
  keeps {cursor _ _} atToken read := by
    unfold Grammar.typedOption at read
    cases typed : g.typed with
    | false =>
      rw [typed, if_neg Bool.false_ne_true] at read
      exact without.keeps atToken read
    | true =>
      rw [typed, if_pos rfl, bind_apply, bind_apply] at read
      cases readNode : reading cursor with
      | none =>
        rw [maybe_of_none readNode] at read
        exact without.keeps atToken read
      | some result =>
        obtain ⟨node, middle⟩ := result
        rw [maybe_of_some readNode] at read
        exact (yields node _ (begins.keeps atToken readNode)).keeps read

theorem callSignature (place : Place) : Lists (g.callSignature place) := by
  unfold Grammar.callSignature
  refine typedOption_bind g (typeParameters g) ?_ ?_
  · refine (formalParameters g).bind fun _ _ starts => bind fun _ => ?_
    exact yields_pure (startAt_cons starts)
  · intro types offset starts
    iterate 2 refine bind fun _ => ?_
    exact yields_pure (startAt_cons starts)

theorem functionExpression : Begins g.functionExpression := by
  unfold Grammar.functionExpression
  refine (keyword _ _).maybe_bind ?_ fun async offset starts => ?_
  · refine (keyword _ _).bind fun _ _ starts => ?_
    iterate 4 refine bind fun _ => ?_
    exact yields_build (startAt_cons starts)
  · iterate 5 refine bind fun _ => ?_
    exact yields_build (startAt_cons starts)

theorem classFrom
    (needsName ends operator : Bool)
    {front : List Node}
    (isFirst : front = []) :
    Begins (g.classFrom kind needsName ends operator front) := by
  unfold Grammar.classFrom
  refine (keyword _ _).bind fun _ _ starts => ?_
  iterate 5 refine bind fun _ => ?_
  rw [isFirst]
  split
  · exact bind fun _ => yields_build (startAt_cons starts)
  · exact yields_build (startAt_cons starts)

theorem yields_classFrom
    (needsName ends operator : Bool)
    {front : List Node}
    {offset : Nat}
    (starts : StartAt front offset) :
    Yields (g.classFrom kind needsName ends operator front) fun node _ =>
      node.start = offset := by
  unfold Grammar.classFrom
  iterate 6 refine bind fun _ => ?_
  have all (back : List Node) : StartAt (front ++ back) offset :=
    starts.append back
  split
  · refine bind fun _ => yields_build ?_
    simp only [List.append_assoc]
    exact all _
  · refine yields_build ?_
    simp only [List.append_assoc]
    exact all _

theorem classExpression : Begins g.classExpression :=
  Opens.many_bind (decorator g) (classFrom g _ _ _ rfl)
    fun _ _ _ starts => yields_classFrom g _ _ _ (startAt_cons starts)

/-! ## Operands -/

theorem parenthesized : Begins g.parenthesized :=
  (sign _).bind fun _ _ starts => bind fun _ => bind fun _ => bind fun _ =>
    yields_build (startAt_cons starts)

theorem arrowHead : Lists g.arrowHead := by
  refine Opens.orElse ?_ ?_
  · refine (wordExcept _ _).bind fun _ _ starts => bind fun _ => ?_
    exact yields_pure (startAt_cons starts)
  · refine (callSignature g _).bind fun _ _ starts => bind fun _ => ?_
    exact yields_pure (starts.append _)

theorem arrowFunction (place : Place) : Begins (g.arrowFunction place) := by
  unfold Grammar.arrowFunction
  have marked : Begins (do
      let async ← Reading.keyword "async"
      g.goesOn place
      require (← ahead g.arrowHead)
      Pure.pure async) := by
    refine (keyword _ _).bind fun _ _ starts => ?_
    iterate 3 refine bind fun _ => ?_
    exact pure fun _ => starts
  refine marked.maybe_bind ?_ fun async offset starts => ?_
  · refine (arrowHead g).bind fun _ _ starts => ?_
    iterate 3 refine bind fun _ => ?_
    exact yields_build (starts.append _)
  · iterate 4 refine bind fun _ => ?_
    exact yields_build (startAt_cons starts)

theorem literalOrPattern
    {literal pattern : Reading Node}
    (literalBegins : Begins literal)
    (patternBegins : Begins pattern) :
    Begins (Grammar.literalOrPattern literal pattern) := by
  have checked
      {reading : Reading Node}
      (begins : Begins reading)
      (check : Bool → Bool) :
      Begins (reading >>= fun node => ahead (Reading.sign "=") >>= fun isAhead =>
        require (check isAhead) >>= fun _ => Pure.pure node) :=
    begins.bind fun _ _ starts => bind fun _ => bind fun _ => pure fun _ => starts
  exact (checked literalBegins _).orElse (checked patternBegins _)

theorem metaProperty : Begins Grammar.metaProperty :=
  ((keyword _ _).orElse (keyword _ _)).bind fun _ _ starts =>
    bind fun _ => bind fun _ => yields_build (startAt_cons starts)

theorem wordExpression
    (place : Place)
    (word : String) :
    Begins (g.wordExpression place word) := by
  unfold Grammar.wordExpression
  split
  · exact functionExpression g
  · exact classExpression g
  iterate 6 exact anyWord _
  · exact metaProperty
  · refine metaProperty.orElse ((anyWord _).bind fun _ _ starts => ?_)
    iterate 2 refine bind fun _ => ?_
    exact pure fun _ => starts
  · refine (arrowFunction g place).orElse (Opens.orElse ?_ (anyWord _))
    exact Opens.ahead_bind fun _ => Opens.require_bind (functionExpression g)
  · exact (arrowFunction g place).orElse (wordExcept _ _)

/-- A suffix leaves the start of an operand where it is. -/
theorem suffix
    (place : Place)
    (value : Node) :
    Yields (g.suffix place value) fun node _ => node.start = value.start := by
  have ofReceiver {kind : Kind} {role : Role} {others : List Node} :
      Yields (build kind (value.withRole role :: others)) fun node _ =>
        node.start = value.start :=
    yields_build (startAt_cons rfl)
  unfold Grammar.suffix
  refine bind fun _ => orElse ?_ (orElse ?_ (orElse ?_ (orElse ?_
    (orElse ?_ (bind fun _ => orElse ?_ ?_)))))
  · unfold Grammar.memberSuffix
    iterate 2 refine bind fun _ => ?_
    exact ofReceiver
  · unfold Grammar.indexSuffix
    iterate 4 refine bind fun _ => ?_
    exact yields_build (startAt_cons rfl)
  · unfold Grammar.templateSuffix
    iterate 2 refine bind fun _ => ?_
    exact ofReceiver
  · unfold Grammar.callSuffix
    iterate 3 refine bind fun _ => ?_
    exact yields_build (startAt_cons rfl)
  · unfold Grammar.updateSuffix
    exact bind fun _ => yields_build (startAt_cons rfl)
  · unfold Grammar.nonNullSuffix
    exact bind fun _ => yields_build (startAt_cons rfl)
  · unfold Grammar.instantiationSuffix
    iterate 4 refine bind fun _ => ?_
    exact yields_build (startAt_cons rfl)

/-- What every step keeps holds of all that a value grows to. -/
theorem yields_grow
    {α : Type}
    {step : α → Reading α}
    {holds : α → Prop}
    (steps : ∀ value, holds value →
      Yields (step value) fun next _ => holds next)
    {value : α}
    (first : holds value) :
    Yields (grow step value) fun last _ => holds last := by
  have upTo
      (count : Nat)
      {value : α}
      (first : holds value) :
      Yields (growUpTo step count value) fun last _ => holds last := by
    induction count generalizing value with
    | zero => exact pure fun _ => first
    | succ count countHypothesis =>
      refine orElse ?_ (pure fun _ => first)
      exact bind_of (steps value first) fun _ _ => countHypothesis
  exact get_bind fun _ => upTo _ first

theorem yields_suffixes
    (place : Place)
    (value : Node) :
    Yields (grow (g.suffix place) value) fun node _ =>
      node.start = value.start := by
  refine yields_grow (fun other starts => ?_) rfl
  rw [← starts]
  exact suffix g place other

theorem unary (place : Place) : Begins (g.unary place) := by
  refine Opens.bind ?_ fun _ _ starts => bind fun _ =>
    yields_build (startAt_cons starts)
  exact (sign _).orElse ((sign _).orElse ((sign _).orElse ((sign _).orElse
    (keywordOf _))))

theorem updatePrefix (place : Place) : Begins (g.updatePrefix place) :=
  ((sign _).orElse (sign _)).bind fun _ _ starts => bind fun _ =>
    yields_build (startAt_cons starts)

theorem awaitExpression (place : Place) : Begins (g.awaitExpression place) :=
  (keyword _ _).bind fun _ _ starts => bind fun _ =>
    yields_build (startAt_cons starts)

theorem yieldExpression (place : Place) : Begins (g.yieldExpression place) :=
  (keyword _ _).bind fun _ _ starts => bind fun _ =>
    yields_build (startAt_cons starts)

theorem newExpression
    (fuel : Nat)
    (place : Place) :
    Begins (g.newExpression fuel place) := by
  cases fuel with
  | zero => exact Opens.reject
  | succ fuel =>
    refine (keyword _ _).bind fun _ _ starts => ?_
    iterate 3 refine bind fun _ => ?_
    exact yields_build (startAt_cons starts)

theorem privateOperand : Begins Grammar.privateOperand :=
  privateName.bind fun _ _ starts => bind fun _ => bind fun _ =>
    pure fun _ => starts

theorem yields_assigned
    (place : Place)
    (target : Node) :
    Yields (g.assigned place target) fun node _ =>
      node.start = target.start := by
  unfold Grammar.assigned
  split
  · exact pure fun _ => rfl
  · refine orElse ?_ (orElse ?_ (pure fun _ => rfl))
    · iterate 2 refine bind fun _ => ?_
      exact yields_build (startAt_cons rfl)
    · iterate 3 refine bind fun _ => ?_
      exact yields_build (startAt_cons rfl)

/-- Where an expression starts of which some operands have been read. -/
def startOf (state : List Pending × Node) : Nat :=
  (state.1.getLast?.map (·.left.start)).getD state.2.start

theorem startOf_settle
    (strength : Nat)
    (pending : List Pending)
    (right : Node) :
    startOf (settle strength pending right) = startOf (pending, right) := by
  induction pending generalizing right with
  | nil => rfl
  | cons waiting pending pendingHypothesis =>
    rw [settle]
    split
    · rw [pendingHypothesis]
      cases pending <;> rfl
    · rfl

theorem startOf_cons
    (pending : List Pending)
    (waiting : Pending)
    (right : Node) :
    startOf (waiting :: pending, right) = startOf (pending, waiting.left) := by
  cases pending <;> rfl

/-- The start depends on the last operand only if nothing waits for it. -/
theorem startOf_congr
    (pending : List Pending)
    {right other : Node}
    (same : right.start = other.start) :
    startOf (pending, right) = startOf (pending, other) := by
  unfold startOf
  rw [same]

theorem start_settleAll
    (pending : List Pending)
    (right : Node) :
    (settleAll pending right).start = startOf (pending, right) := by
  induction pending generalizing right with
  | nil => rfl
  | cons waiting pending pendingHypothesis =>
    rw [settleAll, pendingHypothesis]
    cases pending <;> rfl

/-- The rules that an expression can start with start at its first token. -/
structure Values : Prop where
  expression : ∀ place, Begins (g.read (.expression place))
  operand : ∀ place, Begins (g.read (.operand place))
  element : Begins (g.read .element)

section Values

variable {g} (values : Values g)
include values

theorem atom (place : Place) : Begins (g.atom place) := by
  unfold Grammar.atom
  refine Opens.nextWord_bind fun word => ?_
  cases word with
  | some word => exact wordExpression g place word
  | none =>
    refine Opens.upcoming_bind fun text => ?_
    split
    · split
      · exact stringLiteral
      · split
        · exact template g
        · split
          · exact (arrowFunction g place).orElse (parenthesized g)
          · split
            · exact literalOrPattern (array g) (arrayPattern g)
            · split
              · exact literalOrPattern (object g) (objectPattern g)
              · split
                · exact regex
                · split
                  · exact classExpression g
                  · split
                    · refine Opens.orElse ?_ (Opens.orElse ?_ ?_)
                      · exact Opens.require_bind (arrowFunction g place)
                      · exact Opens.require_bind values.element
                      · refine Opens.require_bind ?_
                        refine (typeArguments g).bind fun _ _ starts => ?_
                        exact bind fun _ => yields_build (startAt_cons starts)
                    · exact number
    · exact Opens.reject

theorem operandRule (place : Place) : Begins (g.operandRule place) := by
  have operand
      {first : Reading Node}
      (begins : Begins first) :
      Begins (first >>= fun base =>
        if base.kind == .unary || base.kind == .await || base.kind == .yield
        then Pure.pure base >>= g.assigned place
        else grow (g.suffix place) base >>= g.assigned place) := by
    refine begins.bind fun base offset starts => ?_
    have whole
        {reading : Reading Node}
        (yields : Yields reading fun full _ => full.start = offset) :
        Yields (reading >>= g.assigned place) fun node _ =>
          node.start = offset :=
      bind_of yields fun full _ starts => by
        rw [← starts]
        exact yields_assigned g place full
    split
    · exact whole (pure fun _ => starts)
    · refine whole ?_
      rw [← starts]
      exact yields_suffixes g place base
  unfold Grammar.operandRule
  refine Opens.gap_bind (Opens.get_bind fun cursor => ?_)
  simp only
  split
  · split
    · exact operand ((unary g place).orElse (updatePrefix g place))
    · refine Opens.nextWord_bind fun word => ?_
      split
      iterate 3 exact operand (unary g place)
      · exact operand (awaitExpression g place)
      · exact operand (yieldExpression g place)
      · refine Opens.get_bind fun _ => operand ?_
        exact metaProperty.orElse ((newExpression g _ place).orElse
          (Opens.require_bind (anyWord _)))
      · exact operand (privateOperand.orElse (atom values place))
  · have nothing : Opens (reject : Reading Node) fun _ _ => False :=
      Opens.reject
    exact nothing.bind fun _ _ impossible => impossible.elim

theorem binaryExpression (place : Place) : Begins (g.binaryExpression place) := by
  unfold Grammar.binaryExpression
  refine (values.operand _).bind fun first offset starts => ?_
  have steps
      (state : List Pending × Node)
      (starts : startOf state = offset) :
      Yields (g.binaryStep place state) fun next _ => startOf next = offset := by
    unfold Grammar.binaryStep
    refine orElse ?_ (bind fun _ => ?_)
    · refine bind fun operator => bind fun right => pure fun _ => ?_
      rw [startOf_cons, ← starts]
      exact startOf_settle operator.2 state.1 state.2
    · refine bind fun operator => bind_of (yields_build (startAt_cons rfl))
        fun node _ nodeStarts => ?_
      refine bind_of (yields_suffixes g place node)
        fun full _ fullStarts => pure fun _ => ?_
      rw [← starts, startOf_congr _ (fullStarts.trans nodeStarts)]
      exact startOf_settle 7 state.1 state.2
  refine bind_of (yields_grow steps starts) fun state _ starts => ?_
  exact pure fun _ => (start_settleAll state.1 state.2).trans starts

theorem expressionRule (place : Place) : Begins (g.expressionRule place) := by
  unfold Grammar.expressionRule
  refine (binaryExpression values place).bind fun _ _ starts => bind fun choice => ?_
  cases choice with
  | none => exact pure fun _ => starts
  | some parts => exact yields_build (startAt_cons starts)

theorem commaExpression (place : Place) : Begins (g.commaExpression place) := by
  unfold Grammar.commaExpression
  refine (values.expression _).bind fun _ _ starts => bind fun rest => ?_
  cases rest with
  | nil => exact pure fun _ => starts
  | cons => exact yields_build (startAt_cons starts)

theorem expressionStatement : Begins g.expressionStatement :=
  (commaExpression values _).bind fun _ _ starts => bind fun _ =>
    yields_build (startAt_cons starts)

end Values

theorem values_toDepth
    (dialect : Dialect)
    (depth : Nat) :
    Values ⟨dialect, Grammar.toDepth dialect depth⟩ := by
  induction depth with
  | zero =>
    exact ⟨fun _ => Opens.reject, fun _ => Opens.reject, Opens.reject⟩
  | succ depth depthHypothesis =>
    exact ⟨expressionRule depthHypothesis, operandRule depthHypothesis,
      element _⟩

end Begins
end Reading
end Syntax
end StoryMigration
