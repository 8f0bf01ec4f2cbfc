import StoryMigration.Proofs.LaidReading
import StoryMigration.Syntax.Rule.Expression

/-!
# Literals, patterns and parameters are laid over the text

The rules of literals, bindings and parameters lay what they read, if the rules
that they call by their goals do.
-/

namespace StoryMigration
namespace Syntax

/-! ## The characters of templates -/

/-- The text of a template ends at a mark of its own. -/
theorem head?_templateRun (text : List Char) :
    (text.drop (templateRun text)).head? ≠ some '\n' := by
  fun_induction templateRun text with
  | case1 => simp
  | case2 c rest _ isEnd =>
    rw [List.drop_zero, List.head?_cons]
    rintro same
    cases same
    contradiction
  | case3 c rest _ noEnd restHypothesis => rwa [List.drop_succ_cons]
  | case4 => simp

namespace Reading
namespace LaysSome

open HasNodes

variable {text before : List Char} (g : Grammar)

/-! ## Goals -/

theorem whenTyped
    {α : Type}
    [HasNodes α]
    {closed closes : Bool}
    {given : List Node}
    {reading : Reading α}
    (lays : Lays text before closed given reading closes) :
    Lays text before closed given (g.whenTyped reading) closes :=
  .require lays

theorem typedOption
    {reading : Reading Node}
    (reads : LaysSome text before reading) :
    LaysAny text before (g.typedOption reading) := by
  intro closed
  unfold Grammar.typedOption
  split
  · exact reads.maybe.pass fun _ => .pure (by simp)
  · exact .pure (by simp)

theorem stays_stopsHere
    (place : Place)
    {cursor stop : Cursor}
    {value : Bool}
    (read : g.stopsHere place cursor = some (value, stop)) :
    stop = cursor := by
  unfold Grammar.stopsHere at read
  split at read
  · cases read
    rfl
  · cases read
    rfl

/-- A check of the place moves nothing. -/
theorem goesOn
    {α : Type}
    [HasNodes α]
    {place : Place}
    {closed closes : Bool}
    {given : List Node}
    {next : Unit → Reading α}
    (rest : Lays text before closed given (next ()) closes) :
    Lays text before closed given (g.goesOn place >>= next) closes := by
  unfold Grammar.goesOn
  rw [bind_assoc]
  exact .stay (stays_stopsHere g place) fun _ => .require rest

/-- The literal text of a template. -/
theorem templateText
    (text before : List Char) :
    Runs text before (do
      match templateRun (← MonadState.get).rest with
      | 0 => reject
      | length => Reading.take .stringFragment length) :=
  Runs.get fun cursor => by
    split
    · exact .reject
    · rename_i isSome
      have apart := head?_templateRun cursor.rest
      refine .take (Lexeme.take_ne_nil (Nat.pos_of_ne_zero isSome) ?_)
        (.of_head? apart) rfl
      intro isNil
      rw [isNil] at isSome
      exact isSome rfl

section Goals

variable {g} (goals : ∀ goal, LaysSome text before (g.read goal))
include goals

theorem inner : LaysSome text before g.inner := goals _

theorem commaExpression
    (place : Place) :
    LaysSome text before (g.commaExpression place) := by
  have more : LaysSome text before (do
      let comma ← Reading.sign ","
      let next ← g.read (.expression place)
      Pure.pure [comma, next]) :=
    (sign _ (by decide)).read fun _ => (goals _).read fun _ => .pure (by simp)
  refine (goals _).read fun _ => more.many.pass fun rest => ?_
  cases rest with
  | nil => exact .pure (by simp)
  | cons => exact .build (by simp) rfl

/-! ## Literals -/

theorem templateSubstitution : LaysSome text before g.templateSubstitution :=
  (immediately _ _ (by decide) (by decide)).read fun _ =>
    (commaExpression goals _).read fun _ =>
    (sign _ (by decide)).read fun _ => .build (by simp) rfl

theorem template : LaysSome text before g.template := by
  refine quote_bind '\x60' rfl fun _ opens => ?_
  have parts := (templateText text before).orElse
    (Runs.escape.orElse (templateSubstitution goals).toFalse)
  exact parts.many.ofFalse.andThen fun _ =>
    (immediately _ _ (by decide) (by decide)).read fun _ =>
      .gather (by simp) (.quoted_of_opens rfl opens)

theorem spread : LaysSome text before g.spread :=
  (sign _ (by decide)).read fun _ => (inner goals).read fun _ =>
    .build (by simp) rfl

theorem item : LaysSome text before g.item :=
  .orElse (spread goals) (inner goals)

theorem array : LaysSome text before g.array :=
  (sign _ (by decide)).read fun _ => (item goals).commaSlots.pass fun _ =>
    (sign _ (by decide)).read fun _ => .build (by simp) rfl

theorem computedName : LaysSome text before g.computedName :=
  (sign _ (by decide)).read fun _ => (inner goals).read fun _ =>
    (sign _ (by decide)).read fun _ => .build (by simp) rfl

theorem memberName : LaysSome text before g.memberName :=
  .orElse (anyWord _ (by decide)) (.orElse stringLiteral (.orElse number
    (.orElse privateName (computedName goals))))

omit goals in
theorem modifiers
    (words : List String)
    (closes : Bool) :
    LaysAny text before (g.modifiers words closes) := by
  refine many ((keywordOf _).read fun _ => ?_)
  split
  · exact .get_bind fun _ => .require (.ahead fun _ => .require (.pure (by simp)))
  · exact .ahead fun _ => .require (.pure (by simp))

/-! ## Bindings -/

omit goals in
theorem name
    (kind : Kind)
    (token : (form kind).isToken = true) :
    LaysSome text before (g.name kind) :=
  wordExcept _ _ token

omit goals in
theorem memberWord
    (kind : Kind)
    (token : (form kind).isToken = true) :
    LaysSome text before (g.memberWord kind) :=
  .orElse (name _ token) (keyword _ _ token)

theorem initializer (place : Place) :
    LaysSome text before (g.initializer place) :=
  (sign _ (by decide)).read fun _ => (goals _).read fun _ => .pure (by simp)

theorem bindingElement : LaysSome text before g.bindingElement := by
  refine (goals _).read fun _ => (sign _ (by decide)).maybe.pass fun equals => ?_
  cases equals with
  | none => exact .pure (by simp)
  | some equals => exact (inner goals).read fun _ => .build (by simp) rfl

theorem restPattern : LaysSome text before g.restPattern :=
  (sign _ (by decide)).read fun _ => (goals _).read fun _ => .build (by simp) rfl

theorem pairPattern : LaysSome text before g.pairPattern :=
  (memberName goals).read fun _ => (sign _ (by decide)).read fun _ =>
    (bindingElement goals).read fun _ => .build (by simp) rfl

theorem shorthandPattern : LaysSome text before g.shorthandPattern := by
  refine (memberWord _ (by decide)).read fun _ =>
    (sign _ (by decide)).maybe.pass fun equals => ?_
  cases equals with
  | none => exact .pure (by simp)
  | some equals => exact (inner goals).read fun _ => .build (by simp) rfl

theorem objectPattern : LaysSome text before g.objectPattern := by
  have member := (restPattern goals).orElse
    ((pairPattern goals).orElse (shorthandPattern goals))
  exact (sign _ (by decide)).read fun _ => (commaSlots member).pass fun _ =>
    (sign _ (by decide)).read fun _ => .build (by simp) rfl

theorem arrayPattern : LaysSome text before g.arrayPattern := by
  have element := (restPattern goals).orElse (bindingElement goals)
  exact (sign _ (by decide)).read fun _ => (commaSlots element).pass fun _ =>
    (sign _ (by decide)).read fun _ => .build (by simp) rfl

theorem placeSuffix
    (target : Node) :
    Lays text before true [target] (g.placeSuffix target) true :=
  .orElse
    ((sign _ (by decide)).read fun _ =>
      (privateName.orElse (anyWord _ (by decide))).read fun _ => .member _ _ _)
    ((sign _ (by decide)).read fun _ => (commaExpression goals _).read fun _ =>
      (sign _ (by decide)).read fun _ => .build (by simp) rfl)

theorem binding : LaysSome text before g.binding := by
  refine .orElse (objectPattern goals) (.orElse (arrayPattern goals)
    (.orElse ?_ ?_))
  · exact ((name _ (by decide)).orElse (keyword _ _ (by decide))).read fun _ =>
      .grow (placeSuffix goals) (by simp)
  · refine (keyword _ _ (by decide)).read fun this => ?_
    exact (placeSuffix goals this).bind rfl fun _ =>
      .grow (placeSuffix goals) (by simp)

theorem declared : LaysSome text before g.declared :=
  .orElse (objectPattern goals) (.orElse
    (arrayPattern goals) (nameIn _ _ (by decide)))

/-! ## Parameters -/

theorem typeAscription
    (place : Place) :
    LaysSome text before (g.typeAscription place) :=
  (sign _ (by decide)).read fun _ => (goals _).read fun _ => .build (by simp) rfl

theorem typePredicate
    (place : Place) :
    LaysSome text before (g.typePredicate place) :=
  ((keyword _ _ (by decide)).orElse (anyWord _ (by decide))).read fun _ =>
    (keyword _ _ (by decide)).read fun _ =>
    (goals _).read fun _ => .build (by simp) rfl

theorem assertion (place : Place) : LaysSome text before (g.assertion place) := by
  have subject := (typePredicate goals place).orElse
    ((keyword "this" .thisWord (by decide)).orElse (anyWord .identifier (by decide)))
  exact (keyword _ _ (by decide)).read fun _ => subject.read fun _ =>
    .build (by simp) rfl

theorem resultType (place : Place) : LaysSome text before (g.resultType place) :=
  .orElse (assertion goals _) (.orElse (typePredicate goals _) (goals _))

theorem resultAscription
    (place : Place) :
    LaysSome text before (g.resultAscription place) :=
  (sign _ (by decide)).read fun _ => (resultType goals _).read fun _ =>
    .build (by simp) rfl

theorem typeParameter : LaysSome text before g.typeParameter := by
  have const : LaysSome text before (do
      let const ← Reading.keyword "const"
      Reading.require (← Reading.ahead (Reading.anyWord .token))
      Pure.pure const) :=
    (keyword _ _ (by decide)).read fun _ => .ahead fun _ => .require (.pure (by simp))
  have bound : LaysSome text before (do
      let word ← Reading.keyword "extends" <|> Reading.sign ":"
      let type ← g.read (.type .typeInside true)
      Reading.build .typeNode [word, type]) :=
    ((keyword _ _ (by decide)).orElse (sign _ (by decide))).read fun _ =>
      (goals _).read fun _ => .build (by simp) rfl
  have default : LaysSome text before (do
      let equals ← Reading.sign "="
      let type ← g.read (.type .typeInside true)
      Reading.build .typeNode [equals, type]) :=
    (sign _ (by decide)).read fun _ => (goals _).read fun _ => .build (by simp) rfl
  exact const.maybe.pass fun _ => (anyWord _ (by decide)).read fun _ =>
    bound.maybe.pass fun _ => default.maybe.pass fun _ => .build (by simp) rfl

theorem typeParameters : LaysSome text before g.typeParameters :=
  (sign _ (by decide)).read fun _ =>
    (commaListOne (typeParameter goals)).read fun _ =>
    (mark _ _ (by decide) (by decide)).read fun _ => .build (by simp) rfl

theorem typeArguments : LaysSome text before g.typeArguments :=
  (sign _ (by decide)).read fun _ => (commaListOne (goals _)).read fun _ =>
    (mark _ _ (by decide) (by decide)).read fun _ => .build (by simp) rfl

omit goals in
theorem yields_typeArguments (g : Grammar) :
    Yields g.typeArguments fun node _ => node.role = none :=
  .bind fun _ => .bind fun _ => .bind fun _ => ⟨fun read => by cases read; rfl⟩

/-- Type arguments that may be missing, and what may rely on it that they have
no role. -/
theorem typesThen
    {α : Type}
    [HasNodes α]
    {closed closes : Bool}
    {given : List Node}
    {next : List Node → Reading α}
    (rest : ∀ types, (∀ type ∈ types, type.role = none) →
      Lays text before closed (given ++ types) (next types) closes) :
    Lays text before closed given (g.typedOption g.typeArguments >>= next)
      closes := by
  refine (typedOption g (typeArguments goals) closed).read_where
    ?_ fun types _ noRole => by simpa using rest types noRole
  unfold Grammar.typedOption
  split
  · refine .bind_of (yields_typeArguments g).maybe fun types _ noRole => ?_
    exact .pure fun _ type isType => noRole type (Option.mem_toList.1 isType)
  · exact .pure fun _ => by simp

theorem arguments : LaysSome text before g.arguments :=
  (sign _ (by decide)).read fun _ => (commaSlots (item goals)).pass fun _ =>
    (sign _ (by decide)).read fun _ => .build (by simp) rfl

omit goals in
/-- One more name behind a point. -/
theorem dotName
    (receiver : Node) :
    Lays text before true [receiver] (do
      let dot ← Reading.sign "."
      let property ← Reading.anyWord .propertyName
      Reading.build .memberExpression
        [receiver.withRole .receiver, dot, property.withRole .property]) true :=
  (sign _ (by decide)).read fun _ => (anyWord _ (by decide)).read fun _ =>
    .member _ _ _

omit goals in
theorem decoratorName : LaysSome text before Grammar.decoratorName :=
  (anyWord _ (by decide)).read fun _ => .grow dotName (by simp)

theorem decorator : LaysSome text before g.decorator := by
  have call (name : Node) : Lays text before true [name] (do
      let types ← g.typedOption g.typeArguments
      let arguments ← g.arguments
      Reading.build .callExpression
        (name.withRole .callee :: types ++ [arguments.withRole .arguments])) true :=
    typesThen goals fun _ noRole => (arguments goals).read fun _ =>
      .gather (by simp) (.callee _ _ noRole)
  refine (sign _ (by decide)).read fun _ => Lays.read (.orElse ?_ ?_) fun _ =>
    .build (by simp) rfl
  · exact (sign _ (by decide)).read fun _ => (commaExpression goals _).read fun _ =>
      (sign _ (by decide)).read fun _ => .build (by simp) rfl
  · exact decoratorName.read fun name =>
      (call name).maybe_bind (fun _ => .pure (by simp)) (.pure (by simp))

theorem typedParameter : LaysSome text before g.typedParameter := by
  have word : LaysSome text before (do
      let word ← Reading.keywordOf
        ["public", "private", "protected", "override", "readonly"]
      Reading.require (← Reading.ahead (discard (g.restPattern)
        <|> discard (g.read .binding) <|> discard (Reading.keyword "this")))
      Pure.pure word) :=
    (keywordOf _).read fun _ => .ahead fun _ => .require (.pure (by simp))
  have pattern := (restPattern goals).orElse
    ((goals .binding).orElse (keyword "this" .thisWord (by decide)))
  exact (decorator goals).many.pass fun _ => word.many.pass fun _ =>
    pattern.read fun _ => (sign _ (by decide)).maybe.pass fun _ =>
      (typeAscription goals _).maybe.pass fun _ =>
        (initializer goals _).maybe.pass fun _ =>
          .build (by simp) (by split <;> rfl)

theorem parameter : LaysSome text before g.parameter := by
  unfold Grammar.parameter
  split
  · exact typedParameter goals
  · exact .orElse (restPattern goals) (bindingElement goals)

theorem formalParameters : LaysSome text before g.formalParameters :=
  (sign _ (by decide)).read fun _ => (commaList (parameter goals)).pass fun _ =>
    (sign _ (by decide)).read fun _ => .build (by simp) rfl

omit goals in
/-- A signature has parameters. -/
theorem yields_callSignature
    (g : Grammar)
    (place : Place) :
    Yields (g.callSignature place) fun nodes _ => nodes ≠ [] := by
  unfold Grammar.callSignature
  iterate 3 refine .bind fun _ => ?_
  exact .pure fun _ => by simp

theorem callSignature
    (place : Place) :
    LaysSome text before (g.callSignature place) :=
  (typedOption g (typeParameters goals)).pass fun _ =>
    (formalParameters goals).read fun _ =>
      (typedOption g (resultAscription goals _)).pass fun _ => .pure (by simp)

end Goals

end LaysSome
end Reading
end Syntax
end StoryMigration
