import StoryMigration.Proofs.LaidParameter

/-!
# Types and classes are laid over the text

Types, functions and classes lay what they read, if the rules that they call
by their goals do.
-/

namespace StoryMigration
namespace Syntax
namespace Reading
namespace LaysSome

open HasNodes

variable {text before : List Char} (g : Grammar)

section Goals

variable {g} (goals : ∀ goal, LaysSome text before (g.read goal))
include goals

/-! ## Types -/

omit goals in
theorem literalWord : LaysSome text before Grammar.literalWord :=
  .orElse (keyword _ _ (by decide)) (.orElse (keyword _ _ (by decide)) (.orElse
    (keyword _ _ (by decide))
    (.orElse (keyword _ _ (by decide)) (keyword _ _ (by decide)))))

theorem innerType : LaysSome text before g.innerType := goals _

theorem templateType : LaysSome text before g.templateType := by
  have inserted : LaysSome text before (do
      let opening ← Reading.immediately "$\x7b"
      let type ← g.innerType
      let closing ← Reading.sign "\x7d"
      Reading.build .typeNode [opening, type, closing]) :=
    (immediately _ _ (by decide) (by decide)).read fun _ =>
      (innerType goals).read fun _ =>
      (sign _ (by decide)).read fun _ => .build (by simp) rfl
  have parts := (templateText text before).orElse inserted.toFalse
  exact (mark _ _ (by decide) (by decide)).read fun _ =>
    parts.many.ofFalse.andThen fun _ =>
    (immediately _ _ (by decide) (by decide)).read fun _ => .build (by simp) rfl

/-- What is read last, perhaps with type arguments behind it. -/
theorem applied
    {kind : Kind}
    (name : Node)
    (plain : form kind = .plain) :
    Lays text before true [name] (do
      match ← Reading.maybe g.typeArguments with
      | some arguments => Reading.build kind [name, arguments]
      | none => Pure.pure name) true := by
  refine (typeArguments goals).maybe.pass fun arguments => ?_
  cases arguments with
  | none => exact .pure (by simp)
  | some arguments => exact .build (by simp) plain

theorem namedType : LaysSome text before g.namedType := by
  have step : LaysSome text before (do
      let dot ← Reading.sign "."
      let name ← Reading.anyWord .propertyName
      Pure.pure (dot, name)) :=
    (sign _ (by decide)).read fun _ => (anyWord _ (by decide)).read fun _ =>
      .pure (by simp)
  have yieldsStep : Yields (do
      let dot ← Reading.sign "."
      let name ← Reading.anyWord .propertyName
      Pure.pure (dot, name)) fun part _ => part.2.kind = .propertyName :=
    .bind fun _ => (yields_anyWord _).bind_of fun _ _ isProperty =>
      .pure fun _ => isProperty
  refine (anyWord _ (by decide)).ofFalse.read_where (yields_anyWord _)
    fun first _ isType => ?_
  refine (step.many true).read_where yieldsStep.many fun more _ areProperties => ?_
  split
  · rename_i isNil
    rw [List.reverse_eq_nil_iff.1 isNil]
    exact .pure_bind ((applied goals first rfl).ofShapes (by simp))
  · rename_i dot last earlier reversed
    rw [← List.reverse_reverse more, reversed]
    have lastProperty : last.kind = .propertyName := by
      refine areProperties (dot, last) (List.mem_reverse.1 ?_)
      rw [reversed]
      exact List.mem_cons_self
    have firstShape : (first.withKind .identifier).shape = first.shape :=
      shape_withKind (by rw [isType]; rfl)
    have lastShape : (last.withKind .typeIdentifier).shape = last.shape :=
      shape_withKind (by rw [lastProperty]; rfl)
    refine .build_bind [] ?_ rfl fun node => applied goals node rfl
    simp [nodes, firstShape, lastShape]

theorem queriedValue : LaysSome text before g.queriedValue := by
  have imported : LaysSome text before (do
      let callee ← Reading.keyword "import" .importWord
      let arguments ← g.arguments
      Reading.build .callExpression
        [callee.withRole .callee, arguments.withRole .arguments]) :=
    (keyword _ _ (by decide)).read fun _ => (arguments goals).read fun _ =>
      .gather (by simp) (.called _ _)
  have base := imported.orElse
    ((keyword "this" .thisWord (by decide)).orElse (anyWord .identifier (by decide)))
  refine base.read fun _ => Lays.bind
    (.grow (fun receiver => .orElse ?_ ?_) (by simp)) rfl
    fun node => applied goals node rfl
  · exact Lays.read ((sign _ (by decide)).orElse (sign _ (by decide))) fun _ =>
      Lays.read (privateName.orElse (anyWord _ (by decide))) fun _ => .member _ _ _
  · exact (sign _ (by decide)).read fun _ =>
      Lays.read (stringLiteral.orElse number) fun _ =>
      (sign _ (by decide)).read fun _ => .build (by simp) rfl

theorem importedType : LaysSome text before g.importedType := by
  refine (keyword _ _ (by decide)).read fun _ => (arguments goals).read fun _ => ?_
  refine .gather_bind [] (by simp) (.called _ _) fun call => ?_
  exact Lays.bind (.grow dotName (by simp)) rfl
    fun node => applied goals node rfl

theorem tupleMember : LaysSome text before g.tupleMember := by
  refine .orElse ?_ (.orElse ?_ ?_)
  · refine (sign _ (by decide)).maybe.pass fun dots =>
      (anyWord _ (by decide)).read fun _ => ?_
    have type := typeAscription goals .typeInside
    split
    · exact LaysAny.nothing.pass fun _ => type.read fun _ => .build (by simp) rfl
    · exact (sign _ (by decide)).maybe.pass fun _ => type.read fun _ =>
        .build (by simp) rfl
  · exact (sign _ (by decide)).read fun _ => (innerType goals).read fun _ =>
      .build (by simp) rfl
  · refine (innerType goals).read fun _ =>
      (sign _ (by decide)).maybe.pass fun optional => ?_
    cases optional with
    | none => exact .pure (by simp)
    | some optional => exact .build (by simp) rfl

theorem indexSignature
    (place : Place) :
    LaysSome text before (g.indexSignature place) := by
  have plus : LaysSome text before (Reading.mark "+" <|> Reading.mark "-") :=
    .orElse (mark _ _ (by decide) (by decide)) (mark _ _ (by decide) (by decide))
  have modifier : LaysSome text before (do
      let plus ← Reading.maybe (Reading.mark "+" <|> Reading.mark "-")
      let readonly ← Reading.keyword "readonly"
      Pure.pure (plus.toList ++ [readonly])) :=
    (maybe plus).pass fun _ => (keyword _ _ (by decide)).read fun _ => .pure (by simp)
  have optional : LaysSome text before (do
      let plus ← Reading.maybe (Reading.mark "+" <|> Reading.mark "-")
      let question ← Reading.sign "?"
      Pure.pure (plus.toList ++ [question])) :=
    (maybe plus).pass fun _ => (sign _ (by decide)).read fun _ => .pure (by simp)
  have renamed : LaysSome text before (do
      let word ← Reading.keyword "as"
      let type ← g.innerType
      Pure.pure [word, type]) :=
    (keyword _ _ (by decide)).read fun _ => (innerType goals).read fun _ =>
      .pure (by simp)
  refine modifier.maybe.pass fun _ => (sign _ (by decide)).read fun _ =>
    Lays.read (.orElse ?_ ?_) fun _ => (sign _ (by decide)).read fun _ =>
      optional.maybe.pass fun _ => (typeAscription goals _).read fun _ =>
        .build (by simp) rfl
  · exact (anyWord _ (by decide)).read fun _ => (sign _ (by decide)).read fun _ =>
      (innerType goals).read fun _ => .pure (by simp)
  · exact (anyWord _ (by decide)).read fun _ =>
      (keyword _ _ (by decide)).read fun _ =>
      (innerType goals).read fun _ => renamed.maybe.pass fun _ => .pure (by simp)

theorem typeMember (place : Place) : LaysSome text before (g.typeMember place) := by
  have signature := callSignature goals place
  refine .orElse (indexSignature goals place) (.orElse ?_ (.orElse ?_ ?_))
  · exact signature.read_where (yields_callSignature g place)
      fun _ _ nonempty => .build ⟨by simp, nonempty⟩ rfl
  · exact (keyword _ _ (by decide)).maybe.pass fun _ =>
      (keyword _ _ (by decide)).read fun _ =>
      signature.read fun _ => .build (by simp) rfl
  · refine (modifiers _ _).pass fun _ => (sign _ (by decide)).maybe.pass fun _ =>
      (memberName goals).read fun _ => (sign _ (by decide)).maybe.pass fun _ =>
        signature.maybe.pass fun signature => ?_
    cases signature with
    | some signature => exact .build (by simp) rfl
    | none =>
      exact (typeAscription goals _).maybe.pass fun _ => .build (by simp) rfl

theorem objectType : LaysSome text before g.objectType := by
  have separator : LaysAny text before
      (((fun node => [node]) <$> Reading.sign ",") <|>
        Reading.semicolon g.dialect false) :=
    fun closed => .orElse (.map ((sign _ (by decide)).toAny closed) (by simp))
      (LaysAny.semicolon _ _ _ closed)
  have member := typeMember goals .typeTail
  have further : LaysSome text before (do
      let between ← ((fun node => [node]) <$> Reading.sign ",") <|>
        Reading.semicolon g.dialect false
      let member ← g.typeMember .typeTail
      Pure.pure (between ++ [member])) :=
    separator.pass fun _ => member.read fun _ => .pure (by simp)
  refine (sign _ (by decide)).read fun _ =>
    (maybe ((sign _ (by decide)).orElse (sign _ (by decide)))).pass fun _ =>
    (maybe ?_).pass fun _ => (sign _ (by decide)).read fun _ => .build (by simp) rfl
  exact member.read fun _ => further.many.pass fun _ =>
    separator.maybe.pass fun _ => .pure (by simp)

theorem functionType
    (place : Place) :
    LaysSome text before (g.functionType place) :=
  (keyword _ _ (by decide)).maybe.pass fun _ =>
    (keyword _ _ (by decide)).maybe.pass fun _ => .require <|
    (typeParameters goals).maybe.pass fun _ =>
      (formalParameters goals).read fun _ =>
      (sign _ (by decide)).read fun _ => (resultType goals _).read fun _ =>
        .build (by simp) rfl

theorem wordType
    (word : String)
    (place : Place) :
    LaysSome text before (g.wordType word place) :=
  (keyword _ _ (by decide)).read fun _ => (goals _).read fun _ => .build (by simp) rfl

theorem typeAtom (place : Place) : LaysSome text before (g.typeAtom place) := by
  have bound : LaysSome text before (do
      let word ← Reading.keyword "extends"
      let type ← g.read (.type .typeInside false)
      Reading.require !(← Reading.ahead (Reading.sign "?"))
      Pure.pure [word, type]) :=
    (keyword _ _ (by decide)).read fun _ => (goals _).read fun _ =>
      .ahead fun _ => .require (.pure (by simp))
  refine .nextWord fun word => ?_
  cases word with
  | some word =>
    dsimp only
    split
    · exact wordType goals _ _
    · exact wordType goals _ _
    · exact (keyword _ _ (by decide)).read fun _ =>
        (keyword _ _ (by decide)).read fun _ =>
        .build (by simp) rfl
    · exact (keyword _ _ (by decide)).read fun _ =>
        (anyWord _ (by decide)).read fun _ =>
        bound.maybe.pass fun _ => .build (by simp) rfl
    · exact (keyword _ _ (by decide)).read fun _ => (queriedValue goals).read fun _ =>
        .build (by simp) rfl
    · exact importedType goals
    · exact functionType goals _
    · exact functionType goals _
    · exact .orElse (.retag (keywordOf _) (yields_keywordOf _) rfl)
        (.orElse literalWord (namedType goals))
  | none =>
    refine .orElse (functionType goals _) (.orElse ?_ (.orElse (objectType goals)
      (.orElse ?_ (.orElse stringLiteral (.orElse number (.orElse
        (templateType goals) (.orElse ?_ (.orElse (sign _ (by decide)) ?_))))))))
    · exact (sign _ (by decide)).read fun _ => (innerType goals).read fun _ =>
        (sign _ (by decide)).read fun _ => .build (by simp) rfl
    · exact (sign _ (by decide)).read fun _ =>
        (commaList (tupleMember goals)).pass fun _ =>
        (sign _ (by decide)).read fun _ => .build (by simp) rfl
    · exact Lays.read ((mark _ _ (by decide) (by decide)).orElse
        (mark _ _ (by decide) (by decide)))
        fun _ => number.read fun _ => .build (by simp) rfl
    · exact (sign _ (by decide)).read fun _ => (goals _).read fun _ =>
        .build (by simp) rfl

theorem typeSuffix
    (place : Place)
    (type : Node) :
    Lays text before true [type] (g.typeSuffix place type) true :=
  goesOn g <| (sign _ (by decide)).read fun _ =>
    (innerType goals).maybe.pass fun _ =>
    (sign _ (by decide)).read fun _ => .build (by simp) rfl

theorem typeOperand (place : Place) : LaysSome text before (g.typeOperand place) :=
  (typeAtom goals place).read fun _ => .grow (typeSuffix goals place) (by simp)

omit goals in
/-- A type and perhaps the choice that it is a condition of. -/
def typeBehind (g : Grammar) (place : Place) (choice : Bool) (plain : Node) :
    Reading Node :=
  if !choice then Pure.pure plain
  else do
    let rest ← Reading.maybe do
      g.goesOn place
      let word ← Reading.keyword "extends"
      let bound ← g.read (.type .typeInside false)
      let question ← Reading.sign "?"
      let yes ← g.innerType
      let colon ← Reading.sign ":"
      let no ← g.read (.type place true)
      Pure.pure [word, bound, question, yes, colon, no]
    match rest with
    | some parts => Reading.build .typeNode (plain :: parts)
    | none => Pure.pure plain

theorem typeRule
    (place : Place)
    (choice : Bool) :
    LaysSome text before (g.typeRule place choice) := by
  have operator : LaysSome text before (Reading.sign "|" <|> Reading.sign "&") :=
    .orElse (sign _ (by decide)) (sign _ (by decide))
  have further : LaysSome text before (do
      let operator ← Reading.sign "|" <|> Reading.sign "&"
      let next ← g.read (.typeOperand place)
      Pure.pure [operator, next]) :=
    operator.read fun _ => (goals _).read fun _ => .pure (by simp)
  have chosen : LaysSome text before (do
      g.goesOn place
      let word ← Reading.keyword "extends"
      let bound ← g.read (.type .typeInside false)
      let question ← Reading.sign "?"
      let yes ← g.innerType
      let colon ← Reading.sign ":"
      let no ← g.read (.type place true)
      Pure.pure [word, bound, question, yes, colon, no]) :=
    goesOn g <| (keyword _ _ (by decide)).read fun _ => (goals _).read fun _ =>
      (sign _ (by decide)).read fun _ => (innerType goals).read fun _ =>
        (sign _ (by decide)).read fun _ => (goals _).read fun _ => .pure (by simp)
  have whole (plain : Node) :
      Lays text before true [plain] (typeBehind g place choice plain) true := by
    unfold typeBehind
    split
    · exact .pure (by simp)
    · refine chosen.maybe.pass fun rest => ?_
      cases rest with
      | none => exact .pure (by simp)
      | some parts => exact .build (by simp) rfl
  refine (maybe operator).pass fun leading => (goals _).read fun first =>
    further.many.pass fun more => ?_
  dsimp only
  split
  · rename_i noLeading _
    cases leading with
    | some => contradiction
    | none => exact .pure_bind ((whole first).ofShapes (by simp))
  · exact .build_bind [] (by simp) rfl whole

/-! ## Functions and classes -/

theorem block (operator : Bool) : LaysSome text before (g.block operator) :=
  (sign _ (by decide)).read fun _ => (goals _).many.pass fun _ =>
    (sign _ (by decide)).read fun _ =>
    (LaysAny.softEnd _ _).pass fun _ => .build (by simp) rfl

theorem functionExpression : LaysSome text before g.functionExpression :=
  (keyword _ _ (by decide)).maybe.pass fun _ =>
    (keyword _ _ (by decide)).read fun _ =>
    (sign _ (by decide)).maybe.pass fun _ =>
      (nameIn _ _ (by decide)).maybe.pass fun _ =>
      (callSignature goals _).read fun _ => (block goals _).read fun _ =>
        .build (by simp) (by split <;> rfl)

theorem method
    (words : List String)
    (closes : Bool) :
    LaysSome text before (g.method words closes) :=
  (decorator goals).many.pass fun _ => (modifiers _ _).pass fun _ =>
    (sign _ (by decide)).maybe.pass fun _ => (memberName goals).read fun _ =>
      (typedOption g (sign _ (by decide))).pass fun _ =>
        (callSignature goals _).read fun _ =>
        (block goals _).read fun _ => .build (by simp) rfl

theorem pair : LaysSome text before g.pair :=
  (memberName goals).read fun _ => (sign _ (by decide)).read fun _ =>
    (inner goals).read fun _ =>
    .build (by simp) rfl

omit goals in
theorem shorthand (g : Grammar) : LaysSome text before g.shorthand :=
  memberWord _ (by decide)

theorem object : LaysSome text before g.object := by
  have member := (spread goals).orElse ((pair goals).orElse
    ((method goals g.objectModifiers false).orElse (shorthand g)))
  exact (sign _ (by decide)).read fun _ => (commaSlots member).pass fun _ =>
    (sign _ (by decide)).read fun _ => .build (by simp) rfl

theorem staticBlock : LaysSome text before g.staticBlock :=
  (keyword _ _ (by decide)).read fun _ => (block goals _).read fun _ =>
    .build (by simp) rfl

theorem plainField : LaysSome text before g.plainField :=
  (decorator goals).many.pass fun _ => (modifiers _ _).pass fun _ =>
    (memberName goals).read fun _ => (initializer goals _).maybe.pass fun _ =>
      (LaysAny.semicolon _ _ _).pass fun _ => .build (by simp) rfl

omit goals in
theorem memberEnd
    (operator signature : Bool) :
    LaysAny text before (g.memberEnd operator signature) :=
  fun closed => .orElse (.map ((sign _ (by decide)).toAny closed) (by simp))
    (LaysAny.semicolon _ _ _ closed)

theorem typedMember : LaysSome text before g.typedMember := by
  refine .orElse ?_ (.orElse ?_ ?_)
  · exact (keyword _ _ (by decide)).maybe.pass fun _ =>
      (indexSignature goals _).read fun _ =>
      (memberEnd _ _).pass fun _ => .build (by simp) rfl
  · exact (decorator goals).many.pass fun _ => (modifiers _ _).pass fun _ =>
      (sign _ (by decide)).maybe.pass fun _ => (memberName goals).read fun _ =>
        (sign _ (by decide)).maybe.pass fun _ =>
          (callSignature goals _).read fun _ =>
          (memberEnd _ _).pass fun _ => .build (by simp) rfl
  · refine (decorator goals).many.pass fun _ => (modifiers _ _).pass fun _ =>
      (memberName goals).read fun _ => (maybe ?_).pass fun _ =>
        (typeAscription goals _).maybe.pass fun _ =>
          (initializer goals _).maybe.pass fun _ =>
            (memberEnd _ _).pass fun _ => .build (by simp) rfl
    exact (sign _ (by decide)).orElse (sign _ (by decide))

theorem classMember : LaysSome text before g.classMember := by
  unfold Grammar.classMember
  refine .orElse (sign _ (by decide)) (.orElse (staticBlock goals) ?_)
  split
  · exact .orElse (method goals _ _) (typedMember goals)
  · exact .orElse (method goals _ _) (plainField goals)

theorem classBody : LaysSome text before g.classBody :=
  (sign _ (by decide)).read fun _ => (classMember goals).many.pass fun _ =>
    (sign _ (by decide)).read fun _ => .build (by simp) rfl

/-- A reading whose lists are never empty. -/
abbrev Filled (reading : Reading (List Node)) : Prop :=
  Yields reading fun value _ => value ≠ []

omit goals in
/-- What may be missing is some nodes if it is there. -/
theorem maybe_filled
    {α : Type}
    [HasNodes α]
    {closed closes : Bool}
    {reading : Reading (List Node)}
    {next : Option (List Node) → Reading α}
    (reads : LaysSome text before reading)
    (filled : Filled reading)
    (rest : ∀ value, value ≠ [] →
      Lays text before true value (next (some value)) closes)
    (without : Lays text before closed [] (next none) closes) :
    Lays text before closed [] (Reading.maybe reading >>= next) closes := by
  refine reads.ofFalse.maybe_bind_where filled (fun value _ nonempty => ?_) without
  exact (rest value nonempty).ofShapes (by simp)

theorem classHeritage : LaysSome text before g.classHeritage := by
  have filled {word : Node} {others : List Node} : word :: others ≠ [] :=
    List.cons_ne_nil _ _
  have applied : LaysSome text before (do
      let value ← g.inner
      let types ← Reading.maybe g.typeArguments
      Reading.build .classHeritage (value :: types.toList)) :=
    (inner goals).read fun _ => (typeArguments goals).maybe.pass fun _ =>
      .build (by simp) rfl
  unfold Grammar.classHeritage
  have interfaces : LaysSome text before (do
      let word ← Reading.keyword "implements"
      let types ← Reading.commaSeparated g.innerType
      Pure.pure (word :: types)) :=
    (keyword _ _ (by decide)).read fun _ =>
      (commaSeparated (innerType goals)).read fun _ =>
      .pure (by simp)
  refine maybe_filled ?_ ?_ (fun base nonempty => ?_) ?_
  · refine (keyword _ _ (by decide)).read fun _ => ?_
    split
    · exact (commaSeparated applied).read fun _ => .pure (by simp)
    · exact Lays.read (.map (inner goals) (by simp)) fun _ => .pure (by simp)
  · refine .bind fun _ => ?_
    split
    · exact .bind fun _ => .pure fun _ => filled
    · exact .bind fun _ => .pure fun _ => filled
  · split
    · exact interfaces.maybe.pass fun _ =>
        .require (.build (by simp [nonempty]) rfl)
    · exact LaysAny.nothing.pass fun _ =>
        .require (.build (by simp [nonempty]) rfl)
  · split
    · refine maybe_filled interfaces ?_ (fun value nonempty => ?_) ?_
      · exact .bind fun _ => .bind fun _ => .pure fun _ => filled
      · exact .require (.build (by simp [nonempty]) rfl)
      · exact .require_of fun impossible => by contradiction
    · exact .pure_bind (.require_of fun impossible => by contradiction)

theorem classFrom
    (kind : Kind)
    (needsName ends operator : Bool)
    {closed : Bool}
    (front : List Node)
    (plain : form kind = .plain) :
    Lays text before closed front
      (g.classFrom kind needsName ends operator front) true := by
  have name : LaysSome text before
      (if g.typed then Reading.wordExcept ["extends", "implements"] .typeIdentifier
        else Reading.nameIn g.dialect) := by
    split
    · exact wordExcept _ _ (by decide)
    · exact nameIn _ _ (by decide)
  refine (keyword _ _ (by decide)).read fun _ => name.maybe.pass fun _ => .require <|
    (typedOption g (typeParameters goals)).pass fun _ =>
      (classHeritage goals).maybe.pass fun _ => (classBody goals).read fun _ => ?_
  split
  · exact (LaysAny.softEnd _ _).pass fun _ => .build (by simp) plain
  · exact .build (by simp) plain

theorem classExpression : LaysSome text before g.classExpression :=
  (decorator goals).many.pass fun _ =>
    (classFrom goals _ _ _ _ _ rfl).ofShapes (by simp)

end Goals

end LaysSome
end Reading
end Syntax
end StoryMigration
