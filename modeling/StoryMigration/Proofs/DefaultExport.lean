import StoryMigration.Proofs.ExpressionEnd
import StoryMigration.Proofs.StatementStart

/-!
# Default exports

A statement that starts with `export default` is read as an export statement
that holds the word `default`, or not at all: the word `export` can be a name,
but nothing that starts with a name goes on with the word `default`.
-/

namespace StoryMigration
namespace Syntax

open Reading

namespace Cursor

/-- Blanks in front of a token are passed over. -/
theorem skip_of_blanks
    {cursor : Cursor}
    {blanks rest : List Char}
    (html : Bool)
    (restEq : cursor.rest = blanks ++ rest)
    (isBlank : blanks.all Syntax.isBlank = true)
    (noBlank : rest.takeWhile Syntax.isBlank = [])
    (noComment : commentLength? rest = none)
    (noHtml : html = true → htmlCommentLength? rest = none) :
    cursor.skip html = cursor.advance blanks.length := by
  have blanksEq : cursor.rest.takeWhile Syntax.isBlank = blanks := by
    rw [restEq, List.takeWhile_append_of_pos (List.all_eq_true.1 isBlank),
      noBlank, List.append_nil]
  have skipped : cursor.skipBlanks = cursor.advance blanks.length := by
    rw [skipBlanks, blanksEq]
  have behind : (cursor.advance blanks.length).rest = rest := by
    show cursor.rest.drop _ = rest
    rw [restEq, List.drop_left]
  unfold Cursor.skip
  cases cursor.rest.length with
  | zero => exact skipped
  | succ count =>
    have onlyHtml :
        (if html then htmlCommentLength? rest else none) = none := by
      split
      · rename_i isHtml
        exact noHtml isHtml
      · rfl
    rw [skipUpTo, skipped]
    simp only [behind, noComment, onlyHtml]

end Cursor

namespace Reading

variable {α β : Type} {cursor stop : Cursor}

theorem StopsAt.get_bind
    {next : Cursor → Reading α}
    (stops : StopsAt (next cursor) cursor stop) :
    StopsAt (get >>= next) cursor stop := stops

theorem StopsAt.build
    (kind : Kind)
    (children : List Node) :
    StopsAt (build kind children) cursor cursor :=
  .of_eq rfl

theorem Faces.stopsAt_nextWord
    {word : String}
    {next : Option String → Reading α}
    (faces : Faces cursor word)
    (stops : StopsAt (next (some word)) cursor stop) :
    StopsAt (Reading.nextWord >>= next) cursor stop := by
  intro value last read
  rw [bind_apply, faces.nextWord] at read
  exact stops value last read

theorem Faces.refuses_nextWord
    {word : String}
    {next : Option String → Reading α}
    (faces : Faces cursor word)
    (refuses : Refuses (next (some word)) cursor) :
    Refuses (Reading.nextWord >>= next) cursor := by
  rw [Refuses, bind_apply, faces.nextWord]
  exact refuses

/-- The cursor behind a word. -/
def behindWord (cursor : Cursor) (word : String) : Cursor :=
  cursor.skip.advance word.toList.length

theorem Faces.anyWord_stopsAt
    {word : String}
    (faces : Faces cursor word)
    (kind : Kind) :
    StopsAt (Reading.anyWord kind) cursor (behindWord cursor word) :=
  .of_eq (faces.anyWord kind)

theorem Faces.keyword_stopsAt
    {word : String}
    (faces : Faces cursor word)
    (other : String)
    (kind : Kind) :
    StopsAt (keyword other kind) cursor (behindWord cursor word) :=
  faces.stopsAt_nextWord
    (.bind (.require _) fun _ => faces.anyWord_stopsAt kind)

theorem Faces.wordExcept_stopsAt
    {word : String}
    (faces : Faces cursor word)
    (excluded : List String)
    (kind : Kind) :
    StopsAt (wordExcept excluded kind) cursor (behindWord cursor word) := by
  refine faces.stopsAt_nextWord ?_
  simp only
  split
  · exact Refuses.stopsAt rfl
  · exact faces.anyWord_stopsAt kind

/-- Whatever is read at a cursor keeps a promise. -/
def GivesAt
    (reading : Reading α)
    (cursor : Cursor)
    (promise : α → Prop) : Prop :=
  ∀ value next, reading cursor = some (value, next) → promise value

namespace GivesAt

variable {promise : α → Prop}

theorem bind
    {middle : Cursor}
    {reading : Reading β}
    {next : β → Reading α}
    (stops : StopsAt reading cursor middle)
    (gives : ∀ value, GivesAt (next value) middle promise) :
    GivesAt (reading >>= next) cursor promise := by
  intro value last read
  rw [bind_apply] at read
  obtain ⟨⟨first, place⟩, readFirst, readNext⟩ :=
    Option.bind_eq_some_iff.1 read
  rw [stops first place readFirst] at readNext
  exact gives first value last readNext

theorem orElse
    {first second : Reading α}
    (firstGives : GivesAt first cursor promise)
    (secondGives : GivesAt second cursor promise) :
    GivesAt (first <|> second) cursor promise := by
  intro value next read
  rw [orElse_apply] at read
  cases readFirst : first cursor with
  | none =>
    rw [readFirst] at read
    exact secondGives value next read
  | some result =>
    rw [readFirst] at read
    cases read
    exact firstGives _ _ readFirst

end GivesAt

theorem Refuses.givesAt
    {promise : α → Prop}
    {reading : Reading α}
    (refuses : Refuses reading cursor) :
    GivesAt reading cursor promise := by
  intro value next read
  rw [refuses] at read
  contradiction

theorem Yields.givesAt
    {promise : α → Prop}
    {reading : Reading α}
    (yields : Yields reading fun value _ => promise value) :
    GivesAt reading cursor promise :=
  fun _ _ read => yields.keeps read

theorem Faces.givesAt_nextWord
    {promise : α → Prop}
    {word : String}
    {next : Option String → Reading α}
    (faces : Faces cursor word)
    (gives : GivesAt (next (some word)) cursor promise) :
    GivesAt (Reading.nextWord >>= next) cursor promise := by
  intro value last read
  rw [bind_apply, faces.nextWord] at read
  exact gives value last read

/-- What follows a reading may rely on what that one has given. -/
theorem GivesAt.bind_yields
    {first : β → Prop}
    {promise : α → Prop}
    {reading : Reading β}
    {next : β → Reading α}
    (gives : GivesAt reading cursor first)
    (yields : ∀ value, first value →
      Yields (next value) fun result _ => promise result) :
    GivesAt (reading >>= next) cursor promise := by
  intro value last read
  rw [bind_apply] at read
  obtain ⟨⟨result, place⟩, readFirst, readNext⟩ :=
    Option.bind_eq_some_iff.1 read
  exact (yields result (gives result place readFirst)).keeps readNext

theorem Refuses.ahead_bind
    {reading : Reading β}
    {next : Bool → Reading α}
    (refuses : Refuses reading cursor) :
    (ahead reading >>= next) cursor = next false cursor := by
  rw [ahead_bind_apply, refuses]
  rfl

/-- A word is read as a leaf of the kind that is asked for. -/
theorem Yields.anyWord (kind : Kind) :
    Yields (anyWord kind) fun word _ => word.kind = kind := by
  have taken (count : Nat) :
      Yields (take kind count) fun word _ => word.kind = kind :=
    ⟨fun read => by
      cases read
      rfl⟩
  refine Yields.bind fun _ => Yields.bind fun cursor => ?_
  split
  · exact taken _
  · exact Yields.reject

theorem Yields.keyword
    (text : String)
    (kind : Kind) :
    Yields (keyword text kind) fun word _ => word.kind = kind :=
  Yields.bind fun _ => Yields.bind fun _ => Yields.anyWord kind

theorem StopsAt.discard
    {reading : Reading α}
    (stops : StopsAt reading cursor stop) :
    StopsAt (discard reading) cursor stop := by
  intro value next read
  have mapped : ((fun _ => ()) <$> reading) cursor = some (value, next) := read
  rw [map_apply] at mapped
  obtain ⟨⟨result, place⟩, readFirst, same⟩ := Option.map_eq_some_iff.1 mapped
  cases same
  exact stops result place readFirst

theorem Refuses.discard
    {reading : Reading α}
    (refuses : Refuses reading cursor) :
    Refuses (discard reading) cursor :=
  refuses.map

end Reading

/-! ## The words `export` and `default` -/

/-- A token starts at the cursor, which is the word `export`; the word `default`
is the next one. -/
structure Cursor.AtDefaultExport (cursor : Cursor) : Prop where
  atToken : cursor.AtToken
  text : ∃ rest, cursor.rest = "export default ".toList ++ rest

namespace Cursor.AtDefaultExport

variable {cursor : Cursor} (at_ : cursor.AtDefaultExport)
include at_

theorem faces : Faces cursor "export" := by
  obtain ⟨rest, restEq⟩ := at_.text
  refine ⟨by decide, " default ".toList ++ rest, ?_, ?_⟩
  · rw [at_.atToken.skip, restEq]
    rfl
  · intro c isHead
    cases isHead
    exact ⟨rfl, by decide⟩

theorem rest_behind :
    ∃ rest, (behindWord cursor "export").rest =
      " ".toList ++ ("default ".toList ++ rest) := by
  obtain ⟨rest, restEq⟩ := at_.text
  refine ⟨rest, ?_⟩
  show cursor.skip.rest.drop 6 = _
  rw [at_.atToken.skip, restEq]
  rfl

theorem faces_behind : Faces (behindWord cursor "export") "default" := by
  obtain ⟨rest, restEq⟩ := at_.rest_behind
  have skipped := Cursor.skip_of_blanks false restEq (by decide) rfl rfl
    (by intro isHtml; contradiction)
  refine ⟨by decide, " ".toList ++ rest, ?_, ?_⟩
  · rw [skipped]
    show (behindWord cursor "export").rest.drop 1 = _
    rw [restEq]
    rfl
  · intro c isHead
    cases isHead
    exact ⟨rfl, by decide⟩

theorem endsExpression : EndsExpression (behindWord cursor "export") :=
  at_.faces_behind.endsExpression (by decide) (by decide)

/-- No statement ends between the two words. -/
theorem statementEnd?_eq_none
    (dialect : Dialect)
    (operator signature : Bool) :
    (behindWord cursor "export").statementEnd? dialect operator signature =
      none := by
  obtain ⟨rest, restEq⟩ := at_.rest_behind
  generalize behindWord cursor "export" = behind at restEq
  have goesOn : Terminator.ends dialect operator signature behind.rest =
      false := by
    rw [restEq]
    cases dialect <;> rfl
  have noComment : commentLength? behind.skipBlanks.rest = none := by
    show commentLength? (behind.rest.drop _) = none
    rw [restEq]
    rfl
  rw [Cursor.statementEnd?, Cursor.endUpTo, goesOn]
  simp only [noComment]
  rfl

/-! ## The word `export` as a value -/

theorem name_stopsAt
    (g : Grammar)
    (kind : Kind) :
    StopsAt (g.name kind) cursor (behindWord cursor "export") :=
  at_.faces.wordExcept_stopsAt _ kind

theorem arrowFunction_refuses
    (g : Grammar)
    (place : Place) :
    Refuses (g.arrowFunction place) cursor := by
  have noAsync : Refuses (keyword "async") cursor :=
    at_.faces.keyword_refuses _ (by decide)
  have noAngle : Refuses g.typeParameters cursor :=
    Refuses.bind (at_.faces.sign_refuses (by decide))
  have noParameters : Refuses g.formalParameters cursor :=
    Refuses.bind (at_.faces.sign_refuses (by decide))
  have noHead : Refuses g.arrowHead cursor := by
    refine .orElse ?_ ?_
    · refine (at_.name_stopsAt g _).bind_refuses fun _ => ?_
      exact Refuses.bind (at_.faces_behind.sign_refuses (by decide))
    · refine Refuses.bind ?_
      refine (EndsExpression.typedOption_stopsAt g noAngle).bind_refuses
        fun _ => ?_
      exact noParameters.bind
  unfold Grammar.arrowFunction
  rw [Refuses, (noAsync.bind).maybe_bind]
  exact noHead.bind

theorem atom_stopsAt
    (g : Grammar)
    (place : Place) :
    StopsAt (g.atom place) cursor (behindWord cursor "export") := by
  have isName : g.wordExpression place "export" =
      (g.arrowFunction place <|> g.name) := rfl
  unfold Grammar.atom
  refine at_.faces.stopsAt_nextWord ?_
  simp only
  rw [isName]
  exact (at_.arrowFunction_refuses g place).stopsAt.orElse
    (at_.name_stopsAt g _)

theorem operandRule_stopsAt
    (g : Grammar)
    (place : Place) :
    StopsAt (g.operandRule place) cursor (behindWord cursor "export") := by
  have isHead : cursor.rest.head? = some 'e' := by
    obtain ⟨rest, restEq⟩ := at_.text
    rw [restEq]
    rfl
  have noPrivate : Refuses privateName cursor := by
    obtain ⟨rest, restEq⟩ := at_.text
    rw [Refuses, privateName, gap_bind_apply, get_bind_apply,
      at_.atToken.skip, restEq]
    rfl
  have passed : gap true cursor = some ((), cursor) := by
    show some ((), cursor.skip true) = _
    rw [at_.atToken.skip]
  have base : StopsAt (Grammar.privateOperand <|> g.atom place) cursor
      (behindWord cursor "export") :=
    noPrivate.bind.stopsAt.orElse (at_.atom_stopsAt g place)
  unfold Grammar.operandRule
  refine .bind (.of_eq passed) fun _ => .get_bind ?_
  rw [isHead]
  simp only
  split
  · rename_i isOperator
    exact absurd isOperator (by decide)
  · refine at_.faces.stopsAt_nextWord (base.bind fun node => ?_)
    split
    · refine .bind (.of_eq rfl) fun full => ?_
      exact .of_eq (at_.endsExpression.assigned g place full)
    · have noSuffix := at_.endsExpression.suffix_refuses g place node
      refine .bind (.of_eq noSuffix.grow) fun full => ?_
      exact .of_eq (at_.endsExpression.assigned g place full)

theorem expression_stopsAt
    (dialect : Dialect)
    (depth : Nat)
    (place : Place) :
    StopsAt (Grammar.toDepth dialect depth (.expression place)) cursor
      (behindWord cursor "export") := by
  have operand
      (depth : Nat) :
      StopsAt (Grammar.toDepth dialect depth (.operand place)) cursor
        (behindWord cursor "export") := by
    cases depth with
    | zero => exact Refuses.stopsAt rfl
    | succ depth => exact at_.operandRule_stopsAt _ place
  cases depth with
  | zero => exact Refuses.stopsAt rfl
  | succ depth =>
    have noStep := at_.endsExpression.binaryStep_refuses
      ⟨dialect, Grammar.toDepth dialect depth⟩ place
    have noChoice := at_.endsExpression.ternaryMark_refuses
      ⟨dialect, Grammar.toDepth dialect depth⟩
    have binary : StopsAt (Grammar.binaryExpression
        ⟨dialect, Grammar.toDepth dialect depth⟩ place) cursor
          (behindWord cursor "export") :=
      .bind (operand depth) fun _ =>
        .bind (.of_eq (noStep _).grow) fun _ => .of_eq rfl
    refine .bind binary fun condition => ?_
    refine .bind (.of_eq (maybe_of_none noChoice.bind)) fun choice => ?_
    cases choice with
    | none => exact .of_eq rfl
    | some parts => exact .build _ _

theorem expressionStatement_refuses
    (dialect : Dialect)
    (depth : Nat) :
    Refuses (Grammar.expressionStatement
      ⟨dialect, Grammar.toDepth dialect depth⟩) cursor := by
  have noComma : Refuses (sign ",") (behindWord cursor "export") :=
    at_.faces_behind.sign_refuses (by decide)
  have noEnd : Refuses (semicolon dialect true)
      (behindWord cursor "export") := by
    rw [Refuses, semicolon, get_bind_apply,
      at_.statementEnd?_eq_none dialect true false]
    exact (at_.faces_behind.sign_refuses (by decide)).map
  have value : StopsAt (Grammar.commaExpression
      ⟨dialect, Grammar.toDepth dialect depth⟩ .tail) cursor
        (behindWord cursor "export") := by
    refine .bind (at_.expression_stopsAt dialect depth _) fun first => ?_
    refine .bind (.of_eq noComma.bind.many) fun rest => ?_
    cases rest with
    | nil => exact .of_eq rfl
    | cons => exact .build _ _
  exact value.bind_refuses fun _ => noEnd.bind

/-! ## The statement -/

theorem keyword_refuses_behind
    {word : String}
    (kind : Kind)
    (different : "default" ≠ word) :
    Refuses (keyword word kind) (behindWord cursor "export") :=
  at_.faces_behind.keyword_refuses kind different

theorem sign_refuses_behind
    {text : String}
    (nonempty : text.toList ≠ []) :
    Refuses (sign text) (behindWord cursor "export") :=
  at_.faces_behind.sign_refuses nonempty

theorem declarators_refuses
    (g : Grammar)
    (place : Place) :
    Refuses (g.declarators place) (behindWord cursor "export") := by
  refine .orElse ?_ (.orElse ?_ ?_)
  · exact Refuses.bind (at_.keyword_refuses_behind _ (by decide))
  · refine Refuses.bind (.orElse ?_ (Refuses.bind ?_))
    · exact at_.keyword_refuses_behind _ (by decide)
    · exact at_.keyword_refuses_behind _ (by decide)
  · refine (StopsAt.require _).bind_refuses fun _ => ?_
    have noAwait : Refuses (keyword "await") (behindWord cursor "export") :=
      at_.keyword_refuses_behind _ (by decide)
    rw [Refuses, noAwait.maybe_bind]
    exact Refuses.bind (at_.keyword_refuses_behind _ (by decide))

theorem functionDeclaration_refuses
    (g : Grammar)
    (operator : Bool) :
    Refuses (g.functionDeclaration operator) (behindWord cursor "export") := by
  have noAsync : Refuses (keyword "async") (behindWord cursor "export") :=
    at_.keyword_refuses_behind _ (by decide)
  unfold Grammar.functionDeclaration
  rw [Refuses, noAsync.bind.maybe_bind]
  exact Refuses.bind (at_.keyword_refuses_behind _ (by decide))

theorem classDeclaration_refuses
    (g : Grammar)
    (operator : Bool) :
    Refuses (g.classDeclaration operator) (behindWord cursor "export") := by
  have noDecorator : Refuses g.decorator (behindWord cursor "export") :=
    Refuses.bind (at_.sign_refuses_behind (by decide))
  unfold Grammar.classDeclaration
  rw [Refuses, noDecorator.many_bind]
  refine Refuses.orElse ?_ ?_
  · exact Refuses.bind (at_.keyword_refuses_behind _ (by decide))
  · exact Refuses.bind (at_.keyword_refuses_behind _ (by decide))

theorem declaration_refuses
    (g : Grammar)
    (operator : Bool) :
    Refuses (g.declaration operator) (behindWord cursor "export") := by
  refine .orElse ?_ (.orElse ?_ (.orElse ?_ (.orElse ?_ ?_)))
  · refine (StopsAt.require _).bind_refuses fun _ => ?_
    exact at_.faces_behind.refuses_nextWord rfl
  · exact (at_.declarators_refuses g _).bind
  · exact at_.functionDeclaration_refuses g _
  · exact at_.classDeclaration_refuses g _
  · refine (StopsAt.require _).bind_refuses fun _ => ?_
    exact Refuses.bind (at_.keyword_refuses_behind _ (by decide))

/-- What follows the word `export` holds the word `default`. -/
theorem exportTail_gives
    (g : Grammar) :
    GivesAt g.exportTail (behindWord cursor "export") fun nodes =>
      nodes.any (·.kind == .defaultToken) = true := by
  have holds
      {word : Node}
      (others : List Node)
      (isWord : word.kind = .defaultToken) :
      (word :: others).any (·.kind == .defaultToken) = true := by
    rw [List.any_cons, isWord]
    rfl
  refine .orElse ?_ (.orElse ?_ (.orElse ?_ (.orElse ?_ ?_)))
  · refine Yields.givesAt (Yields.bind_of (Yields.keyword _ _) ?_)
    intro word _ isWord
    refine .orElse (.bind fun _ => .pure fun _ => holds _ isWord) ?_
    exact .bind fun _ => .bind fun _ => .pure fun _ => holds _ isWord
  · exact (at_.sign_refuses_behind (by decide)).bind.givesAt
  · have noType : Refuses (keyword "type") (behindWord cursor "export") :=
      at_.keyword_refuses_behind _ (by decide)
    have noClause : Refuses g.exportClause (behindWord cursor "export") :=
      Refuses.bind (at_.sign_refuses_behind (by decide))
    refine Refuses.givesAt ?_
    exact (EndsExpression.typedOption_stopsAt g noType).bind_refuses fun _ =>
      noClause.bind
  · refine Refuses.givesAt ((StopsAt.require _).bind_refuses fun _ => ?_)
    refine .orElse ?_ ?_
    · exact Refuses.bind (at_.sign_refuses_behind (by decide))
    · exact Refuses.bind (at_.keyword_refuses_behind _ (by decide))
  · exact (at_.declaration_refuses g _).bind.givesAt

/-- The statement is an export that holds the word `default`. -/
theorem statementRule_gives
    (dialect : Dialect)
    (depth : Nat) :
    GivesAt (Grammar.statementRule ⟨dialect, Grammar.toDepth dialect depth⟩)
      cursor fun node => node.kind = .exportStatement ∧
        node.children.any (·.kind == .defaultToken) = true := by
  generalize gEq : (⟨dialect, Grammar.toDepth dialect depth⟩ : Grammar) = g
  have passed : gap true cursor = some ((), cursor) := by
    show some ((), cursor.skip true) = _
    rw [at_.atToken.skip]
  have noExpression : Refuses g.expressionStatement cursor := by
    rw [← gEq]
    exact at_.expressionStatement_refuses dialect depth
  have noLabel : Refuses (do
      discard (Reading.anyWord .token)
      discard (sign ":")) cursor := by
    refine StopsAt.bind_refuses (.discard (at_.faces.anyWord_stopsAt _))
      fun _ => ?_
    exact (at_.sign_refuses_behind (by decide)).discard
  have isExport : g.wordStatement "export" =
      ((do
        Reading.require !(← ahead do
          discard (Reading.keyword "export")
          Reading.require (← g.stopsHere .tail))
        (do
          let word ← Reading.keyword "export"
          let import_ ← g.whenTyped g.importAlias
          build .exportStatement [word, import_])
        <|> g.exportStatement)
      <|> g.expressionStatement) := rfl
  have noStop : Refuses (do
      discard (Reading.keyword "export")
      Reading.require (← g.stopsHere .tail)) cursor := by
    refine StopsAt.bind_refuses (.discard (at_.faces.keyword_stopsAt _ _))
      fun _ => ?_
    have isNone := at_.statementEnd?_eq_none g.dialect true false
    rw [Refuses, Grammar.stopsHere]
    simp only [Place.tail, if_true]
    rw [bind_apply, get_bind_apply, isNone]
    rfl
  have noAlias : Refuses (do
      let word ← Reading.keyword "export"
      let import_ ← g.whenTyped g.importAlias
      build .exportStatement [word, import_]) cursor := by
    refine (at_.faces.keyword_stopsAt _ _).bind_refuses fun _ => ?_
    refine Refuses.bind ((StopsAt.require _).bind_refuses fun _ => ?_)
    exact Refuses.bind (at_.keyword_refuses_behind _ (by decide))
  have exported : GivesAt g.exportStatement cursor fun node =>
      node.kind = .exportStatement ∧
        node.children.any (·.kind == .defaultToken) = true := by
    have noDecorator : Refuses g.decorator cursor :=
      Refuses.bind (at_.faces.sign_refuses (by decide))
    have behind : GivesAt (do
        let word ← Reading.keyword "export"
        let rest ← g.exportTail
        build .exportStatement ([] ++ [word] ++ rest)) cursor fun node =>
          node.kind = .exportStatement ∧
            node.children.any (·.kind == .defaultToken) = true := by
      refine .bind (at_.faces.keyword_stopsAt _ _) fun word => ?_
      refine (at_.exportTail_gives g).bind_yields fun rest isDefault => ⟨?_⟩
      intro _ _ _ read
      cases read
      refine ⟨rfl, ?_⟩
      show ([] ++ [word] ++ rest).any _ = true
      rw [List.any_append, isDefault, Bool.or_true]
    intro node next read
    rw [Grammar.exportStatement, noDecorator.many_bind] at read
    exact behind node next read
  refine .bind (.of_eq passed) fun _ => at_.faces.givesAt_nextWord ?_
  refine .orElse (Refuses.givesAt ?_) ?_
  · rw [Refuses, noLabel.ahead_bind]
    rfl
  · rw [isExport]
    refine .orElse ?_ noExpression.givesAt
    intro node next read
    rw [noStop.ahead_bind] at read
    exact noAlias.givesAt.orElse exported node next read

end Cursor.AtDefaultExport
end Syntax
end StoryMigration
