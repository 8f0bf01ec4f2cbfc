import StoryMigration.Proofs.SnippetStatements

/-!
# Reading an assignment to a member

A statement that starts with a free name and a point is an expression, whatever
else the name means to the grammar.  If a value is assigned to the member and a
semicolon follows, it is read up to there.
-/

namespace StoryMigration
namespace Syntax
namespace Reading

variable {text before middle after : List Char} {kind : Kind}

/-! ## Nodes of a known kind -/

/-- From one place of a text the reading reads a node of a kind to another
one. -/
def ReadsAs
    (text : List Char)
    (reading : Reading Node)
    (kind : Kind)
    (before after : List Char) : Prop :=
  ∀ cursor, cursor.At text before →
    ∃ node next, reading cursor = some (node, next) ∧ node.kind = kind ∧
      next.At text after

namespace ReadsAs

variable {reading : Reading Node}

theorem reads
    (readsAs : ReadsAs text reading kind before after) :
    Reads text reading before after := by
  intro cursor at_
  obtain ⟨node, next, read, -, nextAt⟩ := readsAs cursor at_
  exact ⟨node, next, read, nextAt⟩

/-- What is read is known from what the reading always gives. -/
theorem of_yields
    (reads : Reads text reading before after)
    (yields : Yields reading fun node _ => node.kind = kind) :
    ReadsAs text reading kind before after := by
  intro cursor at_
  obtain ⟨node, next, read, nextAt⟩ := reads cursor at_
  exact ⟨node, next, read, yields.keeps read, nextAt⟩

theorem build
    (children : List Node) :
    ReadsAs text (build kind children) kind before before :=
  fun cursor at_ => ⟨_, cursor, rfl, rfl, at_⟩

theorem behind
    {α : Type}
    {first : Reading α}
    {next : α → Reading Node}
    (reads : Reads text first before middle)
    (nextReads : ∀ value, ReadsAs text (next value) kind middle after) :
    ReadsAs text (first >>= next) kind before after := by
  intro cursor at_
  obtain ⟨value, place, read, placeAt⟩ := reads cursor at_
  obtain ⟨node, last, readNext, isKind, lastAt⟩ :=
    nextReads value place placeAt
  exact ⟨node, last, by rw [bind_apply, read]; exact readNext, isKind, lastAt⟩

/-- What follows the reading may rely on the kind. -/
theorem bind
    {α : Type}
    {next : Node → Reading α}
    (readsAs : ReadsAs text reading kind before middle)
    (nextReads : ∀ node, node.kind = kind →
      Reads text (next node) middle after) :
    Reads text (reading >>= next) before after := by
  intro cursor at_
  obtain ⟨node, place, read, isKind, placeAt⟩ := readsAs cursor at_
  obtain ⟨result, last, readNext, lastAt⟩ :=
    nextReads node isKind place placeAt
  exact ⟨result, last, by rw [bind_apply, read]; exact readNext, lastAt⟩

theorem orElse
    (readsAs : ReadsAs text reading kind before after)
    (second : Reading Node) :
    ReadsAs text (reading <|> second) kind before after := by
  intro cursor at_
  obtain ⟨node, place, read, known⟩ := readsAs cursor at_
  exact ⟨node, place, by rw [orElse_apply, read]; rfl, known⟩

theorem orElse_of_refused
    {first : Reading Node}
    (refused : RefusedAt first before)
    (readsAs : ReadsAs text reading kind before after) :
    ReadsAs text (first <|> reading) kind before after := by
  intro cursor at_
  obtain ⟨node, place, read, known⟩ := readsAs cursor at_
  refine ⟨node, place, ?_, known⟩
  rw [orElse_apply, refused cursor at_.rest, read]
  rfl

/-- A value grows once if nothing can be added to what it has grown into. -/
theorem grow_once
    {step : Node → Reading Node}
    {value : Node}
    (readsAs : ReadsAs text (step value) kind before after)
    (refused : ∀ next, RefusedAt (step next) after) :
    ReadsAs text (grow step value) kind before after := by
  intro cursor at_
  obtain ⟨node, place, read, isKind, placeAt⟩ := readsAs cursor at_
  have stops : growUpTo step cursor.rest.length node place =
      some (node, place) := by
    cases cursor.rest.length with
    | zero => rfl
    | succ count =>
      rw [growUpTo, orElse_apply, (refused node place placeAt.rest).bind]
      rfl
  refine ⟨node, place, ?_, isKind, placeAt⟩
  show growUpTo step (cursor.rest.length + 1) value cursor = _
  rw [growUpTo, orElse_apply, bind_apply, read, Option.bind_some, stops]
  rfl

end ReadsAs

theorem Meets.nextWord_bind_as
    {word : String}
    {next : Option String → Reading Node}
    (meets : Meets before word)
    (nextReads : ReadsAs text (next (some word)) kind before after) :
    ReadsAs text (nextWord >>= next) kind before after := by
  intro cursor at_
  obtain ⟨node, last, read, known⟩ := nextReads cursor at_
  refine ⟨node, last, ?_, known⟩
  rw [bind_apply, (meets cursor at_.rest).nextWord]
  exact read

theorem Meets.anyWord_as
    {word : String}
    (meets : Meets before word)
    (passes : Passes false before (word.toList ++ after))
    (kind : Kind) :
    ReadsAs text (Reading.anyWord kind) kind before after :=
  .of_yields (meets.anyWord passes kind) (Yields.anyWord kind)

theorem Meets.privateName_refused
    {word : String}
    (meets : Meets before word) :
    RefusedAt privateName before := by
  intro cursor restEq
  obtain ⟨isWord, rest, skipEq, -⟩ := meets cursor restEq
  rw [Refuses, privateName, gap_bind_apply, get_bind_apply, skipEq]
  generalize skippedEq : word.toList ++ rest = skipped
  split
  · have same := skippedEq
    cases listEq : word.toList with
    | nil => exact absurd listEq isWord.nonempty
    | cons c list =>
      have unbroken := isWord.unbroken c (by rw [listEq]; exact List.mem_cons_self)
      rw [listEq, List.cons_append, List.cons.injEq] at same
      rw [same.1] at unbroken
      exact absurd unbroken (by decide)
  · rfl

/-! ## A name and a point -/

section Name

variable {name : String} {g : Grammar} {rest : List Char}

/-- A free name and what stands behind it: a point and a word, perhaps with
more. -/
structure IsOwner (name : String) (rest : List Char) : Prop where
  free : IsFreeName name
  member : ∃ c more, rest = '.' :: c :: more ∧ Lexeme.isBreak c = false ∧
    c.isDigit = false

theorem markOf_point
    {c : Char}
    (unbroken : Lexeme.isBreak c = false)
    (more : List Char) :
    Lexeme.markOf ('.' :: c :: more) = ['.'] := by
  have noLong : Lexeme.longMarks.find?
      (fun long => (after? long ('.' :: c :: more)).isSome) = none := by
    rw [List.find?_eq_none]
    intro long isLong found
    obtain ⟨behind, isBehind⟩ := Option.isSome_iff_exists.1 found
    have isHead := Lexeme.head?_of_after? (Lexeme.longMarks_nonempty long isLong)
      isBehind
    have dots : ∀ long ∈ Lexeme.longMarks, some '.' = long.head? →
        long = ['.', '.', '.'] := by
      decide
    rw [dots long isLong isHead] at isBehind
    have second : after? ['.', '.'] (c :: more) = some behind := isBehind
    have same := Lexeme.head?_of_after? (by decide) second
    rw [List.head?_cons, List.head?_cons, Option.some.injEq] at same
    rw [same] at unbroken
    exact absurd unbroken (by decide)
  unfold Lexeme.markOf
  rw [noLong]
  rfl

namespace IsOwner

variable (owner : IsOwner name rest)
include owner

theorem breaks : Lexeme.BreaksWord rest := by
  obtain ⟨c, more, rfl, -⟩ := owner.member
  intro d isHead
  cases isHead
  decide

theorem markOf : Lexeme.markOf rest = ".".toList := by
  obtain ⟨c, more, rfl, unbroken, -⟩ := owner.member
  exact markOf_point unbroken more

theorem passesPoint (html : Bool) : Passes html rest rest := by
  obtain ⟨c, more, rfl, -⟩ := owner.member
  have noBlanks : ([] : List Char).all isBlank = true := rfl
  exact passes_of_blanks html noBlanks rfl

theorem point : MeetsMark rest "." := by
  have isMark := owner.markOf
  have passes := owner.passesPoint false
  obtain ⟨c, more, rfl, -⟩ := owner.member
  exact .of_passes passes isMark (by decide)

theorem goesOn (dialect : Dialect) : GoesOnAt dialect rest := by
  obtain ⟨c, more, rfl, -⟩ := owner.member
  exact goesOnAt_of_ends (fun operator => by cases dialect <;> rfl) rfl

theorem meets : Meets (name.toList ++ rest) name :=
  meets_wordHead owner.free.isWord owner.breaks

theorem passes (html : Bool) :
    Passes html (name.toList ++ rest) (name.toList ++ rest) :=
  passes_wordHead html owner.free.isWord

/-- What is refused at the point is refused behind the name. -/
theorem word_bind_refused
    {α : Type}
    {other : String}
    {next : Node → Reading α}
    (refused : ∀ node, RefusedAt (next node) rest) :
    RefusedAt (keyword other kind >>= next) (name.toList ++ rest) :=
  owner.meets.keyword_bind_refused (owner.passes false) refused

theorem sign_refused
    {mark : String}
    (nonempty : mark.toList ≠ []) :
    RefusedAt (sign mark) (name.toList ++ rest) :=
  owner.meets.sign_refused nonempty

end IsOwner

/-- No parameters start where something else than a parenthesis or an angle
bracket stands. -/
theorem callSignature_refused
    {place : Place}
    (noAngle : RefusedAt (sign "<") before)
    (noParenthesis : RefusedAt (sign "(") before) :
    RefusedAt (g.callSignature place) before :=
  .typedOption_bind g (noAngle.bind _) fun _ =>
    RefusedAt.bind (RefusedAt.bind noParenthesis _) _

theorem arrowHead_refused_at_point
    (point : MeetsMark rest ".") :
    RefusedAt g.arrowHead rest :=
  .orElse (point.wordExcept_refused.bind _)
    ((callSignature_refused (point.sign_refused (by decide))
      (point.sign_refused (by decide))).bind _)

/-- A name in front of a point is no arrow function's parameter. -/
theorem IsOwner.arrowFunction_refused
    (owner : IsOwner name rest)
    (place : Place) :
    RefusedAt (g.arrowFunction place) (name.toList ++ rest) := by
  have noHead : RefusedAt g.arrowHead (name.toList ++ rest) := by
    refine .orElse ?_ ((callSignature_refused (owner.sign_refused (by decide))
      (owner.sign_refused (by decide))).bind _)
    refine .behind (fun cursor restEq => ⟨_,
      (owner.meets cursor restEq).wordExcept_stopsAt _ _,
      Meets.rest_behindWord (owner.passes false) restEq⟩) fun _ => ?_
    exact (owner.point.sign_refused (by decide)).bind _
  have noAsync : RefusedAt (do
      let async ← keyword "async"
      g.goesOn place
      require (← ahead g.arrowHead)
      pure async) (name.toList ++ rest) := by
    refine owner.word_bind_refused fun _ => ?_
    refine .staying (fun _ => EndsExpression.goesOn_stopsAt g place) fun _ => ?_
    exact .requireAhead_bind (arrowHead_refused_at_point owner.point)
  exact noAsync.maybe_bind (noHead.bind _)

variable (owner : IsOwner name rest)
include owner

/-- A free name is a name where an expression could stand. -/
theorem IsOwner.notNames
    (g : Grammar) :
    g.notNames.contains name = false := by
  have subset : ∀ word ∈ g.notNames, word ∈ StoryName.reservedWords := by
    unfold Grammar.notNames
    split <;> decide
  rw [Bool.eq_false_iff, ne_eq, List.contains_iff_mem]
  exact fun member => owner.free.unreserved (subset name member)

theorem IsOwner.reads_name :
    ReadsAs text g.name .identifier (name.toList ++ rest) rest := by
  refine owner.meets.nextWord_bind_as ?_
  simp only [owner.notNames g, Bool.false_eq_true, if_false]
  exact owner.meets.anyWord_as (owner.passes false) .identifier

/-- A free name in front of a point is read as a name. -/
theorem IsOwner.reads_atom
    (place : Place) :
    ReadsAs text (g.atom place) .identifier (name.toList ++ rest) rest := by
  have noArrow : RefusedAt (g.arrowFunction place) (name.toList ++ rest) :=
    owner.arrowFunction_refused place
  refine owner.meets.nextWord_bind_as ?_
  show ReadsAs text (g.wordExpression place name) .identifier _ rest
  unfold Grammar.wordExpression
  split
  case h_11 =>
    have noFunction : RefusedAt g.functionExpression ("async".toList ++ rest) :=
      owner.meets.maybe_keyword_bind_refused (owner.passes false) fun _ =>
        owner.point.keyword_refused.bind _
    refine .orElse_of_refused noArrow (.orElse_of_refused ?_ ?_)
    · refine .staying (fun cursor => ?_) fun _ => .require_bind noFunction
      exact .of_eq rfl
    · exact owner.meets.anyWord_as (owner.passes false) .identifier
  case h_12 =>
    exact .orElse_of_refused noArrow owner.reads_name
  all_goals exact absurd (by decide) owner.free.unreserved

end Name

/-! ## A value for a member -/

theorem suffix_refused_of_mark
    {mark : String}
    (meets : MeetsMark before mark)
    (other : mark ∉ [".", "?.", "[", "<", "(", "++", "--", "!"])
    (noBacktick : mark.toList.head? ≠ some '\x60')
    (g : Grammar)
    (place : Place)
    (value : Node) :
    RefusedAt (g.suffix place value) before := by
  intro cursor restEq
  refine EndsExpression.suffix_refuses_of_signs g place value
    (fun start isStart => ?_) ?_
  · refine meets.sign_refused ?_ cursor restEq
    rintro rfl
    exact other isStart
  · obtain ⟨c, rest, skipEq, isHead, -⟩ := meets.exists_first restEq
    rw [skipEq, List.head?_cons, ← isHead]
    exact noBacktick

section Assignment

variable {name property : String} {named equals valued : List Char}
  {g : Grammar}
  (owner : IsOwner name ('.' :: named))
  (propertyMeets : Meets named property)
  (propertyPasses : Passes false named (property.toList ++ equals))
  (equalsMeets : MeetsMark equals "=")
include owner propertyMeets propertyPasses equalsMeets

/-- Behind a name, a point and a property are read as its member. -/
theorem reads_member
    (base : Node) :
    ReadsAs text (grow (g.suffix .tail) base) .memberExpression ('.' :: named)
      equals := by
  have pointReads : Reads text (sign ".") ('.' :: named) named :=
    .sign (owner.passesPoint false) owner.markOf
  have noSuffix := suffix_refused_of_mark equalsMeets (by decide) (by decide) g
    .tail
  have propertyReads :
      Reads text (privateName <|> anyWord .propertyName) named equals :=
    .orElse_of_refused propertyMeets.privateName_refused
      (propertyMeets.anyWord propertyPasses .propertyName)
  exact .grow_once (.behind (owner.goesOn g.dialect).reads_goesOn fun _ =>
    .orElse (.behind (.orElse pointReads _) fun _ =>
      .behind propertyReads fun _ => .build _) _) noSuffix

variable
  (equalsReads : Reads text (sign "=") equals valued)
  (value : Reads text (g.read (.expression .tail)) valued (';' :: after))
include equalsReads value

/-- A value that a member is given is read with the member. -/
theorem reads_operandRule_assignment
    (passes : Passes true before (name.toList ++ '.' :: named)) :
    Reads text (g.operandRule .tail) before (';' :: after) := by
  have member (base : Node) : ReadsAs text (grow (g.suffix .tail) base)
      .memberExpression ('.' :: named) equals :=
    reads_member owner propertyMeets propertyPasses equalsMeets base
  have assigned
      (target : Node)
      (isMember : target.kind = .memberExpression) :
      Reads text (g.assigned .tail target) equals (';' :: after) := by
    unfold Grammar.assigned
    rw [isMember]
    exact .orElse (.bind equalsReads fun _ => .bind value fun _ => .build _ _) _
  have base : ReadsAs text (Grammar.privateOperand <|> g.atom .tail) .identifier
      (name.toList ++ '.' :: named) ('.' :: named) :=
    .orElse_of_refused (owner.meets.privateName_refused.bind _)
      (owner.reads_atom .tail)
  obtain ⟨c, rest, listEq⟩ : ∃ c rest, name.toList = c :: rest :=
    List.exists_cons_of_ne_nil owner.free.isWord.nonempty
  have noPrefix : "!~+-".toList.contains c = false := by
    have unbroken := owner.free.isWord.unbroken c
      (by rw [listEq]; exact List.mem_cons_self)
    rw [Bool.eq_false_iff]
    intro isPrefix
    have isBroken : "!~+-".toList.all Lexeme.isBreak = true := by decide
    rw [List.all_eq_true.1 isBroken c (List.contains_iff_mem.1 isPrefix)]
      at unbroken
    contradiction
  unfold Grammar.operandRule
  refine .gap_bind passes (.get_bind fun cursor at_ => ?_)
  rw [at_.rest, listEq]
  simp only [List.cons_append, List.head?_cons, noPrefix, Bool.false_eq_true,
    if_false]
  rw [← List.cons_append, ← listEq]
  refine owner.meets.nextWord_bind ?_
  split
  case h_7 =>
    refine base.bind fun base isName => ?_
    rw [isName]
    exact (member base).bind assigned
  all_goals
    rename_i same
    exact absurd (Option.some.inj same) (owner.free.ne (by decide))

/-- A value that a member is given is read as a statement. -/
theorem reads_expressionStatement_assignment
    {dialect : Dialect}
    {depth : Nat}
    (same : g = ⟨dialect, Grammar.toDepth dialect depth⟩) :
    Reads text
      (Grammar.expressionStatement ⟨dialect, Grammar.toDepth dialect (depth + 2)⟩)
      (name.toList ++ '.' :: named) after := by
  subst same
  have semicolonMeets := meetsMark_semicolon after
  have ends : EndsAt (';' :: after) := semicolonMeets.endsAt (by decide)
  have operand := reads_operandRule_assignment owner propertyMeets
    propertyPasses equalsMeets equalsReads value (owner.passes true)
  have expression := ends.reads_expressionRule
    ⟨dialect, Grammar.toDepth dialect (depth + 1)⟩ .tail operand
  have noComma : RefusedAt (sign ",") (';' :: after) :=
    semicolonMeets.sign_refused (by decide)
  have values : Reads text (Grammar.commaExpression
      ⟨dialect, Grammar.toDepth dialect (depth + 2)⟩ .tail)
      (name.toList ++ '.' :: named) (';' :: after) :=
    .bind expression fun first =>
      .many_bind_of_refused (noComma.bind _) (.pure first)
  exact .bind values fun _ => .bind (reads_semicolon true after) fun _ =>
    .build _ _

end Assignment

/-! ## A statement that starts with a name -/

section Statement

variable {name : String} {rest : List Char} {dialect : Dialect}
  (owner : IsOwner name rest)
include owner

theorem IsOwner.number_refused : RefusedAt number rest := by
  have passes := owner.passesPoint false
  obtain ⟨c, more, rfl, -, noDigit⟩ := owner.member
  refine Grammar.number_refused passes ?_
  have noDigits : Lexeme.digits Char.isDigit (c :: more) = 0 := by
    unfold Lexeme.digits
    rw [List.head?_cons, Option.map_some, noDigit]
    rfl
  have noBase : Lexeme.basedLength? ('.' :: c :: more) = none := rfl
  unfold Lexeme.numberLength?
  simp only [noBase, noDigits]

/-- No statement starts with a point. -/
theorem IsOwner.statement_refused
    (depth : Nat) :
    RefusedAt (Grammar.toDepth dialect depth .statement) rest := by
  have passes := owner.passesPoint true
  have still := owner.passesPoint false
  have noNumber := owner.number_refused
  have point := owner.point
  have head : rest.head? = some '.' := by
    obtain ⟨c, more, rfl, -⟩ := owner.member
    rfl
  have noOperand
      (depth : Nat) :
      RefusedAt (Grammar.toDepth dialect depth (.operand .tail)) rest := by
    cases depth with
    | zero => exact fun _ _ => rfl
    | succ depth =>
      exact Grammar.operandRule_refused _ point passes still head (by decide)
        noNumber
  have noExpression
      (depth : Nat) :
      RefusedAt (Grammar.toDepth dialect depth (.expression .tail)) rest := by
    cases depth with
    | zero => exact fun _ _ => rfl
    | succ depth =>
      exact RefusedAt.bind (RefusedAt.bind (noOperand depth) _) _
  cases depth with
  | zero => exact fun _ _ => rfl
  | succ depth =>
    refine .gap_bind passes (point.nextWord_bind_refused
      (.get_bind fun cursor restEq => ?_))
    rw [restEq, head]
    exact RefusedAt.bind (RefusedAt.bind (noExpression depth) _) _

/-- A name in front of a point declares nothing, whatever else it means. -/
theorem IsOwner.typedDeclaration_refused
    {depth : Nat} :
    RefusedAt (Grammar.typedDeclaration ⟨dialect, Grammar.toDepth dialect depth⟩)
      (name.toList ++ rest) := by
  have point := owner.point
  have passes := owner.passes false
  have noWord {kind : Kind} : RefusedAt (anyWord kind) rest :=
    point.anyWord_refused
  have noString : RefusedAt stringLiteral rest := by
    have still := owner.passesPoint false
    obtain ⟨c, more, rfl, -⟩ := owner.member
    exact (quoted_refused still (by decide)).orElse
      (quoted_refused still (by decide))
  have goesOn
      {α : Type}
      {reading : Reading α}
      {place : Place}
      (refused : RefusedAt reading rest) :
      RefusedAt (do
        Grammar.goesOn ⟨dialect, Grammar.toDepth dialect depth⟩ place
        reading) rest :=
    .staying (fun _ => EndsExpression.goesOn_stopsAt _ place) fun _ => refused
  refine owner.meets.nextWord_bind_refused ?_
  split
  · exact owner.word_bind_refused fun _ => goesOn (noWord.bind _)
  · exact owner.word_bind_refused fun _ => noWord.bind _
  · rename_i same
    exact absurd (Option.some.inj same) (owner.free.ne (by decide))
  · rename_i same
    exact absurd (Option.some.inj same) (owner.free.ne (by decide))
  · exact owner.word_bind_refused fun _ => point.keyword_refused.bind _
  · refine owner.word_bind_refused fun _ => goesOn (RefusedAt.bind ?_ _)
    exact .orElse (point.keyword_refused.bind _)
      ((owner.statement_refused depth).map _)
  · refine .require_bind (owner.meets.anyWord_bind_refused passes _ fun _ =>
      goesOn (RefusedAt.bind ?_ _))
    exact .orElse noString (noWord.bind _)
  · contradiction

/-- A statement that starts with a name and a point is an expression. -/
theorem IsOwner.reads_wordStatement
    {text after : List Char}
    {depth : Nat}
    (reads : Reads text
      (Grammar.expressionStatement ⟨dialect, Grammar.toDepth dialect depth⟩)
      (name.toList ++ rest) after) :
    Reads text
      (Grammar.wordStatement ⟨dialect, Grammar.toDepth dialect depth⟩ name)
      (name.toList ++ rest) after := by
  have point := owner.point
  have passes := owner.passes false
  have noDeclaration : RefusedAt (Grammar.typedDeclaration
      ⟨dialect, Grammar.toDepth dialect depth⟩) (name.toList ++ rest) :=
    owner.typedDeclaration_refused
  unfold Grammar.wordStatement
  split
  case h_6 =>
    refine .orElse_of_refused (RefusedAt.bind ?_ _) reads
    have noKeyword {other : String} {kind : Kind} (different : "using" ≠ other) :
        RefusedAt (keyword other kind) ("using".toList ++ rest) :=
      owner.meets.keyword_refused different kind
    have noName {place : Place} : RefusedAt (Grammar.declarator
        ⟨dialect, Grammar.toDepth dialect depth⟩ place) rest :=
      RefusedAt.bind (.orElse ((point.sign_refused (by decide)).bind _)
        (.orElse ((point.sign_refused (by decide)).bind _)
          point.wordExcept_refused)) _
    refine .orElse ((noKeyword (by decide)).bind _) (.orElse ?_ ?_)
    · exact RefusedAt.bind (.orElse (noKeyword (by decide))
        ((noKeyword (by decide)).bind _)) _
    · refine .require_bind ((noKeyword (by decide)).maybe_bind ?_)
      refine owner.meets.keyword_bind_refused passes fun _ =>
        .get_bind fun cursor _ => .require_bind ?_
      exact RefusedAt.bind (noName.bind _) _
  case h_10 =>
    refine .orElse_of_refused ?_ reads
    have noFunction : RefusedAt (do
        discard (keyword "async")
        discard (keyword "function")) ("async".toList ++ rest) :=
      owner.meets.discard_bind_refused passes
        (fun _ faces => faces.keyword_stopsAt _ _) fun cursor restEq =>
          ((point.keyword_refused .token) cursor restEq).discard
    exact .requireAhead_bind noFunction
  case h_23 =>
    exact .orElse_of_refused (.require_bind (.require_bind noDeclaration)) reads
  all_goals exact absurd (by decide) owner.free.unreserved

end Statement

end Reading
end Syntax
end StoryMigration
