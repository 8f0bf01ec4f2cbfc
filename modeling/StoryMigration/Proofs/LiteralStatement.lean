import StoryMigration.Proofs.LiteralValue
import StoryMigration.Proofs.ValueReading

/-!
# String literals as programs

A string literal that stands alone is a program of one statement, the
expression that the literal is.  With what is read wherever the literal stands,
this says what text it is read as, and when that is the text that it denotes.
-/

namespace StoryMigration
namespace Syntax

open Reading LiteralPart

/-! ## A literal at the end of the source -/

namespace Cursor

theorem atToken_of_cons
    {cursor : Cursor}
    {c : Char}
    {rest : List Char}
    (restEq : cursor.rest = c :: rest)
    (starts : startsToken c = true) :
    cursor.AtToken := by
  unfold startsToken at starts
  simp only [Bool.and_eq_true, Bool.not_eq_true', bne_iff_ne] at starts
  obtain ⟨⟨⟨noBlank, noSlash⟩, noAngle⟩, noDash⟩ := starts
  constructor
  · rw [restEq, List.takeWhile_cons_of_neg (by simp [noBlank])]
  · rw [restEq]
    unfold commentLength? lineCommentLength? blockCommentLength?
    grind
  · rw [restEq]
    unfold htmlCommentLength?
    grind

theorem atToken_of_nil
    {cursor : Cursor}
    (restEq : cursor.rest = []) :
    cursor.AtToken := by
  constructor <;> rw [restEq] <;> rfl

theorem endsExpression_of_nil
    {cursor : Cursor}
    (restEq : cursor.rest = []) :
    EndsExpression cursor := by
  have skipEq := (atToken_of_nil restEq).skip false
  constructor
  · rw [skipEq, restEq]
    exact List.mem_cons_self
  · rw [skipEq, restEq]
    exact nofun
  · intro word read
    have noWord : nextWord cursor = some (none, cursor) := by
      show some ((Lexeme.wordLength? cursor.skip.rest).map fun length =>
        String.ofList (cursor.skip.rest.take length), cursor) = _
      rw [skipEq, restEq]
      rfl
    rw [noWord] at read
    cases read

/-- A statement can end where the source does. -/
theorem statementEnd?_of_nil
    {cursor : Cursor}
    (restEq : cursor.rest = [])
    (dialect : Dialect) :
    cursor.statementEnd? dialect true = some cursor := by
  have ends : Terminator.ends dialect true false cursor.rest = true := by
    rw [restEq]
    cases dialect <;> rfl
  unfold statementEnd?
  rw [endUpTo, if_pos ends]

end Cursor

namespace Grammar

variable
  {cursor next : Cursor}
  {node : Node}
  {c : Char}
  {rest : List Char}

/-- A string literal is an atom. -/
theorem atom_string
    (g : Grammar)
    (place : Place)
    (isQuote : c = '\'' ∨ c = '"')
    (restEq : cursor.rest = c :: rest)
    (read : stringLiteral cursor = some (node, next)) :
    nextWord cursor = some (none, cursor) ∧
      (privateOperand <|> g.atom place) cursor = some (node, next) := by
  have atToken : cursor.AtToken := by
    refine Cursor.atToken_of_cons restEq ?_
    rcases isQuote with rfl | rfl <;> rfl
  have noWord : nextWord cursor = some (none, cursor) := by
    show some ((Lexeme.wordLength? cursor.skip.rest).map fun length =>
      String.ofList (cursor.skip.rest.take length), cursor) = _
    rw [atToken.skip, restEq]
    rcases isQuote with rfl | rfl <;> rfl
  refine ⟨noWord, ?_⟩
  have noPrivate : Refuses privateOperand cursor := by
    refine Refuses.bind ?_
    rw [Refuses, privateName, gap_bind_apply, get_bind_apply, atToken.skip, restEq]
    rcases isQuote with rfl | rfl <;> rfl
  have head : upcoming cursor = some (cursor.rest, cursor) := by
    show some (cursor.skip.rest, cursor) = _
    rw [atToken.skip]
  rw [orElse_apply, noPrivate]
  show g.atom place cursor = _
  rw [atom, bind_apply, noWord, Option.bind_some]
  show (upcoming >>= _ : Reading Node) cursor = _
  rw [bind_apply, head, Option.bind_some, restEq]
  rcases isQuote with rfl | rfl <;> exact read

/-- A string literal at the end of the source is an operand. -/
theorem operandRule_string
    (g : Grammar)
    (place : Place)
    (isQuote : c = '\'' ∨ c = '"')
    (restEq : cursor.rest = c :: rest)
    (read : stringLiteral cursor = some (node, next))
    (isString : node.kind = .string)
    (ends : EndsExpression next) :
    g.operandRule place cursor = some (node, next) := by
  have atToken : cursor.AtToken := by
    refine Cursor.atToken_of_cons restEq ?_
    rcases isQuote with rfl | rfl <;> rfl
  obtain ⟨noWord, base⟩ := atom_string g place isQuote restEq read
  have noPrefix : "!~+-".toList.contains c = false := by
    rcases isQuote with rfl | rfl <;> rfl
  have noSuffix := (ends.suffix_refuses g place node).grow
  unfold operandRule
  rw [gap_bind_apply, atToken.skip, get_bind_apply, restEq]
  simp only [List.head?_cons, noPrefix, Bool.false_eq_true, if_false]
  rw [bind_apply, noWord, Option.bind_some]
  show ((privateOperand <|> g.atom place) >>= _ : Reading Node) cursor = _
  rw [bind_apply, base, Option.bind_some]
  simp only [isString]
  show (grow (g.suffix place) node >>= _ : Reading Node) next = _
  rw [bind_apply, noSuffix, Option.bind_some]
  exact ends.assigned g place node

/-- An operand at the end of the source is an expression. -/
theorem expressionRule_operand
    (g : Grammar)
    (place : Place)
    (read : g.read (.operand place) cursor = some (node, next))
    (ends : EndsExpression next) :
    g.expressionRule place cursor = some (node, next) := by
  have binary : g.binaryExpression place cursor = some (node, next) := by
    unfold binaryExpression
    rw [bind_apply, read, Option.bind_some, bind_apply,
      (ends.binaryStep_refuses g place ([], node)).grow]
    rfl
  unfold expressionRule
  rw [bind_apply, binary, Option.bind_some, bind_apply,
    maybe_of_none (ends.ternaryMark_refuses g).bind]
  rfl

/-- An expression at the end of the source is a statement. -/
theorem expressionStatement_expression
    (g : Grammar)
    (read : g.read (.expression .tail) cursor = some (node, next))
    (restEq : next.rest = []) :
    g.expressionStatement cursor =
      some (.mk .expressionStatement none ⟨node.start, next.offset⟩ [node], next) := by
  have ends := Cursor.endsExpression_of_nil restEq
  have noComma : Refuses (sign ",") next := by
    show (if Lexeme.markOf next.skip.rest == ",".toList then
      take .token ",".length else reject) next.skip = none
    rw [(Cursor.atToken_of_nil restEq).skip, restEq]
    rfl
  have commas : g.commaExpression .tail cursor = some (node, next) := by
    unfold commaExpression
    rw [bind_apply, read, Option.bind_some, bind_apply, Refuses.many noComma.bind]
    rfl
  have ending : (semicolon g.dialect true : Reading _) next = some ([], next) := by
    rw [semicolon, get_bind_apply, Cursor.statementEnd?_of_nil restEq]
    rfl
  unfold expressionStatement
  rw [bind_apply, commas, Option.bind_some, bind_apply, ending]
  rfl

/-- A string literal at the end of the source is a statement. -/
theorem statement_string
    (dialect : Dialect)
    (depth : Nat)
    (isQuote : c = '\'' ∨ c = '"')
    (restEq : cursor.rest = c :: rest)
    (read : stringLiteral cursor = some (node, next))
    (isString : node.kind = .string)
    (atEnd : next.rest = []) :
    toDepth dialect (depth + 3) .statement cursor =
      some (.mk .expressionStatement none ⟨node.start, next.offset⟩ [node], next) := by
  have atToken : cursor.AtToken := by
    refine Cursor.atToken_of_cons restEq ?_
    rcases isQuote with rfl | rfl <;> rfl
  have ends := Cursor.endsExpression_of_nil atEnd
  have operand : toDepth dialect (depth + 1) (.operand .tail) cursor =
      some (node, next) :=
    operandRule_string ⟨dialect, toDepth dialect depth⟩ .tail isQuote restEq read
      isString ends
  have expression : toDepth dialect (depth + 2) (.expression .tail) cursor =
      some (node, next) :=
    expressionRule_operand ⟨dialect, toDepth dialect (depth + 1)⟩ .tail operand ends
  have noWord := (atom_string ⟨dialect, toDepth dialect depth⟩ .tail isQuote restEq
    read).1
  show statementRule ⟨dialect, toDepth dialect (depth + 2)⟩ cursor = _
  unfold statementRule
  rw [gap_bind_apply, atToken.skip, bind_apply, noWord, Option.bind_some]
  have statement := expressionStatement_expression
    ⟨dialect, toDepth dialect (depth + 2)⟩ expression atEnd
  show (get >>= _ : Reading Node) cursor = _
  rw [get_bind_apply, restEq]
  rcases isQuote with rfl | rfl <;> exact statement

end Grammar

/-! ## A literal alone -/

namespace Node

theorem mergeByStart_nil
    (nodes : List Node) :
    mergeByStart nodes [] = nodes := by
  induction nodes with
  | nil => rfl
  | cons node nodes nodesHypothesis =>
    rw [mergeByStart, List.takeWhile_nil, List.dropWhile_nil, nodesHypothesis,
      List.nil_append]

mutual

/-- A tree without comments is left as it is. -/
theorem withComments_nil
    (node : Node) :
    node.withComments [] = node := by
  obtain ⟨kind, role, span, children⟩ := node
  rw [withComments, childrenWithComments_nil, List.filter_nil, mergeByStart_nil]

theorem childrenWithComments_nil
    (nodes : List Node) :
    childrenWithComments [] nodes = nodes := by
  cases nodes with
  | nil => rfl
  | cons node nodes =>
    rw [childrenWithComments, List.filter_nil, withComments_nil,
      childrenWithComments_nil]

end

end Node

namespace StringLiteral

/-- A literal is read as a text: as one node with that value wherever it stands, and
as a whole program if it is one. -/
structure ReadsAs
    (literal : StringLiteral)
    (value : Text) : Prop where
  anywhere :
    ∀ {m : Module} {text before after : List Char} {cursor : Cursor},
      m.bytes = Utf8.encode text → cursor.At text before →
        Passes false before (literal.written ++ after) →
          ∃ node next, Reading.stringLiteral cursor = some (node, next) ∧
            next.At text after ∧ node.kind = .string ∧
            m.text node = String.ofList literal.written ∧
            m.stringValue node = .ok value
  alone :
    ∀ dialect : Dialect, literal.written.contains '\x00' = false →
      ∃ m node span, Module.parse? dialect (String.ofList literal.written) = some m ∧
        m.statements = [.mk .expressionStatement none span [node]] ∧
        node.kind = .string ∧ m.text node = String.ofList literal.written ∧
        m.stringValue node = .ok value

instance
    (literal : StringLiteral) :
    Decidable literal.IsLegal :=
  decidable_of_iff
    ((literal.quote = '\'' ∨ literal.quote = '"') ∧
      (∀ part ∈ literal.parts, part.IsLegal literal.quote) ∧
      literal.parts.IsChain MayFollow)
    ⟨fun ⟨isQuote, legal, follows⟩ => ⟨isQuote, legal, follows⟩,
      fun ⟨isQuote, legal, follows⟩ => ⟨isQuote, legal, follows⟩⟩

namespace IsLegal

variable {literal : StringLiteral} (legal : literal.IsLegal)
include legal

/-- A legal literal is a program of one statement. -/
theorem exists_parse?
    (dialect : Dialect)
    (noNul : literal.written.contains '\x00' = false) :
    ∃ m node span, Module.parse? dialect (String.ofList literal.written) = some m ∧
      m.statements = [.mk .expressionStatement none span [node]] ∧
      node.kind = .string ∧ m.text node = String.ofList literal.written ∧
      m.stringValue node = .ok (.ofUnits (readUnits literal.parts)) := by
  generalize textEq : literal.written = text at noNul
  have isQuote := legal.isQuote
  have startsQuote : startsToken literal.quote = true := by
    rcases isQuote with same | same <;> rw [same] <;> rfl
  have start : (Cursor.ofText text).rest = literal.quote ::
      (flat literal.parts ++ [literal.quote]) := textEq.symm
  have atToken := Cursor.atToken_of_cons start startsQuote
  have at_ : (Cursor.ofText text).At text text := ⟨.ofText text, rfl⟩
  have passes : Passes false text (literal.written ++ []) := by
    rw [List.append_nil, textEq]
    refine @passes_of_blanks [] _ false rfl ?_
    rw [← textEq]
    exact startsQuote
  have exists_read (m : Module) (bytesEq : m.bytes = Utf8.encode text) :=
    legal.exists_stringLiteral bytesEq at_ passes
  obtain ⟨node, next, read, reaches, isString, -⟩ :=
    exists_read ⟨Utf8.encode text, .leaf .program ⟨0, 0⟩, dialect⟩ rfl
  have noRemarks : next.remarks = [] := by
    rw [reaches.remarks, atToken.skip]
    rfl
  have atEnd : (next.skip true).rest = [] := by
    rw [(Cursor.atToken_of_nil reaches.at_.rest).skip, reaches.at_.rest]
  obtain ⟨depth, depthEq⟩ : ∃ depth, 8 * (text.length + 8) = depth + 3 :=
    ⟨8 * (text.length + 8) - 3, by omega⟩
  have statement : (grammarFor dialect text).read .statement (Cursor.ofText text) =
      some (.mk .expressionStatement none ⟨node.start, next.offset⟩ [node], next) := by
    rw [grammarFor, depthEq]
    exact Grammar.statement_string dialect depth isQuote start read isString
      reaches.at_.rest
  have statements : many ((grammarFor dialect text).read .statement)
      (Cursor.ofText text) =
        some ([.mk .expressionStatement none ⟨node.start, next.offset⟩ [node]], next) := by
    refine upTo_of_readsEach (.cons statement (.nil _)) (statement_eq_none atEnd) ?_
    simp
  have noShell : (after? "#!".toList (Cursor.ofText text).rest).isSome = false := by
    rw [start]
    rcases isQuote with same | same <;> rw [same] <;> rfl
  have program : programRule (grammarFor dialect text) (Cursor.ofText text) =
      some (.mk .program none ⟨node.start, next.offset⟩
        [.mk .expressionStatement none ⟨node.start, next.offset⟩ [node]], next) := by
    rw [programRule, gap_bind_apply, atToken.skip, get_bind_apply]
    simp only [noShell, Bool.false_eq_true, if_false]
    rw [bind_apply]
    show (many _ >>= _ : Reading Node) (Cursor.ofText text) = _
    rw [bind_apply, statements, Option.bind_some, bind_apply,
      finished_of_atEnd atEnd, (Cursor.atToken_of_nil reaches.at_.rest).skip]
    rfl
  have parsed : parse? dialect text = some (.mk .program none ⟨0, next.offset⟩
      [.mk .expressionStatement none ⟨node.start, next.offset⟩ [node]]) := by
    refine (parse?_eq_some_iff noNul).2 ⟨_, _, program, ?_⟩
    rw [noRemarks]
    exact Node.withComments_nil _
  have bytesEq : Utf8.ofString (String.ofList text) = Utf8.encode text := by
    rw [Utf8.ofString, String.toList_ofList]
  obtain ⟨same, last, readSame, -, -, textSame, value⟩ := exists_read
    ⟨Utf8.ofString (String.ofList text), .mk .program none ⟨0, next.offset⟩
      [.mk .expressionStatement none ⟨node.start, next.offset⟩ [node]], dialect⟩
    bytesEq
  rw [read] at readSame
  cases readSame
  refine ⟨_, node, _, ?_, rfl, isString, textEq ▸ textSame, value⟩
  unfold Module.parse?
  rw [String.toList_ofList, parsed]
  rfl

/-- What a legal literal is read as. -/
theorem readsAs :
    literal.ReadsAs (.ofUnits (readUnits literal.parts)) where
  anywhere bytesEq at_ passes := by
    obtain ⟨node, next, read, reaches, isString, textEq, value⟩ :=
      legal.exists_stringLiteral bytesEq at_ passes
    exact ⟨node, next, read, reaches.at_, isString, textEq, value⟩
  alone dialect noNul := legal.exists_parse? dialect noNul

/-- A legal literal is read as one text. -/
theorem eq_of_readsAs
    {value : Text}
    (reads : literal.ReadsAs value) :
    value = .ofUnits (readUnits literal.parts) := by
  have at_ : (Cursor.ofText literal.written).At literal.written literal.written :=
    ⟨.ofText _, rfl⟩
  have passes : Passes false literal.written (literal.written ++ []) := by
    rw [List.append_nil]
    refine @passes_of_blanks [] _ false rfl ?_
    show startsToken literal.quote = true
    rcases legal.isQuote with same | same <;> rw [same] <;> rfl
  obtain ⟨node, next, read, -, -, -, valued⟩ := reads.anywhere
    (m := ⟨Utf8.encode literal.written, .leaf .program ⟨0, 0⟩, .javascript⟩) rfl at_
    passes
  obtain ⟨same, last, readSame, -, -, -, valuedSame⟩ := legal.readsAs.anywhere
    (m := ⟨Utf8.encode literal.written, .leaf .program ⟨0, 0⟩, .javascript⟩) rfl at_
    passes
  rw [read] at readSame
  cases readSame
  rw [valued] at valuedSame
  exact Except.ok.inj valuedSame

/-- A legal literal is read as the text that it denotes exactly if what is read is
what its parts denote. -/
theorem readsAs_value_iff_eq :
    literal.ReadsAs literal.value ↔
      readUnits literal.parts = literal.parts.flatMap units := by
  constructor
  · intro reads
    refine (Text.ofUnits_injective ?_ ?_ (legal.eq_of_readsAs reads)).symm
    · intro unit member
      obtain ⟨part, isPart, isUnit⟩ := List.mem_flatMap.1 member
      exact lt_of_mem_units (legal.legal part isPart) isUnit
    · exact fun unit member => lt_of_mem_readUnits legal.legal member
  · intro same
    rw [StringLiteral.value, ← same]
    exact legal.readsAs

/-- Every legal literal is read, as a text that its parts determine.  Unless a
separator is taken into a continued line, it is the text that the literal denotes
exactly if no line is continued by a separator; and unless one is, exactly if none
is taken into a continued line. -/
theorem readsAs_value_iff :
    literal.ReadsAs (.ofUnits (readUnits literal.parts)) ∧
      (literal.parts.IsChain (fun first second => swallows first second = false) →
        (literal.ReadsAs literal.value ↔
          ∀ part ∈ literal.parts, part.continuesBySeparator = false)) ∧
      ((∀ part ∈ literal.parts, part.continuesBySeparator = false) →
        (literal.ReadsAs literal.value ↔
          literal.parts.IsChain fun first second => swallows first second = false)) := by
  refine ⟨legal.readsAs, fun apart => ?_, fun others => ?_⟩
  · rw [legal.readsAs_value_iff_eq, readUnits_of_isChain apart]
    exact flatMap_readAlone_eq_iff
  · rw [legal.readsAs_value_iff_eq]
    exact readUnits_eq_iff_isChain others

end IsLegal

/-- A literal with parts of every kind. -/
def varied : StringLiteral where
  quote := '\''
  parts := [.plain 'a', .letter '\'', .letter 'n', .nul, .byte '4' '1',
    .unit 'd' '8' '3' 'd', .unit 'd' 'e' '0' '0', .point ['1', 'f', '6', '0', '0'],
    .continuation ['\r', '\n'], .plain '\u2028']

/-- A literal with a line that is continued by a separator. -/
def separated : StringLiteral where
  quote := '\''
  parts := [.plain 'a', .continuation ['\u2028'], .plain 'b']

/-- Every kind of part stands in one literal, and it is read as what it denotes. -/
theorem readsAs_value_varied :
    varied.IsLegal ∧
      varied.parts.IsChain (fun first second => swallows first second = false) ∧
      (∀ part ∈ varied.parts, part.continuesBySeparator = false) ∧
      varied.ReadsAs varied.value ∧
      varied.value = .ofString "a'\n\x00A😀😀\u2028" := by
  have legal : varied.IsLegal := by decide
  have apart : varied.parts.IsChain
      (fun first second => swallows first second = false) := by
    decide
  have others : ∀ part ∈ varied.parts, part.continuesBySeparator = false := by
    decide
  obtain ⟨-, ofApart, -⟩ := legal.readsAs_value_iff
  exact ⟨legal, apart, others, (ofApart apart).2 others, by decide⟩

/-- A line that is continued by a separator: the literal denotes two letters, and is
read as these with the separator between them. -/
theorem separated_keeps_separator :
    separated.IsLegal ∧ separated.value = .ofString "ab" ∧
      separated.ReadsAs (.ofString "a\u2028b") ∧
      ¬ separated.ReadsAs separated.value := by
  have legal : separated.IsLegal := by decide
  have reads := legal.readsAs
  refine ⟨legal, by decide, reads, fun same => ?_⟩
  have sameText := legal.eq_of_readsAs same
  exact absurd sameText (by decide)

end StringLiteral
end Syntax
end StoryMigration
