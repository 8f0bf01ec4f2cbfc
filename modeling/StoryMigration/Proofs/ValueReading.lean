import StoryMigration.Proofs.LiteralReading

/-!
# Reading values

An operand that no suffix, operator or choice follows is a whole expression.
Literals in brackets are read if their items are, wherever these stand.
-/

namespace StoryMigration
namespace Syntax

open Reading

variable {text before token after : List Char} {mark : String}

namespace Reading

/-- Wherever some characters are left, no expression goes on. -/
def EndsAt (after : List Char) : Prop :=
  ∀ cursor : Cursor, cursor.rest = after → EndsExpression cursor

theorem MeetsMark.endsAt
    (meets : MeetsMark before mark)
    (isEnd : mark.toList ∈ endMarks) :
    EndsAt before :=
  fun _ restEq => meets.endsExpression isEnd restEq

namespace EndsAt

variable (ends : EndsAt after)
include ends

theorem sign_refused
    {other : String}
    (noEnd : other.toList ∉ endMarks) :
    RefusedAt (sign other) after :=
  fun cursor restEq => (ends cursor restEq).sign_refuses noEnd

theorem suffix_refused
    (g : Grammar)
    (place : Place)
    (value : Node) :
    RefusedAt (g.suffix place value) after :=
  fun cursor restEq => (ends cursor restEq).suffix_refuses g place value

theorem binaryStep_refused
    (g : Grammar)
    (place : Place)
    (state : List Pending × Node) :
    RefusedAt (g.binaryStep place state) after :=
  fun cursor restEq => (ends cursor restEq).binaryStep_refuses g place state

theorem ternaryMark_refused
    (g : Grammar) :
    RefusedAt g.ternaryMark after :=
  fun cursor restEq => (ends cursor restEq).ternaryMark_refuses g

theorem reads_assigned
    (g : Grammar)
    (place : Place)
    (target : Node) :
    Reads text (g.assigned place target) after after :=
  fun cursor at_ =>
    ⟨target, cursor, (ends cursor at_.rest).assigned g place target, at_⟩

/-- An operand that nothing follows is an expression. -/
theorem reads_expressionRule
    (g : Grammar)
    (place : Place)
    (operand : Reads text (g.read (.operand place)) before after) :
    Reads text (g.expressionRule place) before after := by
  have binary : Reads text (g.binaryExpression place) before after :=
    .bind operand fun first =>
      .bind (.grow_of_refused (ends.binaryStep_refused g place _)) fun _ =>
        .pure _
  refine .bind binary fun condition => ?_
  exact .maybe_bind_of_refused ((ends.ternaryMark_refused g).bind _)
    (.pure condition)

/-- A literal that nothing follows is an operand. -/
theorem reads_operandRule
    (g : Grammar)
    (place : Place)
    {c : Char}
    (passes : Passes true before token)
    (meets : MeetsMark token mark)
    (head : token.head? = some c)
    (noPrefix : "!~+-".toList.contains c = false)
    (atom : Reads text (g.atom place) token after) :
    Reads text (g.operandRule place) before after := by
  unfold Grammar.operandRule
  refine .gap_bind passes (.get_bind fun cursor at_ => ?_)
  rw [at_.rest, head]
  simp only [noPrefix, Bool.false_eq_true, if_false]
  have base : Reads text (Grammar.privateOperand <|> g.atom place) token after :=
    .orElse_of_refused (meets.privateName_refused.bind _) atom
  refine meets.nextWord_bind (base.bind fun base => ?_)
  split
  · exact .bind (.pure base) fun full => ends.reads_assigned g place full
  · exact .bind (.grow_of_refused (ends.suffix_refused g place base))
      fun full => ends.reads_assigned g place full

/-- A literal that nothing follows is an expression. -/
theorem reads_expression
    {dialect : Dialect}
    {depth : Nat}
    {place : Place}
    {c : Char}
    (passes : Passes true before token)
    (meets : MeetsMark token mark)
    (head : token.head? = some c)
    (noPrefix : "!~+-".toList.contains c = false)
    (atom : Reads text
      (Grammar.atom ⟨dialect, Grammar.toDepth dialect depth⟩ place) token
        after) :
    Reads text (Grammar.toDepth dialect (depth + 2) (.expression place)) before
      after :=
  ends.reads_expressionRule ⟨dialect, Grammar.toDepth dialect (depth + 1)⟩
    place (ends.reads_operandRule ⟨dialect, Grammar.toDepth dialect depth⟩
      place passes meets head noPrefix atom)

end EndsAt
end Reading

/-! ## Literals in brackets -/

/-- A literal that is followed by no assignment is read as such. -/
theorem Grammar.reads_literalOrPattern
    {literal : Reading Node}
    (reads : Reads text literal before after)
    (ends : EndsAt after)
    (pattern : Reading Node) :
    Reads text (Grammar.literalOrPattern literal pattern) before after := by
  refine .orElse (reads.bind fun node => ?_) _
  exact .ahead_bind_of_refused (ends.sign_refused (by decide))
    (.bind (.pure _) fun _ => .pure node)

namespace Grammar

variable (g : Grammar)

/-- A member of an object literal. -/
def objectMember : Reading Node :=
  g.spread <|> g.pair <|> g.method g.objectModifiers false <|> g.shorthand

theorem reads_atom_string
    {place : Place}
    {c : Char}
    (isQuote : c = '\'' ∨ c = '"')
    (meets : MeetsMark token mark)
    (passes : Passes false token token)
    (head : token.head? = some c)
    (reads : Reads text stringLiteral token after) :
    Reads text (g.atom place) token after := by
  unfold Grammar.atom
  refine meets.nextWord_bind (.upcoming_bind passes ?_)
  rw [head]
  rcases isQuote with rfl | rfl <;> exact reads

theorem reads_atom_array
    {place : Place}
    (meets : MeetsMark token mark)
    (passes : Passes false token token)
    (head : token.head? = some '[')
    (reads : Reads text g.array token after)
    (ends : EndsAt after) :
    Reads text (g.atom place) token after := by
  unfold Grammar.atom
  refine meets.nextWord_bind (.upcoming_bind passes ?_)
  rw [head]
  exact reads_literalOrPattern reads ends g.arrayPattern

theorem reads_atom_object
    {place : Place}
    (meets : MeetsMark token mark)
    (passes : Passes false token token)
    (head : token.head? = some '\x7b')
    (reads : Reads text g.object token after)
    (ends : EndsAt after) :
    Reads text (g.atom place) token after := by
  unfold Grammar.atom
  refine meets.nextWord_bind (.upcoming_bind passes ?_)
  rw [head]
  exact reads_literalOrPattern reads ends g.objectPattern

/-! ## Items between commas -/

/-- A comma and perhaps another item. -/
def slotRound (item : Reading Node) : Reading (List Node) := do
  let comma ← sign ","
  let next ← maybe item
  pure (comma :: next.toList)

theorem reads_commaSlots
    {item : Reading Node}
    {middle : List Char}
    (first : Reads text (maybe item) before middle)
    (rounds : Repeats text (slotRound item) middle after) :
    Reads text (commaSlots item) before after :=
  .bind first fun _ => .bind rounds.many fun _ => .pure _

theorem spread_refused
    (meets : MeetsMark before mark)
    (different : mark ≠ "...") :
    RefusedAt g.spread before :=
  (meets.sign_refused different).bind _

theorem number_refused
    {c : Char}
    (passes : Passes false before (c :: after))
    (noDigit : Lexeme.numberLength? (c :: after) = none) :
    RefusedAt number before := by
  refine .gap_bind passes (.get_bind fun cursor restEq => ?_)
  rw [restEq, noDigit]
  exact fun _ _ => rfl

theorem memberName_refused
    (meets : MeetsMark before "\x7d") :
    RefusedAt g.memberName before := by
  obtain ⟨after, passes, -⟩ := meets.passes
  refine .orElse meets.anyWord_refused (.orElse ?_ (.orElse ?_ (.orElse ?_ ?_)))
  · exact (quoted_refused passes (by decide)).orElse
      (quoted_refused passes (by decide))
  · exact number_refused passes rfl
  · exact meets.privateName_refused
  · exact (meets.sign_refused (by decide)).bind _

/-- No member stands where an object ends. -/
theorem objectMember_refused
    (meets : MeetsMark before "\x7d") :
    RefusedAt g.objectMember before := by
  have noName := g.memberName_refused meets
  have noDecorator : RefusedAt g.decorator before :=
    (meets.sign_refused (by decide)).bind _
  have noModifier {words : List String} :
      RefusedAt (do
        let word ← keywordOf words
        if false then
          require !((← get).statementEnd? g.dialect false).isSome
        require (← ahead (do
          discard (maybe (sign "*"))
          discard g.memberName))
        pure word : Reading Node) before :=
    meets.keywordOf_refused.bind _
  refine .orElse (g.spread_refused meets (by decide)) (.orElse ?_ (.orElse ?_ ?_))
  · exact noName.bind _
  · refine noDecorator.many_bind (.many_bind noModifier ?_)
    exact (meets.sign_refused (by decide)).maybe_bind (noName.bind _)
  · exact meets.wordExcept_refused.orElse (meets.keyword_refused _)

/-- Characters of which each starts operands of one form, and prefixes. -/
def operandMarks : List Char := "!~+-'\"`([\x7b/@<".toList

/-- No operand stands where a mark does that starts none, and no number. -/
theorem operandRule_refused
    {place : Place}
    {c : Char}
    (meets : MeetsMark token mark)
    (passes : Passes true before token)
    (noBlank : Passes false token token)
    (head : token.head? = some c)
    (noMark : operandMarks.contains c = false)
    (noNumber : RefusedAt number token) :
    RefusedAt (g.operandRule place) before := by
  have noPrefix : "!~+-".toList.contains c = false := by
    have subset : "!~+-".toList.all (operandMarks.contains ·) = true := by
      decide
    rw [Bool.eq_false_iff, ne_eq, List.contains_iff_mem]
    intro member
    rw [List.all_eq_true.1 subset c member] at noMark
    contradiction
  have noAtom : RefusedAt (g.atom place) token := by
    refine meets.nextWord_bind_refused (.upcoming_bind noBlank ?_)
    rw [head]
    unfold operandMarks at noMark
    simp only [String.reduceToList, List.contains_cons, List.contains_nil,
      Bool.or_eq_false_iff] at noMark
    simp only [noMark, Bool.or_self, Bool.false_eq_true, if_false]
    exact noNumber
  refine .gap_bind passes (.get_bind fun cursor restEq => ?_)
  rw [restEq, head]
  simp only [noPrefix, Bool.false_eq_true, if_false]
  refine meets.nextWord_bind_refused (RefusedAt.bind ?_ _)
  exact (meets.privateName_refused.bind _).orElse noAtom

/-- No item stands where an array ends. -/
theorem item_refused
    {dialect : Dialect}
    {depth : Nat}
    (opens : MeetsMark before "]")
    (meets : MeetsMark token "]")
    (passes : Passes true before token)
    (tokenEq : token = ']' :: after) :
    RefusedAt (Grammar.item ⟨dialect, Grammar.toDepth dialect depth⟩)
      before := by
  have noOperand
      (depth : Nat) :
      RefusedAt (Grammar.toDepth dialect depth (.operand .inside)) before := by
    cases depth with
    | zero => exact fun _ _ => rfl
    | succ depth =>
      rw [tokenEq] at meets passes
      have noBlanks : ([] : List Char).all isBlank = true := rfl
      have still : Passes false (']' :: after) (']' :: after) :=
        passes_of_blanks false noBlanks rfl
      exact operandRule_refused _ meets passes still rfl (by decide)
        (number_refused still rfl)
  refine .orElse (spread_refused _ opens (by decide)) ?_
  cases depth with
  | zero => exact fun _ _ => rfl
  | succ depth =>
    exact RefusedAt.bind (RefusedAt.bind (noOperand depth) _) _

end Grammar
end Syntax
end StoryMigration
