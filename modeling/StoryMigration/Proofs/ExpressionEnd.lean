import StoryMigration.Proofs.WordReading

/-!
# Where an expression ends

An expression goes on with a suffix, an operator or a choice, each of which
starts with a mark or a word of its own.  Where none of them stands, nothing
is added to an operand that has been read.
-/

namespace StoryMigration
namespace Syntax
namespace Reading

variable {cursor stop : Cursor}

/-- Marks and closing brackets that no expression goes on with. -/
def endMarks : List (List Char) :=
  [[], [';'], [','], [')'], [']'], ['\x7d']]

/-- What stands at the cursor, behind blanks and comments, goes on with no
expression. -/
structure EndsExpression (cursor : Cursor) : Prop where
  isEnd : Lexeme.markOf cursor.skip.rest ∈ endMarks
  backtick : cursor.skip.rest.head? ≠ some '`'
  word : ∀ word, nextWord cursor = some (some word, cursor) →
    bindingStrength word = none ∧ word ≠ "as" ∧ word ≠ "satisfies"

theorem Faces.endsExpression
    {word : String}
    (faces : Faces cursor word)
    (noOperator : bindingStrength word = none)
    (noTypeOperator : word ≠ "as" ∧ word ≠ "satisfies") :
    EndsExpression cursor where
  isEnd := by
    obtain ⟨isWord, rest, restEq, -⟩ := faces
    rw [restEq, Lexeme.markOf_append isWord]
    exact List.mem_cons_self
  backtick := by
    obtain ⟨isWord, rest, restEq, -⟩ := faces
    rw [restEq]
    cases listEq : word.toList with
    | nil => exact absurd listEq isWord.nonempty
    | cons c list =>
      intro same
      rw [List.cons_append, List.head?_cons, Option.some.injEq] at same
      have unbroken := isWord.unbroken c (by rw [listEq]; exact List.mem_cons_self)
      rw [same] at unbroken
      contradiction
  word other read := by
    rw [faces.nextWord] at read
    cases read
    exact ⟨noOperator, noTypeOperator⟩

namespace EndsExpression

variable (ends : EndsExpression cursor)
include ends

theorem sign_refuses
    {text : String}
    (other : text.toList ∉ endMarks) :
    Refuses (sign text) cursor := by
  have different : (Lexeme.markOf cursor.skip.rest == text.toList) = false := by
    rw [beq_eq_false_iff_ne]
    intro same
    exact other (same ▸ ends.isEnd)
  show (if Lexeme.markOf cursor.skip.rest == text.toList
    then take .token text.length else reject) cursor.skip = none
  rw [different]
  rfl

theorem signOf_refuses
    {texts : List String}
    (others : ∀ mark ∈ endMarks, texts.contains (String.ofList mark) = false) :
    Refuses (signOf texts) cursor := by
  show (if texts.contains (String.ofList (Lexeme.markOf cursor.skip.rest))
    then take .token (String.ofList (Lexeme.markOf cursor.skip.rest)).length
    else reject) cursor.skip = none
  rw [others _ ends.isEnd]
  rfl

theorem keyword_refuses
    {word : String}
    (kind : Kind)
    (isTypeOperator : word = "as" ∨ word = "satisfies") :
    Refuses (keyword word kind) cursor := by
  have isOther : ∀ word', nextWord cursor = some (word', cursor) →
      (word' == some word) = false := by
    intro word' read
    cases word' with
    | none => rfl
    | some word' =>
      obtain ⟨-, notAs, notSatisfies⟩ := ends.word word' read
      rw [beq_eq_false_iff_ne, ne_eq, Option.some.injEq]
      rintro rfl
      exact isTypeOperator.elim notAs notSatisfies
  obtain ⟨word', read⟩ : ∃ word', nextWord cursor = some (word', cursor) :=
    ⟨_, rfl⟩
  rw [Refuses, keyword, bind_apply, read]
  show (require (word' == some word) >>= fun _ => Reading.anyWord kind)
    cursor = none
  rw [isOther word' read]
  rfl

omit ends in
theorem goesOn_stopsAt
    (g : Grammar)
    (place : Place) :
    StopsAt (g.goesOn place) cursor cursor := by
  unfold Grammar.goesOn
  have stays : StopsAt (g.stopsHere place) cursor cursor := by
    unfold Grammar.stopsHere
    split
    · exact .of_eq rfl
    · exact .of_eq rfl
  exact stays.bind fun _ => .require _

omit ends in
theorem typedOption_stopsAt
    (g : Grammar)
    {reading : Reading Node}
    (refuses : Refuses reading cursor) :
    StopsAt (g.typedOption reading) cursor cursor := by
  unfold Grammar.typedOption
  split
  · exact .bind (.of_eq (maybe_of_none refuses)) fun _ => .of_eq rfl
  · exact .of_eq rfl

omit ends in
/-- No suffix stands where none of the marks does that one starts with. -/
theorem suffix_refuses_of_signs
    (g : Grammar)
    (place : Place)
    (value : Node)
    (noSign : ∀ mark ∈ [".", "?.", "[", "<", "(", "++", "--", "!"],
      Refuses (sign mark) cursor)
    (noBacktick : cursor.skip.rest.head? ≠ some '`') :
    Refuses (g.suffix place value) cursor := by
  have noChain : Refuses (sign "?.") cursor := noSign _ (by decide)
  have noTemplate : Refuses g.template cursor := by
    have noTick : Refuses (mark "`" .token) cursor := by
      rw [Refuses, mark, gap_bind_apply, immediately, get_bind_apply]
      cases isTick : after? "`".toList cursor.skip.rest with
      | none => rfl
      | some rest =>
        exact absurd
          (Lexeme.head?_of_after? (by decide) isTick) noBacktick
    exact noTick.bind
  have noArguments : Refuses g.arguments cursor :=
    Refuses.bind (noSign _ (by decide))
  have noTypes : Refuses g.typeArguments cursor :=
    Refuses.bind (noSign _ (by decide))
  unfold Grammar.suffix
  refine (goesOn_stopsAt g place).bind_refuses fun _ => ?_
  refine .orElse ?_ (.orElse ?_ (.orElse ?_ (.orElse ?_ (.orElse ?_ ?_))))
  · exact Refuses.bind (.orElse (noSign _ (by decide)) noChain)
  · unfold Grammar.indexSuffix
    rw [Refuses, noChain.maybe_bind]
    exact Refuses.bind (noSign _ (by decide))
  · exact (StopsAt.require _).bind_refuses fun _ => noTemplate.bind
  · unfold Grammar.callSuffix
    rw [Refuses, noChain.maybe_bind]
    exact (typedOption_stopsAt g noTypes).bind_refuses fun _ =>
      noArguments.bind
  · exact Refuses.bind (.orElse (noSign _ (by decide)) (noSign _ (by decide)))
  · refine (StopsAt.require _).bind_refuses fun _ => .orElse ?_ ?_
    · exact Refuses.bind (noSign _ (by decide))
    · exact noTypes.bind

theorem suffix_refuses
    (g : Grammar)
    (place : Place)
    (value : Node) :
    Refuses (g.suffix place value) cursor := by
  refine suffix_refuses_of_signs g place value (fun mark isStart => ?_)
    ends.backtick
  refine ends.sign_refuses ?_
  have noEnd : ∀ mark ∈ [".", "?.", "[", "<", "(", "++", "--", "!"],
      mark.toList ∉ endMarks := by
    decide
  exact noEnd mark isStart

theorem assigned
    (g : Grammar)
    (place : Place)
    (target : Node) :
    g.assigned place target cursor = some (target, cursor) := by
  have noEquals : Refuses (sign "=") cursor := ends.sign_refuses (by decide)
  have noMark : Refuses (signOf augmentedMarks) cursor :=
    ends.signOf_refuses (by decide)
  unfold Grammar.assigned
  split
  · rfl
  · rw [orElse_apply, orElse_apply, noEquals.bind,
      StopsAt.bind_refuses (.require _) fun _ => noMark.bind]
    rfl

theorem binaryStep_refuses
    (g : Grammar)
    (place : Place)
    (state : List Pending × Node) :
    Refuses (g.binaryStep place state) cursor := by
  have noOperator : Refuses (g.binaryOperator place) cursor := by
    unfold Grammar.binaryOperator
    refine (goesOn_stopsAt g place).bind_refuses fun _ => ?_
    rw [Refuses, gap_bind_apply]
    obtain ⟨word, read⟩ : ∃ word, nextWord cursor = some (word, cursor) :=
      ⟨_, rfl⟩
    have readHere : nextWord cursor.skip = some (word, cursor.skip) := by
      have same : nextWord cursor.skip = (nextWord cursor).map fun result =>
          (result.1, cursor.skip) := by
        show some ((Lexeme.wordLength? cursor.skip.skip.rest).map fun length =>
          String.ofList (cursor.skip.skip.rest.take length), _) = _
        rw [cursor.skip_skip]
        rfl
      rw [same, read]
      rfl
    rw [bind_apply, readHere]
    cases word with
    | some word =>
      show Refuses (require _ >>= fun _ => _) cursor.skip
      refine (StopsAt.require _).bind_refuses fun _ => ?_
      rw [(ends.word word read).1]
      rfl
    | none =>
      have noStrength : ∀ mark ∈ endMarks,
          bindingStrength (String.ofList mark) = none := by
        decide
      show Refuses (require _ >>= fun _ => _) cursor.skip
      refine (StopsAt.require _).bind_refuses fun _ => ?_
      rw [noStrength _ ends.isEnd]
      rfl
  have noTypeOperator : Refuses (g.typeOperator place) cursor := by
    refine (goesOn_stopsAt g place).bind_refuses fun _ => ?_
    exact Refuses.bind (.orElse (ends.keyword_refuses _ (.inl rfl))
      (ends.keyword_refuses _ (.inr rfl)))
  unfold Grammar.binaryStep
  refine .orElse noOperator.bind ?_
  refine (StopsAt.require _).bind_refuses fun _ => ?_
  exact noTypeOperator.bind

theorem ternaryMark_refuses
    (g : Grammar) :
    Refuses g.ternaryMark cursor :=
  Refuses.bind (ends.sign_refuses (by decide))

end EndsExpression
end Reading
end Syntax
end StoryMigration
