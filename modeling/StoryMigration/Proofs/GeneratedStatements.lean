import StoryMigration.Proofs.MemberAssignment

/-!
# Generated statements are read

The default export, the exports of stories and the assignments to them are read
as statements wherever blanks and comments are all that stands in front of them
and what is copied into them is read.
-/

namespace StoryMigration

open Syntax Reading

namespace Snippet

variable {newline : Newline} {dialect : Dialect} {text after : List Char}
  {more : List Snippet}

/-- A word or a mark behind a space. -/
theorem lay_spacedMark
    (newline : Newline)
    (mark : String)
    (more : List Snippet)
    (after : List Char) :
    lay newline (Story.spacedMark mark :: more) after =
      ' ' :: (mark.toList ++ lay newline more after) := by
  cases newline <;> rfl

/-- A value behind a space and in front of a semicolon. -/
theorem exists_lay_valueEnd
    {value : List Snippet}
    (newline : Newline)
    (nonempty : value ≠ [])
    (after : List Char) :
    ∃ rest, lay newline (Story.valueEnd value) after = ' ' :: rest := by
  rw [Story.valueEnd, lay_append]
  obtain ⟨first, others, rfl⟩ := List.exists_cons_of_ne_nil nonempty
  have gapEq : newline.spreadList ([' '] ++ first.gap) =
      ' ' :: newline.spreadList first.gap := by
    rw [newline.spreadList_append _ (by decide)]
    cases newline <;> rfl
  refine ⟨newline.spreadList first.gap ++ (first.written newline ++
    lay newline others (lay newline [mark ";"] after)), ?_⟩
  show newline.spreadList ([' '] ++ first.gap) ++ _ = _
  rw [gapEq]
  rfl

/-- A value in front of a semicolon is read up to there. -/
theorem reads_valueEnd
    {α : Type}
    {reading : Reading α}
    {value : List Snippet}
    (readBy : ReadBy newline dialect text reading value)
    (fits : AllFit newline dialect text (Story.valueEnd value) after) :
    Reads text reading (lay newline (Story.valueEnd value) after)
      (';' :: after) := by
  have behind : lay newline [mark ";"] after = ';' :: after := by
    rw [lay_mark]
    rfl
  have ends : EndsAt (';' :: after) :=
    (meetsMark_semicolon after).endsAt (by decide)
  rw [Story.valueEnd, allFit_append, behind] at fits
  rw [Story.valueEnd, lay_append, behind]
  exact (readBy.lead [' ']).reads fits.1 ends

/-- An equals sign in front of a value stands where it is written. -/
theorem meets_equals
    {rest : List Char}
    (spaced : lay newline more after = ' ' :: rest)
    (fits : AllFit newline dialect text (Story.spacedMark "=" :: more) after) :
    MeetsMark (lay newline (Story.spacedMark "=" :: more) after) "=" ∧
      Reads text (sign "=") (lay newline (Story.spacedMark "=" :: more) after)
        (lay newline more after) := by
  have starts : "=".toList.head?.any startsMark = true := by decide
  have passes := passes_mark starts fits false
  have isMark : Lexeme.markOf ("=".toList ++ lay newline more after) =
      "=".toList := by
    rw [spaced]
    rfl
  exact ⟨.of_passes passes isMark starts, .sign passes isMark⟩

/-- An object literal starts with its brace. -/
theorem exists_objectLiteral
    (layout : Layout)
    (slots : List Slot)
    (level : Int) :
    ∃ others, objectLiteral layout slots level = mark "\x7b" :: others := by
  unfold objectLiteral
  split
  · exact ⟨_, rfl⟩
  · exact ⟨_, rfl⟩

/-- What follows a word is set apart from it by a space. -/
theorem breaksWord_of_space
    {before rest : List Char}
    (space : before = ' ' :: rest) :
    Lexeme.BreaksWord before := by
  intro c isHead
  rw [space] at isHead
  cases isHead
  decide

/-- An export is read as a statement if what follows its first word is read. -/
theorem reads_export
    {g : Grammar}
    {word : String}
    {before : List Char}
    (isWord : Lexeme.IsWord word.toList)
    (different : word ≠ "import")
    (breaks : Lexeme.BreaksWord (lay newline more after))
    (goesOn : GoesOnAt g.dialect
      (lay newline (Story.spacedMark word :: more) after))
    (fits : AllFit newline dialect text (Story.spacedMark word :: more) after)
    (reads : Reads text g.exportTail
      (lay newline (Story.spacedMark word :: more) after) after)
    (passes : Passes true before
      (lay newline (mark "export" :: Story.spacedMark word :: more) after)) :
    Reads text g.statementRule before after := by
  have exportBreaks := breaksWord_of_space
    (lay_spacedMark newline word more after)
  obtain ⟨-, meets⟩ := meets_word isWord breaks fits
  exact reads_statementRule passes (by decide) exportBreaks
    (meets.sign_refused (by decide))
    (reads_wordStatement_export exportBreaks goesOn
      (meets.keyword_refused different) reads)

end Snippet

namespace Story

open Snippet

variable (options : Options) (m : Module) {newline : Newline}
  {dialect : Dialect} {text before after : List Char}

/-- The default export is read as a statement. -/
theorem reads_defaultSnippets
    (metadata : Metadata)
    (fits : AllFit newline dialect text (defaultSnippets options m metadata)
      after)
    (passes : Passes true before
      (lay newline (defaultSnippets options m metadata) after)) :
    Reads text (within dialect text 1).statementRule before after := by
  unfold defaultSnippets at fits passes
  generalize objectEq : objectLiteral options.layout
    ((sharedSnippets options m metadata).map .filled) 0 = object at fits passes
  obtain ⟨others, bracedEq⟩ := exists_objectLiteral options.layout
    ((sharedSnippets options m metadata).map .filled) 0
  rw [objectEq] at bracedEq
  have nonempty : object ≠ [] := by
    rw [bracedEq]
    exact List.cons_ne_nil _ _
  have isWord : Lexeme.IsWord "default".toList := by decide
  obtain ⟨-, wordFits⟩ := fits
  have valueFits := wordFits.2
  obtain ⟨rest, spaced⟩ := exists_lay_valueEnd newline nonempty after
  have breaks := breaksWord_of_space spaced
  obtain ⟨wordPasses, meets⟩ := meets_word isWord breaks wordFits
  have readBy : ReadBy newline dialect text
      ((within dialect text 1).read (.expression .tail)) object := by
    rw [← objectEq]
    exact readBy_items options (by decide)
      (readBy_sharedSnippets options m metadata)
  have value := reads_valueEnd readBy valueFits
  have opens : MeetsMark (lay newline (valueEnd object) after) "\x7b" := by
    have isOpening : isLone '\x7b' = true := by decide
    rw [bracedEq] at valueFits ⊢
    exact meetsMark_lone rfl isOpening valueFits
  refine reads_export isWord (by decide) breaks ?_ wordFits ?_ passes
  · rw [lay_spacedMark]
    exact goesOnAt_of_ends (fun operator => by cases dialect <;> rfl) rfl
  · exact reads_exportTail_default meets (wordPasses false) opens value

/-- The export of a story with a free name is read as a statement. -/
theorem reads_exportSnippets
    {story : NamedEntry}
    (free : IsFreeName story.identifier)
    (fits : AllFit newline dialect text (exportSnippets options m story) after)
    (passes : Passes true before
      (lay newline (exportSnippets options m story) after)) :
    Reads text (within dialect text 1).statementRule before after := by
  unfold exportSnippets at fits passes
  generalize renderEq :
    copy (.value 1 .tail) (renderText options m story) = render at fits passes
  have isWord : Lexeme.IsWord "const".toList := by decide
  obtain ⟨-, constFits⟩ := fits
  have nameFits := constFits.2
  have equalsFits := nameFits.2
  have valueFits := equalsFits.2
  have readBy : ReadBy newline dialect text
      ((within dialect text 1).read (.expression .tail)) [render] := by
    rw [← renderEq]
    exact ReadBy.copy (.value 1 .tail) _
  have value := reads_valueEnd readBy valueFits
  obtain ⟨rest, spaced⟩ :=
    exists_lay_valueEnd newline (List.cons_ne_nil render []) after
  obtain ⟨equalsMeets, equalsReads⟩ := meets_equals spaced equalsFits
  have nameBreaks := breaksWord_of_space
    (lay_spacedMark newline "=" (valueEnd [render]) after)
  obtain ⟨namePasses, nameMeets⟩ := meets_word free.isWord nameBreaks nameFits
  have breaks := breaksWord_of_space (lay_spacedMark newline story.identifier
    (spacedMark "=" :: valueEnd [render]) after)
  obtain ⟨constPasses, constMeets⟩ := meets_word isWord breaks constFits
  refine reads_export isWord (by decide) breaks ?_ constFits ?_ passes
  · rw [lay_spacedMark]
    exact goesOnAt_of_ends (fun operator => by cases dialect <;> rfl) rfl
  · exact reads_exportTail_const free nameMeets (namePasses false) equalsMeets
      equalsReads value constMeets (constPasses false)

/-- The assignment to the export of a story is read as a statement. -/
theorem reads_annotationSnippets
    {story : NamedEntry}
    (free : IsFreeName story.identifier)
    (isWord : Lexeme.IsWord options.storyProperty.toList)
    (fits : AllFit newline dialect text (annotationSnippets options m story)
      after)
    (passes : Passes true before
      (lay newline (annotationSnippets options m story) after)) :
    Reads text (within dialect text 1).statementRule before after := by
  unfold annotationSnippets at fits passes
  generalize objectEq : objectLiteral options.layout
    ((ownSnippets options m story).map .filled) 0 = object at fits passes
  have nonempty : object ≠ [] := by
    rw [← objectEq]
    exact objectLiteral_ne_nil _ _ _
  obtain ⟨-, -, propertyFits⟩ := fits
  have equalsFits := propertyFits.2
  have valueFits := equalsFits.2
  obtain ⟨depth, levelEq, deeperEq⟩ := exists_within dialect text
    (show 1 ≤ 60 by decide)
  have readBy : ReadBy newline dialect text
      ((within dialect text 3).read (.expression .tail)) object := by
    rw [← objectEq]
    exact readBy_items options (by decide) (readBy_ownSnippets options m story)
  have value := reads_valueEnd readBy valueFits
  obtain ⟨rest, spaced⟩ := exists_lay_valueEnd newline nonempty after
  obtain ⟨equalsMeets, equalsReads⟩ := meets_equals spaced equalsFits
  have propertyBreaks := breaksWord_of_space
    (lay_spacedMark newline "=" (valueEnd object) after)
  have met := meets_word isWord propertyBreaks propertyFits
  generalize namedEq : lay newline (⟨[], options.storyProperty.toList, none⟩ ::
    spacedMark "=" :: valueEnd object) after = named at met
  obtain ⟨propertyPasses, propertyMeets⟩ := met
  have owner : IsOwner story.identifier ('.' :: named) := by
    obtain ⟨c, list, listEq⟩ := List.exists_cons_of_ne_nil isWord.nonempty
    refine ⟨free, c, list ++ lay newline (spacedMark "=" :: valueEnd object)
      after, ?_, isWord.unbroken c (by rw [listEq]; exact List.mem_cons_self),
      isWord.noDigit c (by rw [listEq]; rfl)⟩
    rw [← namedEq, lay_own, listEq]
    rfl
  have pointEq : lay newline (mark story.identifier :: mark "." ::
      mark options.storyProperty :: spacedMark "=" :: valueEnd object) after =
        story.identifier.toList ++ '.' :: named := by
    rw [lay_mark, lay_mark, Snippet.mark, namedEq]
    rfl
  rw [pointEq] at passes
  have statement := reads_expressionStatement_assignment owner propertyMeets
    (propertyPasses false) equalsMeets equalsReads value deeperEq
  rw [levelEq]
  exact reads_statementRule passes free.isWord owner.breaks
    (owner.point.sign_refused (by decide)) (owner.reads_wordStatement statement)

end Story
end StoryMigration
