import StoryMigration.Proofs.DifferenceLines

/-!
# Differences that apply

The lines of a difference keep their ends. All of them are ended but the last one, or but the last line
of the one text where lines of the other text stand in its place. With that exception a difference applies:
it is cut into its lines again, and they take the one text to the other.
-/

namespace StoryMigration
namespace Diff

/-! ## Lines that are not ended -/

/-- A change whose last line of the one text is not ended and has lines of the other text behind it. -/
def Part.Joins : Part String → Prop
  | .kept _ => False
  | .changed before after => after ≠ [] ∧ ∃ last ∈ before.getLast?, ¬Ended last.toList

theorem AllEnded.of_append {lines others : List (List Char)} (ended : AllEnded (lines ++ others))
    (present : others ≠ []) : ∀ line ∈ lines, Ended line := by
  obtain ⟨other, rest, rfl⟩ := List.exists_cons_of_ne_nil present
  exact fun line mem => (List.pairwise_append.1 ended).2.2 line mem other List.mem_cons_self

theorem AllEnded.exists_last {lines : List String} (ended : AllEnded (charLines lines))
    {content : List Char} (mem : content ∈ charLines lines) (unended : ¬Ended content) :
    ∃ last ∈ lines.getLast?, last.toList = content := by
  obtain rfl | ⟨front, last, rfl⟩ := lines.eq_nil_or_concat
  · cases mem
  rw [List.concat_eq_append] at ended mem ⊢
  rw [charLines_append] at ended mem
  obtain mem | mem := List.mem_append.1 mem
  · exact absurd (ended.of_append (List.cons_ne_nil _ _) content mem) unended
  · exact ⟨last, List.getLast?_concat, (List.mem_singleton.1 mem).symm⟩

variable {joins : Prop}

theorem Part.pairwise_signedLines {part : Part String} (before : AllEnded (charLines part.before))
    (after : AllEnded (charLines part.after)) (joining : part.Joins → joins) :
    part.signedLines.Pairwise fun line _ => Ended line ∨ (joins ∧ line.head? = some '-') := by
  have behindSign (sign : Char) {lines : List (List Char)} (ended : AllEnded lines) :
      (lines.map (sign :: ·)).Pairwise fun line _ =>
        Ended line ∨ (joins ∧ line.head? = some '-') :=
    List.pairwise_map.2 (ended.imp fun ended => Or.inl (ended.cons sign))
  cases part with
  | kept lines => exact behindSign ' ' before
  | changed left right =>
    refine List.pairwise_append.2 ⟨behindSign '-' before, behindSign '+' after, ?_⟩
    intro line mem next inRight
    obtain ⟨content, among, rfl⟩ := List.mem_map.1 mem
    by_cases ended : Ended content
    · exact Or.inl (ended.cons '-')
    · obtain ⟨last, isLast, rfl⟩ := before.exists_last among ended
      have present : right ≠ [] := by
        rintro rfl
        cases inRight
      exact Or.inr ⟨joining ⟨present, last, isLast, ended⟩, rfl⟩

/-- In front of other parts all lines of a part are ended. -/
theorem Part.ended_signedLines {part : Part String} {parts : List (Part String)}
    (apart : (part :: parts).IsChain Part.Apart) (proper : ∀ part ∈ parts, part.Proper)
    (before : AllEnded (charLines part.before ++ charLines (parts.flatMap Part.before)))
    (after : AllEnded (charLines part.after ++ charLines (parts.flatMap Part.after)))
    (present : parts ≠ []) : ∀ line ∈ part.signedLines, Ended line := by
  obtain ⟨next, others, rfl⟩ := List.exists_cons_of_ne_nil present
  have side {side : Part String → List String} (items : side next ≠ []) :
      charLines ((next :: others).flatMap side) ≠ [] := by
    simpa [charLines, List.flatMap_cons] using fun none => absurd none items
  have nextProper := proper next List.mem_cons_self
  cases part with
  | kept lines =>
    intro line mem
    obtain ⟨content, among, rfl⟩ := List.mem_map.1 mem
    obtain items | items := nextProper
    · exact (before.of_append (side items) content among).cons ' '
    · exact (after.of_append (side items) content among).cons ' '
  | changed left right =>
    -- no change stands next to another one, so what comes next stands in both texts
    have kept : next.before = next.after := by
      obtain isChange | isKept := apart.rel
      · exact Bool.noConfusion isChange
      · cases next with
        | kept items => rfl
        | changed items others => exact Bool.noConfusion isKept
    have items : next.before ≠ [] := nextProper.elim id fun items => kept ▸ items
    refine List.forall_mem_append.2 ⟨fun line mem => ?_, fun line mem => ?_⟩
    · obtain ⟨content, among, rfl⟩ := List.mem_map.1 mem
      exact (before.of_append (side items) content among).cons '-'
    · obtain ⟨content, among, rfl⟩ := List.mem_map.1 mem
      exact (after.of_append (side (kept ▸ items)) content among).cons '+'

/-- All lines of an alignment are ended but the last one, and the last ones that a change leaves out. -/
theorem pairwise_signedLines {parts : List (Part String)} (apart : parts.IsChain Part.Apart)
    (proper : ∀ part ∈ parts, part.Proper)
    (before : AllEnded (charLines (parts.flatMap Part.before)))
    (after : AllEnded (charLines (parts.flatMap Part.after)))
    (joining : ∀ part ∈ parts, part.Joins → joins) :
    (parts.flatMap Part.signedLines).Pairwise fun line _ =>
      Ended line ∨ (joins ∧ line.head? = some '-') := by
  induction parts with
  | nil => exact .nil
  | cons part parts ih =>
    rw [List.forall_mem_cons] at proper joining
    rw [List.flatMap_cons, charLines_append] at before after
    obtain ⟨beforeHere, beforeRest, -⟩ := List.pairwise_append.1 before
    obtain ⟨afterHere, afterRest, -⟩ := List.pairwise_append.1 after
    rw [List.flatMap_cons, List.pairwise_append]
    refine ⟨part.pairwise_signedLines beforeHere afterHere joining.1,
      ih apart.tail proper.2 beforeRest afterRest joining.2, ?_⟩
    intro line mem next inRest
    have present : parts ≠ [] := by
      rintro rfl
      cases inRest
    exact Or.inl (Part.ended_signedLines apart proper.2 before after present line mem)

theorem pairwise_lines {holds : List Char → Prop} {hunks : List Hunk}
    (header : ∀ hunk ∈ hunks, holds (headerLine hunk)) (present : ∀ hunk ∈ hunks, hunk.body ≠ [])
    (body : (hunks.flatMap Hunk.body).Pairwise fun line _ => holds line) :
    (hunks.flatMap Hunk.lines).Pairwise fun line _ => holds line := by
  induction hunks with
  | nil => exact .nil
  | cons hunk hunks ih =>
    rw [List.forall_mem_cons] at header present
    rw [List.flatMap_cons, List.pairwise_append] at body
    obtain ⟨here, rest, across⟩ := body
    rw [List.flatMap_cons, Hunk.lines, List.cons_append]
    refine .cons (fun _ _ => header.1)
      (List.pairwise_append.2 ⟨here, ih header.2 present.2 rest, fun line mem next inRest => ?_⟩)
    obtain ⟨other, among, _⟩ := List.mem_flatMap.1 inRest
    obtain ⟨first, inBody⟩ := List.exists_mem_of_ne_nil _ (present.2 other among)
    exact across line mem first (List.mem_flatMap.2 ⟨other, among, inBody⟩)

variable {before after : String}

theorem proper_of_mem_alignment :
    ∀ part ∈ alignment (linesOf before) (linesOf after), part.Proper :=
  proper_of_mem_align _ _ _ _

/-- Lines of the one text stand in place of the last line of the other, which is not ended. -/
def JoinsLines (before after : String) : Prop :=
  ∃ part ∈ alignment (linesOf before) (linesOf after), part.Joins

theorem JoinsLines.exists_changed (joins : JoinsLines before after) :
    ∃ left right last, .changed left right ∈ alignment (linesOf before) (linesOf after) ∧
      right ≠ [] ∧ last ∈ left.getLast? ∧ ¬Ended last.toList := by
  obtain ⟨part, among, joins⟩ := joins
  cases part with
  | kept lines => exact joins.elim
  | changed left right =>
    obtain ⟨present, last, isLast, unended⟩ := joins
    exact ⟨left, right, last, among, present, isLast, unended⟩

theorem pairwise_differenceLines :
    (differenceLines before after).Pairwise fun line _ =>
      Ended line ∨ (JoinsLines before after ∧ line.head? = some '-') := by
  have beforeEnded : AllEnded (charLines (linesOf before)) := by
    rw [charLines_linesOf]
    exact allEnded_linesOfChars _
  have afterEnded : AllEnded (charLines (linesOf after)) := by
    rw [charLines_linesOf]
    exact allEnded_linesOfChars _
  rw [← flatMap_before_alignment before after] at beforeEnded
  rw [← flatMap_after_alignment before after] at afterEnded
  have parts := pairwise_signedLines (isChain_align _ _ _ _) proper_of_mem_alignment beforeEnded
    afterEnded fun part mem joins => (⟨part, mem, joins⟩ : JoinsLines before after)
  exact pairwise_lines (fun hunk _ => Or.inl (ended_headerLine hunk))
    (body_ne_nil proper_of_mem_alignment) (parts.sublist (body_hunks_sublist _))

theorem signedLines_sublist_differenceLines {part : Part String}
    (among : part ∈ alignment (linesOf before) (linesOf after)) (isChange : part.isChange = true) :
    part.signedLines.Sublist (differenceLines before after) := by
  have inHunks := List.mem_filter.2 ⟨among, isChange⟩
  rw [← changes_hunks] at inHunks
  obtain ⟨hunk, amongHunks, mem⟩ := List.mem_flatMap.1 inHunks
  have inBody : part.signedLines.Sublist hunk.body :=
    List.sublist_flatten_of_mem (List.mem_map_of_mem (List.mem_of_mem_filter mem))
  have inLines : hunk.lines.Sublist (differenceLines before after) :=
    List.sublist_flatten_of_mem (List.mem_map_of_mem amongHunks)
  exact (inBody.trans (List.sublist_cons_self _ _)).trans inLines

/-- All lines of a difference but the last one are ended, unless a line that is not ended has other lines
in its place. -/
theorem allEnded_differenceLines_iff :
    AllEnded (differenceLines before after) ↔ ¬JoinsLines before after := by
  constructor
  · intro ended joins
    obtain ⟨left, right, last, among, present, isLast, unended⟩ := joins.exists_changed
    obtain ⟨first, mem⟩ := List.exists_mem_of_ne_nil _ present
    have inLeft : last.toList ∈ charLines left :=
      List.mem_map_of_mem (List.mem_of_mem_getLast? isLast)
    have inRight : first.toList ∈ charLines right := List.mem_map_of_mem mem
    have lines := ended.sublist (signedLines_sublist_differenceLines among rfl)
    have signed := (List.pairwise_append.1 lines).2.2 _ (List.mem_map_of_mem inLeft) _
      (List.mem_map_of_mem inRight)
    have one : OneLine last.toList := oneLine_of_mem_side among (Or.inl inLeft)
    exact unended ((ended_cons_iff one.ne_nil).1 signed)
  · intro apart
    exact pairwise_differenceLines.imp fun ended => ended.resolve_right fun joins => apart joins.1

theorem patchedLines?_differenceLines :
    patchedLines? (linesOfChars before.toList) (differenceLines before after) =
      some (linesOfChars after.toList) := by
  have covers := covers_hunks (alignment (linesOf before) (linesOf after))
  rw [flatMap_before_alignment, flatMap_after_alignment] at covers
  rw [← charLines_linesOf, ← charLines_linesOf]
  exact covers.patchedLines

/-! ## Applying the difference of two texts -/

theorem differenceLines_present (different : before ≠ after) :
    hunks (alignment (linesOf before) (linesOf after)) ≠ [] := by
  rw [Ne, hunks_eq_nil_iff, forall_isChange_alignment_iff]
  exact mt (@linesOf_injective before after) different

theorem unified_eq_empty_iff {path : String} : unified before after path = "" ↔ before = after := by
  constructor
  · intro empty
    by_contra different
    have chars := toList_unified (differenceLines_present different) path
    rw [empty] at chars
    simp [namesText] at chars
  · rintro rfl
    have none : hunks (alignment (linesOf before) (linesOf before)) = [] :=
      hunks_eq_nil_iff.2 isChange_of_mem_alignment_self
    rw [unified, none]

theorem bodyLines?_unified (different : before ≠ after) (path : String) :
    bodyLines? path (unified before after path) =
      some (linesOfChars (differenceLines before after).flatten) := by
  have text := toList_unified (differenceLines_present different) path
  rw [bodyLines?, List.dropPrefix?_eq_some_iff.2 ⟨_, text, BEq.rfl⟩]
  rfl

theorem signed_of_mem_body {line : List Char}
    (mem : line ∈ linesOfChars (differenceLines before after).flatten) :
    ∃ sign ∈ signs, line.head? = some sign := by
  obtain ⟨joined, among, same⟩ := exists_head_eq (Signed.joinable signed_differenceLines) mem
  obtain ⟨-, sign, isSign, head⟩ := signed_differenceLines joined among
  exact ⟨sign, isSign, same ▸ head⟩

/-- Where lines are joined, the line that is left out is not the one that stands in the text. -/
theorem patchedLines?_of_joins (joins : JoinsLines before after) :
    patchedLines? (linesOfChars before.toList)
      (linesOfChars (differenceLines before after).flatten) = none := by
  have unended := mt allEnded_differenceLines_iff.1 (not_not.2 joins)
  obtain ⟨front, line, rest, more, others, lines, present, isOpen, grown, cut⟩ :=
    exists_grown_line (Signed.joinable signed_differenceLines) unended
  have applies := @patchedLines?_differenceLines before after
  have pairs := @pairwise_differenceLines before after
  rw [lines] at applies pairs
  obtain ⟨next, mem⟩ := List.exists_mem_of_ne_nil _ present
  have leftOut : line.head? = some '-' :=
    ((List.pairwise_cons.1 (List.pairwise_append.1 pairs).2.1).1 next mem).resolve_left isOpen |>.2
  obtain ⟨content, rfl⟩ := List.head?_eq_some_iff.1 leftOut
  rw [cut]
  exact patchedLines?_longer (by rw [applies]; rfl) grown

theorem patchedLines?_of_not_joins (apart : ¬JoinsLines before after) :
    patchedLines? (linesOfChars before.toList)
      (linesOfChars (differenceLines before after).flatten) = some (linesOfChars after.toList) := by
  rw [linesOfChars_flatten (Signed.joinable signed_differenceLines)
    (allEnded_differenceLines_iff.2 apart), patchedLines?_differenceLines]

theorem not_joinsLines_self : ¬JoinsLines before before := by
  intro joins
  obtain ⟨left, right, -, among, -⟩ := joins.exists_changed
  exact Bool.noConfusion (isChange_of_mem_alignment_self _ among)

theorem patched?_of_joins (joins : JoinsLines before after) (path : String) :
    patched? path before (unified before after path) = none := by
  have different : before ≠ after := by
    rintro rfl
    exact not_joinsLines_self joins
  rw [patched?, if_neg (mt unified_eq_empty_iff.1 different), bodyLines?_unified different,
    Option.bind_some, patchedLines?_of_joins joins]
  rfl

theorem patched?_of_not_joins (apart : ¬JoinsLines before after) (path : String) :
    patched? path before (unified before after path) = some after := by
  by_cases same : before = after
  · rw [patched?, if_pos (unified_eq_empty_iff.2 same), same]
  · rw [patched?, if_neg (mt unified_eq_empty_iff.1 same), bodyLines?_unified same,
      Option.bind_some, patchedLines?_of_not_joins apart, Option.map_some, flatten_linesOfChars,
      String.ofList_toList]

/-- A text whose last line lines are joined to is not ended. -/
theorem JoinsLines.not_ended (joins : JoinsLines before after) : ¬Ended before.toList := by
  intro ended
  obtain ⟨left, right, last, among, -, isLast, unended⟩ := joins.exists_changed
  have inText := charLines_subset among Part.before
    (List.mem_map_of_mem (List.mem_of_mem_getLast? isLast))
  rw [flatMap_before_alignment, charLines_linesOf] at inText
  exact unended (ended_of_mem ended _ inText)

/-- The difference of two texts is empty if they are the same, and only then. The lines of any other
one begin with a sign. It takes the one text to the other unless lines stand in place of a last line that
is not ended: then the first of them is joined to that line, and the difference does not apply. -/
theorem unified_applies_iff (original modified path : String) :
    (unified original modified path = "" ↔ original = modified) ∧
      (original = modified ∨
        ∃ body, bodyLines? path (unified original modified path) = some body ∧
          ∀ line ∈ body, ∃ sign ∈ signs, line.head? = some sign) ∧
      (patched? path original (unified original modified path) = some modified ↔
        ¬JoinsLines original modified) ∧
      (patched? path original (unified original modified path) = none ↔
        JoinsLines original modified) ∧
      (JoinsLines original modified → ¬Ended original.toList) := by
  refine ⟨unified_eq_empty_iff, ?_, ?_, ?_, JoinsLines.not_ended⟩
  · by_cases same : original = modified
    · exact Or.inl same
    · exact Or.inr ⟨_, bodyLines?_unified same path, fun line => signed_of_mem_body⟩
  · refine ⟨fun applies joins => ?_, fun apart => patched?_of_not_joins apart path⟩
    rw [patched?_of_joins joins path] at applies
    cases applies
  · refine ⟨fun stuck => ?_, fun joins => patched?_of_joins joins path⟩
    by_contra apart
    rw [patched?_of_not_joins apart path] at stuck
    cases stuck

/-- A line without an end, and the line in its place behind it. -/
theorem unified_joins_lines :
    unified "a" "b\n" "file" = "--- a/file\n+++ b/file\n@@ -1 +1 @@\n-a+b\n" ∧
      patched? "file" "a" (unified "a" "b\n" "file") ≠ some "b\n" := by
  decide +kernel

end Diff
end StoryMigration
