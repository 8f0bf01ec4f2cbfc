import Mathlib.Data.List.Flatten
import StoryMigration.Proofs.AlignmentSides
import StoryMigration.Proofs.PatchReading

/-!
# Hunks of an alignment

The hunks of an alignment cover both texts. They have the lines of the alignment in their order, less
some that are kept, and all of its changes.
-/

namespace StoryMigration
namespace Diff

/-- Lines that both texts have may stand in front of what hunks cover. -/
theorem Covers.behind {passed made place place' : Nat} {hunks : List Hunk}
    {before after : List String} (covers : Covers place place' hunks before after)
    (gap : List String) (startsBefore : place = passed + gap.length)
    (startsAfter : place' = made + gap.length) :
    Covers passed made hunks (gap ++ before) (gap ++ after) := by
  cases covers with
  | rest => exact .rest passed made _
  | hunk before after covers =>
    subst startsBefore startsAfter
    rw [← List.append_assoc, ← List.append_assoc, ← List.append_assoc, ← List.append_assoc]
    exact .hunk (by rw [before, List.length_append, Nat.add_assoc])
      (by rw [after, List.length_append, Nat.add_assoc]) covers

/-- A hunk covers the texts from its start on. -/
theorem Covers.start (hunk : Hunk) {hunks : List Hunk} {before after : List String}
    (covers : Covers (hunk.before + hunk.beforeCount) (hunk.after + hunk.afterCount) hunks before
      after) :
    Covers hunk.before hunk.after (hunk :: hunks) (hunk.parts.flatMap Part.before ++ before)
      (hunk.parts.flatMap Part.after ++ after) :=
  have noGap : Covers hunk.before hunk.after (hunk :: hunks)
      ([] ++ hunk.parts.flatMap Part.before ++ before)
      ([] ++ hunk.parts.flatMap Part.after ++ after) := .hunk rfl rfl covers
  noGap

/-- The changes of a hunk. -/
def Hunk.changes (hunk : Hunk) : List (Part String) := hunk.parts.filter Part.isChange

theorem Hunk.hasChange_eq_false_iff {hunk : Hunk} :
    hunk.hasChange = false ↔ ∀ part ∈ hunk.parts, part.isChange = false := by
  rw [Hunk.hasChange, List.any_eq_false]
  refine forall₂_congr fun part _ => ?_
  cases part <;> simp [Part.isChange]

theorem Hunk.changes_eq_nil_iff {hunk : Hunk} : hunk.changes = [] ↔ hunk.hasChange = false := by
  rw [Hunk.changes, List.filter_eq_nil_iff, Hunk.hasChange_eq_false_iff]
  exact forall₂_congr fun part _ => Bool.eq_false_iff.symm

/-- Hunks without a change can be left out. -/
theorem Covers.filter {passed made : Nat} {hunks : List Hunk} {before after : List String}
    (covers : Covers passed made hunks before after) :
    Covers passed made (hunks.filter Hunk.hasChange) before after := by
  induction covers with
  | rest => exact .rest _ _ _
  | @hunk passed made hunk hunks gap before after startsBefore startsAfter covers ih =>
    rw [List.filter_cons]
    split
    · exact .hunk startsBefore startsAfter ih
    next kept =>
      have same : hunk.parts.flatMap Part.before = hunk.parts.flatMap Part.after :=
        flatMap_before_eq_after (Hunk.hasChange_eq_false_iff.1 (Bool.eq_false_iff.2 kept))
      rw [← same]
      refine ih.behind _ ?_ ?_
      · rw [List.length_append, ← Nat.add_assoc, ← startsBefore, Hunk.beforeCount]
      · rw [List.length_append, ← Nat.add_assoc, ← startsAfter, Hunk.afterCount, same]

theorem covers_hunksFrom (hunk : Hunk) (parts : List (Part String)) :
    Covers hunk.before hunk.after (hunksFrom hunk parts)
      ((hunk.parts ++ parts).flatMap Part.before) ((hunk.parts ++ parts).flatMap Part.after) := by
  fun_induction hunksFrom hunk parts with
  | case1 hunk => simpa using Covers.start hunk (.rest _ _ [])
  | case2 hunk before after rest ih => simpa using ih
  | case3 hunk lines rest kept last =>
    have covers := Covers.start (kept (lines.take context)) (.rest _ _ (lines.drop context))
    simpa [kept, List.isEmpty_iff.1 last, Part.before, Part.after] using covers
  | case4 hunk lines rest kept more long whole skipped ih =>
    have size : ((lines.drop context).take skipped).length = skipped := by
      rw [List.length_take, List.length_drop]
      omega
    have last : lines.drop (lines.length - context) = (lines.drop context).drop skipped := by
      rw [List.drop_drop]
      congr 1
      omega
    have split (others : List String) : lines.take context ++ ((lines.drop context).take skipped ++
        (lines.drop (lines.length - context) ++ others)) = lines ++ others := by
      rw [last, ← List.append_assoc ((lines.drop context).take skipped), List.take_append_drop,
        ← List.append_assoc, List.take_append_drop]
    have covers := Covers.start whole
      (ih.behind ((lines.drop context).take skipped) (by rw [size]) (by rw [size]))
    simpa [whole, kept, Part.before, Part.after, split] using covers
  | case5 hunk lines rest kept more short ih => simpa [kept] using ih

/-- The hunks of an alignment cover both texts. -/
theorem covers_hunks (parts : List (Part String)) :
    Covers 0 0 (hunks parts) (parts.flatMap Part.before) (parts.flatMap Part.after) := by
  refine Covers.filter ?_
  split
  next lines rest =>
    have split (others : List String) : lines.take (lines.length - context) ++
        (lines.drop (lines.length - context) ++ others) = lines ++ others := by
      rw [← List.append_assoc, List.take_append_drop]
    have covers : Covers 0 0 _ _ _ := (covers_hunksFrom ⟨lines.length - context, lines.length - context,
      [.kept (lines.drop (lines.length - context))]⟩ rest).behind
      (lines.take (lines.length - context)) (by simp) (by simp)
    simpa [Part.before, Part.after, split] using covers
  · exact covers_hunksFrom ⟨0, 0, []⟩ parts

/-! ## Lines and changes -/

theorem signedLines_kept_sublist {lines others : List String} (sublist : lines.Sublist others) :
    (Part.kept lines).signedLines.Sublist (Part.kept others).signedLines :=
  (sublist.map _).map _

theorem body_hunksFrom_sublist (hunk : Hunk) (parts : List (Part String)) :
    ((hunksFrom hunk parts).flatMap Hunk.body).Sublist
      ((hunk.parts ++ parts).flatMap Part.signedLines) := by
  fun_induction hunksFrom hunk parts with
  | case1 hunk => simp [Hunk.body]
  | case2 hunk before after rest ih => simpa using ih
  | case3 hunk lines rest kept last =>
    simpa [kept, List.isEmpty_iff.1 last, Hunk.body] using
      signedLines_kept_sublist (List.take_sublist context lines)
  | case4 hunk lines rest kept more long whole skipped ih =>
    have ends : (lines.take context ++ lines.drop (lines.length - context)).Sublist lines := by
      conv_rhs => rw [← List.take_append_drop context lines]
      exact (List.Sublist.refl _).append (List.drop_sublist_drop_left lines (by omega))
    have signed : ((Part.kept (lines.take context)).signedLines ++
        (Part.kept (lines.drop (lines.length - context))).signedLines).Sublist
        (Part.kept lines).signedLines := by
      simpa [Part.signedLines, charLines] using signedLines_kept_sublist ends
    have first : whole.body = hunk.body ++ (Part.kept (lines.take context)).signedLines := by
      simp [whole, kept, Hunk.body]
    have parts : (hunk.parts ++ .kept lines :: rest).flatMap Part.signedLines =
        hunk.body ++ ((Part.kept lines).signedLines ++ rest.flatMap Part.signedLines) := by
      simp [Hunk.body]
    rw [List.flatMap_cons, parts, first, List.append_assoc]
    refine (List.Sublist.refl _).append (((List.Sublist.refl _).append ih).trans ?_)
    rw [List.flatMap_append, List.flatMap_cons, List.flatMap_nil, List.append_nil,
      ← List.append_assoc]
    exact signed.append (List.Sublist.refl _)
  | case5 hunk lines rest kept more short ih => simpa [kept] using ih

/-- The lines of hunks are lines of the alignment, in their order. -/
theorem body_hunks_sublist (parts : List (Part String)) :
    ((hunks parts).flatMap Hunk.body).Sublist (parts.flatMap Part.signedLines) := by
  refine (List.filter_sublist.flatMap Hunk.body).trans ?_
  split
  next lines rest =>
    refine (body_hunksFrom_sublist _ rest).trans ?_
    rw [List.flatMap_append, List.flatMap_cons, List.flatMap_nil, List.append_nil, List.flatMap_cons]
    exact (signedLines_kept_sublist (List.drop_sublist _ _)).append (List.Sublist.refl _)
  · exact body_hunksFrom_sublist ⟨0, 0, []⟩ parts

theorem changes_hunksFrom (hunk : Hunk) (parts : List (Part String)) :
    (hunksFrom hunk parts).flatMap Hunk.changes = (hunk.parts ++ parts).filter Part.isChange := by
  fun_induction hunksFrom hunk parts with
  | case1 hunk => simp [Hunk.changes]
  | case2 hunk before after rest ih => simpa using ih
  | case3 hunk lines rest kept last =>
    simp [kept, List.isEmpty_iff.1 last, Hunk.changes, Part.isChange]
  | case4 hunk lines rest kept more long whole skipped ih =>
    simp [ih, whole, kept, Hunk.changes, Part.isChange]
  | case5 hunk lines rest kept more short ih => simpa [kept] using ih

theorem flatMap_changes_filter (all : List Hunk) :
    (all.filter Hunk.hasChange).flatMap Hunk.changes = all.flatMap Hunk.changes := by
  induction all with
  | nil => rfl
  | cons hunk all ih =>
    rw [List.filter_cons, List.flatMap_cons]
    split
    · rw [List.flatMap_cons, ih]
    next kept => rw [ih, Hunk.changes_eq_nil_iff.2 (Bool.eq_false_iff.2 kept), List.nil_append]

/-- Hunks have all changes of the alignment. -/
theorem changes_hunks (parts : List (Part String)) :
    (hunks parts).flatMap Hunk.changes = parts.filter Part.isChange := by
  refine (flatMap_changes_filter _).trans ?_
  split
  next lines rest =>
    rw [changes_hunksFrom]
    rfl
  · exact changes_hunksFrom ⟨0, 0, []⟩ parts

theorem exists_mem_changes {parts : List (Part String)} {hunk : Hunk} (among : hunk ∈ hunks parts) :
    ∃ part ∈ parts, part ∈ hunk.changes := by
  have changed : hunk.hasChange = true := by
    unfold hunks at among
    exact (List.mem_filter.1 among).2
  have present : hunk.changes ≠ [] := fun none =>
    Bool.noConfusion (changed.symm.trans (Hunk.changes_eq_nil_iff.1 none))
  obtain ⟨part, mem⟩ := List.exists_mem_of_ne_nil _ present
  have inHunks := List.mem_flatMap.2 ⟨hunk, among, mem⟩
  rw [changes_hunks] at inHunks
  exact ⟨part, List.mem_of_mem_filter inHunks, mem⟩

/-- There are no hunks where nothing is changed, and only there. -/
theorem hunks_eq_nil_iff {parts : List (Part String)} :
    hunks parts = [] ↔ ∀ part ∈ parts, part.isChange = false := by
  constructor
  · intro none
    have changes := changes_hunks parts
    rw [none, List.flatMap_nil, eq_comm, List.filter_eq_nil_iff] at changes
    exact fun part mem => Bool.eq_false_iff.2 (changes part mem)
  · intro kept
    refine List.eq_nil_iff_forall_not_mem.2 fun hunk among => ?_
    obtain ⟨part, inParts, mem⟩ := exists_mem_changes among
    exact Bool.eq_false_iff.1 (kept part inParts) (List.mem_filter.1 mem).2

theorem Part.Proper.signedLines_ne_nil {part : Part String} (proper : part.Proper) :
    part.signedLines ≠ [] := by
  cases part <;>
    simpa [Part.signedLines, charLines, Part.Proper, Part.before, Part.after, imp_iff_not_or]
      using proper

theorem body_ne_nil {parts : List (Part String)} (proper : ∀ part ∈ parts, part.Proper) :
    ∀ hunk ∈ hunks parts, hunk.body ≠ [] := by
  intro hunk among none
  obtain ⟨part, inParts, mem⟩ := exists_mem_changes among
  exact (proper part inParts).signedLines_ne_nil
    (List.flatMap_eq_nil_iff.1 none part (List.mem_of_mem_filter mem))

end Diff
end StoryMigration
