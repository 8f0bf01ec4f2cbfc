import Mathlib.Data.List.DropRight
import StoryMigration.Proofs.GeneratedEndings

/-!
# Lines that are moved

The lines of two texts one behind the other are those of the first and of the
second, with one line made of the last of these and the first of those.  Moving
lines changes white space at their starts only, so a text that is moved can be
cut in front of or behind any character that is no white space, and its parts
moved by themselves.
-/

namespace StoryMigration

open Syntax

/-! ## Lines one behind the other -/

/-- Lines with others behind them, the first of which goes on where the last one
ends. -/
def glued : List (List Char) → List (List Char) → List (List Char)
  | [], others => others
  | [last], [] => [last]
  | [last], other :: others => (last ++ other) :: others
  | line :: next :: lines, others => line :: glued (next :: lines) others

theorem glued_cons_cons
    (line next : List Char)
    (lines others : List (List Char)) :
    glued (line :: next :: lines) others = line :: glued (next :: lines) others := rfl

theorem linesOf_cons
    {c : Char}
    {text line : List Char}
    {lines : List (List Char)}
    (linesEq : linesOf text = line :: lines) :
    linesOf (c :: text) =
      if c == '\n' then [] :: line :: lines else (c :: line) :: lines := by
  rw [linesOf, linesEq]

theorem linesOf_append
    (front back : List Char) :
    linesOf (front ++ back) = glued (linesOf front) (linesOf back) := by
  obtain ⟨other, others, backEq⟩ := List.exists_cons_of_ne_nil (linesOf_ne_nil back)
  induction front with
  | nil =>
    rw [List.nil_append, backEq]
    rfl
  | cons c front frontHypothesis =>
    obtain ⟨line, lines, frontEq⟩ :=
      List.exists_cons_of_ne_nil (linesOf_ne_nil front)
    rw [frontEq, backEq] at frontHypothesis
    rw [linesOf_cons frontEq, backEq, List.cons_append]
    cases lines with
    | nil =>
      rw [linesOf_cons frontHypothesis]
      split <;> rfl
    | cons next lines =>
      rw [linesOf_cons frontHypothesis]
      split <;> rfl

theorem getLast?_glued
    {lines : List (List Char)}
    (someLines : lines ≠ [])
    (other : List Char) :
    ∃ last, (glued lines [other]).getLast? = some (last ++ other) := by
  induction lines with
  | nil => contradiction
  | cons line lines linesHypothesis =>
    cases lines with
    | nil => exact ⟨line, rfl⟩
    | cons next lines =>
      obtain ⟨last, isLast⟩ := linesHypothesis (List.cons_ne_nil _ _)
      refine ⟨last, ?_⟩
      rw [glued_cons_cons, List.getLast?_cons, isLast, Option.getD_some]

theorem intercalate_glued
    {lines others : List (List Char)}
    (someLines : lines ≠ [])
    (someOthers : others ≠ []) :
    ['\n'].intercalate (glued lines others) =
      ['\n'].intercalate lines ++ ['\n'].intercalate others := by
  obtain ⟨other, others, rfl⟩ := List.exists_cons_of_ne_nil someOthers
  induction lines with
  | nil => contradiction
  | cons line lines linesHypothesis =>
    cases lines with
    | nil =>
      rw [List.intercalate_singleton]
      cases others with
      | nil => rw [glued, List.intercalate_singleton, List.intercalate_singleton]
      | cons next others =>
        rw [glued, List.intercalate_cons_cons, List.intercalate_cons_cons,
          List.append_assoc, List.append_assoc, List.append_assoc]
    | cons next lines =>
      have rest := linesHypothesis (List.cons_ne_nil _ _)
      have someRest : glued (next :: lines) (other :: others) ≠ [] := by
        cases lines <;> exact List.cons_ne_nil _ _
      rw [glued_cons_cons, List.intercalate_cons_of_ne_nil someRest, rest,
        List.intercalate_cons_cons]
      simp only [List.append_assoc]

/-- A text without line feeds is one line. -/
theorem linesOf_of_free
    {text : List Char}
    (free : '\n' ∉ text) :
    linesOf text = [text] := by
  induction text with
  | nil => rfl
  | cons c text textHypothesis =>
    rw [List.mem_cons, not_or] at free
    rw [linesOf_cons (textHypothesis free.2), if_neg (by simpa using Ne.symm free.1)]

/-- Lines without line feeds are those of the text that they make up. -/
theorem linesOf_intercalate
    {lines : List (List Char)}
    (someLines : lines ≠ [])
    (free : ∀ line ∈ lines, '\n' ∉ line) :
    linesOf (['\n'].intercalate lines) = lines := by
  induction lines with
  | nil => contradiction
  | cons line lines linesHypothesis =>
    have lineEq := linesOf_of_free (free line List.mem_cons_self)
    cases lines with
    | nil => rwa [List.intercalate_singleton]
    | cons next lines =>
      have rest := linesHypothesis (List.cons_ne_nil _ _)
        fun other isOther => free other (List.mem_cons_of_mem _ isOther)
      rw [List.intercalate_cons_cons, List.append_assoc, linesOf_append, lineEq,
        List.singleton_append, linesOf_cons rest, if_pos (by rfl)]
      simp [glued]

/-! ## Moving lines -/

namespace Layout

variable {base indent : List Char}

/-- Lines with all but the first moved. -/
def movedBehindFirst (base indent : List Char) : List (List Char) → List (List Char)
  | [] => []
  | first :: rest => first :: rest.map (movedLine base indent)

theorem movedLines_eq
    (base indent text : List Char) :
    movedLines base indent text = movedBehindFirst base indent (linesOf text) := by
  unfold movedLines
  cases linesOf text <;> rfl

/-- A text with all lines but the first moved. -/
def movedText (base indent text : List Char) : List Char :=
  ['\n'].intercalate (movedLines base indent text)

/-- The front of a line that is not only white space, moved. -/
def shiftedFront (base indent front : List Char) : List Char :=
  match after? base front with
  | some rest => indent ++ rest
  | none => indent ++ front.dropWhile isWhite

/-- Lines with the last one changed in another way than the others. -/
def mapButLast (change last : List Char → List Char) :
    List (List Char) → List (List Char)
  | [] => []
  | [line] => [last line]
  | line :: next :: lines => change line :: mapButLast change last (next :: lines)

/-- A text in front of a character that is no white space, moved: its last line
goes on. -/
def movedFront (base indent front : List Char) : List Char :=
  match linesOf front with
  | [] => []
  | first :: rest => ['\n'].intercalate
      (first :: mapButLast (movedLine base indent) (shiftedFront base indent) rest)

theorem after?_eq_some_iff
    {front text rest : List Char} :
    after? front text = some rest ↔ text = front ++ rest := by
  refine ⟨Lexeme.eq_append_of_after?, ?_⟩
  rintro rfl
  induction front with
  | nil => rfl
  | cons c front frontHypothesis => rw [List.cons_append, after?, if_pos rfl, frontHypothesis]

/-- White space at the start of a line ends in front of what is none. -/
theorem dropWhile_append_solid
    {c : Char}
    (solid : isWhite c = false)
    (front back : List Char) :
    (front ++ c :: back).dropWhile isWhite =
      front.dropWhile isWhite ++ c :: back := by
  have stays : (c :: back).dropWhile isWhite = c :: back :=
    List.dropWhile_cons_of_neg (by rw [solid]; decide)
  rw [List.dropWhile_append, stays]
  split
  · rename_i none
    rw [List.isEmpty_iff.1 none, List.nil_append]
  · rfl

theorem after?_append_solid
    (white : ∀ c ∈ base, isWhite c = true)
    {front back : List Char}
    {c : Char}
    (solid : isWhite c = false) :
    after? base (front ++ c :: back) =
      (after? base front).map (· ++ c :: back) := by
  cases found : after? base front with
  | some rest =>
    rw [after?_eq_some_iff] at found
    rw [Option.map_some, after?_eq_some_iff, found, List.append_assoc]
  | none =>
    rw [Option.map_none, Option.eq_none_iff_forall_ne_some]
    intro rest foundRest
    rw [after?_eq_some_iff] at foundRest
    rcases List.append_eq_append_iff.1 foundRest with
      ⟨more, baseEq, behind⟩ | ⟨more, frontEq, -⟩
    · cases more with
      | nil =>
        rw [List.append_nil] at baseEq
        rw [after?_eq_some_iff.2 (List.append_nil front ▸ baseEq ▸ rfl :
          front = base ++ [])] at found
        contradiction
      | cons d more =>
        cases behind
        have isWhite := white c (by rw [baseEq]; simp)
        rw [solid] at isWhite
        contradiction
    · rw [frontEq, after?_eq_some_iff.2 rfl] at found
      contradiction

/-- A line with something behind its white space is moved by its front. -/
theorem movedLine_append_solid
    (white : ∀ c ∈ base, isWhite c = true)
    (front back : List Char)
    {c : Char}
    (solid : isWhite c = false) :
    movedLine base indent (front ++ c :: back) =
      shiftedFront base indent front ++ c :: back := by
  have notWhite : (front ++ c :: back).all isWhite = false := by
    rw [List.all_append, List.all_cons, solid, Bool.false_and, Bool.and_false]
  unfold movedLine shiftedFront
  rw [if_neg (by rw [notWhite]; decide), after?_append_solid white solid]
  cases after? base front with
  | some rest =>
    rw [Option.map_some]
    exact (List.append_assoc _ _ _).symm
  | none =>
    rw [Option.map_none]
    exact (congrArg (indent ++ ·) (dropWhile_append_solid solid front back)).trans
      (List.append_assoc _ _ _).symm

theorem movedLine_append_behind
    (white : ∀ c ∈ base, isWhite c = true)
    {line : List Char}
    (some : ∃ c ∈ line, isWhite c = false)
    (back : List Char) :
    movedLine base indent (line ++ back) = movedLine base indent line ++ back := by
  obtain ⟨c, member, solid⟩ := some
  obtain ⟨before, behind, rfl⟩ := List.append_of_mem member
  rw [List.append_assoc, List.cons_append, movedLine_append_solid white _ _ solid,
    movedLine_append_solid white _ _ solid, List.append_assoc, List.cons_append]

/-! ## Texts that are cut -/

/-- Lines that go on are changed like the others if the last one is changed by
its front. -/
theorem map_glued
    {change last : List Char → List Char}
    {lines others : List (List Char)}
    {other : List Char}
    (someLines : lines ≠ [])
    (goesOn : ∀ line, lines.getLast? = some line →
      change (line ++ other) = last line ++ other) :
    (glued lines (other :: others)).map change =
      glued (mapButLast change last lines) (other :: others.map change) := by
  induction lines with
  | nil => contradiction
  | cons line lines linesHypothesis =>
    cases lines with
    | nil =>
      rw [glued, List.map_cons, goesOn line rfl]
      rfl
    | cons next lines =>
      have rest := linesHypothesis (List.cons_ne_nil _ _) fun line isLast =>
        goesOn line (by rw [List.getLast?_cons_cons]; exact isLast)
      rw [glued_cons_cons, List.map_cons, rest]
      cases lines <;> rfl

/-- A text is moved by its parts if the line in which they meet is. -/
theorem movedText_append
    (last : List Char → List Char)
    {front back first other : List Char}
    {rest others : List (List Char)}
    (frontEq : linesOf front = first :: rest)
    (backEq : linesOf back = other :: others)
    (goesOn : ∀ line, rest.getLast? = some line →
      movedLine base indent (line ++ other) = last line ++ other) :
    movedText base indent (front ++ back) =
      ['\n'].intercalate (first :: mapButLast (movedLine base indent) last rest) ++
        movedText base indent back := by
  unfold movedText
  rw [movedLines_eq, movedLines_eq, linesOf_append, frontEq, backEq,
    ← intercalate_glued (List.cons_ne_nil _ _) (by exact List.cons_ne_nil _ _)]
  congr 1
  cases rest with
  | nil => rfl
  | cons next rest =>
    rw [glued_cons_cons, movedBehindFirst, map_glued (List.cons_ne_nil _ _) goesOn]
    cases rest <;> rfl

/-- A text is cut in front of a character that is no white space. -/
theorem movedText_append_solid
    (white : ∀ c ∈ base, isWhite c = true)
    (front back : List Char)
    {c : Char}
    (solid : isWhite c = false) :
    movedText base indent (front ++ c :: back) =
      movedFront base indent front ++ movedText base indent (c :: back) := by
  obtain ⟨first, rest, frontEq⟩ := List.exists_cons_of_ne_nil (linesOf_ne_nil front)
  obtain ⟨other, others, backEq⟩ := List.exists_cons_of_ne_nil (linesOf_ne_nil back)
  have noFeed : (c == '\n') = false := by
    rw [beq_eq_false_iff_ne]
    rintro rfl
    contradiction
  have cEq : linesOf (c :: back) = (c :: other) :: others := by
    rw [linesOf_cons backEq, noFeed]
    rfl
  rw [movedText_append _ frontEq cEq fun line _ =>
    movedLine_append_solid white line other solid]
  unfold movedFront
  rw [frontEq]

theorem mapButLast_self
    (change : List Char → List Char)
    (lines : List (List Char)) :
    mapButLast change change lines = lines.map change := by
  fun_induction mapButLast change change lines <;> simp_all

/-- A text is cut behind a character that is no white space. -/
theorem movedText_append_behind
    (white : ∀ c ∈ base, isWhite c = true)
    (front back : List Char)
    {c : Char}
    (solid : isWhite c = false) :
    movedText base indent (front ++ [c] ++ back) =
      movedText base indent (front ++ [c]) ++ movedText base indent back := by
  obtain ⟨first, rest, frontEq⟩ :=
    List.exists_cons_of_ne_nil (linesOf_ne_nil (front ++ [c]))
  obtain ⟨other, others, backEq⟩ := List.exists_cons_of_ne_nil (linesOf_ne_nil back)
  rw [movedText_append _ frontEq backEq fun line isLast =>
    movedLine_append_behind white ?_ other, mapButLast_self]
  · congr 1
    unfold movedText
    rw [movedLines_eq, frontEq]
    rfl
  · have noFeed : '\n' ∉ [c] := by
      rintro member
      rw [← List.mem_singleton.1 member] at solid
      contradiction
    obtain ⟨last, lastEq⟩ := getLast?_glued (linesOf_ne_nil front) [c]
    rw [← linesOf_of_free noFeed, ← linesOf_append, frontEq, List.getLast?_cons,
      isLast, Option.getD_some, Option.some.injEq] at lastEq
    exact ⟨c, by rw [lastEq]; simp, solid⟩

/-- The first line of a text is not moved. -/
theorem movedText_append_line
    {line : List Char}
    (free : '\n' ∉ line)
    (back : List Char) :
    movedText base indent (line ++ back) = line ++ movedText base indent back := by
  obtain ⟨other, others, backEq⟩ := List.exists_cons_of_ne_nil (linesOf_ne_nil back)
  rw [movedText_append id (linesOf_of_free free) backEq fun _ none => by
    contradiction]
  rw [mapButLast, List.intercalate_singleton]

/-! ## What is kept of a line -/

/-- A line has the content of another one behind its white space, or it is empty
in the place of one that is only white space. -/
structure KeepsContent (line moved : List Char) : Prop where
  content : moved.dropWhile isWhite = line.dropWhile isWhite
  blank : line.all isWhite = true → moved = []

theorem keepsContent_movedLine
    (baseWhite : ∀ c ∈ base, isWhite c = true)
    (indentWhite : ∀ c ∈ indent, isWhite c = true)
    (line : List Char) :
    KeepsContent line (movedLine base indent line) := by
  have behind {front back : List Char} (white : ∀ c ∈ front, isWhite c = true) :
      (front ++ back).dropWhile isWhite = back.dropWhile isWhite :=
    List.dropWhile_append_of_pos white
  unfold movedLine
  split
  · rename_i isBlank
    refine ⟨?_, fun _ => rfl⟩
    rw [List.dropWhile_eq_nil_iff.2 (List.all_eq_true.1 isBlank)]
    rfl
  · rename_i notBlank
    refine ⟨?_, fun isBlank => absurd isBlank notBlank⟩
    split
    · rename_i rest found
      rw [after?_eq_some_iff.1 found, behind baseWhite, behind indentWhite]
    · rw [behind indentWhite, List.dropWhile_idempotent]

theorem feed_notMem_movedLine
    (indentFree : '\n' ∉ indent)
    {line : List Char}
    (free : '\n' ∉ line) :
    '\n' ∉ movedLine base indent line := by
  unfold movedLine
  split
  · exact List.not_mem_nil
  · split
    · rename_i rest found
      rw [after?_eq_some_iff.1 found, List.mem_append, not_or] at free
      rw [List.mem_append, not_or]
      exact ⟨indentFree, free.2⟩
    · rw [List.mem_append, not_or]
      exact ⟨indentFree, fun member => free ((List.dropWhile_sublist _).subset member)⟩

/-- No line of a text has a line feed. -/
theorem feed_notMem_linesOf
    (text : List Char) :
    ∀ line ∈ linesOf text, '\n' ∉ line := by
  induction text with
  | nil => simp [linesOf]
  | cons c text textHypothesis =>
    obtain ⟨line, lines, textEq⟩ := List.exists_cons_of_ne_nil (linesOf_ne_nil text)
    rw [textEq] at textHypothesis
    rw [linesOf_cons textEq]
    split
    · exact List.forall_mem_cons.2 ⟨List.not_mem_nil, textHypothesis⟩
    · rename_i noFeed
      obtain ⟨lineFree, linesFree⟩ := List.forall_mem_cons.1 textHypothesis
      refine List.forall_mem_cons.2 ⟨?_, linesFree⟩
      rw [List.mem_cons, not_or]
      exact ⟨fun same => noFeed (beq_iff_eq.2 same.symm), lineFree⟩

theorem feed_notMem_shiftedFront
    (indentFree : '\n' ∉ indent)
    {front : List Char}
    (free : '\n' ∉ front) :
    '\n' ∉ shiftedFront base indent front := by
  unfold shiftedFront
  split
  · rename_i rest found
    rw [after?_eq_some_iff.1 found, List.mem_append, not_or] at free
    rw [List.mem_append, not_or]
    exact ⟨indentFree, free.2⟩
  · rw [List.mem_append, not_or]
    exact ⟨indentFree, fun member => free ((List.dropWhile_sublist _).subset member)⟩

theorem length_mapButLast
    (change last : List Char → List Char)
    (lines : List (List Char)) :
    (mapButLast change last lines).length = lines.length := by
  fun_induction mapButLast change last lines <;> simp_all

theorem mem_mapButLast
    {change last : List Char → List Char}
    {lines : List (List Char)}
    {line : List Char}
    (isLine : line ∈ mapButLast change last lines) :
    ∃ old ∈ lines, line = change old ∨ line = last old := by
  fun_induction mapButLast change last lines with
  | case1 => contradiction
  | case2 old => exact ⟨old, List.mem_cons_self, .inr (List.mem_singleton.1 isLine)⟩
  | case3 old next lines hypothesis =>
    rcases List.mem_cons.1 isLine with rfl | isLater
    · exact ⟨old, List.mem_cons_self, .inl rfl⟩
    · obtain ⟨other, isOther, same⟩ := hypothesis isLater
      exact ⟨other, List.mem_cons_of_mem _ isOther, same⟩

/-- The front of a text has as many lines as before. -/
theorem length_linesOf_movedFront
    (indentFree : '\n' ∉ indent)
    (front : List Char) :
    (linesOf (movedFront base indent front)).length = (linesOf front).length := by
  obtain ⟨first, rest, frontEq⟩ := List.exists_cons_of_ne_nil (linesOf_ne_nil front)
  have free := feed_notMem_linesOf front
  unfold movedFront
  rw [frontEq] at free ⊢
  rw [linesOf_intercalate (List.cons_ne_nil _ _), List.length_cons, List.length_cons,
    length_mapButLast]
  intro line isLine
  rcases List.mem_cons.1 isLine with rfl | isMoved
  · exact free line List.mem_cons_self
  · obtain ⟨old, isOld, rfl | rfl⟩ := mem_mapButLast isMoved
    · exact feed_notMem_movedLine indentFree (free old (List.mem_cons_of_mem _ isOld))
    · exact feed_notMem_shiftedFront indentFree (free old (List.mem_cons_of_mem _ isOld))

/-- The lines of a text that is moved are its lines, moved. -/
theorem linesOf_movedText
    (indentFree : '\n' ∉ indent)
    (text : List Char) :
    linesOf (movedText base indent text) = movedLines base indent text := by
  obtain ⟨first, rest, textEq⟩ := List.exists_cons_of_ne_nil (linesOf_ne_nil text)
  have free := feed_notMem_linesOf text
  rw [movedText, movedLines_eq, textEq] at *
  refine linesOf_intercalate (List.cons_ne_nil _ _) fun line isLine => ?_
  rcases List.mem_cons.1 isLine with rfl | isMoved
  · exact free line List.mem_cons_self
  · obtain ⟨old, isOld, rfl⟩ := List.mem_map.1 isMoved
    exact feed_notMem_movedLine indentFree (free old (List.mem_cons_of_mem _ isOld))

/-- A text is moved to itself if all its lines but the first are. -/
theorem movedText_eq_self_iff
    (indentFree : '\n' ∉ indent)
    (text : List Char) :
    movedText base indent text = text ↔
      ∀ line ∈ (linesOf text).tail, movedLine base indent line = line := by
  obtain ⟨first, rest, textEq⟩ := List.exists_cons_of_ne_nil (linesOf_ne_nil text)
  have linesEq : movedLines base indent text =
      first :: rest.map (movedLine base indent) := by
    rw [movedLines_eq, textEq]
    rfl
  rw [textEq, List.tail_cons]
  constructor
  · intro same line isLine
    have lines : linesOf (movedText base indent text) =
        movedLines base indent text := linesOf_movedText indentFree text
    rw [same, textEq, linesEq, List.cons.injEq] at lines
    have each : rest.map (movedLine base indent) = rest.map id := by
      rw [List.map_id]
      exact lines.2.symm
    exact List.map_inj_left.1 each line isLine
  · intro each
    rw [movedText, linesEq, List.map_congr_left each, List.map_id', ← textEq,
      intercalate_linesOf]

/-- A line stays as it is if it is empty, or not only white space and the old
indent that it starts with is the new one; where it does not start with the old
one, its white space is. -/
def StaysPut (base indent line : List Char) : Prop :=
  line = [] ∨ line.all isWhite = false ∧
    (base <+: line ∧ indent = base ∨ ¬ base <+: line ∧ line.takeWhile isWhite = indent)

theorem movedLine_eq_self_iff
    (base indent line : List Char) :
    movedLine base indent line = line ↔ StaysPut base indent line := by
  unfold movedLine StaysPut
  by_cases isBlank : line.all isWhite = true
  · rw [if_pos isBlank, isBlank, eq_comm]
    simp
  · have notNil : line ≠ [] := by
      rintro rfl
      exact isBlank rfl
    rw [if_neg isBlank]
    rw [Bool.not_eq_true] at isBlank
    cases found : after? base line with
    | some rest =>
      have lineEq := after?_eq_some_iff.1 found
      have starts : base <+: line := ⟨rest, lineEq.symm⟩
      simp only [notNil, isBlank, starts, false_or, true_and, not_true_eq_false,
        false_and, or_false]
      rw [lineEq]
      exact List.append_left_inj rest
    | none =>
      have noStart : ¬ base <+: line := by
        rintro ⟨rest, lineEq⟩
        rw [after?_eq_some_iff.2 lineEq.symm] at found
        contradiction
      simp only [notNil, isBlank, noStart, false_or, true_and, not_false_eq_true,
        false_and]
      have whole := List.takeWhile_append_dropWhile (p := isWhite) (l := line)
      constructor
      · intro same
        exact (List.append_cancel_right (same.trans whole.symm)).symm
      · rintro rfl
        exact whole

end Layout
end StoryMigration
