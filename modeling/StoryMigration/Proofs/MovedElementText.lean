import StoryMigration.Proofs.MovedLiterals

/-!
# Text between tags in code that is moved

Text between the tags of an element stands for its lines without the spaces and
tabs at their edges, joined by single spaces.  Moving the lines of a node puts
spaces at their starts in the place of white space.  The text means the same
afterwards exactly if nothing else than spaces, tabs and carriage returns is
taken from its lines: other white space belongs to what it means.
-/

namespace StoryMigration

open Syntax Utf8

/-! ## What text between tags means -/

namespace Syntax

/-- Characters that end a line of text between tags. -/
def isBreak (c : Char) : Bool := c == '\n' || c == '\r'

/-- Characters that do not count at the edges of such a line. -/
def isSoft (c : Char) : Bool := c == ' ' || c == '\t'

/-- Characters that text between tags keeps in every place. -/
def isHard (c : Char) : Bool := !(isSoft c || isBreak c)

theorem isHard_eq_false_iff
    {c : Char} :
    isHard c = false ↔ c = ' ' ∨ c = '\t' ∨ c = '\n' ∨ c = '\r' := by
  simp only [isHard, isSoft, isBreak, Bool.not_eq_false', Bool.or_eq_true, beq_iff_eq,
    or_assoc]

/-- A line without the soft characters at both edges. -/
def trimmedLine (line : List Char) : List Char :=
  (line.dropWhile isSoft).rdropWhile isSoft

/-- Lines behind a line break, without the soft characters at their inner edges. -/
def trimmedBehind : List (List Char) → List (List Char)
  | [] => []
  | [last] => [last.dropWhile isSoft]
  | line :: next :: lines => trimmedLine line :: trimmedBehind (next :: lines)

/-- The lines of a text, without the soft characters at their inner edges. -/
def trimmedInside : List (List Char) → List (List Char)
  | [] => []
  | [only] => [only]
  | first :: next :: lines => first.rdropWhile isSoft :: trimmedBehind (next :: lines)

/-- Lines that have something on them. -/
def pieces (lines : List (List Char)) : List (List Char) :=
  lines.filter (!·.isEmpty)

/-- What text between tags means: its lines, trimmed inside, with those left out on
which nothing is left, and a space between two of them. -/
def insetValue (text : List Char) : List Char :=
  [' '].intercalate (pieces (trimmedInside (text.splitOnP isBreak)))

/-- The pieces of a text that stands behind a line break. -/
def piecesBehind (text : List Char) : List (List Char) :=
  pieces (trimmedBehind (text.splitOnP isBreak))

theorem pieces_append
    (lines others : List (List Char)) :
    pieces (lines ++ others) = pieces lines ++ pieces others :=
  List.filter_append _ _

theorem trimmedBehind_cons
    (line : List Char)
    {lines : List (List Char)}
    (someLines : lines ≠ []) :
    trimmedBehind (line :: lines) = trimmedLine line :: trimmedBehind lines := by
  obtain ⟨next, lines, rfl⟩ := List.exists_cons_of_ne_nil someLines
  rfl

theorem trimmedBehind_append
    (lines : List (List Char))
    {others : List (List Char)}
    (someOthers : others ≠ []) :
    trimmedBehind (lines ++ others) = lines.map trimmedLine ++ trimmedBehind others := by
  induction lines with
  | nil => rfl
  | cons line lines linesHypothesis =>
    rw [List.cons_append, trimmedBehind_cons line (by simp [someOthers]),
      linesHypothesis, List.map_cons, List.cons_append]

/-- A text with a line break in it has the pieces of its lines and of what stands
behind the break. -/
theorem piecesBehind_append_feed
    (front back : List Char) :
    piecesBehind (front ++ '\n' :: back) =
      pieces ((front.splitOnP isBreak).map trimmedLine) ++ piecesBehind back := by
  unfold piecesBehind
  rw [List.splitOnP_append_cons front back (by rfl),
    trimmedBehind_append _ (List.splitOnP_ne_nil _ _), pieces_append]

/-- Of what stands behind a line break the text means the pieces. -/
theorem exists_insetValue_append_feed
    (front : List Char) :
    ∃ before, ∀ back, insetValue (front ++ '\n' :: back) =
      [' '].intercalate (before ++ piecesBehind back) := by
  obtain ⟨first, rest, frontEq⟩ :=
    List.exists_cons_of_ne_nil (List.splitOnP_ne_nil isBreak front)
  refine ⟨pieces (first.rdropWhile isSoft :: rest.map trimmedLine), fun back => ?_⟩
  have someLines := List.splitOnP_ne_nil isBreak back
  have inside : trimmedInside (first :: (rest ++ back.splitOnP isBreak)) =
      first.rdropWhile isSoft :: trimmedBehind (rest ++ back.splitOnP isBreak) := by
    obtain ⟨next, lines, restEq⟩ := List.exists_cons_of_ne_nil
      (List.append_ne_nil_of_right_ne_nil rest someLines)
    rw [restEq]
    rfl
  unfold insetValue piecesBehind
  rw [List.splitOnP_append_cons front back (by rfl), frontEq, List.cons_append, inside,
    trimmedBehind_append _ someLines, ← List.cons_append, pieces_append]

/-- White space at the start of a line has no part in what the text means. -/
theorem piecesBehind_append_of_not_hard
    {white : List Char}
    (noneHard : ∀ c ∈ white, isHard c = false)
    (text : List Char) :
    piecesBehind (white ++ text) = piecesBehind text := by
  induction white with
  | nil => rfl
  | cons c white whiteHypothesis =>
    obtain ⟨notHard, noneHard⟩ := List.forall_mem_cons.1 noneHard
    rw [List.cons_append, ← whiteHypothesis noneHard]
    obtain ⟨line, lines, textEq⟩ :=
      List.exists_cons_of_ne_nil (List.splitOnP_ne_nil isBreak (white ++ text))
    unfold piecesBehind
    rw [List.splitOnP_cons_eq_if_modifyHead, textEq]
    split
    · rw [trimmedBehind_cons _ (List.cons_ne_nil _ _)]
      rfl
    · rename_i noBreak
      have soft : isSoft c = true := by
        simpa [isHard, noBreak] using notHard
      have dropped : (c :: line).dropWhile isSoft = line.dropWhile isSoft :=
        List.dropWhile_cons_of_pos soft
      rw [List.modifyHead_cons]
      cases lines with
      | nil => rw [trimmedBehind, trimmedBehind, dropped]
      | cons next lines =>
        rw [trimmedBehind, trimmedBehind, trimmedLine, trimmedLine, dropped]

/-! ### Characters that are kept -/

theorem filter_dropWhile_isSoft
    (line : List Char) :
    (line.dropWhile isSoft).filter isHard = line.filter isHard := by
  have noneHard : (line.takeWhile isSoft).filter isHard = [] := by
    rw [List.filter_eq_nil_iff]
    intro c member
    simp [isHard, List.mem_takeWhile_imp member]
  conv_rhs => rw [← List.takeWhile_append_dropWhile (p := isSoft) (l := line)]
  rw [List.filter_append, noneHard, List.nil_append]

theorem filter_rdropWhile_isSoft
    (line : List Char) :
    (line.rdropWhile isSoft).filter isHard = line.filter isHard := by
  unfold List.rdropWhile
  rw [List.filter_reverse, filter_dropWhile_isSoft, List.filter_reverse,
    List.reverse_reverse]

theorem filter_flatten_trimmedBehind
    (lines : List (List Char)) :
    (trimmedBehind lines).flatten.filter isHard = lines.flatten.filter isHard := by
  fun_induction trimmedBehind lines with
  | case1 => rfl
  | case2 last =>
    simp only [List.flatten_cons, List.flatten_nil, List.append_nil,
      filter_dropWhile_isSoft]
  | case3 line next lines linesHypothesis =>
    rw [List.flatten_cons, List.flatten_cons, List.filter_append, List.filter_append,
      linesHypothesis, trimmedLine, filter_rdropWhile_isSoft, filter_dropWhile_isSoft]

theorem filter_flatten_trimmedInside
    (lines : List (List Char)) :
    (trimmedInside lines).flatten.filter isHard = lines.flatten.filter isHard := by
  fun_cases trimmedInside lines with
  | case1 => rfl
  | case2 only => rfl
  | case3 first next lines =>
    rw [List.flatten_cons, List.flatten_cons, List.filter_append, List.filter_append,
      filter_flatten_trimmedBehind, filter_rdropWhile_isSoft]

theorem flatten_pieces
    (lines : List (List Char)) :
    (pieces lines).flatten = lines.flatten :=
  List.flatten_filter_not_isEmpty

theorem filter_intercalate
    {joint : Char}
    (notHard : isHard joint = false)
    (lines : List (List Char)) :
    ([joint].intercalate lines).filter isHard = lines.flatten.filter isHard := by
  induction lines with
  | nil => rfl
  | cons line lines linesHypothesis =>
    cases lines with
    | nil => simp [List.intercalate_singleton]
    | cons next lines =>
      rw [List.intercalate_cons_cons, List.filter_append, List.filter_append,
        linesHypothesis, List.filter_singleton, notHard, List.flatten_cons,
        List.filter_append]
      simp

theorem filter_flatten_splitOnP
    (text : List Char) :
    (text.splitOnP isBreak).flatten.filter isHard = text.filter isHard := by
  induction text with
  | nil => rfl
  | cons c text textHypothesis =>
    obtain ⟨line, lines, textEq⟩ :=
      List.exists_cons_of_ne_nil (List.splitOnP_ne_nil isBreak text)
    rw [List.splitOnP_cons_eq_if_modifyHead]
    split
    · rename_i isBreak
      rw [List.flatten_cons, List.nil_append, textHypothesis,
        List.filter_cons_of_neg (by simp [isHard, isBreak])]
    · rw [textEq] at textHypothesis ⊢
      rw [List.modifyHead_cons, List.flatten_cons, List.cons_append,
        List.filter_cons, List.filter_cons, ← textHypothesis, List.flatten_cons]

/-- What text means has the characters of the text other than spaces, tabs and line
breaks, in their order. -/
theorem filter_insetValue
    (text : List Char) :
    (insetValue text).filter isHard = text.filter isHard := by
  unfold insetValue
  rw [filter_intercalate (by rfl), flatten_pieces, filter_flatten_trimmedInside,
    filter_flatten_splitOnP]

end Syntax

/-! ## Lines that lose a part -/

namespace Layout

variable {base indent : List Char}

/-- A line comes out without some part at its start, and with spaces in its place. -/
def Loses (line moved part : List Char) : Prop :=
  ∃ spaces rest, moved = spaces ++ rest ∧ line = part ++ rest ∧ ∀ c ∈ spaces, c = ' '

/-- What a line that is not only white space loses: the old indent, or all of its
white space if it does not start with that. -/
def lostIndent (base line : List Char) : List Char :=
  if base.isPrefixOf line then base else line.takeWhile isWhite

/-- What a line loses. -/
def lostPart (base line : List Char) : List Char :=
  if line.all isWhite then line else lostIndent base line

theorem loses_shiftedFront
    (spaces : ∀ c ∈ indent, c = ' ')
    (front : List Char) :
    Loses front (shiftedFront base indent front) (lostIndent base front) := by
  unfold shiftedFront lostIndent
  cases found : after? base front with
  | some rest =>
    have frontEq := after?_eq_some_iff.1 found
    rw [if_pos (by rw [List.isPrefixOf_iff_prefix]; exact ⟨rest, frontEq.symm⟩)]
    exact ⟨indent, rest, rfl, frontEq, spaces⟩
  | none =>
    have noPrefix : ¬ base.isPrefixOf front = true := by
      rw [List.isPrefixOf_iff_prefix]
      rintro ⟨rest, frontEq⟩
      rw [after?_eq_some_iff.2 frontEq.symm] at found
      contradiction
    rw [if_neg noPrefix]
    exact ⟨indent, front.dropWhile isWhite, rfl,
      List.takeWhile_append_dropWhile.symm, spaces⟩

theorem loses_movedLine
    (spaces : ∀ c ∈ indent, c = ' ')
    (line : List Char) :
    Loses line (movedLine base indent line) (lostPart base line) := by
  unfold movedLine lostPart
  by_cases isBlank : line.all isWhite = true
  · rw [if_pos isBlank, if_pos isBlank]
    exact ⟨[], [], rfl, (List.append_nil line).symm, by simp⟩
  · rw [if_neg isBlank, if_neg isBlank]
    exact loses_shiftedFront spaces line

section Lines

variable
  {change last lost lostLast : List Char → List Char}
  (changeLoses : ∀ line, Loses line (change line) (lost line))
  (lastLoses : ∀ line, Loses line (last line) (lostLast line))

theorem mapButLast_ne_nil
    {lines : List (List Char)}
    (someLines : lines ≠ []) :
    mapButLast change last lines ≠ [] := by
  fun_cases mapButLast change last lines <;> simp_all

include changeLoses lastLoses

/-- Lines that lose nothing that counts have the same pieces. -/
theorem piecesBehind_mapButLast
    {lines : List (List Char)}
    (noneHard : ∀ part ∈ mapButLast lost lostLast lines, ∀ c ∈ part, isHard c = false) :
    piecesBehind (['\n'].intercalate (mapButLast change last lines)) =
      piecesBehind (['\n'].intercalate lines) := by
  have without {line moved part : List Char} (loses : Loses line moved part)
      (noneHard : ∀ c ∈ part, isHard c = false) :
      ∃ rest, ∀ text, piecesBehind (moved ++ text) = piecesBehind (rest ++ text) ∧
        piecesBehind (line ++ text) = piecesBehind (rest ++ text) := by
    obtain ⟨spaces, rest, rfl, rfl, allSpaces⟩ := loses
    refine ⟨rest, fun text => ?_⟩
    rw [List.append_assoc, List.append_assoc, piecesBehind_append_of_not_hard noneHard,
      piecesBehind_append_of_not_hard fun c member => by rw [allSpaces c member]; rfl]
    exact ⟨rfl, rfl⟩
  induction lines with
  | nil => rfl
  | cons line lines linesHypothesis =>
    cases lines with
    | nil =>
      obtain ⟨rest, same⟩ := without (lastLoses line)
        (noneHard (lostLast line) (List.mem_singleton.2 rfl))
      obtain ⟨movedEq, lineEq⟩ := same []
      rw [List.append_nil] at movedEq lineEq
      rw [mapButLast, List.intercalate_singleton, List.intercalate_singleton, movedEq,
        lineEq]
    | cons next lines =>
      obtain ⟨lineNone, linesNone⟩ := List.forall_mem_cons.1 noneHard
      obtain ⟨rest, same⟩ := without (changeLoses line) lineNone
      rw [mapButLast, List.intercalate_cons_of_ne_nil
        (mapButLast_ne_nil (List.cons_ne_nil _ _)), List.intercalate_cons_cons,
        List.append_assoc, List.append_assoc, (same _).1, (same _).2,
        List.singleton_append, List.singleton_append, piecesBehind_append_feed,
        piecesBehind_append_feed, linesHypothesis linesNone]

/-- What is lost is missing in the text. -/
theorem countP_mapButLast
    (lines : List (List Char)) :
    (mapButLast change last lines).flatten.countP isHard +
        (mapButLast lost lostLast lines).flatten.countP isHard =
      lines.flatten.countP isHard := by
  have without {line moved part : List Char} (loses : Loses line moved part) :
      moved.countP isHard + part.countP isHard = line.countP isHard := by
    obtain ⟨spaces, rest, rfl, rfl, allSpaces⟩ := loses
    have none : spaces.countP isHard = 0 := by
      rw [List.countP_eq_zero]
      intro c member
      rw [allSpaces c member]
      decide
    rw [List.countP_append, List.countP_append, none]
    omega
  induction lines with
  | nil => rfl
  | cons line lines linesHypothesis =>
    cases lines with
    | nil =>
      simpa only [mapButLast, List.flatten_cons, List.flatten_nil, List.append_nil]
        using without (lastLoses line)
    | cons next lines =>
      have lineEq := without (changeLoses line)
      simp only [mapButLast, List.flatten_cons (l := line), List.flatten_cons,
        List.countP_append] at linesHypothesis ⊢
      omega

/-- Text with lines that lose a part means the same exactly if the parts count for
nothing. -/
theorem insetValue_mapButLast_iff
    (first : List Char)
    (rest : List (List Char)) :
    insetValue (['\n'].intercalate (first :: mapButLast change last rest)) =
        insetValue (['\n'].intercalate (first :: rest)) ↔
      ∀ part ∈ mapButLast lost lostLast rest, ∀ c ∈ part, isHard c = false := by
  constructor
  · intro same part isPart c member
    have kept := congrArg (List.filter isHard) same
    rw [filter_insetValue, filter_insetValue, filter_intercalate (by rfl),
      filter_intercalate (by rfl), List.flatten_cons, List.flatten_cons,
      List.filter_append, List.filter_append, List.append_cancel_left_eq] at kept
    have counts := countP_mapButLast changeLoses lastLoses rest
    rw [List.countP_eq_length_filter, kept, ← List.countP_eq_length_filter] at counts
    have none : (mapButLast lost lostLast rest).flatten.countP isHard = 0 := by omega
    rw [List.countP_eq_zero] at none
    rw [← Bool.not_eq_true]
    exact none c (List.mem_flatten.2 ⟨part, isPart, member⟩)
  · intro noneHard
    cases rest with
    | nil => rfl
    | cons next rest =>
      obtain ⟨before, beforeEq⟩ := exists_insetValue_append_feed first
      rw [List.intercalate_cons_of_ne_nil (mapButLast_ne_nil (List.cons_ne_nil _ _)),
        List.intercalate_cons_cons, List.append_assoc, List.append_assoc,
        List.singleton_append, List.singleton_append, beforeEq, beforeEq,
        piecesBehind_mapButLast changeLoses lastLoses noneHard]

end Lines

/-! ## Text between the tags of a node -/

/-- Text in a node that is moved, with what stands behind it in the node: its last
line goes on there. -/
def movedInset (base indent text back : List Char) : List Char :=
  if back.isEmpty then movedText base indent text else movedFront base indent text

/-- What the lines of such text lose. -/
def lostParts (base text back : List Char) : List (List Char) :=
  mapButLast (lostPart base) (if back.isEmpty then lostPart base else lostIndent base)
    (linesOf text).tail

theorem movedInset_means_same_iff
    (spaces : ∀ c ∈ indent, c = ' ')
    (text back : List Char) :
    insetValue (movedInset base indent text back) = insetValue text ↔
      ∀ part ∈ lostParts base text back, ∀ c ∈ part, isHard c = false := by
  obtain ⟨first, rest, textEq⟩ := List.exists_cons_of_ne_nil (linesOf_ne_nil text)
  have whole : text = ['\n'].intercalate (first :: rest) := by
    rw [← textEq, intercalate_linesOf]
  unfold movedInset lostParts
  rw [textEq, List.tail_cons]
  split
  · have moved : movedText base indent text = ['\n'].intercalate (first ::
        mapButLast (movedLine base indent) (movedLine base indent) rest) := by
      rw [mapButLast_self, movedText, movedLines_eq, textEq]
      rfl
    rw [moved]
    conv_lhs => rw [whole]
    exact insetValue_mapButLast_iff (loses_movedLine spaces) (loses_movedLine spaces)
      first rest
  · have moved : movedFront base indent text = ['\n'].intercalate (first ::
        mapButLast (movedLine base indent) (shiftedFront base indent) rest) := by
      rw [movedFront, textEq]
    rw [moved]
    conv_lhs => rw [whole]
    exact insetValue_mapButLast_iff (loses_movedLine spaces)
      (loses_shiftedFront spaces) first rest

theorem lostIndent_prefix
    (base line : List Char) :
    lostIndent base line <+: line := by
  unfold lostIndent
  split
  · rename_i starts
    exact List.isPrefixOf_iff_prefix.1 starts
  · exact List.takeWhile_prefix _

theorem lostPart_prefix
    (base line : List Char) :
    lostPart base line <+: line := by
  unfold lostPart
  split
  · exact List.prefix_rfl
  · exact lostIndent_prefix base line

/-- No line feeds are lost. -/
theorem feed_notMem_lostParts
    (base text back : List Char) :
    ∀ part ∈ lostParts base text back, '\n' ∉ part := by
  intro part isPart feed
  obtain ⟨line, isLine, lostEq⟩ := mem_mapButLast isPart
  refine feed_notMem_linesOf text line (List.mem_of_mem_tail isLine) ?_
  have starts : part <+: line := by
    rcases lostEq with rfl | rfl
    · exact lostPart_prefix base line
    · split
      · exact lostPart_prefix base line
      · exact lostIndent_prefix base line
  exact starts.subset feed

/-- A text is cut around text between tags. -/
theorem movedText_append_inset
    (white : ∀ c ∈ base, isWhite c = true)
    {front text back : List Char}
    (frontEnds : ∀ c ∈ front.getLast?, isWhite c = false)
    (backStarts : ∀ c ∈ back.head?, isWhite c = false) :
    movedText base indent (front ++ (text ++ back)) =
      movedText base indent front ++
        (movedInset base indent text back ++ movedText base indent back) := by
  have inside : movedText base indent (text ++ back) =
      movedInset base indent text back ++ movedText base indent back := by
    cases back with
    | nil => exact (List.append_nil _).symm ▸ (List.append_nil _).symm
    | cons c back =>
      exact movedText_append_solid white text back (backStarts c rfl)
  rw [← inside]
  rcases List.eq_nil_or_concat front with rfl | ⟨front, c, rfl⟩
  · rfl
  · rw [List.concat_eq_append] at frontEnds ⊢
    exact movedText_append_behind white front (text ++ back)
      (frontEnds c List.getLast?_concat)

theorem space_of_mem_indent
    (layout : Layout)
    (level : Int) :
    ∀ c ∈ (layout.indent level).toList, c = ' ' := by
  intro c member
  rw [indent, String.toList_ofList] at member
  exact List.eq_of_mem_replicate member

/-- Text between tags stands between characters that are no white space, if it is
not at the edge of the node. -/
theorem exists_inset_below
    {dialect : Dialect}
    {source : String}
    {m : Module}
    {node inner : Node}
    (parsed : Module.parse? dialect source = some m)
    (isNode : node ∈ m.tree.preorder)
    (below : inner ∈ node.preorder)
    (isInset : inner.kind = .jsxText) :
    ∃ front back,
      (m.text node).toList = front ++ ((m.text inner).toList ++ back) ∧
        inner.start = node.start + byteLength front ∧
        (∀ c ∈ front.getLast?, isWhite c = false) ∧
        ∀ c ∈ back.head?, isWhite c = false := by
  obtain ⟨front, back, nodeEq, startEq⟩ := Module.exists_text_below parsed isNode below
  obtain ⟨outerFront, outerBack, outerEq, outerStart, -⟩ :=
    Module.exists_text parsed isNode
  obtain ⟨before, behind, textEq, innerStart, innerStop⟩ :=
    Module.exists_text parsed (Node.mem_preorder_trans isNode below)
  obtain ⟨opening, mark, body, rest, insetEq, insetStart, insetStop, ends, closing⟩ :=
    Module.isInset_of_parse? parsed (Node.mem_preorder_trans isNode below) isInset
  -- the place of the text in the source, seen from the node and from its own form
  have placed : (outerFront ++ front) ++
      ((m.text inner).toList ++ (back ++ outerBack)) =
        before ++ ((m.text inner).toList ++ behind) := by
    rw [← textEq, outerEq, nodeEq]
    simp only [List.append_assoc]
  obtain ⟨beforeEq, behindEq⟩ := append_inj_of_byteLength placed
    (by rw [byteLength_append, ← innerStart, startEq, outerStart])
  replace behindEq := List.append_cancel_left behindEq
  have inset : (opening ++ [mark]) ++ (body ++ rest) =
      before ++ ((m.text inner).toList ++ behind) := by
    rw [← textEq, insetEq]
    simp only [List.append_assoc, List.singleton_append]
  obtain ⟨frontEq, backEq⟩ := append_inj_of_byteLength inset
    (by rw [← innerStart, insetStart])
  obtain ⟨-, restEq⟩ := append_inj_of_byteLength backEq (by
    have stopEq : byteLength (before ++ (m.text inner).toList) =
        byteLength (opening ++ [mark] ++ body) := by
      rw [← innerStop, insetStop, List.append_assoc, List.singleton_append]
    rw [frontEq, byteLength_append, byteLength_append] at stopEq
    omega)
  refine ⟨front, back, nodeEq, startEq, fun c isLast => ?_, fun c isHead => ?_⟩
  · have isMark : c = mark := by
      have last : (opening ++ [mark]).getLast? = some c := by
        rw [frontEq, ← beforeEq, List.getLast?_append, isLast]
        rfl
      rw [List.getLast?_append] at last
      exact (Option.some.inj last).symm
    rw [isMark]
    simp only [endsPart, Bool.or_eq_true, beq_iff_eq] at ends
    rcases ends with (rfl | rfl) | rfl <;> decide
  · have notInset := closing c (by
      rw [restEq, ← behindEq, List.head?_append, isHead]
      rfl)
    simp only [Syntax.isInset, Bool.not_eq_false', List.contains_iff_mem] at notInset
    have solid : "<>\x7b\x7d&".toList.all (!isWhite ·) = true := by decide
    exact (Bool.not_eq_true' _).mp (List.all_eq_true.1 solid c notInset)

/-- The part of a node's text that a node below it covers comes out as some text,
and what stands around it in the node comes out moved. -/
structure ComesOutBetween
    (layout : Layout)
    (m : Module)
    (node inner : Node)
    (level : Int)
    (front part back : List Char) : Prop where
  nodeEq : (m.text node).toList = front ++ ((m.text inner).toList ++ back)
  startEq : inner.start = node.start + byteLength front
  movedEq : (layout.node m node level).toList =
    movedText (m.lineIndent node).toList (layout.indent level).toList front ++
      (part ++ movedText (m.lineIndent node).toList (layout.indent level).toList back)

/-- Text between tags that is copied with its node moved stands between the same
texts, moved, and loses white space at the starts of its lines: what stands in the
place of the old indent, all of it on a line that does not start with that, and the
whole line where nothing else is on it.  It means the same exactly if all that it
loses are spaces, tabs and carriage returns; where a node is not moved, nothing
is lost. -/
theorem node_keeps_meaning_of_insets
    {dialect : Dialect}
    {source : String}
    {m : Module}
    {node : Node}
    (layout : Layout)
    (level : Int)
    (parsed : Module.parse? dialect source = some m)
    (isNode : node ∈ m.tree.preorder) :
    ∀ inner ∈ node.preorder, inner.kind = .jsxText →
      (CopiesWhole m node →
        ComesOutAs layout m node inner level (m.text inner).toList) ∧
      (¬ CopiesWhole m node → ∃ front back,
        ComesOutBetween layout m node inner level front
          (movedInset (m.lineIndent node).toList (layout.indent level).toList
            (m.text inner).toList back) back ∧
        (insetValue (movedInset (m.lineIndent node).toList
              (layout.indent level).toList (m.text inner).toList back) =
            insetValue (m.text inner).toList ↔
          ∀ part ∈ lostParts (m.lineIndent node).toList (m.text inner).toList back,
            ∀ c ∈ part, c = ' ' ∨ c = '\t' ∨ c = '\r')) := by
  intro inner below isInset
  refine ⟨comesOutAs_of_copiesWhole layout level parsed isNode below, fun moved => ?_⟩
  obtain ⟨front, back, nodeEq, startEq, frontEnds, backStarts⟩ :=
    exists_inset_below parsed isNode below isInset
  refine ⟨front, back, ⟨nodeEq, startEq, ?_⟩, ?_⟩
  · rw [toList_node moved, nodeEq]
    exact movedText_append_inset (m.isWhite_lineIndent node) frontEnds backStarts
  · rw [movedInset_means_same_iff (layout.space_of_mem_indent level)]
    refine forall₂_congr fun part isPart => forall₂_congr fun c member => ?_
    have noFeed : c ≠ '\n' := by
      rintro rfl
      exact feed_notMem_lostParts _ _ _ part isPart member
    simp only [isHard_eq_false_iff, noFeed, false_or]

set_option maxRecDepth 100000 in
/-- An element over three lines means the same when it is moved. -/
theorem node_keeps_meaning_of_element :
    ∃ m node inner front part back,
      Module.parse? .javascript "f(\n  <b>\n    x y\n  z </b>);\n" = some m ∧
      node ∈ m.tree.preorder ∧ ¬ CopiesWhole m node ∧
      inner ∈ node.preorder ∧ inner.kind = .jsxText ∧
      m.text inner = "\n    x y\n  z " ∧
      ComesOutBetween {} m node inner 1 front part back ∧
      part = "\n      x y\n    z ".toList ∧
      insetValue part = insetValue (m.text inner).toList := by
  generalize sourceEq : "f(\n  <b>\n    x y\n  z </b>);\n" = source
  have checked : (Module.parse? .javascript source).any (fun m =>
      m.tree.preorder.any fun node =>
        m.text node == "f(\n  <b>\n    x y\n  z </b>);" &&
        !m.hasMultilineLiteral node && m.lineIndent node == "" &&
        node.preorder.any fun inner =>
          inner.kind == .jsxText && m.text inner == "\n    x y\n  z ") = true := by
    rw [← sourceEq]
    decide +kernel
  obtain ⟨m, parsed, checked⟩ := (Option.any_eq_true _ _).1 checked
  obtain ⟨node, isNode, checked⟩ := List.any_eq_true.1 checked
  simp only [Bool.and_eq_true, beq_iff_eq, Bool.not_eq_true', List.any_eq_true] at checked
  obtain ⟨⟨⟨text, single⟩, noIndent⟩, inner, below, isText, innerText⟩ := checked
  have moved : ¬ CopiesWhole m node := by
    rintro (free | isMultiline)
    · rw [text] at free
      exact free (by decide)
    · rw [single] at isMultiline
      contradiction
  obtain ⟨front, back, out, same⟩ :=
    (node_keeps_meaning_of_insets {} 1 parsed isNode inner below isText).2 moved
  have someBack : back.isEmpty = false := by
    have nodeEq := out.nodeEq
    cases back with
    | nil =>
      rw [text, innerText, List.append_nil] at nodeEq
      have last := congrArg List.getLast? nodeEq
      rw [List.getLast?_append] at last
      simp at last
    | cons => rfl
  refine ⟨m, node, inner, front, _, back, parsed, isNode, moved, below, isText, innerText,
    out, ?_, same.2 ?_⟩
  · rw [movedInset, someBack, noIndent, innerText]
    decide +kernel
  · have soft : (lostParts (m.lineIndent node).toList (m.text inner).toList
        back).all (·.all fun c => c == ' ' || c == '\t' || c == '\r') = true := by
      rw [lostParts, someBack, noIndent, innerText]
      decide +kernel
    simpa only [List.all_eq_true, Bool.or_eq_true, beq_iff_eq, or_assoc] using soft

set_option maxRecDepth 100000 in
/-- A no-break space at the start of a line is part of what text means, and is lost. -/
theorem node_loses_no_break_space :
    ∃ m node inner,
      Module.parse? .javascript "  f(<b>\n\u00a0x\n  </b>);\n" = some m ∧
      node ∈ m.tree.preorder ∧ inner ∈ node.preorder ∧ inner.kind = .jsxText ∧
      m.text inner = "\n\u00a0x\n  " ∧
      insetValue (m.text inner).toList = "\u00a0x".toList ∧
      ({} : Layout).node m node 0 = "f(<b>\nx\n</b>);" ∧
      '\u00a0' ∉ (({} : Layout).node m node 0).toList := by
  generalize sourceEq : "  f(<b>\n\u00a0x\n  </b>);\n" = source
  have checked : (Module.parse? .javascript source).any (fun m =>
      m.tree.preorder.any fun node =>
        ({} : Layout).node m node 0 == "f(<b>\nx\n</b>);" &&
        node.preorder.any fun inner =>
          inner.kind == .jsxText && m.text inner == "\n\u00a0x\n  ") = true := by
    rw [← sourceEq]
    decide +kernel
  obtain ⟨m, parsed, checked⟩ := (Option.any_eq_true _ _).1 checked
  obtain ⟨node, isNode, checked⟩ := List.any_eq_true.1 checked
  simp only [Bool.and_eq_true, beq_iff_eq, List.any_eq_true] at checked
  obtain ⟨out, inner, below, isText, text⟩ := checked
  refine ⟨m, node, inner, parsed, isNode, below, isText, text, ?_, out, ?_⟩
  · rw [text]
    decide +kernel
  · rw [out]
    decide +kernel

end Layout
end StoryMigration
