import Mathlib.Data.List.TakeWhile
import StoryMigration.Proofs.Splice
import StoryMigration.Source.Residual

/-!
# Residual roots are whole lines

A residual root is recognised at the start of a line and never beyond its end,
as the registration function has a name on one line.  What is removed with the
residual roots of a text are whole lines of it, each of which begins like one.
-/

namespace StoryMigration
namespace Residual

open Syntax Utf8

variable {name bytes rest : List UInt8}

/-! ## What a root begins with -/

theorem eq_append_of_behind?
    {front : List UInt8}
    (found : behind? front bytes = some rest) :
    bytes = front ++ rest := by
  fun_induction behind? front bytes with
  | case1 bytes => rw [Option.some.inj found, List.nil_append]
  | case2 => contradiction
  | case3 front b bytes bytesHypothesis =>
    rw [bytesHypothesis found, List.cons_append]
  | case4 => contradiction

/-- The front of some bytes in front of the rest is on one line. -/
def OnLine (bytes rest : List UInt8) : Prop :=
  ∃ front, bytes = front ++ rest ∧ 0x0a ∉ front

theorem OnLine.refl
    (bytes : List UInt8) :
    OnLine bytes bytes :=
  ⟨[], rfl, List.not_mem_nil⟩

theorem OnLine.trans
    {middle : List UInt8}
    (first : OnLine bytes middle)
    (second : OnLine middle rest) :
    OnLine bytes rest := by
  obtain ⟨front, rfl, frontLine⟩ := first
  obtain ⟨back, rfl, backLine⟩ := second
  refine ⟨front ++ back, (List.append_assoc _ _ _).symm, fun member => ?_⟩
  rcases List.mem_append.1 member with inFront | inBack
  · exact frontLine inFront
  · exact backLine inBack

theorem onLine_of_behind?
    {front : List UInt8}
    (oneLine : 0x0a ∉ front)
    (found : behind? front bytes = some rest) :
    OnLine bytes rest :=
  ⟨front, eq_append_of_behind? found, oneLine⟩

theorem onLine_dropWhile
    {test : UInt8 → Bool}
    (noFeed : test 0x0a = false)
    (bytes : List UInt8) :
    OnLine bytes (bytes.dropWhile test) := by
  refine ⟨bytes.takeWhile test, List.takeWhile_append_dropWhile.symm,
    fun member => ?_⟩
  rw [List.mem_takeWhile_imp member] at noFeed
  contradiction

theorem onLine_of_behindSome?
    {test : UInt8 → Bool}
    (noFeed : test 0x0a = false)
    (found : behindSome? test bytes = some rest) :
    OnLine bytes rest := by
  cases bytes with
  | nil => contradiction
  | cons b bytes =>
    unfold behindSome? at found
    simp only at found
    split at found
    · rename_i holds
      rw [← Option.some.inj found]
      have whole := onLine_dropWhile noFeed (b :: bytes)
      rwa [List.dropWhile_cons_of_pos holds] at whole
    · contradiction

theorem onLine_of_behindKeyword?
    (found : behindKeyword? bytes = some rest) :
    OnLine bytes rest := by
  unfold behindKeyword? at found
  simp only [Option.orElse_eq_orElse, Option.orElse_eq_or, Option.or_eq_some_iff]
    at found
  rcases found with isConst | ⟨-, isLet | ⟨-, isVar⟩⟩
  · exact onLine_of_behind? (by decide) isConst
  · exact onLine_of_behind? (by decide) isLet
  · exact onLine_of_behind? (by decide) isVar

theorem onLine_of_startsCall
    {call : List UInt8}
    (oneLine : 0x0a ∉ call)
    (found : startsCall call bytes = some rest) :
    OnLine bytes rest := by
  fun_induction startsCall call bytes with
  | case1 => exact onLine_of_behind? oneLine found
  | case2 b bytes more here =>
    rw [← Option.some.inj found]
    exact onLine_of_behind? oneLine here
  | case3 b bytes none isGap bytesHypothesis =>
    have noFeed : b ≠ 0x0a := by
      rintro rfl
      contradiction
    refine OnLine.trans ⟨[b], rfl, ?_⟩ (bytesHypothesis found)
    simpa using noFeed.symm
  | case4 => contradiction

/-- A residual root begins on one line. -/
theorem onLine_of_behindRoot?
    (oneLine : 0x0a ∉ name)
    (found : behindRoot? name bytes = some rest) :
    OnLine bytes rest := by
  unfold behindRoot? at found
  simp only [Option.bind_eq_bind, Option.bind_eq_some_iff] at found
  obtain ⟨keyword, isKeyword, blank, isBlank, word, isWord, equals, isEquals,
    isCall⟩ := found
  have call : 0x0a ∉ name ++ [0x28] := by
    rw [List.mem_append, not_or]
    exact ⟨oneLine, by decide⟩
  have gap (bytes : List UInt8) : OnLine bytes (bytes.dropWhile isGap) :=
    onLine_dropWhile rfl bytes
  exact (gap bytes).trans <| (onLine_of_behindKeyword? isKeyword).trans <|
    (onLine_of_behindSome? rfl isBlank).trans <|
    (onLine_of_behindSome? rfl isWord).trans <| (gap word).trans <|
    (onLine_of_behind? (by decide) isEquals).trans <|
    onLine_of_startsCall call isCall

/-! ## Lines -/

/-- Length of the first line of some bytes, without its line feed. -/
def lineLength (bytes : List UInt8) : Nat :=
  (bytes.takeWhile (· != 0x0a)).length

theorem lineLength_le
    (bytes : List UInt8) :
    lineLength bytes ≤ bytes.length :=
  (List.takeWhile_prefix _).length_le

theorem ne_feed_of_lt_lineLength
    {offset : Nat}
    (inside : offset < lineLength bytes) :
    bytes[offset]? ≠ some 0x0a := by
  intro feed
  rw [← List.takeWhile_append_dropWhile (p := (· != 0x0a)) (l := bytes),
    List.getElem?_append_left inside] at feed
  have noFeed := List.mem_takeWhile_imp (List.mem_of_getElem? feed)
  contradiction

theorem feed_at_lineLength
    (inside : lineLength bytes < bytes.length) :
    bytes[lineLength bytes]? = some 0x0a := by
  unfold lineLength at inside ⊢
  induction bytes with
  | nil => exact absurd inside (Nat.lt_irrefl _)
  | cons b bytes bytesHypothesis =>
    by_cases isFeed : b = 0x0a
    · rw [isFeed]
      rfl
    · rw [List.takeWhile_cons_of_pos (by simpa using isFeed)] at inside ⊢
      exact bytesHypothesis (Nat.lt_of_succ_lt_succ inside)

theorem OnLine.lineLength_eq
    (onLine : OnLine bytes rest) :
    bytes.length - rest.length + lineLength rest = lineLength bytes := by
  obtain ⟨front, rfl, oneLine⟩ := onLine
  unfold lineLength
  rw [List.takeWhile_append_of_pos, List.length_append, List.length_append,
    Nat.add_sub_cancel]
  intro b member
  rw [bne_iff_ne]
  rintro rfl
  exact oneLine member

/-- The lines of a text are tried one after another. -/
theorem matchesFrom_succ
    (oneLine : 0x0a ∉ name)
    (fuel offset : Nat)
    (bytes : List UInt8) :
    matchesFrom name (fuel + 1) offset bytes =
      (if (behindRoot? name bytes).isSome then
        [⟨offset, offset + (bytes.takeWhile isGap).length,
          offset + min (lineLength bytes + 1) bytes.length⟩]
      else []) ++
        if lineLength bytes < bytes.length then
          matchesFrom name fuel (offset + (lineLength bytes + 1))
            (bytes.drop (lineLength bytes + 1))
        else [] := by
  rw [matchesFrom]
  cases found : behindRoot? name bytes with
  | none => rfl
  | some rest =>
    have used := (onLine_of_behindRoot? oneLine found).lineLength_eq
    unfold lineLength at used
    simp only [used]
    unfold lineLength
    simp only [Option.isSome_some, if_true, List.singleton_append]
    congr 1
    split
    · rename_i inside
      rw [Nat.min_eq_left inside]
    · rfl

/-- One line of some bytes, with its line feed if it has one. -/
structure IsLine (bytes : List UInt8) (start stop : Nat) : Prop where
  ordered : start ≤ stop
  inside : stop ≤ bytes.length
  starts : start = 0 ∨ bytes[start - 1]? = some 0x0a
  stops : stop = bytes.length ∨ bytes[stop - 1]? = some 0x0a
  oneLine : ∀ offset, start ≤ offset → offset + 1 < stop →
    bytes[offset]? ≠ some 0x0a

/-- A line that begins like a residual root. -/
structure IsRoot (name bytes : List UInt8) (root : Match) : Prop where
  line : IsLine bytes root.start root.stop
  begins : (behindRoot? name (bytes.drop root.start)).isSome = true

/-- The first line behind the start of a line. -/
theorem isLine_first
    {offset : Nat}
    (inside : offset ≤ bytes.length)
    (starts : offset = 0 ∨ bytes[offset - 1]? = some 0x0a) :
    IsLine bytes offset (offset +
      min (lineLength (bytes.drop offset) + 1) (bytes.drop offset).length) := by
  have lineLe := lineLength_le (bytes.drop offset)
  rw [List.length_drop] at lineLe ⊢
  refine ⟨by omega, by omega, starts, ?_, fun other startLe ltStop => ?_⟩
  · by_cases ended : lineLength (bytes.drop offset) < (bytes.drop offset).length
    · have feed := feed_at_lineLength ended
      rw [List.length_drop] at ended
      rw [List.getElem?_drop] at feed
      right
      rw [← feed]
      congr 1
      omega
    · rw [List.length_drop] at ended
      left
      omega
  · have inside : other - offset < lineLength (bytes.drop offset) := by omega
    have noFeed := ne_feed_of_lt_lineLength inside
    rwa [List.getElem?_drop, Nat.add_sub_cancel' startLe] at noFeed

/-- The residual roots behind the start of a line are lines that begin like
one, one behind the other. -/
theorem matchesFrom_lines
    (oneLine : 0x0a ∉ name)
    (fuel : Nat)
    {offset : Nat}
    (inside : offset ≤ bytes.length)
    (starts : offset = 0 ∨ bytes[offset - 1]? = some 0x0a) :
    (∀ root ∈ matchesFrom name fuel offset (bytes.drop offset),
        IsRoot name bytes root ∧ offset ≤ root.start) ∧
      (matchesFrom name fuel offset (bytes.drop offset)).Pairwise
        fun a b => a.stop ≤ b.start := by
  induction fuel generalizing offset with
  | zero => exact ⟨fun _ isRoot => absurd isRoot List.not_mem_nil, .nil⟩
  | succ fuel fuelHypothesis =>
    have line := isLine_first inside starts
    rw [matchesFrom_succ oneLine]
    generalize restEq : (if lineLength (bytes.drop offset) <
      (bytes.drop offset).length then _ else _ : List Match) = rest
    have later : (∀ root ∈ rest, IsRoot name bytes root ∧
          offset + min (lineLength (bytes.drop offset) + 1)
            (bytes.drop offset).length ≤ root.start) ∧
        rest.Pairwise fun a b => a.stop ≤ b.start := by
      split at restEq
      · rename_i ended
        have feed := feed_at_lineLength ended
        rw [List.getElem?_drop] at feed
        rw [Nat.min_eq_left ended]
        rw [List.drop_drop] at restEq
        rw [← restEq]
        rw [List.length_drop] at ended
        exact fuelHypothesis (by omega) (.inr feed)
      · rw [← restEq]
        exact ⟨fun _ isRoot => absurd isRoot List.not_mem_nil, .nil⟩
    obtain ⟨restRoots, restInTurn⟩ := later
    split
    · rename_i begins
      refine ⟨fun root isRoot => ?_, ?_⟩
      · rcases List.mem_cons.1 isRoot with rfl | isLater
        · exact ⟨⟨line, begins⟩, Nat.le_refl _⟩
        · obtain ⟨isRoot, behind⟩ := restRoots root isLater
          exact ⟨isRoot, Nat.le_trans line.ordered behind⟩
      · exact .cons (fun root isLater => (restRoots root isLater).2) restInTurn
    · refine ⟨fun root isRoot => ?_, restInTurn⟩
      obtain ⟨isRoot, behind⟩ := restRoots root isRoot
      exact ⟨isRoot, Nat.le_trans line.ordered behind⟩

/-- The residual roots of a text are lines that begin like one, one behind the
other. -/
theorem roots_lines
    (oneLine : 0x0a ∉ name)
    (bytes : List UInt8) :
    (∀ root ∈ roots name bytes, IsRoot name bytes root) ∧
      (roots name bytes).Pairwise fun a b => a.stop ≤ b.start := by
  obtain ⟨areRoots, inTurn⟩ := matchesFrom_lines oneLine (bytes.length + 1)
    (Nat.zero_le bytes.length) (.inl rfl)
  exact ⟨fun root isRoot => (areRoots root isRoot).1, inTurn⟩

/-- Lines that have a place in common begin at the same place. -/
theorem IsLine.start_eq
    {start stop first last offset : Nat}
    (line : IsLine bytes start stop)
    (other : IsLine bytes first last)
    (startLe : start ≤ offset)
    (ltStop : offset < stop)
    (firstLe : first ≤ offset)
    (ltLast : offset < last) :
    start = first := by
  rcases Nat.lt_trichotomy start first with before | same | behind
  · have startsLine := other.starts.resolve_left (by omega)
    exact absurd startsLine (line.oneLine (first - 1) (by omega) (by omega))
  · exact same
  · have startsLine := line.starts.resolve_left (by omega)
    exact absurd startsLine (other.oneLine (start - 1) (by omega) (by omega))

/-! ## A text without its residual roots -/

/-- The bytes of a residual root. -/
def Match.span (root : Match) : Span := ⟨root.start, root.stop⟩

/-- The removal of a residual root. -/
def Match.removal (root : Match) : Edit := .removal root.start root.stop

/-- An end of some bytes, or a place behind a line feed. -/
def AtLine (bytes : List UInt8) (offset : Nat) : Prop :=
  offset = 0 ∨ offset = bytes.length ∨ bytes[offset - 1]? = some 0x0a

theorem IsLine.atLine
    {start stop : Nat}
    (line : IsLine bytes start stop) :
    AtLine bytes start ∧ AtLine bytes stop :=
  ⟨line.starts.imp_right .inr, .inr line.stops⟩

theorem AtLine.boundary
    {offset : Nat}
    (atLine : AtLine bytes offset)
    (text : IsText bytes) :
    IsBoundary bytes offset := by
  rcases Nat.eq_zero_or_pos offset with zero | positive
  · rw [zero]
    exact text.boundary_zero
  · rcases atLine with zero | whole | feed
    · rw [zero]
      exact text.boundary_zero
    · rw [whole]
      exact text.boundary_length
    · have boundary := (text.boundaries_of_ascii feed (by decide)).2
      rwa [Nat.sub_add_cancel positive] at boundary

/-- A name on one line has no line feed among its bytes. -/
theorem noFeed_of_oneLine
    {name : String}
    (oneLine : '\n' ∉ name.toList) :
    0x0a ∉ ofString name := by
  rw [ofString, mem_encode_iff (b := 0x0a) (c := '\n') rfl (by decide)]
  exact oneLine

/-- An edit that removes a line. -/
structure RemovesLine (bytes : List UInt8) (edit : Edit) : Prop where
  fits : edit.Fits bytes.length
  places : AtLine bytes edit.span.start ∧ AtLine bytes edit.span.stop
  empty : edit.replacement = []

theorem removesLine_of_roots
    {gone : List Match}
    (areRoots : ∀ root ∈ gone, IsRoot name bytes root) :
    ∀ edit ∈ gone.map Match.removal, RemovesLine bytes edit := by
  intro edit isEdit
  obtain ⟨root, isRoot, rfl⟩ := List.mem_map.1 isEdit
  have line := (areRoots root isRoot).line
  exact ⟨⟨Int.natCast_nonneg _, Int.ofNat_le.2 line.ordered,
    Int.ofNat_le.2 line.inside⟩, line.atLine, rfl⟩

/-- Taking out residual roots, one behind the other, cannot fail. -/
theorem exists_apply_removals
    {gone : List Match}
    (source : String)
    (areRoots : ∀ root ∈ gone, IsRoot name (ofString source) root)
    (inTurn : gone.Pairwise fun a b => a.stop ≤ b.start) :
    (gone.map Match.removal).Pairwise Edit.Apart ∧
      ∃ stripped,
        Edit.apply (ofString source) (gone.map Match.removal) = .ok stripped ∧
        ofString stripped = Edit.woven (ofString source)
          (Edit.ascending (gone.map Match.removal)) 0 (ofString source).length := by
  have removes := removesLine_of_roots areRoots
  have apart : (gone.map Match.removal).Pairwise Edit.Apart := by
    rw [List.pairwise_map]
    exact inTurn.imp fun ordered => .inl (Int.ofNat_le.2 ordered)
  have fits (edit : Edit) (isEdit : edit ∈ gone.map Match.removal) :=
    (removes edit isEdit).fits
  have encodable (edit : Edit) (isEdit : edit ∈ gone.map Match.removal) :
      edit.replacement.toChars?.isSome = true := by
    rw [(removes edit isEdit).empty]
    rfl
  obtain ⟨stripped, applied, bytesEq⟩ := Edit.apply_of_apart
    (.ofString source) apart fits
    (fun edit isEdit => (removes edit isEdit).places.imp
      (·.boundary (.ofString source)) (·.boundary (.ofString source)))
    encodable (Edit.applyBytes_of_apart apart fits encodable)
  exact ⟨apart, stripped, applied, bytesEq⟩

/-- Without residual roots a text has all bytes but theirs. -/
theorem woven_removals_eq_kept
    {gone : List Match}
    (areRoots : ∀ root ∈ gone, IsRoot name bytes root)
    (apart : (gone.map Match.removal).Pairwise Edit.Apart) :
    Edit.woven bytes (Edit.ascending (gone.map Match.removal)) 0 bytes.length =
      kept bytes (gone.map Match.span) 0 bytes.length := by
  have removes (edit : Edit)
      (isEdit : edit ∈ Edit.ascending (gone.map Match.removal)) :=
    removesLine_of_roots areRoots edit (Edit.mem_ascending.1 isEdit)
  rw [Edit.woven_removals bytes (Nat.zero_le _)
    (Edit.ascending_pairwise apart fun edit isEdit =>
      (removes edit (Edit.mem_ascending.2 isEdit)).fits)
    (fun edit isEdit => (removes edit isEdit).fits)
    (fun edit _ => Nat.zero_le _) fun edit isEdit => (removes edit isEdit).empty]
  apply kept_congr
  intro offset _ _
  have spans : gone.map Match.span = (gone.map Match.removal).map Edit.span := by
    rw [List.map_map]
    rfl
  rw [spans]
  exact ((Edit.ascending_perm _).map Edit.span).any_eq

/-- The removals of the residual roots that are code. -/
def removals (literals : List Span) (name bytes : List UInt8) : List Edit :=
  ((roots name bytes).filter (isCode literals)).map Match.removal

/-- Stripping a text applies the removals of its residual roots, if any. -/
theorem strip_eq_apply
    (dialect : Dialect)
    (name source : String) :
    strip dialect name source = Edit.apply (ofString source)
      (removals (literalSpans dialect source) (ofString name)
        (ofString source)) := by
  unfold strip removals
  simp only
  split
  · rename_i noRoots
    rw [noRoots, List.filter_nil, List.map_nil, Edit.apply_nil]
  · split
    · rename_i noEdits
      rw [List.isEmpty_iff] at noEdits
      show _ = Edit.apply _ (((roots _ _).filter _).map fun root =>
        Edit.removal root.start root.stop)
      rw [noEdits, Edit.apply_nil]
    · rfl

/-- Stripping a text removes some of its residual roots, and cannot fail. -/
theorem exists_strip
    {name : String}
    (dialect : Dialect)
    (oneLine : '\n' ∉ name.toList)
    (source : String) :
    ∃ stripped, ∃ gone : List Match,
      strip dialect name source = .ok stripped ∧
      (∀ root ∈ gone, IsRoot (ofString name) (ofString source) root) ∧
      (gone.map Match.removal).Pairwise Edit.Apart ∧
      ofString stripped = Edit.woven (ofString source)
        (Edit.ascending (gone.map Match.removal)) 0 (ofString source).length := by
  obtain ⟨areRoots, inTurn⟩ := roots_lines (noFeed_of_oneLine oneLine)
    (ofString source)
  have sublist := List.filter_sublist
    (l := roots (ofString name) (ofString source))
    (p := isCode (literalSpans dialect source))
  have goneRoots (root : Match) (isRoot : root ∈
      (roots (ofString name) (ofString source)).filter
        (isCode (literalSpans dialect source))) :=
    areRoots root (sublist.subset isRoot)
  obtain ⟨apart, stripped, applied, bytesEq⟩ :=
    exists_apply_removals source goneRoots (inTurn.sublist sublist)
  exact ⟨stripped, _, (strip_eq_apply dialect name source).trans applied,
    goneRoots, apart, bytesEq⟩

section Stripped

variable
  {name source stripped : String}
  {dialect : Dialect}
  (oneLine : '\n' ∉ name.toList)
  (strips : strip dialect name source = .ok stripped)

include oneLine strips

/-- What holds of the bytes between two line ends of a text holds of what is left
of it without its residual roots. -/
theorem strip_of_pieces
    {holds : List UInt8 → Prop}
    (append : ∀ {front back}, holds front → holds back → holds (front ++ back))
    (pieces : ∀ {start stop}, AtLine (ofString source) start →
      AtLine (ofString source) stop → start ≤ stop →
        holds (between (ofString source) start stop)) :
    holds (ofString stripped) := by
  obtain ⟨stripped', gone, strips', areRoots, apart, bytesEq⟩ :=
    exists_strip dialect oneLine source
  rw [strips, Except.ok.injEq] at strips'
  subst strips'
  have removes := removesLine_of_roots areRoots
  have fits (edit : Edit) (isEdit : edit ∈ gone.map Match.removal) :=
    (removes edit isEdit).fits
  have empty : holds [] := by
    have piece := pieces (.inl rfl) (.inl rfl) (Nat.le_refl 0)
    rwa [between, Nat.sub_self, List.take_zero] at piece
  rw [bytesEq]
  refine Edit.woven_of_pieces append pieces (.inl rfl) (.inr (.inl rfl))
    (Nat.zero_le _) (Edit.ascending_pairwise apart fits)
    (fun edit isEdit => fits edit (Edit.mem_ascending.1 isEdit))
    (fun edit _ => Nat.zero_le _)
    (fun edit isEdit => (removes edit (Edit.mem_ascending.1 isEdit)).places)
    fun edit isEdit => ?_
  rw [Edit.bytes, (removes edit (Edit.mem_ascending.1 isEdit)).empty]
  exact empty

/-- A text without its residual roots has all bytes but those of some lines that
begin like one. -/
theorem exists_kept_of_strip :
    ∃ gone : List Match,
      (∀ root ∈ gone, IsRoot (ofString name) (ofString source) root) ∧
      ofString stripped = kept (ofString source) (gone.map Match.span) 0
        (ofString source).length := by
  obtain ⟨stripped', gone, strips', areRoots, apart, bytesEq⟩ :=
    exists_strip dialect oneLine source
  rw [strips, Except.ok.injEq] at strips'
  subst strips'
  exact ⟨gone, areRoots, bytesEq.trans (woven_removals_eq_kept areRoots apart)⟩

/-- A line that begins otherwise stays. -/
theorem between_of_isLine
    {first last : Nat}
    (line : IsLine (ofString source) first last)
    (other : behindRoot? (ofString name) ((ofString source).drop first) = none) :
    ∃ before behind, ofString stripped =
      before ++ between (ofString source) first last ++ behind := by
  obtain ⟨gone, areRoots, bytesEq⟩ := exists_kept_of_strip oneLine strips
  have stays : kept (ofString source) (gone.map Match.span) first last =
      between (ofString source) first last := by
    rw [← kept_nil]
    apply kept_congr
    intro offset firstLe ltLast
    rw [List.any_nil, List.any_eq_false]
    intro span isSpan held
    obtain ⟨root, isRoot, rfl⟩ := List.mem_map.1 isSpan
    obtain ⟨rootLine, begins⟩ := areRoots root isRoot
    rw [Span.holds, Bool.and_eq_true, decide_eq_true_eq, decide_eq_true_eq] at held
    have same : root.start = first :=
      rootLine.start_eq line held.1 held.2 firstLe ltLast
    rw [same, other] at begins
    contradiction
  rw [bytesEq, ← kept_append _ _ (Nat.zero_le first)
    (line.ordered.trans line.inside), ← kept_append _ _ line.ordered line.inside,
    stays]
  exact ⟨_, _, (List.append_assoc _ _ _).symm⟩

/-- A line stays if it does not begin like a residual root. -/
theorem exists_line_of_strip
    {front body back : List UInt8}
    (split : ofString source = front ++ 0x0a :: (body ++ 0x0a :: back))
    (oneBody : 0x0a ∉ body)
    (other : behindRoot? (ofString name) (body ++ 0x0a :: back) = none) :
    ∃ before behind,
      ofString stripped = before ++ (body ++ 0x0a :: behind) := by
  have later (offset : Nat) :
      (ofString source)[front.length + 1 + offset]? =
        (body ++ 0x0a :: back)[offset]? := by
    rw [split, List.getElem?_append_right (by omega),
      show front.length + 1 + offset - front.length = offset + 1 by omega,
      List.getElem?_cons_succ]
  have behindFront : (ofString source).drop (front.length + 1) =
      body ++ 0x0a :: back := by
    rw [split, List.drop_append, List.drop_of_length_le (by omega),
      Nat.add_sub_cancel_left]
    rfl
  have feed : (ofString source)[front.length + 1 + body.length]? = some 0x0a := by
    rw [later, List.getElem?_append_right (Nat.le_refl _), Nat.sub_self]
    rfl
  have inside := (List.getElem?_eq_some_iff.1 feed).1
  have line : IsLine (ofString source) (front.length + 1)
      (front.length + 1 + body.length + 1) := by
    refine ⟨by omega, inside, .inr ?_, .inr feed, fun offset startLe ltStop => ?_⟩
    · rw [split, Nat.add_sub_cancel, List.getElem?_append_right (Nat.le_refl _),
        Nat.sub_self]
      rfl
    · obtain ⟨distance, rfl⟩ := Nat.exists_eq_add_of_le startLe
      rw [later, List.getElem?_append_left (by omega)]
      exact fun isFeed => oneBody (List.mem_of_getElem? isFeed)
  obtain ⟨before, behind, bytesEq⟩ := between_of_isLine oneLine strips line
    (by rw [behindFront, other])
  refine ⟨before, behind, ?_⟩
  rw [bytesEq, between, behindFront,
    show front.length + 1 + body.length + 1 - (front.length + 1) =
      body.length + 1 by omega,
    List.take_length_add_append, List.append_assoc, List.append_assoc]
  rfl

end Stripped

end Residual
end StoryMigration
