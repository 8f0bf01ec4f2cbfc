import Mathlib.Data.List.TakeWhile
import StoryMigration.Proofs.Encoding
import StoryMigration.Source.LineSpan

/-!
# How far a removed statement reaches

The span that goes with a statement grows over white space only: in front back
to the start of its line, behind to the end of a line or of the source.  Two
statements, one behind the other, never claim the same byte, however far each
of them grows, as long as the second starts on a byte that is not blank and
the last line of the first holds one.
-/

namespace StoryMigration
namespace LineSpan

open Syntax Utf8

/-- The bytes from one offset up to another are there, and are blank. -/
def Blank (bytes : List UInt8) (first last : Nat) : Prop :=
  ∀ offset, first ≤ offset → offset < last →
    ∃ b, bytes[offset]? = some b ∧ isBlankByte b = true

/-- No line ends from one offset up to another. -/
def OneLine (bytes : List UInt8) (first last : Nat) : Prop :=
  ∀ offset, first ≤ offset → offset < last → bytes[offset]? ≠ some 0x0a

/-- The byte at an offset is there, and is not blank. -/
def Solid (bytes : List UInt8) (offset : Nat) : Prop :=
  ∃ b, bytes[offset]? = some b ∧ isBlankByte b = false

/-- A span around a node that takes white space only.  It takes what stands in
front of the node on its line or nothing there, and what stands behind it up to
the end of a line or of the source or nothing there. -/
structure Grown
    (bytes : List UInt8)
    (node : Node)
    (span : Span) : Prop where
  before : span.start ≤ node.start
  behind : node.stop ≤ span.stop
  inside : span.stop ≤ bytes.length
  blankBefore : Blank bytes span.start node.start
  blankBehind : Blank bytes node.stop span.stop
  oneLine : OneLine bytes span.start node.start
  startsLine : span.start = node.start ∨ span.start = 0 ∨
    bytes[span.start - 1]? = some 0x0a
  endsLine : span.stop = node.stop ∨ span.stop = bytes.length ∨
    bytes[span.stop - 1]? = some 0x0a

/-- A node that starts on a byte that is not blank, and has one on its last
line. -/
structure Anchored (bytes : List UInt8) (node : Node) : Prop where
  starts : Solid bytes node.start
  lastLine : ∃ offset, node.start ≤ offset ∧ offset < node.stop ∧
    Solid bytes offset ∧ OneLine bytes offset node.stop

theorem Blank.empty
    {bytes : List UInt8}
    {offset : Nat} :
    Blank bytes offset offset :=
  fun _ first last => absurd last (Nat.not_lt.2 first)

theorem OneLine.empty
    {bytes : List UInt8}
    {offset : Nat} :
    OneLine bytes offset offset :=
  fun _ first last => absurd last (Nat.not_lt.2 first)

theorem Solid.lt_length
    {bytes : List UInt8}
    {offset : Nat}
    (solid : Solid bytes offset) :
    offset < bytes.length := by
  obtain ⟨b, byte, -⟩ := solid
  exact (List.getElem?_eq_some_iff.1 byte).1

instance
    (bytes : List UInt8)
    (offset : Nat) :
    Decidable (Solid bytes offset) :=
  decidable_of_iff (bytes[offset]?.map isBlankByte = some false)
    Option.map_eq_some_iff

/-- A node is anchored when its first byte and its last one are not blank. -/
theorem Anchored.of_ends
    {bytes : List UInt8}
    {node : Node}
    (forward : node.start < node.stop)
    (first : Solid bytes node.start)
    (last : Solid bytes (node.stop - 1)) :
    Anchored bytes node where
  starts := first
  lastLine := by
    refine ⟨node.stop - 1, by omega, by omega, last, ?_⟩
    intro offset firstLe ltLast feed
    have same : offset = node.stop - 1 := by omega
    obtain ⟨b, byte, notBlank⟩ := last
    rw [same, byte, Option.some.injEq] at feed
    rw [feed] at notBlank
    contradiction

/-- A blank range does not reach over a byte that is not blank. -/
theorem Blank.not_holds
    {bytes : List UInt8}
    {first last offset : Nat}
    (blank : Blank bytes first last)
    (solid : Solid bytes offset)
    (firstLe : first ≤ offset) :
    last ≤ offset := by
  by_contra reaches
  obtain ⟨b, byte, isBlank⟩ := blank offset firstLe (by omega)
  obtain ⟨b', byte', notBlank⟩ := solid
  rw [byte, Option.some.injEq] at byte'
  subst byte'
  rw [isBlank] at notBlank
  contradiction

/-- Spans around two nodes, one behind the other, leave each other alone. -/
theorem Grown.stop_le_start
    {bytes : List UInt8}
    {a b : Node}
    {aSpan bSpan : Span}
    (aGrown : Grown bytes a aSpan)
    (bGrown : Grown bytes b bSpan)
    (ordered : a.stop ≤ b.start)
    (aAnchored : Anchored bytes a)
    (bAnchored : Anchored bytes b) :
    aSpan.stop ≤ bSpan.start := by
  have bInside := bAnchored.starts.lt_length
  have aBehind := aGrown.blankBehind.not_holds bAnchored.starts ordered
  by_cases grows : aSpan.stop = a.stop
  · -- nothing goes behind `a`, and what goes in front of `b` is one blank line
    -- front, which cannot reach back over the last line of `a`
    by_contra reaches
    obtain ⟨offset, -, offsetLt, solid, oneLine⟩ := aAnchored.lastLine
    have bBefore := bGrown.before
    have offsetBefore : offset < bSpan.start := by
      by_contra inFront
      have := bGrown.blankBefore.not_holds solid (by omega)
      omega
    rcases bGrown.startsLine with same | zero | feed
    · omega
    · omega
    · exact oneLine (bSpan.start - 1) (by omega) (by omega) feed
  · -- what goes behind `a` ends with a line, which `b` starts behind
    have aStop := aGrown.behind
    rcases aGrown.endsLine with same | whole | feed
    · exact absurd same grows
    · omega
    · by_contra reaches
      exact bGrown.oneLine (aSpan.stop - 1) (by omega) (by omega) feed

/-! ## The span of the node itself -/

/-- Taking nothing but the node takes white space only. -/
theorem Grown.self
    {bytes : List UInt8}
    {node : Node}
    (inside : node.stop ≤ bytes.length) :
    Grown bytes node node.span where
  before := Nat.le_refl _
  behind := Nat.le_refl _
  inside := inside
  blankBefore := .empty
  blankBehind := .empty
  oneLine := .empty
  startsLine := .inl rfl
  endsLine := .inl rfl

/-! ## White space in front -/

/-- The front of a line holds no line feed and starts with the source or behind
one. -/
theorem lineFront_split
    (bytes : List UInt8)
    (offset : Nat) :
    ∃ rest, bytes.take offset = rest ++ Module.lineFront bytes offset ∧
      (rest = [] ∨ rest.getLast? = some 0x0a) ∧
      ∀ b ∈ Module.lineFront bytes offset, b ≠ 0x0a := by
  have whole := List.takeWhile_append_dropWhile
    (p := fun b : UInt8 => b != 0x0a) (l := (bytes.take offset).reverse)
  refine ⟨((bytes.take offset).reverse.dropWhile (· != 0x0a)).reverse,
    ?_, ?_, ?_⟩
  · rw [Module.lineFront, ← List.reverse_append, whole, List.reverse_reverse]
  · rw [List.reverse_eq_nil_iff, List.getLast?_reverse]
    rcases found : (bytes.take offset).reverse.dropWhile (· != 0x0a) with
      _ | ⟨b, rest⟩
    · exact .inl rfl
    · have stops := List.head?_dropWhile_not (fun b : UInt8 => b != 0x0a)
        (bytes.take offset).reverse
      rw [found, List.head?_cons] at stops
      simp only [bne_eq_false_iff_eq] at stops
      exact .inr (by rw [List.head?_cons, stops])
  · intro b member
    rw [Module.lineFront, List.mem_reverse] at member
    have passes := List.mem_takeWhile_imp member
    simpa using passes

theorem blankBefore_le
    (bytes : List UInt8)
    (offset : Nat) :
    blankBefore bytes offset ≤ offset := by
  obtain ⟨rest, whole, -, -⟩ := lineFront_split bytes offset
  have lengths := congrArg List.length whole
  rw [List.length_take, List.length_append] at lengths
  simp only [blankBefore]
  split <;> omega

/-- What goes in front of an offset is the blank front of its line, or
nothing. -/
theorem blankBefore_spec
    {bytes : List UInt8}
    {offset : Nat}
    (inside : offset ≤ bytes.length) :
    Blank bytes (offset - blankBefore bytes offset) offset ∧
      OneLine bytes (offset - blankBefore bytes offset) offset ∧
      (blankBefore bytes offset = 0 ∨
        offset - blankBefore bytes offset = 0 ∨
        bytes[offset - blankBefore bytes offset - 1]? = some 0x0a) := by
  obtain ⟨rest, whole, restEnds, noFeed⟩ := lineFront_split bytes offset
  have lengths := congrArg List.length whole
  rw [List.length_take, List.length_append, Nat.min_eq_left inside] at lengths
  by_cases blank : (Module.lineFront bytes offset).all isBlankByte
  · have count : blankBefore bytes offset =
        (Module.lineFront bytes offset).length := by
      rw [blankBefore]
      exact if_pos blank
    have restLength : offset - blankBefore bytes offset = rest.length := by
      omega
    rw [restLength]
    have byteIn (position : Nat) (below : position < offset) :
        bytes[position]? = (rest ++ Module.lineFront bytes offset)[position]? := by
      rw [← whole, List.getElem?_take, if_pos below]
    have frontByte (position : Nat) (first : rest.length ≤ position)
        (last : position < offset) :
        ∃ b ∈ Module.lineFront bytes offset, bytes[position]? = some b := by
      rw [byteIn position last, List.getElem?_append_right first]
      have small : position - rest.length <
        (Module.lineFront bytes offset).length := by omega
      exact ⟨_, List.getElem_mem small, List.getElem?_eq_getElem small⟩
    refine ⟨?_, ?_, .inr ?_⟩
    · intro position first last
      obtain ⟨b, member, byte⟩ := frontByte position first last
      exact ⟨b, byte, List.all_eq_true.1 blank b member⟩
    · intro position first last feed
      obtain ⟨b, member, byte⟩ := frontByte position first last
      rw [byte, Option.some.injEq] at feed
      exact noFeed b member feed
    · rcases restEnds with rfl | feed
      · exact .inl rfl
      · by_cases empty : rest.length = 0
        · exact .inl empty
        · rw [byteIn _ (by omega), List.getElem?_append_left (by omega),
            ← List.getLast?_eq_getElem?]
          exact .inr feed
  · have count : blankBefore bytes offset = 0 := by
      rw [blankBefore]
      exact if_neg blank
    rw [count, Nat.sub_zero]
    exact ⟨.empty, .empty, .inl rfl⟩

/-! ## White space behind -/

/-- So many of the bytes behind a statement may go with it: they are blank and
end with a line or with the source. -/
structure Removable (tail : List UInt8) (count : Nat) : Prop where
  inside : count ≤ tail.length
  blank : Blank tail 0 count
  ended : count = 0 ∨ count = tail.length ∨ tail[count - 1]? = some 0x0a

theorem Removable.zero (tail : List UInt8) : Removable tail 0 where
  inside := Nat.zero_le _
  blank := .empty
  ended := .inl rfl

/-- A blank line with its line feed goes, and what may go behind it. -/
theorem Removable.line
    {line rest : List UInt8}
    {count : Nat}
    (blank : line.all isBlankByte = true)
    (restRemovable : Removable rest count) :
    Removable (line ++ 0x0a :: rest) (line.length + 1 + count) where
  inside := by
    have inside := restRemovable.inside
    rw [List.length_append, List.length_cons]
    omega
  blank := by
    intro offset _ ltLast
    by_cases onLine : offset < line.length
    · rw [List.getElem?_append_left onLine, List.getElem?_eq_getElem onLine]
      exact ⟨_, rfl, List.all_eq_true.1 blank _ (List.getElem_mem onLine)⟩
    · rw [List.getElem?_append_right (by omega)]
      by_cases feed : offset - line.length = 0
      · rw [feed]
        exact ⟨0x0a, rfl, rfl⟩
      · obtain ⟨more, moreEq⟩ := Nat.exists_eq_succ_of_ne_zero feed
        rw [moreEq, List.getElem?_cons_succ]
        exact restRemovable.blank more (Nat.zero_le _) (by omega)
  ended := by
    right
    rw [List.length_append, List.length_cons]
    rcases restRemovable.ended with zero | whole | feed
    · right
      rw [zero, Nat.add_zero, Nat.add_sub_cancel,
        List.getElem?_append_right (Nat.le_refl _), Nat.sub_self]
      rfl
    · left
      omega
    · by_cases zero : count = 0
      · right
        rw [zero, Nat.add_zero, Nat.add_sub_cancel,
          List.getElem?_append_right (Nat.le_refl _), Nat.sub_self]
        rfl
      · right
        rw [List.getElem?_append_right (by omega),
          show line.length + 1 + count - 1 - line.length = count - 1 + 1 by
            omega,
          List.getElem?_cons_succ]
        exact feed

/-- Bytes are one line, or a line, its line feed and what follows. -/
theorem line_split
    (bytes : List UInt8) :
    bytes.takeWhile (· != 0x0a) = bytes ∨
      ∃ rest, bytes = bytes.takeWhile (· != 0x0a) ++ 0x0a :: rest := by
  have whole := List.takeWhile_append_dropWhile
    (p := fun b : UInt8 => b != 0x0a) (l := bytes)
  rcases found : bytes.dropWhile (· != 0x0a) with _ | ⟨b, rest⟩
  · left
    rw [found, List.append_nil] at whole
    exact whole
  · right
    have stops := List.head?_dropWhile_not (fun b : UInt8 => b != 0x0a) bytes
    rw [found, List.head?_cons] at stops
    simp only [bne_eq_false_iff_eq] at stops
    rw [found, stops] at whole
    exact ⟨rest, whole.symm⟩

/-- A line ends at its first line feed. -/
theorem takeWhile_line
    {line : List UInt8}
    (noFeed : 0x0a ∉ line)
    (rest : List UInt8) :
    (line ++ 0x0a :: rest).takeWhile (· != 0x0a) = line := by
  rw [List.takeWhile_append_of_pos, List.takeWhile_cons_of_neg (by decide),
    List.append_nil]
  intro b member
  rw [bne_iff_ne]
  rintro rfl
  exact noFeed member

theorem blankLines_removable
    (fuel : Nat)
    (bytes : List UInt8) :
    Removable bytes (blankLines fuel bytes) := by
  induction fuel generalizing bytes with
  | zero => exact .zero bytes
  | succ fuel fuelHypothesis =>
    simp only [blankLines]
    split
    · exact .zero bytes
    · rename_i continues
      simp only [Bool.or_eq_true, Bool.not_eq_true', not_or,
        Bool.not_eq_false] at continues
      obtain ⟨notLast, blank⟩ := continues
      rcases line_split bytes with whole | ⟨rest, split⟩
      · rw [whole, List.drop_length] at notLast
        exact absurd rfl notLast
      · generalize bytes.takeWhile (· != 0x0a) = line at *
        subst split
        rw [List.drop_left, List.drop_one, List.tail_cons]
        exact .line blank (fuelHypothesis rest)

theorem blankBehind_removable
    (absorb : Bool)
    (bytes : List UInt8) :
    Removable bytes (blankBehind absorb bytes) := by
  simp only [blankBehind]
  split
  · exact .zero bytes
  · rename_i blank
    rw [Bool.not_eq_true', Bool.not_eq_false] at blank
    rcases line_split bytes with whole | ⟨rest, split⟩
    · rw [whole] at blank ⊢
      rw [List.drop_eq_nil_of_le (by omega), List.length_nil, blankLines,
        Nat.add_zero, ite_self, Nat.min_eq_right (by omega)]
      refine ⟨Nat.le_refl _, ?_, .inr (.inl rfl)⟩
      intro offset _ ltLast
      exact ⟨_, List.getElem?_eq_getElem ltLast,
        List.all_eq_true.1 blank _ (List.getElem_mem ltLast)⟩
    · generalize bytes.takeWhile (· != 0x0a) = line at *
      subst split
      have rest_eq : (line ++ 0x0a :: rest).drop (line.length + 1) = rest := by
        rw [← List.drop_drop, List.drop_left, List.drop_one, List.tail_cons]
      rw [rest_eq, Nat.min_eq_left (by
        rw [List.length_append, List.length_cons]
        omega)]
      split
      · exact .line blank (blankLines_removable _ rest)
      · exact .line blank (.zero rest)

/-! ## The whole span -/

/-- The span that goes with a node takes white space only. -/
theorem around_grown
    {bytes : List UInt8}
    {node : Node}
    (absorb : Bool)
    (ordered : node.start ≤ node.stop)
    (inside : node.stop ≤ bytes.length) :
    Grown bytes node (around bytes node absorb) := by
  obtain ⟨blankFront, oneLine, starts⟩ :=
    blankBefore_spec (Nat.le_trans ordered inside)
  have frontLe := blankBefore_le bytes node.start
  obtain ⟨countInside, blank, ended⟩ :=
    blankBehind_removable absorb (bytes.drop node.stop)
  rw [List.length_drop] at countInside ended
  refine ⟨Nat.sub_le _ _, Nat.le_add_right _ _, ?_, blankFront, ?_, oneLine, ?_,
    ?_⟩
  · show node.stop + blankBehind absorb (bytes.drop node.stop) ≤ bytes.length
    omega
  · intro offset firstLe ltLast
    have tailLt : offset - node.stop <
        blankBehind absorb (bytes.drop node.stop) := by
      simp only [around] at ltLast
      omega
    obtain ⟨b, byte, isBlank⟩ := blank _ (Nat.zero_le _) tailLt
    rw [List.getElem?_drop, Nat.add_sub_cancel' firstLe] at byte
    exact ⟨b, byte, isBlank⟩
  · rcases starts with none | first | feed
    · exact .inl (by simp [around, none])
    · exact .inr (.inl first)
    · exact .inr (.inr feed)
  · rcases ended with none | whole | feed
    · exact .inl (by simp [around, none])
    · exact .inr (.inl (by simp only [around]; omega))
    · by_cases none : blankBehind absorb (bytes.drop node.stop) = 0
      · exact .inl (by simp [around, none])
      · rw [List.getElem?_drop] at feed
        refine .inr (.inr ?_)
        simp only [around]
        rw [Nat.add_sub_assoc (by omega)]
        exact feed

/-- A span that takes white space only cuts no character in two. -/
theorem Grown.boundaries
    {bytes : List UInt8}
    {node : Node}
    {span : Span}
    (grown : Grown bytes node span)
    (text : IsText bytes)
    (startBoundary : IsBoundary bytes node.start)
    (stopBoundary : IsBoundary bytes node.stop) :
    IsBoundary bytes span.start ∧ IsBoundary bytes span.stop := by
  have behindFeed {offset : Nat} (positive : 0 < offset)
      (feed : bytes[offset - 1]? = some 0x0a) : IsBoundary bytes offset := by
    have boundary := (text.boundaries_of_ascii feed (by decide)).2
    rwa [Nat.sub_add_cancel positive] at boundary
  constructor
  · rcases grown.startsLine with same | zero | feed
    · rw [same]
      exact startBoundary
    · rw [zero]
      exact text.boundary_zero
    · rcases Nat.eq_zero_or_pos span.start with zero | positive
      · rw [zero]
        exact text.boundary_zero
      · exact behindFeed positive feed
  · rcases grown.endsLine with same | whole | feed
    · rw [same]
      exact stopBoundary
    · rw [whole]
      exact text.boundary_length
    · rcases Nat.eq_zero_or_pos span.stop with zero | positive
      · rw [zero]
        exact text.boundary_zero
      · exact behindFeed positive feed

end LineSpan
end StoryMigration
