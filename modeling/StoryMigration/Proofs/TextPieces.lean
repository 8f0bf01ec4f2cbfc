import StoryMigration.Proofs.ConvertedText

/-!
# Texts in pieces

A source laid out as statements with gaps between them: where each statement
stands, and that it is found there.  Making the line ends at the ends of the
text regular moves all statements by the same distance, as long as the first
of them does not start, and the last one does not end, with a line ending.
-/

namespace StoryMigration

open Syntax

/-- A statement and what stands between it and the one before it. -/
structure Piece where
  gap : List UInt8
  text : List UInt8
  deriving DecidableEq

namespace Piece

/-- The bytes of some pieces, one after another. -/
def layOut (pieces : List Piece) : List UInt8 :=
  pieces.flatMap fun piece => piece.gap ++ piece.text

/-- The spans of the statements of some pieces that are laid out from an offset
on. -/
def spansFrom : Nat → List Piece → List Span
  | _, [] => []
  | offset, piece :: pieces =>
      let start := offset + piece.gap.length
      let stop := start + piece.text.length
      ⟨start, stop⟩ :: spansFrom stop pieces

@[simp] theorem layOut_nil : layOut [] = [] := rfl

@[simp] theorem layOut_cons
    (piece : Piece)
    (pieces : List Piece) :
    layOut (piece :: pieces) = piece.gap ++ piece.text ++ layOut pieces := rfl

@[simp] theorem layOut_append
    (front back : List Piece) :
    layOut (front ++ back) = layOut front ++ layOut back :=
  List.flatMap_append

/-- Each statement is found at its span. -/
theorem bytes_spansFrom
    (pieces : List Piece)
    (front tail : List UInt8) :
    (spansFrom front.length pieces).map
        (·.bytes (front ++ layOut pieces ++ tail)) =
      pieces.map text := by
  induction pieces generalizing front with
  | nil => rfl
  | cons piece pieces piecesHypothesis =>
    have found : (front ++ piece.gap ++ piece.text ++
        (layOut pieces ++ tail)).drop (front.length + piece.gap.length) =
          piece.text ++ (layOut pieces ++ tail) := by
      rw [← List.length_append, List.append_assoc (front ++ piece.gap),
        List.drop_left]
    have rest := piecesHypothesis (front ++ piece.gap ++ piece.text)
    simp only [List.length_append, List.append_assoc, ← Nat.add_assoc]
      at rest found
    simp only [spansFrom, layOut_cons, List.map_cons, List.append_assoc,
      List.cons.injEq]
    refine ⟨?_, rest⟩
    rw [Span.bytes]
    simp only
    rw [found, Nat.add_sub_cancel_left, List.take_left]

/-- The statements of pieces that hold something end further and further on. -/
theorem spansFrom_ascend
    {pieces : List Piece}
    (offset : Nat)
    (filled : ∀ piece ∈ pieces, piece.text ≠ []) :
    (∀ span ∈ spansFrom offset pieces, offset < span.stop) ∧
      (spansFrom offset pieces).Pairwise fun a b => a.stop < b.stop := by
  induction pieces generalizing offset with
  | nil => simp [spansFrom]
  | cons piece pieces piecesHypothesis =>
    have positive := List.length_pos_iff.2 (filled piece List.mem_cons_self)
    obtain ⟨behind, ascends⟩ :=
      piecesHypothesis (offset + piece.gap.length + piece.text.length)
        fun other member => filled other (List.mem_cons_of_mem _ member)
    simp only [spansFrom, List.pairwise_cons]
    refine ⟨?_, behind, ascends⟩
    intro span member
    rcases List.mem_cons.1 member with rfl | later
    · show offset < offset + piece.gap.length + piece.text.length
      omega
    · have := behind span later
      omega

/-! ## Regular ends -/

/-- A byte of a line ending. -/
def isEndByte (b : UInt8) : Bool := b == 0x0d || b == 0x0a

/-- Bytes that do not start with a line ending. -/
def Starts (bytes : List UInt8) : Prop :=
  ∃ b, bytes.head? = some b ∧ isEndByte b = false

/-- Bytes that do not end with a line ending. -/
def Stops (bytes : List UInt8) : Prop :=
  ∃ b, bytes.getLast? = some b ∧ isEndByte b = false

theorem Stops.ne_nil
    {bytes : List UInt8}
    (stops : Stops bytes) :
    bytes ≠ [] := by
  obtain ⟨b, isLast, -⟩ := stops
  rintro rfl
  contradiction

instance (bytes : List UInt8) : Decidable (Starts bytes) :=
  decidable_of_iff (bytes.head?.map isEndByte = some false)
    Option.map_eq_some_iff

instance (bytes : List UInt8) : Decidable (Stops bytes) :=
  decidable_of_iff (bytes.getLast?.map isEndByte = some false)
    Option.map_eq_some_iff

/-- The pieces of a text from which the line endings at its start have been
taken. -/
def trimmed : List Piece → List Piece
  | [] => []
  | piece :: pieces =>
      { piece with gap := piece.gap.dropWhile isEndByte } :: pieces

theorem text_trimmed
    (pieces : List Piece) :
    (trimmed pieces).map text = pieces.map text := by
  cases pieces <;> rfl

theorem trimmed_filled
    {pieces : List Piece}
    (filled : ∀ piece ∈ pieces, piece.text ≠ []) :
    ∀ piece ∈ trimmed pieces, piece.text ≠ [] := by
  intro piece member
  have isText := List.mem_map_of_mem (f := text) member
  rw [text_trimmed] at isText
  obtain ⟨own, isOwn, same⟩ := List.mem_map.1 isText
  rw [← same]
  exact filled own isOwn

theorem encode_isEnd
    {chars : List Char}
    (ends : ∀ c ∈ chars, Newline.isEnd c = true) :
    ∀ b ∈ Utf8.encode chars, isEndByte b = true := by
  intro b member
  obtain ⟨c, isChar, isByte⟩ := List.mem_flatMap.1 member
  have isEnd := ends c isChar
  rw [Newline.isEnd, Bool.or_eq_true, beq_iff_eq, beq_iff_eq] at isEnd
  rcases isEnd with rfl | rfl
  · rw [List.mem_singleton.1 (show b ∈ [0x0d] from isByte)]
    rfl
  · rw [List.mem_singleton.1 (show b ∈ [0x0a] from isByte)]
    rfl

/-- A character whose first byte is one of a line ending is of one. -/
theorem isEnd_of_isEndByte
    {c : Char}
    {b : UInt8}
    {rest : List UInt8}
    (bytes : String.utf8EncodeChar c = b :: rest)
    (isEnd : isEndByte b = true) :
    Newline.isEnd c = true := by
  rw [isEndByte, Bool.or_eq_true, beq_iff_eq, beq_iff_eq] at isEnd
  have read := Utf8.decode?_encode [c]
  rw [Utf8.encode_cons, Utf8.encode_nil, List.append_nil, bytes] at read
  rcases Utf8.encodeChar_ascii c with ⟨single, alone⟩ | large
  · rw [bytes, List.cons.injEq] at alone
    rw [alone.2] at read
    rcases isEnd with rfl | rfl
    · have same : ['\r'] = [c] := Option.some.inj read
      cases same
      rfl
    · have same : ['\n'] = [c] := Option.some.inj read
      cases same
      rfl
  · have least := large b (by rw [bytes]; exact List.mem_cons_self)
    rcases isEnd with rfl | rfl
    · exact absurd least (by decide)
    · exact absurd least (by decide)

/-- A text that does not start with a character of a line ending does not start
with a byte of one. -/
theorem head?_encode
    {chars : List Char}
    {b : UInt8}
    (starts : ∀ c, chars.head? = some c → Newline.isEnd c = false)
    (head : (Utf8.encode chars).head? = some b) :
    isEndByte b = false := by
  cases chars with
  | nil =>
    rw [Utf8.encode_nil, List.head?_nil] at head
    cases head
  | cons c chars =>
    cases bytes : String.utf8EncodeChar c with
    | nil => exact absurd bytes (String.utf8EncodeChar_ne_nil)
    | cons first rest =>
      rw [Utf8.encode_cons, bytes] at head
      cases head
      cases isEnd : isEndByte b with
      | false => rfl
      | true =>
        have charEnds := isEnd_of_isEndByte bytes isEnd
        rw [starts c rfl] at charEnds
        contradiction

/-- Line endings in front of a byte of another kind lie in front of it. -/
theorem gap_eq_append
    {front back gap rest : List UInt8}
    {b : UInt8}
    (ends : ∀ b ∈ front, isEndByte b = true)
    (other : isEndByte b = false)
    (same : front ++ back = gap ++ b :: rest) :
    ∃ left, gap = front ++ left ∧ back = left ++ b :: rest := by
  rcases List.append_eq_append_iff.1 same with
    ⟨left, gapEq, backEq⟩ | ⟨left, frontEq, backEq⟩
  · exact ⟨left, gapEq, backEq⟩
  · cases left with
    | nil =>
      rw [List.append_nil] at frontEq
      exact ⟨[], by rw [frontEq, List.append_nil], backEq.symm⟩
    | cons head left =>
      rw [List.cons_append, List.cons.injEq] at backEq
      have isEnd := ends head (by rw [frontEq]; simp)
      rw [← backEq.1, other] at isEnd
      contradiction

/-- Line endings behind a byte of another kind lie behind it. -/
theorem tail_eq_append
    {front back gap rest : List UInt8}
    {b : UInt8}
    (ends : ∀ b ∈ back, isEndByte b = true)
    (other : isEndByte b = false)
    (same : front ++ back = gap ++ b :: rest) :
    ∃ left, front = gap ++ b :: left := by
  rcases List.append_eq_append_iff.1 same with
    ⟨left, gapEq, backEq⟩ | ⟨left, frontEq, backEq⟩
  · have isEnd := ends b (by rw [backEq]; simp)
    rw [other] at isEnd
    contradiction
  · cases left with
    | nil =>
      have isEnd := ends b (by rw [← List.nil_append back, ← backEq]; simp)
      rw [other] at isEnd
      contradiction
    | cons head left =>
      rw [List.cons_append, List.cons.injEq] at backEq
      exact ⟨left, by rw [frontEq, backEq.1]⟩

/-- What ends with a byte that is no line ending, as its front and that byte. -/
theorem exists_append_last
    {pieces : List Piece}
    (nonempty : pieces ≠ [])
    (stops : ∀ piece ∈ pieces, Stops piece.text) :
    ∃ front b, layOut pieces = front ++ [b] ∧ isEndByte b = false := by
  obtain ⟨first, last, rfl⟩ :=
    (List.eq_nil_or_concat' pieces).resolve_left nonempty
  obtain ⟨b, isLast, notEnd⟩ := stops last (by simp)
  obtain ⟨front, textEq⟩ := List.getLast?_eq_some_iff.1 isLast
  refine ⟨layOut first ++ last.gap ++ front, b, ?_, notEnd⟩
  rw [layOut_append, layOut_cons, layOut_nil, textEq]
  simp only [List.append_assoc, List.append_nil]

/-- The middle of a text in pieces is laid out in the trimmed ones, if the first
statement does not start, and none stops, with a line ending. -/
theorem exists_tail
    {chars middle : List Char}
    {piece : Piece}
    {pieces : List Piece}
    {tail : List UInt8}
    (isMiddle : Newline.IsMiddle chars middle)
    (starts : Starts piece.text)
    (stops : ∀ other ∈ piece :: pieces, Stops other.text)
    (laidOut : Utf8.encode chars = layOut (piece :: pieces) ++ tail) :
    ∃ rest,
      Utf8.encode middle = layOut (trimmed (piece :: pieces)) ++ rest := by
  obtain ⟨front, back, rfl, frontEnds, backEnds⟩ := isMiddle.split
  obtain ⟨b, head, notEnd⟩ := starts
  obtain ⟨text, textEq⟩ := List.head?_eq_some_iff.1 head
  rw [Utf8.encode_append, Utf8.encode_append, layOut_cons, textEq] at laidOut
  simp only [List.append_assoc, List.cons_append] at laidOut
  -- the line endings at the start lie in the first gap
  obtain ⟨left, gapEq, rest⟩ :=
    gap_eq_append (encode_isEnd frontEnds) notEnd laidOut
  have leftStarts : ∀ b, left.head? = some b → isEndByte b = false := by
    intro first isFirst
    obtain ⟨more, leftEq⟩ := List.head?_eq_some_iff.1 isFirst
    cases middleEq : Utf8.encode middle with
    | nil =>
      rw [middleEq, List.nil_append] at rest
      have isEnd := encode_isEnd backEnds b (by rw [rest]; simp)
      rw [notEnd] at isEnd
      contradiction
    | cons byte bytes =>
      refine head?_encode isMiddle.starts ?_
      rw [middleEq, leftEq, List.cons_append, List.cons_append,
        List.cons.injEq] at rest
      rw [middleEq, List.head?_cons, rest.1]
  have trimmedEq : trimmed (piece :: pieces) =
      ⟨left, piece.text⟩ :: pieces := by
    rw [trimmed, gapEq, dropWhile_append_of_stops
      (encode_isEnd frontEnds) leftStarts]
  -- the line endings at the end lie behind the last statement
  have trimmedStops :
      ∀ other ∈ trimmed (piece :: pieces), Stops other.text := by
    rw [trimmedEq]
    intro other member
    rcases List.mem_cons.1 member with rfl | later
    · exact stops piece List.mem_cons_self
    · exact stops other (List.mem_cons_of_mem _ later)
  have trimmedSome : trimmed (piece :: pieces) ≠ [] := List.cons_ne_nil _ _
  obtain ⟨first, last, laidOutEq, lastNotEnd⟩ :=
    exists_append_last trimmedSome trimmedStops
  have whole : Utf8.encode middle ++ Utf8.encode back =
      first ++ last :: tail := by
    rw [rest, List.append_cons first last tail, ← laidOutEq, trimmedEq,
      layOut_cons, textEq]
    simp only [List.append_assoc, List.cons_append]
  obtain ⟨more, middleEq⟩ :=
    tail_eq_append (encode_isEnd backEnds) lastNotEnd whole
  exact ⟨more, by rw [middleEq, laidOutEq, ← List.append_cons]⟩

end Piece

end StoryMigration
