import StoryMigration.Proofs.GeneratedStatements
import StoryMigration.Proofs.ReadStatements
import StoryMigration.Proofs.SnippetEnds
import StoryMigration.Proofs.StatementStart

/-!
# Generated statements at their places

Of the statements that a conversion should leave, those of the source are known
as bytes only, and those that are generated by their words, marks and copied
texts.  Where the first are read by themselves and the second have blanks and
comments in front of them and fit, all of them are read in turn.
-/

namespace StoryMigration

open Syntax

/-- What is laid out from an offset on has its spans behind it. -/
theorem Piece.spansFrom_inside
    (offset : Nat)
    (pieces : List Piece) :
    ∀ span ∈ spansFrom offset pieces, span.start ≤ span.stop ∧
      span.stop ≤ offset + (layOut pieces).length := by
  induction pieces generalizing offset with
  | nil => exact fun _ member => absurd member List.not_mem_nil
  | cons piece pieces piecesHypothesis =>
    intro span member
    rw [layOut_cons, List.length_append, List.length_append]
    rcases List.mem_cons.1 member with rfl | later
    · exact ⟨Nat.le_add_right _ _, by simp only; omega⟩
    · obtain ⟨forward, inside⟩ := piecesHypothesis _ span later
      exact ⟨forward, by omega⟩

/-- A statement that should stand at a place, with its words, marks and copied
texts if it is generated. -/
structure Placed where
  span : Span
  snippets : Option (List Snippet)

namespace Placed

/-- A statement of the source is read where it stands; in front of a generated
one there are blanks and comments, and it fits. -/
def Fits
    (newline : Newline)
    (dialect : Dialect)
    (text : List Char)
    (offset : Nat)
    (placed : Placed) : Prop :=
  match placed.snippets with
  | none => statementSpan? dialect text offset = some placed.span
  | some snippets =>
      ((Cursor.atOffset text offset).skip true).offset = placed.span.start ∧
        Snippet.AllFit newline dialect text snippets
          (dropBytes placed.span.stop text)

instance
    (newline : Newline)
    (dialect : Dialect)
    (text : List Char)
    (offset : Nat)
    (placed : Placed) :
    Decidable (placed.Fits newline dialect text offset) := by
  unfold Fits
  split <;> infer_instance

/-- As many statements as there are places for them stand at these. -/
theorem zipWith_mk
    {property : Span → Option (List Snippet) → Prop}
    {spans : List Span}
    {statements : List (Option (List Snippet))}
    (each : List.Forall₂ property spans statements) :
    (List.zipWith mk spans statements).map span = spans ∧
      ∀ placed ∈ List.zipWith mk spans statements,
        property placed.span placed.snippets := by
  induction each with
  | nil => exact ⟨rfl, fun _ member => absurd member List.not_mem_nil⟩
  | cons first rest restHypothesis =>
    obtain ⟨spansEq, others⟩ := restHypothesis
    refine ⟨by rw [List.zipWith_cons_cons, List.map_cons, spansEq], ?_⟩
    intro placed member
    rcases List.mem_cons.1 member with rfl | later
    · exact first
    · exact others placed later

/-- Each of some statements fits behind the one before it, and behind the last
one there is nothing but blanks and comments. -/
def FitInTurn
    (newline : Newline)
    (dialect : Dialect)
    (text : List Char) : Nat → List Placed → Prop
  | offset, [] => ((Cursor.atOffset text offset).skip true).rest = []
  | offset, placed :: others =>
      placed.Fits newline dialect text offset ∧
        FitInTurn newline dialect text placed.span.stop others

instance decidableFitInTurn
    (newline : Newline)
    (dialect : Dialect)
    (text : List Char) :
    (offset : Nat) → (statements : List Placed) →
      Decidable (FitInTurn newline dialect text offset statements)
  | offset, [] =>
      inferInstanceAs
        (Decidable (((Cursor.atOffset text offset).skip true).rest = []))
  | offset, placed :: others =>
      have := decidableFitInTurn newline dialect text placed.span.stop others
      inferInstanceAs (Decidable (placed.Fits newline dialect text offset ∧
        FitInTurn newline dialect text placed.span.stop others))

variable {newline : Newline} {dialect : Dialect} {text : List Char}

/-- A generated statement that is read wherever it fits, and that stands in a
text where it should. -/
structure IsWritten
    (newline : Newline)
    (dialect : Dialect)
    (text : List Char)
    (placed : Placed)
    (snippets : List Snippet) : Prop where
  clear : Snippet.AllClear snippets
  bytes : placed.span.bytes (Utf8.encode text) =
    Utf8.encode (newline.spreadList (Snippet.flat snippets))
  forward : placed.span.start ≤ placed.span.stop
  inside : placed.span.stop ≤ (Utf8.encode text).length
  reads : ∀ before after, Snippet.AllFit newline dialect text snippets after →
    Reading.Passes true before (Snippet.lay newline snippets after) →
      Reading.Reads text (within dialect text 1).statementRule before after

/-- What stands in a text behind some characters of it. -/
theorem eq_append_of_bytes
    {front rest own : List Char}
    {span : Span}
    (start : span.start = byteLength front)
    (forward : span.start ≤ span.stop)
    (inside : span.stop ≤ (Utf8.encode (front ++ rest)).length)
    (bytes : span.bytes (Utf8.encode (front ++ rest)) = Utf8.encode own) :
    span.stop = byteLength (front ++ own) ∧
      rest = own ++ dropBytes span.stop (front ++ rest) := by
  have drop : (Utf8.encode (front ++ rest)).drop span.start =
      Utf8.encode rest := by
    rw [Utf8.encode_append, start, ← length_encode, List.drop_left]
  unfold Span.bytes at bytes
  rw [drop] at bytes
  have length := congrArg List.length bytes
  rw [Utf8.encode_append, List.length_append, length_encode,
    length_encode] at inside
  rw [List.length_take, length_encode, length_encode,
    Nat.min_eq_left (by omega)] at length
  have whole := List.take_append_drop (span.stop - span.start)
    (Utf8.encode rest)
  rw [bytes] at whole
  obtain ⟨more, moreEq⟩ := Utf8.IsText.of_append_left ⟨rest, whole⟩ ⟨own, rfl⟩
  rw [moreEq, ← Utf8.encode_append] at whole
  have restEq : own ++ more = rest := Utf8.encode_injective whole
  have stopEq : span.stop = byteLength (front ++ own) := by
    rw [byteLength_append]
    omega
  refine ⟨stopEq, ?_⟩
  rw [← restEq, stopEq, ← List.append_assoc, dropBytes_byteLength]

/-- A generated statement that fits is read at its place. -/
theorem IsWritten.statementSpan?_eq
    {placed : Placed}
    {snippets : List Snippet}
    {cursor : Cursor}
    (written : placed.IsWritten newline dialect text snippets)
    (stands : cursor.StandsIn text)
    (isGenerated : placed.snippets = some snippets)
    (fits : placed.Fits newline dialect text cursor.offset) :
    statementSpan? dialect text cursor.offset = some placed.span := by
  unfold Fits at fits
  rw [isGenerated] at fits
  obtain ⟨skips, allFit⟩ := fits
  have skipsHere : (cursor.skip true).offset = placed.span.start := by
    rw [stands.eq_behind, Cursor.skip_behind]
    exact skips
  obtain ⟨front, textEq, startEq⟩ := stands.leads (.skip cursor true)
  -- behind what is passed over stand the snippets
  generalize restEq : (cursor.skip true).rest = rest at textEq
  have ownEq := Snippet.spreadList_flat_of_allFit written.clear allFit
  have bytes := written.bytes
  have inside := written.inside
  rw [ownEq, textEq] at bytes
  rw [textEq] at inside
  obtain ⟨stopEq, laid⟩ :=
    eq_append_of_bytes (skipsHere.symm.trans startEq) written.forward inside
      bytes
  rw [← textEq, ← Snippet.lay_eq_append] at laid
  have passes : Reading.Passes true cursor.rest
      (Snippet.lay newline snippets (dropBytes placed.span.stop text)) := by
    intro other sameRest
    rw [← laid, ← restEq]
    exact Cursor.rest_skip_congr true sameRest
  obtain ⟨node, next, read, nextAt⟩ :=
    written.reads _ _ allFit passes cursor ⟨stands, rfl⟩
  obtain ⟨depth, depthEq⟩ : ∃ depth, 8 * (text.length + 8) = depth + 1 :=
    ⟨8 * (text.length + 8) - 1, by omega⟩
  have readHere : (grammarFor dialect text).read .statement cursor =
      some (node, next) := by
    rw [← read, grammarFor, within, depthEq]
    rfl
  have nodeStart := start_of_read readHere
  obtain ⟨nodeStop, -⟩ := (statement_concludes dialect text).keeps readHere
  rw [statementSpan?_offset stands, readHere, Option.map_some,
    Option.some.injEq]
  obtain ⟨⟨nextFront, nextText, nextOffset⟩, nextRest⟩ := nextAt
  have parted : text = front ++ Snippet.lay newline snippets [] ++
      dropBytes placed.span.stop text := by
    rw [List.append_assoc, ← Snippet.lay_eq_append, ← laid]
    exact textEq
  rw [nextRest] at nextText
  have frontEq := List.append_cancel_right (parted.symm.trans nextText)
  have stopsThere : node.stop = placed.span.stop := by
    rw [nodeStop, nextOffset, stopEq, frontEq]
  have startsThere : node.start = placed.span.start := nodeStart.trans skipsHere
  show (⟨node.start, node.stop⟩ : Span) = _
  rw [startsThere, stopsThere]

/-- Statements that fit in turn are read in turn, if every generated one of them
is written where it should stand. -/
theorem readInTurn_of_fitInTurn
    {placed : List Placed}
    {cursor : Cursor}
    (written : ∀ statement ∈ placed, ∀ snippets,
      statement.snippets = some snippets →
        statement.IsWritten newline dialect text snippets)
    (stands : cursor.StandsIn text)
    (inTurn : FitInTurn newline dialect text cursor.offset placed) :
    ReadInTurn dialect text cursor.offset (placed.map span) := by
  induction placed generalizing cursor with
  | nil => exact inTurn
  | cons statement others othersHypothesis =>
    obtain ⟨fits, inTurn⟩ := inTurn
    have covers : statementSpan? dialect text cursor.offset =
        some statement.span := by
      cases snippetsEq : statement.snippets with
      | none =>
        unfold Fits at fits
        rw [snippetsEq] at fits
        exact fits
      | some snippets =>
        exact (written statement List.mem_cons_self snippets
          snippetsEq).statementSpan?_eq stands snippetsEq fits
    refine ⟨covers, ?_⟩
    -- what is read next starts where this statement stops
    have regular := statement_regular dialect text
    rw [statementSpan?_offset stands, Option.map_eq_some_iff] at covers
    obtain ⟨⟨node, next⟩, read, spanEq⟩ := covers
    obtain ⟨stopEq, -⟩ := (statement_concludes dialect text).keeps read
    have nextEq : statement.span.stop = next.offset := by
      rw [← spanEq]
      exact stopEq
    rw [nextEq] at inTurn ⊢
    exact othersHypothesis
      (fun other member => written other (List.mem_cons_of_mem _ member))
      (stands.leads (regular.leads read)) inTurn

end Placed

end StoryMigration
