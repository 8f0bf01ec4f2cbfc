import StoryMigration.Proofs.StatementEnd

/-!
# One statement after another

The statements of a text are read one after another, each from the place where
the one before it has ended.  Since a reading depends on nothing but the text
from its place on, the text parses into statements with given spans exactly if
each of them, read by itself from the end of the one before it and with
everything behind it in sight, covers its span.
-/

namespace StoryMigration
namespace Syntax

open Reading

/-! ## Places in a text -/

/-- The text behind a number of bytes. -/
def dropBytes : Nat → List Char → List Char
  | 0, text => text
  | _ + 1, [] => []
  | count + 1, c :: rest => dropBytes (count + 1 - c.utf8Size) rest

theorem byteLength_singleton (c : Char) : byteLength [c] = c.utf8Size :=
  Nat.zero_add _

theorem dropBytes_byteLength
    (front back : List Char) :
    dropBytes (byteLength front) (front ++ back) = back := by
  induction front with
  | nil => cases back <;> rfl
  | cons c front frontHypothesis =>
    have positive := c.utf8Size_pos
    have lengthEq : byteLength (c :: front) =
        c.utf8Size + byteLength front := by
      rw [← List.singleton_append, byteLength_append, byteLength_singleton]
    obtain ⟨count, countEq⟩ : ∃ count, byteLength (c :: front) = count + 1 :=
      ⟨byteLength (c :: front) - 1, by omega⟩
    rw [countEq, List.cons_append, dropBytes,
      show count + 1 - c.utf8Size = byteLength front by omega,
      frontHypothesis]

/-- The cursor at an offset of a text, with nothing noted. -/
def Cursor.atOffset (text : List Char) (offset : Nat) : Cursor :=
  ⟨dropBytes offset text, offset, []⟩

/-- A cursor that stands in a text. -/
def Cursor.StandsIn (text : List Char) (cursor : Cursor) : Prop :=
  ∃ front, text = front ++ cursor.rest ∧ cursor.offset = byteLength front

theorem Cursor.StandsIn.ofText
    (text : List Char) :
    (Cursor.ofText text).StandsIn text :=
  ⟨[], rfl, rfl⟩

theorem Cursor.StandsIn.leads
    {text : List Char}
    {cursor next : Cursor}
    (stands : cursor.StandsIn text)
    (leads : cursor.Leads next) :
    next.StandsIn text := by
  obtain ⟨front, textEq, offsetEq⟩ := stands
  obtain ⟨taken, restEq, nextOffset⟩ := leads.text
  refine ⟨front ++ taken, ?_, ?_⟩
  · rw [textEq, restEq, List.append_assoc]
  · rw [nextOffset, offsetEq, byteLength_append]

/-- A cursor is given by its offset and what it has noted. -/
theorem Cursor.StandsIn.eq_behind
    {text : List Char}
    {cursor : Cursor}
    (stands : cursor.StandsIn text) :
    cursor = (Cursor.atOffset text cursor.offset).behind cursor.remarks := by
  obtain ⟨front, textEq, offsetEq⟩ := stands
  obtain ⟨rest, offset, remarks⟩ := cursor
  simp only at textEq offsetEq
  rw [Cursor.atOffset, offsetEq, textEq, dropBytes_byteLength]
  rfl

/-! ## Statements by themselves -/

/-- The grammar to the depth that a text is parsed to. -/
def grammarFor (dialect : Dialect) (text : List Char) : Grammar :=
  ⟨dialect, Grammar.toDepth dialect (8 * (text.length + 8))⟩

/-- The span of the statement that is read from an offset of a text. -/
def statementSpan?
    (dialect : Dialect)
    (text : List Char)
    (offset : Nat) : Option Span :=
  ((grammarFor dialect text).read .statement (Cursor.atOffset text offset)).map
    (·.1.span)

/-- Each of some statements, read from the end of the one before it, covers its
span, and behind the last one there is nothing but blanks and comments. -/
def ReadInTurn
    (dialect : Dialect)
    (text : List Char) : Nat → List Span → Prop
  | offset, [] => ((Cursor.atOffset text offset).skip true).rest = []
  | offset, span :: spans =>
      statementSpan? dialect text offset = some span ∧
        ReadInTurn dialect text span.stop spans

instance decidableReadInTurn
    (dialect : Dialect)
    (text : List Char) :
    (offset : Nat) → (spans : List Span) →
      Decidable (ReadInTurn dialect text offset spans)
  | offset, [] =>
      inferInstanceAs
        (Decidable (((Cursor.atOffset text offset).skip true).rest = []))
  | offset, span :: spans =>
      have := decidableReadInTurn dialect text span.stop spans
      inferInstanceAs
        (Decidable (statementSpan? dialect text offset = some span ∧
          ReadInTurn dialect text span.stop spans))

/-- The place where the first statement of a text is read: behind blanks,
comments and the line for the shell. -/
def opening (text : List Char) : Cursor :=
  let cursor := (Cursor.ofText text).skip true
  if (after? "#!".toList cursor.rest).isSome then
    cursor.advance (Lexeme.run (· != '\n') cursor.rest)
  else cursor

/-! ## Repeated readings -/

section Repeated

variable {α : Type} {reading : Reading α}

/-- Readings of one value after another. -/
inductive ReadsEach (reading : Reading α) : Cursor → List α → Cursor → Prop
  | nil (cursor : Cursor) : ReadsEach reading cursor [] cursor
  | cons
      {cursor middle last : Cursor}
      {value : α}
      {values : List α}
      (read : reading cursor = some (value, middle))
      (rest : ReadsEach reading middle values last) :
      ReadsEach reading cursor (value :: values) last

theorem upTo_succ_of_some
    {cursor middle last : Cursor}
    {value : α}
    {values : List α}
    {count : Nat}
    (read : reading cursor = some (value, middle))
    (readRest : upTo count reading middle = some (values, last)) :
    upTo (count + 1) reading cursor = some (value :: values, last) := by
  rw [upTo, orElse_apply, bind_apply, read, Option.bind_some, bind_apply,
    readRest]
  rfl

theorem upTo_succ_of_none
    {cursor : Cursor}
    {count : Nat}
    (fails : reading cursor = none) :
    upTo (count + 1) reading cursor = some ([], cursor) := by
  rw [upTo, orElse_apply, bind_apply, fails]
  rfl

/-- Repeating a reading never fails, and gives what it reads each time. -/
theorem exists_upTo
    (reading : Reading α)
    (count : Nat)
    (cursor : Cursor) :
    ∃ values last, upTo count reading cursor = some (values, last) ∧
      ReadsEach reading cursor values last := by
  induction count generalizing cursor with
  | zero => exact ⟨[], cursor, rfl, .nil _⟩
  | succ count countHypothesis =>
    cases read : reading cursor with
    | none => exact ⟨[], cursor, upTo_succ_of_none read, .nil _⟩
    | some result =>
      obtain ⟨value, middle⟩ := result
      obtain ⟨values, last, readRest, each⟩ := countHypothesis middle
      exact ⟨value :: values, last, upTo_succ_of_some read readRest,
        .cons read each⟩

theorem readsEach_of_many
    {cursor last : Cursor}
    {values : List α}
    (read : many reading cursor = some (values, last)) :
    ReadsEach reading cursor values last := by
  obtain ⟨values', last', readEq, each⟩ :=
    exists_upTo reading (cursor.rest.length + 1) cursor
  have same : some (values', last') = some (values, last) := readEq ▸ read
  cases same
  exact each

/-- Readings that fail at last are all that a repetition reads, if it goes on
long enough. -/
theorem upTo_of_readsEach
    {cursor last : Cursor}
    {values : List α}
    {count : Nat}
    (each : ReadsEach reading cursor values last)
    (fails : reading last = none)
    (enough : values.length ≤ count) :
    upTo count reading cursor = some (values, last) := by
  induction each generalizing count with
  | nil cursor =>
    cases count with
    | zero => rfl
    | succ count => exact upTo_succ_of_none fails
  | cons read rest restHypothesis =>
    obtain ⟨count, rfl⟩ : ∃ fewer, count = fewer + 1 :=
      ⟨count - 1, by rw [List.length_cons] at enough; omega⟩
    rw [List.length_cons] at enough
    exact upTo_succ_of_some read (restHypothesis fails (by omega))

theorem ReadsEach.leads
    {cursor last : Cursor}
    {values : List α}
    (regular : Regular reading)
    (each : ReadsEach reading cursor values last) :
    cursor.Leads last := by
  induction each with
  | nil cursor => exact .refl cursor
  | cons read rest restHypothesis =>
    exact (regular.leads read).trans restHypothesis

end Repeated

/-! ## Statements one after another -/

variable {dialect : Dialect} {text : List Char}

theorem statement_regular
    (dialect : Dialect)
    (text : List Char) :
    Regular ((grammarFor dialect text).read .statement) :=
  Regular.toDepth dialect _ .statement

theorem statement_concludes
    (dialect : Dialect)
    (text : List Char) :
    Concludes ((grammarFor dialect text).read .statement) := by
  obtain ⟨depth, depthEq⟩ : ∃ depth, 8 * (text.length + 8) = depth + 1 :=
    ⟨8 * (text.length + 8) - 1, by omega⟩
  rw [grammarFor, depthEq]
  exact Concludes.statementRule _

/-- Nothing is read where nothing but blanks and comments is left. -/
theorem statement_eq_none
    {cursor : Cursor}
    (atEnd : (cursor.skip true).rest = []) :
    (grammarFor dialect text).read .statement cursor = none := by
  obtain ⟨depth, depthEq⟩ : ∃ depth, 8 * (text.length + 8) = depth + 1 :=
    ⟨8 * (text.length + 8) - 1, by omega⟩
  rw [grammarFor, depthEq]
  show Grammar.statementRule _ cursor = none
  have noWord : nextWord (cursor.skip true) =
      some (none, cursor.skip true) := by
    obtain ⟨taken, restEq, -⟩ :=
      (Cursor.Leads.skip (cursor.skip true) false).text
    rw [atEnd, eq_comm, List.append_eq_nil_iff] at restEq
    show some ((Lexeme.wordLength? ((cursor.skip true).skip).rest).map _, _) = _
    rw [restEq.2]
    rfl
  unfold Grammar.statementRule
  rw [bind_apply]
  show (nextWord >>= _) (cursor.skip true) = none
  rw [bind_apply, noWord, Option.bind_some]
  simp only
  rw [get_bind_apply, atEnd]
  rfl

theorem statementSpan?_offset
    {cursor : Cursor}
    (stands : cursor.StandsIn text) :
    statementSpan? dialect text cursor.offset =
      ((grammarFor dialect text).read .statement cursor).map (·.1.span) := by
  have regular := statement_regular dialect text
  rw [stands.eq_behind, regular.blind, Option.map_map]
  rfl

/-- Statements that are read one after another are read in turn. -/
theorem readInTurn_of_readsEach
    {cursor last : Cursor}
    {nodes : List Node}
    (stands : cursor.StandsIn text)
    (each : ReadsEach ((grammarFor dialect text).read .statement) cursor nodes
      last)
    (atEnd : (last.skip true).rest = []) :
    ReadInTurn dialect text cursor.offset (nodes.map Node.span) := by
  induction each with
  | nil cursor =>
    rw [stands.eq_behind, Cursor.skip_behind] at atEnd
    exact atEnd
  | cons read rest restHypothesis =>
    have regular := statement_regular dialect text
    obtain ⟨stopEq, -⟩ := (statement_concludes dialect text).keeps read
    refine ⟨?_, ?_⟩
    · rw [statementSpan?_offset stands, read]
      rfl
    · show ReadInTurn dialect text (Node.stop _) _
      rw [stopEq]
      exact restHypothesis (stands.leads (regular.leads read)) atEnd

/-- Statements that are read in turn are read one after another. -/
theorem exists_readsEach
    {cursor : Cursor}
    {spans : List Span}
    (stands : cursor.StandsIn text)
    (inTurn : ReadInTurn dialect text cursor.offset spans) :
    ∃ nodes last, nodes.map Node.span = spans ∧
      ReadsEach ((grammarFor dialect text).read .statement) cursor nodes
        last ∧
      (last.skip true).rest = [] := by
  induction spans generalizing cursor with
  | nil =>
    refine ⟨[], cursor, rfl, .nil _, ?_⟩
    rw [stands.eq_behind, Cursor.skip_behind]
    exact inTurn
  | cons span spans spansHypothesis =>
    obtain ⟨covers, inTurn⟩ := inTurn
    have regular := statement_regular dialect text
    rw [statementSpan?_offset stands, Option.map_eq_some_iff] at covers
    obtain ⟨⟨node, middle⟩, read, spanEq⟩ := covers
    obtain ⟨stopEq, -⟩ := (statement_concludes dialect text).keeps read
    have middleEq : span.stop = middle.offset := by
      rw [← spanEq]
      exact stopEq
    rw [middleEq] at inTurn
    obtain ⟨nodes, last, spansEq, each, atEnd⟩ :=
      spansHypothesis (stands.leads (regular.leads read)) inTurn
    exact ⟨node :: nodes, last, by rw [List.map_cons, spanEq, spansEq],
      .cons read each, atEnd⟩

end Syntax
end StoryMigration
