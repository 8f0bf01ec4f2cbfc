import StoryMigration.Proofs.LiteralParts
import StoryMigration.Proofs.ReadStatements

/-!
# Values of string literals

Wherever a legal string literal stands in a module, it is read as one node, and
the value of that node is the text of the code units that are read from its
parts.
-/

namespace StoryMigration
namespace Syntax

open Reading LiteralPart

/-! ## Texts of leaves -/

/-- The text between two places of a module's source. -/
theorem Module.slice_between
    {m : Module}
    {text word after : List Char}
    {cursor next : Cursor}
    (bytesEq : m.bytes = Utf8.encode text)
    (at_ : cursor.At text (word ++ after))
    (nextAt : next.At text after) :
    m.slice ⟨cursor.offset, next.offset⟩ = String.ofList word := by
  have behind := at_.stands.drop_encode
  have lengthEq : next.offset - cursor.offset = (Utf8.encode word).length := by
    obtain ⟨front, textEq, offsetEq⟩ := at_.stands
    obtain ⟨whole, wholeEq, wholeOffset⟩ := nextAt.stands
    rw [at_.rest] at textEq
    rw [nextAt.rest, textEq, ← List.append_assoc] at wholeEq
    rw [← List.append_cancel_right wholeEq, byteLength_append] at wholeOffset
    rw [length_encode]
    omega
  unfold Module.slice Span.bytes
  rw [bytesEq, behind, at_.rest, Utf8.encode_append, lengthEq, List.take_left,
    Utf8.toString?, Utf8.decode?_encode]
  rfl

/-- The next place is where some characters are left, and nothing was noted on the
way there. -/
structure Cursor.Reaches
    (cursor : Cursor)
    (text after : List Char)
    (next : Cursor) : Prop where
  at_ : next.At text after
  remarks : next.remarks = cursor.remarks

theorem Cursor.At.advance
    {text after : List Char}
    {cursor : Cursor}
    (word : List Char)
    (at_ : cursor.At text (word ++ after)) :
    cursor.Reaches text after (cursor.advance word.length) where
  at_ := by
    refine at_.leads (.advance cursor _) ?_
    show cursor.rest.drop word.length = after
    rw [at_.rest, List.drop_left]
  remarks := rfl

/-- A leaf over the characters that stand next has them as its text. -/
theorem Module.text_leaf
    {m : Module}
    {text word after : List Char}
    {cursor : Cursor}
    (bytesEq : m.bytes = Utf8.encode text)
    (at_ : cursor.At text (word ++ after))
    (kind : Kind) :
    m.text (.leaf kind ⟨cursor.offset, (cursor.advance word.length).offset⟩) =
      String.ofList word := by
  exact slice_between bytesEq at_ (at_.advance word).at_

theorem Module.fragmentValue_of_ne
    (m : Module)
    {part : Node}
    (other : part.kind ≠ .escapeSequence) :
    m.fragmentValue part = .ok (.ofChars (m.text part).toList) :=
  if_neg other

theorem Module.fragmentValue_of_eq
    (m : Module)
    {part : Node}
    (isEscape : part.kind = .escapeSequence) :
    m.fragmentValue part = escapeValue ((m.text part).toList.drop 1) :=
  if_pos isEscape

/-! ## The parts of a literal's node -/

/-- Some parts of a literal's node have values with some code units. -/
structure Spells
    (m : Module)
    (nodes : List Node)
    (units : List Nat) : Prop where
  named : ∀ node ∈ nodes, node.kind.isNamed = true
  value : ∃ values, nodes.mapM m.fragmentValue = .ok values ∧
    Text.units values.flatten = units

namespace Spells

variable {m : Module} {nodes : List Node} {units : List Nat}

theorem nil : Spells m [] [] where
  named := by simp
  value := ⟨[], rfl, rfl⟩

theorem cons
    {node : Node}
    {value : Text}
    (named : node.kind.isNamed = true)
    (read : m.fragmentValue node = .ok value)
    (more : Spells m nodes units) :
    Spells m (node :: nodes) (Text.units value ++ units) where
  named := by
    intro other member
    rcases List.mem_cons.1 member with rfl | isMore
    · exact named
    · exact more.named other isMore
  value := by
    obtain ⟨values, readMore, unitsEq⟩ := more.value
    refine ⟨value :: values, ?_, ?_⟩
    · rw [List.mapM_cons, read, readMore]
      rfl
    · rw [List.flatten_cons, Text.units_append, unitsEq]

/-- The value of a literal's node. -/
theorem stringValue
    {literal : Node}
    (named : literal.namedChildren = nodes)
    (spells : Spells m nodes units) :
    m.stringValue literal = .ok (.ofUnits units) := by
  obtain ⟨values, read, unitsEq⟩ := spells.value
  unfold Module.stringValue
  rw [named, read, ← unitsEq, Text.ofUnits_units]
  rfl

end Spells

/-! ## Reading the parts -/

section Parts

variable
  {m : Module}
  {text after : List Char}
  {quote : Char}
  {cursor : Cursor}

/-- What is read again and again between quotes. -/
def literalPart (quote : Char) : Reading Node :=
  runOf .stringFragment (isPlain quote) <|> Reading.escape

/-- Characters that stand for themselves are read at once. -/
theorem exists_run
    {run : List Char}
    (bytesEq : m.bytes = Utf8.encode text)
    (at_ : cursor.At text (run ++ after))
    (nonempty : run ≠ [])
    (plain : run.all (isPlain quote) = true)
    (stops : after.takeWhile (isPlain quote) = []) :
    ∃ node next, literalPart quote cursor = some (node, next) ∧
      cursor.Reaches text after next ∧ node.kind.isNamed = true ∧
      m.fragmentValue node = .ok (.ofChars run) := by
  have runEq : Lexeme.run (isPlain quote) cursor.rest = run.length := by
    rw [at_.rest, Lexeme.run,
      List.takeWhile_append_of_pos (List.all_eq_true.1 plain), stops,
      List.append_nil]
  have read : runOf .stringFragment (isPlain quote) cursor =
      take .stringFragment run.length cursor := by
    obtain ⟨count, countEq⟩ := Nat.exists_eq_succ_of_ne_zero
      (mt List.length_eq_zero_iff.1 nonempty)
    unfold runOf
    rw [get_bind_apply, runEq, countEq]
    rfl
  refine ⟨.leaf .stringFragment ⟨cursor.offset, (cursor.advance run.length).offset⟩,
    cursor.advance run.length, ?_, ?_, rfl, ?_⟩
  · unfold literalPart
    rw [orElse_apply, read]
    rfl
  · exact at_.advance run
  · rw [m.fragmentValue_of_ne (by intro isEscape; cases isEscape),
      m.text_leaf bytesEq at_, String.toList_ofList]

/-- An escape sequence is read by itself. -/
theorem exists_escape
    (quote : Char)
    (body : List Char)
    {value : Text}
    (bytesEq : m.bytes = Utf8.encode text)
    (at_ : cursor.At text ('\\' :: (body ++ after)))
    (escapes : Lexeme.escapeLength? ('\\' :: (body ++ after)) =
      some (body.length + 1))
    (valued : escapeValue body = .ok value) :
    ∃ node next, literalPart quote cursor = some (node, next) ∧
      cursor.Reaches text after next ∧ node.kind.isNamed = true ∧
      m.fragmentValue node = .ok value := by
  have noRun : runOf .stringFragment (isPlain quote) cursor = none :=
    runOf_refused (by simp [isPlain]) cursor at_.rest
  have read : Reading.escape cursor =
      take .escapeSequence ('\\' :: body).length cursor := by
    unfold Reading.escape
    rw [get_bind_apply, at_.rest, escapes]
    rfl
  refine ⟨.leaf .escapeSequence ⟨cursor.offset,
      (cursor.advance ('\\' :: body).length).offset⟩,
    cursor.advance ('\\' :: body).length, ?_, ?_, rfl, ?_⟩
  · unfold literalPart
    rw [orElse_apply, noRun, read]
    rfl
  · exact Cursor.At.advance ('\\' :: body) at_
  · have textEq : m.text (.leaf .escapeSequence ⟨cursor.offset,
        (cursor.advance ('\\' :: body).length).offset⟩) =
          String.ofList ('\\' :: body) :=
      m.text_leaf bytesEq at_ .escapeSequence
    rw [m.fragmentValue_of_eq rfl, textEq, String.toList_ofList]
    exact valued

/-- What the next part starts with. -/
theorem head_flat
    {parts : List LiteralPart}
    (after : List Char)
    (legal : ∀ part ∈ parts, part.IsLegal quote) :
    ∃ c rest, flat parts ++ quote :: after = c :: rest ∧
      (parts = [] ∧ c = quote ∨ (∃ more, parts = .plain c :: more) ∨ c = '\\') := by
  cases parts with
  | nil => exact ⟨quote, after, rfl, .inl ⟨rfl, rfl⟩⟩
  | cons part more =>
    rw [flat_cons, List.append_assoc]
    cases part with
    | plain c => exact ⟨c, _, rfl, .inr (.inl ⟨more, rfl⟩)⟩
    | letter | nul | byte | unit | point | continuation =>
      exact ⟨'\\', _, rfl, .inr (.inr rfl)⟩

theorem readUnits_cons
    {first : LiteralPart}
    {parts : List LiteralPart}
    (apart : ∀ second ∈ parts.head?, swallows first second = false) :
    readUnits (first :: parts) = first.readAlone ++ readUnits parts := by
  cases parts with
  | nil => exact (List.append_nil _).symm
  | cons second more =>
    rw [readUnits, apart second rfl]
    rfl

theorem readUnits_run
    (run : List Char)
    (parts : List LiteralPart) :
    readUnits (run.map .plain ++ parts) =
      Text.units (.ofChars run) ++ readUnits parts := by
  induction run with
  | nil => rfl
  | cons c run runHypothesis =>
    rw [List.map_cons, List.cons_append, readUnits_cons (fun _ _ => rfl),
      runHypothesis, ← List.append_assoc]
    rfl

theorem flat_run
    (run : List Char)
    (parts : List LiteralPart) :
    flat (run.map .plain ++ parts) = run ++ flat parts := by
  induction run with
  | nil => rfl
  | cons c run runHypothesis =>
    rw [List.map_cons, List.cons_append, flat_cons, runHypothesis]
    rfl

/-- Parts start with characters that stand for themselves, as many as there are. -/
theorem exists_split_run
    (parts : List LiteralPart) :
    ∃ (run : List Char) (rest : List LiteralPart),
      parts = run.map .plain ++ rest ∧ ∀ c, rest.head? ≠ some (.plain c) := by
  induction parts with
  | nil => exact ⟨[], [], rfl, by simp⟩
  | cons part parts partsHypothesis =>
    by_cases isPlain : ∃ c, part = .plain c
    · obtain ⟨c, rfl⟩ := isPlain
      obtain ⟨run, rest, rfl, stops⟩ := partsHypothesis
      exact ⟨c :: run, rest, rfl, stops⟩
    · push Not at isPlain
      exact ⟨[], part :: parts, rfl, fun c same => isPlain c (Option.some.inj same)⟩

/-- A separator that is taken into an escape sequence is read behind a question
mark and lost behind a carriage return. -/
theorem exists_escapeValue_separator
    {first : LiteralPart}
    {c d : Char}
    (isMark : first = .letter '?' ∧ c = '?' ∨ first = .continuation ['\r'] ∧ c = '\r')
    (separates : isSeparator d = true)
    (later : List LiteralPart) :
    ∃ value, escapeValue [c, d] = .ok value ∧
      readUnits (first :: .plain d :: later) =
        Text.units value ++ readUnits later := by
  rcases isMark with ⟨rfl, rfl⟩ | ⟨rfl, rfl⟩
  · refine ⟨_, rfl, ?_⟩
    rw [readUnits_cons (fun _ _ => rfl), readUnits_cons (fun _ _ => rfl),
      ← List.append_assoc]
    unfold isSeparator at separates
    rw [Bool.or_eq_true, beq_iff_eq, beq_iff_eq] at separates
    rcases separates with rfl | rfl <;> rfl
  · refine ⟨_, rfl, ?_⟩
    have swallowed : swallows (.continuation ['\r']) (.plain d) = true := separates
    rw [readUnits, if_pos swallowed]
    rfl

/-- Behind a part that no separator is taken into stands what ends it. -/
theorem endsBefore_flat
    (after : List Char)
    (isQuote : quote = '\'' ∨ quote = '"')
    {first : LiteralPart}
    {parts : List LiteralPart}
    (legal : ∀ part ∈ parts, part.IsLegal quote)
    (follows : (first :: parts).IsChain MayFollow)
    (apart : ∀ c, parts.head? = some (.plain c) →
      first = .letter '?' ∨ first = .continuation ['\r'] → isSeparator c = false) :
    first.EndsBefore (flat parts ++ quote :: after) := by
  obtain ⟨c, rest, flatEq, isHead⟩ := head_flat after legal
  have quotes (holds : Char → Prop) (single : holds '\'') (double : holds '"') :
      holds quote := by
    rcases isQuote with rfl | rfl
    · exact single
    · exact double
  rw [flatEq]
  refine ⟨?_, fun isMark => ⟨c, rest, rfl, ?_, ?_⟩⟩
  · rintro rfl d isNext
    cases isNext
    rcases isHead with ⟨-, rfl⟩ | ⟨more, rfl⟩ | rfl
    · exact quotes (·.isDigit = false) rfl rfl
    · exact (List.isChain_cons_cons.1 follows).1
    · rfl
  · rcases isHead with ⟨-, rfl⟩ | ⟨more, rfl⟩ | rfl
    · exact quotes (· ≠ '\n') (by decide) (by decide)
    · rintro rfl
      have isPlain : isPlain quote '\n' = true := legal _ List.mem_cons_self
      simp [Syntax.isPlain] at isPlain
    · decide
  · rcases isHead with ⟨-, rfl⟩ | ⟨more, rfl⟩ | rfl
    · exact quotes (isSeparator · = false) rfl rfl
    · exact apart c rfl isMark
    · rfl

/-- An escape sequence starts with a backslash. -/
theorem exists_body
    {part : LiteralPart}
    (escapes : ∀ c, part ≠ .plain c) :
    ∃ body, part.written = '\\' :: body := by
  cases part with
  | plain c => exact absurd rfl (escapes c)
  | letter | nul | byte | unit | point | continuation => exact ⟨_, rfl⟩

theorem length_written_pos
    (part : LiteralPart) :
    0 < part.written.length := by
  cases part <;> exact Nat.succ_pos _

/-- What stands between the quotes of a literal is read part by part. -/
theorem exists_parts
    (bytesEq : m.bytes = Utf8.encode text)
    (isQuote : quote = '\'' ∨ quote = '"')
    {parts : List LiteralPart}
    (legal : ∀ part ∈ parts, part.IsLegal quote)
    (follows : parts.IsChain MayFollow)
    (at_ : cursor.At text (flat parts ++ quote :: after))
    {count : Nat}
    (enough : (flat parts).length < count) :
    ∃ nodes next, upTo count (literalPart quote) cursor = some (nodes, next) ∧
      cursor.Reaches text (quote :: after) next ∧
      Spells m nodes (readUnits parts) := by
  -- characters that stand for themselves are read at once, and an escape sequence
  -- may take a separator with it, so that the induction is on the number of parts
  generalize lengthEq : parts.length = length
  induction length using Nat.strongRecOn generalizing parts cursor count with
  | ind length lengthHypothesis =>
    obtain ⟨count, rfl⟩ := Nat.exists_eq_succ_of_ne_zero (by omega : count ≠ 0)
    have step
        {node : Node}
        {next : Cursor}
        {value : Text}
        {rest : List LiteralPart}
        (read : literalPart quote cursor = some (node, next))
        (nextAt : cursor.Reaches text (flat rest ++ quote :: after) next)
        (named : node.kind.isNamed = true)
        (valued : m.fragmentValue node = .ok value)
        (isSuffix : rest.IsSuffix parts)
        (fewer : rest.length < parts.length)
        (shorter : (flat rest).length < (flat parts).length)
        (unitsEq : readUnits parts = Text.units value ++ readUnits rest) :
        ∃ nodes last, upTo (count + 1) (literalPart quote) cursor =
            some (nodes, last) ∧
          cursor.Reaches text (quote :: after) last ∧
          Spells m nodes (readUnits parts) := by
      obtain ⟨nodes, last, readMore, lastAt, spells⟩ :=
        lengthHypothesis rest.length (by omega)
          (fun part isPart => legal part (isSuffix.subset isPart))
          (follows.suffix isSuffix) nextAt.at_
          (by omega : (flat rest).length < count) rfl
      refine ⟨node :: nodes, last, upTo_succ_of_some read readMore,
        ⟨lastAt.at_, lastAt.remarks.trans nextAt.remarks⟩, ?_⟩
      rw [unitsEq]
      exact spells.cons named valued
    have quotePlain : isPlain quote quote = false := by simp [isPlain]
    cases parts with
    | nil =>
      have noEscape : quote ≠ '\\' := by
        rcases isQuote with rfl | rfl <;> decide
      refine ⟨[], cursor, upTo_succ_of_none ?_, ⟨at_, rfl⟩, .nil⟩
      exact (runOf_refused quotePlain).orElse (escape_refused noEscape) cursor at_.rest
    | cons first more =>
      have firstLegal := legal first List.mem_cons_self
      have moreLegal : ∀ part ∈ more, part.IsLegal quote := fun part isPart =>
        legal part (List.mem_cons_of_mem _ isPart)
      by_cases escapes : ∀ c, first ≠ .plain c
      · by_cases swallowed : ∃ d later, more = .plain d :: later ∧
          isSeparator d = true ∧
            (first = .letter '?' ∨ first = .continuation ['\r'])
        · obtain ⟨d, later, rfl, separates, isMark⟩ := swallowed
          obtain ⟨c, isBoth, writtenEq⟩ : ∃ c,
              (first = .letter '?' ∧ c = '?' ∨
                first = .continuation ['\r'] ∧ c = '\r') ∧
              first.written = ['\\', c] := by
            rcases isMark with rfl | rfl
            · exact ⟨'?', .inl ⟨rfl, rfl⟩, rfl⟩
            · exact ⟨'\r', .inr ⟨rfl, rfl⟩, rfl⟩
          obtain ⟨value, valued, unitsEq⟩ :=
            exists_escapeValue_separator isBoth separates later
          have recognised := escapeLength?_separator
            (isBoth.imp And.right And.right) separates (flat later ++ quote :: after)
          rw [flat_cons, flat_cons, writtenEq] at at_
          obtain ⟨node, next, read, nextAt, named, valued⟩ :=
            exists_escape quote [c, d] bytesEq at_ recognised
              valued
          refine step read nextAt named valued ⟨[_, _], rfl⟩
            (Nat.lt_add_right 1 (Nat.lt_succ_self _)) ?_ unitsEq
          have := length_written_pos first
          simp only [flat_cons, List.length_append]
          omega
        · push Not at swallowed
          obtain ⟨value, valued, unitsEq⟩ := exists_escapeValue firstLegal escapes
          have isApart (d : Char) (isNext : more.head? = some (.plain d))
              (isMark : first = .letter '?' ∨ first = .continuation ['\r']) :
              isSeparator d = false := by
            obtain ⟨later, rfl⟩ := List.head?_eq_some_iff.1 isNext
            rw [← Bool.not_eq_true]
            intro separates
            obtain ⟨noMark, noReturn⟩ := swallowed d later rfl separates
            exact isMark.elim noMark noReturn
          have ends := endsBefore_flat after isQuote moreLegal follows
            isApart
          have recognised := escapeLength?_written firstLegal escapes ends
          obtain ⟨body, writtenEq⟩ := exists_body escapes
          rw [writtenEq] at recognised valued
          rw [flat_cons, writtenEq, List.append_assoc] at at_
          obtain ⟨node, next, read, nextAt, named, valued⟩ :=
            exists_escape quote body bytesEq at_ recognised valued
          refine step read nextAt named valued ⟨[_], rfl⟩ (Nat.lt_succ_self _) ?_ ?_
          · have := length_written_pos first
            simp only [flat_cons, List.length_append]
            omega
          · rw [unitsEq]
            refine readUnits_cons fun second isNext => ?_
            unfold swallows
            split
            · exact isApart _ isNext (.inr rfl)
            · rfl
      · push Not at escapes
        obtain ⟨c, rfl⟩ := escapes
        obtain ⟨run, rest, rfl, stops⟩ := exists_split_run more
        have splitEq : LiteralPart.plain c :: (run.map .plain ++ rest) =
            (c :: run).map .plain ++ rest := rfl
        have restLegal : ∀ part ∈ rest, part.IsLegal quote := fun part isPart =>
          moreLegal part (List.mem_append_right _ isPart)
        have plain : (c :: run).all (isPlain quote) = true := by
          rw [List.all_eq_true]
          intro d isRun
          exact legal (.plain d) (by
            rw [splitEq]
            exact List.mem_append_left _ (List.mem_map_of_mem isRun))
        have runStops :
            (flat rest ++ quote :: after).takeWhile (isPlain quote) = [] := by
          obtain ⟨d, later, flatEq, isHead⟩ := head_flat after restLegal
          rw [flatEq]
          refine List.takeWhile_cons_of_neg ?_
          rcases isHead with ⟨-, rfl⟩ | ⟨more, rfl⟩ | rfl
          · simp [quotePlain]
          · exact absurd rfl (stops d)
          · simp [isPlain]
        rw [splitEq, flat_run, List.append_assoc] at at_
        obtain ⟨node, next, read, nextAt, named, valued⟩ :=
          exists_run bytesEq at_ (List.cons_ne_nil _ _) plain runStops
        refine step read nextAt named valued ⟨(c :: run).map .plain, rfl⟩ ?_ ?_ ?_
        · simp only [List.length_cons, List.length_append]
          omega
        · rw [splitEq, flat_run, List.length_append, List.length_cons]
          omega
        · rw [splitEq]
          exact readUnits_run _ _

end Parts

/-! ## Reading the literal -/

/-- A quote that stands next is read. -/
theorem exists_immediately
    {text after : List Char}
    {quote : Char}
    {cursor : Cursor}
    (at_ : cursor.At text (quote :: after)) :
    ∃ node next, immediately quote.toString .token cursor = some (node, next) ∧
      cursor.Reaches text after next ∧ node.kind = .token ∧
      node.start = cursor.offset := by
  have found : after? quote.toString.toList cursor.rest = some after := by
    rw [at_.rest]
    simp [after?]
  refine ⟨.leaf .token ⟨cursor.offset,
      (cursor.advance quote.toString.length).offset⟩,
    cursor.advance quote.toString.length, ?_, ?_, rfl, rfl⟩
  · unfold immediately
    rw [get_bind_apply, found]
    rfl
  · have single : quote.toString.length = [quote].length := by simp
    rw [single]
    exact at_.advance [quote]

/-- A legal literal in its quotes is read as one node. -/
theorem StringLiteral.IsLegal.exists_quoted
    {literal : StringLiteral}
    {m : Module}
    {text before after : List Char}
    {cursor : Cursor}
    (legal : literal.IsLegal)
    (bytesEq : m.bytes = Utf8.encode text)
    (at_ : cursor.At text before)
    (passes : Passes false before (literal.written ++ after)) :
    ∃ node next, quoted literal.quote cursor = some (node, next) ∧
      (cursor.skip).Reaches text after next ∧ node.kind = .string ∧
      m.text node = String.ofList literal.written ∧
      m.stringValue node = .ok (.ofUnits (readUnits literal.parts)) := by
  have place := at_.leads (.skip cursor false) (passes cursor at_.rest)
  have opens := place
  rw [StringLiteral.written, List.cons_append, List.append_assoc] at opens
  obtain ⟨opening, first, readOpening, firstAt, openingKind, startEq⟩ :=
    exists_immediately opens
  have enough : (flat literal.parts).length < first.rest.length + 1 := by
    rw [firstAt.at_.rest, List.length_append]
    omega
  obtain ⟨nodes, second, readParts, secondAt, spells⟩ :=
    exists_parts bytesEq legal.isQuote legal.legal legal.follows firstAt.at_ enough
  obtain ⟨closing, last, readClosing, lastAt, closingKind, -⟩ :=
    exists_immediately secondAt.at_
  have read : quoted literal.quote cursor =
      some (.mk .string none ⟨opening.start, last.offset⟩
        (opening :: nodes ++ [closing]), last) := by
    unfold quoted mark
    rw [bind_apply, gap_bind_apply, readOpening, Option.bind_some, bind_apply]
    have readMany : many (literalPart literal.quote) first =
        some (nodes, second) := readParts
    have sameMany : many (runOf .stringFragment (fun c => c != literal.quote &&
        c != '\\' && c != '\r' && c != '\n') <|> Reading.escape) first =
          some (nodes, second) := readMany
    rw [sameMany, Option.bind_some, bind_apply, readClosing]
    rfl
  refine ⟨_, last, read, ⟨lastAt.at_, ?_⟩, rfl, ?_, ?_⟩
  · exact lastAt.remarks.trans (secondAt.remarks.trans firstAt.remarks)
  · rw [startEq]
    exact Module.slice_between bytesEq place lastAt.at_
  · refine spells.stringValue ?_
    have namedEq : nodes.filter (·.kind.isNamed) = nodes :=
      List.filter_eq_self.2 spells.named
    have openingToken : opening.kind.isNamed = false := by rw [openingKind]; rfl
    have closingToken : closing.kind.isNamed = false := by rw [closingKind]; rfl
    show (opening :: nodes ++ [closing]).filter (·.kind.isNamed) = nodes
    rw [List.cons_append, List.filter_cons_of_neg (by simp [openingToken]),
      List.filter_append, namedEq, List.filter_cons_of_neg (by simp [closingToken]),
      List.filter_nil, List.append_nil]

/-- A legal literal is read as one node. -/
theorem StringLiteral.IsLegal.exists_stringLiteral
    {literal : StringLiteral}
    {m : Module}
    {text before after : List Char}
    {cursor : Cursor}
    (legal : literal.IsLegal)
    (bytesEq : m.bytes = Utf8.encode text)
    (at_ : cursor.At text before)
    (passes : Passes false before (literal.written ++ after)) :
    ∃ node next, Reading.stringLiteral cursor = some (node, next) ∧
      (cursor.skip).Reaches text after next ∧ node.kind = .string ∧
      m.text node = String.ofList literal.written ∧
      m.stringValue node = .ok (.ofUnits (readUnits literal.parts)) := by
  obtain ⟨node, next, read, rest⟩ := legal.exists_quoted bytesEq at_ passes
  refine ⟨node, next, ?_, rest⟩
  unfold Reading.stringLiteral
  rw [orElse_apply]
  rcases legal.isQuote with isSingle | isDouble
  · rw [isSingle] at read
    rw [read]
    rfl
  · rw [isDouble] at read
    have startsDouble : literal.written = '"' :: (flat literal.parts ++ ['"']) := by
      rw [StringLiteral.written, isDouble]
    rw [startsDouble, List.cons_append] at passes
    have refused : RefusedAt (quoted '\'') before :=
      quoted_refused passes (by decide)
    rw [refused cursor at_.rest, read]
    rfl

end Syntax
end StoryMigration
