import StoryMigration.Proofs.ExportPieces
import StoryMigration.Proofs.ParsedStatements

/-!
# The statements of a converted module

What a conversion should leave are the statements of the source in their order,
without those of the fragment and the import, and with the generated ones where
the anchor stood.  Each of them is found in the converted text at a place of
its own.  Whether they are the statements that the text parses into is another
question: a statement that was ended by its line alone can go on in what comes
to stand behind it.  They are, exactly if each of them, read by itself at its
place, ends where it should.
-/

namespace StoryMigration

open Syntax Chain Fallible LineSpan

/-- Top-level statements, without comments and the line for the shell. -/
def Syntax.Module.codeStatements (m : Module) : List Node :=
  m.statements.filter (·.kind.isCode)

theorem Syntax.Module.codeStatements_map
    (m : Module) :
    m.codeStatements.map Node.span = Node.codeSpans m.tree.children := by
  unfold codeStatements statements Node.parts Node.namedChildren Node.codeSpans
  rw [List.filter_filter, List.filter_filter]
  congr 1
  apply List.filter_congr
  intro node _
  cases node.kind <;> rfl

namespace Migration

variable (m : Module) (located : Located) (fragment : Fragment)
  (generated : List Piece)

/-! ## What should be left -/

/-- A statement is taken out: it belongs to the fragment, or it is the import
and nothing else is imported. -/
def goes (statement : Node) : Bool :=
  fragment.statements.any (·.span == statement.span) ||
    (importEdit m located fragment.statements).any fun edit =>
      edit.span.start ≤ statement.start && statement.stop ≤ edit.span.stop

/-- What a conversion leaves of the bytes of a statement. -/
def left (statement : Node) : List UInt8 :=
  kept m.bytes (removedSpans m located fragment) statement.start statement.stop

/-- The texts of the statements that should stand where one of the source has
stood. -/
def textsOf (statement : Node) : List (List UInt8) :=
  if statement.span = fragment.anchor.span then generated.map Piece.text
  else if goes m located fragment statement then []
  else [left m located fragment statement]

/-- Pieces behind some bytes. -/
def leadIn (front : List UInt8) : List Piece → List Piece
  | [] => []
  | piece :: pieces => { piece with gap := front ++ piece.gap } :: pieces

/-- The pieces that should stand for some statements of the source, from an
offset of it on. -/
def piecesFrom : Nat → List Node → List Piece
  | _, [] => []
  | offset, statement :: rest =>
      let gap := kept m.bytes (removedSpans m located fragment) offset
        statement.start
      if statement.span = fragment.anchor.span then
        leadIn gap generated ++ piecesFrom statement.stop rest
      else if goes m located fragment statement then piecesFrom offset rest
      else
        ⟨gap, left m located fragment statement⟩ ::
          piecesFrom statement.stop rest

/-- The places in the converted text where its statements should stand. -/
def expectedSpans : List Span :=
  Piece.spansFrom 0
    (Piece.trimmed (piecesFrom m located fragment generated 0 m.codeStatements))

theorem layOut_leadIn
    {pieces : List Piece}
    (front : List UInt8)
    (nonempty : pieces ≠ []) :
    Piece.layOut (leadIn front pieces) = front ++ Piece.layOut pieces := by
  cases pieces with
  | nil => contradiction
  | cons piece pieces =>
    simp only [leadIn, Piece.layOut_cons, List.append_assoc]

theorem text_leadIn
    (front : List UInt8)
    (pieces : List Piece) :
    (leadIn front pieces).map Piece.text = pieces.map Piece.text := by
  cases pieces <;> rfl

/-- The pieces hold the texts that should be left. -/
theorem text_piecesFrom
    (offset : Nat)
    (statements : List Node) :
    (piecesFrom m located fragment generated offset statements).map
        Piece.text =
      statements.flatMap (textsOf m located fragment generated) := by
  induction statements generalizing offset with
  | nil => rfl
  | cons statement rest restHypothesis =>
    rw [List.flatMap_cons, textsOf]
    simp only [piecesFrom]
    split
    · rw [List.map_append, text_leadIn, restHypothesis]
    · split
      · rw [restHypothesis, List.nil_append]
      · rw [List.map_cons, restHypothesis, List.singleton_append]

variable {m located fragment generated}

/-- Statements of the source that stand one behind the other from one offset up
to another. -/
structure InOrder (first last : Nat) (statements : List Node) : Prop where
  inTurn : statements.Pairwise fun a b => a.stop ≤ b.start
  forward : ∀ statement ∈ statements, statement.start < statement.stop
  behind : ∀ statement ∈ statements, first ≤ statement.start
  before : ∀ statement ∈ statements, statement.stop ≤ last

theorem InOrder.tail
    {first last : Nat}
    {statement : Node}
    {rest : List Node}
    (inOrder : InOrder first last (statement :: rest)) :
    InOrder statement.stop last rest where
  inTurn := (List.pairwise_cons.1 inOrder.inTurn).2
  forward other member :=
    inOrder.forward other (List.mem_cons_of_mem _ member)
  behind := (List.pairwise_cons.1 inOrder.inTurn).1
  before other member := inOrder.before other (List.mem_cons_of_mem _ member)

theorem InOrder.weaken
    {first second last : Nat}
    {statements : List Node}
    (inOrder : InOrder second last statements)
    (earlier : first ≤ second) :
    InOrder first last statements where
  inTurn := inOrder.inTurn
  forward := inOrder.forward
  behind other member := Nat.le_trans earlier (inOrder.behind other member)
  before := inOrder.before

/-- Without the anchor, the pieces are laid out as what is kept of the
source. -/
theorem exists_kept
    (m : Module)
    (located : Located)
    (generated : List Piece)
    {first last : Nat}
    {statements : List Node}
    (inOrder : InOrder first last statements)
    (ordered : first ≤ last)
    (noAnchor : ∀ statement ∈ statements,
      statement.span ≠ fragment.anchor.span) :
    ∃ tail, Piece.layOut
        (piecesFrom m located fragment generated first statements) ++ tail =
      kept m.bytes (removedSpans m located fragment) first last := by
  induction statements generalizing first with
  | nil => exact ⟨_, rfl⟩
  | cons statement rest restHypothesis =>
    have behind := inOrder.behind statement List.mem_cons_self
    have before := inOrder.before statement List.mem_cons_self
    have forward := inOrder.forward statement List.mem_cons_self
    have restNoAnchor : ∀ other ∈ rest, other.span ≠ fragment.anchor.span :=
      fun other member => noAnchor other (List.mem_cons_of_mem _ member)
    simp only [piecesFrom]
    rw [if_neg (noAnchor statement List.mem_cons_self)]
    split
    · exact restHypothesis (inOrder.tail.weaken (by omega)) ordered
        restNoAnchor
    · obtain ⟨tail, laidOut⟩ :=
        restHypothesis inOrder.tail before restNoAnchor
      refine ⟨tail, ?_⟩
      rw [Piece.layOut_cons, List.append_assoc, laidOut, left,
        kept_append _ _ behind (Nat.le_of_lt forward),
        kept_append _ _ (by omega) before]

/-- With the anchor, the generated pieces are laid out in its place. -/
theorem exists_converted
    (located : Located)
    {first last : Nat}
    {statements : List Node}
    (nonempty : generated ≠ [])
    (inOrder : InOrder first last statements)
    (ordered : first ≤ last)
    (member : fragment.anchor ∈ statements) :
    ∃ tail, Piece.layOut
        (piecesFrom m located fragment generated first statements) ++ tail =
      kept m.bytes (removedSpans m located fragment) first
          fragment.anchor.start ++
        Piece.layOut generated ++
        kept m.bytes (removedSpans m located fragment) fragment.anchor.stop
          last := by
  induction statements generalizing first with
  | nil => contradiction
  | cons statement rest restHypothesis =>
    have behind := inOrder.behind statement List.mem_cons_self
    have before := inOrder.before statement List.mem_cons_self
    have forward := inOrder.forward statement List.mem_cons_self
    simp only [piecesFrom]
    by_cases isAnchor : statement.span = fragment.anchor.span
    · have startEq : statement.start = fragment.anchor.start :=
        congrArg Span.start isAnchor
      have stopEq : statement.stop = fragment.anchor.stop :=
        congrArg Span.stop isAnchor
      rw [if_pos isAnchor]
      have noAnchor : ∀ other ∈ rest,
          other.span ≠ fragment.anchor.span := by
        intro other isOther same
        have otherStart : other.start = fragment.anchor.start :=
          congrArg Span.start same
        have := inOrder.tail.behind other isOther
        omega
      obtain ⟨tail, laidOut⟩ :=
        exists_kept m located generated inOrder.tail before noAnchor
      refine ⟨tail, ?_⟩
      rw [Piece.layOut_append, layOut_leadIn _ nonempty, List.append_assoc,
        laidOut, startEq, stopEq]
    · rw [if_neg isAnchor]
      have inRest : fragment.anchor ∈ rest :=
        (List.mem_cons.1 member).resolve_left fun same =>
          isAnchor (by rw [same])
      have anchorBehind := inOrder.tail.behind _ inRest
      split
      · exact restHypothesis (inOrder.tail.weaken (by omega)) ordered inRest
      · obtain ⟨tail, laidOut⟩ := restHypothesis inOrder.tail before inRest
        refine ⟨tail, ?_⟩
        rw [Piece.layOut_cons, List.append_assoc, laidOut, left]
        simp only [← List.append_assoc]
        rw [kept_append _ _ behind (Nat.le_of_lt forward),
          kept_append _ _ (by omega) anchorBehind]

/-! ## Where texts start and stop -/

/-- What is left of the statements neither starts nor stops with a line
ending. -/
def Tight (m : Module) (located : Located) (fragment : Fragment) : Prop :=
  ∀ statement ∈ m.codeStatements, statement.span ≠ fragment.anchor.span →
    goes m located fragment statement = false →
      Piece.Starts (left m located fragment statement) ∧
        Piece.Stops (left m located fragment statement)

instance : Decidable (Tight m located fragment) :=
  inferInstanceAs (Decidable (∀ statement ∈ m.codeStatements, _))

theorem stops_piecesFrom
    {offset : Nat}
    {statements : List Node}
    {piece : Piece}
    (tight : Tight m located fragment)
    (generatedStop : ∀ piece ∈ generated, Piece.Stops piece.text)
    (subset : ∀ statement ∈ statements, statement ∈ m.codeStatements)
    (member : piece ∈
      piecesFrom m located fragment generated offset statements) :
    Piece.Stops piece.text := by
  have isText : piece.text ∈
      statements.flatMap (textsOf m located fragment generated) := by
    rw [← text_piecesFrom m located fragment generated offset]
    exact List.mem_map_of_mem member
  obtain ⟨statement, isStatement, isText⟩ := List.mem_flatMap.1 isText
  unfold textsOf at isText
  split at isText
  · obtain ⟨own, isOwn, same⟩ := List.mem_map.1 isText
    rw [← same]
    exact generatedStop own isOwn
  · rename_i notAnchor
    split at isText
    · contradiction
    · rename_i stays
      rw [List.mem_singleton.1 isText]
      exact (tight statement (subset statement isStatement) notAnchor
        (Bool.not_eq_true _ ▸ stays)).2

/-- The first piece is one of a statement that stays, or the first that is
generated. -/
theorem starts_piecesFrom
    {offset : Nat}
    {statements : List Node}
    {piece : Piece}
    {pieces : List Piece}
    (tight : Tight m located fragment)
    (generatedStarts : ∃ first rest, generated = first :: rest ∧
      Piece.Starts first.text)
    (subset : ∀ statement ∈ statements, statement ∈ m.codeStatements)
    (piecesEq : piecesFrom m located fragment generated offset statements =
      piece :: pieces) :
    Piece.Starts piece.text := by
  induction statements generalizing offset with
  | nil => contradiction
  | cons statement rest restHypothesis =>
    simp only [piecesFrom] at piecesEq
    split at piecesEq
    · obtain ⟨first, others, rfl, starts⟩ := generatedStarts
      rw [leadIn, List.cons_append, List.cons.injEq] at piecesEq
      rw [← piecesEq.1]
      exact starts
    · rename_i notAnchor
      split at piecesEq
      · exact restHypothesis
          (fun other member => subset other (List.mem_cons_of_mem _ member))
          piecesEq
      · rename_i stays
        rw [List.cons.injEq] at piecesEq
        rw [← piecesEq.1]
        exact (tight statement (subset statement List.mem_cons_self) notAnchor
          (Bool.not_eq_true _ ▸ stays)).1

/-! ## The source and its statements -/

theorem inOrder_codeStatements
    (orderly : m.Orderly) :
    InOrder 0 m.bytes.length m.codeStatements where
  inTurn := orderly.inTurn.sublist List.filter_sublist
  forward statement member := by
    have isStatement := List.mem_of_mem_filter member
    obtain ⟨offset, startLe, ltStop, -⟩ :=
      (orderly.anchored statement isStatement).lastLine
    omega
  behind _ _ := Nat.zero_le _
  before statement member :=
    (orderly.statement (List.mem_of_mem_filter member)).2

theorem anchor_mem_codeStatements
    {localName : String}
    (grounded : fragment.Grounded m localName)
    (sublist : fragment.statements.Sublist m.statements) :
    fragment.anchor ∈ m.codeStatements := by
  have member := anchor_mem fragment
  refine List.mem_filter.2 ⟨sublist.subset member, ?_⟩
  rcases List.mem_cons.1 member with isFirst | isLater
  · obtain ⟨expression, found⟩ := grounded.bound
    rw [isFirst]
    rcases statementExpression_eq_some found with
      ⟨-, ⟨isExpression, -⟩ | ⟨isDeclaration, -⟩⟩
    · rw [isExpression]
      rfl
    · cases kindEq : fragment.first.kind <;> rw [kindEq] at isDeclaration <;>
        first | rfl | contradiction
  · rw [grounded.laterKind _ isLater]
    rfl

/-- What goes with another statement takes nothing of a statement. -/
theorem holds_eq_false
    {statement other : Node}
    {span : Span}
    {offset : Nat}
    (orderly : m.Orderly)
    (member : statement ∈ m.statements)
    (otherMember : other ∈ m.statements)
    (different : other ≠ statement)
    (grown : Grown m.bytes other span)
    (startLe : statement.start ≤ offset)
    (ltStop : offset < statement.stop) :
    span.holds offset = false := by
  have own := Grown.self (orderly.statement member).2
  have anchored := orderly.anchored statement member
  have otherAnchored := orderly.anchored other otherMember
  have apart : span.stop ≤ statement.start ∨ statement.stop ≤ span.start := by
    rcases orderly.nested.inTurn_of_ne (m.tree.parts_subset otherMember)
      (m.tree.parts_subset member) different with before | behind
    · exact .inl (grown.stop_le_start own before otherAnchored anchored)
    · exact .inr (own.stop_le_start grown behind anchored otherAnchored)
  unfold Span.holds
  rw [Bool.and_eq_false_iff, decide_eq_false_iff_not, decide_eq_false_iff_not]
  omega

/-- The removal of the import belongs to the import that binds the function. -/
theorem importEdit_belongsTo
    {excluded : List Node}
    {edit : Edit}
    (orderly : m.Orderly)
    (found : importEdit m located excluded = some edit) :
    ∃ importing ∈ m.statements,
      located.specifier.bind (ImportRemoval.statementOf? m) = some importing ∧
        edit.BelongsTo m importing := by
  obtain ⟨specifier, isSpecifier, found⟩ := Option.bind_eq_some_iff.1 found
  obtain ⟨importing, isImport, found⟩ := Option.bind_eq_some_iff.1 found
  obtain ⟨member, -⟩ := ImportRemoval.statementOf?_eq_some isImport
  split at found
  · rw [Option.some.injEq] at found
    rw [← found]
    refine ⟨importing, member, ?_,
      (ImportRemoval.edit_belongsTo orderly member specifier).1⟩
    rw [isSpecifier, Option.bind_some, isImport]
  · contradiction

/-- A statement that stays keeps its text, unless it is the import that loses a
part. -/
theorem left_eq_bytes
    {statement : Node}
    (orderly : m.Orderly)
    (sublist : fragment.statements.Sublist m.statements)
    (member : statement ∈ m.statements)
    (stays : goes m located fragment statement = false)
    (notImport : located.specifier.bind (ImportRemoval.statementOf? m) ≠
      some statement) :
    left m located fragment statement = statement.span.bytes m.bytes := by
  unfold goes at stays
  rw [Bool.or_eq_false_iff, List.any_eq_false] at stays
  suffices untouched : ∀ offset, statement.start ≤ offset →
      offset < statement.stop →
      (removedSpans m located fragment).any (·.holds offset) =
        ([] : List Span).any (·.holds offset) by
    rw [left, kept_congr m.bytes untouched, kept_nil]
    rfl
  intro offset startLe ltStop
  rw [List.any_nil, List.any_eq_false]
  intro span isRemoved
  rw [Bool.not_eq_true]
  rcases List.mem_append.1 isRemoved with isOwn | isImport
  · obtain ⟨other, isOther, rfl⟩ := List.mem_map.1 isOwn
    have otherMember := sublist.subset (mem_of_mem_dropLast isOther)
    have different : other ≠ statement := by
      rintro rfl
      exact stays.1 other (mem_of_mem_dropLast isOther) (beq_self_eq_true _)
    obtain ⟨nested, inside⟩ := orderly.statement otherMember
    exact holds_eq_false orderly member otherMember different
      (around_grown true nested.forward inside) startLe ltStop
  · obtain ⟨edit, isEdit, rfl⟩ := List.mem_map.1 isImport
    obtain ⟨importing, importMember, isImporting, belongs⟩ :=
      importEdit_belongsTo orderly (Option.mem_toList.1 isEdit)
    have different : importing ≠ statement := by
      rintro rfl
      exact notImport isImporting
    obtain ⟨span, grown, spanStart, spanStop⟩ := belongs.within
    have missed := holds_eq_false orderly member importMember different grown
      startLe ltStop
    unfold Span.holds at missed ⊢
    rw [Bool.and_eq_false_iff, decide_eq_false_iff_not,
      decide_eq_false_iff_not] at missed ⊢
    have startEq : edit.span.start = edit.start.toNat := rfl
    have stopEq : edit.span.stop = edit.stop.toNat := rfl
    omega

/-! ## The generated statements -/

/-- The statements that a fragment is written as, with line ends in the style of
the module. -/
def writtenPieces
    (options : Options)
    (m : Module)
    (located : Located)
    (fragment : Fragment) : Except EscapeError (List Piece) := do
  let metadata ← Story.Metadata.ofFragment m fragment located.exports.named
  let entries ← Story.ofFragment m fragment
  let stories := Story.named (.ofList (m.identifiers m.tree)) entries
  pure ((Story.codePieces options m metadata stories).map
    (CodePiece.written (Newline.ofText m.source.toList)))

/-- The generated code is laid out in its statements, each of which ends with a
semicolon; the first is the default export. -/
theorem exists_writtenPieces
    {options : Options}
    {code : String}
    {count : Nat}
    (written : Migration.generated options m located fragment =
      .ok (code, count)) :
    ∃ first rest,
      writtenPieces options m located fragment = .ok (first :: rest) ∧
      Piece.layOut (first :: rest) = Utf8.ofString code ∧
      Piece.Starts first.text ∧
      ∀ piece ∈ first :: rest, Piece.Stops piece.text := by
  unfold Migration.generated at written
  rw [bind_eq_ok] at written
  obtain ⟨metadata, metadataEq, written⟩ := written
  rw [bind_eq_ok] at written
  obtain ⟨entries, entriesEq, written⟩ := written
  rw [pure_eq_ok, Prod.mk.injEq] at written
  obtain ⟨codeEq, -⟩ := written
  generalize storiesEq :
    Story.named (.ofList (m.identifiers m.tree)) entries = stories at codeEq
  generalize newlineEq : Newline.ofText m.source.toList = newline at codeEq
  have piecesEq : writtenPieces options m located fragment =
      .ok ((Story.codePieces options m metadata stories).map
        (CodePiece.written newline)) := by
    unfold writtenPieces
    rw [metadataEq, entriesEq, ← storiesEq, ← newlineEq]
    rfl
  have laidOut {piece : CodePiece}
      (member : piece ∈ Story.codePieces options m metadata stories) :
      piece.IsLaidOut :=
    Story.isLaidOut_codePieces options m member
  have together := CodePiece.layOut_written newline fun _ => laidOut
  rw [← Story.assembled_eq, codeEq] at together
  obtain ⟨_, starts⟩ := Story.toList_defaultPiece options m metadata
  have startsWritten := newline.starts_spread starts
  rw [← CodePiece.text_written] at startsWritten
  have stop : ∀ piece ∈ (Story.codePieces options m metadata stories).map
      (CodePiece.written newline), Piece.Stops piece.text := by
    intro piece member
    obtain ⟨own, isOwn, rfl⟩ := List.mem_map.1 member
    rw [CodePiece.text_written]
    exact newline.stops_spread (laidOut isOwn).text
  rw [Story.codePieces, List.map_cons] at piecesEq together stop
  exact ⟨_, _, piecesEq, together, startsWritten, stop⟩

end Migration
end StoryMigration
