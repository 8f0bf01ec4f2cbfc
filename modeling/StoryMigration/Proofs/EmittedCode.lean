import StoryMigration.Proofs.ConversionFailures
import StoryMigration.Proofs.JoinedStatements
import StoryMigration.Proofs.PlacedStatements

/-!
# Converted sources that parse

A conversion fails with its own result only if that does not parse.  Whatever
titles, names and comments are written into the generated statements, these are
read as statements if what is copied into them is read where it is written, and
if no title and no name has the NUL character, which no literal escapes.
-/

namespace StoryMigration

open Syntax

theorem Newline.nul_not_mem_spread
    (newline : Newline)
    {text : String}
    (noNul : '\x00' ∉ text.toList) :
    '\x00' ∉ (newline.spread text).toList := by
  rw [newline.toList_spread]
  intro member
  rcases newline.mem_spreadList member with isOwn | isFeed | isReturn
  · exact noNul isOwn
  · exact absurd isFeed (by decide)
  · exact absurd isReturn (by decide)

namespace Story

open Snippet

variable (options : Options) (m : Module)

/-- Every generated statement is read where it fits. -/
theorem reads_codeStatements
    {newline : Newline}
    {dialect : Dialect}
    {text before after : List Char}
    {metadata : Metadata}
    {stories : List NamedEntry}
    {statement : List Snippet}
    (isWord : Lexeme.IsWord options.storyProperty.toList)
    (free : ∀ story ∈ stories, IsFreeName story.identifier)
    (isStatement : statement ∈ codeStatements options m metadata stories)
    (fits : AllFit newline dialect text statement after)
    (passes : Reading.Passes true before (lay newline statement after)) :
    Reading.Reads text (within dialect text 1).statementRule before after := by
  rcases List.mem_cons.1 isStatement with rfl | inStory
  · exact reads_defaultSnippets options m metadata fits passes
  · obtain ⟨story, isStory, isPiece⟩ := List.mem_flatMap.1 inStory
    have isFree := free story isStory
    rcases List.mem_cons.1 isPiece with rfl | isPiece
    · exact reads_exportSnippets options m isFree fits passes
    · split at isPiece
      · contradiction
      · obtain rfl := List.mem_singleton.1 isPiece
        exact reads_annotationSnippets options m isFree isWord fits passes

/-- No generated statement, and nothing in front of one, has the NUL
character. -/
theorem nul_not_mem_assembled
    {metadata : Metadata}
    {stories : List NamedEntry}
    (nulFree : m.NulFree)
    (clear : ∀ statement ∈ codeStatements options m metadata stories,
      AllClear statement) :
    '\x00' ∉ (assembled options m metadata stories).toList := by
  have texts : ∀ piece ∈ codePieces options m metadata stories,
      '\x00' ∉ piece.text.toList := by
    intro piece isPiece
    have isText := List.mem_map_of_mem (f := CodePiece.text) isPiece
    rw [← map_spelled_codeStatements] at isText
    obtain ⟨statement, isStatement, same⟩ := List.mem_map.1 isText
    rw [← same, toList_spelled]
    exact (clear statement isStatement).nul_not_mem
  have fronts : ∀ piece ∈ codePieces options m metadata stories,
      '\x00' ∉ piece.front.toList := nul_not_mem_front options nulFree
  rw [assembled_eq]
  generalize codePieces options m metadata stories = pieces at texts fronts
  induction pieces with
  | nil => exact List.not_mem_nil
  | cons piece pieces piecesHypothesis =>
    have rest := piecesHypothesis
      (fun other member => texts other (List.mem_cons_of_mem _ member))
      (fun other member => fronts other (List.mem_cons_of_mem _ member))
    rw [CodePiece.join, String.toList_append, String.toList_append,
      List.mem_append, List.mem_append, not_or, not_or]
    exact ⟨⟨fronts piece List.mem_cons_self, texts piece List.mem_cons_self⟩,
      rest⟩

end Story

namespace Migration

open Chain Fallible LineSpan

variable {m : Module} {options : Options} {located : Located}
  {fragment : Fragment}

/-! ## Generated statements among those of the source -/

/-- The statements that should stand where one of the source has stood, each
generated one in its snippets. -/
def snippetsOf
    (m : Module)
    (located : Located)
    (fragment : Fragment)
    (generated : List (List Snippet))
    (statement : Node) : List (Option (List Snippet)) :=
  if statement.span = fragment.anchor.span then generated.map some
  else if goes m located fragment statement then []
  else [none]

/-- The statements that should be left, at their places. -/
def placedStatements
    (m : Module)
    (located : Located)
    (fragment : Fragment)
    (pieces : List Piece)
    (generated : List (List Snippet)) : List Placed :=
  List.zipWith Placed.mk (expectedSpans m located fragment pieces)
    (m.codeStatements.flatMap (snippetsOf m located fragment generated))

/-- The generated statements among those that should be left have the texts of
their snippets. -/
theorem forall₂_snippetsOf
    (m : Module)
    (located : Located)
    (fragment : Fragment)
    {pieces : List Piece}
    {generated : List (List Snippet)}
    {bytesOf : List Snippet → List UInt8}
    (texts : pieces.map Piece.text = generated.map bytesOf)
    (statements : List Node) :
    List.Forall₂
      (fun text label => ∀ snippets, label = some snippets →
        snippets ∈ generated ∧ text = bytesOf snippets)
      (statements.flatMap (textsOf m located fragment pieces))
      (statements.flatMap (snippetsOf m located fragment generated)) := by
  induction statements with
  | nil => exact .nil
  | cons statement others othersHypothesis =>
    rw [List.flatMap_cons, List.flatMap_cons]
    refine List.rel_append ?_ othersHypothesis
    unfold textsOf snippetsOf
    split
    · rw [texts, List.forall₂_map_left_iff, List.forall₂_map_right_iff,
        List.forall₂_same]
      rintro own isOwn snippets sameSnippets
      obtain rfl := Option.some.inj sameSnippets
      exact ⟨isOwn, rfl⟩
    · split
      · exact .nil
      · exact .cons (fun _ impossible => by contradiction) .nil

/-! ## The NUL character -/

theorem zero_not_mem_of_parse?
    {dialect : Dialect}
    {source : String}
    (parsed : Module.parse? dialect source = some m) :
    (0 : UInt8) ∉ m.bytes := by
  obtain ⟨tree, readTree, rfl⟩ := Option.map_eq_some_iff.1 parsed
  have noNul : '\x00' ∉ source.toList := by
    simpa using noNul_of_parse? readTree
  exact fun member =>
    noNul ((Utf8.mem_encode_iff (c := '\x00') rfl (by decide) _).1 member)

theorem mem_of_mem_kept
    {source : List UInt8}
    {gone : List Span}
    {first last : Nat}
    {b : UInt8}
    (member : b ∈ kept source gone first last) :
    b ∈ source := by
  obtain ⟨offset, -, found⟩ := List.mem_filterMap.1 member
  split at found
  · contradiction
  · exact List.mem_of_getElem? found

/-- What is made of a source without the NUL character by code without it does
not have it. -/
theorem nul_not_mem_normalizedEnds
    {code text : String}
    (sourceNul : (0 : UInt8) ∉ m.bytes)
    (codeNul : '\x00' ∉ code.toList)
    (textBytes : Utf8.ofString text = convertedBytes m located fragment code) :
    '\x00' ∉ (Newline.normalizedEnds text).toList := by
  intro member
  obtain ⟨middle, isMiddle, regular⟩ := Newline.normalizedEnds_eq text
  obtain ⟨front, back, textEq, -⟩ := isMiddle.split
  rw [regular, String.toList_ofList, List.mem_append] at member
  have inText : '\x00' ∈ text.toList := by
    rcases member with inMiddle | inEnd
    · rw [textEq]
      exact List.mem_append_left _ (List.mem_append_right _ inMiddle)
    · generalize Newline.ofText text.toList = newline at inEnd
      cases newline <;> exact absurd inEnd (by decide)
  have isByte : (0 : UInt8) ∈ Utf8.ofString text :=
    (Utf8.mem_encode_iff (c := '\x00') rfl (by decide) _).2 inText
  rw [textBytes, convertedBytes, List.mem_append, List.mem_append] at isByte
  rcases isByte with (inFront | inCode) | inBack
  · exact sourceNul (mem_of_mem_kept inFront)
  · exact codeNul
      ((Utf8.mem_encode_iff (c := '\x00') rfl (by decide) _).1 inCode)
  · exact sourceNul (mem_of_mem_kept inBack)

/-! ## The result parses -/

section Written

variable {newline : Newline} {dialect : Dialect} {text : List Char}
  {tail : List UInt8} {pieces : List Piece} {codes : List CodePiece}
  {generated : List (List Snippet)}

theorem map_text_written
    (newline : Newline)
    (texts : generated.map Snippet.spelled = codes.map CodePiece.text) :
    (codes.map (CodePiece.written newline)).map Piece.text =
      generated.map fun snippets =>
        Utf8.encode (newline.spreadList (Snippet.flat snippets)) := by
  have spreadTexts := congrArg (List.map fun text =>
    Utf8.encode (newline.spread text).toList) texts
  simp only [List.map_map, Function.comp_def, Newline.toList_spread,
    Snippet.toList_spelled] at spreadTexts
  rw [spreadTexts]
  simp only [List.map_map, Function.comp_def, CodePiece.text_written,
    Utf8.ofString, Newline.toList_spread]

/-- The generated statements among those that should be left are written where
they should stand. -/
theorem isWritten_placedStatements
    (texts : generated.map Snippet.spelled = codes.map CodePiece.text)
    (clear : ∀ snippets ∈ generated, Snippet.AllClear snippets)
    (reads : ∀ snippets ∈ generated, ∀ before after,
      Snippet.AllFit newline dialect text snippets after →
      Reading.Passes true before (Snippet.lay newline snippets after) →
        Reading.Reads text (within dialect text 1).statementRule before after)
    (piecesEq : codes.map (CodePiece.written newline) = pieces)
    (laidOut : Utf8.encode text = Piece.layOut (Piece.trimmed
      (piecesFrom m located fragment pieces 0 m.codeStatements)) ++ tail) :
    (placedStatements m located fragment pieces generated).map Placed.span =
        expectedSpans m located fragment pieces ∧
      ∀ statement ∈ placedStatements m located fragment pieces generated,
        ∀ snippets, statement.snippets = some snippets →
          statement.IsWritten newline dialect text snippets := by
  have bytesEq : (expectedSpans m located fragment pieces).map
      (·.bytes (Utf8.encode text)) =
        m.codeStatements.flatMap (textsOf m located fragment pieces) := by
    have found := Piece.bytes_spansFrom (Piece.trimmed
      (piecesFrom m located fragment pieces 0 m.codeStatements)) [] tail
    rw [Piece.text_trimmed, text_piecesFrom, List.nil_append, ← laidOut]
      at found
    exact found
  have inside := Piece.spansFrom_inside 0 (Piece.trimmed
    (piecesFrom m located fragment pieces 0 m.codeStatements))
  have sameTexts := map_text_written newline texts
  rw [piecesEq] at sameTexts
  have each := forall₂_snippetsOf m located fragment sameTexts m.codeStatements
  rw [← bytesEq, List.forall₂_map_left_iff] at each
  obtain ⟨spansEq, written⟩ :=
    Placed.zipWith_mk ((List.forall₂_and_left _ _).2 ⟨inside, each⟩)
  refine ⟨spansEq, fun statement isPlaced snippets snippetsEq => ?_⟩
  obtain ⟨⟨forward, stop⟩, own⟩ := written statement isPlaced
  obtain ⟨isGenerated, textEq⟩ := own snippets snippetsEq
  exact
    { clear := clear snippets isGenerated
      bytes := textEq
      forward := forward
      inside := by
        rw [laidOut, List.length_append]
        omega
      reads := reads snippets isGenerated }

/-- A text parses that is laid out in statements that fit. -/
theorem exists_parse_of_fitInTurn
    {text : String}
    {metadata : Story.Metadata}
    {stories : List Story.NamedEntry}
    (isWord : Lexeme.IsWord options.storyProperty.toList)
    (free : ∀ story ∈ stories, IsFreeName story.identifier)
    (clear : ∀ statement ∈ Story.codeStatements options m metadata stories,
      Snippet.AllClear statement)
    (noNul : '\x00' ∉ text.toList)
    (stop : ∀ piece ∈ piecesFrom m located fragment
      ((Story.codePieces options m metadata stories).map
        (CodePiece.written newline)) 0 m.codeStatements,
      Piece.Stops piece.text)
    (laidOut : Utf8.ofString text = Piece.layOut (Piece.trimmed
      (piecesFrom m located fragment
        ((Story.codePieces options m metadata stories).map
          (CodePiece.written newline)) 0 m.codeStatements)) ++ tail)
    (fit : Placed.FitInTurn newline dialect text.toList
      (opening text.toList).offset
      (placedStatements m located fragment
        ((Story.codePieces options m metadata stories).map
          (CodePiece.written newline))
        (Story.codeStatements options m metadata stories))) :
    ∃ result, Module.parse? dialect text = some result := by
  obtain ⟨spansEq, isWritten⟩ := isWritten_placedStatements
    (Story.map_spelled_codeStatements options m metadata stories) clear
    (fun statement isStatement before after =>
      Story.reads_codeStatements options m isWord free isStatement)
    rfl laidOut
  have stands := (Cursor.StandsIn.ofText text.toList).leads
    (opening_leads text.toList)
  have inTurn := Placed.readInTurn_of_fitInTurn isWritten stands fit
  rw [spansEq] at inTurn
  have ascends := (Piece.spansFrom_ascend 0 (Piece.trimmed_filled
    fun piece isPiece => (stop piece isPiece).ne_nil)).2
  have noNulBool : text.toList.contains '\x00' = false := by
    simpa using noNul
  obtain ⟨tree, readTree, -⟩ :=
    (parse?_codeSpans_iff noNulBool ascends).2 inTurn
  unfold Module.parse?
  rw [readTree]
  exact ⟨_, rfl⟩

end Written

variable {host : Command.Host} {path source : String} {asked : Option Dialect}
  {metadata : Story.Metadata} {entries : List Story.Entry}
  {stories : List Story.NamedEntry}

/-- A conversion without stripping and formatting has a result that parses if no
title and no name that is written as a value has the NUL character, if each
statement of the source that stays is read where it comes to stand, and if what
is copied into the generated statements is read where it is copied to.  What is
generated around the copies never keeps the result from being parsed. -/
theorem exists_convert_eq_ok
    (host : Command.Host)
    (unstripped : options.stripResidualRoots = false)
    (unformatted : options.formatter = [])
    (isWord : Lexeme.IsWord options.storyProperty.toList)
    (parsed : Module.parse? (dialectFor (asked <|> options.dialect) path)
      source = some m)
    (found : locate m options.registration = .ok located)
    (passes : chosen located = some fragment)
    (tight : Tight m located fragment)
    (metadataEq : Story.Metadata.ofFragment m fragment located.exports.named =
      .ok metadata)
    (entriesEq : Story.ofFragment m fragment = .ok entries)
    (storiesEq : Story.named (.ofList (m.identifiers m.tree)) entries = stories)
    (names : Story.NulFreeNames options metadata stories) :
    ∃ changed pieces,
      transform host options path m = .ok changed ∧
      writtenPieces options m located fragment = .ok pieces ∧
      (Placed.FitInTurn (Newline.ofText m.source.toList)
          (dialectFor (asked <|> options.dialect) path) changed.code.toList
          (opening changed.code.toList).offset
          (placedStatements m located fragment pieces
            (Story.codeStatements options m metadata stories)) →
        (∃ result, Module.parse? (dialectFor (asked <|> options.dialect) path)
          changed.code = some result) ∧
        convert host options path source asked =
          .ok { changed with before := source }) := by
  have orderly := Module.orderly_of_parse? parsed
  have readable := Module.readable_of_parse? parsed
  generalize newlineEq : Newline.ofText m.source.toList = newline
  have written : generated options m located fragment =
      .ok (newline.spread (Story.assembled options m metadata stories),
        stories.length) := by
    unfold generated
    rw [metadataEq, entriesEq, ← storiesEq, ← newlineEq]
    rfl
  have piecesEq : writtenPieces options m located fragment =
      .ok ((Story.codePieces options m metadata stories).map
        (CodePiece.written newline)) := by
    unfold writtenPieces
    rw [metadataEq, entriesEq, ← storiesEq, ← newlineEq]
    rfl
  obtain ⟨changed, transformed⟩ := exists_transform_eq_ok host path unstripped
    unformatted orderly readable found passes written
  refine ⟨changed, _, transformed, piecesEq, fun fit => ?_⟩
  obtain ⟨code, count, text, written', textBytes, codeEq⟩ :=
    exists_edited unstripped unformatted orderly readable found passes
      transformed
  rw [written, Except.ok.injEq, Prod.mk.injEq] at written'
  rw [← written'.1] at textBytes
  obtain ⟨pieces, tail, piecesEq', stop, laidOut⟩ :=
    exists_laidOut orderly found passes tight written textBytes
  rw [piecesEq, Except.ok.injEq] at piecesEq'
  rw [← piecesEq', ← codeEq] at laidOut
  rw [← piecesEq'] at stop
  have free : ∀ story ∈ stories, IsFreeName story.identifier := by
    rw [← storiesEq]
    exact fun story isStory => StoryName.isFreeName_of_mem_named isStory
  have nulFree := Module.nulFree_of_parse? parsed
  have clear := Story.allClear_codeStatements options nulFree isWord.unbroken
    (fun story isStory => (free story isStory).isWord.unbroken) names
  have codeNul := newline.nul_not_mem_spread
    (Story.nul_not_mem_assembled options m nulFree clear)
  have noNul := nul_not_mem_normalizedEnds (zero_not_mem_of_parse? parsed)
    codeNul textBytes
  rw [← codeEq] at noNul
  have reparsed := exists_parse_of_fitInTurn isWord free clear noNul stop laidOut
    fit
  exact ⟨reparsed,
    (applyTo_eq_ok parsed).2 ⟨changed, transformed, rfl, reparsed⟩⟩

/-- What is computed of the statements that a module is edited into by default:
no name has the NUL character, and they fit. -/
def fitsInto
    (m : Module)
    (dialect : Dialect)
    (text : String)
    (located : Located)
    (fragment : Fragment)
    (pieces : List Piece) : Bool :=
  (Story.Metadata.ofFragment m fragment located.exports.named).toOption.any
    fun metadata => (Story.ofFragment m fragment).toOption.any fun entries =>
      let stories := Story.named (.ofList (m.identifiers m.tree)) entries
      decide (Story.NulFreeNames {} metadata stories) &&
        decide (Placed.FitInTurn (Newline.ofText m.source.toList) dialect
          (Newline.normalizedEnds text).toList
          (opening (Newline.normalizedEnds text).toList).offset
          (placedStatements m located fragment pieces
            (Story.codeStatements {} m metadata stories)))

set_option maxRecDepth 100000 in
/-- A chain with a decorator, and a story with a name and parameters of its own,
give a result that parses, with the statement behind them as it was. -/
theorem exists_convert_eq_ok_decorated :
    ∃ m located fragment outcome result,
      Module.parse? .javascript
        ("storiesOf('A\\'b', module)\n  .addDecorator(d)\n" ++
          "  .add('x y', () => f(1), \x7b a: 1 \x7d);\nh()\n") = some m ∧
      locate m {} = .ok located ∧ chosen located = some fragment ∧
      convert (fun _ => .error .noProgram) {} "a.js"
        ("storiesOf('A\\'b', module)\n  .addDecorator(d)\n" ++
          "  .add('x y', () => f(1), \x7b a: 1 \x7d);\nh()\n")
        (some .javascript) = .ok outcome ∧
      Module.parse? .javascript outcome.code = some result ∧
      outcome.code =
        "export default \x7b\n  title: 'A\\'b',\n  decorators: [d],\n" ++
          "\x7d;\n\nexport const xY = () => f(1);\nxY.story = \x7b\n" ++
          "  parameters: \x7b a: 1 \x7d,\n\x7d;\nh()\n" := by
  generalize sourceEq :
    "storiesOf('A\\'b', module)\n  .addDecorator(d)\n" ++
      "  .add('x y', () => f(1), \x7b a: 1 \x7d);\nh()\n" = source
  generalize textEq :
    "export default \x7b\n  title: 'A\\'b',\n  decorators: [d],\n" ++
      "\x7d;\n\nexport const xY = () => f(1);\nxY.story = \x7b\n" ++
      "  parameters: \x7b a: 1 \x7d,\n\x7d;\nh()\n" = text
  have regular : Newline.normalizedEnds text = text := by
    rw [← textEq]
    decide +kernel
  have checked : (Module.parse? .javascript source).any (fun m =>
      editsInto m text (fitsInto m .javascript text)) = true := by
    rw [← sourceEq, ← textEq]
    decide +kernel
  obtain ⟨m, parsed, edits⟩ := (Option.any_eq_true _ _).1 checked
  obtain ⟨located, fragment, changed, pieces, found, passes, tight, transformed,
    codeEq, piecesEq, fits⟩ :=
    exists_transform_into (fun _ => .error .noProgram) "a.js" parsed edits
  unfold fitsInto at fits
  rw [any_toOption] at fits
  obtain ⟨metadata, metadataEq, fits⟩ := fits
  rw [any_toOption] at fits
  obtain ⟨entries, entriesEq, fits⟩ := fits
  rw [Bool.and_eq_true, decide_eq_true_eq, decide_eq_true_eq, ← codeEq] at fits
  have picked : dialectFor (some .javascript <|> ({} : Options).dialect)
      "a.js" = .javascript := rfl
  rw [← picked] at parsed fits
  have unstripped : ({} : Options).stripResidualRoots = false := rfl
  have unformatted : ({} : Options).formatter = [] := rfl
  have isWord : Lexeme.IsWord ({} : Options).storyProperty.toList := by decide
  obtain ⟨changed', pieces', transformed', piecesEq', parses⟩ :=
    exists_convert_eq_ok (fun _ => .error .noProgram) unstripped unformatted
      isWord parsed found passes tight metadataEq entriesEq rfl fits.1
  rw [transformed, Except.ok.injEq] at transformed'
  rw [piecesEq, Except.ok.injEq] at piecesEq'
  rw [← transformed', ← piecesEq'] at parses
  obtain ⟨⟨result, reparsed⟩, converts⟩ := parses fits.2
  exact ⟨m, located, fragment, _, result, parsed, found, passes, converts,
    reparsed, codeEq.trans regular⟩

/-- Generated code with the NUL character does not parse where it is written. -/
theorem convert_eq_badResult_of_nul
    {code : String}
    {count : Nat}
    (host : Command.Host)
    (unstripped : options.stripResidualRoots = false)
    (unformatted : options.formatter = [])
    (parsed : Module.parse? (dialectFor (asked <|> options.dialect) path)
      source = some m)
    (found : locate m options.registration = .ok located)
    (passes : chosen located = some fragment)
    (written : generated options m located fragment = .ok (code, count))
    (isNul : '\x00' ∈ code.toList) :
    convert host options path source asked = .error (.badResult path) := by
  have orderly := Module.orderly_of_parse? parsed
  have readable := Module.readable_of_parse? parsed
  obtain ⟨changed, transformed⟩ := exists_transform_eq_ok host path unstripped
    unformatted orderly readable found passes written
  obtain ⟨code', count', text, written', textBytes, codeEq⟩ :=
    exists_edited unstripped unformatted orderly readable found passes
      transformed
  rw [written, Except.ok.injEq, Prod.mk.injEq] at written'
  rw [← written'.1] at textBytes
  have inText : '\x00' ∈ text.toList := by
    refine (Utf8.mem_encode_iff (b := 0) rfl (by decide) _).1 ?_
    show 0 ∈ Utf8.ofString text
    rw [textBytes, convertedBytes]
    exact List.mem_append_left _ (List.mem_append_right _
      ((Utf8.mem_encode_iff rfl (by decide) _).2 isNul))
  have inChanged : '\x00' ∈ changed.code.toList := by
    obtain ⟨middle, isMiddle, regular⟩ := Newline.normalizedEnds_eq text
    obtain ⟨front, back, textEq, frontEnds, backEnds⟩ := isMiddle.split
    rw [codeEq, regular, String.toList_ofList]
    rw [textEq, List.mem_append, List.mem_append] at inText
    rcases inText with (inFront | inMiddle) | inBack
    · exact absurd (frontEnds _ inFront) (by decide)
    · exact List.mem_append_left _ inMiddle
    · exact absurd (backEnds _ inBack) (by decide)
  refine (applyTo_of_ok parsed transformed).resolve_left ?_
  rintro ⟨outcome, converts⟩
  obtain ⟨changed', transformed', -, result, reparsed⟩ :=
    (applyTo_eq_ok parsed).1 converts
  rw [transformed, Except.ok.injEq] at transformed'
  obtain ⟨tree, readTree, -⟩ := Option.map_eq_some_iff.1 reparsed
  have noNul := noNul_of_parse? readTree
  rw [← transformed'] at noNul
  simp [inChanged] at noNul

set_option maxRecDepth 100000 in
/-- A title with the NUL character is written as it is, and the result does not
parse. -/
theorem convert_eq_badResult_nul_title :
    ∃ m located fragment,
      Module.parse? .javascript
        "storiesOf('a\\0b', module).add('x', f);\n" = some m ∧
      locate m {} = .ok located ∧ chosen located = some fragment ∧
      Lexeme.IsWord ({} : Options).storyProperty.toList ∧
      ({} : Options).stripResidualRoots = false ∧
      ({} : Options).formatter = [] ∧
      convert (fun _ => .error .noProgram) {} "a.js"
        "storiesOf('a\\0b', module).add('x', f);\n" (some .javascript) =
          .error (.badResult "a.js") := by
  generalize sourceEq :
    "storiesOf('a\\0b', module).add('x', f);\n" = source
  have checked : (Module.parse? .javascript source).any (fun m =>
      (locate m {}).toOption.any fun located =>
        (chosen located).any fun fragment =>
          (generated {} m located fragment).toOption.any fun written =>
            written.1.toList.contains '\x00') = true := by
    rw [← sourceEq]
    decide +kernel
  obtain ⟨m, parsed, checked⟩ := (Option.any_eq_true _ _).1 checked
  rw [any_toOption] at checked
  obtain ⟨located, found, checked⟩ := checked
  obtain ⟨fragment, passes, checked⟩ := (Option.any_eq_true _ _).1 checked
  rw [any_toOption] at checked
  obtain ⟨⟨code, count⟩, written, isNul⟩ := checked
  have isWord : Lexeme.IsWord ({} : Options).storyProperty.toList := by decide
  refine ⟨m, located, fragment, parsed, found, passes, isWord, rfl, rfl, ?_⟩
  have picked : dialectFor (some .javascript <|> ({} : Options).dialect)
      "a.js" = .javascript := rfl
  rw [← picked] at parsed
  exact convert_eq_badResult_of_nul (fun _ => .error .noProgram)
    (rfl : ({} : Options).stripResidualRoots = false) rfl parsed found passes
    written (List.contains_iff_mem.1 isNul)

end Migration
end StoryMigration
