import StoryMigration.Proofs.ConvertedStatements
import StoryMigration.Proofs.RemovedImport

/-!
# Whether statements join

The result of a conversion has to parse, but into which statements is not
looked at.  Each statement that should be left is found in it, at its place and
with its text; the result parses into these statements exactly if each of them,
read by itself at its place, ends where it should.  A statement that stays and
was ended by its line alone does not if what comes to stand behind it continues
it: it is then joined with the next one.
-/

namespace StoryMigration
namespace Migration

open Syntax Chain Fallible LineSpan

variable {m : Module} {options : Options} {located : Located}
  {fragment : Fragment}

/-! ## The result as a text -/

/-- A change of a source that parses has a result if the change has one, and the
changed source parses again. -/
theorem applyTo_eq_ok
    {dialect : Dialect}
    {path source : String}
    {change : Module → Except MigrationError Outcome}
    {outcome : Outcome}
    (parsed : Module.parse? dialect source = some m) :
    applyTo dialect path source change = .ok outcome ↔
      ∃ changed, change m = .ok changed ∧
        outcome = { changed with before := source } ∧
        ∃ m', Module.parse? dialect changed.code = some m' := by
  unfold applyTo
  rw [parsed]
  simp only [bind_eq_ok]
  apply exists_congr
  intro changed
  apply and_congr_right
  intro _
  cases reparsed : Module.parse? dialect changed.code with
  | some m' =>
    simp only [Option.isNone_some, Bool.and_false, Bool.false_eq_true, if_false,
      pure_eq_ok, Option.some.injEq, exists_eq', and_true]
    exact eq_comm
  | none =>
    have different : source ≠ changed.code := by
      rintro rfl
      rw [parsed] at reparsed
      contradiction
    simp [Outcome.hasChanges, different, throw, throwThe, MonadExceptOf.throw]

/-- The result of a conversion without stripping and formatting is the edited
source with regular ends. -/
theorem exists_edited
    {host : Command.Host}
    {path : String}
    {changed : Outcome}
    (unstripped : options.stripResidualRoots = false)
    (unformatted : options.formatter = [])
    (orderly : m.Orderly)
    (readable : m.Readable)
    (found : locate m options.registration = .ok located)
    (passes : chosen located = some fragment)
    (converts : transform host options path m = .ok changed) :
    ∃ code count text,
      generated options m located fragment = .ok (code, count) ∧
      Utf8.ofString text = convertedBytes m located fragment code ∧
      changed.code = Newline.normalizedEnds text := by
  obtain ⟨⟨⟨code, count⟩, written⟩, -⟩ :=
    importChange_mem_changes_iff found passes converts
  obtain ⟨-, member⟩ := veto_eq_none_of_chosen passes
  obtain ⟨-, grounded, sublist⟩ := (locate_sound found).of_mem member
  obtain ⟨text, applied, textBytes⟩ :=
    apply_conversionEdits orderly readable grounded sublist code
  have known : transform host options path m = .ok _ :=
    transform_eq_ok unstripped unformatted found passes written applied
  rw [converts, Except.ok.injEq] at known
  exact ⟨code, count, text, written, textBytes, by rw [known]⟩

/-- The statements that should be left, with the places they should have, make
up the result up to what stands behind the last one. -/
theorem exists_laidOut
    {code : String}
    {count : Nat}
    {text : String}
    (orderly : m.Orderly)
    (found : locate m options.registration = .ok located)
    (passes : chosen located = some fragment)
    (tight : Tight m located fragment)
    (written : generated options m located fragment = .ok (code, count))
    (textBytes : Utf8.ofString text = convertedBytes m located fragment code) :
    ∃ pieces tail,
      writtenPieces options m located fragment = .ok pieces ∧
      (∀ piece ∈ piecesFrom m located fragment pieces 0 m.codeStatements,
        Piece.Stops piece.text) ∧
      Utf8.ofString (Newline.normalizedEnds text) =
        Piece.layOut (Piece.trimmed
          (piecesFrom m located fragment pieces 0 m.codeStatements)) ++
            tail := by
  obtain ⟨-, member⟩ := veto_eq_none_of_chosen passes
  obtain ⟨-, grounded, sublist⟩ := (locate_sound found).of_mem member
  obtain ⟨first, rest, piecesEq, together, starts, stop⟩ :=
    exists_writtenPieces written
  obtain ⟨middle, isMiddle, regular⟩ := Newline.normalizedEnds_eq text
  obtain ⟨tail, laidOut⟩ := exists_converted located
    (List.cons_ne_nil first rest) (inOrder_codeStatements orderly)
    (Nat.zero_le _) (anchor_mem_codeStatements grounded sublist)
  rw [together] at laidOut
  have allStop : ∀ piece ∈
      piecesFrom m located fragment (first :: rest) 0 m.codeStatements,
      Piece.Stops piece.text :=
    fun piece isPiece =>
      stops_piecesFrom tight stop (fun _ isStatement => isStatement) isPiece
  have inMiddle : ∃ more, Utf8.encode middle = Piece.layOut (Piece.trimmed
      (piecesFrom m located fragment (first :: rest) 0 m.codeStatements)) ++
        more := by
    cases pieces : piecesFrom m located fragment (first :: rest) 0
        m.codeStatements with
    | nil => exact ⟨_, rfl⟩
    | cons piece others =>
      rw [pieces] at laidOut allStop
      exact Piece.exists_tail isMiddle
        (starts_piecesFrom tight ⟨first, rest, rfl, starts⟩
          (fun _ isStatement => isStatement) pieces)
        allStop (textBytes.trans laidOut.symm)
  obtain ⟨more, middleEq⟩ := inMiddle
  refine ⟨_, more ++ Utf8.encode (Newline.ofText text.toList).chars, piecesEq,
    allStop, ?_⟩
  rw [regular, Utf8.ofString, String.toList_ofList, Utf8.encode_append,
    middleEq, List.append_assoc]

/-! ## The statements of the result -/

/-- The statements of a result are those that should be left, in their order,
each at its place and with its text. -/
structure KeepsStatements
    (m : Module)
    (located : Located)
    (fragment : Fragment)
    (pieces : List Piece)
    (result : Module) : Prop where
  places : result.codeStatements.map Node.span =
    expectedSpans m located fragment pieces
  texts : result.codeStatements.map (·.span.bytes result.bytes) =
    m.codeStatements.flatMap (textsOf m located fragment pieces)

/-- The result of a conversion without stripping and formatting parses, and the
statements that should be left are found in it in their order, each with its
text; those of the source that stay whole are unchanged.  They are what the
result parses into exactly if each of them, read by itself at its place, ends
where it should. -/
theorem convert_keepsStatements_iff
    {host : Command.Host}
    {path source : String}
    {asked : Option Dialect}
    {outcome : Outcome}
    (unstripped : options.stripResidualRoots = false)
    (unformatted : options.formatter = [])
    (parsed : Module.parse? (dialectFor (asked <|> options.dialect) path)
      source = some m)
    (orderly : m.Orderly)
    (readable : m.Readable)
    (found : locate m options.registration = .ok located)
    (passes : chosen located = some fragment)
    (tight : Tight m located fragment)
    (converts : convert host options path source asked = .ok outcome) :
    ∃ result pieces,
      Module.parse? (dialectFor (asked <|> options.dialect) path)
        outcome.code = some result ∧
      writtenPieces options m located fragment = .ok pieces ∧
      (expectedSpans m located fragment pieces).map (·.bytes result.bytes) =
        m.codeStatements.flatMap (textsOf m located fragment pieces) ∧
      (∀ statement ∈ m.codeStatements,
        goes m located fragment statement = false →
        located.specifier.bind (ImportRemoval.statementOf? m) ≠
          some statement →
        left m located fragment statement = statement.span.bytes m.bytes) ∧
      (KeepsStatements m located fragment pieces result ↔
        ReadInTurn (dialectFor (asked <|> options.dialect) path)
          outcome.code.toList (opening outcome.code.toList).offset
          (expectedSpans m located fragment pieces)) := by
  obtain ⟨-, member⟩ := veto_eq_none_of_chosen passes
  obtain ⟨-, grounded, sublist⟩ := (locate_sound found).of_mem member
  obtain ⟨changed, transformed, outcomeEq, result, reparsed⟩ :=
    (applyTo_eq_ok parsed).1 converts
  have sameCode : outcome.code = changed.code := by rw [outcomeEq]
  rw [sameCode]
  obtain ⟨code, count, text, written, textBytes, codeEq⟩ :=
    exists_edited unstripped unformatted orderly readable found passes
      transformed
  obtain ⟨pieces, tail, piecesEq, stop, laidOut⟩ :=
    exists_laidOut orderly found passes tight written textBytes
  rw [← codeEq] at laidOut
  obtain ⟨tree, readTree, resultEq⟩ := Option.map_eq_some_iff.1 reparsed
  have placed : (expectedSpans m located fragment pieces).map
      (·.bytes result.bytes) =
        m.codeStatements.flatMap (textsOf m located fragment pieces) := by
    have found := Piece.bytes_spansFrom (Piece.trimmed
      (piecesFrom m located fragment pieces 0 m.codeStatements)) [] tail
    rw [Piece.text_trimmed, text_piecesFrom, List.nil_append, ← laidOut]
      at found
    rw [← found, ← resultEq]
    rfl
  refine ⟨result, pieces, reparsed, piecesEq, placed, ?_, ?_⟩
  · intro statement isStatement stays notImport
    exact left_eq_bytes orderly sublist (List.mem_of_mem_filter isStatement)
      stays notImport
  · have ascends : (expectedSpans m located fragment pieces).Pairwise
        fun a b => a.stop < b.stop :=
      (Piece.spansFrom_ascend 0 (Piece.trimmed_filled fun piece isPiece =>
        (stop piece isPiece).ne_nil)).2
    have treeEq : result.tree = tree := by rw [← resultEq]
    have spansEq : result.codeStatements.map Node.span =
        Node.codeSpans tree.children := by
      rw [Module.codeStatements_map, treeEq]
    rw [← parse?_codeSpans_iff (noNul_of_parse? readTree) ascends]
    constructor
    · intro keeps
      exact ⟨tree, readTree, spansEq.symm.trans keeps.places⟩
    · rintro ⟨other, readOther, same⟩
      rw [readTree, Option.some.injEq] at readOther
      rw [← readOther, ← spansEq] at same
      -- what stands at the places is known without regard to the parser
      refine ⟨same, ?_⟩
      rw [← placed, ← same, List.map_map]
      rfl

/-- Converting a module by default edits it into a text, and what is known of
the statements that it is written as. -/
def editsInto
    (m : Module)
    (text : String)
    (known : Located → Fragment → List Piece → Bool) : Bool :=
  decide m.LaidOut && (locate m {}).toOption.any fun located =>
    (chosen located).any fun fragment =>
      decide (Tight m located fragment) &&
        (generated {} m located fragment).toOption.any (fun written =>
          convertedBytes m located fragment written.1 ==
            Utf8.ofString text) &&
        (writtenPieces {} m located fragment).toOption.any
          (known located fragment)

theorem laidOut_of_editsInto
    {text : String}
    {known : Located → Fragment → List Piece → Bool}
    (edits : editsInto m text known = true) :
    m.LaidOut := by
  unfold editsInto at edits
  rw [Bool.and_eq_true, decide_eq_true_eq] at edits
  exact edits.1

/-- What is computed of a conversion by default holds of the change that it
makes. -/
theorem exists_transform_into
    {dialect : Dialect}
    {source text : String}
    {known : Located → Fragment → List Piece → Bool}
    (host : Command.Host)
    (path : String)
    (parsed : Module.parse? dialect source = some m)
    (edits : editsInto m text known = true) :
    ∃ located fragment changed pieces,
      locate m {} = .ok located ∧ chosen located = some fragment ∧
      Tight m located fragment ∧
      transform host {} path m = .ok changed ∧
      changed.code = Newline.normalizedEnds text ∧
      writtenPieces {} m located fragment = .ok pieces ∧
      known located fragment pieces = true := by
  unfold editsInto at edits
  rw [Bool.and_eq_true, decide_eq_true_eq, any_toOption] at edits
  obtain ⟨laidOut, located, found, edits⟩ := edits
  obtain ⟨fragment, passes, edits⟩ := (Option.any_eq_true _ _).1 edits
  rw [Bool.and_eq_true, Bool.and_eq_true, decide_eq_true_eq, any_toOption,
    any_toOption] at edits
  obtain ⟨⟨tight, ⟨code, count⟩, written, bytesEq⟩, pieces, piecesEq,
    isKnown⟩ := edits
  have foundByDefault :
      locate m ({} : Options).registration = .ok located := found
  have unstripped : ({} : Options).stripResidualRoots = false := rfl
  have unformatted : ({} : Options).formatter = [] := rfl
  obtain ⟨changed, transformed⟩ := exists_transform_eq_ok host path unstripped
    unformatted laidOut.orderly (laidOut.readable parsed) foundByDefault passes
    written
  obtain ⟨code', count', text', written', textBytes, codeEq⟩ :=
    exists_edited unstripped unformatted laidOut.orderly
      (laidOut.readable parsed) foundByDefault passes transformed
  rw [written, Except.ok.injEq, Prod.mk.injEq] at written'
  rw [← written'.1, beq_iff_eq.1 bytesEq] at textBytes
  have sameText : text' = text := by
    have read := congrArg Utf8.toString? textBytes
    rw [Utf8.toString?_ofString, Utf8.toString?_ofString,
      Option.some.injEq] at read
    exact read
  rw [sameText] at codeEq
  exact ⟨located, fragment, changed, pieces, found, passes, tight, transformed,
    codeEq, piecesEq, isKnown⟩

/-- What is computed of a conversion by default holds of it. -/
theorem exists_conversion_into
    {dialect : Dialect}
    {source text : String}
    {result : Module}
    {known : Located → Fragment → List Piece → Bool}
    (host : Command.Host)
    (path : String)
    (parsed : Module.parse? dialect source = some m)
    (edits : editsInto m text known = true)
    (reparsed : Module.parse? dialect (Newline.normalizedEnds text) =
      some result) :
    ∃ located fragment outcome pieces,
      locate m {} = .ok located ∧ chosen located = some fragment ∧
      Tight m located fragment ∧
      convert host {} path source (some dialect) = .ok outcome ∧
      outcome.code = Newline.normalizedEnds text ∧
      writtenPieces {} m located fragment = .ok pieces ∧
      known located fragment pieces = true := by
  obtain ⟨located, fragment, changed, pieces, found, passes, tight, transformed,
    codeEq, piecesEq, isKnown⟩ := exists_transform_into host path parsed edits
  refine ⟨located, fragment, { changed with before := source }, pieces, found,
    passes, tight, ?_, codeEq, piecesEq, isKnown⟩
  exact (applyTo_eq_ok parsed).2
    ⟨changed, transformed, rfl, result, by rw [codeEq, reparsed]⟩

set_option maxRecDepth 100000 in
/-- With a semicolon behind it, a statement in front of one that is taken out
stays a statement of its own. -/
theorem convert_keepsStatements_semicolon :
    ∃ m located fragment outcome result pieces,
      Module.parse? .javascript
        ("const a = b;\nconst s = storiesOf('A', module);\n" ++
          "[1].forEach(f);\ns.add('x', g);\n") = some m ∧
      locate m {} = .ok located ∧ chosen located = some fragment ∧
      convert (fun _ => .error .noProgram) {} "a.js"
        ("const a = b;\nconst s = storiesOf('A', module);\n" ++
          "[1].forEach(f);\ns.add('x', g);\n") (some .javascript) =
        .ok outcome ∧
      Module.parse? .javascript outcome.code = some result ∧
      writtenPieces {} m located fragment = .ok pieces ∧
      (expectedSpans m located fragment pieces).length = 4 ∧
      KeepsStatements m located fragment pieces result := by
  generalize sourceEq :
    "const a = b;\nconst s = storiesOf('A', module);\n" ++
      "[1].forEach(f);\ns.add('x', g);\n" = source
  generalize textEq :
    "const a = b;\n[1].forEach(f);\nexport default \x7b\n" ++
      "  title: 'A',\n\x7d;\n\nexport const x = g;\n" = text
  have checked : (Module.parse? .javascript source).any (fun m =>
      (Module.parse? .javascript (Newline.normalizedEnds text)).isSome &&
        editsInto m text fun located fragment pieces =>
          (expectedSpans m located fragment pieces).length == 4 &&
            decide (ReadInTurn .javascript (Newline.normalizedEnds text).toList
              (opening (Newline.normalizedEnds text).toList).offset
              (expectedSpans m located fragment pieces))) = true := by
    rw [← sourceEq, ← textEq]
    decide +kernel
  obtain ⟨m, parsed, checked⟩ := (Option.any_eq_true _ _).1 checked
  rw [Bool.and_eq_true, Option.isSome_iff_exists] at checked
  obtain ⟨⟨result, reparsed⟩, edits⟩ := checked
  have laidOut := laidOut_of_editsInto edits
  obtain ⟨located, fragment, outcome, pieces, found, passes, tight, converts,
    codeEq, piecesEq, isKnown⟩ :=
    exists_conversion_into (fun _ => .error .noProgram) "a.js" parsed edits
      reparsed
  rw [Bool.and_eq_true, beq_iff_eq, decide_eq_true_eq, ← codeEq] at isKnown
  obtain ⟨four, inTurn⟩ := isKnown
  have picked : dialectFor (some .javascript <|> ({} : Options).dialect)
      "a.js" = .javascript := rfl
  rw [← picked] at parsed inTurn
  obtain ⟨result', pieces', reparsed', piecesEq', -, -, keeps⟩ :=
    convert_keepsStatements_iff
      (rfl : ({} : Options).stripResidualRoots = false)
      (rfl : ({} : Options).formatter = []) parsed laidOut.orderly
      (laidOut.readable parsed) found passes tight converts
  rw [piecesEq, Except.ok.injEq] at piecesEq'
  rw [← piecesEq'] at keeps
  have kept := keeps.2 inTurn
  rw [picked] at parsed reparsed'
  exact ⟨m, located, fragment, outcome, result', pieces, parsed, found, passes,
    converts, reparsed', piecesEq, four, kept⟩

set_option maxRecDepth 100000 in
/-- A statement that is ended by its line alone is joined with the next one when
what stands between them is taken out: of the four statements that should be
left there are three. -/
theorem convert_joins_statements :
    ∃ m located fragment outcome result pieces,
      Module.parse? .javascript
        ("const a = b\nconst s = storiesOf('A', module);\n" ++
          "[1].forEach(f);\ns.add('x', g);\n") = some m ∧
      locate m {} = .ok located ∧ chosen located = some fragment ∧
      convert (fun _ => .error .noProgram) {} "a.js"
        ("const a = b\nconst s = storiesOf('A', module);\n" ++
          "[1].forEach(f);\ns.add('x', g);\n") (some .javascript) =
        .ok outcome ∧
      Module.parse? .javascript outcome.code = some result ∧
      writtenPieces {} m located fragment = .ok pieces ∧
      (m.codeStatements.flatMap (textsOf m located fragment pieces)).length =
        4 ∧
      result.codeStatements.length = 3 ∧
      ¬ KeepsStatements m located fragment pieces result := by
  generalize sourceEq :
    "const a = b\nconst s = storiesOf('A', module);\n" ++
      "[1].forEach(f);\ns.add('x', g);\n" = source
  generalize textEq :
    "const a = b\n[1].forEach(f);\nexport default \x7b\n" ++
      "  title: 'A',\n\x7d;\n\nexport const x = g;\n" = text
  have checked : (Module.parse? .javascript source).any (fun m =>
      (Module.parse? .javascript (Newline.normalizedEnds text)).any
          (·.codeStatements.length == 3) &&
        editsInto m text fun located fragment pieces =>
          (m.codeStatements.flatMap
            (textsOf m located fragment pieces)).length == 4) = true := by
    rw [← sourceEq, ← textEq]
    decide +kernel
  obtain ⟨m, parsed, checked⟩ := (Option.any_eq_true _ _).1 checked
  rw [Bool.and_eq_true] at checked
  obtain ⟨resultIsThree, edits⟩ := checked
  obtain ⟨result, reparsed, isThree⟩ :=
    (Option.any_eq_true _ _).1 resultIsThree
  obtain ⟨located, fragment, outcome, pieces, found, passes, -, converts,
    codeEq, piecesEq, isFour⟩ :=
    exists_conversion_into (fun _ => .error .noProgram) "a.js" parsed edits
      reparsed
  rw [beq_iff_eq] at isThree isFour
  refine ⟨m, located, fragment, outcome, result, pieces, parsed, found, passes,
    converts, by rw [codeEq, reparsed], piecesEq, isFour, isThree, ?_⟩
  intro keeps
  have sameLength := congrArg List.length keeps.texts
  rw [List.length_map, isThree, isFour] at sameLength
  omega

end Migration
end StoryMigration
