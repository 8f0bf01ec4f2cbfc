import StoryMigration.Proofs.JoinedStatements
import StoryMigration.Proofs.ReadStatements

/-!
# Converting twice

The result of a conversion has a default export, so that it is never converted
again: the second conversion returns it as it is.  It is silent only if the
result holds no call that starts a chain.  Which calls do is found out anew,
from the imports that the first conversion has left: an expression of the chain
that was copied can become one when the import of the function is gone, and the
result is then reported.
-/

namespace StoryMigration
namespace Migration

open Syntax Chain Fallible

variable {m : Module} {options : Options} {located : Located}
  {fragment : Fragment}

/-! ## Modules with a default export -/

/-- The outcome for a module that is not converted: it is reported if calls
start chains in it. -/
def leftAlone (path code : String) (roots : List Node) : Outcome :=
  { before := code
    code
    diagnostics :=
      if roots.isEmpty then []
      else [.about .defaultExportConflict path roots.length] }

/-- A module with a default export, or without a call that starts a chain, is
left alone. -/
theorem transform_leaves
    {path : String}
    (host : Command.Host)
    (found : locate m options.registration = .ok located)
    (leaves : located.roots = [] ∨ located.exports.hasDefault = true) :
    transform host options path m =
      .ok (leftAlone path m.source located.roots) := by
  unfold transform
  rw [bind_eq_ok]
  refine ⟨located, mapError_eq_ok.2 found, ?_⟩
  cases rootsEq : located.roots with
  | nil =>
    have allowed : veto located = none := by
      unfold veto
      rw [rootsEq]
      rfl
    have noFragment : chosen located = none := by
      unfold chosen
      rw [rootsEq]
      rfl
    rw [allowed, noFragment]
    rfl
  | cons root roots =>
    have hasDefault : located.exports.hasDefault = true :=
      leaves.resolve_left (by rw [rootsEq]; exact List.cons_ne_nil _ _)
    have vetoed : veto located = some .defaultExportConflict := by
      unfold veto
      rw [rootsEq, hasDefault]
      rfl
    rw [vetoed]
    rfl

/-- What is left alone is converted into itself. -/
theorem convert_leaves
    {path code : String}
    {asked : Option Dialect}
    (host : Command.Host)
    (parsed : Module.parse? (dialectFor (asked <|> options.dialect) path) code =
      some m)
    (found : locate m options.registration = .ok located)
    (leaves : located.roots = [] ∨ located.exports.hasDefault = true) :
    convert host options path code asked =
      .ok (leftAlone path code located.roots) := by
  have transformed : transform host options path m =
      .ok (leftAlone path m.source located.roots) :=
    transform_leaves host found leaves
  rw [source_of_parse? parsed] at transformed
  exact (applyTo_eq_ok parsed).2 ⟨_, transformed, rfl, m, parsed⟩

/-- A conversion has a result only if the calls that start chains are found. -/
theorem exists_located
    {host : Command.Host}
    {path code : String}
    {asked : Option Dialect}
    {outcome : Outcome}
    (parsed : Module.parse? (dialectFor (asked <|> options.dialect) path) code =
      some m)
    (converts : convert host options path code asked = .ok outcome) :
    ∃ located, locate m options.registration = .ok located := by
  obtain ⟨changed, transformed, -⟩ := (applyTo_eq_ok parsed).1 converts
  unfold transform at transformed
  rw [bind_eq_ok] at transformed
  obtain ⟨located, found, -⟩ := transformed
  exact ⟨located, mapError_eq_ok.1 found⟩

/-! ## The result of a conversion -/

/-- The first of some generated statements is a statement of a module. -/
def standsAlone (generated : List Piece) (result : Module) : Bool :=
  generated.head?.any fun piece =>
    result.codeStatements.any fun statement =>
      statement.span.bytes result.bytes == piece.text

theorem exists_toList_statement (text : String) :
    ∃ more, (Layout.statement text []).toList = text.toList ++ more := by
  unfold Layout.statement
  rw [List.nil_append, String.intercalate_singleton]
  split
  · exact ⟨[], (List.append_nil _).symm⟩
  · exact ⟨";".toList, String.toList_append⟩

/-- The first generated statement is the default export. -/
theorem exists_text_head
    {generated : List Piece}
    (written : writtenPieces options m located fragment = .ok generated) :
    ∃ first rest bytes, generated = first :: rest ∧
      first.text = Utf8.ofString "export default " ++ bytes := by
  unfold writtenPieces at written
  rw [bind_eq_ok] at written
  obtain ⟨metadata, -, written⟩ := written
  rw [bind_eq_ok] at written
  obtain ⟨entries, -, written⟩ := written
  rw [pure_eq_ok] at written
  generalize Newline.ofText m.source.toList = newline at written
  rw [Story.codePieces, List.map_cons] at written
  obtain ⟨value, textEq⟩ :=
    Story.exists_text_defaultPiece options m metadata
  obtain ⟨more, listEq⟩ := exists_toList_statement ("export default " ++ value)
  refine ⟨_, _, Utf8.encode ((Newline.joined (value.toList ++ more)).flatMap
    fun c => if c == '\n' then newline.chars else [c]), written.symm, ?_⟩
  have noReturn : "export default ".toList.getLast? ≠ some '\r' := by decide
  have same : ("export default ".toList.flatMap fun c =>
      if c == '\n' then newline.chars else [c]) = "export default ".toList := by
    cases newline <;> rfl
  rw [CodePiece.text_written, textEq, Newline.spread, listEq,
    String.toList_append, List.append_assoc, Newline.joined_append _ noReturn,
    List.flatMap_append, Utf8.ofString, String.toList_ofList,
    Utf8.encode_append]
  have noPair : Newline.joined "export default ".toList =
      "export default ".toList := rfl
  rw [noPair, same]
  rfl

/-- A module in which the default export stands alone has a default export. -/
theorem hasDefault_of_standsAlone
    {dialect : Dialect}
    {source : String}
    {generated : List Piece}
    {result : Module}
    {again : Located}
    (written : writtenPieces options m located fragment = .ok generated)
    (parsed : Module.parse? dialect source = some result)
    (alone : standsAlone generated result = true)
    (found : locate result options.registration = .ok again) :
    again.exports.hasDefault = true := by
  obtain ⟨first, rest, bytes, rfl, textEq⟩ := exists_text_head written
  have isStatement : (result.codeStatements.any fun statement =>
      statement.span.bytes result.bytes == first.text) = true := alone
  obtain ⟨statement, member, same⟩ := List.any_eq_true.1 isStatement
  rw [beq_iff_eq, textEq] at same
  obtain ⟨isExport, isDefault⟩ := isDefault_of_bytes parsed member same
  exact Exports.hasDefault_of_statement (List.mem_of_mem_filter member)
    isExport isDefault (ofModule_of_locate found)

/-- The result of a conversion parses.  If calls start no chains in it, or if
the default export stands alone, a second conversion with the same options
leaves it alone; if the default export stands alone, the second conversion
succeeds with an unchanged text and no warning exactly if calls start no chains
in the result. -/
theorem convert_again_silent_iff
    {host : Command.Host}
    {path source : String}
    {asked : Option Dialect}
    {outcome : Outcome}
    (parsed : Module.parse? (dialectFor (asked <|> options.dialect) path)
      source = some m)
    (found : locate m options.registration = .ok located)
    (passes : chosen located = some fragment)
    (converts : convert host options path source asked = .ok outcome) :
    ∃ result generated,
      Module.parse? (dialectFor (asked <|> options.dialect) path)
        outcome.code = some result ∧
      writtenPieces options m located fragment = .ok generated ∧
      (∀ again, locate result options.registration = .ok again →
        again.roots = [] ∨ standsAlone generated result = true →
        convert host options path outcome.code asked =
          .ok (leftAlone path outcome.code again.roots)) ∧
      (standsAlone generated result = true →
        ((∃ second, convert host options path outcome.code asked = .ok second ∧
            second.code = outcome.code ∧ second.diagnostics = []) ↔
          ∃ again, locate result options.registration = .ok again ∧
            again.roots = [])) := by
  obtain ⟨changed, transformed, outcomeEq, result, reparsed⟩ :=
    (applyTo_eq_ok parsed).1 converts
  have sameCode : changed.code = outcome.code := by rw [outcomeEq]
  rw [sameCode] at reparsed
  obtain ⟨⟨⟨code, count⟩, written⟩, -⟩ :=
    importChange_mem_changes_iff found passes transformed
  obtain ⟨first, rest, piecesEq, -⟩ := exists_writtenPieces written
  have leaves : ∀ again, locate result options.registration = .ok again →
      again.roots = [] ∨ standsAlone (first :: rest) result = true →
      convert host options path outcome.code asked =
        .ok (leftAlone path outcome.code again.roots) := by
    intro again foundAgain noRoots
    refine convert_leaves host reparsed foundAgain (noRoots.imp_right ?_)
    intro alone
    exact hasDefault_of_standsAlone piecesEq reparsed alone foundAgain
  refine ⟨result, first :: rest, reparsed, piecesEq, leaves, fun alone => ?_⟩
  constructor
  · rintro ⟨second, convertsAgain, -, silent⟩
    obtain ⟨again, foundAgain⟩ := exists_located reparsed convertsAgain
    refine ⟨again, foundAgain, ?_⟩
    rw [leaves again foundAgain (.inr alone), Except.ok.injEq] at convertsAgain
    rw [← convertsAgain] at silent
    cases rootsEq : again.roots with
    | nil => rfl
    | cons root roots =>
      rw [rootsEq] at silent
      contradiction
  · rintro ⟨again, foundAgain, noRoots⟩
    have convertsAgain := leaves again foundAgain (.inl noRoots)
    rw [noRoots] at convertsAgain
    exact ⟨_, convertsAgain, rfl, rfl⟩

set_option maxRecDepth 100000 in
/-- A chain whose stories call nothing by the name of the function is converted
once, and the second conversion is silent. -/
theorem convert_again_silent_once :
    ∃ m located fragment outcome result generated,
      Module.parse? .javascript
        ("import \x7b storiesOf as so \x7d from '@storybook/react';\n" ++
          "so('A', module).add('x', () => other('B'));\n") = some m ∧
      locate m {} = .ok located ∧ chosen located = some fragment ∧
      convert (fun _ => .error .noProgram) {} "a.js"
        ("import \x7b storiesOf as so \x7d from '@storybook/react';\n" ++
          "so('A', module).add('x', () => other('B'));\n")
        (some .javascript) = .ok outcome ∧
      writtenPieces {} m located fragment = .ok generated ∧
      Module.parse? .javascript outcome.code = some result ∧
      standsAlone generated result = true ∧
      ∃ second, convert (fun _ => .error .noProgram) {} "a.js" outcome.code
          (some .javascript) = .ok second ∧
        second.code = outcome.code ∧ second.diagnostics = [] := by
  generalize sourceEq :
    "import \x7b storiesOf as so \x7d from '@storybook/react';\n" ++
      "so('A', module).add('x', () => other('B'));\n" = source
  generalize textEq :
    "export default \x7b\n  title: 'A',\n\x7d;\n\n" ++
      "export const x = () => other('B');\n" = text
  have checked : (Module.parse? .javascript source).any (fun m =>
      (Module.parse? .javascript (Newline.normalizedEnds text)).any fun result =>
        (locate result {}).toOption.any (·.roots.isEmpty) &&
          editsInto m text fun _ _ generated =>
            standsAlone generated result) = true := by
    rw [← sourceEq, ← textEq]
    decide +kernel
  obtain ⟨m, parsed, checked⟩ := (Option.any_eq_true _ _).1 checked
  obtain ⟨result, reparsed, checked⟩ := (Option.any_eq_true _ _).1 checked
  rw [Bool.and_eq_true, any_toOption] at checked
  obtain ⟨⟨again, foundAgain, noRoots⟩, edits⟩ := checked
  obtain ⟨located, fragment, outcome, generated, found, passes, -, converts,
    codeEq, piecesEq, alone⟩ :=
    exists_conversion_into (fun _ => .error .noProgram) "a.js" parsed edits
      reparsed
  have picked : dialectFor (some .javascript <|> ({} : Options).dialect)
      "a.js" = .javascript := rfl
  rw [← codeEq] at reparsed
  rw [← picked] at parsed
  obtain ⟨result', generated', reparsed', piecesEq', -, silent⟩ :=
    convert_again_silent_iff parsed found passes converts
  rw [picked] at parsed reparsed'
  rw [reparsed, Option.some.injEq] at reparsed'
  rw [piecesEq, Except.ok.injEq] at piecesEq'
  rw [← reparsed', ← piecesEq'] at silent
  exact ⟨m, located, fragment, outcome, result, generated, parsed, found,
    passes, converts, piecesEq, reparsed, alone,
    (silent alone).2 ⟨again, foundAgain, List.isEmpty_iff.1 noRoots⟩⟩

set_option maxRecDepth 100000 in
/-- An expression of a story that calls another function by the name that an
alias had left free starts a chain once the import is gone: the second
conversion reports a module that the first one has written. -/
theorem second_conversion_reports :
    ∃ outcome second,
      convert (fun _ => .error .noProgram) {} "a.js"
        ("import \x7b storiesOf as so \x7d from '@storybook/react';\n" ++
          "so('A', module).add('x', () => storiesOf('B'));\n")
        (some .javascript) = .ok outcome ∧
      outcome.hasChanges = true ∧
      convert (fun _ => .error .noProgram) {} "a.js" outcome.code
        (some .javascript) = .ok second ∧
      second.diagnostics = [.about .defaultExportConflict "a.js" 1] := by
  generalize sourceEq :
    "import \x7b storiesOf as so \x7d from '@storybook/react';\n" ++
      "so('A', module).add('x', () => storiesOf('B'));\n" = source
  generalize textEq :
    "export default \x7b\n  title: 'A',\n\x7d;\n\n" ++
      "export const x = () => storiesOf('B');\n" = text
  have checked : (Module.parse? .javascript source).any (fun m =>
      (Module.parse? .javascript (Newline.normalizedEnds text)).any fun result =>
        (locate result {}).toOption.any (fun again =>
          again.exports.hasDefault && again.roots.length == 1) &&
            editsInto m text fun _ _ _ => true) = true := by
    rw [← sourceEq, ← textEq]
    decide +kernel
  have different : (source != Newline.normalizedEnds text) = true := by
    rw [← sourceEq, ← textEq]
    decide +kernel
  obtain ⟨m, parsed, checked⟩ := (Option.any_eq_true _ _).1 checked
  obtain ⟨result, reparsed, checked⟩ := (Option.any_eq_true _ _).1 checked
  rw [Bool.and_eq_true, any_toOption] at checked
  obtain ⟨⟨again, foundAgain, isOne⟩, edits⟩ := checked
  rw [Bool.and_eq_true, beq_iff_eq] at isOne
  obtain ⟨hasDefault, isOne⟩ := isOne
  obtain ⟨located, fragment, outcome, generated, found, passes, -, converts,
    codeEq, -, -⟩ :=
    exists_conversion_into (fun _ => .error .noProgram) "a.js" parsed edits
      reparsed
  rw [← codeEq] at reparsed different
  have reported : convert (fun _ => .error .noProgram) {} "a.js" outcome.code
      (some .javascript) = .ok (leftAlone "a.js" outcome.code again.roots) :=
    convert_leaves _ reparsed foundAgain (.inr hasDefault)
  obtain ⟨root, rootsEq⟩ := List.length_eq_one_iff.1 isOne
  refine ⟨outcome, _, converts, ?_, reported, by rw [rootsEq]; rfl⟩
  have picked : dialectFor (some .javascript <|> ({} : Options).dialect)
      "a.js" = .javascript := rfl
  rw [← picked] at parsed
  obtain ⟨changed, -, outcomeEq, -⟩ := (applyTo_eq_ok parsed).1 converts
  rw [outcomeEq] at different ⊢
  exact different

end Migration
end StoryMigration
