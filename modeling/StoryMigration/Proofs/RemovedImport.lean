import StoryMigration.Proofs.ConvertedText
import StoryMigration.Proofs.CopiedExpressions
import StoryMigration.Proofs.NodeCount

/-!
# What refers to a removed import

The import of the registration function goes with a chain if its name occurs
nowhere else.  That leaves out the whole chain, although some of its
expressions are copied into the generated code.  So nothing outside the chain
refers to an import that is removed, but an expression that is copied may.
-/

namespace StoryMigration
namespace Migration

open Syntax Chain Fallible Story

variable {m : Module} {options : Options} {located : Located}
  {fragment : Fragment}

/-! ## What survives a conversion -/

/-- The statement that imports the registration function. -/
def importing? (m : Module) (located : Located) : Option Node :=
  located.specifier.bind (ImportRemoval.statementOf? m)

/-- The statements that are taken out of the source or shortened: the one with
the import and those of the chain. -/
def takenOut
    (m : Module)
    (located : Located)
    (fragment : Fragment) : List Node :=
  (importing? m located).toList ++ fragment.statements

/-- A node that is still there after a conversion: one that lies in none of the
statements that are taken out, or in an expression that is copied. -/
inductive Survives
    (m : Module)
    (located : Located)
    (fragment : Fragment)
    (node : Node) : Prop
  | stays
      (isNode : node ∈ m.tree.preorder)
      (outside : ∀ statement ∈ takenOut m located fragment,
        statement.covers node = false)
  | copied
      {metadata : Metadata}
      {entries : List Story.Entry}
      {expression : Node}
      (metadataRead :
        Metadata.ofFragment m fragment located.exports.named = .ok metadata)
      (entriesRead : Story.ofFragment m fragment = .ok entries)
      (isCopy : expression ∈ copies metadata entries)
      (below : node ∈ expression.preorder)

/-- All of the module that is not taken out survives. -/
theorem Survives.of_part
    {part node : Node}
    (orderly : m.Orderly)
    (found : locate m options.registration = .ok located)
    (passes : chosen located = some fragment)
    (isPart : part ∈ m.tree.children)
    (notTaken : part ∉ takenOut m located fragment)
    (below : node ∈ part.preorder)
    (forward : node.start < node.stop) :
    Survives m located fragment node := by
  obtain ⟨-, member⟩ := veto_eq_none_of_chosen passes
  obtain ⟨-, -, sublist⟩ := (locate_sound found).of_mem member
  refine .stays (Node.mem_preorder_of_child isPart below) ?_
  intro statement isTaken
  have isStatement : statement ∈ m.statements := by
    rcases List.mem_append.1 isTaken with isImport | isOwn
    · rw [Option.mem_toList] at isImport
      obtain ⟨specifier, -, statementFound⟩ := Option.bind_eq_some_iff.1 isImport
      exact (ImportRemoval.statementOf?_eq_some statementFound).1
    · exact sublist.subset isOwn
  have different : statement ≠ part := by
    rintro rfl
    exact notTaken isTaken
  have inTurn := orderly.nested.inTurn_of_ne (m.tree.parts_subset isStatement)
    isPart different
  have inside :=
    (orderly.nested.of_mem (Node.child_mem_preorder isPart)).inside below
  unfold Node.covers
  rw [Bool.and_eq_false_iff, decide_eq_false_iff_not, decide_eq_false_iff_not]
  omega

/-- The name of the registration function occurs only in statements that are
taken out. -/
def Confined
    (m : Module)
    (located : Located)
    (fragment : Fragment) : Prop :=
  ∀ node ∈ m.tree.preorder, isOccurrence m located.localName node = true →
    ∃ statement ∈ takenOut m located fragment, statement.covers node = true

/-- No expression of the chain that is kept mentions the registration
function. -/
def KeepsNoReference
    (m : Module)
    (located : Located)
    (fragment : Fragment) : Prop :=
  ∀ expression, Kept m fragment expression → ∀ node ∈ expression.preorder,
    isOccurrence m located.localName node = false

/-! ## When the import is removed -/

theorem references_eq_zero_iff
    {name : String}
    {exclude : List Node} :
    ImportRemoval.references m name exclude = 0 ↔
      ∀ node ∈ m.tree.preorder, isOccurrence m name node = true →
        ∃ outer ∈ exclude, outer.covers node = true := by
  unfold ImportRemoval.references
  rw [List.length_eq_zero_iff, List.filter_eq_nil_iff]
  apply forall₂_congr
  intro node _
  unfold isOccurrence
  rw [Bool.and_eq_true, not_and, Bool.not_eq_true', Bool.not_eq_false,
    List.any_eq_true]

/-- The import is removed exactly when the name occurs only in statements that
are taken out. -/
theorem isSome_importEdit_iff :
    (importEdit m located fragment.statements).isSome = true ↔
      (importing? m located).isSome = true ∧ Confined m located fragment := by
  unfold Confined takenOut importing? importEdit
  cases located.specifier with
  | none => simp
  | some specifier =>
    simp only [Option.bind_eq_bind, Option.bind_some]
    cases ImportRemoval.statementOf? m specifier with
    | none => simp
    | some importing =>
      rw [Option.bind_some, Option.isSome_some, Option.toList_some,
        List.singleton_append, ← references_eq_zero_iff]
      split
      · rename_i unreferenced
        simp [unreferenced]
      · rename_i referenced
        simp [referenced]

/-- The description of a removed import differs from that of a converted
chain. -/
theorem importChange_ne_chainChange
    (count : Nat)
    (title : Text) :
    importChange options ≠ chainChange count title := by
  intro same
  have heads := congrArg List.head? same
  unfold importChange chainChange Text.ofString Text.ofChars at heads
  simp only [String.toList_append, List.map_append, List.append_assoc,
    List.head?_append] at heads
  exact absurd heads (by simp [CodePoint.ofChar])

/-- A conversion writes code for the chain, and reports the import if it
removes it. -/
theorem converted_eq_ok
    {host : Command.Host}
    {path text : String}
    {changes : List Text}
    (made : converted host options path m located fragment =
      .ok (text, changes)) :
    ∃ code count, generated options m located fragment = .ok (code, count) ∧
      changes =
        ((importEdit m located fragment.statements).map fun _ =>
          importChange options).toList ++ [chainChange count fragment.title] := by
  unfold converted at made
  simp only [bind_eq_ok, mapError_eq_ok] at made
  obtain ⟨⟨code, count⟩, written, spliced, -, made⟩ := made
  refine ⟨code, count, written, ?_⟩
  -- stripping and formatting change the text and nothing else
  split at made
  · simp only [bind_eq_ok, mapError_eq_ok, pure_eq_ok, Prod.mk.injEq] at made
    obtain ⟨stripped, -, formatted, -, -, changesEq⟩ := made
    exact changesEq.symm
  · simp only [bind_eq_ok, mapError_eq_ok, pure_eq_ok, Prod.mk.injEq] at made
    obtain ⟨stripped, -, formatted, -, -, changesEq⟩ := made
    exact changesEq.symm

/-- The import is reported among the changes exactly when it is removed. -/
theorem importChange_mem_changes_iff
    {host : Command.Host}
    {path : String}
    {outcome : Outcome}
    (found : locate m options.registration = .ok located)
    (passes : chosen located = some fragment)
    (converts : transform host options path m = .ok outcome) :
    (∃ written, generated options m located fragment = .ok written) ∧
      (importChange options ∈ outcome.changes ↔
        (importEdit m located fragment.statements).isSome = true) := by
  have allowed := (veto_eq_none_of_chosen passes).1
  unfold transform at converts
  rw [found] at converts
  simp only [bind_eq_ok, mapError_eq_ok] at converts
  obtain ⟨value, sameLocated, converts⟩ := converts
  rw [Except.ok.injEq] at sameLocated
  rw [← sameLocated, allowed] at converts
  simp only [passes, bind_eq_ok, pure_eq_ok] at converts
  obtain ⟨⟨text, changes⟩, made, rfl⟩ := converts
  obtain ⟨code, count, written, changesEq⟩ := converted_eq_ok made
  refine ⟨⟨_, written⟩, ?_⟩
  rw [changesEq, List.mem_append, List.mem_singleton, or_iff_left
    (importChange_ne_chainChange count fragment.title)]
  cases importEdit m located fragment.statements with
  | none => simp
  | some edit => simp

/-! ## References to a removed import -/

/-- What survives a conversion lies outside the statements that are taken out,
or in a kept expression of the chain. -/
theorem survives_iff
    {written : String × Nat}
    {node : Node}
    (writtenFound : generated options m located fragment = .ok written) :
    Survives m located fragment node ↔
      (node ∈ m.tree.preorder ∧ ∀ statement ∈ takenOut m located fragment,
          statement.covers node = false) ∨
        ∃ expression, Kept m fragment expression ∧
          node ∈ expression.preorder := by
  unfold generated at writtenFound
  simp only [bind_eq_ok] at writtenFound
  obtain ⟨metadata, metadataRead, entries, entriesRead, -⟩ := writtenFound
  constructor
  · intro survives
    cases survives with
    | stays isNode outside => exact .inl ⟨isNode, outside⟩
    | copied metadataRead entriesRead isCopy below =>
      exact .inr ⟨_, (mem_copies_iff metadataRead entriesRead).1 isCopy, below⟩
  · rintro (⟨isNode, outside⟩ | ⟨expression, kept, below⟩)
    · exact .stays isNode outside
    · exact .copied metadataRead entriesRead
        ((mem_copies_iff metadataRead entriesRead).2 kept) below

/-- Converting a module by default removes its import, and what is known of the
number of references in the copied expressions. -/
def removesImport (m : Module) (known : Nat → Bool) : Bool :=
  decide m.LaidOut && (locate m {}).toOption.any fun located =>
    (chosen located).any fun fragment =>
      (importEdit m located fragment.statements).isSome &&
        (generated {} m located fragment).toOption.isSome &&
        (Metadata.ofFragment m fragment
            located.exports.named).toOption.any fun metadata =>
          (Story.ofFragment m fragment).toOption.any fun entries =>
            known (countIn (isOccurrence m located.localName)
              (copies metadata entries))

/-- What is computed of a conversion by default holds of it. -/
theorem exists_conversion
    {dialect : Dialect}
    {source : String}
    {known : Nat → Bool}
    (host : Command.Host)
    (path : String)
    (parsed : Module.parse? dialect source = some m)
    (removes : removesImport m known = true) :
    ∃ located fragment outcome metadata entries,
      locate m {} = .ok located ∧ chosen located = some fragment ∧
      transform host {} path m = .ok outcome ∧
      importChange {} ∈ outcome.changes ∧
      Metadata.ofFragment m fragment located.exports.named = .ok metadata ∧
      Story.ofFragment m fragment = .ok entries ∧
      known (countIn (isOccurrence m located.localName)
        (copies metadata entries)) = true := by
  unfold removesImport at removes
  rw [Bool.and_eq_true, decide_eq_true_eq, any_toOption] at removes
  obtain ⟨laidOut, located, found, removes⟩ := removes
  obtain ⟨fragment, passes, removes⟩ := (Option.any_eq_true _ _).1 removes
  rw [Bool.and_eq_true, Bool.and_eq_true, any_toOption] at removes
  obtain ⟨⟨edits, writes⟩, metadata, metadataRead, removes⟩ := removes
  obtain ⟨entries, entriesRead, isKnown⟩ := any_toOption.1 removes
  obtain ⟨⟨code, count⟩, written, -⟩ :=
    any_toOption.1 (Option.any_true.trans writes)
  have foundByDefault :
      locate m ({} : Options).registration = .ok located := found
  obtain ⟨outcome, converts⟩ := exists_transform_eq_ok host path
    (rfl : ({} : Options).stripResidualRoots = false)
    (rfl : ({} : Options).formatter = []) laidOut.orderly
    (laidOut.readable parsed) foundByDefault passes written
  have reports := (importChange_mem_changes_iff foundByDefault passes
    converts).2.2 edits
  exact ⟨located, fragment, outcome, metadata, entries, found, passes, converts,
    reports, metadataRead, entriesRead, isKnown⟩

/-- No node that survives a conversion refers to an import that it removes,
exactly when a name that occurs only in statements that are taken out occurs in
no kept expression of the chain. -/
theorem removed_import_unreferenced_iff
    {outcome : Outcome}
    (host : Command.Host)
    (path : String)
    (found : locate m options.registration = .ok located)
    (passes : chosen located = some fragment)
    (converts : transform host options path m = .ok outcome) :
    (importChange options ∈ outcome.changes →
        ∀ node, Survives m located fragment node →
          isOccurrence m located.localName node = false) ↔
      ((importing? m located).isSome = true → Confined m located fragment →
        KeepsNoReference m located fragment) := by
  obtain ⟨⟨written, writtenFound⟩, reported⟩ :=
    importChange_mem_changes_iff found passes converts
  rw [reported, isSome_importEdit_iff, and_imp]
  apply imp_congr_right
  intro imported
  apply imp_congr_right
  intro confined
  constructor
  · intro unreferenced expression kept node below
    exact unreferenced node
      ((survives_iff writtenFound).2 (.inr ⟨expression, kept, below⟩))
  · intro keepsNone node survives
    rcases (survives_iff writtenFound).1 survives with
      ⟨isNode, outside⟩ | ⟨expression, kept, below⟩
    · by_contra occurs
      rw [Bool.not_eq_false] at occurs
      obtain ⟨statement, isTaken, covers⟩ := confined node isNode occurs
      rw [outside statement isTaken] at covers
      contradiction
    · exact keepsNone expression kept node below

set_option maxRecDepth 100000 in
/-- The import goes with a chain whose expressions do not mention the function,
and nothing that survives refers to it. -/
theorem removed_import_unreferenced_other_call :
    ∃ m located fragment outcome,
      Module.parse? .javascript
        ("import \x7b storiesOf \x7d from '@storybook/react';\n" ++
          "storiesOf('A', module).add('x', () => render(y));\n") = some m ∧
      locate m {} = .ok located ∧ chosen located = some fragment ∧
      transform (fun _ => .error .noProgram) {} "a.js" m = .ok outcome ∧
      importChange {} ∈ outcome.changes ∧
      ∀ node, Survives m located fragment node →
        isOccurrence m located.localName node = false := by
  generalize sourceEq :
    "import \x7b storiesOf \x7d from '@storybook/react';\n" ++
      "storiesOf('A', module).add('x', () => render(y));\n" = source
  have checked : (Module.parse? .javascript source).any
      (removesImport · (· == 0)) = true := by
    rw [← sourceEq]
    decide +kernel
  obtain ⟨m, parsed, removes⟩ := (Option.any_eq_true _ _).1 checked
  obtain ⟨located, fragment, outcome, metadata, entries, found, passes,
    converts, reports, metadataRead, entriesRead, none⟩ :=
    exists_conversion (fun _ => .error .noProgram) "a.js" parsed removes
  have keepsNone : KeepsNoReference m located fragment := by
    intro expression kept node below
    by_contra occurs
    rw [Bool.not_eq_false] at occurs
    have isCopy := (mem_copies_iff metadataRead entriesRead).2 kept
    exact List.countP_eq_zero.1 (beq_iff_eq.1 none) node
      (List.mem_flatMap.2 ⟨expression, isCopy, below⟩) occurs
  have foundByDefault :
      locate m ({} : Options).registration = .ok located := found
  have unreferenced := removed_import_unreferenced_iff
    (fun _ => .error .noProgram) "a.js" foundByDefault passes converts
  exact ⟨m, located, fragment, outcome, parsed, found, passes, converts,
    reports, unreferenced.2 (fun _ _ => keepsNone) reports⟩

set_option maxRecDepth 100000 in
/-- The import also goes if the chain's own story calls the function: that call
survives and refers to nothing. -/
theorem removed_import_still_called :
    ∃ m located fragment outcome node,
      Module.parse? .javascript
        ("import \x7b storiesOf \x7d from '@storybook/react';\n" ++
          "storiesOf('A', module).add('x', () => storiesOf(y));\n") = some m ∧
      locate m {} = .ok located ∧ chosen located = some fragment ∧
      transform (fun _ => .error .noProgram) {} "a.js" m = .ok outcome ∧
      importChange {} ∈ outcome.changes ∧
      Survives m located fragment node ∧
      isOccurrence m located.localName node = true := by
  generalize sourceEq :
    "import \x7b storiesOf \x7d from '@storybook/react';\n" ++
      "storiesOf('A', module).add('x', () => storiesOf(y));\n" = source
  have checked : (Module.parse? .javascript source).any
      (removesImport · (0 < ·)) = true := by
    rw [← sourceEq]
    decide +kernel
  obtain ⟨m, parsed, removes⟩ := (Option.any_eq_true _ _).1 checked
  obtain ⟨located, fragment, outcome, metadata, entries, found, passes,
    converts, reports, metadataRead, entriesRead, referenced⟩ :=
    exists_conversion (fun _ => .error .noProgram) "a.js" parsed removes
  obtain ⟨node, isBelow, occurs⟩ :=
    List.countP_pos_iff.1 (of_decide_eq_true referenced)
  obtain ⟨expression, isCopy, below⟩ := List.mem_flatMap.1 isBelow
  exact ⟨m, located, fragment, outcome, node, parsed, found, passes, converts,
    reports, .copied metadataRead entriesRead isCopy below, occurs⟩

end Migration
end StoryMigration
