import StoryMigration.Proofs.ConvertedText
import StoryMigration.Proofs.ExportNames
import StoryMigration.Proofs.FreshNames
import StoryMigration.Proofs.GeneratedCode

/-!
# Identifiers of stories

The identifiers of generated exports are distinct and none of them occurs in the
module.  They also differ from the names that the module exports already, as far
as these occur in it as identifiers, and only as far.
-/

namespace StoryMigration
namespace Story

open Syntax Chain Fallible NamePool StoryName

variable {m : Module}

/-- The identifiers that stories with some names are exported under. -/
def storyIdentifiers (m : Module) (names : List (List Char)) : List String :=
  (NamePool.ofList (m.identifiers m.tree)).claimStories names

/-- A name that a story may be exported under: the identifier of some display
name behind some underscores. -/
def IsStoryIdentifier (name : String) : Prop :=
  ∃ count display, name = prefixed count (identifierOf display)

/-- Every exported name that a story may be exported under is bound or referred
to in the module. -/
def ExportsOccur (m : Module) (exported : List Text) : Prop :=
  ∀ name, IsStoryIdentifier name → Text.ofString name ∈ exported →
    name ∈ m.identifiers m.tree

/-- Stories take the identifiers that are claimed for their names. -/
theorem map_identifier_named
    (stories : List Entry) :
    (named (.ofList (m.identifiers m.tree)) stories).map (·.identifier) =
      storyIdentifiers m (stories.map fun story => story.name.legible) := by
  unfold named storyIdentifiers
  rw [List.map_map]
  refine List.map_snd_zip (Nat.le_of_eq ?_)
  rw [length_claimStories, List.length_map]

/-- No identifier of a story occurs in the module. -/
theorem not_mem_identifiers
    {names : List (List Char)}
    {identifier : String}
    (taken : identifier ∈ storyIdentifiers m names) :
    identifier ∉ m.identifiers m.tree := by
  rw [← mem_ofList]
  exact not_mem_of_mem_claimStories taken

/-- A possible identifier of a story is taken in some list of stories, unless it
occurs in the module. -/
theorem exists_mem_storyIdentifiers
    {name : String}
    (possible : IsStoryIdentifier name)
    (unused : name ∉ m.identifiers m.tree) :
    ∃ names, name ∈ storyIdentifiers m names := by
  obtain ⟨count, display, rfl⟩ := possible
  refine ⟨List.replicate (count + 1) display, ?_⟩
  have noneBefore : ∀ fewer < 0, prefixed fewer (identifierOf display) ∈
      (NamePool.ofList (m.identifiers m.tree)).names :=
    fun fewer less => absurd less (Nat.not_lt_zero fewer)
  have within : count < 0 + (count + 1) := by omega
  rcases mem_claimStories_replicate noneBefore within with inUse | taken
  · exact absurd (mem_ofList.1 inUse) unused
  · exact taken

/-- The identifiers of stories differ from all exported names, whatever the
stories are, exactly when the exported names that a story could take occur in
the module. -/
theorem avoidsExports_iff
    {exported : List Text} :
    (∀ names, ∀ identifier ∈ storyIdentifiers m names,
        Text.ofString identifier ∉ exported) ↔
      ExportsOccur m exported := by
  constructor
  · intro avoids name possible isExported
    by_contra unused
    obtain ⟨names, taken⟩ := exists_mem_storyIdentifiers possible unused
    exact avoids names name taken isExported
  · intro occur names identifier taken isExported
    obtain ⟨display, -, count, shape⟩ := eq_prefixed_of_mem_claimStories taken
    exact not_mem_identifiers taken
      (occur identifier ⟨count, display, shape⟩ isExported)

open Migration

/-- What is true of the identifiers of stories in a module: the generated exports
have those that are claimed for their names; however many are claimed, they are
distinct and do not occur in the module; exported names are identifiers of the
module unless they are not written as such; and claimed identifiers differ from
exported names as far as these occur. -/
structure FreshIdentifiers (m : Module) (located : Located) : Prop where
  generated : ∀ options fragment code count,
    generated options m located fragment = .ok (code, count) →
      ∃ metadata stories,
        code = (Newline.ofText m.source.toList).spread
          (assembled options m metadata stories) ∧
        stories.length = count ∧
        stories.map (·.identifier) = storyIdentifiers m
          (stories.map fun story => story.entry.name.legible)
  distinct : ∀ names, (storyIdentifiers m names).Nodup
  unused : ∀ names, ∀ identifier ∈ storyIdentifiers m names,
    identifier ∉ m.identifiers m.tree
  exported : ∀ name ∈ located.exports.named,
    (∃ identifier ∈ m.identifiers m.tree, name = .ofString identifier) ∨
      ∃ statement ∈ m.statements, statement.kind = .exportStatement ∧
        Exports.Unwritten m statement name
  avoids : (∀ names, ∀ identifier ∈ storyIdentifiers m names,
      Text.ofString identifier ∉ located.exports.named) ↔
    ExportsOccur m located.exports.named

/-- Identifiers of stories are fresh in a module, but may be exported names that
do not occur in it. -/
theorem freshIdentifiers_of_located
    {registration : Registration}
    {located : Located}
    (found : locate m registration = .ok located) :
    FreshIdentifiers m located := by
  refine ⟨?_, fun names => nodup_claimStories _ names,
    fun names identifier taken => not_mem_identifiers taken,
    fun name isNamed => Located.named_cases found isNamed, avoidsExports_iff⟩
  intro options fragment code count written
  unfold Migration.generated at written
  simp only [bind_eq_ok, pure_eq_ok, Prod.mk.injEq] at written
  obtain ⟨metadata, -, entries, -, codeEq, countEq⟩ := written
  refine ⟨metadata, _, codeEq.symm, countEq, ?_⟩
  have entriesEq :=
    map_entry_named (NamePool.ofList (m.identifiers m.tree)) entries
  rw [map_identifier_named]
  nth_rewrite 1 [← entriesEq]
  rw [List.map_map]
  rfl

set_option maxRecDepth 100000 in
/-- A story whose name is exported by a declaration takes another identifier. -/
theorem freshIdentifiers_declared_export :
    ∃ m located,
      Module.parse? .javascript
        ("export const foo = 1;\n" ++
          "storiesOf('A', module).add('foo', f);\n") = some m ∧
      locate m {} = .ok located ∧
      located.exports.named = [.ofString "foo"] ∧
      storyIdentifiers m ["foo".toList] = ["_foo"] ∧
      FreshIdentifiers m located := by
  generalize sourceEq :
    "export const foo = 1;\n" ++
      "storiesOf('A', module).add('foo', f);\n" = source
  have checked : (Module.parse? .javascript source).any (fun m =>
      (locate m {}).toOption.any fun located =>
        located.exports.named == [.ofString "foo"] &&
          storyIdentifiers m ["foo".toList] == ["_foo"]) = true := by
    rw [← sourceEq]
    decide +kernel
  obtain ⟨m, parsed, checked⟩ := (Option.any_eq_true _ _).1 checked
  obtain ⟨located, found, checked⟩ := any_toOption.1 checked
  rw [Bool.and_eq_true, beq_iff_eq, beq_iff_eq] at checked
  exact ⟨m, located, parsed, found, checked.1, checked.2,
    freshIdentifiers_of_located found⟩

set_option maxRecDepth 100000 in
/-- A story whose name is exported by a string literal takes that name again. -/
theorem storyIdentifiers_string_export :
    ∃ m located fragment stories outcome,
      Module.parse? .javascript
        ("const x = 1;\nexport \x7b x as 'foo' \x7d;\n" ++
          "storiesOf('A', module).add('foo', f);\n") = some m ∧
      locate m {} = .ok located ∧ chosen located = some fragment ∧
      transform (fun _ => .error .noProgram) {} "a.js" m = .ok outcome ∧
      Story.ofFragment m fragment = .ok stories ∧
      storyIdentifiers m (stories.map fun story => story.name.legible) =
        ["foo"] ∧
      Text.ofString "foo" ∈ located.exports.named := by
  generalize sourceEq :
    "const x = 1;\nexport \x7b x as 'foo' \x7d;\n" ++
      "storiesOf('A', module).add('foo', f);\n" = source
  have checked : (Module.parse? .javascript source).any (fun m =>
      decide m.LaidOut && (locate m {}).toOption.any fun located =>
        (chosen located).any fun fragment =>
          (Migration.generated {} m located fragment).toOption.isSome &&
            located.exports.named.contains (.ofString "foo") &&
            (Story.ofFragment m fragment).toOption.any fun stories =>
              storyIdentifiers m (stories.map fun story =>
                story.name.legible) == ["foo"]) = true := by
    rw [← sourceEq]
    decide +kernel
  obtain ⟨m, parsed, checked⟩ := (Option.any_eq_true _ _).1 checked
  rw [Bool.and_eq_true, decide_eq_true_eq, any_toOption] at checked
  obtain ⟨laidOut, located, found, checked⟩ := checked
  obtain ⟨fragment, passes, checked⟩ := (Option.any_eq_true _ _).1 checked
  rw [Bool.and_eq_true, Bool.and_eq_true, any_toOption] at checked
  obtain ⟨⟨writes, isExported⟩, stories, read, identifiers⟩ := checked
  obtain ⟨⟨code, count⟩, written, -⟩ :=
    any_toOption.1 (Option.any_true.trans writes)
  have foundByDefault :
      locate m ({} : Options).registration = .ok located := found
  obtain ⟨outcome, converts⟩ := exists_transform_eq_ok
    (fun _ => .error .noProgram) "a.js"
    (rfl : ({} : Options).stripResidualRoots = false)
    (rfl : ({} : Options).formatter = []) laidOut.orderly
    (laidOut.readable parsed) foundByDefault passes written
  exact ⟨m, located, fragment, stories, outcome, parsed, found, passes,
    converts, read, beq_iff_eq.1 identifiers,
    List.contains_iff_mem.1 isExported⟩

end Story
end StoryMigration
