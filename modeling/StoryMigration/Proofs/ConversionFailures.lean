import StoryMigration.Proofs.ModuleLayout
import StoryMigration.Proofs.ReadLiterals

/-!
# How a conversion fails

The tree of every source that parses lies over its bytes, so that the edits of
a conversion can always be applied.  What is left to fail without a formatter
is the source, which may not parse, the result, which may not parse either, and
the literals that are read on the way: one of them may write a code point that
there is not.
-/

namespace StoryMigration
namespace Migration

open Syntax Chain Fallible

variable {m : Module} {options : Options} {registration : Registration}

/-- The string literals that a conversion of a module reads. -/
inductive Reads (m : Module) (registration : Registration) : Node → Prop
  | toLocate
      {literal : Node}
      (isRead : ReadToLocate m registration literal) :
      Reads m registration literal
  | toWrite
      {located : Located}
      {fragment : Fragment}
      {literal : Node}
      (found : locate m registration = .ok located)
      (passes : chosen located = some fragment)
      (isRead : Story.ReadToWrite fragment literal) :
      Reads m registration literal

/-- The literals that are read stand in the module. -/
theorem Reads.mem_preorder
    {literal : Node}
    (isRead : Reads m registration literal) :
    literal ∈ m.tree.preorder := by
  cases isRead with
  | toLocate isRead => exact isRead.mem_preorder
  | toWrite found passes isRead =>
    have sound := locate_sound found
    obtain ⟨-, isFragment⟩ := veto_eq_none_of_chosen passes
    obtain ⟨statement, isStatement, below⟩ :=
      isRead.mem_preorder (sound.collected isFragment)
    have sublist := (sound.of_mem isFragment).2.2
    exact Node.mem_preorder_trans
      (Module.statement_mem_preorder (sublist.subset isStatement)) below

theorem wellFormed_of_mem
    {located : Located}
    {fragment : Fragment}
    (sound : located.Sound m)
    (isFragment : fragment ∈ located.fragments) :
    ∀ link ∈ fragment.links, link.isWellFormed = true := by
  have supported := (sound.of_mem isFragment).1
  unfold isSupported at supported
  rw [Bool.and_eq_true, List.all_eq_true] at supported
  exact supported.1

/-- A module without a fragment to convert is left alone. -/
theorem exists_transform_of_chosen_eq_none
    {located : Located}
    (host : Command.Host)
    (path : String)
    (found : locate m options.registration = .ok located)
    (leaves : chosen located = none) :
    ∃ outcome, transform host options path m = .ok outcome := by
  unfold transform
  rw [exists_bind_eq_ok_iff]
  refine ⟨located, mapError_eq_ok.2 found, ?_⟩
  cases veto located with
  | some reason => exact ⟨_, rfl⟩
  | none =>
    rw [leaves]
    exact ⟨_, rfl⟩

/-- A fragment that cannot be written anew fails the change of its module. -/
theorem transform_of_generated_eq_error
    {located : Located}
    {fragment : Fragment}
    {failure : EscapeError}
    (host : Command.Host)
    (path : String)
    (found : locate m options.registration = .ok located)
    (passes : chosen located = some fragment)
    (unwritten : generated options m located fragment = .error failure) :
    transform host options path m = .error (.badEscape failure) := by
  have allowed := (veto_eq_none_of_chosen passes).1
  have unconverted : converted host options path m located fragment =
      .error (.badEscape failure) := by
    unfold converted
    rw [unwritten]
    rfl
  have start : (locate m options.registration).mapError MigrationError.badEscape =
      pure located := by
    rw [found]
    rfl
  rw [transform, start, pure_bind, allowed]
  simp only
  rw [passes]
  simp only
  rw [unconverted]
  rfl

/-- The change of a module that parses succeeds if all literals that are read
have a value, and fails because of one of them otherwise. -/
theorem transform_cases
    {dialect : Dialect}
    {source : String}
    (host : Command.Host)
    (path : String)
    (unstripped : options.stripResidualRoots = false)
    (unformatted : options.formatter = [])
    (parsed : Module.parse? dialect source = some m) :
    ((∃ outcome, transform host options path m = .ok outcome) ∧
        ∀ literal, Reads m options.registration literal → m.HasValue literal) ∨
      ∃ failure literal, transform host options path m =
          .error (.badEscape failure) ∧
        Reads m options.registration literal ∧ ¬ m.HasValue literal := by
  cases found : locate m options.registration with
  | error failure =>
    have unread : ¬ ∃ located, locate m options.registration = .ok located := by
      rw [found]
      exact nofun
    rw [exists_locate_iff] at unread
    push Not at unread
    obtain ⟨literal, isRead, noValue⟩ := unread
    refine .inr ⟨failure, literal, ?_, .toLocate isRead, noValue⟩
    unfold transform
    rw [found]
    rfl
  | ok located =>
    have toLocate := exists_locate_iff.1 ⟨located, found⟩
    cases passes : chosen located with
    | none =>
      refine .inl ⟨exists_transform_of_chosen_eq_none host path found passes, ?_⟩
      intro literal isRead
      cases isRead with
      | toLocate isRead => exact toLocate literal isRead
      | toWrite foundHere passesHere isRead =>
        rw [found, Except.ok.injEq] at foundHere
        rw [← foundHere, passes] at passesHere
        contradiction
    | some fragment =>
      obtain ⟨-, isFragment⟩ := veto_eq_none_of_chosen passes
      have wellFormed := wellFormed_of_mem (locate_sound found) isFragment
      cases written : generated options m located fragment with
      | error failure =>
        have unread : ¬ ∃ code,
            generated options m located fragment = .ok code := by
          rw [written]
          exact nofun
        rw [Story.exists_generated_iff wellFormed] at unread
        push Not at unread
        obtain ⟨literal, isRead, noValue⟩ := unread
        exact .inr ⟨failure, literal,
          transform_of_generated_eq_error host path found passes written,
          .toWrite found passes isRead, noValue⟩
      | ok result =>
        obtain ⟨code, count⟩ := result
        have toWrite := (Story.exists_generated_iff wellFormed).1 ⟨_, written⟩
        refine .inl ⟨exists_transform_eq_ok host path unstripped unformatted
          (Module.orderly_of_parse? parsed) (Module.readable_of_parse? parsed)
          found passes written, fun literal isRead => ?_⟩
        cases isRead with
        | toLocate isRead => exact toLocate literal isRead
        | toWrite foundHere passesHere isRead =>
          rw [found, Except.ok.injEq] at foundHere
          rw [← foundHere, passes, Option.some.injEq] at passesHere
          rw [← passesHere] at isRead
          exact toWrite literal isRead

theorem applyTo_of_ok
    {dialect : Dialect}
    {path source : String}
    {change : Module → Except MigrationError Outcome}
    {changed : Outcome}
    (parsed : Module.parse? dialect source = some m)
    (changes : change m = .ok changed) :
    (∃ outcome, applyTo dialect path source change = .ok outcome) ∨
      applyTo dialect path source change = .error (.badResult path) := by
  unfold applyTo
  rw [parsed]
  simp only [changes]
  by_cases fails : ({ changed with before := source } : Outcome).hasChanges &&
      (Module.parse? dialect changed.code).isNone
  · right
    show (if _ then _ else _) = _
    rw [if_pos fails]
    rfl
  · left
    refine ⟨{ changed with before := source }, ?_⟩
    show (if _ then _ else _) = _
    rw [if_neg fails]
    rfl

theorem applyTo_of_error
    {dialect : Dialect}
    {path source : String}
    {change : Module → Except MigrationError Outcome}
    {failure : MigrationError}
    (parsed : Module.parse? dialect source = some m)
    (fails : change m = .error failure) :
    applyTo dialect path source change = .error failure := by
  unfold applyTo
  rw [parsed]
  simp only [fails]
  rfl

/-- A source that parses is converted, or its result does not parse, unless a
literal that is read has no value. -/
theorem convert_cases
    {path source : String}
    {asked : Option Dialect}
    (host : Command.Host)
    (unstripped : options.stripResidualRoots = false)
    (unformatted : options.formatter = [])
    (parsed : Module.parse? (dialectFor (asked <|> options.dialect) path)
      source = some m) :
    (((∃ outcome, convert host options path source asked = .ok outcome) ∨
          convert host options path source asked = .error (.badResult path)) ∧
        ∀ literal, Reads m options.registration literal → m.HasValue literal) ∨
      ∃ failure literal, convert host options path source asked =
          .error (.badEscape failure) ∧
        Reads m options.registration literal ∧ ¬ m.HasValue literal := by
  rcases transform_cases host path unstripped unformatted parsed with
    ⟨⟨changed, changes⟩, haveValues⟩ | ⟨failure, literal, fails, rest⟩
  · exact .inl ⟨applyTo_of_ok parsed changes, haveValues⟩
  · exact .inr ⟨failure, literal, applyTo_of_error parsed fails, rest⟩

theorem convert_of_parse?_eq_none
    {path source : String}
    {asked : Option Dialect}
    (host : Command.Host)
    (unparsed : Module.parse? (dialectFor (asked <|> options.dialect) path)
      source = none) :
    convert host options path source asked =
      .error (.unparsable path (dialectFor (asked <|> options.dialect) path)) := by
  unfold convert applyTo
  rw [unparsed]
  rfl

theorem transformFile_of_ok
    {host : Command.Host}
    {path source : String}
    {asked : Option Dialect}
    {outcome : Outcome}
    (converts : convert host options path source asked = .ok outcome) :
    transformFile host options path source asked =
      .ok (outcome.code, outcome.diagnostics) := by
  unfold transformFile
  rw [converts]
  rfl

theorem transformFile_of_error
    {host : Command.Host}
    {path source : String}
    {asked : Option Dialect}
    {failure : MigrationError}
    (fails : convert host options path source asked = .error failure) :
    transformFile host options path source asked = .error failure := by
  unfold transformFile
  rw [fails]
  rfl

/-- The escape sequence of a part of a literal writes a number beyond the last
code point. -/
def IsBeyond (m : Module) (part : Node) : Prop :=
  part.kind = .escapeSequence ∧
    0x110000 ≤ hexValue (escapeDigits ((m.text part).toList.drop 1))

theorem exists_isBeyond_iff
    {literal : Node} :
    (∃ part ∈ literal.namedChildren, IsBeyond m part) ↔
      ¬ m.HasValue literal := by
  rw [Module.hasValue_iff]
  push Not
  rfl

/-- The conversion of a file by default gives a text, or says that the source or
the result does not parse, or fails over an escape sequence.  The last happens
exactly if a literal that is read writes a number beyond the last code point. -/
theorem transformFile_cases
    (host : Command.Host)
    (path source : String) :
    ((∃ code warnings, transformFile host {} path source = .ok (code, warnings)) ∨
      transformFile host {} path source =
        .error (.unparsable path (Path.ofString path).dialect) ∨
      transformFile host {} path source = .error (.badResult path) ∨
      ∃ failure, transformFile host {} path source =
        .error (.badEscape failure)) ∧
    ((∃ failure, transformFile host {} path source =
        .error (.badEscape failure)) ↔
      ∃ m, Module.parse? (Path.ofString path).dialect source = some m ∧
        ∃ literal, Reads m {} literal ∧
          ∃ part ∈ literal.namedChildren, IsBeyond m part) := by
  have sameDialect : dialectFor (none <|> ({} : Options).dialect) path =
      (Path.ofString path).dialect := rfl
  cases parsed : Module.parse? (Path.ofString path).dialect source with
  | none =>
    have fails := transformFile_of_error
      (convert_of_parse?_eq_none host (sameDialect ▸ parsed))
    rw [fails]
    exact ⟨.inr (.inl rfl), nofun, nofun⟩
  | some m =>
    simp only [Option.some.injEq, exists_eq_left', exists_isBeyond_iff]
    rcases convert_cases host
        (rfl : ({} : Options).stripResidualRoots = false) rfl
        (sameDialect ▸ parsed) with
      ⟨⟨outcome, converts⟩ | fails, haveValues⟩ |
        ⟨failure, literal, fails, isRead, noValue⟩
    · rw [transformFile_of_ok converts]
      exact ⟨.inl ⟨_, _, rfl⟩, nofun,
        fun ⟨literal, isRead, noValue⟩ => absurd (haveValues literal isRead) noValue⟩
    · rw [transformFile_of_error fails]
      exact ⟨.inr (.inr (.inl rfl)), nofun,
        fun ⟨literal, isRead, noValue⟩ => absurd (haveValues literal isRead) noValue⟩
    · rw [transformFile_of_error fails]
      exact ⟨.inr (.inr (.inr ⟨_, rfl⟩)),
        fun _ => ⟨literal, isRead, noValue⟩, fun _ => ⟨failure, rfl⟩⟩

set_option maxRecDepth 100000 in
/-- A title with an escape sequence beyond the last code point lets another
failure through. -/
theorem transformFile_beyond_unicode :
    transformFile (fun _ => .error .noProgram) {} "a.js"
        "storiesOf('\\u\x7b110000\x7d', module).add('x', f);\n" =
      .error (.badEscape .beyondUnicode) := by
  decide +kernel

end Migration
end StoryMigration
