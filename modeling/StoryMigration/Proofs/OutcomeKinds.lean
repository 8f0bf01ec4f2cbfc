import StoryMigration.Proofs.Guards
import StoryMigration.Proofs.RemovedImport

/-!
# The outcomes of a conversion

Roots are counted over the whole tree, while fragments start from statements of
the module only, and only the supported ones count.  The two scans still agree:
a module is left alone without a word if it has no root, left alone with one
warning if there is a reason, and converted otherwise, and then the root of the
fragment is the one root there is.
-/

namespace StoryMigration
namespace Migration

open Syntax Chain Fallible

variable {m : Module} {located : Located}

/-- Why a module with roots is left alone. -/
def Reason (located : Located) : DiagnosticKind → Prop
  | .defaultExportConflict =>
      located.roots ≠ [] ∧ located.exports.hasDefault = true
  | .multipleChains =>
      located.exports.hasDefault = false ∧ 1 < located.roots.length
  | .unsupportedShape =>
      located.exports.hasDefault = false ∧ ∃ root, located.roots = [root] ∧
        ∀ fragment ∈ located.fragments, fragment.root ≠ root

theorem Reason.roots_ne_nil
    {kind : DiagnosticKind}
    (reason : Reason located kind) :
    located.roots ≠ [] := by
  cases kind with
  | defaultExportConflict => exact reason.1
  | multipleChains =>
    exact List.length_pos_iff.1 (Nat.lt_of_succ_lt reason.2)
  | unsupportedShape =>
    obtain ⟨-, root, rootsEq, -⟩ := reason
    rw [rootsEq]
    exact List.cons_ne_nil _ _

/-- There is at most one reason. -/
theorem Reason.unique
    {kind other : DiagnosticKind}
    (reason : Reason located kind)
    (otherReason : Reason located other) :
    kind = other := by
  cases kind <;> cases other <;> grind [Reason]

/-! ## Guards and reasons -/

/-- The fragment of a single root is the one fragment there is. -/
theorem fragments_of_single
    {fragment : Fragment}
    (sound : located.Sound m)
    (single : located.roots.length = 1)
    (member : fragment ∈ located.fragments) :
    located.fragments = [fragment] ∧ located.roots = [fragment.root] := by
  have someRoots : located.roots ≠ [] :=
    List.length_pos_iff.1 (by omega)
  obtain ⟨all, found, locatedEq⟩ := sound.fragments someRoots
  rw [locatedEq, List.mem_filter] at member
  obtain ⟨isFragment, supported⟩ := member
  obtain ⟨allEq, rootsEq⟩ := allFragments_eq_of_mem sound single found isFragment
  rw [locatedEq, allEq, List.filter_cons_of_pos supported, List.filter_nil]
  exact ⟨rfl, rootsEq⟩

/-- A single root starts no supported fragment exactly when there is none. -/
theorem unsupported_eq_nil_iff
    {root : Node}
    (sound : located.Sound m)
    (rootsEq : located.roots = [root]) :
    located.unsupported = [] ↔ ∃ fragment ∈ located.fragments,
      fragment.root = root := by
  have single : located.roots.length = 1 := by rw [rootsEq]; rfl
  rw [Located.unsupported, rootsEq, List.filter_eq_nil_iff,
    List.forall_mem_singleton, Bool.not_eq_true, Bool.not_eq_false',
    List.any_eq_true]
  constructor
  · rintro ⟨fragment, member, -⟩
    have same := (fragments_of_single sound single member).2
    rw [rootsEq, List.cons.injEq] at same
    exact ⟨fragment, member, same.1.symm⟩
  · rintro ⟨fragment, member, rfl⟩
    exact ⟨fragment, member, beq_self_eq_true _⟩

/-- The guards report exactly the reason there is. -/
theorem veto_eq_some_iff
    {kind : DiagnosticKind}
    (sound : located.Sound m) :
    veto located = some kind ↔ Reason located kind := by
  have forward {kind : DiagnosticKind} (vetoed : veto located = some kind) :
      Reason located kind := by
    unfold veto at vetoed
    split at vetoed
    · cases vetoed
    · rename_i someRoots
      rw [List.isEmpty_iff] at someRoots
      split at vetoed
      · rename_i hasDefault
        cases vetoed
        exact ⟨someRoots, hasDefault⟩
      · rename_i noDefault
        rw [Bool.not_eq_true] at noDefault
        split at vetoed
        · rename_i several
          cases vetoed
          exact ⟨noDefault, several⟩
        · rename_i notSeveral
          have single : located.roots.length = 1 := by
            have pos := List.length_pos_iff.2 someRoots
            omega
          obtain ⟨root, rootsEq⟩ := List.length_eq_one_iff.1 single
          split at vetoed
          · rename_i unsupported
            cases vetoed
            refine ⟨noDefault, root, rootsEq, fun fragment member same => ?_⟩
            rw [(unsupported_eq_nil_iff sound rootsEq).2 ⟨fragment, member, same⟩]
              at unsupported
            exact absurd unsupported Bool.false_ne_true
          · cases vetoed
  refine ⟨forward, fun reason => ?_⟩
  cases vetoed : veto located with
  | some other => rw [(forward vetoed).unique reason]
  | none =>
    have someRoots := reason.roots_ne_nil
    unfold veto at vetoed
    rw [if_neg (by rwa [List.isEmpty_iff])] at vetoed
    cases kind with
    | defaultExportConflict =>
      rw [if_pos reason.2] at vetoed
      cases vetoed
    | multipleChains =>
      rw [if_neg (by rw [reason.1]; exact Bool.false_ne_true),
        if_pos reason.2] at vetoed
      cases vetoed
    | unsupportedShape =>
      obtain ⟨noDefault, root, rootsEq, none⟩ := reason
      have unsupported : located.unsupported ≠ [] := fun empty => by
        obtain ⟨fragment, member, same⟩ :=
          (unsupported_eq_nil_iff sound rootsEq).1 empty
        exact none fragment member same
      rw [if_neg (by rw [noDefault]; exact Bool.false_ne_true),
        if_neg (by rw [rootsEq]; exact Nat.lt_irrefl 1),
        if_pos (by simpa using unsupported)] at vetoed
      cases vetoed

/-- With roots and without a reason against it, the one fragment is chosen. -/
theorem chosen_of_noReason
    (sound : located.Sound m)
    (someRoots : located.roots ≠ [])
    (noReason : ∀ kind, ¬ Reason located kind) :
    ∃ fragment, chosen located = some fragment ∧
      located.fragments = [fragment] ∧ located.roots = [fragment.root] := by
  have noVeto : veto located = none :=
    Option.eq_none_iff_forall_ne_some.2 fun kind vetoed =>
      noReason kind ((veto_eq_some_iff sound).1 vetoed)
  have noDefault : located.exports.hasDefault = false :=
    Bool.not_eq_true _ ▸ fun hasDefault =>
      noReason .defaultExportConflict ⟨someRoots, hasDefault⟩
  have single : located.roots.length = 1 := by
    have pos := List.length_pos_iff.2 someRoots
    have few : ¬ 1 < located.roots.length := fun several =>
      noReason .multipleChains ⟨noDefault, several⟩
    omega
  obtain ⟨root, rootsEq⟩ := List.length_eq_one_iff.1 single
  have starts : ∃ fragment ∈ located.fragments, fragment.root = root := by
    by_contra none
    exact noReason .unsupportedShape ⟨noDefault, root, rootsEq,
      fun fragment member same => none ⟨fragment, member, same⟩⟩
  obtain ⟨fragment, member, -⟩ := starts
  obtain ⟨fragmentsEq, sameRoots⟩ := fragments_of_single sound single member
  refine ⟨fragment, ?_, fragmentsEq, sameRoots⟩
  rw [chosen, noVeto, if_neg (by simpa using someRoots), fragmentsEq]
  rfl

/-! ## The outcome -/

/-- A module without roots is left alone, and so is one with a reason against
its conversion, which is what its one warning is about, with the number of its
roots.  In every other case there is no warning and a change is recorded, and
what is converted is the one supported fragment, whose root is the only one in
the whole module. -/
theorem transform_outcome
    {host : Command.Host}
    {options : Options}
    {dialect : Dialect}
    {path source : String}
    {outcome : Outcome}
    (parsed : Module.parse? dialect source = some m)
    (transforms : transform host options path m = .ok outcome) :
    ∃ located, locate m options.registration = .ok located ∧
      located.Sound m ∧
      (located.roots = [] → outcome = { before := source, code := source }) ∧
      (∀ kind, Reason located kind → located.roots ≠ [] ∧
        (∀ other, Reason located other → other = kind) ∧
        outcome =
          { before := source
            code := source
            diagnostics := [.about kind path located.roots.length] }) ∧
      (located.roots ≠ [] → (∀ kind, ¬ Reason located kind) →
        outcome.diagnostics = [] ∧ outcome.changes ≠ [] ∧
        ∃ fragment, located.fragments = [fragment] ∧
          located.roots = [fragment.root] ∧
          converted host options path m located fragment =
            .ok (outcome.code, outcome.changes)) := by
  obtain ⟨located, found, settled⟩ := bind_eq_ok.1 transforms
  rw [mapError_eq_ok] at found
  have sound := locate_sound found
  have sourceEq : m.source = source := source_of_parse? parsed
  refine ⟨located, found, sound, ?_, ?_, ?_⟩
  · intro noRoots
    have noVeto : veto located = none := by rw [veto, noRoots]; rfl
    have noFragment : chosen located = none := by rw [chosen, noRoots]; rfl
    rw [noVeto] at settled
    simp only [noFragment] at settled
    rw [pure_eq_ok] at settled
    rw [← settled, sourceEq]
  · intro kind reason
    refine ⟨reason.roots_ne_nil, fun other otherReason =>
      otherReason.unique reason, ?_⟩
    rw [(veto_eq_some_iff sound).2 reason] at settled
    simp only at settled
    rw [pure_eq_ok] at settled
    rw [← settled, sourceEq]
  · intro someRoots noReason
    obtain ⟨fragment, passes, fragmentsEq, rootsEq⟩ :=
      chosen_of_noReason sound someRoots noReason
    rw [(veto_eq_none_of_chosen passes).1] at settled
    simp only [passes] at settled
    obtain ⟨⟨code, changes⟩, isConverted, made⟩ := bind_eq_ok.1 settled
    rw [pure_eq_ok] at made
    subst made
    refine ⟨rfl, ?_, fragment, fragmentsEq, rootsEq, isConverted⟩
    obtain ⟨_, _, -, changesEq⟩ := converted_eq_ok isConverted
    rw [changesEq]
    exact List.append_ne_nil_of_right_ne_nil _ (List.cons_ne_nil _ _)

/-- A root inside an argument counts like any other: the module is reported,
and nothing of it is converted. -/
theorem transform_outcome_nested :
    ∃ m located outcome, Module.parse? .javascript
        "storiesOf('A', module).add('x', () => storiesOf('B', module));\n" =
          some m ∧
      transform (fun _ => .error .noProgram) {} "a.js" m = .ok outcome ∧
      locate m ({} : Options).registration = .ok located ∧
      Reason located .multipleChains ∧
      outcome =
        { before :=
            "storiesOf('A', module).add('x', () => storiesOf('B', module));\n"
          code :=
            "storiesOf('A', module).add('x', () => storiesOf('B', module));\n"
          diagnostics := [.about .multipleChains "a.js" 2] } := by
  generalize sourceEq :
    "storiesOf('A', module).add('x', () => storiesOf('B', module));\n" = source
  have checked : (Module.parse? .javascript source).any (fun m =>
      (transform (fun _ => .error .noProgram) {} "a.js" m).toOption.any fun _ =>
        (locate m ({} : Options).registration).toOption.any fun located =>
          !located.exports.hasDefault && located.roots.length == 2) = true := by
    rw [← sourceEq]
    decide +kernel
  rw [Option.any_eq_true] at checked
  obtain ⟨m, parsed, checked⟩ := checked
  rw [any_toOption] at checked
  obtain ⟨outcome, transforms, checked⟩ := checked
  rw [any_toOption] at checked
  obtain ⟨located, found, checked⟩ := checked
  rw [Bool.and_eq_true, Bool.not_eq_true', beq_iff_eq] at checked
  obtain ⟨noDefault, two⟩ := checked
  have reason : Reason located .multipleChains :=
    ⟨noDefault, by rw [two]; decide⟩
  obtain ⟨same, foundSame, -, -, vetoed, -⟩ := transform_outcome parsed transforms
  rw [found, Except.ok.injEq] at foundSame
  subst foundSame
  refine ⟨m, located, outcome, parsed, transforms, found, reason, ?_⟩
  rw [← two]
  exact (vetoed _ reason).2.2

end Migration
end StoryMigration
