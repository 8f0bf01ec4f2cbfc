import StoryMigration.Migration.Convert
import StoryMigration.Proofs.Fragment
import StoryMigration.Proofs.NodeCount

/-!
# Which modules are converted

A module with one root has at most one fragment.  Without a default export it
is converted if that fragment is supported, and reported and left alone if it
is not.
-/

namespace StoryMigration
namespace Migration

open Syntax Chain Fallible

variable {m : Module} {options : Options} {located : Located}
  {fragment : Fragment}

theorem veto_eq_none_of_chosen
    (passes : chosen located = some fragment) :
    veto located = none ∧ fragment ∈ located.fragments := by
  unfold chosen at passes
  split at passes
  · contradiction
  · rename_i allowed
    rw [Bool.or_eq_true, not_or] at allowed
    exact ⟨Option.not_isSome_iff_eq_none.1 allowed.2, List.mem_of_head? passes⟩

/-- There are no more fragments than roots. -/
theorem length_allFragments_le
    {localName : String}
    {fragments : List Fragment}
    (found : allFragments m localName = .ok fragments) :
    fragments.length ≤ (m.tree.preorder.filter (isRoot m localName)).length := by
  obtain ⟨grounded, firsts⟩ := allFragments_sound found
  have each : ∀ first ∈ fragments.map (·.first),
      0 < countIn (isRoot m localName) [first] := by
    intro first member
    obtain ⟨fragment, isFragment, rfl⟩ := List.mem_map.1 member
    have fragmentGrounded := (grounded fragment isFragment).1
    exact countIn_pos.2
      ⟨fragment.root, fragmentGrounded.rootBelow, fragmentGrounded.isRoot⟩
  have least := length_le_countIn each
  have most := countIn_le_of_sublist (isRoot m localName)
    (firsts.trans m.tree.parts_sublist)
  rw [List.length_map] at least
  rw [← List.countP_eq_length_filter, countP_preorder]
  omega

/-- Of a module with one root all fragments are the one of that root. -/
theorem allFragments_eq_of_mem
    {fragments : List Fragment}
    (sound : located.Sound m)
    (single : located.roots.length = 1)
    (found : allFragments m located.localName = .ok fragments)
    (member : fragment ∈ fragments) :
    fragments = [fragment] ∧ located.roots = [fragment.root] := by
  have few := length_allFragments_le found
  rw [← sound.roots, single] at few
  have fragmentsEq : fragments = [fragment] := by
    obtain ⟨only, onlyEq⟩ := List.length_eq_one_iff.1
      (Nat.le_antisymm few (List.length_pos_of_mem member))
    rw [onlyEq, List.mem_singleton] at member
    rw [onlyEq, member]
  refine ⟨fragmentsEq, ?_⟩
  obtain ⟨grounded, sublist⟩ := (allFragments_sound found).1 fragment member
  obtain ⟨root, rootEq⟩ := List.length_eq_one_iff.1 single
  have isRoot : fragment.root ∈ located.roots := by
    rw [sound.roots, List.mem_filter]
    refine ⟨?_, grounded.isRoot⟩
    exact Node.mem_preorder_trans
      (Module.statement_mem_preorder (sublist.subset List.mem_cons_self))
      grounded.rootBelow
  rw [rootEq, List.mem_singleton] at isRoot
  rw [rootEq, isRoot]

/-- A module with one root and without a default export is converted if the
fragment is supported, and reported if it is not. -/
theorem veto_of_single
    {fragments : List Fragment}
    (sound : located.Sound m)
    (single : located.roots.length = 1)
    (noDefault : located.exports.hasDefault = false)
    (found : allFragments m located.localName = .ok fragments)
    (member : fragment ∈ fragments) :
    (isSupported m fragment = true → veto located = none ∧
        chosen located = some fragment) ∧
      (isSupported m fragment = false →
        veto located = some .unsupportedShape) := by
  obtain ⟨fragmentsEq, rootsEq⟩ :=
    allFragments_eq_of_mem sound single found member
  have someRoots : located.roots ≠ [] := by
    rw [rootsEq]
    exact List.cons_ne_nil _ _
  obtain ⟨all, allFound, locatedEq⟩ := sound.fragments someRoots
  rw [found, Except.ok.injEq] at allFound
  rw [← allFound, fragmentsEq] at locatedEq
  constructor
  · intro supported
    rw [List.filter_cons_of_pos supported, List.filter_nil] at locatedEq
    have vetoEq : veto located = none := by
      unfold veto Located.unsupported
      rw [noDefault, rootsEq, locatedEq]
      simp
    refine ⟨vetoEq, ?_⟩
    unfold chosen
    rw [vetoEq, rootsEq, locatedEq]
    rfl
  · intro unsupported
    rw [List.filter_cons_of_neg (by rw [unsupported]; exact Bool.false_ne_true),
      List.filter_nil] at locatedEq
    unfold veto Located.unsupported
    rw [noDefault, rootsEq, locatedEq]
    simp

/-- The outcome for a module that is left alone because of the shape of its
chain. -/
def reported (path : String) (m : Module) : Outcome :=
  { before := m.source
    code := m.source
    diagnostics := [.about .unsupportedShape path 1] }

theorem transform_of_veto
    {host : Command.Host}
    {path : String}
    (single : located.roots.length = 1)
    (found : locate m options.registration = .ok located)
    (vetoed : veto located = some .unsupportedShape) :
    transform host options path m = .ok (reported path m) := by
  unfold transform
  rw [bind_eq_ok]
  refine ⟨located, mapError_eq_ok.2 found, ?_⟩
  rw [vetoed, single]
  rfl

end Migration
end StoryMigration
