import StoryMigration.Batch.Workers
import StoryMigration.Proofs.FileTargets
import StoryMigration.Proofs.MigratedFile

/-!
# Steps that are local to a file

What is done with a path reads and changes nothing but the place that the path
aims at and the place of its backup.  In two trees with the same directories
and the same items at these places it has the same result, and it changes the
places alike.
-/

namespace StoryMigration
namespace Batch

open FileTree Fallible

/-! ## Local steps -/

/-- A step on trees with the directories of one tree depends on the items at
some places only, and changes no others. -/
structure IsLocal
    {α : Type}
    (tree : FileTree)
    (places : Set Place)
    (step : FileTree → α × FileTree) : Prop where
  result : ∀ S T, Alike ∅ tree S → Alike places S T →
    (step S).1 = (step T).1
  inside : ∀ S T, Alike ∅ tree S → Alike places S T →
    Alike places (step S).2 (step T).2
  outside : ∀ T, Alike ∅ tree T → Alike placesᶜ T (step T).2

/-- Two steps have the same result and put the same file, if any, at the same
place. -/
inductive SameChange
    {α : Type}
    (places : Set Place)
    (S T : FileTree) :
    FileTree.Step α → FileTree.Step α → Prop
  | nothing
      (result : Except FileError α) :
      SameChange places S T ⟨result, S⟩ ⟨result, T⟩
  | file
      {place : Place}
      (result : Except FileError α)
      (bytes : List UInt8)
      (isPlace : place ∈ places)
      (noDirectory : S.item? place ≠ some .directory) :
      SameChange places S T
        ⟨result, S.put place (.file bytes)⟩ ⟨result, T.put place (.file bytes)⟩

variable {α β : Type} {tree S T : FileTree} {places : Set Place}

theorem SameChange.result_eq
    {first second : FileTree.Step α}
    (same : SameChange places S T first second) :
    first.result = second.result := by
  cases same <;> rfl

theorem SameChange.alike
    {first second : FileTree.Step α}
    (same : SameChange places S T first second)
    (alike : Alike places S T) :
    Alike places first.tree second.tree := by
  cases same with
  | nothing result => exact alike
  | @file place result bytes isPlace noDirectory =>
    have noDirectoryToo : T.item? place ≠ some .directory := fun isDirectory =>
      noDirectory ((alike.1 place).2 isDirectory)
    refine ⟨((alike_put noDirectory).directories.symm.trans
      (alike.directories.trans (alike_put noDirectoryToo).directories)).1,
      fun other isOther => ?_⟩
    by_cases isSame : other = place
    · rw [isSame, item?_put_self noDirectory, item?_put_self noDirectoryToo]
    · rw [item?_put_of_ne isSame, item?_put_of_ne isSame]
      exact alike.2 other isOther

theorem SameChange.unchanged
    {first second : FileTree.Step α}
    (same : SameChange places S T first second) :
    Alike placesᶜ S first.tree := by
  cases same with
  | nothing result => exact .refl _ _
  | file result bytes isPlace noDirectory =>
    refine (alike_put noDirectory).mono (Set.compl_subset_compl.2 ?_)
    exact Set.singleton_subset_iff.2 isPlace

/-- A step is local if it makes the same change to trees that are alike,
whether a fault strikes it or not. -/
theorem isLocal_attempt
    {step : FileTree → FileTree.Step α}
    (fault : Option String)
    (same : ∀ S T, Alike ∅ tree S → Alike places S T →
      SameChange places S T (step S) (step T)) :
    IsLocal tree places fun T => attempt fault T (step T) := by
  cases fault with
  | some reason =>
    exact ⟨fun S T _ _ => rfl, fun S T _ alike => alike,
      fun T _ => .refl _ _⟩
  | none =>
    have trees (T : FileTree) :
        (attempt none T (step T)).2 = (step T).tree := by
      unfold attempt
      cases (step T).result <;> rfl
    refine ⟨fun S T isBase alike => ?_, fun S T isBase alike => ?_,
      fun T isBase => ?_⟩
    · unfold attempt
      rw [(same S T isBase alike).result_eq]
      cases (step T).result <;> rfl
    · rw [trees, trees]
      exact (same S T isBase alike).alike alike
    · rw [trees]
      exact (same T T isBase (.refl _ _)).unchanged

/-- A result that trees which are alike agree on is a local step. -/
theorem isLocal_result
    {result : FileTree → α}
    (agree : ∀ S T, Alike ∅ tree S → Alike places S T → result S = result T) :
    IsLocal tree places fun T => (result T, T) :=
  ⟨agree, fun _ _ _ alike => alike, fun _ _ => .refl _ _⟩

/-- A local step is local whatever is made of its result. -/
theorem IsLocal.map
    {step : FileTree → α × FileTree}
    (isLocal : IsLocal tree places step)
    (change : α → β) :
    IsLocal tree places fun T => (change (step T).1, (step T).2) :=
  ⟨fun S T isBase alike =>
      congrArg change (isLocal.result S T isBase alike),
    isLocal.inside, isLocal.outside⟩

/-- A local step and one that follows on its result are local together. -/
theorem IsLocal.bind
    {step : FileTree → α × FileTree}
    {next : α → FileTree → β × FileTree}
    (isLocal : IsLocal tree places step)
    (possible : α → Prop)
    (isPossible : ∀ T, Alike ∅ tree T → possible (step T).1)
    (isLocalNext : ∀ value, possible value → IsLocal tree places (next value)) :
    IsLocal tree places fun T => next (step T).1 (step T).2 := by
  have keeps (T : FileTree) (isBase : Alike ∅ tree T) :
      Alike ∅ tree (step T).2 :=
    isBase.trans (isLocal.outside T isBase).directories
  refine ⟨fun S T isBase alike => ?_, fun S T isBase alike => ?_,
    fun T isBase => ?_⟩
  · rw [← isLocal.result S T isBase alike]
    exact (isLocalNext _ (isPossible S isBase)).result _ _ (keeps S isBase)
      (isLocal.inside S T isBase alike)
  · rw [← isLocal.result S T isBase alike]
    exact (isLocalNext _ (isPossible S isBase)).inside _ _ (keeps S isBase)
      (isLocal.inside S T isBase alike)
  · exact (isLocal.outside T isBase).trans
      ((isLocalNext _ (isPossible T isBase)).outside _ (keeps T isBase))

/-! ## The places of a path -/

/-- The places of a path: the one it aims at and the one of its backup. -/
def footprint
    (tree : FileTree)
    (path : String) : Set Place :=
  {place | ∃ target, tree.target? (Path.ofString path) = some target ∧
    (place = target ∨ place = copyPlace target)}

variable {path : String} {target : Place}

theorem target_mem_footprint
    (aims : tree.target? (Path.ofString path) = some target) :
    target ∈ footprint tree path :=
  ⟨target, aims, .inl rfl⟩

theorem copy_mem_footprint
    (aims : tree.target? (Path.ofString path) = some target) :
    copyPlace target ∈ footprint tree path :=
  ⟨target, aims, .inr rfl⟩

/-- A file is put at the same place in trees that are alike, or in neither. -/
theorem putFile_of_alike
    {path : Path}
    (aims : S.target? path = some target)
    (alike : Alike places S T)
    (isPlace : target ∈ places)
    (bytes : List UInt8) :
    (∃ failure, S.putFile path bytes = .error failure ∧
      T.putFile path bytes = .error failure) ∨
    S.item? target ≠ some .directory ∧
      S.putFile path bytes = .ok (S.put target (.file bytes)) ∧
      T.putFile path bytes = .ok (T.put target (.file bytes)) := by
  rw [putFile_of_target? aims bytes,
    putFile_of_target? (alike.directories.target? aims) bytes,
    ← alike.2 target isPlace]
  split
  · exact .inl ⟨_, rfl, rfl⟩
  · split
    · exact .inl ⟨_, rfl, rfl⟩
    · rename_i noDirectory
      exact .inr ⟨noDirectory, rfl, rfl⟩

theorem sameChange_write
    {given : String}
    (aims : S.target? (Path.ofString given) = some target)
    (alike : Alike places S T)
    (isPlace : target ∈ places)
    (text : Text) :
    SameChange places S T (S.write given text) (T.write given text) := by
  have made := makeDirectory_of_target? aims
  have madeToo := makeDirectory_of_target? (alike.directories.target? aims)
  unfold FileTree.write
  simp only [made, madeToo]
  by_cases isBroken :
      (Path.ofString given).parent.name.contains '\x00' = true
  · simp only [if_pos isBroken]
    exact .nothing _
  · simp only [if_neg isBroken]
    have stored := putFile_of_alike aims alike isPlace
    cases text.toString? with
    | none =>
      rcases stored [] with
        ⟨failure, failed, failedToo⟩ | ⟨noDirectory, stored, storedToo⟩
      · simp only [failed, failedToo]
        exact .nothing _
      · simp only [stored, storedToo]
        exact .file _ _ isPlace noDirectory
    | some source =>
      rcases stored (Utf8.ofString source) with
        ⟨failure, failed, failedToo⟩ | ⟨noDirectory, stored, storedToo⟩
      · simp only [failed, failedToo]
        exact .nothing _
      · simp only [stored, storedToo]
        exact .file _ _ isPlace noDirectory

theorem sameChange_backup
    {given : String}
    (aims : S.target? (Path.ofString given) = some target)
    (alike : Alike places S T)
    (isPlace : target ∈ places)
    (copyIsPlace : copyPlace target ∈ places) :
    SameChange places S T (S.backup given) (T.backup given) := by
  have found : S.find? (Path.ofString given) =
      T.find? (Path.ofString given) := by
    rw [find?_of_target? aims,
      find?_of_target? (alike.directories.target? aims),
      alike.2 target isPlace]
  have aimsCopy := target?_backupPath aims
  unfold backupPath at aimsCopy
  unfold FileTree.backup
  simp only [← found]
  split
  · exact .nothing _
  · split
    · exact .nothing _
    · exact .nothing _
    · split
      · exact .nothing _
      · rename_i text _
        rcases putFile_of_alike aimsCopy alike copyIsPlace
            (Utf8.ofString text) with
          ⟨failure, failed, failedToo⟩ | ⟨noDirectory, stored, storedToo⟩
        · simp only [failed, failedToo]
          exact .nothing _
        · simp only [stored, storedToo]
          exact .file _ _ copyIsPlace noDirectory

/-- Paths lead to the same in trees that are alike at their places. -/
theorem read_of_alike
    (alike : Alike (footprint S path) S T) :
    S.read path = T.read path := by
  have found : S.find? (Path.ofString path) =
      T.find? (Path.ofString path) :=
    alike.find? fun place aims => target_mem_footprint aims
  unfold FileTree.read
  rw [found]

/-- The places of a path depend on the directories only. -/
theorem footprint_of_alike
    (alike : Alike ∅ S T)
    (path : String) :
    footprint S path = footprint T path := by
  ext place
  constructor
  · rintro ⟨target, aims, isPlace⟩
    exact ⟨target, alike.target? aims, isPlace⟩
  · rintro ⟨target, aims, isPlace⟩
    exact ⟨target, alike.symm.target? aims, isPlace⟩

end Batch
end StoryMigration
