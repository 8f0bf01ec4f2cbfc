import Mathlib.Order.BooleanAlgebra.Set
import StoryMigration.Proofs.FilePlaces

/-!
# Places that a path aims at

A path aims at a place in the directory it leads through, whether a file is
there or not.  Reading and writing the path depend on the directories of the
tree and on what is at that place, and a backup has a place of its own beside
it.
-/

namespace StoryMigration

namespace Path

variable {path : Path}

theorem parts_eq_of_ne_nil
    (someName : path.parts ≠ []) :
    path.parts = path.parts.dropLast ++ [path.name] := by
  rw [name, List.getLast?_eq_some_getLast someName, Option.getD_some,
    List.dropLast_concat_getLast]

theorem extensionOf_suffix
    (name : List Char) :
    extensionOf name <:+ name := by
  have split := List.takeWhile_append_dropWhile
    (p := fun c => c != '.') (l := name.reverse)
  unfold extensionOf
  simp only
  split
  · exact List.nil_suffix
  · rename_i proper
    rw [Bool.or_eq_true, not_or, decide_eq_true_eq, not_le] at proper
    cases restEq : name.reverse.dropWhile (· != '.') with
    | nil =>
      rw [restEq, List.append_nil] at split
      rw [split, List.length_reverse] at proper
      omega
    | cons c rest =>
      have isPoint : c = '.' := by
        have stops := List.head?_dropWhile_not
          (fun c : Char => c != '.') name.reverse
        rw [restEq] at stops
        simpa using stops
      rw [restEq, isPoint] at split
      refine ⟨rest.reverse, ?_⟩
      have mirrored := congrArg List.reverse split
      rw [List.reverse_reverse, List.reverse_append, List.reverse_cons,
        List.append_assoc, List.singleton_append] at mirrored
      exact mirrored

/-- A longer extension is put behind the name. -/
theorem name_withExtension
    (path : Path)
    (suffix : String) :
    (path.withExtension (path.extension ++ suffix)).name =
      path.name ++ suffix := by
  have whole : path.name.toList.take (path.name.toList.length -
      (extensionOf path.name.toList).length) ++
        extensionOf path.name.toList = path.name.toList := by
    obtain ⟨stem, split⟩ := extensionOf_suffix path.name.toList
    have lengths := congrArg List.length split
    rw [List.length_append] at lengths
    have stemEq : path.name.toList.take (path.name.toList.length -
        (extensionOf path.name.toList).length) = stem := by
      rw [← lengths, Nat.add_sub_cancel]
      conv_lhs => rw [← split]
      rw [List.take_left]
    rw [stemEq, split]
  rw [withExtension, name, List.getLast?_concat, Option.getD_some, extension]
  refine String.ext ?_
  simp only [String.toList_append, String.toList_ofList, ← List.append_assoc,
    whole]

end Path

namespace FileTree

variable {tree S T : FileTree} {path : Path} {place : Place}

/-! ## Trees with the same directories -/

/-- Two trees have the same directories, and the same items at some places. -/
def Alike
    (places : Set Place)
    (S T : FileTree) : Prop :=
  (∀ place, S.item? place = some .directory ↔
    T.item? place = some .directory) ∧
  ∀ place ∈ places, S.item? place = T.item? place

namespace Alike

variable {places fewer : Set Place} {U : FileTree}

theorem refl
    (places : Set Place)
    (T : FileTree) :
    Alike places T T :=
  ⟨fun _ => .rfl, fun _ _ => rfl⟩

theorem symm
    (alike : Alike places S T) :
    Alike places T S :=
  ⟨fun place => (alike.1 place).symm,
    fun place isPlace => (alike.2 place isPlace).symm⟩

theorem trans
    (first : Alike places S T)
    (second : Alike places T U) :
    Alike places S U :=
  ⟨fun place => (first.1 place).trans (second.1 place),
    fun place isPlace => (first.2 place isPlace).trans
      (second.2 place isPlace)⟩

theorem mono
    (alike : Alike places S T)
    (subset : fewer ⊆ places) :
    Alike fewer S T :=
  ⟨alike.1, fun place isPlace => alike.2 place (subset isPlace)⟩

theorem directories
    (alike : Alike places S T) :
    Alike ∅ S T :=
  alike.mono (Set.empty_subset _)

end Alike

/-- A file that takes no directory's place leaves the directories and every
other place alone. -/
theorem alike_put
    {bytes : List UInt8}
    (noDirectory : tree.item? place ≠ some .directory) :
    Alike {place}ᶜ tree (tree.put place (.file bytes)) := by
  refine ⟨fun other => ?_, fun other apart => (item?_put_of_ne apart).symm⟩
  by_cases same : other = place
  · rw [same, item?_put_self noDirectory]
    simpa using noDirectory
  · rw [item?_put_of_ne same]

/-- A way that leads to a directory leads there in every tree with the same
directories. -/
theorem Alike.resolve
    {start directory : Place}
    {names : List String}
    (alike : Alike ∅ S T)
    (leads : S.resolve start names = .ok directory)
    (isDirectory : S.item? directory = some .directory) :
    T.resolve start names = .ok directory := by
  induction names generalizing start with
  | nil => exact leads
  | cons name rest restHypothesis =>
    rw [resolve_cons_eq_ok_iff] at leads ⊢
    obtain ⟨startIs, ⟨isUp, below, further⟩ | ⟨isDown, -, further⟩⟩ := leads
    · exact ⟨(alike.1 start).1 startIs,
        .inl ⟨isUp, below, restHypothesis further⟩⟩
    · have between : S.item? (start ++ [name]) = some .directory := by
        cases rest with
        | nil =>
          rw [FileTree.resolve, Except.ok.injEq] at further
          rw [further]
          exact isDirectory
        | cons next rest => exact (resolve_cons_eq_ok_iff.1 further).1
      refine ⟨(alike.1 start).1 startIs,
        .inr ⟨isDown, ?_, restHypothesis further⟩⟩
      rw [(alike.1 _).1 between, Option.isSome_some]

/-! ## The place a path aims at -/

/-- The place at which the file of a path is or would be: it is in the directory
that the path leads through. -/
def target?
    (tree : FileTree)
    (path : Path) : Option Place :=
  match tree.placeOf path.parent with
  | .ok directory =>
    if path.parts ≠ [] ∧ path.name ≠ ".." ∧
        tree.item? directory = some .directory then
      some (directory ++ [path.name])
    else none
  | .error _ => none

theorem target?_eq_some_iff :
    tree.target? path = some place ↔
      path.parts ≠ [] ∧ path.name ≠ ".." ∧
        ∃ directory, tree.placeOf path.parent = .ok directory ∧
          tree.item? directory = some .directory ∧
          place = directory ++ [path.name] := by
  unfold target?
  cases tree.placeOf path.parent with
  | error obstacle => simp
  | ok directory => simp [and_assoc, eq_comm]

theorem Alike.placeOf
    {directory : Place}
    (alike : Alike ∅ S T)
    (leads : S.placeOf path = .ok directory)
    (isDirectory : S.item? directory = some .directory) :
    T.placeOf path = .ok directory := by
  rw [placeOf_eq_ok_iff] at leads ⊢
  exact ⟨leads.1, alike.resolve leads.2 isDirectory⟩

/-- What a path aims at depends on the directories only. -/
theorem Alike.target?
    (alike : Alike ∅ S T)
    (aims : S.target? path = some place) :
    T.target? path = some place := by
  rw [target?_eq_some_iff] at aims ⊢
  obtain ⟨someName, isDown, directory, toDirectory, isDirectory, placeEq⟩ :=
    aims
  exact ⟨someName, isDown, directory, alike.placeOf toDirectory isDirectory,
    (alike.1 directory).1 isDirectory, placeEq⟩

/-- Whether all places above a place are directories. -/
def IsBelowDirectories
    (tree : FileTree)
    (place : Place) : Prop :=
  ∀ n < place.length, tree.item? (place.take n) = some .directory

theorem isBelowDirectories_root
    (tree : FileTree) :
    IsBelowDirectories tree [] :=
  fun n isShort => absurd isShort n.not_lt_zero

/-- A way from a place below directories leads to another such place. -/
theorem isBelowDirectories_of_resolve
    {start : Place}
    {names : List String}
    (below : IsBelowDirectories tree start)
    (leads : tree.resolve start names = .ok place) :
    IsBelowDirectories tree place := by
  induction names generalizing start with
  | nil =>
    rw [FileTree.resolve, Except.ok.injEq] at leads
    rwa [leads] at below
  | cons name rest restHypothesis =>
    obtain ⟨isDirectory, ⟨-, -, further⟩ | ⟨-, -, further⟩⟩ :=
      resolve_cons_eq_ok_iff.1 leads
    · refine restHypothesis (fun n isShort => ?_) further
      rw [List.length_dropLast] at isShort
      rw [List.dropLast_eq_take, List.take_take, Nat.min_eq_left (by omega)]
      exact below n (by omega)
    · refine restHypothesis (fun n isShort => ?_) further
      rw [List.length_append, List.length_singleton] at isShort
      rw [List.take_append_of_le_length (by omega)]
      by_cases isAll : n = start.length
      · rw [isAll, List.take_length]
        exact isDirectory
      · exact below n (by omega)

/-- A path that leads to a file aims at its place. -/
theorem exists_target?_of_file
    {bytes : List UInt8}
    (found : tree.find? path = some (.file bytes)) :
    ∃ place, tree.target? path = some place := by
  obtain ⟨place, leads, isFile⟩ := find?_eq_some_iff.1 found
  obtain ⟨directory, split, toDirectory, isDirectory, toPlace⟩ :=
    exists_directory_of_file leads isFile
  obtain ⟨-, ⟨isUp, proper, placeEq⟩ | ⟨isDown, -, placeEq⟩⟩ :=
    resolve_cons_eq_ok_iff.1 toPlace
  · have below : IsBelowDirectories tree directory :=
      isBelowDirectories_of_resolve (isBelowDirectories_root tree) toDirectory
    have above := below (directory.length - 1)
      (by have := List.length_pos_iff.2 proper; omega)
    rw [← List.dropLast_eq_take, Except.ok.inj placeEq, isFile] at above
    cases above
  · refine ⟨place, target?_eq_some_iff.2 ⟨?_, isDown, directory, ?_,
      isDirectory, (Except.ok.inj placeEq).symm⟩⟩
    · rw [split]
      simp
    · exact placeOf_eq_ok_iff.2
        ⟨(placeOf_eq_ok_iff.1 leads).1, toDirectory⟩

/-- A path leads to no other place than the one it aims at. -/
theorem eq_of_placeOf
    {other : Place}
    (aims : tree.target? path = some place)
    (leads : tree.placeOf path = .ok other) :
    other = place ∧ (tree.item? place).isSome = true := by
  obtain ⟨someName, isDown, directory, toDirectory, -, rfl⟩ :=
    target?_eq_some_iff.1 aims
  obtain ⟨-, leads⟩ := placeOf_eq_ok_iff.1 leads
  rw [Path.parts_eq_of_ne_nil someName, resolve_append_eq_ok_iff] at leads
  obtain ⟨between, toBetween, further⟩ := leads
  obtain rfl : between = directory :=
    Except.ok.inj (toBetween.symm.trans (placeOf_eq_ok_iff.1 toDirectory).2)
  obtain ⟨-, ⟨isUp, -⟩ | ⟨-, isThere, same⟩⟩ := resolve_cons_eq_ok_iff.1 further
  · exact absurd isUp isDown
  · exact ⟨(Except.ok.inj same).symm, isThere⟩

/-- A path leads to what is at the place it aims at. -/
theorem find?_of_target?
    (aims : tree.target? path = some place) :
    tree.find? path = tree.item? place := by
  cases held : tree.item? place with
  | some item =>
    obtain ⟨someName, isDown, directory, toDirectory, isDirectory, rfl⟩ :=
      target?_eq_some_iff.1 aims
    refine find?_eq_some_iff.2 ⟨_, ?_, held⟩
    refine placeOf_of_parent toDirectory isDirectory someName isDown ?_
    rw [held, Option.isSome_some]
  | none =>
    by_contra found
    obtain ⟨item, found⟩ := Option.ne_none_iff_exists'.1 found
    obtain ⟨other, leads, -⟩ := find?_eq_some_iff.1 found
    have isThere := (eq_of_placeOf aims leads).2
    rw [held] at isThere
    cases isThere

/-- What a path leads to depends on the directories and on what is at the place
it aims at. -/
theorem Alike.find?
    {places : Set Place}
    (alike : Alike places S T)
    (inPlaces : ∀ place, S.target? path = some place → place ∈ places) :
    S.find? path = T.find? path := by
  have directories := alike.directories
  cases aims : S.target? path with
  | some place =>
    rw [find?_of_target? aims, find?_of_target? (directories.target? aims)]
    exact alike.2 place (inPlaces place aims)
  | none =>
    refine Option.ext fun item => ?_
    have leads
        {S T : FileTree}
        (directories : Alike ∅ S T)
        (aims : S.target? path = none)
        (found : S.find? path = some item) :
        T.find? path = some item := by
      cases item with
      | file bytes =>
        obtain ⟨place, aimed⟩ := exists_target?_of_file found
        rw [aims] at aimed
        cases aimed
      | directory =>
        obtain ⟨place, leads, isDirectory⟩ := find?_eq_some_iff.1 found
        exact find?_eq_some_iff.2 ⟨place,
          directories.placeOf leads isDirectory,
          (directories.1 place).1 isDirectory⟩
    have aimsToo : T.target? path = none := by
      refine Option.eq_none_iff_forall_ne_some.2 fun place aimed => ?_
      rw [directories.symm.target? aimed] at aims
      cases aims
    exact ⟨leads directories aims, leads directories.symm aimsToo⟩

/-! ## Writing to the place a path aims at -/

/-- The directory of a path that aims at a place need not be made. -/
theorem makeDirectory_of_target?
    (aims : tree.target? path = some place) :
    tree.makeDirectory path.parent.parts.reverse =
      if path.parent.name.contains '\x00' then .error .nullInDirectory
      else .ok tree := by
  obtain ⟨-, -, directory, toDirectory, isDirectory, -⟩ :=
    target?_eq_some_iff.1 aims
  obtain ⟨-, toDirectory⟩ := placeOf_eq_ok_iff.1 toDirectory
  cases namesEq : path.parent.parts.reverse with
  | nil =>
    rw [List.reverse_eq_nil_iff] at namesEq
    rw [makeDirectory, Path.name, namesEq]
    simp
  | cons name up =>
    have nameEq : path.parent.name = name := by
      rw [Path.name, ← List.head?_reverse, namesEq]
      rfl
    have partsEq : (name :: up).reverse = path.parent.parts := by
      rw [← namesEq, List.reverse_reverse]
    rw [makeDirectory, nameEq, partsEq]
    simp only [toDirectory, isDirectory]

/-- A file is put at the place its path aims at, unless a directory is there or
the path cannot be a file's. -/
theorem putFile_of_target?
    (aims : tree.target? path = some place)
    (bytes : List UInt8) :
    tree.putFile path bytes =
      if path.parts.any fun name => name.contains '\x00' then
        .error .nullInFile
      else if tree.item? place = some .directory then
        .error (.isDirectory path.toString)
      else .ok (tree.put place (.file bytes)) := by
  have unique
      {other : Place}
      (leads : tree.placeOf path = .ok other) :=
    eq_of_placeOf aims leads
  obtain ⟨someName, isDown, directory, toDirectory, isDirectory, rfl⟩ :=
    target?_eq_some_iff.1 aims
  have isRelative : path.isAbsolute = false :=
    (placeOf_eq_ok_iff.1 toDirectory).1
  unfold putFile
  simp only
  refine if_congr .rfl rfl ?_
  cases held : tree.item? (directory ++ [path.name]) with
  | none =>
    cases leads : tree.placeOf path with
    | ok other =>
      have isThere := (unique leads).2
      rw [held] at isThere
      cases isThere
    | error obstacle =>
      simp [toDirectory, isDown, isRelative, isDirectory]
  | some item =>
    have leads := placeOf_of_parent toDirectory isDirectory someName isDown
      (by rw [held, Option.isSome_some])
    cases item <;> simp [leads, held]

/-- The place of the backup of what is at a place. -/
def copyPlace (place : Place) : Place :=
  place.dropLast ++ [place.getLast?.getD "" ++ backupExtension]

/-- A backup's path aims at a place beside the one of its file. -/
theorem target?_backupPath
    {given : String}
    (aims : tree.target? (Path.ofString given) = some place) :
    tree.target? (backupPath given) = some (copyPlace place) := by
  obtain ⟨someName, isDown, directory, toDirectory, isDirectory, rfl⟩ :=
    target?_eq_some_iff.1 aims
  have nameEq : (backupPath given).name =
      (Path.ofString given).name ++ backupExtension :=
    Path.name_withExtension _ _
  have parentEq : (backupPath given).parent = (Path.ofString given).parent := by
    rw [backupPath, Path.withExtension, Path.parent, Path.parent,
      List.dropLast_concat]
  refine target?_eq_some_iff.2 ⟨?_, ?_, directory, ?_, isDirectory, ?_⟩
  · rw [backupPath, Path.withExtension]
    exact List.concat_ne_nil _ _
  · intro isUp
    have longer := length_name_backupPath given
    rw [isUp] at longer
    exact absurd longer (by simp)
  · rw [parentEq]
    exact toDirectory
  · rw [copyPlace, List.dropLast_concat, List.getLast?_concat,
      Option.getD_some, nameEq]

theorem copyPlace_ne
    (proper : place ≠ []) :
    copyPlace place ≠ place := by
  intro same
  have lasts := congrArg List.getLast? same
  rw [copyPlace, List.getLast?_concat, List.getLast?_eq_some_getLast proper,
    Option.getD_some, Option.some.injEq] at lasts
  have lengths := congrArg (fun name => name.toList.length) lasts
  simp [backupExtension] at lengths

/-- Different places have different backups. -/
theorem copyPlace_injective
    {other : Place}
    (proper : place ≠ [])
    (otherProper : other ≠ [])
    (same : copyPlace place = copyPlace other) :
    place = other := by
  rw [copyPlace, copyPlace, List.getLast?_eq_some_getLast proper,
    List.getLast?_eq_some_getLast otherProper, Option.getD_some,
    Option.getD_some] at same
  obtain ⟨fronts, lasts⟩ := List.append_inj' same rfl
  rw [List.cons.injEq] at lasts
  have names := (String.append_left_inj _).1 lasts.1
  rw [← List.dropLast_concat_getLast proper, fronts, names,
    List.dropLast_concat_getLast otherProper]

end FileTree
end StoryMigration
