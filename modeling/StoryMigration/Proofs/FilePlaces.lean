import StoryMigration.Files.Tree

/-!
# Places that files are written to

A step on files that succeeds puts one file at the place its path leads to, and
a step that fails changes nothing.  Paths that led somewhere before lead to the
same place behind it.
-/

namespace StoryMigration
namespace FileTree

variable {tree after : FileTree}

/-! ## Trees that keep what another one holds -/

/-- What a tree holds is held by another one as well, a file perhaps with other
bytes. -/
def Keeps (tree after : FileTree) : Prop :=
  ∀ place item, tree.item? place = some item →
    after.item? place = some item ∨
      ∃ before now, item = .file before ∧
        after.item? place = some (.file now)

theorem item?_root (tree : FileTree) : tree.item? [] = some .directory := by
  rw [item?, if_pos rfl]

theorem ne_root
    {place : Place}
    (noDirectory : tree.item? place ≠ some .directory) :
    place ≠ [] := by
  rintro rfl
  exact noDirectory tree.item?_root

theorem item?_put_self
    {place : Place}
    {item : Item}
    (noDirectory : tree.item? place ≠ some .directory) :
    (tree.put place item).item? place = some item := by
  rw [item?_put tree place place item (ne_root noDirectory), if_pos rfl]

theorem item?_put_of_ne
    {place other : Place}
    {item : Item}
    (apart : other ≠ place) :
    (tree.put place item).item? other = tree.item? other := by
  by_cases isRoot : other = []
  · rw [isRoot, item?_root, item?_root]
  · rw [item?_put tree place other item isRoot, if_neg apart]

/-- A file takes the place of a file or of nothing. -/
theorem keeps_put
    {place : Place}
    {bytes : List UInt8}
    (noDirectory : tree.item? place ≠ some .directory) :
    Keeps tree (tree.put place (.file bytes)) := by
  intro other item held
  by_cases same : other = place
  · subst same
    cases item with
    | directory => exact absurd held noDirectory
    | file before => exact .inr ⟨before, bytes, rfl, item?_put_self noDirectory⟩
  · rw [item?_put_of_ne same]
    exact .inl held

theorem Keeps.directory
    {place : Place}
    (keeps : Keeps tree after)
    (held : tree.item? place = some .directory) :
    after.item? place = some .directory := by
  rcases keeps place .directory held with same | ⟨before, now, isFile, -⟩
  · exact same
  · contradiction

theorem Keeps.isSome
    {place : Place}
    (keeps : Keeps tree after)
    (held : (tree.item? place).isSome = true) :
    (after.item? place).isSome = true := by
  obtain ⟨item, held⟩ := Option.isSome_iff_exists.1 held
  rcases keeps place item held with same | ⟨before, now, -, changed⟩
  · rw [same]
    rfl
  · rw [changed]
    rfl

/-! ## The way to a place -/

/-- One name further on a way that leads somewhere. -/
theorem resolve_cons_eq_ok_iff
    {start place : Place}
    {name : String}
    {rest : List String} :
    tree.resolve start (name :: rest) = .ok place ↔
      tree.item? start = some .directory ∧
        (name = ".." ∧ start ≠ [] ∧
            tree.resolve start.dropLast rest = .ok place ∨
          name ≠ ".." ∧ (tree.item? (start ++ [name])).isSome = true ∧
            tree.resolve (start ++ [name]) rest = .ok place) := by
  rw [resolve]
  cases tree.item? start with
  | none => simp
  | some item =>
    cases item with
    | file bytes => simp
    | directory =>
      by_cases isUp : name = ".."
      · by_cases isRoot : start = [] <;> simp [isUp, isRoot]
      · by_cases isThere : (tree.item? (start ++ [name])).isSome = true <;>
          simp [isUp, isThere]

/-- A way that leads somewhere leads to the same place in a tree that keeps what
is on it. -/
theorem Keeps.resolve
    {start place : Place}
    {names : List String}
    (keeps : Keeps tree after)
    (leads : tree.resolve start names = .ok place) :
    after.resolve start names = .ok place := by
  induction names generalizing start with
  | nil => exact leads
  | cons name rest restHypothesis =>
    rw [resolve_cons_eq_ok_iff] at leads ⊢
    obtain ⟨isDirectory, up | down⟩ := leads
    · obtain ⟨isUp, below, further⟩ := up
      exact ⟨keeps.directory isDirectory,
        .inl ⟨isUp, below, restHypothesis further⟩⟩
    · obtain ⟨isDown, isThere, further⟩ := down
      exact ⟨keeps.directory isDirectory,
        .inr ⟨isDown, keeps.isSome isThere, restHypothesis further⟩⟩

/-- A way in two parts leads through a place in between. -/
theorem resolve_append_eq_ok_iff
    {start place : Place}
    {front back : List String} :
    tree.resolve start (front ++ back) = .ok place ↔
      ∃ between, tree.resolve start front = .ok between ∧
        tree.resolve between back = .ok place := by
  induction front generalizing start with
  | nil =>
    simp only [List.nil_append, FileTree.resolve, Except.ok.injEq,
      exists_eq_left']
  | cons name front frontHypothesis =>
    simp only [List.cons_append, resolve_cons_eq_ok_iff, frontHypothesis]
    constructor
    · rintro ⟨isDirectory,
        ⟨isUp, below, between, toBetween, further⟩ |
        ⟨isDown, isThere, between, toBetween, further⟩⟩
      · exact ⟨between, ⟨isDirectory, .inl ⟨isUp, below, toBetween⟩⟩, further⟩
      · exact ⟨between, ⟨isDirectory, .inr ⟨isDown, isThere, toBetween⟩⟩,
          further⟩
    · rintro ⟨between, ⟨isDirectory,
        ⟨isUp, below, toBetween⟩ | ⟨isDown, isThere, toBetween⟩⟩, further⟩
      · exact ⟨isDirectory, .inl ⟨isUp, below, between, toBetween, further⟩⟩
      · exact ⟨isDirectory,
          .inr ⟨isDown, isThere, between, toBetween, further⟩⟩

theorem placeOf_eq_ok_iff
    {path : Path}
    {place : Place} :
    tree.placeOf path = .ok place ↔
      path.isAbsolute = false ∧ tree.resolve [] path.parts = .ok place := by
  unfold placeOf
  cases path.isAbsolute <;> simp

theorem Keeps.placeOf
    {path : Path}
    {place : Place}
    (keeps : Keeps tree after)
    (leads : tree.placeOf path = .ok place) :
    after.placeOf path = .ok place := by
  rw [placeOf_eq_ok_iff] at leads ⊢
  exact ⟨leads.1, keeps.resolve leads.2⟩

theorem find?_eq_some_iff
    {path : Path}
    {item : Item} :
    tree.find? path = some item ↔
      ∃ place, tree.placeOf path = .ok place ∧ tree.item? place = some item := by
  unfold find?
  cases tree.placeOf path <;> simp

/-- The directory that a file's path leads through. -/
theorem exists_directory_of_file
    {path : Path}
    {place : Place}
    {bytes : List UInt8}
    (leads : tree.placeOf path = .ok place)
    (isFile : tree.item? place = some (.file bytes)) :
    ∃ directory, path.parts = path.parts.dropLast ++ [path.name] ∧
      tree.resolve [] path.parts.dropLast = .ok directory ∧
      tree.item? directory = some .directory ∧
      tree.resolve directory [path.name] = .ok place := by
  obtain ⟨-, leads⟩ := placeOf_eq_ok_iff.1 leads
  cases partsEq : path.parts.getLast? with
  | none =>
    rw [List.getLast?_eq_none_iff] at partsEq
    rw [partsEq, FileTree.resolve, Except.ok.injEq] at leads
    rw [← leads, item?_root, Option.some.injEq] at isFile
    exact absurd isFile (by simp)
  | some last =>
    have lastEq : path.name = last := by
      rw [Path.name, partsEq, Option.getD_some]
    obtain ⟨front, split⟩ := List.getLast?_eq_some_iff.1 partsEq
    rw [split, resolve_append_eq_ok_iff] at leads
    obtain ⟨directory, toDirectory, further⟩ := leads
    rw [split, lastEq, List.dropLast_concat]
    exact ⟨directory, rfl, toDirectory,
      (resolve_cons_eq_ok_iff.1 further).1, further⟩

/-- A path leads to what its directory holds under its name. -/
theorem placeOf_of_parent
    {path : Path}
    {directory : Place}
    (toDirectory : tree.placeOf path.parent = .ok directory)
    (isDirectory : tree.item? directory = some .directory)
    (someName : path.parts ≠ [])
    (isDown : path.name ≠ "..")
    (isThere : (tree.item? (directory ++ [path.name])).isSome = true) :
    tree.placeOf path = .ok (directory ++ [path.name]) := by
  obtain ⟨relative, toDirectory⟩ := placeOf_eq_ok_iff.1 toDirectory
  have split : path.parts = path.parts.dropLast ++ [path.name] := by
    rw [Path.name, List.getLast?_eq_some_getLast someName, Option.getD_some,
      List.dropLast_concat_getLast]
  rw [placeOf_eq_ok_iff, split, resolve_append_eq_ok_iff]
  exact ⟨relative, directory, toDirectory, resolve_cons_eq_ok_iff.2
    ⟨isDirectory, .inr ⟨isDown, isThere, rfl⟩⟩⟩

/-! ## Steps on files -/

/-- Directories that are there already are not made again. -/
theorem makeDirectory_of_resolve
    {names : List String}
    {place : Place}
    (leads : tree.resolve [] names = .ok place)
    (isDirectory : tree.item? place = some .directory)
    (made : tree.makeDirectory names.reverse = .ok after) :
    after = tree := by
  cases reversed : names.reverse with
  | nil =>
    rw [reversed, makeDirectory, Except.ok.injEq] at made
    exact made.symm
  | cons name up =>
    have namesEq : (name :: up).reverse = names := by
      rw [← reversed, List.reverse_reverse]
    rw [reversed, makeDirectory] at made
    simp only [namesEq, leads, isDirectory] at made
    split at made
    · contradiction
    · exact (Except.ok.inj made).symm

/-- A file is put at the place its path leads to, where no directory is. -/
theorem putFile_eq_ok
    {path : Path}
    {bytes : List UInt8}
    (stored : tree.putFile path bytes = .ok after) :
    ∃ place, after = tree.put place (.file bytes) ∧
      tree.item? place ≠ some .directory ∧
      after.placeOf path = .ok place ∧
      ∀ other, tree.placeOf path = .ok other → other = place := by
  unfold putFile at stored
  simp only at stored
  split at stored
  · contradiction
  · split at stored
    · rename_i place leads
      split at stored
      · rename_i before isFile
        have noDirectory : tree.item? place ≠ some .directory := by
          rw [isFile]
          simp
        rw [Except.ok.injEq] at stored
        rw [← stored]
        refine ⟨place, rfl, noDirectory, (keeps_put noDirectory).placeOf leads,
          fun other same => ?_⟩
        rw [leads, Except.ok.injEq] at same
        exact same.symm
      · contradiction
    · rename_i obstacle leadsNowhere
      split at stored
      · rename_i directory toDirectory
        split at stored
        · contradiction
        · rename_i inside
          rw [Bool.or_eq_true, decide_eq_true_eq, not_or] at inside
          split at stored
          · rename_i isDirectory
            rw [Except.ok.injEq] at stored
            rw [← stored]
            have someName : path.parts ≠ [] := by
              intro noName
              have isParent : path.parent = path := by
                rw [Path.parent, noName, List.dropLast_nil, ← noName]
              rw [isParent, leadsNowhere] at toDirectory
              contradiction
            have nothing : tree.item? (directory ++ [path.name]) ≠
                some .directory := by
              intro held
              have leads := placeOf_of_parent toDirectory isDirectory someName
                inside.1 (by rw [held]; rfl)
              rw [leadsNowhere] at leads
              contradiction
            have keeps : Keeps tree
                (tree.put (directory ++ [path.name]) (.file bytes)) :=
              keeps_put nothing
            have leads := placeOf_of_parent (keeps.placeOf toDirectory)
              (keeps.directory isDirectory) someName inside.1
              (by rw [item?_put_self nothing]; rfl)
            refine ⟨_, rfl, nothing, leads, fun other same => ?_⟩
            rw [leadsNowhere] at same
            contradiction
          · contradiction
      · contradiction
      · contradiction

/-- A text that replaces a file is either written there or changes nothing. -/
theorem write_cases
    {given : String}
    {place : Place}
    {bytes : List UInt8}
    (code : String)
    (leads : tree.placeOf (Path.ofString given) = .ok place)
    (isFile : tree.item? place = some (.file bytes)) :
    (∃ failure, tree.write given (Text.ofString code) = ⟨.error failure, tree⟩) ∨
      ∃ name, tree.write given (Text.ofString code) =
        ⟨.ok name, tree.put place (.file (Utf8.ofString code))⟩ := by
  obtain ⟨directory, -, toDirectory, isDirectory, -⟩ :=
    exists_directory_of_file leads isFile
  unfold write
  cases made : tree.makeDirectory
      (Path.ofString given).parent.parts.reverse with
  | error failure => exact .inl ⟨failure, by simp only [made]⟩
  | ok same =>
    obtain rfl := makeDirectory_of_resolve toDirectory isDirectory made
    simp only [made, Text.toString?_ofString]
    cases stored : same.putFile (Path.ofString given) (Utf8.ofString code) with
    | error failure => exact .inl ⟨failure, rfl⟩
    | ok after =>
      obtain ⟨target, rfl, -, -, unique⟩ := putFile_eq_ok stored
      rw [← unique place leads]
      exact .inr ⟨_, rfl⟩

/-! ## Backups -/

/-- The path of the backup of a file. -/
def backupPath (given : String) : Path :=
  (Path.ofString given).withExtension
    ((Path.ofString given).extension ++ backupExtension)

/-- A backup is put where its own path leads, or nothing changes. -/
theorem backup_cases
    (tree : FileTree)
    (given : String) :
    (tree.backup given).tree = tree ∨
      ∃ copy bytes,
        (tree.backup given).tree = tree.put copy (.file bytes) ∧
          tree.item? copy ≠ some .directory ∧
          (tree.backup given).tree.placeOf (backupPath given) = .ok copy := by
  unfold backup
  simp only
  split
  · exact .inl rfl
  · split
    · exact .inl rfl
    · exact .inl rfl
    · split
      · exact .inl rfl
      · split
        · rename_i after stored
          obtain ⟨copy, afterEq, noDirectory, leads, -⟩ := putFile_eq_ok stored
          exact .inr ⟨copy, _, afterEq, noDirectory, leads⟩
        · exact .inl rfl

/-- The name of a backup is longer than the name of its file. -/
theorem length_name_backupPath
    (given : String) :
    (Path.ofString given).name.toList.length + 4 ≤
      (backupPath given).name.toList.length := by
  unfold backupPath
  generalize Path.ofString given = path
  have nameEq : (path.withExtension (path.extension ++ backupExtension)).name =
      String.ofList (path.name.toList.take (path.name.toList.length -
        (Path.extensionOf path.name.toList).length)) ++
          (path.extension ++ backupExtension) := by
    rw [Path.withExtension, Path.name, List.getLast?_concat, Option.getD_some]
  rw [nameEq, String.toList_append, String.toList_append, String.toList_ofList,
    Path.extension, String.toList_ofList]
  simp only [List.length_append, List.length_take]
  have suffix : backupExtension.toList.length = 4 := rfl
  omega

/-- A file and its backup have different places. -/
theorem ne_of_backupPath
    {given : String}
    {place copy : Place}
    {bytes : List UInt8}
    (leads : tree.placeOf (Path.ofString given) = .ok place)
    (isFile : tree.item? place = some (.file bytes))
    (toCopy : tree.placeOf (backupPath given) = .ok copy) :
    place ≠ copy := by
  obtain ⟨directory, -, toDirectory, isDirectory, toPlace⟩ :=
    exists_directory_of_file leads isFile
  have longer := length_name_backupPath given
  have copyParts : (backupPath given).parts =
      (Path.ofString given).parts.dropLast ++ [(backupPath given).name] := by
    unfold backupPath Path.withExtension Path.name
    rw [List.getLast?_concat]
    rfl
  obtain ⟨-, toCopy⟩ := placeOf_eq_ok_iff.1 toCopy
  rw [copyParts, resolve_append_eq_ok_iff] at toCopy
  obtain ⟨same, toSame, toCopy⟩ := toCopy
  rw [toDirectory, Except.ok.injEq] at toSame
  subst toSame
  obtain ⟨-, ⟨isUp, -⟩ | ⟨-, -, copyEq⟩⟩ := resolve_cons_eq_ok_iff.1 toCopy
  · rw [isUp] at longer
    exact absurd longer (by simp)
  · rw [FileTree.resolve, Except.ok.injEq] at copyEq
    obtain ⟨-, ⟨-, -, placeEq⟩ | ⟨-, -, placeEq⟩⟩ :=
      resolve_cons_eq_ok_iff.1 toPlace
    · rw [FileTree.resolve, Except.ok.injEq] at placeEq
      rintro rfl
      have lengths := congrArg List.length (placeEq.trans copyEq.symm)
      rw [List.length_dropLast, List.length_append, List.length_singleton]
        at lengths
      omega
    · rw [FileTree.resolve, Except.ok.injEq] at placeEq
      rintro rfl
      have names := List.append_cancel_left (placeEq.trans copyEq.symm)
      rw [List.cons.injEq] at names
      rw [names.1] at longer
      omega

end FileTree
end StoryMigration
