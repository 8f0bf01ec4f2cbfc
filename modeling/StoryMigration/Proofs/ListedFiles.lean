import Mathlib.Data.List.Nodup
import Mathlib.Data.String.Basic
import StoryMigration.Proofs.PathPatterns

/-!
# Files below a directory

Of a directory the files are listed to which one of some patterns leads on a way
without excluded names.  Their paths stand in order and each of them once.  In a
tree as a file system has it the text of such a path is read as the path again.
-/

namespace StoryMigration

/-! ## Paths and their texts -/

namespace Path

theorem splitAt_eq_splitOn
    (separator : Char)
    (chars : List Char) :
    splitAt separator chars = chars.splitOn separator := by
  induction chars with
  | nil => rfl
  | cons c rest restHypothesis =>
    rw [splitAt, restHypothesis, List.splitOn_eq_splitOnP, List.splitOn_eq_splitOnP,
      List.splitOnP_cons_eq_if_modifyHead]
    cases pieces : rest.splitOnP (· == separator) with
    | nil => exact absurd pieces (List.splitOnP_ne_nil _ _)
    | cons piece pieces => split_ifs <;> rfl

theorem not_mem_of_mem_splitAt
    {separator : Char}
    {chars : List Char} :
    ∀ piece ∈ splitAt separator chars, separator ∉ piece := by
  induction chars with
  | nil => exact List.forall_mem_singleton.2 List.not_mem_nil
  | cons c rest restHypothesis =>
    rw [splitAt]
    cases piecesEq : splitAt separator rest with
    | nil =>
      rw [splitAt_eq_splitOn] at piecesEq
      exact absurd piecesEq (List.splitOn_ne_nil _ _)
    | cons first pieces =>
      rw [piecesEq, List.forall_mem_cons] at restHypothesis
      by_cases isSeparator : c = separator
      · simpa [isSeparator] using restHypothesis
      · simpa [isSeparator, Ne.symm isSeparator] using restHypothesis

/-- The parts of a path are names. -/
theorem isName_of_mem_ofString
    {text name : String}
    (isPart : name ∈ (ofString text).parts) :
    IsName name := by
  obtain ⟨piece, isPiece, rfl⟩ := List.mem_map.1 isPart
  rw [List.mem_filter] at isPiece
  rw [IsName, String.toList_ofList]
  exact ⟨isPiece.2, not_mem_of_mem_splitAt piece isPiece.1⟩

/-- The text of a relative path is read as that path. -/
theorem ofString_toString
    {path : Path}
    (isRelative : path.root = "")
    (areNames : ∀ name ∈ path.parts, IsName name) :
    ofString path.toString = path := by
  obtain ⟨root, parts⟩ := path
  obtain rfl : root = "" := isRelative
  cases parts with
  | nil => decide
  | cons name names =>
    have textEq : (Path.mk "" (name :: names)).toString.toList =
        ['/'].intercalate ((name :: names).map String.toList) := by
      have joined : (Path.mk "" (name :: names)).toString =
          "/".intercalate (name :: names) := by
        simp [Path.toString]
      rw [joined, String.toList_intercalate]
      rfl
    have noSlash : ((Path.mk "" (name :: names)).toString.toList.takeWhile
        (· == '/')).length = 0 := by
      have isFirst := areNames name List.mem_cons_self
      cases charsEq : name.toList with
      | nil =>
        rw [IsName, charsEq] at isFirst
        exact absurd isFirst.1 (by decide)
      | cons c chars =>
        have isOther : c ≠ '/' := by
          rintro rfl
          exact isFirst.2 (charsEq ▸ List.mem_cons_self)
        rw [textEq, List.map_cons, charsEq]
        cases names <;> simp [isOther]
    have pieces : splitAt '/' (Path.mk "" (name :: names)).toString.toList =
        (name :: names).map String.toList := by
      rw [textEq, splitAt_eq_splitOn]
      refine List.splitOn_intercalate '/' ?_ (by simp)
      rw [List.forall_mem_map]
      exact fun name isPart => (areNames name isPart).2
    have allParts : ((name :: names).map String.toList).filter isPart =
        (name :: names).map String.toList := by
      rw [List.filter_eq_self, List.forall_mem_map]
      exact fun name isPart => (areNames name isPart).1
    rw [ofString, noSlash, pieces, allParts, List.map_map]
    have same : String.ofList ∘ String.toList = id :=
      funext fun _ => String.ofList_toList
    rw [same, List.map_id]
    rfl

end Path

namespace Search

/-! ## Texts that are listed once -/

theorem firstOnce_eq_eraseDups
    (texts : List String) :
    firstOnce texts = texts.eraseDups := by
  have loop (done : List String) :
      (texts.foldl (fun done text =>
        if done.contains text then done else text :: done) done).reverse =
        List.eraseDupsBy.loop (· == ·) texts done := by
    induction texts generalizing done with
    | nil => rfl
    | cons text texts textsHypothesis =>
      rw [List.foldl_cons, textsHypothesis, List.eraseDupsBy.loop,
        List.contains_eq_any_beq]
      cases done.any (text == ·) <;> rfl
  exact loop []

theorem nodup_firstOnce
    (texts : List String) :
    (firstOnce texts).Nodup := by
  rw [firstOnce, List.nodup_reverse]
  refine List.foldlRecOn texts _ List.nodup_nil ?_
  intro done nodup text _
  split_ifs with isDone
  · exact nodup
  · rw [List.contains_iff_mem] at isDone
    exact List.nodup_cons.2 ⟨isDone, nodup⟩

theorem eraseReps_cons_cons
    (first second : String)
    (texts : List String) :
    (first :: second :: texts).eraseReps =
      if first = second then (first :: texts).eraseReps
      else first :: (second :: texts).eraseReps := by
  have loop (last : String) (texts done : List String) :
      List.eraseRepsBy.loop (· == ·) last texts done =
        done.reverse ++ List.eraseRepsBy.loop (· == ·) last texts [] := by
    induction texts generalizing last done with
    | nil => simp [List.eraseRepsBy.loop]
    | cons text texts textsHypothesis =>
      simp only [List.eraseRepsBy.loop]
      cases last == text with
      | true => exact textsHypothesis last done
      | false =>
        simp only
        rw [textsHypothesis text (last :: done), textsHypothesis text [last]]
        simp
  simp only [List.eraseReps, List.eraseRepsBy, List.eraseRepsBy.loop]
  by_cases same : first = second
  · simp [same]
  · rw [beq_false_of_ne same, if_neg same]
    exact loop second texts [first]

theorem mem_eraseReps
    {text first : String}
    {texts : List String} :
    text ∈ (first :: texts).eraseReps ↔ text ∈ first :: texts := by
  induction texts generalizing first with
  | nil => rfl
  | cons second texts textsHypothesis =>
    rw [eraseReps_cons_cons]
    split_ifs with same
    · rw [textsHypothesis, ← same]
      simp
    · rw [List.mem_cons, textsHypothesis, ← List.mem_cons]

theorem pairwise_lt_eraseReps
    {texts : List String}
    (ascending : texts.Pairwise (· ≤ ·)) :
    texts.eraseReps.Pairwise (· < ·) := by
  cases texts with
  | nil => exact .nil
  | cons first texts =>
    induction texts generalizing first with
    | nil => exact List.pairwise_singleton _ _
    | cons second texts textsHypothesis =>
      have later := List.pairwise_cons.1 (List.pairwise_cons.1 ascending).2
      have least := (List.pairwise_cons.1 ascending).1
      rw [eraseReps_cons_cons]
      split_ifs with same
      · exact textsHypothesis first (same ▸ (List.pairwise_cons.1 ascending).2)
      · refine List.pairwise_cons.2
          ⟨fun text isLater => ?_, textsHypothesis second (List.pairwise_cons.2 later)⟩
        have isLess : first < second :=
          lt_of_le_of_ne (least second List.mem_cons_self) same
        rcases List.mem_cons.1 (mem_eraseReps.1 isLater) with rfl | isFurther
        · exact isLess
        · exact isLess.trans_le (later.1 text isFurther)

theorem mem_sortedOnce
    {text : String}
    {texts : List String} :
    text ∈ sortedOnce texts ↔ text ∈ texts := by
  have same : text ∈ texts.mergeSort (fun a b => decide (a ≤ b)) ↔ text ∈ texts :=
    List.mem_mergeSort
  rw [sortedOnce, ← same]
  cases texts.mergeSort fun a b => decide (a ≤ b) with
  | nil => rfl
  | cons => exact mem_eraseReps

theorem pairwise_lt_sortedOnce
    (texts : List String) :
    (sortedOnce texts).Pairwise (· < ·) := by
  refine pairwise_lt_eraseReps ?_
  have sorted := @List.pairwise_mergeSort String (fun a b => decide (a ≤ b))
    (by simpa using fun a b c => le_trans) (by simpa using le_total) texts
  simpa using sorted

end Search

/-! ## Sound trees -/

namespace FileTree

variable {tree : FileTree} {path : Path}

theorem sound_empty : Sound {} :=
  ⟨fun _ isEntry => absurd isEntry List.not_mem_nil,
    fun _ isEntry => absurd isEntry List.not_mem_nil⟩

theorem Sound.put
    {place : Place}
    {item : Item}
    (sound : tree.Sound)
    (someName : place ≠ [])
    (proper : ∀ name ∈ place, Path.IsName name ∧ name ≠ "..") :
    (tree.put place item).Sound := by
  constructor
  · intro entry isEntry
    rcases List.mem_cons.1 isEntry with rfl | isOther
    · rw [item?_put tree place place item someName, if_pos rfl]
    · obtain ⟨isOther, apart⟩ := List.mem_filter.1 isOther
      rw [item?_put_of_ne (bne_iff_ne.1 apart)]
      exact sound.found entry isOther
  · intro entry isEntry
    rcases List.mem_cons.1 isEntry with rfl | isOther
    · exact proper
    · exact sound.proper entry (List.mem_filter.1 isOther).1

/-- Directories that are made on the way to a place keep a tree sound. -/
theorem Sound.addDirectory
    {place : Place}
    (sound : tree.Sound)
    (proper : ∀ name ∈ place, Path.IsName name ∧ name ≠ "..") :
    (tree.addDirectory place).Sound := by
  refine List.foldlRecOn _ _ sound ?_
  intro tree sound way isWay
  obtain ⟨n, isShort, rfl⟩ := List.mem_map.1 isWay
  rw [List.mem_range] at isShort
  split_ifs
  · exact sound
  · refine sound.put ?_ fun name isName => proper name (List.mem_of_mem_take isName)
    exact List.ne_nil_of_length_pos (by rw [List.length_take]; omega)

/-- A file that is put into a sound tree leaves it sound. -/
theorem Sound.addFile
    {place : Place}
    (sound : tree.Sound)
    (someName : place ≠ [])
    (proper : ∀ name ∈ place, Path.IsName name ∧ name ≠ "..")
    (bytes : List UInt8) :
    (tree.addFile place bytes).Sound :=
  (sound.addDirectory fun name isName =>
    proper name ((List.dropLast_sublist place).subset isName)).put someName proper

theorem Sound.isName_of_resolve
    {start place : Place}
    {names : List String}
    (sound : tree.Sound)
    (leads : tree.resolve start names = .ok place) :
    ∀ name ∈ names, Path.IsName name := by
  induction names generalizing start with
  | nil => exact fun _ isName => absurd isName List.not_mem_nil
  | cons name names namesHypothesis =>
    rw [List.forall_mem_cons]
    obtain ⟨-, ⟨rfl, -, further⟩ | ⟨-, isThere, further⟩⟩ :=
      resolve_cons_eq_ok_iff.1 leads
    · exact ⟨by decide, namesHypothesis further⟩
    · obtain ⟨item, holds⟩ := Option.isSome_iff_exists.1 isThere
      have isEntry := mem_entries_of_item? (by simp) holds
      exact ⟨(sound.proper _ isEntry name (by simp)).1, namesHypothesis further⟩

/-- The text of a file's path is read as that path. -/
theorem Sound.ofString_toString
    (sound : tree.Sound)
    (isFile : tree.isFile path = true) :
    Path.ofString path.toString = path := by
  obtain ⟨place, bytes, leads, -⟩ := isFile_iff.1 isFile
  obtain ⟨isRelative, leads⟩ := placeOf_eq_ok_iff.1 leads
  rw [Path.isAbsolute, bne_eq_false_iff_eq] at isRelative
  exact Path.ofString_toString isRelative (sound.isName_of_resolve leads)

end FileTree

/-! ## Files that are asked for -/

namespace Search

/-- A pattern stands for the names on the way from a directory to a file.  It
stands for no file if it ends with a slash. -/
def PatternFits
    (pattern : String)
    (names : List String) : Prop :=
  pattern.toList.getLast? ≠ some '/' ∧
    Fits ("**" :: (Path.ofString pattern).parts) names

section

variable (tree : FileTree) (patterns excludes : List String)

/-- An argument asks for a file: it is the file's path, or a directory from which
one of the patterns leads to the file on a way without excluded names. -/
def AsksFor
    (argument : String)
    (path : Path) : Prop :=
  tree.isFile path = true ∧
    (path = Path.ofString argument ∨
      tree.isDirectory (Path.ofString argument) = true ∧
        ∃ names, path = (Path.ofString argument).below names ∧
          (∀ name ∈ names, name ∉ excludes) ∧
          ∃ pattern ∈ patterns, PatternFits pattern names)

/-- The paths of the files that an argument asks for, in order. -/
structure IsBlock
    (argument : String)
    (block : List String) : Prop where
  ascending : block.Pairwise (· < ·)
  complete : ∀ text, text ∈ block ↔
    ∃ path, AsksFor tree patterns excludes argument path ∧ path.toString = text

end

variable {tree : FileTree} {patterns excludes : List String}

theorem patternFits_iff
    {pattern : String}
    {names : List String} :
    PatternFits pattern names ↔
      "" ∉ "**" :: partsOf pattern ∧ Fits ("**" :: partsOf pattern) names := by
  have noEmpty : "" ∉ "**" :: (Path.ofString pattern).parts := by
    rw [List.mem_cons, not_or]
    exact ⟨by decide, fun isPart =>
      absurd (Path.isName_of_mem_ofString isPart).1 (by decide)⟩
  unfold PatternFits partsOf
  split_ifs with isSlash
  · exact iff_of_false (fun fits => fits.1 isSlash) fun fits => fits.1 (by simp)
  · rw [List.append_nil]
    exact and_congr_left fun _ => iff_of_true isSlash noEmpty

/-- The files that one pattern finds below a directory. -/
theorem mem_filesFor
    {path : Path}
    {pattern text : String}
    {texts : List String}
    (sound : tree.Sound)
    (isDirectory : tree.isDirectory path = true)
    (found : filesFor tree path true excludes pattern = .ok texts) :
    text ∈ texts ↔
      ∃ names, tree.isFile (path.below names) = true ∧
        (∀ name ∈ names, name ∉ excludes) ∧ PatternFits pattern names ∧
        (path.below names).toString = text := by
  rw [filesFor, Fallible.bind_eq_ok] at found
  obtain ⟨steps, asked, found⟩ := found
  obtain ⟨-, later, computed, rfl⟩ := stepsOf_eq_ok_iff.1 asked
  rw [Fallible.pure_eq_ok] at found
  have ask : List.Forall₂ (fun part step => Step.ofPart part = .ok step)
      ("**" :: partsOf pattern) (.below :: later) :=
    .cons rfl (Fallible.forall₂_of_mapM computed)
  have drop (names : List String) :
      (path.below names).parts.drop path.parts.length = names := List.drop_left
  rw [← found, List.mem_map]
  constructor
  · rintro ⟨base, isFound, rfl⟩
    rw [List.mem_filter, Bool.and_eq_true, Bool.not_eq_true',
      List.any_eq_false] at isFound
    obtain ⟨isFound, isFile, allowed⟩ := isFound
    obtain ⟨noEmpty, names, rfl, fits⟩ := fits_of_mem_run sound ask
      (.inr (FileTree.isFile_eq_false_of_isDirectory isDirectory)) isFound isFile
    rw [drop] at allowed
    refine ⟨names, isFile, fun name isName => ?_,
      patternFits_iff.2 ⟨noEmpty, fits⟩, rfl⟩
    rw [← List.contains_iff_mem]
    exact allowed name isName
  · rintro ⟨names, isFile, allowed, fits, rfl⟩
    obtain ⟨noEmpty, fits⟩ := patternFits_iff.1 fits
    refine ⟨path.below names, List.mem_filter.2
      ⟨mem_run_of_fits ask noEmpty fits isFile, ?_⟩, rfl⟩
    rw [drop, isFile, Bool.true_and, Bool.not_eq_true', List.any_eq_false]
    intro name isName
    rw [List.contains_iff_mem]
    exact allowed name isName

theorem exists_filesFor_iff
    {path : Path}
    {pattern : String} :
    (∃ texts, filesFor tree path true excludes pattern = .ok texts) ↔
      IsReadable pattern := by
  simp only [← exists_stepsOf_iff, filesFor, Fallible.bind_eq_ok,
    Fallible.pure_eq_ok]
  constructor
  · rintro ⟨_, steps, asked, -⟩
    exact ⟨steps, asked⟩
  · rintro ⟨steps, asked⟩
    exact ⟨_, steps, asked, rfl⟩

theorem list_eq_ok_iff
    {directory : String}
    {texts : List String}
    (isDirectory : tree.isDirectory (Path.ofString directory) = true) :
    list tree directory patterns true excludes = .ok texts ↔
      ∃ found, patterns.mapM
          (filesFor tree (Path.ofString directory) true excludes) = .ok found ∧
        sortedOnce found.flatten = texts := by
  have isThere : tree.contains (Path.ofString directory) = true := by
    obtain ⟨place, leads, holds⟩ := FileTree.isDirectory_iff.1 isDirectory
    rw [FileTree.contains, FileTree.find?_eq_some_iff.2 ⟨place, leads, holds⟩,
      Option.isSome_some]
  simp only [list, isThere, isDirectory, Bool.not_true, Bool.false_eq_true, if_false,
    Fallible.bind_eq_ok, Fallible.pure_eq_ok]

/-- Files below a directory are listed exactly if all patterns are readable. -/
theorem exists_list_iff
    {directory : String}
    (isDirectory : tree.isDirectory (Path.ofString directory) = true) :
    (∃ texts, list tree directory patterns true excludes = .ok texts) ↔
      ∀ pattern ∈ patterns, IsReadable pattern := by
  have allRead : (∃ found, patterns.mapM
      (filesFor tree (Path.ofString directory) true excludes) = .ok found) ↔
      ∀ pattern ∈ patterns, IsReadable pattern := by
    rw [Fallible.exists_mapM_eq_ok_iff]
    exact forall₂_congr fun pattern _ => exists_filesFor_iff
  rw [← allRead]
  simp only [list_eq_ok_iff isDirectory]
  constructor
  · rintro ⟨_, found, computed, -⟩
    exact ⟨found, computed⟩
  · rintro ⟨found, computed⟩
    exact ⟨_, found, computed, rfl⟩

/-- What is listed of a directory are the files below it that are asked for. -/
theorem isBlock_of_list
    {directory : String}
    {texts : List String}
    (sound : tree.Sound)
    (isDirectory : tree.isDirectory (Path.ofString directory) = true)
    (listed : list tree directory patterns true excludes = .ok texts) :
    IsBlock tree patterns excludes directory texts := by
  obtain ⟨found, computed, rfl⟩ := (list_eq_ok_iff isDirectory).1 listed
  refine ⟨pairwise_lt_sortedOnce _, fun text => ?_⟩
  rw [mem_sortedOnce, List.mem_flatten]
  constructor
  · rintro ⟨texts, isFound, isText⟩
    obtain ⟨pattern, isPattern, ofPattern⟩ := Fallible.mem_of_mapM computed isFound
    obtain ⟨names, isFile, allowed, fits, rfl⟩ :=
      (mem_filesFor sound isDirectory ofPattern).1 isText
    exact ⟨_, ⟨isFile, .inr
      ⟨isDirectory, names, rfl, allowed, pattern, isPattern, fits⟩⟩, rfl⟩
  · rintro ⟨path, ⟨isFile, isDirectoryToo | ⟨-, names, rfl, allowed, pattern,
      isPattern, fits⟩⟩, rfl⟩
    · rw [isDirectoryToo,
        FileTree.isFile_eq_false_of_isDirectory isDirectory] at isFile
      contradiction
    · obtain ⟨texts, isFound, ofPattern⟩ := Fallible.exists_of_mapM computed isPattern
      exact ⟨texts, isFound, (mem_filesFor sound isDirectory ofPattern).2
        ⟨names, isFile, allowed, fits, rfl⟩⟩

end Search
end StoryMigration
