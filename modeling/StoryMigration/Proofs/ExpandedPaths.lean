import StoryMigration.Proofs.ListedFiles

/-!
# Files that arguments stand for

Arguments are files and directories.  A directory stands for the files below it
that some patterns lead to, and what is listed are the files of all arguments, in
the order of the arguments and sorted for each of them, every path once.  Two paths
may still lead to one file by way of the directory above a directory.
-/

namespace StoryMigration
namespace Search

variable {tree : FileTree} {given patterns excludes : List String}

/-! ## The files of an argument -/

theorem contains_iff
    {path : Path} :
    tree.contains path = true ↔
      tree.isDirectory path = true ∨ tree.isFile path = true := by
  unfold FileTree.contains FileTree.isDirectory FileTree.isFile
  cases tree.find? path with
  | none => simp
  | some item => cases item <;> simp

theorem isBlock_of_candidates
    {argument : String}
    {block : List String}
    (sound : tree.Sound)
    (computed : candidates tree patterns excludes argument = .ok block) :
    IsBlock tree patterns excludes argument block := by
  unfold candidates at computed
  simp only at computed
  split_ifs at computed with isDirectory isFile
  · exact isBlock_of_list sound isDirectory computed
  · obtain rfl := Except.ok.inj computed
    refine ⟨List.pairwise_singleton _ _, fun text => ?_⟩
    rw [List.mem_singleton]
    constructor
    · rintro rfl
      exact ⟨_, ⟨isFile, .inl rfl⟩, rfl⟩
    · rintro ⟨path, ⟨-, rfl | ⟨isDirectoryToo, -⟩⟩, rfl⟩
      · rfl
      · exact absurd isDirectoryToo isDirectory

/-- An argument stands for some files exactly if it is there and, where it is a
directory, all patterns are readable. -/
theorem exists_candidates_iff
    {argument : String} :
    (∃ block, candidates tree patterns excludes argument = .ok block) ↔
      tree.contains (Path.ofString argument) = true ∧
        (tree.isDirectory (Path.ofString argument) = true →
          ∀ pattern ∈ patterns, IsReadable pattern) := by
  unfold candidates
  simp only [contains_iff]
  split_ifs with isDirectory isFile
  · rw [exists_list_iff isDirectory]
    simp [isDirectory]
  · simp [isDirectory, isFile]
  · simp [isDirectory, isFile]

theorem candidates_of_missing
    {argument : String}
    (missing : tree.contains (Path.ofString argument) = false) :
    candidates tree patterns excludes argument =
      .error (.file (.noPath argument)) := by
  rw [← Bool.not_eq_true, contains_iff, not_or] at missing
  simp only [candidates, missing.1, missing.2, Bool.false_eq_true, if_false]

theorem expand_eq_ok_iff
    {listed : List String} :
    expand tree given patterns excludes = .ok listed ↔
      ∃ blocks, given.mapM (candidates tree patterns excludes) = .ok blocks ∧
        firstOnce blocks.flatten = listed := by
  rw [expand, Fallible.bind_eq_ok]
  simp only [Fallible.pure_eq_ok]

/-! ## The files of all arguments -/

section

variable (tree : FileTree) (given patterns excludes : List String)

/-- Some argument asks for a file. -/
def IsAskedFor (path : Path) : Prop :=
  ∃ argument ∈ given, AsksFor tree patterns excludes argument path

/-- The place that a text leads to as a path. -/
def placeOfText (text : String) : Except FileTree.Obstacle Place :=
  tree.placeOf (Path.ofString text)

/-- What is listed for some arguments. -/
structure IsExpansion (listed : List String) : Prop where
  /-- In the order of the arguments, and sorted for each of them. -/
  inOrder : ∃ blocks,
    List.Forall₂ (IsBlock tree patterns excludes) given blocks ∧
      listed = blocks.flatten.eraseDups
  complete : ∀ text, text ∈ listed ↔
    ∃ path, IsAskedFor tree given patterns excludes path ∧ path.toString = text
  areFiles : ∀ text ∈ listed, tree.isFile (Path.ofString text) = true
  once : listed.Nodup
  /-- No file is listed twice exactly if none is asked for under two paths. -/
  apart_iff : (listed.map (placeOfText tree)).Nodup ↔
    ∀ path other, IsAskedFor tree given patterns excludes path →
      IsAskedFor tree given patterns excludes other →
      tree.placeOf path = tree.placeOf other → path = other
  /-- Without the directory above, no file is listed twice. -/
  apart : (∀ argument ∈ given, ".." ∉ (Path.ofString argument).parts) →
    (∀ pattern ∈ patterns, ".." ∉ (Path.ofString pattern).parts) →
    (listed.map (placeOfText tree)).Nodup

end

theorem IsAskedFor.isFile
    {path : Path}
    (isAsked : IsAskedFor tree given patterns excludes path) :
    tree.isFile path = true := by
  obtain ⟨argument, -, asks⟩ := isAsked
  exact asks.1

/-- Arguments and patterns without the directory above ask for ways down. -/
theorem IsAskedFor.down
    {path : Path}
    (isAsked : IsAskedFor tree given patterns excludes path)
    (argumentsDown : ∀ argument ∈ given, ".." ∉ (Path.ofString argument).parts)
    (patternsDown : ∀ pattern ∈ patterns, ".." ∉ (Path.ofString pattern).parts) :
    ".." ∉ path.parts := by
  obtain ⟨argument, isArgument, -, rfl | ⟨-, names, rfl, -, pattern, isPattern, -,
    fits⟩⟩ := isAsked
  · exact argumentsDown argument isArgument
  · have namesDown : ".." ∉ names := by
      refine fits.down ?_
      rw [List.mem_cons, not_or]
      exact ⟨by decide, patternsDown pattern isPattern⟩
    rw [Path.below, List.mem_append, not_or]
    exact ⟨argumentsDown argument isArgument, namesDown⟩

theorem eq_of_placeOf_down
    {path other : Path}
    (isFile : tree.isFile path = true)
    (down : ".." ∉ path.parts)
    (otherDown : ".." ∉ other.parts)
    (same : tree.placeOf path = tree.placeOf other) :
    path = other := by
  obtain ⟨place, bytes, leads, -⟩ := FileTree.isFile_iff.1 isFile
  obtain ⟨isRelative, further⟩ := FileTree.placeOf_eq_ok_iff.1 leads
  obtain ⟨otherRelative, otherFurther⟩ :=
    FileTree.placeOf_eq_ok_iff.1 (same.symm.trans leads)
  have placeEq := FileTree.eq_append_of_resolve
    (fun name isName isUp => down (isUp ▸ isName)) further
  have otherEq := FileTree.eq_append_of_resolve
    (fun name isName isUp => otherDown (isUp ▸ isName)) otherFurther
  rw [Path.isAbsolute, bne_eq_false_iff_eq] at isRelative otherRelative
  obtain ⟨root, parts⟩ := path
  obtain ⟨otherRoot, otherParts⟩ := other
  rw [Path.mk.injEq]
  exact ⟨isRelative.trans otherRelative.symm, placeEq.symm.trans otherEq⟩

theorem IsAskedFor.ofString_toString
    {path : Path}
    (sound : tree.Sound)
    (isAsked : IsAskedFor tree given patterns excludes path) :
    Path.ofString path.toString = path :=
  sound.ofString_toString isAsked.isFile

/-- The listed texts are the paths of the files that are asked for. -/
theorem mem_firstOnce_candidates
    {blocks : List (List String)}
    {text : String}
    (sound : tree.Sound)
    (computed : given.mapM (candidates tree patterns excludes) = .ok blocks) :
    text ∈ firstOnce blocks.flatten ↔
      ∃ path, IsAskedFor tree given patterns excludes path ∧
        path.toString = text := by
  rw [firstOnce_eq_eraseDups, List.mem_eraseDups, List.mem_flatten]
  constructor
  · rintro ⟨block, isBlock, isText⟩
    obtain ⟨argument, isArgument, ofArgument⟩ :=
      Fallible.mem_of_mapM computed isBlock
    obtain ⟨path, asks, textEq⟩ :=
      ((isBlock_of_candidates sound ofArgument).complete text).1 isText
    exact ⟨path, ⟨argument, isArgument, asks⟩, textEq⟩
  · rintro ⟨path, ⟨argument, isArgument, asks⟩, textEq⟩
    obtain ⟨block, isBlock, ofArgument⟩ :=
      Fallible.exists_of_mapM computed isArgument
    exact ⟨block, isBlock,
      ((isBlock_of_candidates sound ofArgument).complete text).2
        ⟨path, asks, textEq⟩⟩

/-- Texts lead to different places exactly if the paths do that they are of. -/
theorem nodup_places_iff
    {listed : List String}
    (sound : tree.Sound)
    (once : listed.Nodup)
    (complete : ∀ text, text ∈ listed ↔
      ∃ path, IsAskedFor tree given patterns excludes path ∧ path.toString = text) :
    (listed.map (placeOfText tree)).Nodup ↔
      ∀ path other, IsAskedFor tree given patterns excludes path →
        IsAskedFor tree given patterns excludes other →
        tree.placeOf path = tree.placeOf other → path = other := by
  have placeOfText_toString {path : Path}
      (isAsked : IsAskedFor tree given patterns excludes path) :
      placeOfText tree path.toString = tree.placeOf path := by
    rw [placeOfText, isAsked.ofString_toString sound]
  rw [List.nodup_map_iff_inj_on once]
  constructor
  · intro injective path other isAsked otherAsked same
    have sameText := injective path.toString
      ((complete _).2 ⟨path, isAsked, rfl⟩) other.toString
      ((complete _).2 ⟨other, otherAsked, rfl⟩)
      (by rwa [placeOfText_toString isAsked, placeOfText_toString otherAsked])
    rw [← isAsked.ofString_toString sound, sameText,
      otherAsked.ofString_toString sound]
  · intro apart text isText other isOther same
    obtain ⟨path, isAsked, rfl⟩ := (complete text).1 isText
    obtain ⟨otherPath, otherAsked, rfl⟩ := (complete other).1 isOther
    rw [placeOfText_toString isAsked, placeOfText_toString otherAsked] at same
    rw [apart path otherPath isAsked otherAsked same]

theorem isExpansion_of_expand
    {listed : List String}
    (sound : tree.Sound)
    (expanded : expand tree given patterns excludes = .ok listed) :
    IsExpansion tree given patterns excludes listed := by
  obtain ⟨blocks, computed, rfl⟩ := expand_eq_ok_iff.1 expanded
  have complete (text : String) :=
    @mem_firstOnce_candidates tree given patterns excludes blocks text sound computed
  have once := nodup_firstOnce blocks.flatten
  have apart_iff := nodup_places_iff sound once complete
  constructor
  · exact ⟨blocks, (Fallible.forall₂_of_mapM computed).imp fun _ _ =>
      isBlock_of_candidates sound, firstOnce_eq_eraseDups _⟩
  · exact complete
  · intro text isText
    obtain ⟨path, isAsked, rfl⟩ := (complete text).1 isText
    rw [isAsked.ofString_toString sound]
    exact isAsked.isFile
  · exact once
  · exact apart_iff
  · intro argumentsDown patternsDown
    refine apart_iff.2 fun path other isAsked otherAsked => ?_
    exact eq_of_placeOf_down isAsked.isFile
      (isAsked.down argumentsDown patternsDown)
      (otherAsked.down argumentsDown patternsDown)

/-- If all patterns are readable, an argument that is not there is an error. -/
theorem exists_missing
    (readable : ∀ pattern ∈ patterns, IsReadable pattern)
    (someMissing : ∃ argument ∈ given,
      tree.contains (Path.ofString argument) = false) :
    ∃ missing ∈ given, tree.contains (Path.ofString missing) = false ∧
      expand tree given patterns excludes = .error (.file (.noPath missing)) := by
  have inTurn : ∃ missing ∈ given, tree.contains (Path.ofString missing) = false ∧
      given.mapM (candidates tree patterns excludes) =
        .error (.file (.noPath missing)) := by
    induction given with
    | nil =>
      obtain ⟨argument, isArgument, -⟩ := someMissing
      exact absurd isArgument List.not_mem_nil
    | cons first given givenHypothesis =>
      cases isThere : tree.contains (Path.ofString first) with
      | false =>
        refine ⟨first, List.mem_cons_self, isThere, ?_⟩
        rw [List.mapM_cons, candidates_of_missing isThere]
        rfl
      | true =>
        obtain ⟨argument, isArgument, isMissing⟩ := someMissing
        rcases List.mem_cons.1 isArgument with rfl | isLater
        · rw [isThere] at isMissing
          contradiction
        · obtain ⟨missing, isOne, noPath, failed⟩ :=
            givenHypothesis ⟨argument, isLater, isMissing⟩
          obtain ⟨block, computed⟩ :=
            (@exists_candidates_iff tree patterns excludes first).2
              ⟨isThere, fun _ => readable⟩
          refine ⟨missing, List.mem_cons_of_mem _ isOne, noPath, ?_⟩
          rw [List.mapM_cons, computed, failed]
          rfl
  obtain ⟨missing, isOne, noPath, failed⟩ := inTurn
  refine ⟨missing, isOne, noPath, ?_⟩
  rw [expand, failed]
  rfl

/-- Files and directories that are there are expanded to the files that they ask
for, if the patterns for directories are readable, and otherwise there is an
error. -/
theorem expand_lists_files
    (sound : tree.Sound) :
    ((∃ listed, expand tree given patterns excludes = .ok listed) ↔
      ∀ argument ∈ given, tree.contains (Path.ofString argument) = true ∧
        (tree.isDirectory (Path.ofString argument) = true →
          ∀ pattern ∈ patterns, IsReadable pattern)) ∧
      (∀ listed, expand tree given patterns excludes = .ok listed →
        IsExpansion tree given patterns excludes listed) ∧
      ((∀ pattern ∈ patterns, IsReadable pattern) →
        (∃ argument ∈ given, tree.contains (Path.ofString argument) = false) →
        ∃ missing ∈ given, tree.contains (Path.ofString missing) = false ∧
          expand tree given patterns excludes =
            .error (.file (.noPath missing))) := by
  refine ⟨?_, fun listed => isExpansion_of_expand sound, exists_missing⟩
  simp only [← @exists_candidates_iff tree patterns excludes]
  rw [← Fallible.exists_mapM_eq_ok_iff]
  simp only [expand_eq_ok_iff]
  constructor
  · rintro ⟨_, blocks, computed, -⟩
    exact ⟨blocks, computed⟩
  · rintro ⟨blocks, computed⟩
    exact ⟨_, blocks, computed, rfl⟩

set_option maxRecDepth 100000 in
/-- A directory and a file below it, in another spelling, and then an argument that
is not there. -/
theorem expand_lists_files_overlapping :
    ∃ tree : FileTree, tree.Sound ∧
      (∃ listed, expand tree ["src", "./src/b.js"] ["*.js", "b*"]
          standardExcludes = .ok listed ∧
        IsExpansion tree ["src", "./src/b.js"] ["*.js", "b*"]
          standardExcludes listed ∧
        "src/b.js" ∈ listed ∧ (listed.map (placeOfText tree)).Nodup) ∧
      expand tree ["src", "lib"] ["*.js"] standardExcludes =
        .error (.file (.noPath "lib")) := by
  let tree : FileTree := ((({} : FileTree).addFile ["src", "a.js"] []).addFile
    ["src", "b.js"] []).addFile ["src", "dist", "b.js"] []
  have sound : tree.Sound :=
    ((FileTree.sound_empty.addFile (by decide) (by decide +kernel) []).addFile
      (by decide) (by decide +kernel) []).addFile (by decide) (by decide +kernel) []
  refine ⟨tree, sound, ?_, ?_⟩
  · obtain ⟨listed, expanded⟩ := (@expand_lists_files tree ["src", "./src/b.js"]
      ["*.js", "b*"] standardExcludes sound).1.2 (by decide +kernel)
    have isExpansion := (expand_lists_files sound).2.1 listed expanded
    refine ⟨listed, expanded, isExpansion, (isExpansion.complete _).2 ?_,
      isExpansion.apart (by decide +kernel) (by decide +kernel)⟩
    exact ⟨Path.ofString "./src/b.js", ⟨"./src/b.js", by decide +kernel,
      by decide +kernel, .inl rfl⟩, by decide +kernel⟩
  · obtain ⟨missing, isOne, noPath, failed⟩ :=
      (@expand_lists_files tree ["src", "lib"] ["*.js"] standardExcludes
        sound).2.2 (by decide +kernel) ⟨"lib", by decide +kernel, by decide +kernel⟩
    have isLast : missing = "lib" := by
      rcases List.mem_cons.1 isOne with rfl | isLast
      · exact absurd noPath (by decide +kernel)
      · exact List.mem_singleton.1 isLast
    rw [failed, isLast]

set_option maxRecDepth 100000 in
/-- A file is listed twice if it is an argument itself and by way of a directory. -/
theorem expand_lists_twice :
    ∃ tree : FileTree, tree.Sound ∧ ∃ listed,
      expand tree ["a.js", "d/../a.js"] ["*.js"] standardExcludes = .ok listed ∧
      listed = ["a.js", "d/../a.js"] ∧
      placeOfText tree "a.js" = placeOfText tree "d/../a.js" ∧
      ¬ (listed.map (placeOfText tree)).Nodup := by
  let tree : FileTree := (({} : FileTree).addFile ["a.js"] []).addDirectory ["d"]
  have sound : tree.Sound :=
    (FileTree.sound_empty.addFile (by decide) (by decide +kernel) []).addDirectory
      (by decide +kernel)
  have computed : (expand tree ["a.js", "d/../a.js"] ["*.js"]
      standardExcludes).toOption.any (· == ["a.js", "d/../a.js"]) = true := by
    decide +kernel
  obtain ⟨listed, expanded, isList⟩ := Fallible.any_toOption.1 computed
  obtain rfl := beq_iff_eq.1 isList
  have same : placeOfText tree "a.js" = placeOfText tree "d/../a.js" := by
    have leads : (placeOfText tree "a.js").toOption.any (· == ["a.js"]) = true ∧
        (placeOfText tree "d/../a.js").toOption.any (· == ["a.js"]) = true := by
      decide +kernel
    obtain ⟨place, toPlace, isPlace⟩ := Fallible.any_toOption.1 leads.1
    obtain ⟨other, toOther, isOther⟩ := Fallible.any_toOption.1 leads.2
    rw [toPlace, toOther, beq_iff_eq.1 isPlace, beq_iff_eq.1 isOther]
  refine ⟨tree, sound, _, expanded, rfl, same, ?_⟩
  rw [List.map_cons, List.map_singleton, same, List.nodup_cons, not_and]
  exact fun apart => absurd (List.mem_singleton_self _) apart

end Search
end StoryMigration
