import StoryMigration.Files.Search
import StoryMigration.Proofs.Fallible
import StoryMigration.Proofs.FileTargets

/-!
# What path patterns lead to

A pattern for one name stands for the names that can be cut into pieces, one for
each of its parts.  A pattern for a path stands for ways of names: two stars for
any directories, two points for the directory above and every other part for one
name.  A search along the steps of a pattern finds a file below a directory exactly
if the pattern stands for the names on the way to it.
-/

namespace StoryMigration

theorem Fallible.forall₂_of_mapM
    {error α β : Type}
    {compute : α → Except error β}
    {items : List α}
    {results : List β}
    (computed : items.mapM compute = .ok results) :
    List.Forall₂ (fun item result => compute item = .ok result) items results := by
  induction items generalizing results with
  | nil =>
    rw [List.mapM_nil, pure_eq_ok] at computed
    exact computed ▸ .nil
  | cons item items itemsHypothesis =>
    simp only [List.mapM_cons, bind_eq_ok, pure_eq_ok] at computed
    obtain ⟨result, ofItem, others, ofItems, rfl⟩ := computed
    exact .cons ofItem (itemsHypothesis ofItems)

/-! ## Names that fit -/

namespace Pattern

/-- The characters that a part of a pattern stands for: any with a star, and
otherwise one that fits. -/
def Part.Covers
    (part : Part)
    (piece : List Char) : Prop :=
  part = .many ∨ ∃ c, piece = [c] ∧ part.fits c = true

theorem anyTail_eq_true_iff
    {α : Type}
    {test : List α → Bool}
    {items : List α} :
    anyTail test items = true ↔
      ∃ front back, front ++ back = items ∧ test back = true := by
  induction items with
  | nil => simp [anyTail]
  | cons item items itemsHypothesis =>
    rw [anyTail, Bool.or_eq_true, itemsHypothesis]
    constructor
    · rintro (passes | ⟨front, back, rfl, passes⟩)
      · exact ⟨[], item :: items, rfl, passes⟩
      · exact ⟨item :: front, back, rfl, passes⟩
    · rintro ⟨front, back, whole, passes⟩
      cases front with
      | nil => exact .inl (whole ▸ passes)
      | cons first front =>
        rw [List.cons_append, List.cons.injEq] at whole
        exact .inr ⟨front, back, whole.2, passes⟩

theorem matchParts_cons_of_ne
    {part : Part}
    {parts : List Part}
    {name : List Char}
    (isOne : part ≠ .many) :
    matchParts (part :: parts) name = true ↔
      ∃ c rest, name = c :: rest ∧ part.fits c = true ∧
        matchParts parts rest = true := by
  cases name with
  | nil => cases part <;> simp_all [matchParts]
  | cons c rest => cases part <;> simp_all [matchParts]

/-- A name fits some parts exactly if it has a piece for each of them. -/
theorem matchParts_iff
    {parts : List Part}
    {name : List Char} :
    matchParts parts name = true ↔
      ∃ pieces, List.Forall₂ Part.Covers parts pieces ∧ pieces.flatten = name := by
  induction parts generalizing name with
  | nil =>
    simp only [matchParts, List.isEmpty_iff, List.forall₂_nil_left_iff]
    constructor
    · rintro rfl
      exact ⟨[], rfl, rfl⟩
    · rintro ⟨_, rfl, rfl⟩
      rfl
  | cons part parts partsHypothesis =>
    simp only [List.forall₂_cons_left_iff]
    by_cases isMany : part = .many
    · rw [isMany, matchParts, anyTail_eq_true_iff]
      simp only [partsHypothesis]
      constructor
      · rintro ⟨piece, back, rfl, pieces, cover, rfl⟩
        exact ⟨_, ⟨piece, pieces, .inl rfl, cover, rfl⟩, rfl⟩
      · rintro ⟨_, ⟨piece, pieces, -, cover, rfl⟩, rfl⟩
        exact ⟨piece, _, rfl, pieces, cover, rfl⟩
    · rw [matchParts_cons_of_ne isMany]
      simp only [partsHypothesis]
      constructor
      · rintro ⟨c, rest, rfl, fits, pieces, cover, rfl⟩
        exact ⟨_, ⟨[c], pieces, .inr ⟨c, rfl, fits⟩, cover, rfl⟩, rfl⟩
      · rintro ⟨_, ⟨piece, pieces, covers, cover, rfl⟩, rfl⟩
        obtain isMany' | ⟨c, rfl, fits⟩ := covers
        · exact absurd isMany' isMany
        · exact ⟨c, _, rfl, fits, pieces, cover, rfl⟩

/-- A pattern stands for a name that has a piece for each of its parts. -/
def StandsFor (pattern name : String) : Prop :=
  ∃ pieces,
    List.Forall₂ Part.Covers (parts (pattern.length + 1) pattern.toList) pieces ∧
      pieces.flatten = name.toList

theorem fits_iff
    {pattern name : String} :
    fits pattern name = true ↔ StandsFor pattern name :=
  matchParts_iff

end Pattern

/-! ## Ways that fit -/

namespace Path

/-- A name that stands in paths: no slash is in it, and it is neither empty nor a
point. -/
def IsName (name : String) : Prop :=
  isPart name.toList = true ∧ '/' ∉ name.toList

instance (name : String) : Decidable (IsName name) :=
  inferInstanceAs (Decidable (_ ∧ _))

/-- The path of some names below a path. -/
def below
    (path : Path)
    (names : List String) : Path :=
  { path with parts := path.parts ++ names }

@[simp] theorem below_nil
    (path : Path) :
    path.below [] = path := by
  rw [below, List.append_nil]

@[simp] theorem child_below
    (path : Path)
    (name : String)
    (names : List String) :
    (path.child name).below names = path.below (name :: names) := by
  simp [below, child]

@[simp] theorem below_below
    (path : Path)
    (front back : List String) :
    (path.below front).below back = path.below (front ++ back) := by
  simp [below]

end Path

namespace FileTree

variable {tree : FileTree} {path : Path}

/-! ## What is below a path -/

/-- A tree as a file system has it: each of its places holds what is found there,
and the names of its places are names of paths that lead down. -/
structure Sound (tree : FileTree) : Prop where
  found : ∀ entry ∈ tree.entries, tree.item? entry.1 = some entry.2
  proper : ∀ entry ∈ tree.entries, ∀ name ∈ entry.1,
    Path.IsName name ∧ name ≠ ".."

theorem isFile_iff :
    tree.isFile path = true ↔
      ∃ place bytes, tree.placeOf path = .ok place ∧
        tree.item? place = some (.file bytes) := by
  rw [exists_comm]
  simp only [← find?_eq_some_iff]
  unfold isFile
  split
  · rename_i bytes isFile
    exact iff_of_true rfl ⟨bytes, isFile⟩
  · rename_i noFile
    exact iff_of_false Bool.false_ne_true (not_exists.2 noFile)

theorem isDirectory_iff :
    tree.isDirectory path = true ↔
      ∃ place, tree.placeOf path = .ok place ∧
        tree.item? place = some .directory := by
  rw [← find?_eq_some_iff]
  unfold isDirectory
  split
  · rename_i isDirectory
    exact iff_of_true rfl isDirectory
  · rename_i noDirectory
    exact iff_of_false Bool.false_ne_true noDirectory

theorem isFile_eq_false_of_isDirectory
    (isDirectory : tree.isDirectory path = true) :
    tree.isFile path = false := by
  obtain ⟨place, leads, holds⟩ := isDirectory_iff.1 isDirectory
  have found := find?_eq_some_iff.2 ⟨place, leads, holds⟩
  rw [isFile, found]

theorem contains_of_isFile
    (isFile : tree.isFile path = true) :
    tree.contains path = true := by
  obtain ⟨place, bytes, leads, holds⟩ := isFile_iff.1 isFile
  rw [contains, find?_eq_some_iff.2 ⟨place, leads, holds⟩, Option.isSome_some]

/-- The directory above is no file. -/
theorem isFile_child_up
    (tree : FileTree)
    (path : Path) :
    tree.isFile (path.child "..") = false := by
  rw [← Bool.not_eq_true]
  intro isFile
  obtain ⟨place, bytes, leads, holds⟩ := isFile_iff.1 isFile
  obtain ⟨target, aims⟩ :=
    exists_target?_of_file (find?_eq_some_iff.2 ⟨place, leads, holds⟩)
  refine (target?_eq_some_iff.1 aims).2.1 ?_
  rw [Path.name, Path.child, List.getLast?_concat, Option.getD_some]

theorem placeOf_below_eq_ok_iff
    {names : List String}
    {place : Place} :
    tree.placeOf (path.below names) = .ok place ↔
      ∃ start, tree.placeOf path = .ok start ∧
        tree.resolve start names = .ok place := by
  simp only [placeOf_eq_ok_iff, Path.below, resolve_append_eq_ok_iff]
  constructor
  · rintro ⟨isRelative, start, toStart, further⟩
    exact ⟨start, ⟨isRelative, toStart⟩, further⟩
  · rintro ⟨start, ⟨isRelative, toStart⟩, further⟩
    exact ⟨isRelative, start, toStart, further⟩

/-- What has something below it is a directory. -/
theorem isDirectory_of_isFile_below
    {names : List String}
    (isFile : tree.isFile (path.below names) = true)
    (someName : names ≠ []) :
    tree.isDirectory path = true := by
  obtain ⟨place, bytes, leads, -⟩ := isFile_iff.1 isFile
  obtain ⟨start, toStart, further⟩ := placeOf_below_eq_ok_iff.1 leads
  obtain ⟨name, names, rfl⟩ := List.exists_cons_of_ne_nil someName
  exact isDirectory_iff.2
    ⟨start, toStart, (resolve_cons_eq_ok_iff.1 further).1⟩

/-- Names that lead down are the names on the way. -/
theorem eq_append_of_resolve
    {start place : Place}
    {names : List String}
    (down : ∀ name ∈ names, name ≠ "..")
    (leads : tree.resolve start names = .ok place) :
    place = start ++ names := by
  induction names generalizing start with
  | nil =>
    rw [resolve, Except.ok.injEq] at leads
    rw [← leads, List.append_nil]
  | cons name names namesHypothesis =>
    rw [List.forall_mem_cons] at down
    obtain ⟨-, ⟨isUp, -⟩ | ⟨-, -, further⟩⟩ := resolve_cons_eq_ok_iff.1 leads
    · exact absurd isUp down.1
    · rw [namesHypothesis down.2 further, List.append_assoc, List.singleton_append]

theorem mem_entries_of_item?
    {place : Place}
    {item : Item}
    (proper : place ≠ [])
    (holds : tree.item? place = some item) :
    (place, item) ∈ tree.entries := by
  rw [item?, if_neg proper] at holds
  obtain ⟨front, back, split, -⟩ := List.lookup_eq_some_iff.1 holds
  rw [split]
  exact List.mem_append_right _ List.mem_cons_self

end FileTree

namespace Search

/-- The names on the way to a file that some parts of a pattern stand for.  Two
stars are any directories, so that a name stands behind them. -/
inductive Fits : List String → List String → Prop
  | done : Fits [] []
  | here
      {parts names : List String}
      (someName : names ≠ [])
      (fits : Fits parts names) :
      Fits ("**" :: parts) names
  | deeper
      {name : String}
      {parts names : List String}
      (isDown : name ≠ "..")
      (fits : Fits ("**" :: parts) names) :
      Fits ("**" :: parts) (name :: names)
  | up
      {parts names : List String}
      (fits : Fits parts names) :
      Fits (".." :: parts) (".." :: names)
  | same
      {part : String}
      {parts names : List String}
      (isPlain : Pattern.isSpecial part = false)
      (isDown : part ≠ "..")
      (fits : Fits parts names) :
      Fits (part :: parts) (part :: names)
  | like
      {part name : String}
      {parts names : List String}
      (isSpecial : Pattern.isSpecial part = true)
      (isOne : part ≠ "**")
      (isDown : name ≠ "..")
      (stands : Pattern.StandsFor part name)
      (fits : Fits parts names) :
      Fits (part :: parts) (name :: names)

theorem Fits.ne_nil
    {parts names : List String}
    (fits : Fits parts names)
    (someParts : parts ≠ []) :
    names ≠ [] := by
  cases fits with
  | done => exact absurd rfl someParts
  | here someName => exact someName
  | deeper | up | same | like => exact List.cons_ne_nil _ _

theorem Fits.deeper_of
    {parts front names : List String}
    (down : ∀ name ∈ front, name ≠ "..")
    (someName : names ≠ [])
    (fits : Fits parts names) :
    Fits ("**" :: parts) (front ++ names) := by
  induction front with
  | nil => exact .here someName fits
  | cons name front frontHypothesis =>
    rw [List.forall_mem_cons] at down
    exact .deeper down.1 (frontHypothesis down.2)

/-- A pattern without points for the directory above stands for ways that go down
only. -/
theorem Fits.down
    {parts names : List String}
    (fits : Fits parts names)
    (noUp : ".." ∉ parts) :
    ".." ∉ names := by
  induction fits with
  | done => exact List.not_mem_nil
  | here _ _ fitsHypothesis =>
    exact fitsHypothesis fun isUp => noUp (List.mem_cons_of_mem _ isUp)
  | deeper isDown _ fitsHypothesis =>
    rw [List.mem_cons, not_or]
    exact ⟨isDown.symm, fitsHypothesis noUp⟩
  | up => exact absurd List.mem_cons_self noUp
  | same _ isDown _ fitsHypothesis | like _ _ isDown _ _ fitsHypothesis =>
    rw [List.mem_cons, not_or]
    exact ⟨isDown.symm,
      fitsHypothesis fun isUp => noUp (List.mem_cons_of_mem _ isUp)⟩

/-! ## Patterns in steps -/

/-- What the parts of a pattern ask for. -/
theorem Step.ofPart_cases
    {part : String}
    {step : Step}
    (asks : Step.ofPart part = .ok step) :
    (part = "" ∧ step = .stay) ∨ (part = "**" ∧ step = .below) ∨
      (part = ".." ∧ step = .up) ∨
      (part ≠ "" ∧ part ≠ ".." ∧ Pattern.isSpecial part = false ∧
        step = .name part) ∨
      (part ≠ "**" ∧ Pattern.isSpecial part = true ∧ step = .fitting part) := by
  unfold Step.ofPart at asks
  split_ifs at asks with isEmpty isAny isUp isMixed isSpecial <;>
    simp_all

theorem Step.eq_name_of_plain
    {part : String}
    {step : Step}
    (asks : Step.ofPart part = .ok step)
    (someName : part ≠ "")
    (isDown : part ≠ "..")
    (isPlain : Pattern.isSpecial part = false) :
    step = .name part := by
  rcases Step.ofPart_cases asks with ⟨rfl, -⟩ | ⟨rfl, -⟩ | ⟨rfl, -⟩ |
    ⟨-, -, -, same⟩ | ⟨-, isSpecial, -⟩
  · exact absurd rfl someName
  · exact absurd isPlain (by decide)
  · exact absurd rfl isDown
  · exact same
  · rw [isPlain] at isSpecial
    contradiction

theorem Step.eq_fitting_of_special
    {part : String}
    {step : Step}
    (asks : Step.ofPart part = .ok step)
    (isOne : part ≠ "**")
    (isSpecial : Pattern.isSpecial part = true) :
    step = .fitting part := by
  rcases Step.ofPart_cases asks with ⟨rfl, -⟩ | ⟨rfl, -⟩ | ⟨rfl, -⟩ |
    ⟨-, -, isPlain, -⟩ | ⟨-, -, same⟩
  · exact absurd isSpecial (by decide)
  · exact absurd rfl isOne
  · exact absurd isSpecial (by decide)
  · rw [isPlain] at isSpecial
    contradiction
  · exact same

/-- A part asks for nothing only if two stars stand beside other characters. -/
theorem Step.exists_ofPart_iff
    {part : String} :
    (∃ step, Step.ofPart part = .ok step) ↔
      (hasDoubleStar part.toList = true → part = "**") := by
  unfold Step.ofPart
  split_ifs with isEmpty isAny isUp isMixed isSpecial
  · rw [beq_iff_eq] at isEmpty
    exact iff_of_true ⟨_, rfl⟩ (by rw [isEmpty]; decide)
  · exact iff_of_true ⟨_, rfl⟩ fun _ => beq_iff_eq.1 isAny
  · rw [beq_iff_eq] at isUp
    exact iff_of_true ⟨_, rfl⟩ (by rw [isUp]; decide)
  · refine iff_of_false ?_ fun onlyAny => ?_
    · rintro ⟨step, asks⟩
      contradiction
    · exact isAny (beq_iff_eq.2 (onlyAny isMixed))
  · exact iff_of_true ⟨_, rfl⟩ fun double => absurd double isMixed
  · exact iff_of_true ⟨_, rfl⟩ fun double => absurd double isMixed

/-- A pattern that a search takes: it starts at no root, and two stars stand by
themselves in it. -/
def IsReadable (pattern : String) : Prop :=
  (Path.ofString pattern).isAbsolute = false ∧
    ∀ part ∈ (Path.ofString pattern).parts,
      hasDoubleStar part.toList = true → part = "**"

instance (pattern : String) : Decidable (IsReadable pattern) :=
  inferInstanceAs (Decidable (_ ∧ _))

/-- The parts of a pattern.  A slash at its end is an empty part. -/
def partsOf (pattern : String) : List String :=
  (Path.ofString pattern).parts ++
    if pattern.toList.getLast? = some '/' then [""] else []

theorem stepsOf_eq_ok_iff
    {pattern : String}
    {steps : List Step} :
    stepsOf true pattern = .ok steps ↔
      (Path.ofString pattern).isAbsolute = false ∧
        ∃ later, (partsOf pattern).mapM Step.ofPart = .ok later ∧
          steps = .below :: later := by
  cases isAbsolute : (Path.ofString pattern).isAbsolute with
  | true =>
    simp [stepsOf, isAbsolute, bind, Except.bind, throw, throwThe,
      MonadExceptOf.throw]
  | false =>
    simp only [stepsOf, partsOf, isAbsolute, Bool.not_true, Bool.false_and,
      Bool.false_eq_true, if_false, if_true, beq_iff_eq, Fallible.bind_eq_ok,
      Fallible.pure_eq_ok, true_and]
    simp only [eq_comm]

/-- The steps of a pattern are found exactly if it is readable. -/
theorem exists_stepsOf_iff
    {pattern : String} :
    (∃ steps, stepsOf true pattern = .ok steps) ↔ IsReadable pattern := by
  have noEmpty : hasDoubleStar "".toList = true → "" = "**" := by decide
  have allParts : (∀ part ∈ partsOf pattern,
      hasDoubleStar part.toList = true → part = "**") ↔
      ∀ part ∈ (Path.ofString pattern).parts,
        hasDoubleStar part.toList = true → part = "**" := by
    unfold partsOf
    split_ifs
    · rw [List.forall_mem_append, List.forall_mem_singleton,
        and_iff_left noEmpty]
    · rw [List.append_nil]
  rw [IsReadable, ← allParts]
  simp only [← Step.exists_ofPart_iff, stepsOf_eq_ok_iff,
    ← Fallible.exists_mapM_eq_ok_iff]
  constructor
  · rintro ⟨_, isRelative, later, computed, -⟩
    exact ⟨isRelative, later, computed⟩
  · rintro ⟨isRelative, later, computed⟩
    exact ⟨_, isRelative, later, computed, rfl⟩

/-! ## Searches -/

variable {tree : FileTree} {path base : Path}

theorem self_mem_directoriesBelow
    (tree : FileTree)
    (path : Path) :
    path ∈ directoriesBelow tree path := by
  unfold directoriesBelow
  cases tree.placeOf path with
  | error obstacle => exact List.mem_singleton_self _
  | ok place => exact List.mem_cons_self

theorem mem_directoriesBelow_iff
    {place : Place}
    (leads : tree.placeOf path = .ok place) :
    base ∈ directoriesBelow tree path ↔
      base = path ∨ ∃ names, names ≠ [] ∧
        (place ++ names, Item.directory) ∈ tree.entries ∧
        base = path.below names := by
  unfold directoriesBelow
  rw [leads, List.mem_cons, List.mem_filterMap]
  refine or_congr_right ⟨?_, ?_⟩
  · rintro ⟨⟨key, item⟩, isEntry, isBase⟩
    rw [Option.ite_none_right_eq_some, Bool.and_eq_true, Bool.and_eq_true,
      decide_eq_true_eq, decide_eq_true_eq, List.isPrefixOf_iff_prefix] at isBase
    obtain ⟨⟨⟨isDirectory, isLonger⟩, names, split⟩, isBase⟩ := isBase
    obtain rfl : item = .directory := isDirectory
    obtain rfl : place ++ names = key := split
    rw [List.length_append] at isLonger
    rw [List.drop_left, Option.some.injEq] at isBase
    exact ⟨names, List.ne_nil_of_length_pos (by omega), isEntry, isBase.symm⟩
  · rintro ⟨names, someName, isEntry, rfl⟩
    refine ⟨(place ++ names, .directory), isEntry, ?_⟩
    have isLonger : place.length < (place ++ names).length := by
      have := List.length_pos_iff.2 someName
      rw [List.length_append]
      omega
    have isBelow : place.isPrefixOf (place ++ names) = true :=
      List.isPrefixOf_iff_prefix.2 (List.prefix_append _ _)
    simp only [isLonger, isBelow, decide_true, Bool.and_true, if_true,
      List.drop_left, Path.below]

/-- A search of the directories below a path leads down to directories. -/
theorem below_of_mem_directoriesBelow
    (sound : tree.Sound)
    (noFile : tree.isFile path = false)
    (member : base ∈ directoriesBelow tree path) :
    tree.isFile base = false ∧
      ∃ names, (∀ name ∈ names, name ≠ "..") ∧ base = path.below names := by
  have itself : base = path → tree.isFile base = false ∧
      ∃ names, (∀ name ∈ names, name ≠ "..") ∧ base = path.below names := by
    rintro rfl
    exact ⟨noFile, [], fun _ isName => absurd isName List.not_mem_nil,
      base.below_nil.symm⟩
  cases leads : tree.placeOf path with
  | error obstacle =>
    rw [directoriesBelow, leads] at member
    exact itself (List.mem_singleton.1 member)
  | ok place =>
    rcases (mem_directoriesBelow_iff leads).1 member with
      same | ⟨names, -, isEntry, rfl⟩
    · exact itself same
    have down : ∀ name ∈ names, name ≠ ".." := fun name isName =>
      (sound.proper _ isEntry name (List.mem_append_right _ isName)).2
    refine ⟨?_, names, down, rfl⟩
    rw [← Bool.not_eq_true]
    intro isFile
    obtain ⟨held, bytes, toHeld, holds⟩ := FileTree.isFile_iff.1 isFile
    obtain ⟨start, toStart, further⟩ := FileTree.placeOf_below_eq_ok_iff.1 toHeld
    obtain rfl := Except.ok.inj (leads.symm.trans toStart)
    rw [FileTree.eq_append_of_resolve down further, sound.found _ isEntry] at holds
    cases holds

/-- Directories below a directory are below every directory above it. -/
theorem directoriesBelow_child_subset
    {name : String}
    (isDown : name ≠ "..")
    (isDirectory : tree.isDirectory (path.child name) = true) :
    directoriesBelow tree (path.child name) ⊆ directoriesBelow tree path := by
  obtain ⟨place, leads, holds⟩ := FileTree.isDirectory_iff.1 isDirectory
  have isBelow : path.child name = path.below [name] := rfl
  have leadsBelow := leads
  rw [isBelow] at leadsBelow
  obtain ⟨start, toStart, further⟩ :=
    FileTree.placeOf_below_eq_ok_iff.1 leadsBelow
  have placeEq := FileTree.eq_append_of_resolve
    (List.forall_mem_singleton.2 isDown) further
  rw [placeEq] at leads holds
  have isEntry : (start ++ [name], Item.directory) ∈ tree.entries :=
    FileTree.mem_entries_of_item? (by simp) holds
  intro base member
  rw [mem_directoriesBelow_iff leads] at member
  rw [mem_directoriesBelow_iff toStart]
  rcases member with rfl | ⟨names, -, isEntry, rfl⟩
  · exact .inr ⟨[name], List.cons_ne_nil _ _, isEntry, rfl⟩
  · refine .inr ⟨name :: names, List.cons_ne_nil _ _, ?_, path.child_below name names⟩
    rwa [List.append_assoc, List.singleton_append] at isEntry

theorem mem_namesAt_iff
    {name : String} :
    name ∈ namesAt tree path ↔
      ∃ place item, tree.placeOf path = .ok place ∧
        (place ++ [name], item) ∈ tree.entries := by
  unfold namesAt
  cases tree.placeOf path with
  | error obstacle => simp
  | ok place =>
    change name ∈ tree.names place ↔ _
    rw [FileTree.names, List.mem_filterMap]
    constructor
    · rintro ⟨⟨key, item⟩, isEntry, isLast⟩
      rw [Option.ite_none_right_eq_some] at isLast
      obtain ⟨isIn, isLast⟩ := isLast
      obtain ⟨front, rfl⟩ := List.getLast?_eq_some_iff.1 isLast
      rw [List.dropLast_concat] at isIn
      exact ⟨place, item, rfl, isIn ▸ isEntry⟩
    · rintro ⟨_, item, same, isEntry⟩
      obtain rfl := Except.ok.inj same
      refine ⟨_, isEntry, ?_⟩
      rw [if_pos List.dropLast_concat, List.getLast?_concat]

theorem mem_namesAt_of_isFile_below
    {name : String}
    {names : List String}
    (isDown : name ≠ "..")
    (isFile : tree.isFile (path.below (name :: names)) = true) :
    name ∈ namesAt tree path := by
  obtain ⟨place, bytes, leads, -⟩ := FileTree.isFile_iff.1 isFile
  obtain ⟨start, toStart, further⟩ := FileTree.placeOf_below_eq_ok_iff.1 leads
  obtain ⟨-, ⟨isUp, -⟩ | ⟨-, isThere, -⟩⟩ :=
    FileTree.resolve_cons_eq_ok_iff.1 further
  · exact absurd isUp isDown
  · obtain ⟨item, holds⟩ := Option.isSome_iff_exists.1 isThere
    exact mem_namesAt_iff.2 ⟨start, item, toStart,
      FileTree.mem_entries_of_item? (by simp) holds⟩

/-- Only what a search ends with may be a file. -/
theorem start_of_passes
    {steps : List Step}
    {next : Path} :
    (if steps.isEmpty then tree.contains next else tree.isDirectory next) = true →
      steps = [] ∨ tree.isFile next = false := by
  cases steps with
  | nil => exact fun _ => .inl rfl
  | cons =>
    exact fun isDirectory =>
      .inr (FileTree.isFile_eq_false_of_isDirectory isDirectory)

/-- What a search finds is below its start on a way that its pattern stands for. -/
theorem fits_of_mem_run
    {parts : List String}
    {steps : List Step}
    (sound : tree.Sound)
    (ask : List.Forall₂ (fun part step => Step.ofPart part = .ok step) parts steps)
    (start : steps = [] ∨ tree.isFile path = false)
    (found : base ∈ run tree steps path)
    (isFile : tree.isFile base = true) :
    "" ∉ parts ∧ ∃ names, base = path.below names ∧ Fits parts names := by
  -- the path is no file until the steps end, so two stars at the end find none
  induction ask generalizing path with
  | nil =>
    rw [run, List.mem_singleton] at found
    exact ⟨List.not_mem_nil, [], by rw [found, Path.below_nil], .done⟩
  | @cons part step parts steps asks _ partsHypothesis =>
    have noFile : tree.isFile path = false := start.resolve_left (List.cons_ne_nil _ _)
    rw [List.mem_cons, not_or]
    rcases Step.ofPart_cases asks with ⟨rfl, rfl⟩ | ⟨rfl, rfl⟩ | ⟨rfl, rfl⟩ |
      ⟨someName, isDown, isPlain, rfl⟩ | ⟨isOne, isSpecial, rfl⟩
    · rw [run, List.mem_singleton] at found
      rw [found, noFile] at isFile
      contradiction
    · rw [run, List.mem_flatMap] at found
      obtain ⟨between, isBelow, found⟩ := found
      obtain ⟨betweenNoFile, front, down, rfl⟩ :=
        below_of_mem_directoriesBelow sound noFile isBelow
      obtain ⟨noEmpty, names, rfl, fits⟩ :=
        partsHypothesis (.inr betweenNoFile) found
      have someName : names ≠ [] := by
        rintro rfl
        rw [Path.below_nil, betweenNoFile] at isFile
        contradiction
      exact ⟨⟨by decide, noEmpty⟩, front ++ names, path.below_below front names,
        fits.deeper_of down someName⟩
    · rw [run] at found
      obtain ⟨noEmpty, names, rfl, fits⟩ :=
        partsHypothesis (.inr (tree.isFile_child_up path)) found
      exact ⟨⟨by decide, noEmpty⟩, ".." :: names, path.child_below ".." names,
        .up fits⟩
    · rw [run] at found
      obtain ⟨passes, found⟩ := List.mem_ite_nil_right.1 found
      obtain ⟨noEmpty, names, rfl, fits⟩ :=
        partsHypothesis (start_of_passes passes) found
      exact ⟨⟨someName.symm, noEmpty⟩, part :: names, path.child_below part names,
        .same isPlain isDown fits⟩
    · rw [run, List.mem_flatMap] at found
      obtain ⟨next, isNext, found⟩ := found
      rw [List.mem_filter, List.mem_map] at isNext
      obtain ⟨⟨name, isName, rfl⟩, passes⟩ := isNext
      rw [List.mem_filter, Pattern.fits_iff, mem_namesAt_iff] at isName
      obtain ⟨⟨place, item, -, isEntry⟩, stands⟩ := isName
      obtain ⟨noEmpty, names, rfl, fits⟩ :=
        partsHypothesis (start_of_passes passes) found
      refine ⟨⟨?_, noEmpty⟩, name :: names, path.child_below name names,
        .like isSpecial isOne (sound.proper _ isEntry name (by simp)).2 stands fits⟩
      rintro rfl
      exact absurd isSpecial (by decide)

/-- What leads to a file further on is a directory. -/
theorem passes_of_isFile_below
    {parts names : List String}
    {steps : List Step}
    {next : Path}
    (ask : List.Forall₂ (fun part step => Step.ofPart part = .ok step) parts steps)
    (fits : Fits parts names)
    (isFile : tree.isFile (next.below names) = true) :
    (if steps.isEmpty then tree.contains next else tree.isDirectory next) = true := by
  cases ask with
  | nil =>
    cases fits
    rw [Path.below_nil] at isFile
    exact FileTree.contains_of_isFile isFile
  | cons =>
    exact FileTree.isDirectory_of_isFile_below isFile
      (fits.ne_nil (List.cons_ne_nil _ _))

/-- A file on a way that the pattern stands for is found. -/
theorem mem_run_of_fits
    {parts names : List String}
    {steps : List Step}
    (ask : List.Forall₂ (fun part step => Step.ofPart part = .ok step) parts steps)
    (noEmpty : "" ∉ parts)
    (fits : Fits parts names)
    (isFile : tree.isFile (path.below names) = true) :
    path.below names ∈ run tree steps path := by
  induction fits generalizing steps path with
  | done =>
    obtain rfl := List.forall₂_nil_left_iff.1 ask
    rw [run, Path.below_nil]
    exact List.mem_singleton_self _
  | here _ _ fitsHypothesis =>
    obtain ⟨step, steps, asks, askLater, rfl⟩ := List.forall₂_cons_left_iff.1 ask
    obtain rfl := Except.ok.inj asks
    rw [run, List.mem_flatMap]
    exact ⟨path, self_mem_directoriesBelow tree path, fitsHypothesis askLater
      (fun isEmpty => noEmpty (List.mem_cons_of_mem _ isEmpty)) isFile⟩
  | @deeper name parts names isDown fits fitsHypothesis =>
    -- the search below the next directory is a part of the search below this one
    rw [← Path.child_below] at isFile ⊢
    have found := fitsHypothesis ask noEmpty isFile
    obtain ⟨step, steps, asks, -, rfl⟩ := List.forall₂_cons_left_iff.1 ask
    obtain rfl := Except.ok.inj asks
    rw [run, List.mem_flatMap] at found ⊢
    obtain ⟨between, isBelow, found⟩ := found
    have isDirectory := FileTree.isDirectory_of_isFile_below isFile
      (fits.ne_nil (List.cons_ne_nil _ _))
    exact ⟨between, directoriesBelow_child_subset isDown isDirectory isBelow, found⟩
  | up _ fitsHypothesis =>
    obtain ⟨step, steps, asks, askLater, rfl⟩ := List.forall₂_cons_left_iff.1 ask
    obtain rfl := Except.ok.inj asks
    rw [← Path.child_below] at isFile ⊢
    rw [run]
    exact fitsHypothesis askLater
      (fun isEmpty => noEmpty (List.mem_cons_of_mem _ isEmpty)) isFile
  | @same part parts names isPlain isDown fits fitsHypothesis =>
    obtain ⟨step, steps, asks, askLater, rfl⟩ := List.forall₂_cons_left_iff.1 ask
    rw [List.mem_cons, not_or] at noEmpty
    obtain rfl := Step.eq_name_of_plain asks (Ne.symm noEmpty.1) isDown isPlain
    rw [← Path.child_below] at isFile ⊢
    rw [run]
    exact List.mem_ite_nil_right.2
      ⟨passes_of_isFile_below askLater fits isFile, fitsHypothesis askLater noEmpty.2 isFile⟩
  | @like part name parts names isSpecial isOne isDown stands fits fitsHypothesis =>
    obtain ⟨step, steps, asks, askLater, rfl⟩ := List.forall₂_cons_left_iff.1 ask
    rw [List.mem_cons, not_or] at noEmpty
    obtain rfl := Step.eq_fitting_of_special asks isOne isSpecial
    have isName := mem_namesAt_of_isFile_below isDown isFile
    rw [← Path.child_below] at isFile ⊢
    rw [run, List.mem_flatMap]
    refine ⟨path.child name, ?_, fitsHypothesis askLater noEmpty.2 isFile⟩
    rw [List.mem_filter, List.mem_map]
    exact ⟨⟨name, List.mem_filter.2 ⟨isName, Pattern.fits_iff.2 stands⟩, rfl⟩,
      passes_of_isFile_below askLater fits isFile⟩

end Search
end StoryMigration
