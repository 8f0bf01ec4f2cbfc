import StoryMigration.Proofs.CommentOwners
import StoryMigration.Proofs.ExportPieces
import StoryMigration.Proofs.ExportedContent
import StoryMigration.Proofs.UncutPlaces

/-!
# Where comments are exported

The comments of a fragment that lie in no arguments come out once each, on lines
of their own: those that belong to a link that adds a story above the export of
that story, and the others above the default export.  Above each export they
stand in the order of the source.
-/

namespace StoryMigration

open Syntax Chain Fallible

namespace Story

variable {m : Module} {fragment : Fragment} {metadata : Metadata}

/-- Where the comments in the statements of a fragment are exported. -/
structure CommentsExported
    (m : Module)
    (fragment : Fragment)
    (metadata : Metadata)
    (stories : List NamedEntry) : Prop where
  /-- The stories are those of the links that add them, with their comments. -/
  each : List.Forall₂ (fun link story =>
    IsStory m link story.entry ∧ story.entry.comments = link.comments)
      fragment.adds stories
  /-- The comments of all other links go to the default export. -/
  shared : ∀ comment, comment ∈ metadata.comments ↔
    ∃ link ∈ fragment.links, link.isAdd = false ∧ comment ∈ link.comments
  /-- What is exported is the free comments. -/
  free : ∀ comment,
    comment ∈ metadata.comments ++ stories.flatMap (·.entry.comments) ↔
      fragment.IsFree comment
  /-- No comment is exported twice. -/
  once : (metadata.comments ++ stories.flatMap (·.entry.comments)).Nodup
  /-- Above each export the comments stand one behind the other. -/
  inTurn : ∀ comments ∈ metadata.comments :: stories.map (·.entry.comments),
    comments.Pairwise fun a b => a.stop ≤ b.start
  /-- The expressions that are copied into the exports have no free comments. -/
  apart : ∀ expression ∈ copies metadata (stories.map (·.entry)),
    ∀ comment ∈ expression.preorder, ¬ fragment.IsFree comment

/-! ## The comments of the default export -/

/-- The default export has the comments of decorators and parameters. -/
theorem comments_of_metadata
    {excluded : List Text}
    (read : Metadata.ofFragment m fragment excluded = .ok metadata) :
    metadata.comments.Perm
        ((fragment.decorators ++ fragment.parameters).flatMap (·.comments)) ∧
      metadata.comments.Pairwise fun a b => a.start ≤ b.start := by
  unfold Metadata.ofFragment at read
  simp only [bind_eq_ok, pure_eq_ok] at read
  obtain ⟨-, -, rfl⟩ := read
  refine ⟨List.mergeSort_perm _ _, ?_⟩
  refine (List.pairwise_mergeSort ?_ ?_ _).imp fun {a b} isBefore => ?_
  · intro a b c first second
    rw [decide_eq_true_eq] at first second ⊢
    exact Nat.le_trans first second
  · intro a b
    rw [Bool.or_eq_true, decide_eq_true_eq, decide_eq_true_eq]
    exact Nat.le_total _ _
  · rwa [decide_eq_true_eq] at isBefore

/-- The links that add no stories are those for decorators and parameters. -/
theorem mem_decorators_append_iff
    {link : Link}
    (wellFormed : ∀ link ∈ fragment.links, link.isWellFormed = true) :
    link ∈ fragment.decorators ++ fragment.parameters ↔
      link ∈ fragment.links ∧ link.isAdd = false := by
  rw [List.mem_append, Fragment.decorators, Fragment.parameters, List.mem_filter,
    List.mem_filter, ← and_or_left]
  refine and_congr_right fun isLink => ?_
  rcases Link.cases_of_isWellFormed (wellFormed link isLink) with
    ⟨isAdd, notDecorator, notParameters, -⟩ |
      ⟨⟨notAdd, isDecorator, notParameters⟩ |
        ⟨notAdd, notDecorator, isParameters⟩, -⟩ <;> simp [*]

/-- Free comments in the order of their starts stand one behind the other. -/
theorem inTurn_of_starts
    {comments : List Node}
    (stands : fragment.StandsIn m)
    (commented : m.tree.Commented)
    (areFree : ∀ comment ∈ comments, fragment.IsFree comment)
    (nodup : comments.Nodup)
    (inOrder : comments.Pairwise fun a b => a.start ≤ b.start) :
    comments.Pairwise fun a b => a.stop ≤ b.start := by
  have inTree {comment : Node} (free : fragment.IsFree comment) :
      comment ∈ m.tree.preorder := by
    obtain ⟨statement, isStatement, below⟩ := free.inStatement
    exact stands.inTree isStatement below
  refine (nodup.and inOrder).imp_of_mem fun {first second} isFirst isSecond
    ⟨different, before⟩ => ?_
  have firstFree := areFree first isFirst
  have secondFree := areFree second isSecond
  have apart := commented.apart (inTree firstFree) firstFree.isComment
    (inTree secondFree) secondFree.isComment different
  have forward := commented.forward second (inTree secondFree) secondFree.isComment
  omega

/-- The comments of a fragment are exported once each. -/
theorem commentsExported
    {excluded : List Text}
    {entries : List Entry}
    {stories : List NamedEntry}
    (stands : fragment.StandsIn m)
    (commented : m.tree.Commented)
    (attached : fragment.Attached)
    (linked : fragment.links ≠ [])
    (wellFormed : ∀ link ∈ fragment.links, link.isWellFormed = true)
    (metadataRead : Metadata.ofFragment m fragment excluded = .ok metadata)
    (entriesRead : ofFragment m fragment = .ok entries)
    (named : stories.map (·.entry) = entries) :
    CommentsExported m fragment metadata stories := by
  have isFree (comment : Node) :
      comment ∈ looseComments fragment ↔ fragment.IsFree comment :=
    mem_looseComments_iff stands commented
  obtain ⟨linksNodup, linksLoose⟩ := attached.comments_of_links linked
    (looseComments_nodup stands commented)
  obtain ⟨sharedPerm, sharedInOrder⟩ := comments_of_metadata metadataRead
  have areStories : List.Forall₂ (IsStory m) fragment.adds entries :=
    (ofFragment_eq_ok_iff wellFormed).1 entriesRead
  have each : List.Forall₂ (fun link story =>
      IsStory m link story.entry ∧ story.entry.comments = link.comments)
        fragment.adds stories := by
    rw [← named, List.forall₂_map_right_iff] at areStories
    exact areStories.imp fun link story isStory => ⟨isStory, isStory.comments⟩
  have storyComments : stories.map (·.entry.comments) =
      fragment.adds.map (·.comments) := by
    rw [← List.forall₂_eq_eq_eq, List.forall₂_map_left_iff,
      List.forall₂_map_right_iff]
    exact each.flip.imp fun story link isStory => isStory.2
  have whole : (metadata.comments ++ stories.flatMap (·.entry.comments)).Perm
      (fragment.links.flatMap (·.comments)) := by
    rw [List.flatMap_def, storyComments, ← List.flatMap_def]
    have byKind := (links_perm_of_wellFormed wellFormed).flatMap_right (·.comments)
    rw [List.append_assoc, List.flatMap_append] at byKind
    exact ((sharedPerm.append_right _).trans List.perm_append_comm).trans byKind.symm
  have free (comment : Node) :
      comment ∈ metadata.comments ++ stories.flatMap (·.entry.comments) ↔
        fragment.IsFree comment := by
    rw [whole.mem_iff, linksLoose, isFree]
  have once := whole.nodup_iff.2 linksNodup
  refine ⟨each, ?_, free, once, ?_, ?_⟩
  · intro comment
    rw [sharedPerm.mem_iff, List.mem_flatMap]
    simp only [mem_decorators_append_iff wellFormed, and_assoc]
  · intro comments isSome
    rcases List.mem_cons.1 isSome with rfl | isStory
    · exact inTurn_of_starts stands commented
        (fun comment isShared => (free comment).1 (List.mem_append_left _ isShared))
        (List.nodup_append.1 once).1 sharedInOrder
    · rw [storyComments] at isStory
      obtain ⟨link, isAdd, rfl⟩ := List.mem_map.1 isStory
      exact (looseComments_inTurn stands commented).sublist
        (attached.comments_sublist (List.mem_filter.1 isAdd).1)
  · intro expression isCopy comment inside isFreeComment
    rw [named] at isCopy
    obtain ⟨link, isLink, argument, isArgument, below⟩ :=
      ((mem_copies_iff metadataRead entriesRead).1 isCopy).below_argument
    exact isFreeComment.outside
      (.inl ⟨link, isLink, argument, isArgument, Node.mem_preorder_trans below inside⟩)

end Story

namespace Migration

open Story

/-- The code that a fragment is replaced by has its comments above its exports. -/
theorem exported_of_annotated
    {m : Module}
    {located : Located}
    {fragment : Fragment}
    {options : Options}
    {code : String}
    {count : Nat}
    (annotated : fragment.Annotated m located.localName)
    (linked : fragment.links ≠ [])
    (made : generated options m located fragment = .ok (code, count)) :
    ∃ metadata stories,
      code = (Newline.ofText m.source.toList).spread
        (CodePiece.join (codePieces options m metadata stories)) ∧
      CommentsExported m fragment metadata stories := by
  obtain ⟨-, stands, commented, attached, wellFormed⟩ := annotated
  unfold generated at made
  simp only [bind_eq_ok, pure_eq_ok] at made
  obtain ⟨metadata, metadataRead, entries, entriesRead, made⟩ := made
  rw [Prod.mk.injEq] at made
  refine ⟨metadata, named (.ofList (m.identifiers m.tree)) entries, ?_,
    commentsExported stands commented attached linked wellFormed metadataRead
      entriesRead (map_entry_named _ entries)⟩
  rw [← made.1, assembled_eq]

/-- Each of the comments in the statements of a supported fragment that lie in no
arguments belongs to one link, its owner.  The generated code has it once, on lines
of its own above an export, in the order of the source above each: above the export
of the story that its owner adds, or else above the default export.  Comments in
arguments are not put there. -/
theorem exportsComments_of_supported
    {dialect : Dialect}
    {source : String}
    {m : Module}
    {registration : Registration}
    {located : Located}
    {fragment : Fragment}
    (parsed : Module.parse? dialect source = some m)
    (found : locate m registration = .ok located)
    (supported : fragment ∈ located.fragments)
    (linked : fragment.links ≠ []) :
    fragment.OwnsComments ∧
      ∀ options code count,
        generated options m located fragment = .ok (code, count) →
          ∃ metadata stories,
            code = (Newline.ofText m.source.toList).spread
              (CodePiece.join (codePieces options m metadata stories)) ∧
            CommentsExported m fragment metadata stories := by
  have annotated := annotated_of_supported parsed found supported
  exact ⟨annotated.attached.ownsComments linked annotated.stands annotated.commented,
    fun _ _ _ made => exported_of_annotated annotated linked made⟩

set_option maxRecDepth 100000 in
/-- Comments on the way to a decorator and inside its call are above the default
export, and those of the stories above theirs, whatever statement they are in. -/
theorem exportsComments_two_statements :
    ∃ m located fragment code,
      Module.parse? .javascript
        ("const s = storiesOf('A' /*in*/, module) // a\n" ++
          "  .addDecorator(/*b*/ d);\n" ++
          "s /*c*/ .add('x', /*d*/ () => /*in*/ 1).add('y', g /*e*/);\n") =
            some m ∧
      locate m {} = .ok located ∧ fragment ∈ located.fragments ∧
      fragment.links.map (·.comments.map m.text) =
        [["// a"], ["/*b*/", "/*c*/"], ["/*d*/", "/*e*/"]] ∧
      generated {} m located fragment = .ok (code, 2) ∧
      fragment.OwnsComments ∧
      ∃ metadata stories,
        code = (Newline.ofText m.source.toList).spread
          (CodePiece.join (codePieces {} m metadata stories)) ∧
        CommentsExported m fragment metadata stories := by
  generalize sourceEq :
    "const s = storiesOf('A' /*in*/, module) // a\n" ++
      "  .addDecorator(/*b*/ d);\n" ++
      "s /*c*/ .add('x', /*d*/ () => /*in*/ 1).add('y', g /*e*/);\n" = source
  have checked : (Module.parse? .javascript source).any (fun m =>
      (locate m {}).toOption.any fun located =>
        located.fragments.any fun fragment =>
          fragment.links.map (·.comments.map m.text) ==
              [["// a"], ["/*b*/", "/*c*/"], ["/*d*/", "/*e*/"]] &&
            (generated {} m located fragment).toOption.any fun made =>
              made.2 == 2) = true := by
    rw [← sourceEq]
    decide +kernel
  obtain ⟨m, parsed, checked⟩ := (Option.any_eq_true _ _).1 checked
  obtain ⟨located, found, checked⟩ := any_toOption.1 checked
  obtain ⟨fragment, supported, checked⟩ := List.any_eq_true.1 checked
  rw [Bool.and_eq_true, beq_iff_eq, any_toOption] at checked
  obtain ⟨texts, ⟨code, count⟩, made, two⟩ := checked
  rw [beq_iff_eq] at two
  subst two
  have linked : fragment.links ≠ [] := by
    rintro noLinks
    rw [noLinks] at texts
    contradiction
  obtain ⟨owns, exported⟩ := exportsComments_of_supported parsed found supported linked
  exact ⟨m, located, fragment, code, parsed, found, supported, texts, made, owns,
    exported {} code 2 made⟩

end Migration
end StoryMigration
