import StoryMigration.Migration.Convert
import StoryMigration.Proofs.CopiedExpressions

/-!
# Copied expressions in generated code

The generated code shows every expression that is copied into it, moved to the
level where it is written.
-/

namespace StoryMigration

open Syntax

/-! ## Text inside a text -/

/-- A piece of text stands somewhere in a text. -/
def Shows (text piece : String) : Prop :=
  piece.toList <:+: text.toList

theorem Shows.refl (text : String) : Shows text text :=
  List.infix_rfl

theorem Shows.append_right
    {text piece : String}
    (shows : Shows text piece)
    (back : String) :
    Shows (text ++ back) piece := by
  unfold Shows
  rw [String.toList_append]
  exact shows.trans (List.prefix_append _ _).isInfix

theorem Shows.append_left
    {text piece : String}
    (front : String)
    (shows : Shows text piece) :
    Shows (front ++ text) piece := by
  unfold Shows
  rw [String.toList_append]
  exact shows.trans (List.suffix_append _ _).isInfix

theorem Shows.intercalate
    {text piece separator : String}
    {texts : List String}
    (isPart : text ∈ texts)
    (shows : Shows text piece) :
    Shows (separator.intercalate texts) piece := by
  induction texts with
  | nil => exact absurd isPart List.not_mem_nil
  | cons first rest restHypothesis =>
    rcases List.eq_nil_or_concat rest with rfl | ⟨front, last, restEq⟩
    · rw [String.intercalate_singleton, ← List.mem_singleton.1 isPart]
      exact shows
    · have someRest : rest ≠ [] := by
        rw [restEq, List.concat_eq_append]
        exact List.append_ne_nil_of_right_ne_nil _ (List.cons_ne_nil _ _)
      rw [String.intercalate_cons_of_ne_nil someRest]
      rcases List.mem_cons.1 isPart with rfl | inRest
      · exact (shows.append_right _).append_right _
      · exact (restHypothesis inRest).append_left _

/-! ## Text inside literals and statements -/

namespace Layout

variable (layout : Layout)

/-- Every member of a literal has a line. -/
theorem shows_entryLines
    {entries : List Entry}
    {entry : Entry}
    {piece : String}
    (inner : String)
    (isEntry : entry ∈ entries)
    (shows : Shows entry.text piece) :
    ∃ line ∈ layout.entryLines inner entries, Shows line piece := by
  induction entries with
  | nil => exact absurd isEntry List.not_mem_nil
  | cons first rest restHypothesis =>
    rw [entryLines]
    rcases List.mem_cons.1 isEntry with rfl | inRest
    · refine ⟨_, List.mem_cons_self, ?_⟩
      split
      · exact shows.append_left _
      · split
        · exact (shows.append_left _).append_right _
        · exact shows.append_left _
    · obtain ⟨line, isLine, lineShows⟩ := restHypothesis inRest
      exact ⟨line, List.mem_cons_of_mem _ isLine, lineShows⟩

theorem shows_block
    {entries : List Entry}
    {entry : Entry}
    {piece : String}
    (opening closing : String)
    (level : Int)
    (isEntry : entry ∈ entries)
    (shows : Shows entry.text piece) :
    Shows (layout.block opening closing entries level) piece := by
  obtain ⟨line, isLine, lineShows⟩ :=
    layout.shows_entryLines (layout.indent (level + 1)) isEntry shows
  unfold block
  refine Shows.append_right (Shows.append_right (Shows.append_right ?_ _) _) _
  exact (Shows.intercalate isLine lineShows).append_left _

theorem shows_object
    {entries : List Entry}
    {entry : Entry}
    {piece : String}
    (level : Int)
    (isEntry : entry ∈ entries)
    (shows : Shows entry.text piece) :
    Shows (layout.object entries level) piece := by
  unfold object
  split
  · rename_i noEntries
    rw [List.isEmpty_iff] at noEntries
    rw [noEntries] at isEntry
    exact absurd isEntry List.not_mem_nil
  · exact layout.shows_block _ _ level isEntry shows

theorem shows_array
    {items : List String}
    {item piece : String}
    (level : Int)
    (isItem : item ∈ items)
    (shows : Shows item piece) :
    Shows (layout.array items level) piece := by
  unfold array
  split
  · have isEntry : (⟨item, false⟩ : Entry) ∈
        items.map fun item => ⟨item, false⟩ :=
      List.mem_map_of_mem isItem
    exact layout.shows_block _ _ level isEntry shows
  · exact ((Shows.intercalate isItem shows).append_left _).append_right _

theorem shows_property
    {value piece : String}
    (key : String)
    (shows : Shows value piece) :
    Shows (property key value) piece :=
  shows.append_left _

theorem shows_statement
    {text piece : String}
    (comments : List String)
    (shows : Shows text piece) :
    Shows (statement text comments) piece := by
  unfold statement
  refine Shows.intercalate
    (List.mem_append_right _ (List.mem_singleton_self _)) ?_
  split
  · exact shows
  · exact shows.append_right _

end Layout

namespace Story

variable (options : Options) (m : Module)

/-! ## Expressions inside exports -/

/-- The text shows an expression, moved to some level. -/
def ShowsNode (text : String) (expression : Node) : Prop :=
  ∃ level, Shows text (options.layout.node m expression level)

theorem shows_memberObject
    {members : List Member}
    {member : Member}
    (isMember : member ∈ members) :
    ShowsNode options m (memberObject options m members) member.node := by
  refine ⟨2, options.layout.shows_object 1 (List.mem_map_of_mem isMember) ?_⟩
  unfold memberEntry
  split
  · exact (Shows.refl _).append_left _
  · exact Shows.refl _

/-- The default export shows what all stories share. -/
theorem shows_defaultExport
    {metadata : Metadata}
    {expression : Node}
    (isCopy : expression ∈
      metadata.decorators ++ metadata.parameters.map (·.node)) :
    ShowsNode options m (defaultExport options m metadata) expression := by
  have shown {texts : List String} {piece : String} (text : String)
      (isText : text ∈ texts) (shows : Shows text piece) :
      Shows (options.layout.object
        (texts.map fun text => (⟨text, false⟩ : StoryMigration.Entry)) 0)
        piece :=
    options.layout.shows_object 0 (List.mem_map_of_mem isText) shows
  unfold defaultExport
  rcases List.mem_append.1 isCopy with isDecorator | isParameter
  · refine ⟨2, Layout.shows_statement _ (Shows.append_left _ ?_)⟩
    have someDecorators : metadata.decorators.isEmpty = false := by
      rw [List.isEmpty_eq_false_iff]
      exact List.ne_nil_of_mem isDecorator
    refine shown
      (Layout.property "decorators" (options.layout.array
        (metadata.decorators.map (options.layout.node m · 2)) 1)) ?_ ?_
    · rw [someDecorators]
      simp
    · exact Layout.shows_property _ (options.layout.shows_array 1
        (List.mem_map_of_mem isDecorator) (Shows.refl _))
  · obtain ⟨member, isMember, rfl⟩ := List.mem_map.1 isParameter
    obtain ⟨level, shows⟩ := shows_memberObject options m isMember
    refine ⟨level, Layout.shows_statement _ (Shows.append_left _ ?_)⟩
    have someParameters : metadata.parameters.isEmpty = false := by
      rw [List.isEmpty_eq_false_iff]
      exact List.ne_nil_of_mem isMember
    refine shown
      (Layout.property "parameters"
        (memberObject options m metadata.parameters)) ?_ ?_
    · rw [someParameters]
      simp
    · exact Layout.shows_property _ shows

/-- The members of a story's own object show its parameters and decorators. -/
theorem shows_ownMembers
    {story : NamedEntry}
    {expression : Node}
    (isOwn : expression ∈
      ownNodes (story.entry.parameters, story.entry.decorators)) :
    ∃ text ∈ ownMembers options m story,
      ShowsNode options m text expression := by
  unfold ownMembers
  rcases List.mem_append.1 isOwn with isParameter | isDecorator
  · obtain ⟨parameters, isParameters, isNode⟩ := List.mem_flatMap.1 isParameter
    rw [Option.mem_toList] at isParameters
    have parametersEq : story.entry.parameters = some parameters := isParameters
    rw [parametersEq]
    cases parameters with
    | asWritten written =>
      rw [Parameters.nodes, List.mem_singleton] at isNode
      rw [isNode]
      refine ⟨_, List.mem_append_left _ (List.mem_append_right _
        (List.mem_singleton_self _)), 1, ?_⟩
      exact Layout.shows_property _ (Shows.refl _)
    | members members =>
      rw [Parameters.nodes] at isNode
      obtain ⟨member, isMember, rfl⟩ := List.mem_map.1 isNode
      obtain ⟨level, shows⟩ := shows_memberObject options m isMember
      refine ⟨_, List.mem_append_left _ (List.mem_append_right _
        (List.mem_singleton_self _)), level, ?_⟩
      exact Layout.shows_property _ shows
  · rw [Option.mem_toList] at isDecorator
    have decoratorsEq : story.entry.decorators = some expression := isDecorator
    rw [decoratorsEq]
    refine ⟨_, List.mem_append_right _ (List.mem_singleton_self _), 1, ?_⟩
    exact Layout.shows_property _ (Shows.refl _)

/-- The export of a story shows what belongs to it. -/
theorem shows_storyExport
    {story : NamedEntry}
    {expression : Node}
    (isCopy : expression ∈ story.entry.render ::
      ownNodes (story.entry.parameters, story.entry.decorators)) :
    ShowsNode options m (storyExport options m story) expression := by
  unfold storyExport
  rcases List.mem_cons.1 isCopy with rfl | isOwn
  · have declared :
        Shows (Layout.statement ("export const " ++ story.identifier ++ " = " ++
            options.layout.node m story.entry.render 0)
          (story.entry.comments.map m.text))
          (options.layout.node m story.entry.render 0) :=
      Layout.shows_statement _ ((Shows.refl _).append_left _)
    refine ⟨0, ?_⟩
    simp only
    split
    · exact declared
    · exact (declared.append_right _).append_right _
  · obtain ⟨text, isText, level, shows⟩ := shows_ownMembers options m isOwn
    refine ⟨level, ?_⟩
    simp only
    split
    · rename_i noMembers
      rw [noMembers] at isText
      exact absurd isText List.not_mem_nil
    · have inObject := options.layout.shows_object 0
        (List.mem_map_of_mem
          (f := fun text => (⟨text, false⟩ : StoryMigration.Entry)) isText)
        shows
      exact (Layout.shows_statement _ (inObject.append_left _)).append_left _

/-! ## The whole code -/

theorem length_claimStories
    (pool : NamePool)
    (names : List (List Char)) :
    (pool.claimStories names).length = names.length := by
  induction names generalizing pool with
  | nil => rfl
  | cons name names namesHypothesis =>
    rw [NamePool.claimStories, List.length_cons, List.length_cons,
      namesHypothesis]

/-- Every story is given an identifier, in the order of the stories. -/
theorem map_entry_named
    (inUse : NamePool)
    (entries : List Entry) :
    (named inUse entries).map (·.entry) = entries := by
  unfold named
  rw [List.map_map]
  have same : entries.length = (inUse.claimStories
      (entries.map fun entry => entry.name.legible)).length := by
    rw [length_claimStories, List.length_map]
  exact List.map_fst_zip (Nat.le_of_eq same)

theorem exists_named
    {entries : List Entry}
    {entry : Entry}
    (inUse : NamePool)
    (isEntry : entry ∈ entries) :
    ∃ story ∈ named inUse entries, story.entry = entry := by
  rw [← map_entry_named inUse entries] at isEntry
  exact List.mem_map.1 isEntry

/-- The generated code shows every expression that is copied into it. -/
theorem shows_assembled
    {metadata : Metadata}
    {entries : List Entry}
    {expression : Node}
    (inUse : NamePool)
    (isCopy : expression ∈ copies metadata entries) :
    ShowsNode options m
      (assembled options m metadata (named inUse entries)) expression := by
  unfold assembled
  rcases List.mem_append.1 isCopy with isShared | isStory
  · obtain ⟨level, shows⟩ := shows_defaultExport options m isShared
    exact ⟨level, Shows.intercalate List.mem_cons_self shows⟩
  · obtain ⟨entry, isEntry, isNode⟩ := List.mem_flatMap.1 isStory
    obtain ⟨story, isNamed, rfl⟩ := exists_named inUse isEntry
    obtain ⟨level, shows⟩ := shows_storyExport options m isNode
    exact ⟨level, Shows.intercalate
      (List.mem_cons_of_mem _ (List.mem_map_of_mem isNamed)) shows⟩

end Story

namespace Migration

open Chain Fallible Story

/-- The code that is written for a chain shows, up to its line endings, every
expression of the chain that is kept. -/
theorem generated_shows_kept
    {options : Options}
    {m : Module}
    {located : Located}
    {fragment : Fragment}
    {code : String}
    {count : Nat}
    (written : generated options m located fragment = .ok (code, count)) :
    ∃ text, code = (Newline.ofText m.source.toList).spread text ∧
      ∀ expression, Kept m fragment expression →
        ShowsNode options m text expression := by
  unfold generated at written
  simp only [bind_eq_ok, pure_eq_ok, Prod.mk.injEq] at written
  obtain ⟨metadata, metadataRead, entries, entriesRead, codeEq, -⟩ := written
  refine ⟨_, codeEq.symm, fun expression kept => ?_⟩
  exact shows_assembled options m _
    ((mem_copies_iff metadataRead entriesRead).2 kept)

end Migration
end StoryMigration
