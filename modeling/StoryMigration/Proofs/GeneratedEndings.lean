import StoryMigration.Proofs.ChainContent
import StoryMigration.Proofs.FreshNames
import StoryMigration.Proofs.GeneratedCode
import StoryMigration.Proofs.IdentifierWords
import StoryMigration.Proofs.LineEndings
import StoryMigration.Proofs.LiteralReading

/-!
# Line endings of generated code

Generated code has line feeds of its own only, and the line endings of what is
copied into it.  If no copied text has a carriage return by itself, then the
code has none: neither moving lines nor emptying blank ones leaves one behind.
-/

namespace StoryMigration

open Syntax

namespace Newline.Clean

/-! ## Texts put together -/

theorem append_feed_iff
    (line rest : List Char) :
    Clean (line ++ '\n' :: rest) ↔ Clean (line ++ ['\n']) ∧ Clean rest := by
  have last : (line ++ ['\n']).getLast? ≠ some '\r' := by
    rw [List.getLast?_concat]
    decide
  rw [← List.singleton_append, ← List.append_assoc]
  unfold Clean
  rw [joined_append rest last, List.mem_append, not_or]

theorem intercalate
    {separator : String}
    {texts : List String}
    (between : Clean separator.toList)
    (clean : ∀ text ∈ texts, Clean text.toList) :
    Clean (separator.intercalate texts).toList := by
  induction texts with
  | nil =>
    rw [String.intercalate_nil]
    decide
  | cons text texts textsHypothesis =>
    have first := clean text List.mem_cons_self
    have rest := textsHypothesis fun other member =>
      clean other (List.mem_cons_of_mem _ member)
    by_cases isLast : texts = []
    · rw [isLast, String.intercalate_singleton]
      exact first
    · rw [String.intercalate_cons_of_ne_nil isLast, String.toList_append,
        String.toList_append]
      exact (first.append between).append rest

end Newline.Clean

/-! ## Lines -/

open Newline

/-- Lines that have no carriage return by itself once line feeds stand between
them. -/
def CleanLines : List (List Char) → Prop
  | [] => True
  | [line] => Clean line
  | line :: next :: lines =>
    Clean (line ++ ['\n']) ∧ CleanLines (next :: lines)

theorem linesOf_ne_nil
    (text : List Char) :
    linesOf text ≠ [] := by
  fun_cases linesOf text <;> simp_all

theorem cleanLines_iff
    (lines : List (List Char)) :
    CleanLines lines ↔ Clean (['\n'].intercalate lines) := by
  induction lines with
  | nil => exact ⟨fun _ => by decide, fun _ => trivial⟩
  | cons line lines linesHypothesis =>
    cases lines with
    | nil =>
      rw [List.intercalate_singleton]
      rfl
    | cons next lines =>
      rw [CleanLines, linesHypothesis, List.intercalate_cons_cons,
        List.append_assoc, List.singleton_append]
      exact (Clean.append_feed_iff _ _).symm

theorem intercalate_linesOf
    (text : List Char) :
    ['\n'].intercalate (linesOf text) = text := by
  fun_induction linesOf text with
  | case1 => rfl
  | case2 c rest isNil => exact absurd isNil (linesOf_ne_nil rest)
  | case3 c rest line lines linesEq isFeed restHypothesis =>
    rw [linesEq] at restHypothesis
    rw [List.intercalate_cons_cons, restHypothesis, beq_iff_eq.1 isFeed]
    rfl
  | case4 c rest line lines linesEq noFeed restHypothesis =>
    rw [linesEq] at restHypothesis
    rw [← restHypothesis]
    cases lines with
    | nil => rfl
    | cons next lines =>
      rw [List.intercalate_cons_cons, List.intercalate_cons_cons]
      rfl

namespace Layout

variable (layout : Layout)

theorem clean_indent
    (level : Int) :
    Clean (layout.indent level).toList := by
  refine .of_free fun member => ?_
  rw [indent, String.toList_ofList] at member
  exact absurd (List.eq_of_mem_replicate member) (by decide)

/-- A line that is moved has the end that it had. -/
theorem clean_movedLine
    {base indent line : List Char}
    (tail : List Char)
    (indentClean : Clean indent)
    (clean : Clean (line ++ tail)) :
    Clean (movedLine base indent line ++ tail) := by
  have behind {rest : List Char} (isSuffix : rest <:+ line) :
      Clean (indent ++ rest ++ tail) := by
    obtain ⟨front, rfl⟩ := isSuffix
    rw [List.append_assoc] at clean ⊢
    exact indentClean.append (clean.suffix (List.suffix_append front _))
  unfold movedLine
  split
  · exact clean.suffix (List.suffix_append line tail)
  · split
    · rename_i rest found
      rw [Lexeme.eq_append_of_after? found] at behind
      exact behind (List.suffix_append base rest)
    · exact behind (List.dropWhile_suffix isWhite)

theorem cleanLines_movedLines
    {base indent text : List Char}
    (indentClean : Clean indent)
    (clean : Clean text) :
    CleanLines (movedLines base indent text) := by
  have lines : CleanLines (linesOf text) := by
    rw [cleanLines_iff, intercalate_linesOf]
    exact clean
  have moved (rest : List (List Char)) (restClean : CleanLines rest) :
      CleanLines (rest.map (movedLine base indent)) := by
    fun_induction CleanLines rest with
    | case1 => trivial
    | case2 line =>
      have here : Clean (movedLine base indent line ++ []) :=
        clean_movedLine [] indentClean (by rwa [List.append_nil])
      rwa [List.append_nil] at here
    | case3 line next lines restHypothesis =>
      exact ⟨clean_movedLine _ indentClean restClean.1,
        restHypothesis restClean.2⟩
  unfold movedLines
  cases linesEq : linesOf text with
  | nil => trivial
  | cons first rest =>
    rw [linesEq] at lines
    cases rest with
    | nil => exact lines
    | cons next rest => exact ⟨lines.1, moved _ lines.2⟩

/-- A copied text has no carriage return by itself at its new place if it had
none where it was. -/
theorem clean_node
    {m : Module}
    {node : Node}
    (level : Int)
    (clean : Clean (m.text node).toList) :
    Clean (layout.node m node level).toList := by
  unfold Layout.node
  simp only
  split
  · exact clean
  · have lines : CleanLines (movedLines (m.lineIndent node).toList
        (layout.indent level).toList (m.text node).toList) :=
      cleanLines_movedLines (layout.clean_indent level) clean
    rw [cleanLines_iff] at lines
    rw [String.toList_intercalate, List.map_map]
    simpa using lines

theorem clean_string
    (value : Text) :
    Clean (layout.string value).toList :=
  .of_free fun member => (layout.string_noLineEnd member).2 rfl

/-! ## Literals and statements -/

theorem clean_append
    {front back : String}
    (frontClean : Clean front.toList)
    (backClean : Clean back.toList) :
    Clean (front ++ back).toList := by
  rw [String.toList_append]
  exact frontClean.append backClean

theorem clean_property
    {key value : String}
    (keyClean : Clean key.toList)
    (clean : Clean value.toList) :
    Clean (property key value).toList :=
  clean_append (clean_append keyClean (by decide)) clean

theorem clean_entryLines
    {inner : String}
    {entries : List Entry}
    (innerClean : Clean inner.toList)
    (clean : ∀ entry ∈ entries, Clean entry.text.toList) :
    ∀ line ∈ layout.entryLines inner entries, Clean line.toList := by
  induction entries with
  | nil => exact fun _ isLine => absurd isLine List.not_mem_nil
  | cons entry entries entriesHypothesis =>
    intro line isLine
    rw [entryLines] at isLine
    rcases List.mem_cons.1 isLine with rfl | later
    · have own := clean_append innerClean (clean entry List.mem_cons_self)
      split
      · exact own
      · split
        · exact clean_append own (by decide)
        · exact own
    · exact entriesHypothesis
        (fun other member => clean other (List.mem_cons_of_mem _ member))
        line later

theorem clean_block
    {opening closing : String}
    {entries : List Entry}
    (level : Int)
    (opens : Clean opening.toList)
    (closes : Clean closing.toList)
    (clean : ∀ entry ∈ entries, Clean entry.text.toList) :
    Clean (layout.block opening closing entries level).toList := by
  have between : Clean "\n".toList := by decide
  have lines := Clean.intercalate between
    (layout.clean_entryLines (layout.clean_indent (level + 1)) clean)
  unfold block
  refine clean_append (clean_append (clean_append (clean_append
    (clean_append opens (by decide)) lines) (by decide))
    (layout.clean_indent level)) closes

theorem clean_object
    {entries : List Entry}
    (level : Int)
    (clean : ∀ entry ∈ entries, Clean entry.text.toList) :
    Clean (layout.object entries level).toList := by
  unfold object
  split
  · decide
  · exact layout.clean_block level (by decide) (by decide) clean

theorem clean_array
    {items : List String}
    (level : Int)
    (clean : ∀ item ∈ items, Clean item.toList) :
    Clean (layout.array items level).toList := by
  unfold array
  split
  · refine layout.clean_block level (by decide) (by decide) fun entry isEntry => ?_
    obtain ⟨item, isItem, rfl⟩ := List.mem_map.1 isEntry
    exact clean item isItem
  · exact clean_append (clean_append (by decide)
      (Clean.intercalate (by decide) clean)) (by decide)

theorem clean_statement
    {text : String}
    {comments : List String}
    (clean : Clean text.toList)
    (commentsClean : ∀ comment ∈ comments, Clean comment.toList) :
    Clean (statement text comments).toList := by
  refine Clean.intercalate (by decide) fun part isPart => ?_
  rcases List.mem_append.1 isPart with isComment | isText
  · exact commentsClean part isComment
  · rw [List.mem_singleton.1 isText]
    split
    · exact clean
    · exact clean_append clean (by decide)

end Layout

namespace Story

variable (options : Options) {m : Module}

/-! ## Exports -/

/-- No text of some nodes has a carriage return by itself. -/
def AllClean (m : Module) (nodes : List Node) : Prop :=
  ∀ node ∈ nodes, Clean (m.text node).toList

theorem AllClean.map_text
    {nodes : List Node}
    (clean : AllClean m nodes) :
    ∀ text ∈ nodes.map m.text, Clean text.toList := by
  intro text isText
  obtain ⟨node, isNode, rfl⟩ := List.mem_map.1 isText
  exact clean node isNode

theorem clean_memberObject
    {members : List Member}
    (clean : AllClean m (members.map (·.node))) :
    Clean (memberObject options m members).toList := by
  refine options.layout.clean_object 1 fun entry isEntry => ?_
  obtain ⟨member, isMember, rfl⟩ := List.mem_map.1 isEntry
  have own := options.layout.clean_node 2
    (clean member.node (List.mem_map_of_mem isMember))
  unfold memberEntry
  simp only
  split
  · exact Layout.clean_append (by decide) own
  · exact own

theorem clean_defaultExport
    {metadata : Metadata}
    (decorators : AllClean m metadata.decorators)
    (parameters : AllClean m (metadata.parameters.map (·.node)))
    (comments : AllClean m metadata.comments) :
    Clean (defaultExport options m metadata).toList := by
  unfold defaultExport
  refine Layout.clean_statement (Layout.clean_append (by decide)
    (options.layout.clean_object 0 fun entry isEntry => ?_)) comments.map_text
  obtain ⟨text, isText, rfl⟩ := List.mem_map.1 isEntry
  simp only [List.mem_cons, List.mem_append, List.cons_append] at isText
  rcases isText with rfl | (isDecorators | isParameters) | isExcluded
  · exact Layout.clean_property (by decide) (options.layout.clean_string _)
  · split at isDecorators
    · contradiction
    · rw [List.mem_singleton.1 isDecorators]
      refine Layout.clean_property (by decide)
        (options.layout.clean_array 1 fun item isItem => ?_)
      obtain ⟨decorator, isDecorator, rfl⟩ := List.mem_map.1 isItem
      exact options.layout.clean_node 2 (decorators decorator isDecorator)
  · split at isParameters
    · contradiction
    · rw [List.mem_singleton.1 isParameters]
      exact Layout.clean_property (by decide)
        (clean_memberObject options parameters)
  · split at isExcluded
    · contradiction
    · rw [List.mem_singleton.1 isExcluded]
      refine Layout.clean_property (by decide)
        (options.layout.clean_array 1 fun item isItem => ?_)
      obtain ⟨name, -, rfl⟩ := List.mem_map.1 isItem
      exact options.layout.clean_string name

theorem clean_ownMembers
    {story : NamedEntry}
    (own : AllClean m
      (ownNodes (story.entry.parameters, story.entry.decorators))) :
    ∀ text ∈ ownMembers options m story, Clean text.toList := by
  intro text isText
  unfold ownMembers at isText
  unfold ownNodes at own
  simp only [List.mem_append] at isText
  rcases isText with (isName | isParameters) | isDecorators
  · split at isName
    · rw [List.mem_singleton.1 isName]
      exact Layout.clean_property (by decide) (options.layout.clean_string _)
    · contradiction
  · cases parametersEq : story.entry.parameters with
    | none =>
      rw [parametersEq] at isParameters
      contradiction
    | some parameters =>
      rw [parametersEq] at isParameters own
      have kept : AllClean m parameters.nodes := fun node isNode =>
        own node (List.mem_append_left _ (List.mem_flatMap.2
          ⟨parameters, Option.mem_toList.2 rfl, isNode⟩))
      cases parameters with
      | asWritten expression =>
        rw [List.mem_singleton.1 isParameters]
        exact Layout.clean_property (by decide) (options.layout.clean_node 1
          (kept expression (List.mem_singleton_self _)))
      | members members =>
        rw [List.mem_singleton.1 isParameters]
        exact Layout.clean_property (by decide)
          (clean_memberObject options kept)
  · cases decoratorsEq : story.entry.decorators with
    | none =>
      rw [decoratorsEq] at isDecorators
      contradiction
    | some decorators =>
      rw [decoratorsEq] at isDecorators own
      rw [List.mem_singleton.1 isDecorators]
      exact Layout.clean_property (by decide) (options.layout.clean_node 1
        (own decorators (List.mem_append_right _ (List.mem_singleton_self _))))

theorem clean_storyExport
    {story : NamedEntry}
    (property : Clean options.storyProperty.toList)
    (identifier : Clean story.identifier.toList)
    (render : Clean (m.text story.entry.render).toList)
    (own : AllClean m
      (ownNodes (story.entry.parameters, story.entry.decorators)))
    (comments : AllClean m story.entry.comments) :
    Clean (storyExport options m story).toList := by
  have begins : Clean "export const ".toList := by decide
  have equals : Clean " = ".toList := by decide
  have declaration := Layout.clean_statement
    (Layout.clean_append (Layout.clean_append (Layout.clean_append
      begins identifier) equals)
      (options.layout.clean_node 0 render)) comments.map_text
  have members := clean_ownMembers options own
  unfold storyExport
  simp only
  split
  · exact declaration
  · refine Layout.clean_append (Layout.clean_append declaration (by decide))
      (Layout.clean_statement (Layout.clean_append (Layout.clean_append
        (Layout.clean_append (Layout.clean_append identifier (by decide))
          property) (by decide)) (options.layout.clean_object 0
          fun entry isEntry => ?_)) fun _ isComment =>
          absurd isComment List.not_mem_nil)
    obtain ⟨text, isText, rfl⟩ := List.mem_map.1 isEntry
    exact members text isText

theorem clean_identifier
    {inUse : NamePool}
    {entries : List Entry}
    {story : NamedEntry}
    (isStory : story ∈ named inUse entries) :
    Clean story.identifier.toList := by
  obtain ⟨pair, isPair, rfl⟩ := List.mem_map.1 isStory
  obtain ⟨name, -, count, identifierEq⟩ :=
    NamePool.eq_prefixed_of_mem_claimStories (List.of_mem_zip isPair).2
  refine .of_free fun member => ?_
  rw [identifierEq, NamePool.toList_prefixed] at member
  rcases List.mem_append.1 member with isUnderscore | isOwn
  · exact absurd (List.eq_of_mem_replicate isUnderscore) (by decide)
  · exact absurd (StoryName.isWordText_identifierOf name _ isOwn) (by decide)

theorem clean_assembled
    {metadata : Metadata}
    {entries : List Entry}
    (inUse : NamePool)
    (property : Clean options.storyProperty.toList)
    (copied : AllClean m (copies metadata entries))
    (sharedComments : AllClean m metadata.comments)
    (comments : ∀ entry ∈ entries, AllClean m entry.comments) :
    Clean (assembled options m metadata (named inUse entries)).toList := by
  refine Clean.intercalate (by decide) fun text isText => ?_
  rcases List.mem_cons.1 isText with rfl | isExport
  · refine clean_defaultExport options (fun node isNode => copied node ?_)
      (fun node isNode => copied node ?_) sharedComments
    · exact List.mem_append_left _ (List.mem_append_left _ isNode)
    · exact List.mem_append_left _ (List.mem_append_right _ isNode)
  · obtain ⟨story, isStory, rfl⟩ := List.mem_map.1 isExport
    have isEntry : story.entry ∈ entries := by
      rw [← map_entry_named inUse entries]
      exact List.mem_map_of_mem isStory
    have own (node : Node) (isNode : node ∈ story.entry.render ::
        ownNodes (story.entry.parameters, story.entry.decorators)) :
        Clean (m.text node).toList :=
      copied node (List.mem_append_right _
        (List.mem_flatMap.2 ⟨story.entry, isEntry, isNode⟩))
    exact clean_storyExport options property (clean_identifier isStory)
      (own _ List.mem_cons_self)
      (fun node isNode => own node (List.mem_cons_of_mem _ isNode))
      (comments _ isEntry)

/-! ## The line of the title -/

/-- The line of generated code that holds the title. -/
def titleLine (title : Text) (comma : String) : String :=
  options.layout.indent 1 ++
    Layout.property "title" (options.layout.string title) ++ comma

theorem shows_block_first
    (layout : Layout)
    (opening closing text : String)
    (entries : List StoryMigration.Entry)
    (level : Int) :
    ∃ comma ∈ ["", ","],
      Shows (layout.block opening closing (⟨text, false⟩ :: entries) level)
        (opening ++ "\n" ++ (layout.indent (level + 1) ++ text ++ comma) ++
          "\n") := by
  have lines : ∃ comma ∈ ["", ","],
      layout.entryLines (layout.indent (level + 1)) (⟨text, false⟩ :: entries) =
        (layout.indent (level + 1) ++ text ++ comma) ::
          layout.entryLines (layout.indent (level + 1)) entries := by
    rw [Layout.entryLines]
    simp only [Bool.false_eq_true, if_false]
    split
    · exact ⟨",", by simp, rfl⟩
    · exact ⟨"", by simp, by rw [String.append_empty]⟩
  obtain ⟨comma, isComma, linesEq⟩ := lines
  refine ⟨comma, isComma, ?_⟩
  unfold Layout.block
  rw [linesEq]
  generalize layout.indent (level + 1) ++ text ++ comma = line
  by_cases isLast : layout.entryLines (layout.indent (level + 1)) entries = []
  · rw [isLast, String.intercalate_singleton]
    exact ((Shows.refl _).append_right _).append_right _
  · rw [String.intercalate_cons_of_ne_nil isLast, ← String.append_assoc,
      ← String.append_assoc]
    exact ((((Shows.refl _).append_right _).append_right _).append_right
      _).append_right _

/-- Generated code has a line for the title. -/
theorem shows_titleLine
    (metadata : Metadata)
    (stories : List NamedEntry) :
    ∃ comma ∈ ["", ","],
      Shows (assembled options m metadata stories)
        ("\x7b\n" ++ titleLine options metadata.title comma ++ "\n") := by
  obtain ⟨comma, isComma, shows⟩ := shows_block_first options.layout "\x7b" "\x7d"
    (Layout.property "title" (options.layout.string metadata.title)) _ 0
  refine ⟨comma, isComma, ?_⟩
  unfold assembled
  refine Shows.intercalate List.mem_cons_self ?_
  unfold defaultExport
  refine Layout.shows_statement _ (Shows.append_left _ ?_)
  exact shows

end Story

namespace Migration

open Chain Fallible Story

variable
  {options : Options}
  {m : Module}
  {located : Located}
  {fragment : Fragment}
  {code : String}
  {count : Nat}

/-- The texts of a chain that are copied have no carriage return by itself. -/
structure CopiesClean (m : Module) (fragment : Fragment) : Prop where
  kept : ∀ expression, Kept m fragment expression →
    Clean (m.text expression).toList
  comments : ∀ link ∈ fragment.links, AllClean m link.comments

/-- The code that is written for a chain has a line for the title. -/
theorem exists_titleLine_of_generated
    (written : generated options m located fragment = .ok (code, count)) :
    ∃ text, code = (Newline.ofText m.source.toList).spread text ∧
      ∃ comma ∈ ["", ","], Shows text ("\x7b\n" ++
        titleLine options fragment.title comma ++ "\n") := by
  unfold generated at written
  simp only [bind_eq_ok, pure_eq_ok, Prod.mk.injEq] at written
  obtain ⟨metadata, metadataRead, entries, entriesRead, codeEq, -⟩ := written
  unfold Metadata.ofFragment at metadataRead
  simp only [bind_eq_ok, pure_eq_ok] at metadataRead
  obtain ⟨parameters, -, rfl⟩ := metadataRead
  exact ⟨_, codeEq.symm, shows_titleLine options _ _⟩

/-- The code that is written for a chain is, up to its line endings, a text
without a carriage return by itself. -/
theorem exists_clean_of_generated
    (property : '\r' ∉ options.storyProperty.toList)
    (copied : CopiesClean m fragment)
    (written : generated options m located fragment = .ok (code, count)) :
    ∃ text, code = (Newline.ofText m.source.toList).spread text ∧
      Clean text.toList := by
  unfold generated at written
  simp only [bind_eq_ok, pure_eq_ok, Prod.mk.injEq] at written
  obtain ⟨metadata, metadataRead, entries, entriesRead, codeEq, -⟩ := written
  have kept : AllClean m (copies metadata entries) := fun node isCopy =>
    copied.kept node ((mem_copies_iff metadataRead entriesRead).1 isCopy)
  have ownComments : AllClean m metadata.comments := by
    unfold Metadata.ofFragment at metadataRead
    simp only [bind_eq_ok, pure_eq_ok] at metadataRead
    obtain ⟨parameters, -, rfl⟩ := metadataRead
    intro comment isComment
    obtain ⟨link, isLink, isComment⟩ :=
      List.mem_flatMap.1 (List.mem_mergeSort.1 isComment)
    refine copied.comments link ?_ comment isComment
    rcases List.mem_append.1 isLink with isDecorator | isParameters
    · exact (List.mem_filter.1 isDecorator).1
    · exact (List.mem_filter.1 isParameters).1
  have comments : ∀ entry ∈ entries, AllClean m entry.comments := by
    intro entry isEntry
    unfold ofFragment at entriesRead
    simp only [bind_eq_ok, pure_eq_ok] at entriesRead
    obtain ⟨stories, storiesRead, rfl⟩ := entriesRead
    obtain ⟨story, isStory, storyEq⟩ := List.mem_filterMap.1 isEntry
    obtain ⟨link, isLink, read⟩ := mem_of_mapM storiesRead isStory
    have same : story = some entry := storyEq
    rw [same, ofLink_eq_some_iff] at read
    rw [read.comments]
    exact copied.comments link (List.mem_filter.1 isLink).1
  exact ⟨_, codeEq.symm, clean_assembled options _ (.of_free property) kept
    ownComments comments⟩

end Migration
end StoryMigration
