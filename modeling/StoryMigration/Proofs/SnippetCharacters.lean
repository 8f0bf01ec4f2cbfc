import StoryMigration.Proofs.GeneratedSnippets
import StoryMigration.Proofs.ParsedStatements
import StoryMigration.Proofs.StrictDecoding

/-!
# Characters of generated code

Generated code has line ends of its own only between its words and marks, and
the NUL character only if a title or a name has it.
-/

namespace StoryMigration

open Syntax

/-! ## The NUL character -/

/-- No text of a node holds the NUL character. -/
def Syntax.Module.NulFree (m : Module) : Prop :=
  ∀ node, '\x00' ∉ (m.text node).toList

/-- A value without the code point zero. -/
def Text.NulFree (value : Text) : Prop := ∀ p ∈ value, p.value ≠ 0

instance (value : Text) : Decidable value.NulFree :=
  inferInstanceAs (Decidable (∀ p ∈ value, p.value ≠ 0))

/-- A module that parses has no text with the NUL character. -/
theorem Syntax.Module.nulFree_of_parse?
    {dialect : Dialect}
    {source : String}
    {m : Module}
    (parsed : Module.parse? dialect source = some m) :
    m.NulFree := by
  obtain ⟨tree, parsedTree, rfl⟩ := Option.map_eq_some_iff.1 parsed
  have noNul : '\x00' ∉ source.toList := by
    simpa using noNul_of_parse? parsedTree
  intro node member
  apply noNul
  unfold Module.text Module.slice Utf8.toString? at member
  cases read : Utf8.decode? (node.span.bytes (Utf8.ofString source)) with
  | none =>
    rw [read] at member
    exact absurd member List.not_mem_nil
  | some chars =>
    rw [read, Option.map_some, Option.getD_some, String.toList_ofList] at member
    have inSpan := (Utf8.mem_encode_iff (c := '\x00') rfl (by decide) _).2 member
    rw [Utf8.encode_of_decode? read] at inSpan
    have inSource : (0 : UInt8) ∈ Utf8.ofString source :=
      List.mem_of_mem_drop (List.mem_of_mem_take inSpan)
    exact (Utf8.mem_encode_iff (c := '\x00') rfl (by decide) _).1 inSource

/-! ## Copied texts -/

theorem mem_intercalate
    {lines : List (List Char)}
    {c : Char} :
    (∃ line ∈ lines, c ∈ line) → c ∈ ['\n'].intercalate lines := by
  rintro ⟨line, isLine, member⟩
  induction lines with
  | nil => contradiction
  | cons first lines linesHypothesis =>
    cases lines with
    | nil =>
      rw [List.intercalate_singleton, ← List.mem_singleton.1 isLine]
      exact member
    | cons next lines =>
      rw [List.intercalate_cons_cons]
      rcases List.mem_cons.1 isLine with rfl | later
      · exact List.mem_append_left _ (List.mem_append_left _ member)
      · exact List.mem_append_right _ (linesHypothesis later)

theorem exists_of_mem_intercalate
    {lines : List (List Char)}
    {c : Char}
    (member : c ∈ ['\n'].intercalate lines) :
    c = '\n' ∨ ∃ line ∈ lines, c ∈ line := by
  induction lines with
  | nil => contradiction
  | cons first lines linesHypothesis =>
    cases lines with
    | nil =>
      rw [List.intercalate_singleton] at member
      exact .inr ⟨first, List.mem_singleton_self _, member⟩
    | cons next lines =>
      rw [List.intercalate_cons_cons, List.mem_append, List.mem_append,
        List.mem_singleton] at member
      rcases member with (isFirst | isFeed) | later
      · exact .inr ⟨first, List.mem_cons_self, isFirst⟩
      · exact .inl isFeed
      · exact (linesHypothesis later).imp_right fun ⟨line, isLine, inLine⟩ =>
          ⟨line, List.mem_cons_of_mem _ isLine, inLine⟩

namespace Layout

variable (layout : Layout)

theorem mem_movedLine
    {base indent line : List Char}
    {c : Char}
    (member : c ∈ movedLine base indent line) :
    c ∈ indent ∨ c ∈ line := by
  unfold movedLine at member
  split at member
  · contradiction
  · split at member
    · rename_i rest found
      rcases List.mem_append.1 member with isIndent | isRest
      · exact .inl isIndent
      · rw [Lexeme.eq_append_of_after? found]
        exact .inr (List.mem_append_right _ isRest)
    · rcases List.mem_append.1 member with isIndent | isRest
      · exact .inl isIndent
      · exact .inr ((List.dropWhile_sublist _).subset isRest)

theorem mem_movedLines
    {base line text : List Char}
    {level : Int}
    {c : Char}
    (isLine : line ∈ movedLines base (layout.indent level).toList text)
    (member : c ∈ line) :
    c ∈ text ∨ c = ' ' := by
  have own
      {line : List Char}
      (isOwn : line ∈ linesOf text)
      (inLine : c ∈ line) :
      c ∈ text := by
    rw [← intercalate_linesOf text]
    exact mem_intercalate ⟨line, isOwn, inLine⟩
  unfold movedLines at isLine
  split at isLine
  · contradiction
  · rename_i first rest linesEq
    rcases List.mem_cons.1 isLine with rfl | moved
    · exact .inl (own (by rw [linesEq]; exact List.mem_cons_self) member)
    · obtain ⟨old, isOld, rfl⟩ := List.mem_map.1 moved
      rcases mem_movedLine member with isIndent | isOwn
      · rw [indent, String.toList_ofList] at isIndent
        exact .inr (List.eq_of_mem_replicate isIndent)
      · exact .inl (own (by rw [linesEq]; exact List.mem_cons_of_mem _ isOld)
          isOwn)

/-- What is copied has the characters of the node, spaces and line feeds. -/
theorem mem_node
    {m : Module}
    {node : Node}
    {level : Int}
    {c : Char}
    (member : c ∈ (layout.node m node level).toList) :
    c ∈ (m.text node).toList ∨ c = ' ' ∨ c = '\n' := by
  unfold Layout.node at member
  simp only at member
  split at member
  · exact .inl member
  · generalize linesEq : movedLines (m.lineIndent node).toList
      (layout.indent level).toList (m.text node).toList = lines at member
    have asLists : lines.map (String.toList ∘ String.ofList) = lines := by
      simp
    rw [String.toList_intercalate, List.map_map, asLists] at member
    rcases exists_of_mem_intercalate member with isFeed | ⟨line, isLine, inLine⟩
    · exact .inr (.inr isFeed)
    · rw [← linesEq] at isLine
      exact (layout.mem_movedLines isLine inLine).imp_right .inl

end Layout

/-! ## Snippets -/

namespace Snippet

/-- A snippet without the NUL character whose line ends are its own: no line
ends in what is not copied, and none that what is in front of it goes on
with. -/
structure IsClear (snippet : Snippet) : Prop where
  gap : snippet.gap.getLast? ≠ some '\r'
  own : snippet.manner.isNone = true →
    ∀ c ∈ snippet.text, c ≠ '\n' ∧ c ≠ '\r'
  gapNul : '\x00' ∉ snippet.gap
  textNul : '\x00' ∉ snippet.text

/-- All of some snippets are clear. -/
def AllClear (snippets : List Snippet) : Prop :=
  ∀ snippet ∈ snippets, snippet.IsClear

theorem allClear_nil : AllClear [] :=
  fun _ member => absurd member List.not_mem_nil

theorem AllClear.cons
    {snippet : Snippet}
    {more : List Snippet}
    (first : snippet.IsClear)
    (rest : AllClear more) :
    AllClear (snippet :: more) := by
  intro other member
  rcases List.mem_cons.1 member with rfl | later
  · exact first
  · exact rest other later

theorem AllClear.append
    {front back : List Snippet}
    (frontClear : AllClear front)
    (backClear : AllClear back) :
    AllClear (front ++ back) :=
  fun snippet member => (List.mem_append.1 member).elim
    (frontClear snippet) (backClear snippet)

/-- What stands in front of snippets is put in front of the first of them. -/
theorem AllClear.lead
    {front : List Char}
    {snippets : List Snippet}
    (last : front.getLast? ≠ some '\r')
    (noNul : '\x00' ∉ front)
    (clear : AllClear snippets) :
    AllClear (lead front snippets) := by
  cases snippets with
  | nil => exact clear
  | cons snippet more =>
    have first := clear snippet List.mem_cons_self
    refine .cons ⟨?_, first.own, ?_, first.textNul⟩ fun other member =>
      clear other (List.mem_cons_of_mem _ member)
    · rw [List.getLast?_append]
      cases ends : snippet.gap.getLast? with
      | none => exact last
      | some c =>
        rw [Option.some_or, ← ends]
        exact first.gap
    · rw [List.mem_append, not_or]
      exact ⟨noNul, first.gapNul⟩

/-- A text without characters of line ends and the NUL character. -/
def IsPlainText (text : List Char) : Prop :=
  ∀ c ∈ text, c ≠ '\n' ∧ c ≠ '\r' ∧ c ≠ '\x00'

instance (text : List Char) : Decidable (IsPlainText text) :=
  decidable_of_iff
    (text.all (fun c => c != '\n' && c != '\r' && c != '\x00') = true)
    (by simp [IsPlainText, and_assoc])

/-- A word or a mark without line ends, behind a gap. -/
theorem isClear_own
    {gap text : List Char}
    (last : gap.getLast? ≠ some '\r')
    (gapNul : '\x00' ∉ gap)
    (own : IsPlainText text) :
    IsClear ⟨gap, text, none⟩ where
  gap := last
  own _ c member := ⟨(own c member).1, (own c member).2.1⟩
  gapNul := gapNul
  textNul member := (own _ member).2.2 rfl

theorem isClear_mark
    {text : String}
    (own : IsPlainText text.toList) :
    IsClear (mark text) :=
  isClear_own (by decide) (by decide) own

theorem isClear_copy
    {text : String}
    (manner : Manner)
    (noNul : '\x00' ∉ text.toList) :
    IsClear (copy manner text) where
  gap := by
    show [].getLast? ≠ some '\r'
    decide
  own impossible := absurd impossible Bool.false_ne_true
  gapNul := List.not_mem_nil
  textNul := noNul

/-! ### Literals -/

theorem allClear_slotsBehind
    {closing : Snippet}
    {comma : Bool}
    {items : List (List Snippet)}
    (closingClear : closing.IsClear)
    (clear : ∀ item ∈ items, AllClear item) :
    AllClear (slotsBehind closing comma items) := by
  have isComma : IsClear (mark ",") := isClear_mark (by decide)
  induction items with
  | nil =>
    unfold slotsBehind
    split
    · exact .cons isComma (.cons closingClear allClear_nil)
    · exact .cons closingClear allClear_nil
  | cons item items itemsHypothesis =>
    exact .cons isComma ((clear item List.mem_cons_self).append
      (itemsHypothesis fun other member =>
        clear other (List.mem_cons_of_mem _ member)))

theorem allClear_slotted
    {closing : Snippet}
    {comma : Bool}
    {items : List (List Snippet)}
    (closingClear : closing.IsClear)
    (clear : ∀ item ∈ items, AllClear item) :
    AllClear (slotted closing comma items) := by
  cases items with
  | nil => exact .cons closingClear allClear_nil
  | cons item items =>
    exact (clear item List.mem_cons_self).append
      (allClear_slotsBehind closingClear fun other member =>
        clear other (List.mem_cons_of_mem _ member))

/-- A line without the NUL character whose snippets are clear. -/
def Slot.IsClear : Slot → Prop
  | note text => '\x00' ∉ text.toList
  | filled item => AllClear item

/-- A line feed and an indent end a gap. -/
theorem isGap_line
    (layout : Layout)
    (level : Int)
    {gap : List Char}
    (noNul : '\x00' ∉ gap) :
    (gap ++ '\n' :: (layout.indent level).toList).getLast? ≠ some '\r' ∧
      '\x00' ∉ gap ++ '\n' :: (layout.indent level).toList := by
  have blank : ∀ c ∈ '\n' :: (layout.indent level).toList,
      c = '\n' ∨ c = ' ' := by
    intro c member
    rcases List.mem_cons.1 member with rfl | isIndent
    · exact .inl rfl
    · rw [Layout.indent, String.toList_ofList] at isIndent
      exact .inr (List.eq_of_mem_replicate isIndent)
  refine ⟨fun isLast => ?_, fun member => ?_⟩
  · rw [List.getLast?_append_of_ne_nil _ (List.cons_ne_nil _ _)] at isLast
    rcases blank _ (List.mem_of_getLast? isLast) with same | same <;>
      exact absurd same (by decide)
  · rcases List.mem_append.1 member with inGap | isBlank
    · exact noNul inGap
    · rcases blank _ isBlank with same | same <;> exact absurd same (by decide)

section Literals

variable (layout : Layout)

theorem allClear_gathered
    {level : Int}
    {slots : List Slot}
    (clear : ∀ slot ∈ slots, slot.IsClear)
    {gap : List Char}
    (noNul : '\x00' ∉ gap) :
    (∀ item ∈ gathered (layout.indent level).toList gap slots,
        AllClear item) ∧
      '\x00' ∉ gapBehind (layout.indent level).toList gap slots := by
  induction slots generalizing gap with
  | nil => exact ⟨fun _ member => absurd member List.not_mem_nil, noNul⟩
  | cons slot slots slotsHypothesis =>
    have rest := fun other member =>
      clear other (List.mem_cons_of_mem slot member)
    have first := clear slot List.mem_cons_self
    obtain ⟨last, lineNul⟩ := isGap_line layout level noNul
    cases slot with
    | note text =>
      refine slotsHypothesis rest ?_
      rw [← List.append_assoc, List.mem_append, not_or]
      exact ⟨lineNul, first⟩
    | filled item =>
      obtain ⟨behind, gapNul⟩ := slotsHypothesis rest List.not_mem_nil
      refine ⟨fun other member => ?_, gapNul⟩
      rcases List.mem_cons.1 member with rfl | later
      · exact AllClear.lead last lineNul first
      · exact behind other later

theorem allClear_block
    {opening closing : String}
    {slots : List Slot}
    (level : Int)
    (opens : IsPlainText opening.toList)
    (closes : IsPlainText closing.toList)
    (clear : ∀ slot ∈ slots, slot.IsClear) :
    AllClear (block layout opening closing slots level) := by
  have noGap : '\x00' ∉ ([] : List Char) := List.not_mem_nil
  obtain ⟨items, gapNul⟩ := allClear_gathered layout clear noGap
  obtain ⟨last, noNul⟩ := isGap_line layout level gapNul
  exact .cons (isClear_mark opens)
    (allClear_slotted (isClear_own last noNul closes) items)

theorem allClear_objectLiteral
    {slots : List Slot}
    (level : Int)
    (clear : ∀ slot ∈ slots, slot.IsClear) :
    AllClear (objectLiteral layout slots level) := by
  unfold objectLiteral
  split
  · exact .cons (isClear_mark (by decide)) (allClear_slotted
      (isClear_mark (by decide)) fun _ member => absurd member List.not_mem_nil)
  · exact allClear_block layout level (by decide) (by decide) clear

theorem allClear_arrayLiteral
    {items : List (List Snippet)}
    (level : Int)
    (clear : ∀ item ∈ items, AllClear item) :
    AllClear (arrayLiteral layout items level) := by
  unfold arrayLiteral
  split
  · refine allClear_block layout level (by decide) (by decide) fun slot isSlot => ?_
    obtain ⟨item, isItem, rfl⟩ := List.mem_map.1 isSlot
    exact clear item isItem
  · refine .cons (isClear_mark (by decide)) (allClear_slotted
      (isClear_mark (by decide)) fun item isItem => ?_)
    cases items with
    | nil => contradiction
    | cons first items =>
      rcases List.mem_cons.1 isItem with rfl | later
      · exact clear _ List.mem_cons_self
      · obtain ⟨own, isOwn, rfl⟩ := List.mem_map.1 later
        exact (clear own (List.mem_cons_of_mem _ isOwn)).lead (by decide)
          (by decide)

theorem allClear_valueLiteral
    {value : Text}
    (noNul : value.NulFree) :
    AllClear (valueLiteral layout value) := by
  refine .cons (isClear_mark fun c member => ?_) allClear_nil
  obtain ⟨noFeed, noReturn⟩ := layout.string_noLineEnd member
  refine ⟨noFeed, noReturn, ?_⟩
  rintro rfl
  obtain ⟨p, isPoint, isZero⟩ := layout.nul_mem_string_iff.1 member
  exact noNul p isPoint isZero

theorem allClear_keyed
    {key : String}
    {value : List Snippet}
    (keyClear : IsPlainText key.toList)
    (clear : AllClear value) :
    AllClear (keyed key value) :=
  .cons (isClear_mark keyClear) (.cons (isClear_mark (by decide))
    (clear.lead (by decide) (by decide)))

end Literals
end Snippet

/-! ## Statements -/

namespace Layout

theorem mem_openText
    {text : String}
    {c : Char}
    (member : c ∈ (openText text).toList) :
    c ∈ text.toList := by
  unfold openText at member
  split at member
  · rw [String.toList_ofList] at member
    exact List.dropLast_subset _ member
  · exact member

/-- What is copied from a module without the NUL character does not have it. -/
theorem nul_not_mem_node
    (layout : Layout)
    {m : Module}
    (nulFree : m.NulFree)
    (node : Node)
    (level : Int) :
    '\x00' ∉ (layout.node m node level).toList := by
  intro member
  rcases layout.mem_node member with isOwn | isSpace | isFeed
  · exact nulFree node isOwn
  · exact absurd isSpace (by decide)
  · exact absurd isFeed (by decide)

end Layout

namespace Story

open Snippet

/-- No title and no name that is written as a value has the code point zero. -/
structure NulFreeNames
    (options : Options)
    (metadata : Metadata)
    (stories : List NamedEntry) : Prop where
  title : metadata.title.NulFree
  excluded : ∀ name ∈ metadata.excluded, name.NulFree
  names : ∀ story ∈ stories,
    (options.preserveNames && !story.nameIsRedundant) = true →
      story.entry.name.NulFree

instance
    (options : Options)
    (metadata : Metadata)
    (stories : List NamedEntry) :
    Decidable (NulFreeNames options metadata stories) :=
  decidable_of_iff
    (metadata.title.NulFree ∧ (∀ name ∈ metadata.excluded, name.NulFree) ∧
      ∀ story ∈ stories,
        (options.preserveNames && !story.nameIsRedundant) = true →
          story.entry.name.NulFree)
    ⟨fun ⟨title, excluded, names⟩ => ⟨title, excluded, names⟩,
      fun ⟨title, excluded, names⟩ => ⟨title, excluded, names⟩⟩

/-- A word without characters that break words ends no line. -/
theorem isClear_of_word
    {text : String}
    (isWord : IsWordText text.toList) :
    IsPlainText text.toList := by
  intro c member
  have unbroken := isWord c member
  refine ⟨?_, ?_, ?_⟩
  · rintro rfl
    exact absurd unbroken (by decide)
  · rintro rfl
    exact absurd unbroken (by decide)
  · rintro rfl
    exact absurd unbroken (by decide)

variable (options : Options) {m : Module} (nulFree : m.NulFree)
include nulFree

theorem nul_not_mem_commentLines
    (comments : List Node) :
    '\x00' ∉ (Layout.commentLines (comments.map m.text)).toList := by
  induction comments with
  | nil => exact List.not_mem_nil
  | cons comment comments commentsHypothesis =>
    rw [List.map_cons, Layout.commentLines, String.toList_append,
      String.toList_append, List.mem_append, List.mem_append, not_or, not_or]
    exact ⟨⟨nulFree comment, by decide⟩, commentsHypothesis⟩

theorem isClear_memberSlot
    (depth : Nat)
    (member : Member) :
    (memberSlot options m depth member).IsClear := by
  have copied := options.layout.nul_not_mem_node nulFree member.node 2
  unfold memberSlot
  simp only
  split
  · unfold memberEntry Slot.IsClear
    simp only
    split
    · rw [String.toList_append, List.mem_append, not_or]
      exact ⟨by decide, copied⟩
    · exact copied
  · split
    · exact .cons (isClear_mark (by decide))
        (.cons (isClear_copy _ copied) allClear_nil)
    · exact .cons (isClear_copy _ copied) allClear_nil

theorem allClear_memberSnippets
    (depth : Nat)
    (members : List Member) :
    AllClear (memberSnippets options m depth members) := by
  refine allClear_objectLiteral options.layout 1 fun slot isSlot => ?_
  obtain ⟨member, -, rfl⟩ := List.mem_map.1 isSlot
  exact isClear_memberSlot options nulFree depth member

theorem allClear_copied
    (manner : Manner)
    (node : Node)
    (level : Int) :
    AllClear [copy manner (options.layout.node m node level)] :=
  .cons (isClear_copy _ (options.layout.nul_not_mem_node nulFree node level))
    allClear_nil

theorem allClear_sharedSnippets
    {metadata : Metadata}
    (title : metadata.title.NulFree)
    (excluded : ∀ name ∈ metadata.excluded, name.NulFree) :
    ∀ item ∈ sharedSnippets options m metadata, AllClear item := by
  intro item member
  unfold sharedSnippets at member
  simp only [List.mem_cons, List.mem_append, List.cons_append] at member
  rcases member with rfl | (isDecorators | isParameters) | isExcluded
  · exact allClear_keyed (by decide) (allClear_valueLiteral _ title)
  · split at isDecorators
    · contradiction
    · rw [List.mem_singleton.1 isDecorators]
      refine allClear_keyed (by decide) (allClear_arrayLiteral _ 1 fun item isItem => ?_)
      obtain ⟨node, -, rfl⟩ := List.mem_map.1 isItem
      exact allClear_copied options nulFree _ node 2
  · split at isParameters
    · contradiction
    · rw [List.mem_singleton.1 isParameters]
      exact allClear_keyed (by decide)
        (allClear_memberSnippets options nulFree 5 _)
  · split at isExcluded
    · contradiction
    · rw [List.mem_singleton.1 isExcluded]
      refine allClear_keyed (by decide) (allClear_arrayLiteral _ 1 fun item isItem => ?_)
      obtain ⟨name, isName, rfl⟩ := List.mem_map.1 isItem
      exact allClear_valueLiteral _ (excluded name isName)

theorem allClear_ownSnippets
    {story : NamedEntry}
    (named : (options.preserveNames && !story.nameIsRedundant) = true →
      story.entry.name.NulFree) :
    ∀ item ∈ ownSnippets options m story, AllClear item := by
  intro item member
  unfold ownSnippets at member
  simp only [List.mem_append] at member
  rcases member with (isName | isParameters) | isDecorators
  · split at isName
    · rename_i preserved
      rw [List.mem_singleton.1 isName]
      exact allClear_keyed (by decide)
        (allClear_valueLiteral _ (named preserved))
    · contradiction
  · split at isParameters
    · contradiction
    · rw [List.mem_singleton.1 isParameters]
      exact allClear_keyed (by decide)
        (allClear_memberSnippets options nulFree 7 _)
    · rw [List.mem_singleton.1 isParameters]
      exact allClear_keyed (by decide) (allClear_copied options nulFree _ _ 1)
  · split at isDecorators
    · contradiction
    · rw [List.mem_singleton.1 isDecorators]
      exact allClear_keyed (by decide) (allClear_copied options nulFree _ _ 1)

omit nulFree in
theorem isClear_spacedMark
    {text : String}
    (own : IsPlainText text.toList) :
    IsClear (spacedMark text) :=
  isClear_own (by decide) (by decide) own

omit nulFree in
theorem allClear_valueEnd
    {value : List Snippet}
    (clear : AllClear value) :
    AllClear (valueEnd value) :=
  (clear.lead (by decide) (by decide)).append
    (.cons (isClear_mark (by decide)) allClear_nil)

omit nulFree in
theorem allClear_items
    {items : List (List Snippet)}
    (clear : ∀ item ∈ items, AllClear item) :
    AllClear (objectLiteral options.layout (items.map .filled) 0) := by
  refine allClear_objectLiteral options.layout 0 fun slot isSlot => ?_
  obtain ⟨item, isItem, rfl⟩ := List.mem_map.1 isSlot
  exact clear item isItem

theorem allClear_defaultSnippets
    {metadata : Metadata}
    (title : metadata.title.NulFree)
    (excluded : ∀ name ∈ metadata.excluded, name.NulFree) :
    AllClear (defaultSnippets options m metadata) :=
  .cons (isClear_mark (by decide)) (.cons (isClear_spacedMark (by decide))
    (allClear_valueEnd (allClear_items options
      (allClear_sharedSnippets options nulFree title excluded))))

theorem allClear_exportSnippets
    {story : NamedEntry}
    (isWord : IsWordText story.identifier.toList) :
    AllClear (exportSnippets options m story) := by
  have noNul : '\x00' ∉ (renderText options m story).toList := fun member =>
    options.layout.nul_not_mem_node nulFree story.entry.render 0
      (Layout.mem_openText member)
  exact .cons (isClear_mark (by decide)) (.cons (isClear_spacedMark (by decide))
    (.cons (isClear_spacedMark (isClear_of_word isWord))
      (.cons (isClear_spacedMark (by decide))
        (allClear_valueEnd (.cons (isClear_copy _ noNul) allClear_nil)))))

theorem allClear_annotationSnippets
    {story : NamedEntry}
    (isWord : IsWordText story.identifier.toList)
    (isProperty : IsWordText options.storyProperty.toList)
    (named : (options.preserveNames && !story.nameIsRedundant) = true →
      story.entry.name.NulFree) :
    AllClear (annotationSnippets options m story) :=
  .cons (isClear_mark (isClear_of_word isWord))
    (.cons (isClear_mark (by decide))
      (.cons (isClear_mark (isClear_of_word isProperty))
        (.cons (isClear_spacedMark (by decide))
          (allClear_valueEnd (allClear_items options
            (allClear_ownSnippets options nulFree named))))))

/-- The generated statements are clear if no title and no name has the NUL
character. -/
theorem allClear_codeStatements
    {metadata : Metadata}
    {stories : List NamedEntry}
    (isProperty : IsWordText options.storyProperty.toList)
    (isWord : ∀ story ∈ stories,
      IsWordText story.identifier.toList)
    (names : NulFreeNames options metadata stories) :
    ∀ statement ∈ codeStatements options m metadata stories,
      AllClear statement := by
  intro statement isStatement
  rcases List.mem_cons.1 isStatement with rfl | inStory
  · exact allClear_defaultSnippets options nulFree names.title names.excluded
  · obtain ⟨story, isStory, isPiece⟩ := List.mem_flatMap.1 inStory
    rcases List.mem_cons.1 isPiece with rfl | isPiece
    · exact allClear_exportSnippets options nulFree (isWord story isStory)
    · split at isPiece
      · contradiction
      · rw [List.mem_singleton.1 isPiece]
        exact allClear_annotationSnippets options nulFree (isWord story isStory)
          isProperty (names.names story isStory)

/-- What stands in front of the generated statements has no NUL character. -/
theorem nul_not_mem_front
    {metadata : Metadata}
    {stories : List NamedEntry} :
    ∀ piece ∈ codePieces options m metadata stories,
      '\x00' ∉ piece.front.toList := by
  have comments (nodes : List Node) := nul_not_mem_commentLines nulFree nodes
  intro piece isPiece
  rcases List.mem_cons.1 isPiece with rfl | inStory
  · exact comments _
  · obtain ⟨story, -, isPiece⟩ := List.mem_flatMap.1 inStory
    rcases List.mem_cons.1 isPiece with rfl | isPiece
    · unfold exportPiece
      rw [String.toList_append, List.mem_append, not_or]
      exact ⟨by decide, comments _⟩
    · split at isPiece
      · contradiction
      · rw [List.mem_singleton.1 isPiece]
        show '\x00' ∉ "\n".toList
        decide

end Story

namespace Snippet

/-- Clear snippets hold no NUL character. -/
theorem AllClear.nul_not_mem
    {snippets : List Snippet}
    (clear : AllClear snippets) :
    '\x00' ∉ flat snippets := by
  intro member
  obtain ⟨snippet, isSnippet, member⟩ := List.mem_flatMap.1 member
  rcases List.mem_append.1 member with inGap | inText
  · exact (clear snippet isSnippet).gapNul inGap
  · exact (clear snippet isSnippet).textNul inText

/-- Clear snippets are sound if no copied text ends with a carriage return. -/
theorem IsClear.isSound
    {snippet : Snippet}
    (clear : snippet.IsClear)
    (copied : snippet.manner.isSome = true →
      snippet.text.getLast? ≠ some '\r') :
    snippet.IsSound where
  gap := clear.gap
  text := by
    cases isOwn : snippet.manner with
    | some manner => exact copied (by rw [isOwn]; rfl)
    | none =>
      intro isLast
      exact (clear.own (by rw [isOwn]; rfl) _ (List.mem_of_getLast? isLast)).2
        rfl
  own := clear.own

end Snippet

end StoryMigration
