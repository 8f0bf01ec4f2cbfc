import StoryMigration.Proofs.GeneratedEndings
import StoryMigration.Proofs.ExportPieces
import StoryMigration.Proofs.Snippets

/-!
# Generated statements in snippets

Every literal and every statement of generated code as its words, marks and
copied texts.  Comments and line ends stand in front of the snippet that
follows them.
-/

namespace StoryMigration

open Syntax

namespace Snippet

/-! ## Literals -/

/-- A text that is copied. -/
def copy
    (manner : Manner)
    (text : String) : Snippet :=
  ⟨[], text.toList, some manner⟩

/-- The text that some snippets are. -/
def spelled (snippets : List Snippet) : String := String.ofList (flat snippets)

/-- What follows an item: the others, each behind a comma, and what closes the
literal, perhaps behind a comma, too. -/
def slotsBehind
    (closing : Snippet)
    (comma : Bool) : List (List Snippet) → List Snippet
  | [] => if comma then [mark ",", closing] else [closing]
  | item :: items => mark "," :: (item ++ slotsBehind closing comma items)

/-- Items with commas between them and what closes the literal. -/
def slotted
    (closing : Snippet)
    (comma : Bool) : List (List Snippet) → List Snippet
  | [] => [closing]
  | item :: items => item ++ slotsBehind closing comma items

/-- A line of a literal: a comment or an item. -/
inductive Slot where
  | note (text : String)
  | filled (item : List Snippet)

/-- What is written on a line of a literal. -/
def Slot.entry : Slot → Entry
  | note text => ⟨text, true⟩
  | filled item => ⟨spelled item, false⟩

/-- The items on some lines, each behind its indent and the comments in front of
it. -/
def gathered (inner gap : List Char) : List Slot → List (List Snippet)
  | [] => []
  | .note text :: slots =>
      gathered inner (gap ++ ('\n' :: inner ++ text.toList)) slots
  | .filled item :: slots =>
      lead (gap ++ '\n' :: inner) item :: gathered inner [] slots

/-- The comments on the lines behind the last item. -/
def gapBehind (inner gap : List Char) : List Slot → List Char
  | [] => gap
  | .note text :: slots =>
      gapBehind inner (gap ++ ('\n' :: inner ++ text.toList)) slots
  | .filled _ :: slots => gapBehind inner [] slots

/-- Items of which every one but the first stands behind a space. -/
def spaced : List (List Snippet) → List (List Snippet)
  | [] => []
  | item :: items => item :: items.map (lead [' '])

section Literals

variable (layout : Layout)

/-- A literal over several lines. -/
def block
    (opening closing : String)
    (slots : List Slot)
    (level : Int) : List Snippet :=
  let inner := (layout.indent (level + 1)).toList
  let last := gapBehind inner [] slots ++ '\n' :: (layout.indent level).toList
  mark opening ::
    slotted ⟨last, closing.toList, none⟩ layout.trailingComma
      (gathered inner [] slots)

/-- An object literal. -/
def objectLiteral (slots : List Slot) (level : Int) : List Snippet :=
  if slots.isEmpty then mark "\x7b" :: slotted (mark "\x7d") false []
  else block layout "\x7b" "\x7d" slots level

/-- An array literal. -/
def arrayLiteral (items : List (List Snippet)) (level : Int) : List Snippet :=
  if items.any fun item => (flat item).contains '\n' then
    block layout "[" "]" (items.map .filled) level
  else mark "[" :: slotted (mark "]") false (spaced items)

/-- A string literal. -/
def valueLiteral (value : Text) : List Snippet := [mark (layout.string value)]

/-- A member with its key. -/
def keyed (key : String) (value : List Snippet) : List Snippet :=
  mark key :: mark ":" :: lead [' '] value

end Literals

/-! ### Their texts -/

@[simp] theorem flat_mark_cons
    (text : String)
    (more : List Snippet) :
    flat (mark text :: more) = text.toList ++ flat more := rfl

@[simp] theorem toList_spelled
    (snippets : List Snippet) :
    (spelled snippets).toList = flat snippets :=
  String.toList_ofList

theorem spelled_keyed
    {key : String}
    {value : List Snippet}
    (nonempty : value ≠ []) :
    spelled (keyed key value) = Layout.property key (spelled value) := by
  apply String.toList_injective
  rw [toList_spelled, keyed, flat_mark_cons, flat_mark_cons,
    flat_lead _ nonempty, Layout.property, String.toList_append,
    String.toList_append, toList_spelled, List.append_assoc]
  rfl

theorem spelled_valueLiteral
    (layout : Layout)
    (value : Text) :
    spelled (valueLiteral layout value) = layout.string value := by
  apply String.toList_injective
  rw [toList_spelled, valueLiteral, flat_mark_cons, flat_nil, List.append_nil]

/-- The items of a literal on one line are its items with commas and spaces
between them. -/
theorem flat_slotted_spaced
    {closing : Snippet}
    {items : List (List Snippet)}
    (filled : ∀ item ∈ items, item ≠ []) :
    flat (slotted closing false (spaced items)) =
      (", ".intercalate (items.map spelled)).toList ++ flat [closing] := by
  cases items with
  | nil => rfl
  | cons item items =>
    show flat (item ++ slotsBehind closing false (items.map (lead [' ']))) = _
    rw [flat_append]
    have filledBehind := fun other member =>
      filled other (List.mem_cons_of_mem _ member)
    clear filled
    induction items generalizing item with
    | nil =>
      simp only [List.map_cons, List.map_nil, String.intercalate_singleton,
        toList_spelled]
      rfl
    | cons next items itemsHypothesis =>
      have rest := itemsHypothesis next fun other member =>
        filledBehind other (List.mem_cons_of_mem _ member)
      have nextFilled := filledBehind next List.mem_cons_self
      have texts : (", ".intercalate ((item :: next :: items).map
          spelled)).toList = flat item ++ (", ".toList ++
            (", ".intercalate ((next :: items).map spelled)).toList) := by
        rw [List.map_cons, String.intercalate_cons_of_ne_nil (by simp),
          String.toList_append, String.toList_append, toList_spelled,
          List.append_assoc]
      rw [texts, List.append_assoc, List.append_assoc, ← rest, List.map_cons,
        slotsBehind, flat_mark_cons, flat_append, flat_lead _ nextFilled]
      simp

/-- Lines, each behind a line feed. -/
def below (lines : List String) : List Char :=
  lines.flatMap fun line => '\n' :: line.toList

theorem below_eq
    {lines : List String}
    (nonempty : lines ≠ []) :
    below lines = '\n' :: ("\n".intercalate lines).toList := by
  induction lines with
  | nil => contradiction
  | cons line lines linesHypothesis =>
    by_cases isLast : lines = []
    · rw [isLast, String.intercalate_singleton]
      simp [below]
    · rw [String.intercalate_cons_of_ne_nil isLast, String.toList_append,
        String.toList_append, List.append_assoc]
      have rest := linesHypothesis isLast
      unfold below at rest ⊢
      rw [List.flatMap_cons, rest]
      rfl

/-- The lines of a literal are its items, each behind what stands in front of it,
and the comments behind the last one. -/
theorem flat_gathered
    (layout : Layout)
    (inner closing : String)
    (tail : List Char)
    {slots : List Slot}
    (filled : ∀ item, .filled item ∈ slots → item ≠ [])
    (gap : List Char) :
    flat (slotted ⟨gapBehind inner.toList gap slots ++ tail, closing.toList, none⟩
        layout.trailingComma (gathered inner.toList gap slots)) =
      gap ++ below (layout.entryLines inner (slots.map Slot.entry)) ++
        (tail ++ closing.toList) ∧
    flat (slotsBehind
        ⟨gapBehind inner.toList gap slots ++ tail, closing.toList, none⟩
        layout.trailingComma (gathered inner.toList gap slots)) =
      (if layout.trailingComma || (slots.map Slot.entry).any (!·.isComment)
        then [','] else []) ++
      (gap ++ below (layout.entryLines inner (slots.map Slot.entry)) ++
        (tail ++ closing.toList)) := by
  induction slots generalizing gap with
  | nil =>
    refine ⟨by simp [slotted, gathered, gapBehind, Layout.entryLines, below], ?_⟩
    cases layout.trailingComma <;>
      simp [slotsBehind, gathered, gapBehind, Layout.entryLines, below, mark]
  | cons slot slots slotsHypothesis =>
    have rest := slotsHypothesis fun item member =>
      filled item (List.mem_cons_of_mem _ member)
    cases slot with
    | note text =>
      obtain ⟨first, behind⟩ := rest (gap ++ ('\n' :: inner.toList ++ text.toList))
      have lines : below (layout.entryLines inner
          ((Slot.note text :: slots).map Slot.entry)) =
            ('\n' :: inner.toList ++ text.toList) ++
              below (layout.entryLines inner (slots.map Slot.entry)) := by
        simp [Layout.entryLines, Slot.entry, below]
      rw [lines]
      refine ⟨?_, ?_⟩
      · rw [gathered, gapBehind, first]
        simp only [List.append_assoc]
      · rw [gathered, gapBehind, behind]
        simp [Slot.entry]
    | filled item =>
      have nonempty := filled item List.mem_cons_self
      obtain ⟨-, behind⟩ := rest []
      have lines : below (layout.entryLines inner
          ((Slot.filled item :: slots).map Slot.entry)) =
            ('\n' :: inner.toList ++ flat item) ++
              ((if layout.trailingComma ||
                  (slots.map Slot.entry).any (!·.isComment)
                then [','] else []) ++
              below (layout.entryLines inner (slots.map Slot.entry))) := by
        rw [List.map_cons, Layout.entryLines, below, List.flatMap_cons]
        simp only [Slot.entry, Bool.false_eq_true, if_false]
        split <;> simp [below]
      rw [lines]
      refine ⟨?_, ?_⟩
      · rw [gathered, gapBehind, slotted, flat_append, flat_lead _ nonempty,
          behind]
        simp
      · rw [gathered, gapBehind, slotsBehind, flat_mark_cons, flat_append,
          flat_lead _ nonempty, behind]
        simp [Slot.entry]

theorem entryLines_ne_nil
    (layout : Layout)
    (inner : String)
    {entries : List Entry}
    (nonempty : entries ≠ []) :
    layout.entryLines inner entries ≠ [] := by
  cases entries with
  | nil => contradiction
  | cons entry entries => exact List.cons_ne_nil _ _

theorem spelled_block
    (layout : Layout)
    {opening closing : String}
    {slots : List Slot}
    (level : Int)
    (nonempty : slots ≠ [])
    (filled : ∀ item, .filled item ∈ slots → item ≠ []) :
    spelled (block layout opening closing slots level) =
      layout.block opening closing (slots.map Slot.entry) level := by
  apply String.toList_injective
  have lines := (flat_gathered layout (layout.indent (level + 1)) closing
    ('\n' :: (layout.indent level).toList) filled []).1
  have someEntries : slots.map Slot.entry ≠ [] := by simpa using nonempty
  have someLines :=
    entryLines_ne_nil layout (layout.indent (level + 1)) someEntries
  rw [toList_spelled, block, flat_mark_cons, lines, below_eq someLines,
    Layout.block]
  simp

theorem spelled_objectLiteral
    (layout : Layout)
    {slots : List Slot}
    (level : Int)
    (filled : ∀ item, .filled item ∈ slots → item ≠ []) :
    spelled (objectLiteral layout slots level) =
      layout.object (slots.map Slot.entry) level := by
  unfold objectLiteral Layout.object
  cases slots with
  | nil => rfl
  | cons slot slots =>
    exact spelled_block layout level (List.cons_ne_nil _ _) filled

theorem spelled_arrayLiteral
    (layout : Layout)
    {items : List (List Snippet)}
    (level : Int)
    (filled : ∀ item ∈ items, item ≠ []) :
    spelled (arrayLiteral layout items level) =
      layout.array (items.map spelled) level := by
  have same : (items.map spelled).any (fun item =>
      item.toList.contains '\n') =
        items.any fun item => (flat item).contains '\n' := by
    rw [List.any_map]
    exact List.any_congr rfl fun item => by simp
  unfold arrayLiteral Layout.array
  rw [same]
  split
  · rename_i broken
    have nonempty : items.map Slot.filled ≠ [] := by
      rintro isNil
      rw [List.map_eq_nil_iff.1 isNil] at broken
      contradiction
    have filledSlots : ∀ item, .filled item ∈ items.map Slot.filled →
        item ≠ [] := by
      intro item member
      obtain ⟨own, isOwn, same⟩ := List.mem_map.1 member
      rw [← Slot.filled.inj same]
      exact filled own isOwn
    rw [spelled_block layout level nonempty filledSlots, List.map_map,
      List.map_map]
    rfl
  · apply String.toList_injective
    rw [toList_spelled, flat_mark_cons, flat_slotted_spaced filled,
      String.toList_append, String.toList_append, List.append_assoc]
    rfl

end Snippet

/-! ## Statements -/

namespace Layout

theorem getLast?_object
    (layout : Layout)
    (entries : List Entry)
    (level : Int) :
    (layout.object entries level).toList.getLast? = some '\x7d' := by
  unfold object
  split
  · rfl
  · rw [block, String.toList_append, List.getLast?_append]
    rfl

/-- A text without the semicolon that it may end with. -/
def openText (text : String) : String :=
  if text.toList.getLast? == some ';' then String.ofList text.toList.dropLast
  else text

/-- A statement ends with the semicolon of its text, or with one that its text
gets. -/
theorem toList_statement_eq
    (text : String) :
    (statement text []).toList = (openText text).toList ++ [';'] := by
  unfold statement openText
  rw [List.nil_append, String.intercalate_singleton]
  split
  · rename_i ends
    rw [String.toList_ofList]
    obtain ⟨front, textEq⟩ := List.getLast?_eq_some_iff.1 (beq_iff_eq.1 ends)
    rw [textEq, List.dropLast_concat]
  · rw [String.toList_append]
    rfl

theorem openText_of_ne
    {text : String}
    (isOpen : text.toList.getLast? ≠ some ';') :
    openText text = text := by
  unfold openText
  rw [if_neg (by simpa using isOpen)]

theorem toList_openText_append
    {front : String}
    (isOpen : front.toList.getLast? ≠ some ';')
    (text : String) :
    (openText (front ++ text)).toList =
      front.toList ++ (openText text).toList := by
  by_cases empty : text.toList = []
  · have whole : (front ++ text).toList.getLast? ≠ some ';' := by
      rw [String.toList_append, empty, List.append_nil]
      exact isOpen
    have none : text.toList.getLast? ≠ some ';' := by
      rw [empty]
      decide
    rw [openText_of_ne whole, openText_of_ne none, String.toList_append]
  · unfold openText
    rw [String.toList_append, List.getLast?_append_of_ne_nil _ empty]
    split
    · rw [String.toList_ofList, String.toList_ofList,
        List.dropLast_append_of_ne_nil empty]
    · rw [String.toList_append]

end Layout

namespace Story

open Snippet

variable (options : Options) (m : Module)

/-- A member of a generated object literal. -/
def memberSlot (depth : Nat) (member : Member) : Slot :=
  let text := options.layout.node m member.node 2
  if member.isComment then .note (memberEntry options m 2 member).text
  else if member.spread then
    .filled [mark "...", copy (.value depth .inside) text]
  else .filled [copy (.member depth) text]

/-- An object literal of members. -/
def memberSnippets (depth : Nat) (members : List Member) : List Snippet :=
  objectLiteral options.layout (members.map (memberSlot options m depth)) 1

/-- The members of the default export. -/
def sharedSnippets (metadata : Metadata) : List (List Snippet) :=
  let layout := options.layout
  let decorators :=
    if metadata.decorators.isEmpty then []
    else
      [keyed "decorators" (arrayLiteral layout (metadata.decorators.map fun node =>
        [copy (.item 5) (layout.node m node 2)]) 1)]
  let parameters :=
    if metadata.parameters.isEmpty then []
    else
      [keyed "parameters" (memberSnippets options m 5 metadata.parameters)]
  let excluded :=
    if metadata.excluded.isEmpty then []
    else
      [keyed "excludeStories"
        (arrayLiteral layout (metadata.excluded.map (valueLiteral layout)) 1)]
  keyed "title" (valueLiteral layout metadata.title) :: decorators ++ parameters ++
    excluded

/-- What belongs to a story alone. -/
def ownSnippets (story : NamedEntry) : List (List Snippet) :=
  let layout := options.layout
  let name :=
    if options.preserveNames && !story.nameIsRedundant then
      [keyed "name" (valueLiteral layout story.entry.name)]
    else []
  let parameters :=
    match story.entry.parameters with
    | none => []
    | some (.members members) =>
        [keyed "parameters" (memberSnippets options m 7 members)]
    | some (.asWritten node) =>
        [keyed "parameters" [copy (.value 5 .inside) (layout.node m node 1)]]
  let decorators :=
    match story.entry.decorators with
    | none => []
    | some node =>
        [keyed "decorators" [copy (.value 5 .inside) (layout.node m node 1)]]
  name ++ parameters ++ decorators

/-- A word or a mark behind a space. -/
def spacedMark (text : String) : Snippet := ⟨[' '], text.toList, none⟩

/-- A value behind a space and in front of a semicolon. -/
def valueEnd (value : List Snippet) : List Snippet :=
  lead [' '] value ++ [mark ";"]

/-- The default export. -/
def defaultSnippets (metadata : Metadata) : List Snippet :=
  mark "export" :: spacedMark "default" :: valueEnd
    (objectLiteral options.layout
      ((sharedSnippets options m metadata).map .filled) 0)

/-- The text that a story renders with, up to a semicolon that it may end
with. -/
def renderText (story : NamedEntry) : String :=
  Layout.openText (options.layout.node m story.entry.render 0)

/-- The export of a story. -/
def exportSnippets (story : NamedEntry) : List Snippet :=
  mark "export" :: spacedMark "const" :: spacedMark story.identifier ::
    spacedMark "=" :: valueEnd
      [copy (.value 1 .tail) (renderText options m story)]

/-- The assignment of what belongs to a story alone. -/
def annotationSnippets (story : NamedEntry) : List Snippet :=
  mark story.identifier :: mark "." :: mark options.storyProperty ::
    spacedMark "=" :: valueEnd
      (objectLiteral options.layout
        ((ownSnippets options m story).map .filled) 0)

/-- The statements of a story. -/
def storyStatements (story : NamedEntry) : List (List Snippet) :=
  exportSnippets options m story ::
    if (ownMembers options m story).isEmpty then []
    else [annotationSnippets options m story]

/-- The statements of a chain that is written as exports. -/
def codeStatements
    (metadata : Metadata)
    (stories : List NamedEntry) : List (List Snippet) :=
  defaultSnippets options m metadata ::
    stories.flatMap (storyStatements options m)

/-! ### Their texts -/

theorem objectLiteral_ne_nil
    (layout : Layout)
    (slots : List Slot)
    (level : Int) :
    objectLiteral layout slots level ≠ [] := by
  unfold objectLiteral
  split
  · exact List.cons_ne_nil _ _
  · exact List.cons_ne_nil _ _

theorem arrayLiteral_ne_nil
    (layout : Layout)
    (items : List (List Snippet))
    (level : Int) :
    arrayLiteral layout items level ≠ [] := by
  unfold arrayLiteral
  split
  · exact List.cons_ne_nil _ _
  · exact List.cons_ne_nil _ _

theorem entry_memberSlot
    (depth : Nat)
    (member : Member) :
    (memberSlot options m depth member).entry = memberEntry options m 2 member := by
  unfold memberSlot memberEntry
  cases isComment : member.isComment with
  | true => rfl
  | false =>
    cases spreads : member.spread with
    | true =>
      simp only [Bool.false_eq_true, if_false, if_true, Slot.entry,
        StoryMigration.Entry.mk.injEq, and_true]
      exact String.toList_injective (by simp [copy, mark])
    | false =>
      simp only [Bool.false_eq_true, if_false, Slot.entry,
        StoryMigration.Entry.mk.injEq,
        and_true]
      exact String.toList_injective (by simp [copy])

theorem spelled_memberSnippets
    (depth : Nat)
    (members : List Member) :
    spelled (memberSnippets options m depth members) =
      memberObject options m members := by
  have filled : ∀ item,
      .filled item ∈ members.map (memberSlot options m depth) → item ≠ [] := by
    intro item isSlot
    obtain ⟨member, -, same⟩ := List.mem_map.1 isSlot
    unfold memberSlot at same
    simp only at same
    split at same
    · contradiction
    · split at same
      · rw [← Slot.filled.inj same]
        exact List.cons_ne_nil _ _
      · rw [← Slot.filled.inj same]
        exact List.cons_ne_nil _ _
  rw [memberSnippets, spelled_objectLiteral _ _ filled, memberObject, List.map_map]
  congr 1
  exact List.map_congr_left fun member _ => entry_memberSlot options m depth member

theorem spelled_copy
    (manner : Manner)
    (text : String) :
    spelled [copy manner text] = text :=
  String.toList_injective (by simp [copy])

theorem keyed_ne_nil
    (key : String)
    (value : List Snippet) :
    keyed key value ≠ [] :=
  List.cons_ne_nil _ _

theorem valueLiteral_ne_nil
    (layout : Layout)
    (value : Text) :
    valueLiteral layout value ≠ [] :=
  List.cons_ne_nil _ _

theorem memberSnippets_ne_nil
    (depth : Nat)
    (members : List Member) :
    memberSnippets options m depth members ≠ [] :=
  objectLiteral_ne_nil _ _ _

/-- A member whose value is a string literal. -/
theorem spelled_keyed_valueLiteral
    (layout : Layout)
    (key : String)
    (value : Text) :
    spelled (keyed key (valueLiteral layout value)) =
      Layout.property key (layout.string value) := by
  rw [spelled_keyed (valueLiteral_ne_nil _ _), spelled_valueLiteral]

/-- A member whose value is put together from members. -/
theorem spelled_keyed_memberSnippets
    (depth : Nat)
    (key : String)
    (members : List Member) :
    spelled (keyed key (memberSnippets options m depth members)) =
      Layout.property key (memberObject options m members) := by
  rw [spelled_keyed (memberSnippets_ne_nil _ _ _ _), spelled_memberSnippets]

/-- A member whose value is copied. -/
theorem spelled_keyed_copy
    (key text : String)
    (manner : Manner) :
    spelled (keyed key [copy manner text]) = Layout.property key text := by
  rw [spelled_keyed (List.cons_ne_nil _ _), spelled_copy]

/-- A member whose value is an array of texts. -/
theorem spelled_keyed_arrayLiteral
    {α : Type}
    (layout : Layout)
    (key : String)
    (values : List α)
    (item : α → List Snippet)
    (text : α → String)
    (level : Int)
    (filled : ∀ value, item value ≠ [])
    (same : ∀ value, spelled (item value) = text value) :
    spelled (keyed key (arrayLiteral layout (values.map item) level)) =
      Layout.property key (layout.array (values.map text) level) := by
  have filledItems : ∀ snippets ∈ values.map item, snippets ≠ [] := by
    intro snippets isItem
    obtain ⟨value, -, rfl⟩ := List.mem_map.1 isItem
    exact filled value
  rw [spelled_keyed (arrayLiteral_ne_nil _ _ _),
    spelled_arrayLiteral _ _ filledItems, List.map_map]
  congr 2
  exact List.map_congr_left fun value _ => same value

/-- A statement that ends with an object literal. -/
theorem spelled_objectStatement
    (layout : Layout)
    (front : List Snippet)
    (text : String)
    (items : List (List Snippet))
    (filled : ∀ item ∈ items, item ≠ [])
    (frontEq : flat front ++ [' '] = text.toList) :
    spelled (front ++ valueEnd (objectLiteral layout (items.map .filled) 0)) =
      Layout.statement (text ++ layout.object
        ((items.map spelled).map fun text => ⟨text, false⟩) 0) [] := by
  have filledSlots : ∀ item, .filled item ∈ items.map Slot.filled →
      item ≠ [] := by
    intro item member
    obtain ⟨own, isOwn, same⟩ := List.mem_map.1 member
    rw [← Slot.filled.inj same]
    exact filled own isOwn
  have objectEq : flat (objectLiteral layout (items.map .filled) 0) =
      (layout.object ((items.map spelled).map fun text => ⟨text, false⟩)
        0).toList := by
    rw [← toList_spelled, spelled_objectLiteral _ _ filledSlots, List.map_map,
      List.map_map]
    rfl
  apply String.toList_injective
  have isOpen : (text ++ layout.object ((items.map spelled).map
      fun text => ⟨text, false⟩) 0).toList.getLast? ≠ some ';' := by
    rw [String.toList_append, List.getLast?_append, Layout.getLast?_object,
      Option.some_or]
    decide
  rw [Layout.toList_statement_eq, Layout.openText_of_ne isOpen, toList_spelled,
    valueEnd, flat_append, flat_append,
    flat_lead _ (objectLiteral_ne_nil _ _ _), objectEq, String.toList_append,
    ← frontEq]
  simp [mark]

theorem ne_nil_of_mem_sharedSnippets
    {metadata : Metadata}
    {item : List Snippet}
    (member : item ∈ sharedSnippets options m metadata) :
    item ≠ [] := by
  unfold sharedSnippets at member
  simp only [List.mem_cons, List.mem_append, List.cons_append] at member
  rcases member with rfl | (isDecorators | isParameters) | isExcluded
  · exact keyed_ne_nil _ _
  · split at isDecorators
    · contradiction
    · rw [List.mem_singleton.1 isDecorators]
      exact keyed_ne_nil _ _
  · split at isParameters
    · contradiction
    · rw [List.mem_singleton.1 isParameters]
      exact keyed_ne_nil _ _
  · split at isExcluded
    · contradiction
    · rw [List.mem_singleton.1 isExcluded]
      exact keyed_ne_nil _ _

/-- The snippets of the default export are its text. -/
theorem spelled_defaultSnippets
    (metadata : Metadata) :
    spelled (defaultSnippets options m metadata) =
      (defaultPiece options m metadata).text := by
  have whole := spelled_objectStatement options.layout
    [mark "export", spacedMark "default"] "export default "
    (sharedSnippets options m metadata)
    (fun _ member => ne_nil_of_mem_sharedSnippets options m member) rfl
  refine whole.trans ?_
  unfold defaultPiece defaultExport sharedSnippets
  have decorators := spelled_keyed_arrayLiteral options.layout "decorators"
    metadata.decorators
    (fun node => [copy (.item 5) (options.layout.node m node 2)])
    (fun node => options.layout.node m node 2) 1 (fun _ => List.cons_ne_nil _ _)
    fun _ => spelled_copy _ _
  have excluded := spelled_keyed_arrayLiteral options.layout "excludeStories"
    metadata.excluded (valueLiteral options.layout) options.layout.string 1
    (fun _ => valueLiteral_ne_nil _ _) fun _ => spelled_valueLiteral _ _
  simp only [List.map_append, List.map_cons, apply_ite (List.map spelled),
    List.map_nil, spelled_keyed_valueLiteral, spelled_keyed_memberSnippets,
    decorators, excluded]

/-- The snippets of what belongs to a story alone are its members. -/
theorem map_spelled_ownSnippets
    (story : NamedEntry) :
    (ownSnippets options m story).map spelled = ownMembers options m story := by
  unfold ownSnippets ownMembers
  simp only [List.map_append, apply_ite (List.map spelled), List.map_nil,
    List.map_cons, spelled_keyed_valueLiteral]
  congr 1
  · congr 1
    cases story.entry.parameters with
    | none => rfl
    | some parameters =>
      cases parameters with
      | asWritten node =>
        simp only [List.map_cons, List.map_nil, spelled_keyed_copy]
      | members members =>
        simp only [List.map_cons, List.map_nil, spelled_keyed_memberSnippets]
  · cases story.entry.decorators with
    | none => rfl
    | some node =>
      simp only [List.map_cons, List.map_nil, spelled_keyed_copy]

theorem ne_nil_of_mem_ownSnippets
    {story : NamedEntry}
    {item : List Snippet}
    (member : item ∈ ownSnippets options m story) :
    item ≠ [] := by
  unfold ownSnippets at member
  simp only [List.mem_append] at member
  rcases member with (isName | isParameters) | isDecorators
  · split at isName
    · rw [List.mem_singleton.1 isName]
      exact keyed_ne_nil _ _
    · contradiction
  · split at isParameters
    · contradiction
    · rw [List.mem_singleton.1 isParameters]
      exact keyed_ne_nil _ _
    · rw [List.mem_singleton.1 isParameters]
      exact keyed_ne_nil _ _
  · split at isDecorators
    · contradiction
    · rw [List.mem_singleton.1 isDecorators]
      exact keyed_ne_nil _ _

/-- The snippets of an assignment are its text. -/
theorem spelled_annotationSnippets
    (story : NamedEntry) :
    spelled (annotationSnippets options m story) =
      (annotationPiece options m story).text := by
  have whole := spelled_objectStatement options.layout
    [mark story.identifier, mark ".", mark options.storyProperty,
      spacedMark "="]
    (story.identifier ++ "." ++ options.storyProperty ++ " = ")
    (ownSnippets options m story)
    (fun _ member => ne_nil_of_mem_ownSnippets options m member)
    (by simp [mark, spacedMark])
  refine whole.trans ?_
  rw [annotationPiece, map_spelled_ownSnippets]

/-- The snippets of an export are its text. -/
theorem spelled_exportSnippets
    (story : NamedEntry) :
    spelled (exportSnippets options m story) =
      (exportPiece options m story).text := by
  have isOpen : ("export const " ++ story.identifier ++ " = ").toList.getLast? ≠
      some ';' := by
    rw [String.toList_append, List.getLast?_append]
    exact fun isEnd => absurd (Option.some.inj isEnd) (by decide)
  apply String.toList_injective
  rw [exportPiece, Layout.toList_statement_eq,
    Layout.toList_openText_append isOpen, toList_spelled]
  simp [exportSnippets, valueEnd, mark, spacedMark, copy, lead, renderText]

/-- The snippets of the generated statements are their texts. -/
theorem map_spelled_codeStatements
    (metadata : Metadata)
    (stories : List NamedEntry) :
    (codeStatements options m metadata stories).map spelled =
      (codePieces options m metadata stories).map CodePiece.text := by
  unfold codeStatements codePieces
  rw [List.map_cons, List.map_cons, spelled_defaultSnippets, List.map_flatMap,
    List.map_flatMap]
  congr 1
  refine List.flatMap_congr fun story _ => ?_
  unfold storyStatements storyPieces
  rw [List.map_cons, List.map_cons, spelled_exportSnippets]
  split
  · rfl
  · rw [List.map_singleton, List.map_singleton, spelled_annotationSnippets]

end Story

end StoryMigration
