import StoryMigration.Proofs.GeneratedSnippets

/-!
# Reading snippets

Generated literals are read where they are written if the texts that are copied
into them are, and if comments in front of their words and marks are passed
over.
-/

namespace StoryMigration

open Syntax Reading

namespace Snippet

variable {newline : Newline} {dialect : Dialect} {text : List Char}

theorem lay_own
    (newline : Newline)
    (gap chars : List Char)
    (more : List Snippet)
    (after : List Char) :
    lay newline (⟨gap, chars, none⟩ :: more) after =
      newline.spreadList gap ++ (chars ++ lay newline more after) := rfl

theorem lay_mark
    (newline : Newline)
    (mark : String)
    (more : List Snippet)
    (after : List Char) :
    lay newline (Snippet.mark mark :: more) after =
      mark.toList ++ lay newline more after := rfl

@[simp] theorem lead_nil
    (snippets : List Snippet) :
    lead [] snippets = snippets := by
  cases snippets <;> rfl

@[simp] theorem lead_lead
    (front gap : List Char)
    (snippets : List Snippet) :
    lead front (lead gap snippets) = lead (front ++ gap) snippets := by
  cases snippets with
  | nil => rfl
  | cons snippet more => simp only [lead, List.append_assoc]

/-! ## Words and marks where they stand -/

section Own

variable {gap : List Char} {more : List Snippet} {after : List Char}

/-- What stands in front of a word, a mark or a literal is passed over. -/
theorem passes_own
    {chars : List Char}
    (starts : chars.head?.any startsToken = true)
    (fits : AllFit newline dialect text (⟨gap, chars, none⟩ :: more) after)
    (html : Bool) :
    Passes html (lay newline (⟨gap, chars, none⟩ :: more) after)
      (chars ++ lay newline more after) := by
  rcases fits.1 with isBlank | skips
  · refine passes_of_blanks html (newline.all_isBlank_spreadList isBlank) ?_
    cases chars with
    | nil => contradiction
    | cons c chars => exact starts
  · exact passes_of_standing (skips html)

theorem startsToken_of_startsMark
    {c : Char}
    (starts : startsMark c = true) :
    startsToken c = true := by
  unfold startsMark at starts
  simp only [Bool.and_eq_true] at starts
  exact starts.1.1.1

theorem passes_mark
    {mark : String}
    (starts : mark.toList.head?.any startsMark = true)
    (fits : AllFit newline dialect text (⟨gap, mark.toList, none⟩ :: more) after)
    (html : Bool) :
    Passes html (lay newline (⟨gap, mark.toList, none⟩ :: more) after)
      (mark.toList ++ lay newline more after) := by
  refine passes_own ?_ fits html
  cases listEq : mark.toList with
  | nil =>
    rw [listEq] at starts
    contradiction
  | cons c list =>
    rw [listEq] at starts
    exact startsToken_of_startsMark starts

/-- Marks that are no beginning of a longer one. -/
def isLone (c : Char) : Bool :=
  startsMark c && c != '?' && Lexeme.longMarks.all (·.head? != some c)

theorem markOf_lone
    {c : Char}
    (lone : isLone c = true)
    (rest : List Char) :
    Lexeme.markOf (c :: rest) = [c] := by
  unfold isLone at lone
  simp only [Bool.and_eq_true, List.all_eq_true, bne_iff_ne] at lone
  obtain ⟨⟨starts, noQuestion⟩, alone⟩ := lone
  have noLong : Lexeme.longMarks.find?
      (fun long => (after? long (c :: rest)).isSome) = none := by
    rw [List.find?_eq_none]
    intro long isLong found
    obtain ⟨behind, isBehind⟩ := Option.isSome_iff_exists.1 found
    have isHead := Lexeme.head?_of_after? (Lexeme.longMarks_nonempty long isLong)
      isBehind
    exact alone long isLong isHead.symm
  unfold startsMark startsToken at starts
  simp only [Bool.and_eq_true] at starts
  have isMark : (Lexeme.isBreak c && !isBlank c) = true := by
    rw [Bool.and_eq_true]
    exact ⟨starts.1.1.2, starts.1.1.1.1.1.1⟩
  unfold Lexeme.markOf
  split
  · rename_i same
    exact absurd (List.cons.inj same).1 noQuestion
  · rename_i same
    obtain ⟨rfl, rfl⟩ := List.cons.inj same
    rw [noLong]
    exact if_pos isMark
  · contradiction

variable {mark : String} {c : Char}

theorem head?_any_startsMark
    (single : mark.toList = [c])
    (lone : isLone c = true) :
    mark.toList.head?.any startsMark = true := by
  unfold isLone at lone
  simp only [Bool.and_eq_true] at lone
  rw [single]
  exact lone.1.1

/-- The mark that a snippet starts with stands where it is written. -/
theorem meetsMark_first
    {chars : List Char}
    (single : mark.toList = [c])
    (lone : isLone c = true)
    (fits : AllFit newline dialect text (⟨gap, c :: chars, none⟩ :: more)
      after) :
    MeetsMark (lay newline (⟨gap, c :: chars, none⟩ :: more) after) mark := by
  have isStart := head?_any_startsMark single lone
  have starts : (c :: chars).head?.any startsToken = true := by
    rw [single] at isStart
    exact startsToken_of_startsMark isStart
  have passes := passes_own starts fits false
  have tokenEq : c :: chars ++ lay newline more after =
      mark.toList ++ (chars ++ lay newline more after) := by
    rw [single]
    rfl
  rw [tokenEq] at passes
  refine .of_passes passes ?_ isStart
  rw [single]
  exact markOf_lone lone _

theorem meetsMark_lone
    (single : mark.toList = [c])
    (lone : isLone c = true)
    (fits : AllFit newline dialect text (⟨gap, mark.toList, none⟩ :: more)
      after) :
    MeetsMark (lay newline (⟨gap, mark.toList, none⟩ :: more) after) mark := by
  rw [single] at fits ⊢
  exact meetsMark_first single lone fits

theorem reads_lone
    (single : mark.toList = [c])
    (lone : isLone c = true)
    (fits : AllFit newline dialect text (⟨gap, mark.toList, none⟩ :: more)
      after) :
    Reads text (sign mark) (lay newline (⟨gap, mark.toList, none⟩ :: more) after)
      (lay newline more after) := by
  refine .sign (passes_mark (head?_any_startsMark single lone) fits false) ?_
  rw [single]
  exact markOf_lone lone _

/-- A word stands where it is written. -/
theorem meets_word
    {word : String}
    (isWord : Lexeme.IsWord word.toList)
    (breaks : Lexeme.BreaksWord (lay newline more after))
    (fits : AllFit newline dialect text (⟨gap, word.toList, none⟩ :: more)
      after) :
    (∀ html, Passes html
        (lay newline (⟨gap, word.toList, none⟩ :: more) after)
        (word.toList ++ lay newline more after)) ∧
      Meets (lay newline (⟨gap, word.toList, none⟩ :: more) after) word := by
  have starts : word.toList.head?.any startsToken = true := by
    cases listEq : word.toList with
    | nil => exact absurd listEq isWord.nonempty
    | cons c list =>
      have unbroken := isWord.unbroken c
        (by rw [listEq]; exact List.mem_cons_self)
      exact startsToken_of_unbroken unbroken
  have passes := passes_own starts fits
  exact ⟨passes, meets_of_passes (passes false) isWord breaks⟩

end Own

/-! ## Readings of snippets -/

/-- A reading reads some snippets wherever they fit, whatever stands in front of
them, and nothing behind them goes on with an expression. -/
def ReadBy
    {α : Type}
    (newline : Newline)
    (dialect : Dialect)
    (text : List Char)
    (reading : Reading α)
    (snippets : List Snippet) : Prop :=
  ∀ front after, AllFit newline dialect text (lead front snippets) after →
    EndsAt after →
      Reads text reading (lay newline (lead front snippets) after) after

namespace ReadBy

variable {α : Type} {reading : Reading α} {snippets : List Snippet}

theorem lead
    (readBy : ReadBy newline dialect text reading snippets)
    (gap : List Char) :
    ReadBy newline dialect text reading (lead gap snippets) := by
  intro front after fits ends
  rw [lead_lead] at fits ⊢
  exact readBy _ after fits ends

theorem reads
    (readBy : ReadBy newline dialect text reading snippets)
    {after : List Char}
    (fits : AllFit newline dialect text snippets after)
    (ends : EndsAt after) :
    Reads text reading (lay newline snippets after) after := by
  have withNothing := readBy [] after
  rw [lead_nil] at withNothing
  exact withNothing fits ends

/-- A copied text is read where it fits. -/
theorem copy
    (manner : Manner)
    (chars : String) :
    ReadBy newline dialect text (manner.reading dialect text)
      [Snippet.copy manner chars] :=
  fun _ _ fits _ => .of_standing fits.1

end ReadBy

/-! ## Items between commas -/

section Slots

variable {gap : List Char} {mark : String} {comma : Bool}
  {items : List (List Snippet)} {after : List Char} {item : Reading Node}

theorem isLone_comma : isLone ',' = true := by decide

/-- What follows an item is a comma or what closes the literal. -/
theorem endsAt_slotsBehind
    {c : Char}
    (single : mark.toList = [c])
    (lone : isLone c = true)
    (isEnd : mark.toList ∈ endMarks)
    (fits : AllFit newline dialect text
      (slotsBehind ⟨gap, mark.toList, none⟩ comma items) after) :
    EndsAt (lay newline (slotsBehind ⟨gap, mark.toList, none⟩ comma items)
      after) := by
  have comma
      {more : List Snippet}
      (fits : AllFit newline dialect text (Snippet.mark "," :: more) after) :
      EndsAt (lay newline (Snippet.mark "," :: more) after) :=
    (meetsMark_lone rfl isLone_comma fits).endsAt (by decide)
  cases items with
  | cons first items => exact comma fits
  | nil =>
    unfold slotsBehind at fits ⊢
    split
    · rename_i isComma
      rw [if_pos isComma] at fits
      exact comma fits
    · rename_i noComma
      rw [if_neg noComma] at fits
      exact (meetsMark_lone single lone fits).endsAt isEnd

/-- Behind an item there are commas, each with another item or none behind
it. -/
theorem repeats_slotsBehind
    {c : Char}
    (single : mark.toList = [c])
    (lone : isLone c = true)
    (isEnd : mark.toList ∈ endMarks)
    (noComma : mark ≠ ",")
    (closes : AllFit newline dialect text [⟨gap, mark.toList, none⟩] after)
    (refused : RefusedAt item
      (lay newline [⟨gap, mark.toList, none⟩] after))
    (readBy : ∀ snippets ∈ items, ReadBy newline dialect text item snippets)
    (fits : AllFit newline dialect text
      (slotsBehind ⟨gap, mark.toList, none⟩ comma items) after) :
    Repeats text (Grammar.slotRound item)
      (lay newline (slotsBehind ⟨gap, mark.toList, none⟩ comma items) after)
      (lay newline [⟨gap, mark.toList, none⟩] after) := by
  have stops : Repeats text (Grammar.slotRound item)
      (lay newline [⟨gap, mark.toList, none⟩] after)
      (lay newline [⟨gap, mark.toList, none⟩] after) :=
    .stop (((meetsMark_lone single lone closes).sign_refused noComma).bind _)
  -- a round starts with a comma, so that less is left behind it
  have round
      {more : List Snippet}
      {rest : List Char}
      (fits : AllFit newline dialect text (Snippet.mark "," :: more) after)
      (next : Reads text (maybe item) (lay newline more after) rest)
      (fewer : rest.length ≤ (lay newline more after).length)
      (others : Repeats text (Grammar.slotRound item) rest
        (lay newline [⟨gap, mark.toList, none⟩] after)) :
      Repeats text (Grammar.slotRound item)
        (lay newline (Snippet.mark "," :: more) after)
        (lay newline [⟨gap, mark.toList, none⟩] after) := by
    refine .step (.bind (reads_lone rfl isLone_comma fits) fun _ =>
      .bind next fun _ => .pure _) ?_ others
    rw [lay_mark, List.length_append]
    exact Nat.lt_of_le_of_lt fewer (Nat.lt_add_of_pos_left (by decide))
  induction items with
  | nil =>
    unfold slotsBehind at fits ⊢
    split
    · rename_i isComma
      rw [if_pos isComma] at fits
      exact round fits (.maybe_of_refused refused) (Nat.le_refl _) stops
    · exact stops
  | cons first items itemsHypothesis =>
    obtain ⟨commaFits, restFits⟩ := fits
    rw [allFit_append] at restFits
    have ends := endsAt_slotsBehind single lone isEnd restFits.2
    have firstReads := (readBy first List.mem_cons_self).reads restFits.1 ends
    refine round ⟨commaFits, allFit_append.2 restFits⟩ ?_ ?_ (itemsHypothesis
      (fun other member => readBy other (List.mem_cons_of_mem _ member))
      restFits.2)
    · rw [lay_append]
      exact firstReads.maybe
    · rw [lay_append]
      exact length_lay newline first _

/-- Items with commas between them are read up to what closes the literal. -/
theorem reads_slotted
    {c : Char}
    (single : mark.toList = [c])
    (lone : isLone c = true)
    (isEnd : mark.toList ∈ endMarks)
    (noComma : mark ≠ ",")
    (closes : AllFit newline dialect text [⟨gap, mark.toList, none⟩] after)
    (refused : RefusedAt item
      (lay newline [⟨gap, mark.toList, none⟩] after))
    (readBy : ∀ snippets ∈ items, ReadBy newline dialect text item snippets)
    (fits : AllFit newline dialect text
      (slotted ⟨gap, mark.toList, none⟩ comma items) after) :
    Reads text (commaSlots item)
      (lay newline (slotted ⟨gap, mark.toList, none⟩ comma items) after)
      (lay newline [⟨gap, mark.toList, none⟩] after) := by
  cases items with
  | nil =>
    exact Grammar.reads_commaSlots (.maybe_of_refused refused)
      (.stop (((meetsMark_lone single lone closes).sign_refused noComma).bind _))
  | cons first items =>
    have parts := allFit_append.1 fits
    have ends := endsAt_slotsBehind single lone isEnd parts.2
    have firstReads := (readBy first List.mem_cons_self).reads parts.1 ends
    have rounds := repeats_slotsBehind single lone isEnd noComma closes refused
      (fun other member => readBy other (List.mem_cons_of_mem _ member)) parts.2
    unfold slotted
    rw [lay_append]
    exact Grammar.reads_commaSlots firstReads.maybe rounds

/-- What closes a literal fits if the literal does. -/
theorem allFit_closing
    (fits : AllFit newline dialect text
      (slotted ⟨gap, mark.toList, none⟩ comma items) after) :
    AllFit newline dialect text [⟨gap, mark.toList, none⟩] after := by
  have behind
      {items : List (List Snippet)}
      (fits : AllFit newline dialect text
        (slotsBehind ⟨gap, mark.toList, none⟩ comma items) after) :
      AllFit newline dialect text [⟨gap, mark.toList, none⟩] after := by
    induction items with
    | nil =>
      unfold slotsBehind at fits
      split at fits
      · exact fits.2
      · exact fits
    | cons first items itemsHypothesis =>
      exact itemsHypothesis (allFit_append.1 fits.2).2
  cases items with
  | nil => exact fits
  | cons first items => exact behind (allFit_append.1 fits).2

end Slots
/-! ## Values -/

section Values

variable {level : Nat} {place : Place}

/-- An expression goes two goals deeper. -/
theorem exists_within
    (dialect : Dialect)
    (text : List Char)
    (shallow : level ≤ 60) :
    ∃ depth, within dialect text level =
        ⟨dialect, Grammar.toDepth dialect (depth + 2)⟩ ∧
      within dialect text (level + 2) =
        ⟨dialect, Grammar.toDepth dialect depth⟩ := by
  refine ⟨8 * (text.length + 8) - (level + 2), ?_, rfl⟩
  unfold within
  congr 2
  omega

/-- The mark of one character. -/
def single (c : Char) : String := String.ofList [c]

theorem toList_single (c : Char) : (single c).toList = [c] := String.toList_ofList

theorem passes_cons
    {c : Char}
    (lone : isLone c = true)
    (rest : List Char) :
    Passes false (c :: rest) (c :: rest) := by
  have noBlanks : ([] : List Char).all isBlank = true := rfl
  unfold isLone at lone
  simp only [Bool.and_eq_true] at lone
  exact passes_of_blanks false noBlanks (startsToken_of_startsMark lone.1.1)

theorem meetsMark_cons
    {mark : String}
    {c : Char}
    (isSingle : mark.toList = [c])
    (lone : isLone c = true)
    (rest : List Char) :
    MeetsMark (c :: rest) mark := by
  have listEq : c :: rest = mark.toList ++ rest := by
    rw [isSingle]
    rfl
  have still := passes_cons lone rest
  rw [listEq] at still ⊢
  refine .of_passes still ?_ (head?_any_startsMark isSingle lone)
  rw [isSingle]
  exact markOf_lone lone rest

theorem reads_sign_cons
    {mark : String}
    {c : Char}
    (isSingle : mark.toList = [c])
    (lone : isLone c = true)
    (rest : List Char) :
    Reads text (sign mark) (c :: rest) rest := by
  have still := passes_cons lone rest
  have listEq : c :: rest = mark.toList ++ rest := by
    rw [isSingle]
    rfl
  rw [listEq] at still ⊢
  refine .sign still ?_
  rw [isSingle]
  exact markOf_lone lone rest

/-- What starts with a mark and is an operand is an expression where nothing goes
on with it. -/
theorem readBy_expression
    {c : Char}
    {chars : List Char}
    {more : List Snippet}
    (shallow : level ≤ 60)
    (lone : isLone c = true)
    (noPrefix : "!~+-".toList.contains c = false)
    (atom : ∀ after, AllFit newline dialect text more after → EndsAt after →
      Reads text ((within dialect text (level + 2)).atom place)
        (c :: (chars ++ lay newline more after)) after) :
    ReadBy newline dialect text
      ((within dialect text level).read (.expression place))
      (⟨[], c :: chars, none⟩ :: more) := by
  intro front after fits ends
  obtain ⟨depth, levelEq, deeperEq⟩ := exists_within dialect text shallow
  have isStart := head?_any_startsMark (toList_single c) lone
  rw [toList_single, List.head?_cons, Option.any_some] at isStart
  have starts : (c :: chars).head?.any startsToken = true :=
    startsToken_of_startsMark isStart
  have reads := atom after fits.2 ends
  rw [deeperEq] at reads
  rw [levelEq]
  exact ends.reads_expression (passes_own starts fits true)
    (meetsMark_cons (toList_single c) lone _) rfl noPrefix reads

/-- A string literal is read as a value. -/
theorem readBy_valueLiteral
    (layout : Layout)
    (value : Text)
    (shallow : level ≤ 60) :
    ReadBy newline dialect text
      ((within dialect text level).read (.expression place))
      (valueLiteral layout value) := by
  have isQuote := Layout.quoteStyle_char layout.quoteStyle
  have lone : isLone layout.quoteStyle.char = true := by
    rcases isQuote with same | same <;> rw [same] <;> decide
  have listEq := layout.toList_string value
  unfold valueLiteral mark
  rw [listEq]
  refine readBy_expression shallow lone ?_ fun after fits ends => ?_
  · rcases isQuote with same | same <;> rw [same] <;> decide
  · have still := passes_cons lone (value.flatMap
      (Layout.escaped layout.quoteStyle.char) ++ [layout.quoteStyle.char] ++
        after)
    have passes : Passes false (layout.quoteStyle.char :: (value.flatMap
        (Layout.escaped layout.quoteStyle.char) ++
          [layout.quoteStyle.char] ++ after))
        ((layout.string value).toList ++ after) := by
      rw [listEq]
      exact still
    exact Grammar.reads_atom_string _ isQuote
      (meetsMark_cons (toList_single _) lone _) still rfl
      (Layout.reads_string passes)

/-- An array literal is read as a value if its items are read. -/
theorem readBy_array
    {gap : List Char}
    {comma : Bool}
    {items : List (List Snippet)}
    (shallow : level ≤ 60)
    (readBy : ∀ item ∈ items,
      ReadBy newline dialect text (within dialect text (level + 2)).item item) :
    ReadBy newline dialect text
      ((within dialect text level).read (.expression place))
      (mark "[" :: slotted ⟨gap, "]".toList, none⟩ comma items) := by
  have isOpening : isLone '[' = true := by decide
  have isClosing : isLone ']' = true := by decide
  refine readBy_expression shallow isOpening (by decide) fun after fits ends => ?_
  have closes := allFit_closing fits
  have refused : RefusedAt (within dialect text (level + 2)).item
      (lay newline [⟨gap, "]".toList, none⟩] after) :=
    Grammar.item_refused (meetsMark_lone rfl isClosing closes)
      (meetsMark_cons rfl isClosing after)
      (passes_mark (head?_any_startsMark rfl isClosing) closes true) rfl
  have slots := reads_slotted rfl isClosing (by decide) (by decide) closes
    refused readBy fits
  have whole : Reads text (within dialect text (level + 2)).array
      ('[' :: lay newline (slotted ⟨gap, "]".toList, none⟩ comma items) after)
      after :=
    .bind (reads_sign_cons rfl isOpening _) fun _ => .bind slots fun _ =>
      .bind (reads_lone rfl isClosing closes) fun _ => .build _ _
  exact Grammar.reads_atom_array _
    (meetsMark_cons (toList_single '[') isOpening _) (passes_cons isOpening _)
    rfl whole ends

/-- An object literal is read as a value if its members are read. -/
theorem readBy_object
    {gap : List Char}
    {comma : Bool}
    {items : List (List Snippet)}
    (shallow : level ≤ 60)
    (readBy : ∀ item ∈ items, ReadBy newline dialect text
      (within dialect text (level + 2)).objectMember item) :
    ReadBy newline dialect text
      ((within dialect text level).read (.expression place))
      (mark "\x7b" :: slotted ⟨gap, "\x7d".toList, none⟩ comma items) := by
  have isOpening : isLone '\x7b' = true := by decide
  have isClosing : isLone '\x7d' = true := by decide
  refine readBy_expression shallow isOpening (by decide) fun after fits ends => ?_
  have closes := allFit_closing fits
  have refused := Grammar.objectMember_refused (within dialect text (level + 2))
    (meetsMark_lone rfl isClosing closes)
  have slots := reads_slotted rfl isClosing (by decide) (by decide) closes
    refused readBy fits
  have whole : Reads text (within dialect text (level + 2)).object
      ('\x7b' :: lay newline (slotted ⟨gap, "\x7d".toList, none⟩ comma items)
        after) after :=
    .bind (reads_sign_cons rfl isOpening _) fun _ => .bind slots fun _ =>
      .bind (reads_lone rfl isClosing closes) fun _ => .build _ _
  exact Grammar.reads_atom_object _
    (meetsMark_cons (toList_single '\x7b') isOpening _) (passes_cons isOpening _)
    rfl whole ends

/-- The items on some lines are those of the lines, with something in front. -/
theorem exists_of_mem_gathered
    {inner gap : List Char}
    {slots : List Slot}
    {item : List Snippet}
    (member : item ∈ gathered inner gap slots) :
    ∃ front own, .filled own ∈ slots ∧ item = Snippet.lead front own := by
  induction slots generalizing gap with
  | nil => contradiction
  | cons slot slots slotsHypothesis =>
    have later
        {gap : List Char}
        (isLater : item ∈ gathered inner gap slots) :
        ∃ front own, .filled own ∈ slot :: slots ∧
          item = Snippet.lead front own := by
      obtain ⟨front, own, isOwn, same⟩ := slotsHypothesis isLater
      exact ⟨front, own, List.mem_cons_of_mem _ isOwn, same⟩
    cases slot with
    | note note => exact later member
    | filled own =>
      rcases List.mem_cons.1 member with isFirst | isLater
      · exact ⟨_, own, List.mem_cons_self, isFirst⟩
      · exact later isLater

theorem ReadBy.gathered
    {α : Type}
    {reading : Reading α}
    {inner gap : List Char}
    {slots : List Slot}
    (readBy : ∀ item, .filled item ∈ slots →
      ReadBy newline dialect text reading item) :
    ∀ item ∈ gathered inner gap slots,
      ReadBy newline dialect text reading item := by
  intro item member
  obtain ⟨front, own, isOwn, rfl⟩ := exists_of_mem_gathered member
  exact (readBy own isOwn).lead front

/-- A generated object is read as a value if its members are read. -/
theorem readBy_objectLiteral
    {slots : List Slot}
    (layout : Layout)
    (indent : Int)
    (shallow : level ≤ 60)
    (readBy : ∀ item, .filled item ∈ slots → ReadBy newline dialect text
      (within dialect text (level + 2)).objectMember item) :
    ReadBy newline dialect text
      ((within dialect text level).read (.expression place))
      (objectLiteral layout slots indent) := by
  unfold objectLiteral
  split
  · exact readBy_object shallow fun _ member => absurd member List.not_mem_nil
  · exact readBy_object shallow (ReadBy.gathered readBy)

/-- A generated array is read as a value if its items are read. -/
theorem readBy_arrayLiteral
    {items : List (List Snippet)}
    (layout : Layout)
    (indent : Int)
    (shallow : level ≤ 60)
    (readBy : ∀ item ∈ items,
      ReadBy newline dialect text (within dialect text (level + 2)).item item) :
    ReadBy newline dialect text
      ((within dialect text level).read (.expression place))
      (arrayLiteral layout items indent) := by
  unfold arrayLiteral
  split
  · refine readBy_array shallow (ReadBy.gathered fun item isSlot => ?_)
    obtain ⟨own, isOwn, same⟩ := List.mem_map.1 isSlot
    rw [← Slot.filled.inj same]
    exact readBy own isOwn
  · refine readBy_array shallow fun item member => ?_
    cases items with
    | nil => contradiction
    | cons first items =>
      rcases List.mem_cons.1 member with rfl | later
      · exact readBy _ List.mem_cons_self
      · obtain ⟨own, isOwn, rfl⟩ := List.mem_map.1 later
        exact (readBy own (List.mem_cons_of_mem _ isOwn)).lead _

/-! ### Members and items -/

/-- A member with its key is read as a member if its value is read. -/
theorem readBy_keyed
    {g : Grammar}
    {key : String}
    {value : List Snippet}
    (isWord : Lexeme.IsWord key.toList)
    (readBy : ReadBy newline dialect text g.inner value) :
    ReadBy newline dialect text g.objectMember (keyed key value) := by
  intro front after fits ends
  have isColon : isLone ':' = true := by decide
  have breaks : Lexeme.BreaksWord
      (lay newline (mark ":" :: Snippet.lead [' '] value) after) := by
    intro c isHead
    cases isHead
    decide
  obtain ⟨keyFits, colonFits, valueFits⟩ := fits
  obtain ⟨passes, meets⟩ :=
    meets_word isWord breaks ⟨keyFits, colonFits, valueFits⟩
  have pair : Reads text g.pair
      (lay newline (Snippet.lead front (keyed key value)) after) after :=
    .bind (.orElse (meets.anyWord (passes false) _) _) fun _ =>
      .bind (reads_lone rfl isColon ⟨colonFits, valueFits⟩) fun _ =>
        .bind (readBy [' '] after valueFits ends) fun _ => .build _ _
  have noSpread : RefusedAt g.spread
      (lay newline (Snippet.lead front (keyed key value)) after) :=
    (meets.sign_refused (by decide)).bind _
  exact .orElse_of_refused noSpread (.orElse pair _)

/-- A spread of a copied text is read as a member. -/
theorem readBy_spread
    {chars : String}
    (level : Nat) :
    ReadBy newline dialect text (within dialect text level).objectMember
      [mark "...", Snippet.copy (.value level .inside) chars] := by
  intro front after fits ends
  obtain ⟨dotsFit, copyFits⟩ := fits
  have passes : Passes false
      (lay newline (Snippet.lead front
        [mark "...", Snippet.copy (.value level .inside) chars]) after)
      ("...".toList ++
        lay newline [Snippet.copy (.value level .inside) chars] after) :=
    passes_mark (by decide) ⟨dotsFit, copyFits⟩ false
  have dots : Reads text (sign "...") _ _ := .sign passes rfl
  have value := (ReadBy.copy (.value level .inside) chars).reads copyFits ends
  exact .orElse (.bind dots fun _ => .bind value fun _ => .build _ _) _

/-- A string literal is read as an item. -/
theorem readBy_valueItem
    (layout : Layout)
    (value : Text)
    (shallow : level ≤ 60) :
    ReadBy newline dialect text (within dialect text level).item
      (valueLiteral layout value) := by
  intro front after fits ends
  have isQuote := Layout.quoteStyle_char layout.quoteStyle
  have reads : Reads text (within dialect text level).inner
      (lay newline (Snippet.lead front (valueLiteral layout value)) after)
      after :=
    readBy_valueLiteral layout value shallow front after fits ends
  have lone : isLone layout.quoteStyle.char = true := by
    rcases isQuote with same | same <;> rw [same] <;> decide
  have meets : MeetsMark
      (lay newline (Snippet.lead front (valueLiteral layout value)) after)
      (single layout.quoteStyle.char) := by
    unfold valueLiteral mark at fits ⊢
    rw [layout.toList_string] at fits ⊢
    exact meetsMark_first (toList_single _) lone fits
  have noDots : single layout.quoteStyle.char ≠ "..." := by
    rcases isQuote with same | same <;> rw [same] <;> decide
  exact .orElse_of_refused ((within dialect text level).spread_refused meets
    noDots) reads

end Values
end Snippet

/-! ## What generated objects hold -/

namespace Story

open Snippet

variable {newline : Newline} {dialect : Dialect} {text : List Char}
  (options : Options) (m : Module)

/-- A generated object of members is read as a value. -/
theorem readBy_memberSnippets
    {level : Nat}
    (shallow : level ≤ 58)
    (members : List Member) :
    ReadBy newline dialect text (within dialect text level).inner
      (memberSnippets options m (level + 2) members) := by
  refine readBy_objectLiteral options.layout 1 (by omega) fun item isSlot => ?_
  obtain ⟨member, -, same⟩ := List.mem_map.1 isSlot
  unfold memberSlot at same
  simp only at same
  split at same
  · contradiction
  · split at same
    · rw [← Slot.filled.inj same]
      exact readBy_spread (level + 2)
    · rw [← Slot.filled.inj same]
      exact ReadBy.copy (.member (level + 2)) _

/-- The members of the default export are read as members. -/
theorem readBy_sharedSnippets
    (metadata : Metadata) :
    ∀ item ∈ sharedSnippets options m metadata,
      ReadBy newline dialect text (within dialect text 3).objectMember item := by
  intro item member
  unfold sharedSnippets at member
  simp only [List.mem_cons, List.mem_append, List.cons_append] at member
  rcases member with rfl | (isDecorators | isParameters) | isExcluded
  · exact readBy_keyed (by decide) (readBy_valueLiteral _ _ (by decide))
  · split at isDecorators
    · contradiction
    · rw [List.mem_singleton.1 isDecorators]
      refine readBy_keyed (by decide) (readBy_arrayLiteral _ 1 (by decide)
        fun item isItem => ?_)
      obtain ⟨node, -, rfl⟩ := List.mem_map.1 isItem
      exact ReadBy.copy (.item 5) _
  · split at isParameters
    · contradiction
    · rw [List.mem_singleton.1 isParameters]
      exact readBy_keyed (by decide)
        (readBy_memberSnippets options m (by decide) _)
  · split at isExcluded
    · contradiction
    · rw [List.mem_singleton.1 isExcluded]
      refine readBy_keyed (by decide) (readBy_arrayLiteral _ 1 (by decide)
        fun item isItem => ?_)
      obtain ⟨name, -, rfl⟩ := List.mem_map.1 isItem
      exact readBy_valueItem _ name (by decide)

/-- What belongs to a story alone is read as members. -/
theorem readBy_ownSnippets
    (story : NamedEntry) :
    ∀ item ∈ ownSnippets options m story,
      ReadBy newline dialect text (within dialect text 5).objectMember item := by
  intro item member
  unfold ownSnippets at member
  simp only [List.mem_append] at member
  rcases member with (isName | isParameters) | isDecorators
  · split at isName
    · rw [List.mem_singleton.1 isName]
      exact readBy_keyed (by decide) (readBy_valueLiteral _ _ (by decide))
    · contradiction
  · split at isParameters
    · contradiction
    · rw [List.mem_singleton.1 isParameters]
      exact readBy_keyed (by decide)
        (readBy_memberSnippets options m (by decide) _)
    · rw [List.mem_singleton.1 isParameters]
      exact readBy_keyed (by decide) (ReadBy.copy (.value 5 .inside) _)
  · split at isDecorators
    · contradiction
    · rw [List.mem_singleton.1 isDecorators]
      exact readBy_keyed (by decide) (ReadBy.copy (.value 5 .inside) _)

/-- An object of some members is read as a value. -/
theorem readBy_items
    {level : Nat}
    {place : Place}
    {items : List (List Snippet)}
    (shallow : level ≤ 60)
    (readBy : ∀ item ∈ items, ReadBy newline dialect text
      (within dialect text (level + 2)).objectMember item) :
    ReadBy newline dialect text
      ((within dialect text level).read (.expression place))
      (objectLiteral options.layout (items.map .filled) 0) := by
  refine readBy_objectLiteral options.layout 0 shallow fun item isSlot => ?_
  obtain ⟨own, isOwn, same⟩ := List.mem_map.1 isSlot
  rw [← Slot.filled.inj same]
  exact readBy own isOwn

end Story

end StoryMigration
