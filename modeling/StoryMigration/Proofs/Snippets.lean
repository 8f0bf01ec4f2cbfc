import StoryMigration.Proofs.LineEndings
import StoryMigration.Proofs.ValueReading

/-!
# Generated code in snippets

Generated code is made of words, marks and literals of its own and of copied
texts, with blanks and copied comments between them.  A copied text is to be
read where it is written, as a value, an item or a member, however deep that
is.
-/

namespace StoryMigration

open Syntax

/-! ## Line ends in the style of a module -/

namespace Newline

variable (newline : Newline)

/-- What is written is what was there, but for characters of line ends. -/
theorem mem_spreadList
    {chars : List Char}
    {c : Char}
    (member : c ∈ newline.spreadList chars) :
    c ∈ chars ∨ c = '\n' ∨ c = '\r' := by
  obtain ⟨d, isOwn, isWritten⟩ := List.mem_flatMap.1 member
  split at isWritten
  · cases newline
    · exact .inr (.inl (List.mem_singleton.1 isWritten))
    · simp only [Newline.chars, List.mem_cons, List.not_mem_nil, or_false]
        at isWritten
      exact .inr isWritten.symm
  · rw [List.mem_singleton.1 isWritten]
    exact .inl (mem_joined isOwn)

theorem all_isBlank_spreadList
    {chars : List Char}
    (isBlank : chars.all Syntax.isBlank = true) :
    (newline.spreadList chars).all Syntax.isBlank = true := by
  rw [List.all_eq_true]
  intro c member
  rcases newline.mem_spreadList member with isOwn | rfl | rfl
  · exact List.all_eq_true.1 isBlank c isOwn
  · rfl
  · rfl

end Newline

/-! ## Snippets -/

namespace Syntax

/-- The grammar that a text is read with some goals below the whole of it. -/
def within (dialect : Dialect) (text : List Char) (level : Nat) : Grammar :=
  ⟨dialect, Grammar.toDepth dialect (8 * (text.length + 8) - level)⟩

end Syntax

/-- How a copied text is to be read where it is written, some goals below the
whole text. -/
inductive Manner where
  | value (level : Nat) (place : Place)
  | item (level : Nat)
  | member (level : Nat)
  deriving DecidableEq

namespace Manner

/-- The reading of a copied text. -/
def reading (dialect : Dialect) (text : List Char) : Manner → Reading Node
  | value level place => (within dialect text level).read (.expression place)
  | item level => (within dialect text level).item
  | member level => (within dialect text level).objectMember

instance regular
    (dialect : Dialect)
    (text : List Char)
    (manner : Manner) :
    Reading.Regular (manner.reading dialect text) := by
  have reads
      (level : Nat)
      (goal : Goal) :
      Reading.Regular ((within dialect text level).read goal) :=
    Reading.Regular.toDepth dialect _ goal
  cases manner with
  | value level place => exact reads level _
  | item level => exact Reading.Regular.item _
  | member level =>
    unfold Manner.reading Grammar.objectMember
    infer_instance

end Manner

/-- A word, a mark or a literal of generated code, or a text that is copied into
it, and what stands in front of it. -/
structure Snippet where
  gap : List Char
  text : List Char
  /-- How the text is to be read if it is copied. -/
  manner : Option Manner

namespace Snippet

/-- A word or a mark with nothing in front of it. -/
def mark (text : String) : Snippet := ⟨[], text.toList, none⟩

/-- Snippets with some characters in front. -/
def lead (front : List Char) : List Snippet → List Snippet
  | [] => []
  | first :: more => { first with gap := front ++ first.gap } :: more

/-- The characters of some snippets, one after another. -/
def flat (snippets : List Snippet) : List Char :=
  snippets.flatMap fun snippet => snippet.gap ++ snippet.text

/-- The text of a snippet with line ends in the style of a module. -/
def written (newline : Newline) (snippet : Snippet) : List Char :=
  if snippet.manner.isNone then snippet.text
  else newline.spreadList snippet.text

/-- Snippets as they are written into a module, in front of other
characters. -/
def lay (newline : Newline) : List Snippet → List Char → List Char
  | [], after => after
  | snippet :: more, after =>
      newline.spreadList snippet.gap ++
        (snippet.written newline ++ lay newline more after)

@[simp] theorem flat_nil : flat [] = [] := rfl

@[simp] theorem flat_cons
    (snippet : Snippet)
    (more : List Snippet) :
    flat (snippet :: more) = snippet.gap ++ snippet.text ++ flat more := rfl

@[simp] theorem flat_append
    (front back : List Snippet) :
    flat (front ++ back) = flat front ++ flat back :=
  List.flatMap_append

theorem flat_lead
    {snippets : List Snippet}
    (front : List Char)
    (nonempty : snippets ≠ []) :
    flat (lead front snippets) = front ++ flat snippets := by
  cases snippets with
  | nil => contradiction
  | cons snippet more => simp only [lead, flat_cons, List.append_assoc]

theorem lay_append
    (newline : Newline)
    (front back : List Snippet)
    (after : List Char) :
    lay newline (front ++ back) after =
      lay newline front (lay newline back after) := by
  induction front with
  | nil => rfl
  | cons snippet more moreHypothesis =>
    rw [List.cons_append, lay, lay, moreHypothesis]

theorem length_lay
    (newline : Newline)
    (snippets : List Snippet)
    (after : List Char) :
    after.length ≤ (lay newline snippets after).length := by
  induction snippets with
  | nil => exact Nat.le_refl _
  | cons snippet more moreHypothesis =>
    rw [lay, List.length_append, List.length_append]
    omega

/-- A snippet that line ends of the module's style do not change where it meets
others, nor within what is not copied. -/
structure IsSound (snippet : Snippet) : Prop where
  gap : snippet.gap.getLast? ≠ some '\r'
  text : snippet.text.getLast? ≠ some '\r'
  own : snippet.manner.isNone = true →
    ∀ c ∈ snippet.text, c ≠ '\n' ∧ c ≠ '\r'

/-- Sound snippets are written in the style of a module one by one. -/
theorem spreadList_flat
    (newline : Newline)
    {snippets : List Snippet}
    (sound : ∀ snippet ∈ snippets, snippet.IsSound)
    (back : List Char) :
    newline.spreadList (flat snippets ++ back) =
      lay newline snippets (newline.spreadList back) := by
  induction snippets with
  | nil => rfl
  | cons snippet more moreHypothesis =>
    obtain ⟨gap, text, own⟩ := sound snippet List.mem_cons_self
    have writtenEq :
        newline.spreadList snippet.text = snippet.written newline := by
      unfold written
      split
      · rename_i isOwn
        exact newline.spreadList_eq_self (own isOwn)
      · rfl
    rw [flat_cons, List.append_assoc, List.append_assoc,
      newline.spreadList_append _ gap, newline.spreadList_append _ text,
      moreHypothesis fun other member =>
        sound other (List.mem_cons_of_mem _ member), lay, writtenEq]

/-! ## Copied texts at their places -/

/-- A copied text is read up to its end, and what is copied in front of other
texts is passed over. -/
def Fits
    (newline : Newline)
    (dialect : Dialect)
    (text : List Char)
    (snippet : Snippet)
    (after : List Char) : Prop :=
  match snippet.manner with
  | some manner =>
      (manner.reading dialect text (Cursor.standing text
        (newline.spreadList snippet.gap ++
          (snippet.written newline ++ after)))).map (·.2.rest) = some after
  | none =>
      snippet.gap.all isBlank = true ∨ ∀ html : Bool,
        ((Cursor.standing text (newline.spreadList snippet.gap ++
          (snippet.written newline ++ after))).skip html).rest =
            snippet.written newline ++ after

instance
    (newline : Newline)
    (dialect : Dialect)
    (text : List Char)
    (snippet : Snippet)
    (after : List Char) :
    Decidable (snippet.Fits newline dialect text after) := by
  unfold Fits
  split <;> infer_instance

/-- Every one of some snippets fits where it is written. -/
def AllFit
    (newline : Newline)
    (dialect : Dialect)
    (text : List Char) : List Snippet → List Char → Prop
  | [], _ => True
  | snippet :: more, after =>
      snippet.Fits newline dialect text (lay newline more after) ∧
        AllFit newline dialect text more after

instance decidableAllFit
    (newline : Newline)
    (dialect : Dialect)
    (text : List Char) :
    (snippets : List Snippet) → (after : List Char) →
      Decidable (AllFit newline dialect text snippets after)
  | [], _ => inferInstanceAs (Decidable True)
  | snippet :: more, after =>
      have := decidableAllFit newline dialect text more after
      inferInstanceAs (Decidable
        (snippet.Fits newline dialect text (lay newline more after) ∧
          AllFit newline dialect text more after))

theorem allFit_append
    {newline : Newline}
    {dialect : Dialect}
    {text after : List Char}
    {front back : List Snippet} :
    AllFit newline dialect text (front ++ back) after ↔
      AllFit newline dialect text front (lay newline back after) ∧
        AllFit newline dialect text back after := by
  induction front with
  | nil => exact ⟨fun fits => ⟨trivial, fits⟩, And.right⟩
  | cons snippet more moreHypothesis =>
    rw [List.cons_append, AllFit, AllFit, moreHypothesis, lay_append, and_assoc]

end Snippet

end StoryMigration
