import Mathlib.Data.List.Basic
import StoryMigration.Diff.Unified

/-!
# Applying a difference

What the lines of a unified difference say, and what becomes of a text by them. A hunk says where it
starts in both texts and how many lines of each it has; what it says is kept or left out must stand in the
text at that place. The header of a hunk, its signs and its counts say what the hunk has.
-/

namespace StoryMigration
namespace Diff

/-- What a line of a difference says. -/
inductive Directive where
  /-- A hunk starts behind so many lines of the one text and of the other, and has so many of each. -/
  | hunk (before beforeCount after afterCount : Nat)
  /-- Lines of the one text, and those of the other that stand in their place. -/
  | exchange (before after : List (List Char))
  deriving DecidableEq

/-- A number that characters start with, and the characters behind it. -/
def number? (text : List Char) : Option (Nat × List Char) :=
  let digits := text.takeWhile Char.isDigit
  if digits.isEmpty then none
  else some (Nat.ofDigitChars 10 digits 0, text.dropWhile Char.isDigit)

/-- The number of lines before some lines whose first one has a number. -/
def linesBefore? (start count : Nat) : Option Nat :=
  if count = 0 then some start
  else if start = 0 then none
  else some (start - 1)

/-- How many lines there are; one line has no count. -/
def count? : List Char → Option (Nat × List Char)
  | ',' :: text => number? text
  | text => some (1, text)

/-- The place of some lines: how many stand before them, and how many they are. -/
def range? (text : List Char) : Option (Nat × Nat × List Char) := do
  let (start, text) ← number? text
  let (count, text) ← count? text
  let before ← linesBefore? start count
  some (before, count, text)

/-- Where a hunk starts, behind the two signs. -/
def header? (text : List Char) : Option Directive :=
  match range? text with
  | some (before, beforeCount, ' ' :: '+' :: rest) =>
    match range? rest with
    | some (after, afterCount, [' ', '@', '@', '\n']) =>
      some (.hunk before beforeCount after afterCount)
    | _ => none
  | _ => none

/-- What a line says. -/
def directive? : List Char → Option Directive
  | ' ' :: line => some (.exchange [line] [line])
  | '-' :: line => some (.exchange [line] [])
  | '+' :: line => some (.exchange [] [line])
  | '@' :: '@' :: ' ' :: '-' :: text => header? text
  | _ => none

/-- How far a difference is applied to a text. -/
structure Progress where
  /-- Number of lines of the text that are passed. -/
  passed : Nat
  /-- Lines of the text that are ahead. -/
  ahead : List (List Char)
  /-- Lines of the new text. -/
  made : List (List Char)
  /-- Number of lines that the hunk still has to pass. -/
  toPass : Nat
  /-- Number of lines that the hunk still has to make. -/
  toMake : Nat

/-- The next step. Lines up to the start of a hunk are kept; it starts behind the hunk before it, when
that is complete. Lines are passed only if they are what stands ahead. -/
def Progress.follow (progress : Progress) : Directive → Option Progress
  | .hunk before beforeCount after afterCount =>
    let gap := before - progress.passed
    if progress.toPass = 0 ∧ progress.toMake = 0 ∧ progress.passed ≤ before ∧
        gap ≤ progress.ahead.length ∧ after = progress.made.length + gap then
      some
        { passed := before
          ahead := progress.ahead.drop gap
          made := progress.made ++ progress.ahead.take gap
          toPass := beforeCount
          toMake := afterCount }
    else none
  | .exchange before after =>
    if before <+: progress.ahead ∧ before.length ≤ progress.toPass ∧
        after.length ≤ progress.toMake then
      some
        { passed := progress.passed + before.length
          ahead := progress.ahead.drop before.length
          made := progress.made ++ after
          toPass := progress.toPass - before.length
          toMake := progress.toMake - after.length }
    else none

/-- The step that a line says. -/
def Progress.followLine (progress : Progress) (line : List Char) : Option Progress :=
  (directive? line).bind progress.follow

/-- The lines of the new text when the last hunk is complete. -/
def Progress.finish? (progress : Progress) : Option (List (List Char)) :=
  if progress.toPass = 0 ∧ progress.toMake = 0 then some (progress.made ++ progress.ahead) else none

/-- The lines that some lines become by those of a difference. -/
def patchedLines? (lines difference : List (List Char)) : Option (List (List Char)) :=
  (difference.foldlM Progress.followLine ⟨0, lines, [], 0, 0⟩).bind Progress.finish?

/-- The lines with the names of the two texts. -/
def namesText (path : String) : String := "--- a/" ++ path ++ "\n+++ b/" ++ path ++ "\n"

/-- The lines of a difference behind the names of the two texts. -/
def bodyLines? (path difference : String) : Option (List (List Char)) :=
  (difference.toList.dropPrefix? (namesText path).toList).map linesOfChars

/-- The text that a text becomes by a difference; an empty one leaves it as it is. -/
def patched? (path text difference : String) : Option String :=
  if difference = "" then some text
  else
    (bodyLines? path difference).bind fun body =>
      (patchedLines? (linesOfChars text.toList) body).map fun lines => String.ofList lines.flatten

/-! ## The header of a hunk -/

theorem number?_append (n : Nat) {rest : List Char}
    (apart : ∀ c ∈ rest.head?, c.isDigit = false) :
    number? (Nat.toDigits 10 n ++ rest) = some (n, rest) := by
  have digits : ∀ c ∈ Nat.toDigits 10 n, c.isDigit = true := fun c =>
    Nat.isDigit_of_mem_toDigits (by decide) (by decide)
  have stops : rest.takeWhile Char.isDigit = [] ∧ rest.dropWhile Char.isDigit = rest := by
    cases rest with
    | nil => exact ⟨rfl, rfl⟩
    | cons c rest => simp [apart c rfl]
  rw [number?, List.takeWhile_append_of_pos digits, List.dropWhile_append_of_pos digits, stops.1,
    stops.2, List.append_nil, if_neg (by simp [Nat.toDigits_ne_nil]), Nat.ofDigitChars_ten_toDigits]

theorem count?_of_ne {text : List Char} (apart : ∀ c ∈ text.head?, c ≠ ',') :
    count? text = some (1, text) := by
  unfold count?
  split
  · exact absurd rfl (apart ',' rfl)
  · rfl

theorem linesBefore?_number (start count : Nat) :
    linesBefore? (if count = 0 then start else start + 1) count = some start := by
  cases count <;> simp [linesBefore?]

/-- The place of some lines reads back. -/
theorem range?_append (start count : Nat) {rest : List Char}
    (digit : ∀ c ∈ rest.head?, c.isDigit = false) (comma : ∀ c ∈ rest.head?, c ≠ ',') :
    range? ((rangeText start count).toList ++ rest) = some (start, count, rest) := by
  unfold rangeText
  split
  next one => simp [range?, number?_append _ digit, count?_of_ne comma, linesBefore?, one]
  next many =>
    have stop : ∀ c ∈ (',' :: (Nat.toDigits 10 count ++ rest)).head?, c.isDigit = false := by simp
    simp [range?, number?_append _ stop, count?, number?_append _ digit, linesBefore?_number]

/-- The line that a hunk starts with. -/
def headerLine (hunk : Hunk) : List Char :=
  ("@@ -" ++ rangeText hunk.before hunk.beforeCount ++ " +"
    ++ rangeText hunk.after hunk.afterCount ++ " @@\n").toList

theorem directive?_headerLine (hunk : Hunk) :
    directive? (headerLine hunk) =
      some (.hunk hunk.before hunk.beforeCount hunk.after hunk.afterCount) := by
  have line : headerLine hunk = '@' :: '@' :: ' ' :: '-' ::
      ((rangeText hunk.before hunk.beforeCount).toList ++ ' ' :: '+' ::
        ((rangeText hunk.after hunk.afterCount).toList ++ [' ', '@', '@', '\n'])) := by
    simp [headerLine, String.toList_append]
  have second : range? ((rangeText hunk.after hunk.afterCount).toList ++ [' ', '@', '@', '\n']) =
      some (hunk.after, hunk.afterCount, [' ', '@', '@', '\n']) :=
    range?_append _ _ (by simp) (by simp)
  rw [line, directive?, header?, range?_append _ _ (by simp) (by simp)]
  simp only [second]

/-! ## Lines behind a sign -/

theorem Progress.follow_exchange (passed toPass toMake : Nat)
    (before after ahead made : List (List Char)) :
    (⟨passed, before ++ ahead, made, before.length + toPass, after.length + toMake⟩ :
        Progress).follow (.exchange before after) =
      some ⟨passed + before.length, ahead, made ++ after, toPass, toMake⟩ := by
  simp [Progress.follow]

/-- Lines behind a sign say one after the other what one of them says. -/
theorem foldlM_followLine_map {sign : Char} {before after : List Char → List (List Char)}
    (meaning : ∀ line, directive? (sign :: line) = some (.exchange (before line) (after line)))
    (lines : List (List Char)) (passed toPass toMake : Nat) (ahead made : List (List Char)) :
    (lines.map (sign :: ·)).foldlM Progress.followLine
        ⟨passed, lines.flatMap before ++ ahead, made, (lines.flatMap before).length + toPass,
          (lines.flatMap after).length + toMake⟩ =
      some ⟨passed + (lines.flatMap before).length, ahead, made ++ lines.flatMap after, toPass,
        toMake⟩ := by
  induction lines generalizing passed made with
  | nil => simp
  | cons line lines ih =>
    rw [List.map_cons, List.foldlM_cons, Progress.followLine, meaning, Option.bind_some,
      List.flatMap_cons, List.flatMap_cons, List.append_assoc, List.length_append,
      List.length_append, Nat.add_assoc, Nat.add_assoc, Progress.follow_exchange,
      Option.bind_eq_bind, Option.bind_some, ih, Nat.add_assoc, List.append_assoc]

/-- The characters of lines. -/
def charLines (lines : List String) : List (List Char) := lines.map String.toList

/-- The lines of a part, every one behind its sign. -/
def Part.signedLines : Part String → List (List Char)
  | .kept lines => (charLines lines).map (' ' :: ·)
  | .changed before after => (charLines before).map ('-' :: ·) ++ (charLines after).map ('+' :: ·)

/-- The lines of a part take the one text to the other there. -/
theorem Part.foldlM_signedLines (part : Part String) (passed toPass toMake : Nat)
    (ahead made : List (List Char)) :
    part.signedLines.foldlM Progress.followLine
        ⟨passed, charLines part.before ++ ahead, made, part.before.length + toPass,
          part.after.length + toMake⟩ =
      some ⟨passed + part.before.length, ahead, made ++ charLines part.after, toPass, toMake⟩ := by
  have keeps (line : List Char) : directive? (' ' :: line) = some (.exchange [line] [line]) := rfl
  have deletes (line : List Char) : directive? ('-' :: line) = some (.exchange [line] []) := rfl
  have inserts (line : List Char) : directive? ('+' :: line) = some (.exchange [] [line]) := rfl
  cases part with
  | kept lines =>
    have run := foldlM_followLine_map keeps (charLines lines) passed toPass toMake ahead made
    simpa [charLines, Part.signedLines, Part.before, Part.after] using run
  | changed before after =>
    have none (lines : List (List Char)) : lines.flatMap (fun _ => ([] : List (List Char))) = [] := by
      simp
    have deletion := foldlM_followLine_map deletes (charLines before) passed toPass
      (after.length + toMake) ahead made
    have insertion := foldlM_followLine_map inserts (charLines after) (passed + before.length) toPass
      toMake ahead made
    simp only [charLines, List.flatMap_singleton', none, List.length_nil, List.nil_append,
      List.append_nil, Nat.zero_add, Nat.add_zero, List.length_map] at deletion insertion
    simp only [Part.signedLines, Part.before, Part.after, charLines, List.foldlM_append]
    rw [deletion, Option.bind_eq_bind, Option.bind_some, insertion]

theorem charLines_append (lines others : List String) :
    charLines (lines ++ others) = charLines lines ++ charLines others := List.map_append

theorem length_charLines (lines : List String) : (charLines lines).length = lines.length :=
  List.length_map _

theorem foldlM_flatMap_signedLines (parts : List (Part String)) (passed : Nat)
    (ahead made : List (List Char)) :
    (parts.flatMap Part.signedLines).foldlM Progress.followLine
        ⟨passed, charLines (parts.flatMap Part.before) ++ ahead, made,
          (parts.flatMap Part.before).length, (parts.flatMap Part.after).length⟩ =
      some ⟨passed + (parts.flatMap Part.before).length, ahead,
        made ++ charLines (parts.flatMap Part.after), 0, 0⟩ := by
  induction parts generalizing passed made with
  | nil => simp [charLines]
  | cons part parts ih =>
    simp only [List.flatMap_cons, charLines_append, List.length_append, List.append_assoc,
      List.foldlM_append]
    rw [part.foldlM_signedLines, Option.bind_eq_bind, Option.bind_some, ih, Nat.add_assoc,
      List.append_assoc]

/-! ## Hunks -/

/-- The lines of a hunk behind its header. -/
def Hunk.body (hunk : Hunk) : List (List Char) := hunk.parts.flatMap Part.signedLines

/-- The lines of a hunk. -/
def Hunk.lines (hunk : Hunk) : List (List Char) := headerLine hunk :: hunk.body

/-- The lines of a hunk take the one text to the other, up to its end. -/
theorem Hunk.foldlM_lines {hunk : Hunk} {passed : Nat} {gap : List String}
    {made : List (List Char)} (before : hunk.before = passed + gap.length)
    (after : hunk.after = made.length + gap.length) (ahead : List (List Char)) :
    hunk.lines.foldlM Progress.followLine
        ⟨passed, charLines (gap ++ hunk.parts.flatMap Part.before) ++ ahead, made, 0, 0⟩ =
      some ⟨hunk.before + hunk.beforeCount, ahead,
        made ++ charLines (gap ++ hunk.parts.flatMap Part.after), 0, 0⟩ := by
  have start : Progress.followLine
      ⟨passed, charLines (gap ++ hunk.parts.flatMap Part.before) ++ ahead, made, 0, 0⟩
      (headerLine hunk) =
      some ⟨hunk.before, charLines (hunk.parts.flatMap Part.before) ++ ahead, made ++ charLines gap,
        hunk.beforeCount, hunk.afterCount⟩ := by
    have length := length_charLines gap
    rw [Progress.followLine, directive?_headerLine, Option.bind_some]
    simp [Progress.follow, charLines_append, before, after, ← length]
  rw [Hunk.lines, List.foldlM_cons, start, Option.bind_eq_bind, Option.bind_some, Hunk.beforeCount,
    Hunk.afterCount, Hunk.body, foldlM_flatMap_signedLines, charLines_append, List.append_assoc]

/-- Hunks one behind the other over two texts, from a place of each on: between them, and behind the
last one, the texts are the same. -/
inductive Covers : Nat → Nat → List Hunk → List String → List String → Prop where
  | rest (passed made : Nat) (lines : List String) : Covers passed made [] lines lines
  | hunk {passed made : Nat} {hunk : Hunk} {hunks : List Hunk} {gap before after : List String}
      (startsBefore : hunk.before = passed + gap.length)
      (startsAfter : hunk.after = made + gap.length)
      (covers : Covers (hunk.before + hunk.beforeCount) (hunk.after + hunk.afterCount) hunks before
        after) :
      Covers passed made (hunk :: hunks) (gap ++ hunk.parts.flatMap Part.before ++ before)
        (gap ++ hunk.parts.flatMap Part.after ++ after)

/-- The lines of hunks over two texts take the one to the other. -/
theorem Covers.patchedLines {passed : Nat} {made : List (List Char)} {hunks : List Hunk}
    {before after : List String} (covers : Covers passed made.length hunks before after) :
    ((hunks.flatMap Hunk.lines).foldlM Progress.followLine
        ⟨passed, charLines before, made, 0, 0⟩).bind Progress.finish? =
      some (made ++ charLines after) := by
  generalize place : made.length = length at covers
  induction covers generalizing made with
  | rest => rfl
  | @hunk _ _ hunk _ gap _ _ startsBefore startsAfter covers ih =>
    subst place
    have place : (made ++ charLines (gap ++ hunk.parts.flatMap Part.after)).length =
        hunk.after + hunk.afterCount := by
      rw [List.length_append, length_charLines, List.length_append, startsAfter, Nat.add_assoc,
        Hunk.afterCount]
    rw [List.flatMap_cons, List.foldlM_append, charLines_append,
      Hunk.foldlM_lines startsBefore startsAfter, Option.bind_eq_bind, Option.bind_some, ih place,
      List.append_assoc, ← charLines_append]

/-- A line that is left out must be the one that stands there: no longer one is left out in its place. -/
theorem patchedLines?_longer {lines front rest others : List (List Char)} {line more : List Char}
    (applies : (patchedLines? lines (front ++ ('-' :: line) :: rest)).isSome) (grown : more ≠ []) :
    patchedLines? lines (front ++ ('-' :: line ++ more) :: others) = none := by
  rw [patchedLines?, List.foldlM_append] at applies ⊢
  cases reached : front.foldlM Progress.followLine ⟨0, lines, [], 0, 0⟩ with
  | none => rfl
  | some progress =>
    rw [reached, Option.bind_eq_bind, Option.bind_some, List.foldlM_cons] at applies
    have ahead : [line] <+: progress.ahead := by
      by_contra apart
      have stuck : progress.followLine ('-' :: line) = none := by
        simp [Progress.followLine, directive?, Progress.follow, apart]
      rw [stuck] at applies
      exact Bool.noConfusion applies
    obtain ⟨behind, ahead⟩ := ahead
    have stuck : progress.followLine ('-' :: line ++ more) = none := by
      simp [Progress.followLine, directive?, Progress.follow, ← ahead, grown]
    rw [Option.bind_eq_bind, Option.bind_some, List.foldlM_cons, stuck]
    rfl

end Diff
end StoryMigration
