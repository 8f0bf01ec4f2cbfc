import Mathlib.Data.List.Basic
import StoryMigration.Diff.Lines

/-!
# Cutting joined lines

Lines that are joined are cut where they were joined as long as each of them is ended. A line that is not
ended grows into the one that is joined to it. The lines of a text are single lines, and all but the last
one of them are ended.
-/

namespace StoryMigration
namespace Diff

/-- A single line: only its last character ends a line, or its last two do together. -/
inductive OneLine : List Char → Prop where
  | last (c : Char) : OneLine [c]
  | feed : OneLine ['\r', '\n']
  | cons {c : Char} {line : List Char} (plain : endsLine c = false) (one : OneLine line) :
      OneLine (c :: line)

/-- A line whose last character ends it. -/
def Ended (line : List Char) : Prop := ∃ c ∈ line.getLast?, endsLine c = true

/-- All lines are ended but the last one. -/
def AllEnded (lines : List (List Char)) : Prop := lines.Pairwise fun line _ => Ended line

theorem OneLine.ne_nil {line : List Char} (one : OneLine line) : line ≠ [] := by
  cases one <;> exact List.cons_ne_nil _ _

theorem Ended.cons {line : List Char} (ended : Ended line) (c : Char) : Ended (c :: line) := by
  obtain ⟨stop, last, ends⟩ := ended
  refine ⟨stop, ?_, ends⟩
  rw [List.getLast?_cons, last]
  rfl

theorem ended_cons_iff {c : Char} {line : List Char} (present : line ≠ []) :
    Ended (c :: line) ↔ Ended line := by
  rw [Ended, List.getLast?_cons, List.getLast?_eq_some_getLast present]
  simp [Ended, List.getLast?_eq_some_getLast present]

theorem linesOfChars_cons {c : Char} {text : List Char}
    (apart : c = '\r' → text.head? ≠ some '\n') :
    linesOfChars (c :: text) = consLine c (linesOfChars text) := by
  rw [linesOfChars]
  rintro rest rfl rfl
  exact apart rfl rfl

theorem linesOfChars_cons_plain {c : Char} {text : List Char} (plain : endsLine c = false) :
    linesOfChars (c :: text) = consLine c (linesOfChars text) := by
  refine linesOfChars_cons fun isReturn => ?_
  subst isReturn
  exact absurd plain (by decide)

theorem consLine_ends {c : Char} (ends : endsLine c = true) (lines : List (List Char)) :
    consLine c lines = [c] :: lines := by
  simp [consLine, ends]

theorem consLine_plain {c : Char} (plain : endsLine c = false) (line : List Char)
    (rest : List (List Char)) : consLine c (line :: rest) = (c :: line) :: rest := by
  simp [consLine, plain]

theorem linesOfChars_eq_nil_iff {text : List Char} : linesOfChars text = [] ↔ text = [] := by
  constructor
  · intro none
    rw [← flatten_linesOfChars text, none]
    rfl
  · rintro rfl
    rfl

/-! ## The lines of a text -/

theorem oneLine_of_mem_consLine {c : Char} {lines : List (List Char)}
    (ones : ∀ line ∈ lines, OneLine line) : ∀ line ∈ consLine c lines, OneLine line := by
  unfold consLine
  split
  · exact List.forall_mem_cons.2 ⟨.last c, ones⟩
  next plain =>
    cases lines with
    | nil => exact List.forall_mem_cons.2 ⟨.last c, ones⟩
    | cons line rest =>
      rw [List.forall_mem_cons] at ones ⊢
      exact ⟨.cons (Bool.eq_false_iff.2 plain) ones.1, ones.2⟩

theorem oneLine_of_mem (text : List Char) : ∀ line ∈ linesOfChars text, OneLine line := by
  fun_induction linesOfChars text with
  | case1 rest ih => exact List.forall_mem_cons.2 ⟨.feed, ih⟩
  | case2 c rest _ ih => exact oneLine_of_mem_consLine ih
  | case3 => exact List.forall_mem_nil _

theorem allEnded_consLine {c : Char} {lines : List (List Char)} (ended : AllEnded lines) :
    AllEnded (consLine c lines) := by
  unfold consLine
  split
  next ends => exact List.pairwise_cons.2 ⟨fun _ _ => ⟨c, rfl, ends⟩, ended⟩
  · cases lines with
    | nil => exact List.pairwise_singleton _ _
    | cons line rest =>
      obtain ⟨first, others⟩ := List.pairwise_cons.1 ended
      exact List.pairwise_cons.2 ⟨fun next mem => (first next mem).cons c, others⟩

/-- All lines of a text are ended but the last one. -/
theorem allEnded_linesOfChars (text : List Char) : AllEnded (linesOfChars text) := by
  fun_induction linesOfChars text with
  | case1 rest ih => exact List.pairwise_cons.2 ⟨fun _ _ => ⟨'\n', rfl, rfl⟩, ih⟩
  | case2 c rest _ ih => exact allEnded_consLine ih
  | case3 => exact .nil

/-- All lines of a text are ended if the text is. -/
theorem ended_of_mem {text : List Char} (ended : Ended text) :
    ∀ line ∈ linesOfChars text, Ended line := by
  have all := allEnded_linesOfChars text
  have joined := flatten_linesOfChars text
  have ones := oneLine_of_mem text
  obtain none | ⟨front, last, lines⟩ := (linesOfChars text).eq_nil_or_concat
  · rw [none]
    exact List.forall_mem_nil _
  · rw [lines, List.concat_eq_append] at all joined ones ⊢
    have one : OneLine last := ones last (by simp)
    rw [List.flatten_append, List.flatten_singleton] at joined
    rw [← joined, Ended, List.getLast?_append_of_ne_nil _ one.ne_nil] at ended
    exact List.forall_mem_append.2 ⟨fun line mem =>
      (List.pairwise_append.1 all).2.2 line mem last (List.mem_singleton_self last),
      List.forall_mem_singleton.2 ended⟩

/-! ## A line in front of a text -/

/-- Behind a line that is ended another line starts. -/
theorem OneLine.linesOfChars_append_ended {line : List Char} (one : OneLine line)
    (ended : Ended line) {text : List Char} (apart : text.head? ≠ some '\n') :
    linesOfChars (line ++ text) = line :: linesOfChars text := by
  induction one with
  | last c =>
    obtain ⟨stop, last, ends⟩ := ended
    obtain rfl : c = stop := Option.some.inj last
    rw [List.singleton_append, linesOfChars_cons fun _ => apart, consLine_ends ends]
  | feed => rfl
  | cons plain one ih =>
    rw [List.cons_append, linesOfChars_cons_plain plain,
      ih ((ended_cons_iff one.ne_nil).1 ended), consLine_plain plain]

/-- A line that is not ended grows into the first line of the text behind it. -/
theorem OneLine.linesOfChars_append_open {line : List Char} (one : OneLine line)
    (unended : ¬Ended line) {text first : List Char} {others : List (List Char)}
    (lines : linesOfChars text = first :: others) :
    linesOfChars (line ++ text) = (line ++ first) :: others := by
  induction one with
  | last c =>
    have plain : endsLine c = false := Bool.eq_false_iff.2 fun ends => unended ⟨c, rfl, ends⟩
    rw [List.singleton_append, linesOfChars_cons_plain plain, lines, consLine_plain plain,
      List.singleton_append]
  | feed => exact absurd ⟨'\n', rfl, rfl⟩ unended
  | cons plain one ih =>
    rw [List.cons_append, linesOfChars_cons_plain plain,
      ih fun ended => unended (ended.cons _), consLine_plain plain, List.cons_append]

theorem OneLine.linesOfChars_eq {line : List Char} (one : OneLine line) :
    linesOfChars line = [line] := by
  induction one with
  | last c => rw [linesOfChars_cons fun _ => by simp, linesOfChars, consLine, ite_self]
  | feed => rfl
  | cons plain one ih =>
    rw [linesOfChars_cons_plain plain, ih, consLine_plain plain]

theorem OneLine.of_plain {front : List Char} (plain : ∀ c ∈ front, endsLine c = false)
    (stop : Char) : OneLine (front ++ [stop]) := by
  induction front with
  | nil => exact .last stop
  | cons c front ih =>
    rw [List.forall_mem_cons] at plain
    exact .cons plain.1 (ih plain.2)

/-! ## Joined lines -/

/-- Lines that can be joined: none of them begins with what could end the one before it. -/
def Joinable (lines : List (List Char)) : Prop :=
  ∀ line ∈ lines, OneLine line ∧ line.head? ≠ some '\n'

theorem Joinable.head_flatten {lines : List (List Char)} (joinable : Joinable lines) :
    lines.flatten.head? ≠ some '\n' := by
  cases lines with
  | nil => simp
  | cons line rest =>
    obtain ⟨one, apart⟩ := joinable line List.mem_cons_self
    rwa [List.flatten_cons, List.head?_append_of_ne_nil _ one.ne_nil]

theorem linesOfChars_flatten_append {lines : List (List Char)} (joinable : Joinable lines)
    (ended : ∀ line ∈ lines, Ended line) {text : List Char} (apart : text.head? ≠ some '\n') :
    linesOfChars (lines.flatten ++ text) = lines ++ linesOfChars text := by
  induction lines with
  | nil => rfl
  | cons line rest ih =>
    obtain ⟨one, rest'⟩ := List.forall_mem_cons.1 joinable
    obtain ⟨lineEnded, restEnded⟩ := List.forall_mem_cons.1 ended
    have apart' : (rest.flatten ++ text).head? ≠ some '\n' := by
      have first := Joinable.head_flatten rest'
      cases start : rest.flatten <;> simp_all
    rw [List.flatten_cons, List.append_assoc,
      one.1.linesOfChars_append_ended lineEnded apart', ih rest' restEnded, List.cons_append]

/-- Joined lines are cut where they were joined if all but the last one are ended. -/
theorem linesOfChars_flatten {lines : List (List Char)} (joinable : Joinable lines)
    (ended : AllEnded lines) : linesOfChars lines.flatten = lines := by
  obtain rfl | ⟨front, last, rfl⟩ := lines.eq_nil_or_concat
  · rfl
  · rw [List.concat_eq_append] at joinable ended ⊢
    obtain ⟨one, apart⟩ := joinable last (by simp)
    have frontEnded : ∀ line ∈ front, Ended line := fun line mem =>
      (List.pairwise_append.1 ended).2.2 line mem last (List.mem_singleton_self last)
    rw [List.flatten_append, List.flatten_singleton,
      linesOfChars_flatten_append (fun line mem => joinable line (by simp [mem])) frontEnded apart,
      one.linesOfChars_eq]

/-- Where the lines are not all ended, the first one that is not grows. -/
theorem exists_grown_line {lines : List (List Char)} (joinable : Joinable lines)
    (unended : ¬AllEnded lines) :
    ∃ front line rest more others, lines = front ++ line :: rest ∧ rest ≠ [] ∧ ¬Ended line ∧
      more ≠ [] ∧ linesOfChars lines.flatten = front ++ (line ++ more) :: others := by
  induction lines with
  | nil => exact absurd .nil unended
  | cons line rest ih =>
    obtain ⟨⟨one, _⟩, joinable'⟩ := List.forall_mem_cons.1 joinable
    by_cases ended : Ended line
    · have unended' : ¬AllEnded rest := fun all =>
        unended (List.pairwise_cons.2 ⟨fun _ _ => ended, all⟩)
      obtain ⟨front, grown, behind, more, others, rfl, present, isOpen, grows, cut⟩ :=
        ih joinable' unended'
      refine ⟨line :: front, grown, behind, more, others, rfl, present, isOpen, grows, ?_⟩
      rw [List.flatten_cons, one.linesOfChars_append_ended ended
        (Joinable.head_flatten joinable'), cut, List.cons_append]
    · have present : rest ≠ [] := fun none =>
        unended (none ▸ List.pairwise_singleton _ line)
      have text : rest.flatten ≠ [] := by
        obtain ⟨next, behind, rfl⟩ := List.exists_cons_of_ne_nil present
        exact List.append_ne_nil_of_left_ne_nil (joinable' next List.mem_cons_self).1.ne_nil _
      obtain ⟨first, others, cut⟩ :=
        List.exists_cons_of_ne_nil (mt linesOfChars_eq_nil_iff.1 text)
      have single : OneLine first := oneLine_of_mem _ _ (cut ▸ List.mem_cons_self)
      refine ⟨[], line, rest, first, others, rfl, present, ended, single.ne_nil, ?_⟩
      rw [List.flatten_cons, one.linesOfChars_append_open ended cut, List.nil_append]

/-- However joined lines are cut, every line begins as one of them does. -/
theorem exists_head_eq {lines : List (List Char)} (joinable : Joinable lines) {line : List Char}
    (mem : line ∈ linesOfChars lines.flatten) :
    ∃ joined ∈ lines, joined.head? = line.head? := by
  induction lines with
  | nil => cases mem
  | cons first rest ih =>
    obtain ⟨⟨one, _⟩, joinable'⟩ := List.forall_mem_cons.1 joinable
    have fromRest (mem : line ∈ linesOfChars rest.flatten) :
        ∃ joined ∈ first :: rest, joined.head? = line.head? := by
      obtain ⟨joined, among, same⟩ := ih joinable' mem
      exact ⟨joined, List.mem_cons_of_mem _ among, same⟩
    rw [List.flatten_cons] at mem
    by_cases ended : Ended first
    · rw [one.linesOfChars_append_ended ended (Joinable.head_flatten joinable'),
        List.mem_cons] at mem
      obtain rfl | mem := mem
      · exact ⟨line, List.mem_cons_self, rfl⟩
      · exact fromRest mem
    cases cut : linesOfChars rest.flatten with
    | nil =>
      rw [linesOfChars_eq_nil_iff.1 cut, List.append_nil, one.linesOfChars_eq,
        List.mem_singleton] at mem
      exact ⟨first, List.mem_cons_self, mem ▸ rfl⟩
    | cons next others =>
      rw [one.linesOfChars_append_open ended cut, List.mem_cons] at mem
      obtain rfl | mem := mem
      · exact ⟨first, List.mem_cons_self, (List.head?_append_of_ne_nil _ one.ne_nil).symm⟩
      · exact fromRest (cut ▸ List.mem_cons_of_mem _ mem)

end Diff
end StoryMigration
