import StoryMigration.Proofs.Tree

/-!
# The spans of all statements

The search for the lines that go with a statement passes over one blank line
after another and comes to an end.  What goes with a statement is the statement
and white space around it, in whole lines, and what goes with another one
stands in front of it or behind, with or without the blank lines.
-/

namespace StoryMigration
namespace LineSpan

open Syntax

variable {bytes line rest : List UInt8} {offset next last stop : Nat}

/-! ## One blank line after another -/

/-- From one offset up to another there is a blank line with its line feed. -/
def BlankLine (bytes : List UInt8) (offset next : Nat) : Prop :=
  ∃ line rest, bytes.drop offset = line ++ 0x0a :: rest ∧ 0x0a ∉ line ∧
    line.all isBlankByte = true ∧ next = offset + (line.length + 1)

/-- The search from one offset on, a blank line after the other, ends at
another one. -/
inductive Passes (bytes : List UInt8) : Nat → Nat → Prop where
  | done {offset : Nat} :
      (∀ next, ¬BlankLine bytes offset next) → Passes bytes offset offset
  | line {offset next stop : Nat} :
      BlankLine bytes offset next → Passes bytes next stop →
        Passes bytes offset stop

/-- No two blank lines start at the same offset. -/
theorem BlankLine.unique
    (first : BlankLine bytes offset next)
    (second : BlankLine bytes offset last) :
    next = last := by
  obtain ⟨line, rest, split, noFeed, -, rfl⟩ := first
  obtain ⟨line', rest', split', noFeed', -, rfl⟩ := second
  have same : line = line' := by
    rw [← takeWhile_line noFeed rest, ← split, split',
      takeWhile_line noFeed']
  rw [same]

/-- The search ends at one place only. -/
theorem Passes.unique
    (first : Passes bytes offset stop)
    (second : Passes bytes offset last) :
    stop = last := by
  induction first with
  | done ends =>
    cases second with
    | done => rfl
    | line blank => exact absurd blank (ends _)
  | line blank _ restHypothesis =>
    cases second with
    | done ends => exact absurd blank (ends _)
    | line blank' passes =>
      rw [← blank.unique blank'] at passes
      exact restHypothesis passes

/-- With a step for each byte the blank lines are counted to their end. -/
theorem passes_blankLines
    (fuel offset : Nat)
    (enough : (bytes.drop offset).length ≤ fuel) :
    Passes bytes offset (offset + blankLines fuel (bytes.drop offset)) := by
  induction fuel generalizing offset with
  | zero =>
    refine .done fun next isBlank => ?_
    obtain ⟨line, rest, split, _⟩ := isBlank
    rw [split, List.length_append, List.length_cons] at enough
    omega
  | succ fuel fuelHypothesis =>
    simp only [blankLines]
    rcases line_split (bytes.drop offset) with whole | ⟨rest, split⟩
    · -- the last line has no line feed
      rw [whole, List.drop_length, List.isEmpty_nil, Bool.true_or, if_pos rfl]
      refine .done fun next isBlank => ?_
      obtain ⟨line, rest, split, noFeed, _⟩ := isBlank
      rw [split, takeWhile_line noFeed] at whole
      have lengths := congrArg List.length whole
      rw [List.length_append, List.length_cons] at lengths
      omega
    · have noFeed : 0x0a ∉ (bytes.drop offset).takeWhile (· != 0x0a) :=
        fun member => absurd (List.mem_takeWhile_imp member) (by decide)
      generalize (bytes.drop offset).takeWhile (· != 0x0a) = line at *
      rw [split, List.drop_left, List.isEmpty_cons, Bool.false_or,
        List.drop_one, List.tail_cons]
      by_cases blank : line.all isBlankByte = true
      · rw [blank, Bool.not_true, if_neg Bool.false_ne_true]
        have later : bytes.drop (offset + (line.length + 1)) = rest := by
          rw [← List.drop_drop, split, ← List.drop_drop, List.drop_left,
            List.drop_one, List.tail_cons]
        rw [split, List.length_append, List.length_cons] at enough
        have passes := fuelHypothesis (offset + (line.length + 1))
          (by rw [later]; omega)
        rw [later, Nat.add_assoc] at passes
        exact .line ⟨line, rest, split, noFeed, blank, rfl⟩ passes
      · rw [Bool.not_eq_true] at blank
        rw [blank, Bool.not_false, if_pos rfl]
        refine .done fun next isBlank => ?_
        obtain ⟨line', rest', split', noFeed', blank', _⟩ := isBlank
        have same : line' = line := by
          rw [← takeWhile_line noFeed' rest', ← split', split,
            takeWhile_line noFeed]
        rw [same, blank] at blank'
        contradiction

/-- The search always comes to an end. -/
theorem existsUnique_passes
    (bytes : List UInt8)
    (offset : Nat) :
    ∃! stop, Passes bytes offset stop :=
  ⟨_, passes_blankLines _ offset (Nat.le_refl _),
    fun _ passes => passes.unique (passes_blankLines _ offset (Nat.le_refl _))⟩

/-- With its blank lines a statement goes up to where the search behind its own
line ends. -/
theorem passes_around
    (bytes : List UInt8)
    (node : Node) :
    Passes bytes (around bytes node false).stop (around bytes node true).stop := by
  simp only [around, blankBehind, Bool.false_eq_true, if_false, if_true]
  by_cases blank : ((bytes.drop node.stop).takeWhile (· != 0x0a)).all
    isBlankByte = true
  · rw [blank, Bool.not_true, if_neg Bool.false_ne_true,
      if_neg Bool.false_ne_true, ← Nat.add_assoc]
    generalize (bytes.drop node.stop).takeWhile (· != 0x0a) = line
    have later : (bytes.drop node.stop).drop (line.length + 1) =
        bytes.drop (node.stop +
          min (line.length + 1) (bytes.drop node.stop).length) := by
      rcases Nat.le_total (line.length + 1) (bytes.drop node.stop).length with
        inside | short
      · rw [Nat.min_eq_left inside, List.drop_drop]
      · rw [Nat.min_eq_right short, List.drop_eq_nil_of_le short,
          ← List.drop_drop, List.drop_length]
    rw [later]
    exact passes_blankLines _ _ (Nat.le_refl _)
  · rw [Bool.not_eq_true] at blank
    rw [blank, Bool.not_false, if_pos rfl, if_pos rfl]
    refine .done fun next isBlank => ?_
    obtain ⟨line, rest, split, noFeed, lineBlank, _⟩ := isBlank
    rw [Nat.add_zero] at split
    rw [split, takeWhile_line noFeed, lineBlank] at blank
    contradiction

/-! ## All statements of a module -/

/-- The statements of a module stand one behind the other, and each of them
starts and stops on a byte that is not blank. -/
structure Edged (m : Module) : Prop where
  inTurn : m.statements.Pairwise fun a b => a.stop ≤ b.start
  forward : ∀ statement ∈ m.statements, statement.start < statement.stop
  starts : ∀ statement ∈ m.statements, Solid m.bytes statement.start
  stops : ∀ statement ∈ m.statements, Solid m.bytes (statement.stop - 1)

instance (m : Module) : Decidable (Edged m) :=
  decidable_of_iff
    ((m.statements.Pairwise fun a b => a.stop ≤ b.start) ∧
      (∀ statement ∈ m.statements, statement.start < statement.stop) ∧
      (∀ statement ∈ m.statements, Solid m.bytes statement.start) ∧
      ∀ statement ∈ m.statements, Solid m.bytes (statement.stop - 1))
    ⟨fun ⟨inTurn, forward, starts, stops⟩ => ⟨inTurn, forward, starts, stops⟩,
      fun edged => ⟨edged.inTurn, edged.forward, edged.starts, edged.stops⟩⟩

theorem Edged.anchored
    {m : Module}
    {statement : Node}
    (edged : Edged m)
    (member : statement ∈ m.statements) :
    Anchored m.bytes statement :=
  .of_ends (edged.forward _ member) (edged.starts _ member)
    (edged.stops _ member)

/-- What goes with a statement is white space around it. -/
theorem Edged.grown
    {m : Module}
    {statement : Node}
    (edged : Edged m)
    (member : statement ∈ m.statements)
    (absorb : Bool) :
    Grown m.bytes statement (around m.bytes statement absorb) := by
  have forward := edged.forward _ member
  have inside := (edged.stops _ member).lt_length
  exact around_grown absorb (by omega) (by omega)

/-- With every statement goes white space up to the start and the end of lines,
the search for blank lines behind it ends, and what goes with one statement
stands in front of what goes with a later one. -/
theorem spans_of_statements_apart
    {m : Module}
    (edged : Edged m) :
    (∀ statement ∈ m.statements,
        (∀ absorb,
          Grown m.bytes statement (around m.bytes statement absorb)) ∧
        (∃! stop, Passes m.bytes (around m.bytes statement false).stop stop) ∧
        Passes m.bytes (around m.bytes statement false).stop
          (around m.bytes statement true).stop) ∧
      m.statements.Pairwise fun a b => ∀ absorbA absorbB,
        (around m.bytes a absorbA).stop ≤ (around m.bytes b absorbB).start := by
  refine ⟨fun statement member => ⟨edged.grown member,
    existsUnique_passes _ _, passes_around _ _⟩, ?_⟩
  refine edged.inTurn.imp_of_mem ?_
  intro a b aMember bMember ordered absorbA absorbB
  exact (edged.grown aMember absorbA).stop_le_start
    (edged.grown bMember absorbB) ordered (edged.anchored aMember)
    (edged.anchored bMember)

set_option maxRecDepth 100000 in
/-- Four statements, two of them on one line, with blank lines of all kinds and
no line feed at the end. -/
theorem spans_of_statements_apart_shared_line :
    ∃ m, Module.parse? .javascript "a();\r\n \r\n\n  b(); c();\n\t\n d()" =
        some m ∧
      Edged m ∧
      m.statements.map (around m.bytes · false) =
        [⟨0, 6⟩, ⟨10, 16⟩, ⟨17, 22⟩, ⟨24, 28⟩] ∧
      m.statements.map (around m.bytes · true) =
        [⟨0, 10⟩, ⟨10, 16⟩, ⟨17, 24⟩, ⟨24, 28⟩] ∧
      (∀ statement ∈ m.statements, ∀ absorb,
        Grown m.bytes statement (around m.bytes statement absorb)) ∧
      m.statements.Pairwise fun a b => ∀ absorbA absorbB,
        (around m.bytes a absorbA).stop ≤ (around m.bytes b absorbB).start := by
  have checked : (Module.parse? .javascript
      "a();\r\n \r\n\n  b(); c();\n\t\n d()").any (fun m =>
        decide (Edged m) &&
          decide (m.statements.map (around m.bytes · false) =
            [⟨0, 6⟩, ⟨10, 16⟩, ⟨17, 22⟩, ⟨24, 28⟩]) &&
          decide (m.statements.map (around m.bytes · true) =
            [⟨0, 10⟩, ⟨10, 16⟩, ⟨17, 24⟩, ⟨24, 28⟩])) = true := by
    decide +kernel
  obtain ⟨m, parsed, checked⟩ := (Option.any_eq_true _ _).1 checked
  simp only [Bool.and_eq_true, decide_eq_true_eq] at checked
  obtain ⟨⟨edged, alone⟩, together⟩ := checked
  obtain ⟨grown, apart⟩ := spans_of_statements_apart edged
  exact ⟨m, parsed, edged, alone, together,
    fun statement member => (grown statement member).1, apart⟩

end LineSpan
end StoryMigration
