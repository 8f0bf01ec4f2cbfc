import StoryMigration.Proofs.Guards
import StoryMigration.Proofs.RuntimeExports

/-!
# Uses of the variable of a fragment

A chain may be bound to a variable whose declaration goes with the chain, so
nothing else may use it.  The search compares how often the name occurs with
the number of the fragment's statements.  Each of these mentions the name, so
the numbers agree exactly when each mentions it once and nothing else does.
That finds every use of a plain variable but an assignment through a shorthand
pattern, and it is not done for variables bound by a pattern.
-/

namespace StoryMigration
namespace Chain

open Syntax Fallible

variable {m : Module} {localName : String}

/-! ## Occurrences of a name -/

theorem uses_eq_countP
    (m : Module)
    (name : String) :
    uses m name = m.tree.preorder.countP (isOccurrence m name) := by
  rw [List.countP_eq_length_filter]
  rfl

theorem Mentions.countIn_pos
    {name : String}
    {node : Node}
    (mentions : Mentions m name node) :
    0 < countIn (isOccurrence m name) [node] := by
  obtain ⟨inner, below, isIdentifier, text⟩ := mentions
  refine Syntax.countIn_pos.2 ⟨inner, below, ?_⟩
  unfold isOccurrence
  rw [isIdentifier, text, beq_self_eq_true, beq_self_eq_true]
  rfl

/-- A node at or below a part of the module that is none of the fragment's
statements: these are still there, in their order, without it. -/
def Outside (m : Module) (fragment : Fragment) (node : Node) : Prop :=
  node = m.tree ∨ ∃ front part back, m.tree.children = front ++ part :: back ∧
    fragment.statements.Sublist (front ++ back) ∧ node ∈ part.preorder

/-- A name that the module mentions more often than the fragment occurs outside
it. -/
theorem exists_occurrence_outside
    {fragment : Fragment}
    {name : String}
    (sublist : fragment.statements.Sublist m.statements)
    (more : countIn (isOccurrence m name) fragment.statements <
      countIn (isOccurrence m name) m.tree.children) :
    ∃ node, Outside m fragment node ∧ isOccurrence m name node = true := by
  obtain ⟨front, part, back, split, stays, counts⟩ :=
    exists_outside (sublist.trans m.tree.parts_sublist) more
  obtain ⟨node, below, occurs⟩ := countIn_pos.1 counts
  exact ⟨node, .inr ⟨front, part, back, split, stays, below⟩, occurs⟩

/-- The name occurs as often as the fragment has statements exactly when each
of them mentions it once and nothing outside does. -/
theorem uses_eq_length_iff
    {fragment : Fragment}
    {name : String}
    (sublist : fragment.statements.Sublist m.statements)
    (mentions : ∀ statement ∈ fragment.statements, Mentions m name statement) :
    uses m name = fragment.statements.length ↔
      (∀ statement ∈ fragment.statements,
        countIn (isOccurrence m name) [statement] = 1) ∧
      ∀ node, Outside m fragment node → isOccurrence m name node = false := by
  have each (statement : Node) (member : statement ∈ fragment.statements) :
      0 < countIn (isOccurrence m name) [statement] :=
    (mentions statement member).countIn_pos
  have isPart := sublist.trans m.tree.parts_sublist
  have least := length_le_countIn each
  have most := countIn_le_of_sublist (isOccurrence m name) isPart
  rw [uses_eq_countP, countP_preorder, ← countIn_eq_length_iff each]
  constructor
  · intro same
    refine ⟨by omega, fun node outside => ?_⟩
    by_contra occurs
    rw [Bool.not_eq_false] at occurs
    rcases outside with rfl | ⟨front, part, back, split, stays, below⟩
    · rw [if_pos occurs] at same
      omega
    · have partCounts := Syntax.countIn_pos.2 ⟨node, below, occurs⟩
      have stayCount := countIn_le_of_sublist (isOccurrence m name) stays
      rw [split, countIn_append, countIn_cons] at same
      rw [countIn_append] at stayCount
      omega
  · rintro ⟨once, silent⟩
    rw [silent m.tree (.inl rfl), if_neg Bool.false_ne_true]
    by_contra more
    have fewer : countIn (isOccurrence m name) fragment.statements <
        countIn (isOccurrence m name) m.tree.children := by
      omega
    obtain ⟨node, outside, occurs⟩ := exists_occurrence_outside sublist fewer
    rw [silent node outside] at occurs
    contradiction

/-! ## Names that a fragment binds -/

/-- What the declarators of a statement bind: patterns, or names by themselves. -/
def boundPatterns (statement : Node) : List Node :=
  (statement.children.filter (·.kind == .variableDeclarator)).filterMap
    (·.child? .name)

/-- A statement of the fragment binds a name, perhaps through a pattern. -/
def BindsName (m : Module) (fragment : Fragment) (name : String) : Prop :=
  ∃ pattern ∈ fragment.statements.flatMap boundPatterns,
    ∃ word, Binds pattern word ∧ m.text word = name

theorem bindsName_of_any
    {fragment : Fragment}
    {name : String}
    (found : (fragment.statements.flatMap boundPatterns).any (fun pattern =>
      (Exports.patternNames pattern).any (m.text · == name)) = true) :
    BindsName m fragment name := by
  obtain ⟨pattern, isPattern, found⟩ := List.any_eq_true.1 found
  obtain ⟨word, isWord, text⟩ := List.any_eq_true.1 found
  exact ⟨pattern, isPattern, word, Exports.binds_of_mem isWord, beq_iff_eq.1 text⟩

/-- Keywords that make the head of a loop declare its variable. -/
def isDeclaring (m : Module) (node : Node) : Bool :=
  node.kind == .token && ["var", "let", "const"].contains (m.text node)

/-- The names that a node assigns, also through patterns: the targets of an
assignment, and those of a loop over members that declares no variable. -/
def assignedNames (m : Module) (node : Node) : List Node :=
  if node.kind == .assignment then
    ((node.child? .left).map Exports.patternNames).getD []
  else if node.kind == .forInStatement && !node.children.any (isDeclaring m) then
    Exports.allOf (node.children.filter fun child =>
      child.kind == .objectPattern || child.kind == .arrayPattern)
  else []

/-- A node reads a name, or assigns it.  The word for the undefined value is a name
of its own kind. -/
def Uses (m : Module) (name : String) (node : Node) : Prop :=
  isOccurrence m name node = true ∨
    (node.kind = .undefinedWord ∧ m.text node = name) ∨
    ∃ target ∈ assignedNames m node, m.text target = name

/-- A name that the fragment binds is used outside its statements. -/
def UsedOutside (m : Module) (fragment : Fragment) : Prop :=
  ∃ name, BindsName m fragment name ∧ ∃ node, Outside m fragment node ∧
    Uses m name node

/-- The search sees a further use: the variable is a plain one, and occurs
outside the fragment or not just once in one of its statements. -/
def FurtherUse (m : Module) (fragment : Fragment) : Prop :=
  ∃ name, fragment.binding = some name ∧
    ((∃ node, Outside m fragment node ∧ isOccurrence m name node = true) ∨
      ∃ statement ∈ fragment.statements,
        countIn (isOccurrence m name) [statement] ≠ 1)

/-- A fragment is supported exactly when its links are well formed and no
further use of its variable is seen. -/
theorem isSupported_iff
    {fragment : Fragment}
    (grounded : fragment.Grounded m localName)
    (sublist : fragment.statements.Sublist m.statements) :
    isSupported m fragment = true ↔
      fragment.links.all (·.isWellFormed) = true ∧ ¬FurtherUse m fragment := by
  unfold isSupported
  rw [Bool.and_eq_true]
  apply and_congr_right
  intro _
  unfold FurtherUse
  rcases binding : fragment.binding with _ | name
  · simp
  · simp only [beq_iff_eq, Option.some.injEq, exists_eq_left']
    rw [uses_eq_length_iff sublist (grounded.mentions name binding)]
    constructor
    · rintro ⟨once, silent⟩ (⟨node, outside, occurs⟩ | ⟨statement, member, other⟩)
      · rw [silent node outside] at occurs
        contradiction
      · exact other (once statement member)
    · intro noFurther
      refine ⟨fun statement member => ?_, fun node outside => ?_⟩
      · by_contra other
        exact noFurther (.inr ⟨statement, member, other⟩)
      · by_contra occurs
        rw [Bool.not_eq_false] at occurs
        exact noFurther (.inl ⟨node, outside, occurs⟩)

end Chain

namespace Migration

open Syntax Chain Fallible

variable {m : Module} {options : Options} {located : Located}

/-- In a module with one chain and without a default export, no name that the
chain's statements bind is used outside them when it is converted, and it is
reported and left alone whenever there is such a use, exactly when every such
use comes with one that the search sees. -/
theorem uses_reported_iff
    {fragments : List Fragment}
    (host : Command.Host)
    (path : String)
    (found : locate m options.registration = .ok located)
    (single : located.roots.length = 1)
    (noDefault : located.exports.hasDefault = false)
    (fragmentsFound : allFragments m located.localName = .ok fragments) :
    ((∀ fragment, chosen located = some fragment → ¬UsedOutside m fragment) ∧
        ∀ fragment ∈ fragments, UsedOutside m fragment →
          transform host options path m = .ok (reported path m)) ↔
      ∀ fragment ∈ fragments, fragment.links.all (·.isWellFormed) = true →
        UsedOutside m fragment → FurtherUse m fragment := by
  have sound := locate_sound found
  have support {fragment : Fragment} (member : fragment ∈ fragments) :=
    have ⟨grounded, sublist⟩ := (allFragments_sound fragmentsFound).1 fragment
      member
    isSupported_iff grounded sublist
  have single' {fragment : Fragment} (member : fragment ∈ fragments) :=
    veto_of_single sound single noDefault fragmentsFound member
  constructor
  · rintro ⟨safe, -⟩ fragment member wellFormed used
    by_contra unseen
    have supported := (support member).2 ⟨wellFormed, unseen⟩
    exact safe fragment ((single' member).1 supported).2 used
  · intro seen
    have unsupported {fragment : Fragment} (member : fragment ∈ fragments)
        (used : UsedOutside m fragment) : isSupported m fragment = false := by
      by_contra supported
      rw [Bool.not_eq_false, support member] at supported
      exact supported.2 (seen fragment member supported.1 used)
    refine ⟨fun fragment passes used => ?_, fun fragment member used => ?_⟩
    · have isLocated := (veto_eq_none_of_chosen passes).2
      have someRoots : located.roots ≠ [] := by
        intro noRoots
        rw [noRoots] at single
        contradiction
      obtain ⟨all, allFound, locatedEq⟩ := sound.fragments someRoots
      rw [fragmentsFound, Except.ok.injEq] at allFound
      rw [locatedEq, ← allFound, List.mem_filter] at isLocated
      rw [unsupported isLocated.1 used] at isLocated
      exact Bool.false_ne_true isLocated.2
    · exact transform_of_veto single found
        ((single' member).2 (unsupported member used))

set_option maxRecDepth 100000 in
/-- A plain variable that is used behind the chain is seen, so the module is
reported and left alone. -/
theorem uses_reported_plain_variable :
    ∃ m located fragment,
      Module.parse? .javascript
        ("const x = storiesOf('A', module).add('x', f);\n" ++
          "console.log(x);\n") = some m ∧
      locate m {} = .ok located ∧ located.roots.length = 1 ∧
      located.exports.hasDefault = false ∧
      allFragments m located.localName = .ok [fragment] ∧
      UsedOutside m fragment ∧
      transform (fun _ => .error .noProgram) {} "a.js" m =
        .ok (reported "a.js" m) := by
  generalize sourceEq :
    "const x = storiesOf('A', module).add('x', f);\n" ++
      "console.log(x);\n" = source
  have checked : (Module.parse? .javascript source).any (fun m =>
      (locate m {}).toOption.any fun located =>
        located.roots.length == 1 && !located.exports.hasDefault &&
          (allFragments m located.localName).toOption.any fun fragments =>
            fragments.length == 1 && fragments.all fun fragment =>
              ((fragment.statements.flatMap boundPatterns).any fun pattern =>
                (Exports.patternNames pattern).any (m.text · == "x")) &&
                decide (countIn (isOccurrence m "x") fragment.statements <
                  countIn (isOccurrence m "x") m.tree.children) &&
                fragment.binding == some "x") = true := by
    rw [← sourceEq]
    decide +kernel
  obtain ⟨m, parsed, checked⟩ := (Option.any_eq_true _ _).1 checked
  obtain ⟨located, found, checked⟩ := any_toOption.1 checked
  rw [Bool.and_eq_true, Bool.and_eq_true, beq_iff_eq, Bool.not_eq_true',
    any_toOption] at checked
  obtain ⟨⟨single, noDefault⟩, fragments, fragmentsFound, checked⟩ := checked
  rw [Bool.and_eq_true, beq_iff_eq, List.length_eq_one_iff,
    List.all_eq_true] at checked
  obtain ⟨⟨fragment, rfl⟩, checked⟩ := checked
  have member := List.mem_singleton_self fragment
  have checked := checked fragment member
  rw [Bool.and_eq_true, Bool.and_eq_true, decide_eq_true_eq, beq_iff_eq] at checked
  obtain ⟨⟨bound, more⟩, binding⟩ := checked
  have sublist := ((allFragments_sound fragmentsFound).1 fragment member).2
  obtain ⟨node, outside, occurs⟩ := exists_occurrence_outside sublist more
  have used : UsedOutside m fragment :=
    ⟨"x", bindsName_of_any bound, node, outside, .inl occurs⟩
  have seen (other : Fragment) (isFragment : other ∈ [fragment])
      (_ : other.links.all (·.isWellFormed) = true)
      (_ : UsedOutside m other) : FurtherUse m other := by
    rw [List.mem_singleton.1 isFragment]
    exact ⟨"x", binding, .inl ⟨node, outside, occurs⟩⟩
  have foundByDefault :
      locate m ({} : Options).registration = .ok located := found
  have reports := uses_reported_iff (fun _ => .error .noProgram) "a.js"
    foundByDefault single noDefault fragmentsFound
  exact ⟨m, located, fragment, parsed, found, single, noDefault, fragmentsFound,
    used, (reports.2 seen).2 fragment member used⟩

set_option maxRecDepth 100000 in
/-- A variable that is bound by a pattern is not looked for: the module passes
all guards although the variable is used behind the chain. -/
theorem uses_unreported_destructured_variable :
    ∃ m located fragment,
      Module.parse? .javascript
        ("const \x7b stories \x7d = storiesOf('A', module).add('x', f);\n" ++
          "console.log(stories);\n") = some m ∧
      locate m {} = .ok located ∧ chosen located = some fragment ∧
      BindsName m fragment "stories" ∧ UsedOutside m fragment := by
  generalize sourceEq :
    "const \x7b stories \x7d = storiesOf('A', module).add('x', f);\n" ++
      "console.log(stories);\n" = source
  have checked : (Module.parse? .javascript source).any (fun m =>
      (locate m {}).toOption.any fun located =>
        (chosen located).any fun fragment =>
          ((fragment.statements.flatMap boundPatterns).any fun pattern =>
            (Exports.patternNames pattern).any (m.text · == "stories")) &&
            decide (countIn (isOccurrence m "stories") fragment.statements <
              countIn (isOccurrence m "stories") m.tree.children)) = true := by
    rw [← sourceEq]
    decide +kernel
  obtain ⟨m, parsed, checked⟩ := (Option.any_eq_true _ _).1 checked
  obtain ⟨located, found, checked⟩ := any_toOption.1 checked
  obtain ⟨fragment, passes, checked⟩ := (Option.any_eq_true _ _).1 checked
  rw [Bool.and_eq_true, decide_eq_true_eq] at checked
  obtain ⟨bound, more⟩ := checked
  have binds := bindsName_of_any bound
  have member := (veto_eq_none_of_chosen passes).2
  have sublist := ((locate_sound found).of_mem member).2.2
  obtain ⟨node, outside, occurs⟩ := exists_occurrence_outside sublist more
  exact ⟨m, located, fragment, parsed, found, passes, binds, "stories", binds,
    node, outside, .inl occurs⟩

end Migration
end StoryMigration
