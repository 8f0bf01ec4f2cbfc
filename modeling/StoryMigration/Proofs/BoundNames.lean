import StoryMigration.Proofs.RuntimeExports

/-!
# The names that a pattern binds

A binding pattern is an identifier, or it has parts that bind: the value of a
member, the left side of a default, the target of a rest, the members of an
object or the elements of an array.  Comments may stand between all of its parts,
and what its keys and defaults mention is not bound.  The search for names finds
the nodes of the bound names in their order, but for the word that stands for the
undefined value, and it takes them as they are spelled.  So it finds the names
themselves exactly when none is that word and none is spelled with an escape
sequence.
-/

namespace StoryMigration
namespace Chain

open Syntax Fallible

/-! ## Bound names in order -/

/-- Comments, in the manner of HTML too. -/
def isRemark (node : Node) : Bool :=
  node.kind == .comment || node.kind == .htmlComment

/-- The parts of a node that are neither punctuation nor comments. -/
def content (node : Node) : List Node :=
  node.namedChildren.filter fun child => !isRemark child

theorem content_subset
    (node : Node) :
    content node ⊆ node.children :=
  (List.filter_sublist.trans List.filter_sublist).subset

/-- A binding pattern binds some names, in the order of the source. -/
inductive BoundNames : Node → List Node → Prop
  | name
      {name : Node}
      (isName : isBindingName name.kind = true) :
      BoundNames name [name]
  | member
      {member target : Node}
      {names : List Node}
      (isMember : member.kind = .pairPattern)
      (isValue : member.child? .value = some target)
      (binds : BoundNames target names) :
      BoundNames member names
  | defaulted
      {defaulted target : Node}
      {names : List Node}
      (isDefaulted : defaulted.kind = .assignmentPattern ∨
        defaulted.kind = .objectAssignmentPattern)
      (isLeft : defaulted.child? .left = some target)
      (binds : BoundNames target names) :
      BoundNames defaulted names
  | rest
      {rest target : Node}
      {names : List Node}
      (isRest : rest.kind = .restPattern)
      (isTarget : content rest = [target])
      (binds : BoundNames target names) :
      BoundNames rest names
  | several
      {pattern : Node}
      {found : List (List Node)}
      (isPattern : pattern.kind = .objectPattern ∨ pattern.kind = .arrayPattern)
      (bind : List.Forall₂ BoundNames (content pattern) found) :
      BoundNames pattern found.flatten

/-- What holds of names by themselves and passes from the parts of a pattern to
the pattern holds of every pattern. -/
theorem BoundNames.partInduction
    {motive : Node → List Node → Prop}
    (name : ∀ name : Node, isBindingName name.kind = true → motive name [name])
    (member : ∀ member target names, member.kind = .pairPattern →
      member.child? .value = some target → motive target names →
      motive member names)
    (defaulted : ∀ defaulted target names, (defaulted.kind = .assignmentPattern ∨
        defaulted.kind = .objectAssignmentPattern) →
      defaulted.child? .left = some target → motive target names →
      motive defaulted names)
    (rest : ∀ rest target names, rest.kind = .restPattern →
      content rest = [target] → motive target names → motive rest names)
    (several : ∀ pattern found, (pattern.kind = .objectPattern ∨
        pattern.kind = .arrayPattern) →
      List.Forall₂ motive (content pattern) found →
      motive pattern found.flatten)
    {pattern : Node}
    {names : List Node}
    (binds : BoundNames pattern names) :
    motive pattern names := by
  induction pattern using Node.childInduction generalizing names with
  | step pattern childHypothesis =>
    cases binds with
    | name isName => exact name pattern isName
    | @member _ target _ isMember isValue binds =>
      exact member pattern target names isMember isValue
        (childHypothesis target (Node.child?_mem isValue) binds)
    | @defaulted _ target _ isDefaulted isLeft binds =>
      exact defaulted pattern target names isDefaulted isLeft
        (childHypothesis target (Node.child?_mem isLeft) binds)
    | @rest _ target _ isRest isTarget binds =>
      have isContent : target ∈ content pattern :=
        isTarget ▸ List.mem_singleton_self _
      exact rest pattern target names isRest isTarget
        (childHypothesis target (content_subset pattern isContent) binds)
    | @several _ found isPattern bind =>
      refine several pattern found isPattern ?_
      -- the parts of a pattern are its children, for which the statement holds
      have areChildren := content_subset pattern
      generalize content pattern = parts at bind areChildren
      induction bind with
      | nil => exact .nil
      | @cons part names parts others binds _ partsHypothesis =>
        rw [List.cons_subset] at areChildren
        exact .cons (childHypothesis part areChildren.1 binds)
          (partsHypothesis areChildren.2)

theorem BoundNames.areNames
    {pattern : Node}
    {names : List Node}
    (binds : BoundNames pattern names) :
    ∀ name ∈ names, isBindingName name.kind = true := by
  refine binds.partInduction
    (motive := fun _ names => ∀ name ∈ names, isBindingName name.kind = true)
    ?name ?member ?defaulted ?rest ?several
  case name =>
    exact fun _ isName _ isBound => List.mem_singleton.1 isBound ▸ isName
  case member => exact fun _ _ _ _ _ targetHypothesis => targetHypothesis
  case defaulted => exact fun _ _ _ _ _ targetHypothesis => targetHypothesis
  case rest => exact fun _ _ _ _ _ targetHypothesis => targetHypothesis
  case several =>
    intro pattern found _ each
    generalize content pattern = parts at each
    induction each with
    | nil => exact fun _ isBound => absurd isBound List.not_mem_nil
    | cons partHypothesis _ partsHypothesis =>
      intro name isBound
      rcases List.mem_append.1 isBound with isFirst | isLater
      · exact partHypothesis name isFirst
      · exact partsHypothesis name isLater

/-- The bound names of a pattern that is nested to some depth at most, if it is a
binding pattern. -/
def boundNames? : Nat → Node → Option (List Node)
  | 0, _ => none
  | depth + 1, node =>
    if isBindingName node.kind then some [node]
    else if node.kind = .pairPattern then
      (node.child? .value).bind (boundNames? depth)
    else if node.kind = .assignmentPattern ∨ node.kind = .objectAssignmentPattern then
      (node.child? .left).bind (boundNames? depth)
    else if node.kind = .restPattern ∧ (content node).length = 1 then
      ((content node).mapM (boundNames? depth)).map List.flatten
    else if node.kind = .objectPattern ∨ node.kind = .arrayPattern then
      ((content node).mapM (boundNames? depth)).map List.flatten
    else none

theorem forall₂_of_mapM
    {compute : Node → Option (List Node)}
    {parts : List Node}
    {found : List (List Node)}
    (computed : parts.mapM compute = some found) :
    List.Forall₂ (fun part names => compute part = some names) parts found := by
  induction parts generalizing found with
  | nil =>
    obtain rfl : [] = found := Option.some.inj computed
    exact .nil
  | cons part parts partsHypothesis =>
    simp only [List.mapM_cons, Option.bind_eq_bind, Option.bind_eq_some_iff,
      Option.pure_def] at computed
    obtain ⟨names, ofPart, others, ofParts, ⟨⟩⟩ := computed
    exact .cons ofPart (partsHypothesis ofParts)

theorem boundNames_of_boundNames?
    {depth : Nat}
    {node : Node}
    {names : List Node}
    (computed : boundNames? depth node = some names) :
    BoundNames node names := by
  induction depth generalizing node names with
  | zero =>
    rw [boundNames?] at computed
    contradiction
  | succ depth depthHypothesis =>
    have ofParts {found : List (List Node)}
        (computed : (content node).mapM (boundNames? depth) = some found) :
        List.Forall₂ BoundNames (content node) found :=
      (forall₂_of_mapM computed).imp fun _ _ ofPart => depthHypothesis ofPart
    rw [boundNames?] at computed
    split_ifs at computed with isName isMember isDefaulted isRest isPattern
    · obtain rfl := Option.some.inj computed
      exact .name isName
    · obtain ⟨target, isValue, ofTarget⟩ := Option.bind_eq_some_iff.1 computed
      exact .member isMember isValue (depthHypothesis ofTarget)
    · obtain ⟨target, isLeft, ofTarget⟩ := Option.bind_eq_some_iff.1 computed
      exact .defaulted isDefaulted isLeft (depthHypothesis ofTarget)
    · obtain ⟨found, isFound, rfl⟩ := Option.map_eq_some_iff.1 computed
      obtain ⟨target, isTarget⟩ := List.length_eq_one_iff.1 isRest.2
      have each := ofParts isFound
      rw [isTarget, List.forall₂_cons_left_iff] at each
      obtain ⟨targetNames, others, binds, noOthers, rfl⟩ := each
      obtain rfl := List.forall₂_nil_left_iff.1 noOthers
      rw [List.flatten_singleton]
      exact .rest isRest.1 isTarget binds
    · obtain ⟨found, isFound, rfl⟩ := Option.map_eq_some_iff.1 computed
      exact .several isPattern (ofParts isFound)

namespace Exports

theorem patternNames_of_list
    {pattern : Node}
    (isList : pattern.kind = .objectPattern ∨ pattern.kind = .arrayPattern ∨
      pattern.kind = .restPattern) :
    patternNames pattern = pattern.children.flatMap patternNames := by
  obtain ⟨kind, role, span, children⟩ := pattern
  rw [← allOf_eq_flatMap]
  rcases isList with isList | isList | isList <;>
    obtain rfl : kind = _ := isList <;> rw [patternNames, Node.children_mk]

theorem patternNames_of_role
    {pattern target : Node}
    {role : Role}
    (isPart : pattern.child? role = some target)
    (plays : (pattern.kind = .pairPattern ∧ role = .value) ∨
      ((pattern.kind = .assignmentPattern ∨
        pattern.kind = .objectAssignmentPattern) ∧ role = .left)) :
    patternNames pattern = patternNames target := by
  have first : firstOf role pattern.children = patternNames target := by
    rw [firstOf_eq, ← Node.child?, isPart, Option.map_some, Option.getD_some]
  obtain ⟨kind, own, span, children⟩ := pattern
  rw [← first]
  rcases plays with ⟨isPair, rfl⟩ | ⟨isDefault | isDefault, rfl⟩
  · obtain rfl : kind = _ := isPair
    rw [patternNames, Node.children_mk]
  · obtain rfl : kind = _ := isDefault
    rw [patternNames, Node.children_mk]
  · obtain rfl : kind = _ := isDefault
    rw [patternNames, Node.children_mk]

/-- Punctuation and comments bind nothing. -/
theorem patternNames_of_not_content
    {node : Node}
    (noContent : (node.kind.isNamed && !isRemark node) = false) :
    patternNames node = [] := by
  obtain ⟨kind, role, span, children⟩ := node
  cases kind <;> first | rfl | simp [isRemark, Kind.isNamed] at noContent

theorem flatMap_patternNames_content
    (node : Node) :
    node.children.flatMap patternNames = (content node).flatMap patternNames := by
  rw [content, Node.namedChildren, List.filter_filter]
  induction node.children with
  | nil => rfl
  | cons child children childrenHypothesis =>
    rw [List.flatMap_cons, List.filter_cons, childrenHypothesis]
    cases isContent : child.kind.isNamed && !isRemark child with
    | false =>
      rw [patternNames_of_not_content isContent, List.nil_append,
        if_neg (by rw [Bool.and_comm, isContent]; exact Bool.false_ne_true)]
    | true =>
      rw [if_pos (by rw [Bool.and_comm, isContent]), List.flatMap_cons]

/-- The search finds the bound names that are found at all. -/
theorem patternNames_of_boundNames
    {pattern : Node}
    {names : List Node}
    (binds : BoundNames pattern names) :
    patternNames pattern = names.filter isFound := by
  refine binds.partInduction
    (motive := fun pattern names => patternNames pattern = names.filter isFound)
    ?name ?member ?defaulted ?rest ?several
  case name =>
    intro name isName
    obtain ⟨kind, role, span, children⟩ := name
    simp only [isBindingName, Node.kind_mk, Bool.or_eq_true, beq_iff_eq] at isName
    rcases isName with (rfl | rfl) | rfl <;> rfl
  case member =>
    intro member target names isMember isValue targetHypothesis
    rwa [patternNames_of_role isValue (.inl ⟨isMember, rfl⟩)]
  case defaulted =>
    intro defaulted target names isDefaulted isLeft targetHypothesis
    rwa [patternNames_of_role isLeft (.inr ⟨isDefaulted, rfl⟩)]
  case rest =>
    intro rest target names isRest isTarget targetHypothesis
    rwa [patternNames_of_list (.inr (.inr isRest)), flatMap_patternNames_content,
      isTarget, List.flatMap_singleton]
  case several =>
    intro pattern found isPattern each
    have isList : pattern.kind = .objectPattern ∨ pattern.kind = .arrayPattern ∨
        pattern.kind = .restPattern := isPattern.imp_right .inl
    rw [patternNames_of_list isList, flatMap_patternNames_content]
    generalize content pattern = parts at each
    induction each with
    | nil => rfl
    | cons partHypothesis _ partsHypothesis =>
      rw [List.flatMap_cons, List.flatten_cons, List.filter_append, partHypothesis,
        partsHypothesis]

end Exports

/-! ## Names as they are spelled -/

theorem length_unitsOf
    (n : Nat) :
    1 ≤ (unitsOf n).length ∧ (unitsOf n).length ≤ 2 := by
  unfold unitsOf
  split <;> simp

theorem length_le_units_ofChars
    (chars : List Char) :
    chars.length ≤ (Text.units (.ofChars chars)).length := by
  rw [Text.units_ofChars]
  induction chars with
  | nil => exact Nat.le_refl _
  | cons c chars charsHypothesis =>
    have first := (length_unitsOf c.toNat).1
    rw [List.flatMap_cons, List.length_append, List.length_cons]
    omega

/-- A character stands for itself, and an escape sequence is longer than what it
denotes. -/
theorem MayStandInName.plain_or_shorter
    {part : LiteralPart}
    (legal : MayStandInName part) :
    (∃ c, c ≠ '\\' ∧ part = .plain c) ∨
      ('\\' ∈ part.written ∧
        part.units.length < (Text.units (.ofChars part.written)).length) := by
  cases part with
  | plain c => exact .inl ⟨c, legal, rfl⟩
  | letter | nul | byte | continuation => exact legal.elim
  | unit a b c d =>
    have longer := length_le_units_ofChars (LiteralPart.unit a b c d).written
    have long : (LiteralPart.unit a b c d).written.length = 6 := rfl
    have short : (LiteralPart.unit a b c d).units.length = 1 := rfl
    exact .inr ⟨List.mem_cons_self, by omega⟩
  | point digits =>
    have longer := length_le_units_ofChars (LiteralPart.point digits).written
    have long : 4 ≤ (LiteralPart.point digits).written.length := by
      simp [LiteralPart.written]
    have short : (LiteralPart.point digits).units.length ≤ 2 :=
      (length_unitsOf _).2
    exact .inr ⟨List.mem_cons_self, by omega⟩

theorem unescaped_or_shorter
    {parts : List LiteralPart}
    (legal : ∀ part ∈ parts, MayStandInName part) :
    ('\\' ∉ LiteralPart.flat parts ∧
        parts.flatMap LiteralPart.units =
          Text.units (.ofChars (LiteralPart.flat parts))) ∨
      ('\\' ∈ LiteralPart.flat parts ∧
        (parts.flatMap LiteralPart.units).length <
          (Text.units (.ofChars (LiteralPart.flat parts))).length) := by
  induction parts with
  | nil => exact .inl ⟨List.not_mem_nil, rfl⟩
  | cons part parts partsHypothesis =>
    have later := partsHypothesis fun other isOther =>
      legal other (List.mem_cons_of_mem _ isOther)
    have laterLength : (parts.flatMap LiteralPart.units).length ≤
        (Text.units (.ofChars (LiteralPart.flat parts))).length := by
      rcases later with ⟨-, same⟩ | ⟨-, shorter⟩
      · exact Nat.le_of_eq (congrArg List.length same)
      · exact Nat.le_of_lt shorter
    have whole : Text.units (.ofChars (LiteralPart.flat (part :: parts))) =
        Text.units (.ofChars part.written) ++
          Text.units (.ofChars (LiteralPart.flat parts)) := by
      rw [LiteralPart.flat_cons, Text.ofChars, List.map_append, Text.units_append]
      rfl
    rw [whole, List.flatMap_cons, LiteralPart.flat_cons, List.mem_append,
      List.length_append, List.length_append]
    rcases (legal part List.mem_cons_self).plain_or_shorter with
      ⟨c, isPlain, rfl⟩ | ⟨escaped, shorter⟩
    · have sameUnits : (LiteralPart.plain c).units =
          Text.units (.ofChars (LiteralPart.plain c).written) :=
        (List.append_nil _).symm
      have unescaped : '\\' ∉ (LiteralPart.plain c).written := fun isSlash =>
        isPlain (List.mem_singleton.1 isSlash).symm
      rcases later with ⟨noSlash, same⟩ | ⟨isSlash, laterShorter⟩
      · exact .inl ⟨not_or.2 ⟨unescaped, noSlash⟩, by rw [sameUnits, same]⟩
      · exact .inr ⟨.inr isSlash, by rw [sameUnits]; omega⟩
    · exact .inr ⟨.inl escaped, by omega⟩

theorem MayStandInName.lt_of_mem_units
    {part : LiteralPart}
    {unit : Nat}
    (legal : MayStandInName part)
    (member : unit ∈ part.units) :
    unit < 0x10000 := by
  cases part with
  | plain c =>
    have single : Text.units (.ofChars [c]) = (LiteralPart.plain c).units :=
      List.append_nil _
    exact Text.lt_of_mem_units (single ▸ member)
  | letter | nul | byte | continuation => exact legal.elim
  | unit a b c d =>
    have digits : (isHexDigit a = true ∧ isHexDigit b = true) ∧
        isHexDigit c = true ∧ isHexDigit d = true := by
      simpa [MayStandInName, and_assoc] using legal
    exact @LiteralPart.lt_of_mem_units '"' (.unit a b c d) unit digits member
  | point digits => exact lt_of_mem_unitsOf legal.2 member

/-- A name is what its identifier is spelled as exactly if no escape sequence is
in it. -/
theorem ofString_text_eq_iff
    {m : Module}
    {name : Node}
    {text : Text}
    (isWord : name.kind ≠ .string)
    (named : Names m name text) :
    Text.ofString (m.text name) = text ↔ '\\' ∉ (m.text name).toList := by
  cases named with
  | literal isLiteral => exact absurd isLiteral isWord
  | @word parts _ legal written =>
    have small : ∀ unit ∈ parts.flatMap LiteralPart.units, unit < 0x10000 := by
      intro unit isUnit
      obtain ⟨part, isPart, inPart⟩ := List.mem_flatMap.1 isUnit
      exact (legal part isPart).lt_of_mem_units inPart
    have spelled : Text.ofString (m.text name) =
        .ofUnits (Text.units (.ofChars (LiteralPart.flat parts))) := by
      rw [written, Text.ofUnits_units, Text.paired_ofChars, Text.ofString]
    rw [spelled, ← written]
    rcases unescaped_or_shorter legal with ⟨noSlash, same⟩ | ⟨isSlash, shorter⟩
    · rw [same]
      exact iff_of_true rfl noSlash
    · refine iff_of_false (fun same => ?_) (not_not_intro isSlash)
      have sameUnits :=
        Text.ofUnits_injective (fun _ => Text.lt_of_mem_units) small same
      rw [sameUnits] at shorter
      exact Nat.lt_irrefl _ shorter

/-! ## The names of a pattern -/

theorem map_text_eq_iff
    {m : Module}
    {names : List Node}
    {texts : List Text}
    (areNames : ∀ name ∈ names, isBindingName name.kind = true)
    (named : List.Forall₂ (Names m) names texts) :
    names.map (fun name => Text.ofString (m.text name)) = texts ↔
      ∀ name ∈ names, '\\' ∉ (m.text name).toList := by
  induction named with
  | nil => exact iff_of_true rfl fun _ isName => absurd isName List.not_mem_nil
  | @cons name text names texts first _ namesHypothesis =>
    rw [List.forall_mem_cons] at areNames
    have isWord : name.kind ≠ .string := by
      intro isString
      rw [isString] at areNames
      exact absurd areNames.1 (by decide)
    rw [List.map_cons, List.cons_eq_cons, ofString_text_eq_iff isWord first,
      namesHypothesis areNames.2, List.forall_mem_cons]

/-- What is found of a pattern are its bound names, in the order of the source, but
for the word of the undefined value.  As they are spelled they are the names that
the pattern binds exactly if that word is none of them and no escape sequence is in
any. -/
theorem patternNames_are_boundNames
    {dialect : Dialect}
    {source : String}
    {m : Module}
    {pattern : Node}
    {names : List Node}
    {texts : List Text}
    (parsed : Module.parse? dialect source = some m)
    (inTree : pattern ∈ m.tree.preorder)
    (binds : BoundNames pattern names)
    (named : List.Forall₂ (Names m) names texts) :
    Exports.patternNames pattern = names.filter Exports.isFound ∧
      (Exports.patternNames pattern).Pairwise (fun a b => a.stop ≤ b.start) ∧
      ((Exports.patternNames pattern).map
          (fun name => Text.ofString (m.text name)) = texts ↔
        ∀ name ∈ names, Exports.isFound name = true ∧
          '\\' ∉ (m.text name).toList) := by
  obtain ⟨-, overlaid⟩ := Module.exists_overlaid parsed
  have found := Exports.patternNames_of_boundNames binds
  refine ⟨found, Exports.patternNames_inTurn (overlaid.nested.of_mem inTree), ?_⟩
  have spelled := map_text_eq_iff binds.areNames named
  rw [found]
  constructor
  · intro same
    have sameLength : (names.filter Exports.isFound).length = names.length := by
      rw [named.length_eq, ← same, List.length_map]
    have all : names.filter Exports.isFound = names :=
      List.filter_sublist.eq_of_length sameLength
    rw [all] at same
    exact fun name isName =>
      ⟨List.filter_eq_self.1 all name isName, spelled.1 same name isName⟩
  · intro plain
    rw [List.filter_eq_self.2 fun name isName => (plain name isName).1]
    exact spelled.2 fun name isName => (plain name isName).2

set_option maxRecDepth 100000 in
/-- Members, a default, a rest and comments, with names in a key and in a default
that are not bound. -/
theorem patternNames_are_boundNames_nested :
    ∃ m pattern names,
      Module.parse? .javascript
        "const \x7b a, [k]: [b = c, /* d */ e], ...f \x7d = o;\n" = some m ∧
      pattern ∈ m.tree.preorder ∧ BoundNames pattern names ∧
      List.Forall₂ (Names m) names (["a", "b", "e", "f"].map .ofString) ∧
      (Exports.patternNames pattern).map
          (fun name => Text.ofString (m.text name)) =
        ["a", "b", "e", "f"].map .ofString := by
  generalize sourceEq :
    "const \x7b a, [k]: [b = c, /* d */ e], ...f \x7d = o;\n" = source
  have checked : (Module.parse? .javascript source).any (fun m =>
      m.tree.preorder.any fun pattern => (boundNames? 5 pattern).any fun names =>
        (names.map fun name => Text.ofString (m.text name)) ==
            ["a", "b", "e", "f"].map .ofString &&
          names.all fun name => Exports.isFound name && name.kind != .string &&
            !(m.text name).toList.contains '\\') = true := by
    rw [← sourceEq]
    decide +kernel
  obtain ⟨m, parsed, checked⟩ := (Option.any_eq_true _ _).1 checked
  obtain ⟨pattern, inTree, checked⟩ := List.any_eq_true.1 checked
  obtain ⟨names, computed, checked⟩ := (Option.any_eq_true _ _).1 checked
  simp only [Bool.and_eq_true, beq_iff_eq, List.all_eq_true, bne_iff_ne,
    Bool.not_eq_true', List.contains_eq_mem, decide_eq_false_iff_not] at checked
  obtain ⟨spelled, each⟩ := checked
  have binds := boundNames_of_boundNames? computed
  have named : List.Forall₂ (Names m) names
      (["a", "b", "e", "f"].map .ofString) := by
    rw [← spelled, List.forall₂_map_right_iff, List.forall₂_same]
    exact fun name isName =>
      names_of_unescaped (each name isName).1.2 (each name isName).2
  refine ⟨m, pattern, names, parsed, inTree, binds, named, ?_⟩
  exact (patternNames_are_boundNames parsed inTree binds named).2.2.2
    fun name isName => ⟨(each name isName).1.1, (each name isName).2⟩

set_option maxRecDepth 100000 in
/-- A name that is spelled with an escape sequence is found as it is spelled, and so
it is listed among the exports. -/
theorem patternNames_keep_escapes :
    ∃ m exports pattern name,
      Module.parse? .javascript "export const [\\u0061] = o;\n" = some m ∧
      pattern ∈ m.tree.preorder ∧ BoundNames pattern [name] ∧
      Names m name (.ofString "a") ∧
      (Exports.patternNames pattern).map
          (fun name => Text.ofString (m.text name)) = [.ofString "\\u0061"] ∧
      Exports.ofModule m = .ok exports ∧ exports.named = [.ofString "\\u0061"] := by
  generalize sourceEq : "export const [\\u0061] = o;\n" = source
  have checked : (Module.parse? .javascript source).any (fun m =>
      ((Exports.ofModule m).toOption.any fun exports =>
        exports.named == [.ofString "\\u0061"]) &&
      m.tree.preorder.any fun pattern => pattern.kind == .arrayPattern &&
        (boundNames? 2 pattern).any fun names => names.length == 1 &&
          names.all fun name => Exports.isFound name && name.kind != .string &&
            m.text name == "\\u0061") = true := by
    rw [← sourceEq]
    decide +kernel
  obtain ⟨m, parsed, checked⟩ := (Option.any_eq_true _ _).1 checked
  rw [Bool.and_eq_true, any_toOption, List.any_eq_true] at checked
  obtain ⟨⟨exports, read, isNamed⟩, pattern, inTree, checked⟩ := checked
  obtain ⟨names, computed, checked⟩ :=
    (Option.any_eq_true _ _).1 (Bool.and_eq_true_iff.1 checked).2
  simp only [Bool.and_eq_true, beq_iff_eq, List.all_eq_true, bne_iff_ne]
    at checked isNamed
  obtain ⟨isOne, each⟩ := checked
  obtain ⟨name, rfl⟩ := List.length_eq_one_iff.1 isOne
  obtain ⟨⟨found, isWord⟩, spelled⟩ := each name (List.mem_singleton_self _)
  have binds := boundNames_of_boundNames? computed
  have named : Names m name (.ofUnits [0x61]) :=
    @Names.word m name [.unit '0' '0' '6' '1'] isWord
      (List.forall_mem_singleton.2 (List.all_eq_true.1
        (by decide : ['0', '0', '6', '1'].all isHexDigit = true)))
      (by rw [spelled]; rfl)
  refine ⟨m, exports, pattern, name, parsed, inTree, binds, named, ?_, read, isNamed⟩
  rw [Exports.patternNames_of_boundNames binds, List.filter_singleton, found]
  exact congrArg (fun text => [Text.ofString text]) spelled

end Chain
end StoryMigration
