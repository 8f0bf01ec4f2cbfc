import StoryMigration.Proofs.CodeUnits
import StoryMigration.Proofs.LiteralParts
import StoryMigration.Proofs.ModuleLayout
import StoryMigration.Proofs.ReadLiterals
import StoryMigration.Proofs.ReadStatements

/-!
# What a module exports at run time

At run time a module exports the names that its export statements declare or
list and the names that they give to whole modules, but for types, of which
nothing is left.  The search for exports finds these names in the order of the
source, and the default export among them, in modules that name no whole module,
mark no types and export no namespaces.
-/

namespace StoryMigration
namespace Chain

open Syntax Fallible

/-! ## Bound names -/

/-- Words that name a binding.  The word for the undefined value is one of them,
but a kind of its own where an expression could stand. -/
def isBindingName (kind : Kind) : Bool :=
  kind == .identifier || kind == .shorthandPattern || kind == .undefinedWord

/-- A pattern binds a name. -/
inductive Binds : Node → Node → Prop
  | name
      {name : Node}
      (isName : isBindingName name.kind = true) :
      Binds name name
  | value
      {pair value name : Node}
      (isPair : pair.kind = .pairPattern)
      (isValue : pair.child? .value = some value)
      (binds : Binds value name) :
      Binds pair name
  | left
      {assigned target name : Node}
      (isAssigned : assigned.kind = .assignmentPattern ∨
        assigned.kind = .objectAssignmentPattern)
      (isLeft : assigned.child? .left = some target)
      (binds : Binds target name) :
      Binds assigned name
  | part
      {pattern part name : Node}
      (isPattern : pattern.kind = .objectPattern ∨ pattern.kind = .arrayPattern ∨
        pattern.kind = .restPattern)
      (isPart : part ∈ pattern.children)
      (binds : Binds part name) :
      Binds pattern name

namespace Exports

theorem firstOf_eq
    (role : Role)
    (nodes : List Node) :
    firstOf role nodes =
      ((nodes.find? (·.role = some role)).map patternNames).getD [] := by
  induction nodes with
  | nil => rw [firstOf]; rfl
  | cons node nodes nodesHypothesis =>
    rw [firstOf, List.find?_cons]
    by_cases plays : node.role = some role <;> simp [plays, nodesHypothesis]

theorem mem_firstOf
    {role : Role}
    {node name : Node} :
    name ∈ firstOf role node.children ↔
      ∃ child, node.child? role = some child ∧ name ∈ patternNames child := by
  rw [firstOf_eq, Node.child?]
  cases node.children.find? (·.role = some role) <;> simp

theorem allOf_eq_flatMap
    (nodes : List Node) :
    allOf nodes = nodes.flatMap patternNames := by
  induction nodes with
  | nil => rw [allOf]; rfl
  | cons node nodes nodesHypothesis =>
    rw [allOf, nodesHypothesis, List.flatMap_cons]

/-- Whether a name is found: it is no word for the undefined value. -/
def isFound (name : Node) : Bool := name.kind != .undefinedWord

theorem binds_of_mem
    {pattern name : Node}
    (member : name ∈ patternNames pattern) :
    Binds pattern name := by
  induction pattern using Node.childInduction with
  | step pattern childHypothesis =>
    have ofPart
        (isPattern : pattern.kind = .objectPattern ∨
          pattern.kind = .arrayPattern ∨ pattern.kind = .restPattern)
        (inParts : name ∈ allOf pattern.children) :
        Binds pattern name := by
      obtain ⟨part, isPart, inPart⟩ := mem_allOf.1 inParts
      exact .part isPattern isPart (childHypothesis part isPart inPart)
    have ofLeft
        (isAssigned : pattern.kind = .assignmentPattern ∨
          pattern.kind = .objectAssignmentPattern)
        (inLeft : name ∈ firstOf .left pattern.children) :
        Binds pattern name := by
      obtain ⟨target, isLeft, inTarget⟩ := mem_firstOf.1 inLeft
      exact .left isAssigned isLeft
        (childHypothesis target (Node.child?_mem isLeft) inTarget)
    obtain ⟨kind, role, span, children⟩ := pattern
    unfold patternNames at member
    split at member
    case h_1 | h_2 =>
      rw [List.mem_singleton.1 member]
      exact .name rfl
    case h_3 =>
      obtain ⟨value, isValue, inValue⟩ :=
        (@mem_firstOf .value (.mk .pairPattern role span children) name).1 member
      exact .value rfl isValue
        (childHypothesis value (Node.child?_mem isValue) inValue)
    case h_4 => exact ofLeft (.inl rfl) member
    case h_5 => exact ofLeft (.inr rfl) member
    case h_6 => exact ofPart (.inl rfl) member
    case h_7 => exact ofPart (.inr (.inl rfl)) member
    case h_8 => exact ofPart (.inr (.inr rfl)) member
    case h_9 => exact absurd member List.not_mem_nil

/-- The search finds the names that a pattern binds and that are found at all. -/
theorem mem_patternNames
    {pattern name : Node} :
    name ∈ patternNames pattern ↔ Binds pattern name ∧ isFound name = true := by
  constructor
  · intro member
    refine ⟨binds_of_mem member, ?_⟩
    have refers := (patternNames_spec member).2
    rw [isFound, bne_iff_ne]
    intro isWord
    rw [isWord] at refers
    contradiction
  · rintro ⟨binds, found⟩
    induction binds with
    | @name name isName =>
      obtain ⟨kind, role, span, children⟩ := name
      simp only [isFound, isBindingName, Node.kind_mk, bne_iff_ne, Bool.or_eq_true,
        beq_iff_eq] at isName found
      rcases isName with (rfl | rfl) | isWord
      · exact List.mem_singleton_self _
      · exact List.mem_singleton_self _
      · exact absurd isWord found
    | @value pair value name isPair isValue binds inValue =>
      have inFirst := mem_firstOf.2 ⟨value, isValue, inValue found⟩
      obtain ⟨kind, role, span, children⟩ := pair
      obtain rfl : kind = _ := isPair
      rwa [patternNames]
    | @left assigned target name isAssigned isLeft binds inTarget =>
      have inFirst := mem_firstOf.2 ⟨target, isLeft, inTarget found⟩
      obtain ⟨kind, role, span, children⟩ := assigned
      rcases isAssigned with isAssigned | isAssigned <;>
        obtain rfl : kind = _ := isAssigned <;> rwa [patternNames]
    | @part pattern part name isPattern isPart binds inPart =>
      have inAll := mem_allOf.2 ⟨part, isPart, inPart found⟩
      obtain ⟨kind, role, span, children⟩ := pattern
      rcases isPattern with isPattern | isPattern | isPattern <;>
        obtain rfl : kind = _ := isPattern <;> rwa [patternNames]

mutual

/-- Whether all names that a pattern binds are found. -/
def findsAll : Node → Bool
  | .mk kind _ _ children =>
    match kind with
    | .undefinedWord => false
    | .pairPattern => findsFirst .value children
    | .assignmentPattern => findsFirst .left children
    | .objectAssignmentPattern => findsFirst .left children
    | .objectPattern => findsEach children
    | .arrayPattern => findsEach children
    | .restPattern => findsEach children
    | _ => true

/-- Whether all names that the first part with a role binds are found. -/
def findsFirst (role : Role) : List Node → Bool
  | [] => true
  | node :: rest =>
    if node.role = some role then findsAll node else findsFirst role rest

/-- Whether all names that any of some parts binds are found. -/
def findsEach : List Node → Bool
  | [] => true
  | node :: rest => findsAll node && findsEach rest

end

theorem findsFirst_eq
    (role : Role)
    (nodes : List Node) :
    findsFirst role nodes = (nodes.find? (·.role = some role)).all findsAll := by
  induction nodes with
  | nil => rw [findsFirst]; rfl
  | cons node nodes nodesHypothesis =>
    rw [findsFirst, List.find?_cons]
    by_cases plays : node.role = some role <;> simp [plays, nodesHypothesis]

theorem findsFirst_iff
    {role : Role}
    {node : Node} :
    findsFirst role node.children = true ↔
      ∀ child, node.child? role = some child → findsAll child = true := by
  rw [findsFirst_eq, Node.child?]
  cases node.children.find? (·.role = some role) <;> simp

theorem findsEach_iff
    {nodes : List Node} :
    findsEach nodes = true ↔ ∀ node ∈ nodes, findsAll node = true := by
  induction nodes with
  | nil => simp [findsEach]
  | cons node nodes nodesHypothesis =>
    rw [findsEach, Bool.and_eq_true, nodesHypothesis, List.forall_mem_cons]

theorem isFound_of_findsAll
    {pattern name : Node}
    (binds : Binds pattern name)
    (all : findsAll pattern = true) :
    isFound name = true := by
  induction binds with
  | @name name isName =>
    rw [isFound, bne_iff_ne]
    intro isWord
    obtain ⟨kind, role, span, children⟩ := name
    obtain rfl : kind = _ := isWord
    rw [findsAll] at all
    contradiction
  | @value pair value name isPair isValue binds valueHypothesis =>
    refine valueHypothesis (findsFirst_iff.1 ?_ value isValue)
    obtain ⟨kind, role, span, children⟩ := pair
    obtain rfl : kind = _ := isPair
    rwa [findsAll] at all
  | @left assigned target name isAssigned isLeft binds targetHypothesis =>
    refine targetHypothesis (findsFirst_iff.1 ?_ target isLeft)
    obtain ⟨kind, role, span, children⟩ := assigned
    rcases isAssigned with isAssigned | isAssigned <;>
      obtain rfl : kind = _ := isAssigned <;> rwa [findsAll] at all
  | @part pattern part name isPattern isPart binds partHypothesis =>
    refine partHypothesis (findsEach_iff.1 ?_ part isPart)
    obtain ⟨kind, role, span, children⟩ := pattern
    rcases isPattern with isPattern | isPattern | isPattern <;>
      obtain rfl : kind = _ := isPattern <;> rwa [findsAll] at all

theorem findsAll_iff
    {pattern : Node} :
    findsAll pattern = true ↔ ∀ name, Binds pattern name → isFound name = true := by
  refine ⟨fun all name binds => isFound_of_findsAll binds all, fun found => ?_⟩
  induction pattern using Node.childInduction with
  | step pattern childHypothesis =>
    have ofPart
        (isPattern : pattern.kind = .objectPattern ∨
          pattern.kind = .arrayPattern ∨ pattern.kind = .restPattern) :
        findsEach pattern.children = true :=
      findsEach_iff.2 fun part isPart => childHypothesis part isPart
        fun name binds => found name (.part isPattern isPart binds)
    have ofLeft
        (isAssigned : pattern.kind = .assignmentPattern ∨
          pattern.kind = .objectAssignmentPattern) :
        findsFirst .left pattern.children = true :=
      findsFirst_iff.2 fun target isLeft =>
        childHypothesis target (Node.child?_mem isLeft)
          fun name binds => found name (.left isAssigned isLeft binds)
    have ofValue
        (isPair : pattern.kind = .pairPattern) :
        findsFirst .value pattern.children = true :=
      findsFirst_iff.2 fun value isValue =>
        childHypothesis value (Node.child?_mem isValue)
          fun name binds => found name (.value isPair isValue binds)
    obtain ⟨kind, role, span, children⟩ := pattern
    unfold findsAll
    split
    case h_1 => exact found _ (.name rfl)
    case h_2 => exact ofValue rfl
    case h_3 => exact ofLeft (.inl rfl)
    case h_4 => exact ofLeft (.inr rfl)
    case h_5 => exact ofPart (.inl rfl)
    case h_6 => exact ofPart (.inr (.inl rfl))
    case h_7 => exact ofPart (.inr (.inr rfl))
    case h_8 => rfl

theorem nodes_inTurn
    {nodes : List Node}
    {names : Node → List Node}
    (nested : ∀ node ∈ nodes, node.Nested)
    (inTurn : nodes.Pairwise fun a b => a.stop ≤ b.start)
    (below : ∀ node ∈ nodes, ∀ name ∈ names node, name ∈ node.preorder)
    (each : ∀ node ∈ nodes, (names node).Pairwise fun a b => a.stop ≤ b.start) :
    (nodes.flatMap names).Pairwise fun a b => a.stop ≤ b.start := by
  rw [List.pairwise_flatMap]
  refine ⟨each, inTurn.imp_of_mem ?_⟩
  intro first second isFirst isSecond before name inFirst other inSecond
  have firstInside :=
    (nested first isFirst).inside (below first isFirst name inFirst)
  have secondInside :=
    (nested second isSecond).inside (below second isSecond other inSecond)
  omega

/-- The names of a pattern are found in the order of the source. -/
theorem patternNames_inTurn
    {pattern : Node}
    (nested : pattern.Nested) :
    (patternNames pattern).Pairwise fun a b => a.stop ≤ b.start := by
  induction pattern using Node.childInduction with
  | step pattern childHypothesis =>
    have ofChild {child : Node} (isChild : child ∈ pattern.children) :=
      childHypothesis child isChild (nested.of_mem (Node.child_mem_preorder isChild))
    have ofRole (role : Role) :
        (firstOf role pattern.children).Pairwise fun a b => a.stop ≤ b.start := by
      rw [firstOf_eq]
      cases found : pattern.children.find? (·.role = some role) with
      | none => exact .nil
      | some child => exact ofChild (List.mem_of_find?_eq_some found)
    have ofAll :
        (allOf pattern.children).Pairwise fun a b => a.stop ≤ b.start := by
      rw [allOf_eq_flatMap]
      exact nodes_inTurn
        (fun child isChild => nested.of_mem (Node.child_mem_preorder isChild))
        (nested pattern pattern.self_mem_preorder).inTurn
        (fun child _ name inChild => (patternNames_spec inChild).1)
        (fun child isChild => ofChild isChild)
    obtain ⟨kind, role, span, children⟩ := pattern
    unfold patternNames
    split
    case h_1 | h_2 => exact List.pairwise_singleton _ _
    case h_3 | h_4 | h_5 => exact ofRole _
    case h_6 | h_7 | h_8 => exact ofAll
    case h_9 => exact .nil

end Exports

/-! ## Names -/

/-- A part of a name that an identifier spells: a character or an escape sequence
by number. -/
def MayStandInName : LiteralPart → Prop
  | .plain c => c ≠ '\\'
  | .unit a b c d => ∀ digit ∈ [a, b, c, d], isHexDigit digit = true
  | .point digits =>
      (digits ≠ [] ∧ digits.all isHexDigit = true) ∧ hexValue digits < 0x110000
  | _ => False

/-- What a node names: the text that an identifier spells, escape sequences being
decoded, or the value of a string. -/
inductive Names (m : Module) (node : Node) : Text → Prop
  | word
      {parts : List LiteralPart}
      (isWord : node.kind ≠ .string)
      (legal : ∀ part ∈ parts, MayStandInName part)
      (written : LiteralPart.flat parts = (m.text node).toList) :
      Names m node (.ofUnits (parts.flatMap LiteralPart.units))
  | literal
      {text : Text}
      (isLiteral : node.kind = .string)
      (read : m.stringValue node = .ok text) :
      Names m node text

/-- A word without escape sequences names what it is written as. -/
theorem names_of_unescaped
    {m : Module}
    {node : Node}
    (isWord : node.kind ≠ .string)
    (unescaped : '\\' ∉ (m.text node).toList) :
    Names m node (.ofString (m.text node)) := by
  have named := @Names.word m node ((m.text node).toList.map .plain) isWord ?_ ?_
  · rw [List.flatMap_map] at named
    have unitsEq : ((m.text node).toList.flatMap fun c =>
        (LiteralPart.plain c).units) = Text.units (.ofString (m.text node)) :=
      (Text.units_ofChars _).symm
    rwa [unitsEq, Text.ofUnits_units, Text.ofString, Text.paired_ofChars] at named
  · intro part isPart
    obtain ⟨c, isChar, rfl⟩ := List.mem_map.1 isPart
    rintro rfl
    exact unescaped isChar
  · induction (m.text node).toList with
    | nil => rfl
    | cons c chars charsHypothesis =>
      rw [List.map_cons, LiteralPart.flat_cons, charsHypothesis]
      rfl

/-! ## Exports at run time -/

/-- A node is marked as a type: one of its parts is the word `type` or
`typeof`. -/
def isTyped (m : Module) (node : Node) : Bool :=
  node.children.any fun child =>
    child.kind == .token && ["type", "typeof"].contains (m.text child)

/-- The statement exports something as the default. -/
def isDefault (statement : Node) : Bool :=
  statement.children.any (·.kind == .defaultToken)

/-- The node of the name that a specifier exports under. -/
def outerName? (specifier : Node) : Option Node :=
  specifier.child? .rename <|> specifier.child? .name

section

variable (m : Module) (erased : Node → Bool) (statement : Node)

/-- A statement exports something at run time under the name that a node spells.
A compiler may leave nothing of enumerations, namespaces, specifiers and aliases
that it finds to stand for types or constants alone; they are `erased`. -/
inductive ExportsName : Node → Prop
  | binding
      {declaration declarator pattern name : Node}
      (noDefault : isDefault statement = false)
      (declares : statement.child? .declaration = some declaration)
      (isVariable : declaration.kind = .variableDeclaration ∨
        declaration.kind = .lexicalDeclaration ∨
        declaration.kind = .usingDeclaration)
      (isDeclarator : declarator ∈ declaration.children)
      (isOne : declarator.kind = .variableDeclarator)
      (isPattern : declarator.child? .name = some pattern)
      (binds : Binds pattern name) :
      ExportsName name
  | definition
      {declaration name : Node}
      (noDefault : isDefault statement = false)
      (declares : statement.child? .declaration = some declaration)
      (isDefinition : declaration.kind = .functionDeclaration ∨
        declaration.kind = .generatorFunctionDeclaration ∨
        declaration.kind = .classDeclaration ∨
        declaration.kind = .abstractClassDeclaration)
      (isName : declaration.child? .name = some name) :
      ExportsName name
  | enumeration
      {declaration name : Node}
      (noDefault : isDefault statement = false)
      (declares : statement.child? .declaration = some declaration)
      (isEnumeration : declaration.kind = .enumDeclaration)
      (remains : erased declaration = false)
      (isName : declaration.child? .name = some name) :
      ExportsName name
  | space
      {declaration whole name : Node}
      (noDefault : isDefault statement = false)
      (declares : statement.child? .declaration = some declaration)
      (isSpace : declaration.kind = .namespaceDeclaration)
      (remains : erased declaration = false)
      (isName : declaration.child? .name = some whole)
      (isFirst : whole.preorder.find? (·.kind == .identifier) = some name) :
      ExportsName name
  | specifier
      {clause specifier name : Node}
      (noDefault : isDefault statement = false)
      (noDeclaration : statement.child? .declaration = none)
      (isClause : clause ∈ statement.children)
      (isOne : clause.kind = .exportClause)
      (noTypes : isTyped m statement = false)
      (isSpecifier : specifier ∈ clause.children)
      (isOneOf : specifier.kind = .exportSpecifier)
      (noType : isTyped m specifier = false)
      (remains : erased specifier = false)
      (isName : outerName? specifier = some name) :
      ExportsName name
  | whole
      {part name : Node}
      (noDefault : isDefault statement = false)
      (isPart : part ∈ statement.children)
      (isWhole : part.kind = .namespaceExport)
      (isName : name ∈ part.children)
      (isOuter : name.kind = .identifier ∨ name.kind = .defaultToken ∨
        name.kind = .string) :
      ExportsName name
  | imported
      {part name : Node}
      (noDefault : isDefault statement = false)
      (isPart : part ∈ statement.children)
      (isAlias : part.kind = .importAlias)
      (noType : isTyped m part = false)
      (remains : erased part = false)
      (isName : part.children.find? (·.kind == .identifier) = some name) :
      ExportsName name

/-- Declarations of which nothing is left at run time. -/
def isTypeDeclaration : Kind → Bool
  | .interfaceDeclaration | .typeAliasDeclaration | .ambientDeclaration
  | .functionSignature => true
  | _ => false

/-- A statement exports something at run time as the default. -/
structure ExportsDefault : Prop where
  isDefault : isDefault statement = true
  declares : ∀ declaration ∈ statement.child? .declaration,
    isTypeDeclaration declaration.kind = false ∧ erased declaration = false
  value : ∀ value ∈ statement.child? .value, erased value = false

/-- A declaration whose names are found when it is exported: no resource, no
namespace that is left at run time, an enumeration only if it is left, and no
pattern that binds the word for the undefined value. -/
structure PlainDeclaration (declaration : Node) : Prop where
  noResource : declaration.kind ≠ .usingDeclaration
  noSpace : declaration.kind = .namespaceDeclaration → erased declaration = true
  remains : declaration.kind = .enumDeclaration → erased declaration = false
  found : ∀ declarator ∈ declaration.children,
    ∀ pattern ∈ declarator.child? .name, ∀ name, Binds pattern name →
      Exports.isFound name = true
  words : ∀ name ∈ Exports.declaredNames declaration, name.kind ≠ .string ∧
    '\\' ∉ (m.text name).toList ∧ m.text name ≠ "default"

/-- A specifier that is left at run time and lists a word without escape sequences
or a string that has a value. -/
structure PlainSpecifier (specifier : Node) : Prop where
  noType : isTyped m specifier = false
  remains : erased specifier = false
  named : ∃ name ∈ outerName? specifier,
    if name.kind = .string then m.HasValue name
    else '\\' ∉ (m.text name).toList

/-- An export statement whose exports are found: it gives no name to a whole module
or to an alias, its declaration or specifiers are plain, and its default export is
left at run time. -/
structure Plain : Prop where
  noWhole : ∀ part ∈ statement.children, part.kind ≠ .namespaceExport
  noAlias : ∀ part ∈ statement.children, part.kind = .importAlias →
    isTyped m part = true ∨ erased part = true
  default : isDefault statement = true → ExportsDefault erased statement
  declaration : isDefault statement = false →
    ∀ declaration ∈ statement.child? .declaration,
      PlainDeclaration m erased declaration
  specifiers : isDefault statement = false → statement.child? .declaration = none →
    ∀ specifier ∈ Exports.specifiersOf statement,
      isTyped m statement = false ∧ PlainSpecifier m erased specifier

instance : Decidable (ExportsDefault erased statement) :=
  decidable_of_iff
    (isDefault statement = true ∧
      (∀ declaration ∈ statement.child? .declaration,
        isTypeDeclaration declaration.kind = false ∧ erased declaration = false) ∧
      ∀ value ∈ statement.child? .value, erased value = false)
    ⟨fun ⟨isDefault, declares, value⟩ => ⟨isDefault, declares, value⟩,
      fun exported => ⟨exported.isDefault, exported.declares, exported.value⟩⟩

instance (pattern : Node) :
    Decidable (∀ name, Binds pattern name → Exports.isFound name = true) :=
  decidable_of_iff (Exports.findsAll pattern = true) Exports.findsAll_iff

instance (declaration : Node) : Decidable (PlainDeclaration m erased declaration) :=
  decidable_of_iff
    (declaration.kind ≠ .usingDeclaration ∧
      (declaration.kind = .namespaceDeclaration → erased declaration = true) ∧
      (declaration.kind = .enumDeclaration → erased declaration = false) ∧
      (∀ declarator ∈ declaration.children, ∀ pattern ∈ declarator.child? .name,
        ∀ name, Binds pattern name → Exports.isFound name = true) ∧
      ∀ name ∈ Exports.declaredNames declaration, name.kind ≠ .string ∧
        '\\' ∉ (m.text name).toList ∧ m.text name ≠ "default")
    ⟨fun ⟨noResource, noSpace, remains, found, words⟩ =>
      ⟨noResource, noSpace, remains, found, words⟩,
      fun plain => ⟨plain.noResource, plain.noSpace, plain.remains, plain.found,
        plain.words⟩⟩

instance (name : Node) : Decidable (m.HasValue name) :=
  decidable_of_iff ((m.stringValue name).toOption.isSome = true) (by
    unfold Module.HasValue
    cases m.stringValue name <;> simp [Except.toOption])

instance (specifier : Node) : Decidable (PlainSpecifier m erased specifier) :=
  decidable_of_iff
    (isTyped m specifier = false ∧ erased specifier = false ∧
      ∃ name ∈ outerName? specifier,
        if name.kind = .string then m.HasValue name
        else '\\' ∉ (m.text name).toList)
    ⟨fun ⟨noType, remains, named⟩ => ⟨noType, remains, named⟩,
      fun plain => ⟨plain.noType, plain.remains, plain.named⟩⟩

instance : Decidable (Plain m erased statement) :=
  decidable_of_iff
    ((∀ part ∈ statement.children, part.kind ≠ .namespaceExport) ∧
      (∀ part ∈ statement.children, part.kind = .importAlias →
        isTyped m part = true ∨ erased part = true) ∧
      (isDefault statement = true → ExportsDefault erased statement) ∧
      (isDefault statement = false →
        ∀ declaration ∈ statement.child? .declaration,
          PlainDeclaration m erased declaration) ∧
      (isDefault statement = false → statement.child? .declaration = none →
        ∀ specifier ∈ Exports.specifiersOf statement,
          isTyped m statement = false ∧ PlainSpecifier m erased specifier))
    ⟨fun ⟨noWhole, noAlias, default, declaration, specifiers⟩ =>
      ⟨noWhole, noAlias, default, declaration, specifiers⟩,
      fun plain => ⟨plain.noWhole, plain.noAlias, plain.default, plain.declaration,
        plain.specifiers⟩⟩

end

/-! ## What is found -/

/-- The nodes that the names of an export statement are taken from. -/
def seen (statement : Node) : List Node :=
  if isDefault statement then []
  else
    match statement.child? .declaration with
    | some declaration => Exports.declaredNames declaration
    | none => (Exports.specifiersOf statement).filterMap outerName?

theorem seen_of_default
    {statement : Node}
    (isDefault : isDefault statement = true) :
    seen statement = [] := by
  rw [seen, if_pos isDefault]

theorem seen_of_declaration
    {statement declaration : Node}
    (noDefault : isDefault statement = false)
    (declares : statement.child? .declaration = some declaration) :
    seen statement = Exports.declaredNames declaration := by
  simp only [seen, noDefault, declares, Bool.false_eq_true, if_false]

theorem seen_of_specifiers
    {statement : Node}
    (noDefault : isDefault statement = false)
    (noDeclaration : statement.child? .declaration = none) :
    seen statement = (Exports.specifiersOf statement).filterMap outerName? := by
  simp only [seen, noDefault, noDeclaration, Bool.false_eq_true, if_false]

section

variable {m : Module} {erased : Node → Bool} {statement : Node}

theorem isVariableDeclaration_iff
    {kind : Kind} :
    kind.isVariableDeclaration = true ↔
      kind = .variableDeclaration ∨ kind = .lexicalDeclaration := by
  cases kind <;> decide

theorem isNamedDeclaration_iff
    {kind : Kind} :
    Exports.isNamedDeclaration kind = true ↔
      (kind = .functionDeclaration ∨ kind = .generatorFunctionDeclaration ∨
        kind = .classDeclaration ∨ kind = .abstractClassDeclaration) ∨
      kind = .enumDeclaration := by
  cases kind <;> decide

theorem mem_declaredNames
    {declaration name : Node} :
    name ∈ Exports.declaredNames declaration ↔
      ((declaration.kind = .variableDeclaration ∨
          declaration.kind = .lexicalDeclaration) ∧
        ∃ declarator ∈ declaration.children,
          declarator.kind = .variableDeclarator ∧
          ∃ pattern, declarator.child? .name = some pattern ∧
            Binds pattern name ∧ Exports.isFound name = true) ∨
      (((declaration.kind = .functionDeclaration ∨
          declaration.kind = .generatorFunctionDeclaration ∨
          declaration.kind = .classDeclaration ∨
          declaration.kind = .abstractClassDeclaration) ∨
          declaration.kind = .enumDeclaration) ∧
        declaration.child? .name = some name) := by
  rw [← isVariableDeclaration_iff, ← isNamedDeclaration_iff]
  unfold Exports.declaredNames
  cases isVariable : declaration.kind.isVariableDeclaration with
  | true =>
    have notNamed : Exports.isNamedDeclaration declaration.kind = false := by
      rcases isVariableDeclaration_iff.1 isVariable with isKind | isKind <;>
        rw [isKind] <;> rfl
    simp only [notNamed, if_true, List.mem_flatMap, Node.namedChildren, List.mem_filter,
      beq_iff_eq, true_and, Bool.false_eq_true, false_and, or_false]
    constructor
    · rintro ⟨declarator, ⟨⟨isChild, -⟩, isOne⟩, inPattern⟩
      refine ⟨declarator, isChild, isOne, ?_⟩
      cases isPattern : declarator.child? .name with
      | none =>
        rw [isPattern] at inPattern
        exact absurd inPattern List.not_mem_nil
      | some pattern =>
        rw [isPattern] at inPattern
        exact ⟨pattern, rfl, Exports.mem_patternNames.1 inPattern⟩
    · rintro ⟨declarator, isChild, isOne, pattern, isPattern, bindsFound⟩
      refine ⟨declarator, ⟨⟨isChild, by rw [isOne]; rfl⟩, isOne⟩, ?_⟩
      rw [isPattern]
      exact Exports.mem_patternNames.2 bindsFound
  | false =>
    cases Exports.isNamedDeclaration declaration.kind <;> simp

theorem mem_specifiersOf
    {specifier : Node} :
    specifier ∈ Exports.specifiersOf statement ↔
      ∃ clause ∈ statement.children, clause.kind = .exportClause ∧
        specifier ∈ clause.children ∧ specifier.kind = .exportSpecifier := by
  unfold Exports.specifiersOf
  simp only [List.mem_flatMap, Node.namedChildren, List.mem_filter, beq_iff_eq]
  constructor
  · rintro ⟨clause, ⟨⟨isChild, -⟩, isClause⟩, ⟨isPart, -⟩, isSpecifier⟩
    exact ⟨clause, isChild, isClause, isPart, isSpecifier⟩
  · rintro ⟨clause, isChild, isClause, isPart, isSpecifier⟩
    exact ⟨clause, ⟨⟨isChild, by rw [isClause]; rfl⟩, isClause⟩,
      ⟨isPart, by rw [isSpecifier]; rfl⟩, isSpecifier⟩

/-- The names of a plain statement are those that it exports at run time. -/
theorem Plain.mem_seen
    {name : Node}
    (plain : Plain m erased statement) :
    name ∈ seen statement ↔ ExportsName m erased statement name := by
  cases noDefault : isDefault statement with
  | true =>
    rw [seen_of_default noDefault]
    refine ⟨fun isName => absurd isName List.not_mem_nil, fun exported => ?_⟩
    cases exported <;> simp_all
  | false =>
    cases declares : statement.child? .declaration with
    | some declaration =>
      have plainDeclaration := plain.declaration noDefault declaration declares
      rw [seen_of_declaration noDefault declares, mem_declaredNames]
      constructor
      · rintro (⟨isVariable, declarator, isDeclarator, isOne, pattern, isPattern,
          binds, -⟩ | ⟨isDefinition | isEnumeration, isName⟩)
        · exact .binding noDefault declares
            (isVariable.imp_right .inl) isDeclarator isOne isPattern binds
        · exact .definition noDefault declares isDefinition isName
        · exact .enumeration noDefault declares isEnumeration
            (plainDeclaration.remains isEnumeration) isName
      · intro exported
        cases exported with
        | @binding _ declarator pattern _ _ declares' isVariable isDeclarator isOne
            isPattern binds =>
          obtain rfl := Option.some.inj (declares.symm.trans declares')
          refine .inl ⟨?_, declarator, isDeclarator, isOne, pattern, isPattern, binds,
            plainDeclaration.found declarator isDeclarator pattern isPattern _ binds⟩
          rcases isVariable with isVariable | isVariable | isResource
          · exact .inl isVariable
          · exact .inr isVariable
          · exact absurd isResource plainDeclaration.noResource
        | definition _ declares' isDefinition isName =>
          obtain rfl := Option.some.inj (declares.symm.trans declares')
          exact .inr ⟨.inl isDefinition, isName⟩
        | enumeration _ declares' isEnumeration _ isName =>
          obtain rfl := Option.some.inj (declares.symm.trans declares')
          exact .inr ⟨.inr isEnumeration, isName⟩
        | space _ declares' isSpace remains =>
          obtain rfl := Option.some.inj (declares.symm.trans declares')
          rw [plainDeclaration.noSpace isSpace] at remains
          contradiction
        | specifier _ noDeclaration =>
          rw [declares] at noDeclaration
          contradiction
        | whole _ isPart isWhole => exact absurd isWhole (plain.noWhole _ isPart)
        | imported _ isPart isAlias noType remains =>
          rcases plain.noAlias _ isPart isAlias with isType | isErased
          · rw [noType] at isType
            contradiction
          · rw [remains] at isErased
            contradiction
    | none =>
      rw [seen_of_specifiers noDefault declares, List.mem_filterMap]
      constructor
      · rintro ⟨specifier, isSpecifier, isName⟩
        obtain ⟨noTypes, plainSpecifier⟩ :=
          plain.specifiers noDefault declares specifier isSpecifier
        obtain ⟨clause, isClause, isOne, isPart, isOneOf⟩ :=
          mem_specifiersOf.1 isSpecifier
        exact .specifier noDefault declares isClause isOne noTypes isPart isOneOf
          plainSpecifier.noType plainSpecifier.remains isName
      · intro exported
        cases exported with
        | binding _ declares' | definition _ declares' | enumeration _ declares'
        | space _ declares' =>
          rw [declares] at declares'
          contradiction
        | @specifier _ specifier _ _ _ isClause isOne _ isPart isOneOf _ _ isName =>
          exact ⟨specifier,
            mem_specifiersOf.2 ⟨_, isClause, isOne, isPart, isOneOf⟩, isName⟩
        | whole _ isPart isWhole => exact absurd isWhole (plain.noWhole _ isPart)
        | imported _ isPart isAlias noType remains =>
          rcases plain.noAlias _ isPart isAlias with isType | isErased
          · rw [noType] at isType
            contradiction
          · rw [remains] at isErased
            contradiction

/-! ## Names in turn -/

theorem mem_children_of_outerName
    {specifier name : Node}
    (isName : outerName? specifier = some name) :
    name ∈ specifier.children := by
  unfold outerName? at isName
  cases renamed : specifier.child? .rename with
  | some rename =>
    rw [renamed] at isName
    rw [← Option.some.inj isName]
    exact Node.child?_mem renamed
  | none =>
    rw [renamed] at isName
    exact Node.child?_mem isName

/-- The names of a statement stand in it, in the order of the source. -/
theorem seen_inTurn
    (nested : statement.Nested) :
    (∀ name ∈ seen statement, name ∈ statement.preorder) ∧
      (seen statement).Pairwise fun a b => a.stop ≤ b.start := by
  have ofParts
      {node : Node}
      {test : Node → Bool}
      {names : Node → List Node}
      (nested : node.Nested)
      (ofPart : ∀ part ∈ node.children, part.Nested →
        (∀ name ∈ names part, name ∈ part.preorder) ∧
          (names part).Pairwise fun a b => a.stop ≤ b.start) :
      (∀ name ∈ (node.namedChildren.filter test).flatMap names,
        name ∈ node.preorder) ∧
        ((node.namedChildren.filter test).flatMap names).Pairwise
          fun a b => a.stop ≤ b.start := by
    have isChild {part : Node} (isPart : part ∈ node.namedChildren.filter test) :=
      node.namedChildren_subset (List.mem_filter.1 isPart).1
    have partNested {part : Node} (isPart : part ∈ node.namedChildren.filter test) :=
      nested.of_mem (Node.child_mem_preorder (isChild isPart))
    constructor
    · intro name inParts
      obtain ⟨part, isPart, isName⟩ := List.mem_flatMap.1 inParts
      exact Node.mem_preorder_of_child (isChild isPart)
        ((ofPart part (isChild isPart) (partNested isPart)).1 name isName)
    · refine Exports.nodes_inTurn (fun part isPart => partNested isPart)
        ((nested node node.self_mem_preorder).inTurn.sublist
          (List.filter_sublist.trans List.filter_sublist))
        (fun part isPart => (ofPart part (isChild isPart) (partNested isPart)).1)
        (fun part isPart => (ofPart part (isChild isPart) (partNested isPart)).2)
  unfold seen
  split
  · exact ⟨fun name isName => absurd isName List.not_mem_nil, .nil⟩
  split
  · rename_i declaration declares
    have isChild := Node.child?_mem declares
    have declarationNested := nested.of_mem (Node.child_mem_preorder isChild)
    suffices inDeclaration :
        (∀ name ∈ Exports.declaredNames declaration, name ∈ declaration.preorder) ∧
          (Exports.declaredNames declaration).Pairwise
            fun a b => a.stop ≤ b.start from
      ⟨fun name isName => Node.mem_preorder_of_child isChild
        (inDeclaration.1 name isName), inDeclaration.2⟩
    unfold Exports.declaredNames
    split
    · refine ofParts declarationNested fun declarator _ declaratorNested => ?_
      cases found : declarator.child? .name with
      | none => exact ⟨fun name isName => absurd isName List.not_mem_nil, .nil⟩
      | some pattern =>
        have isPattern := Node.child?_mem found
        exact ⟨fun name isName => Node.mem_preorder_of_child isPattern
          (Exports.patternNames_spec isName).1, Exports.patternNames_inTurn
            (declaratorNested.of_mem (Node.child_mem_preorder isPattern))⟩
    split
    · constructor
      · intro name isName
        exact Node.child_mem_preorder (Node.child?_mem (Option.mem_toList.1 isName))
      · cases declaration.child? .name with
        | none => exact .nil
        | some name => exact List.pairwise_singleton _ _
    · exact ⟨fun name isName => absurd isName List.not_mem_nil, .nil⟩
  · rw [Exports.specifiersOf, List.filterMap_flatMap]
    refine ofParts nested fun clause _ clauseNested => ?_
    rw [List.filterMap_eq_flatMap_toList]
    refine ofParts clauseNested fun specifier _ _ => ?_
    constructor
    · intro name isName
      exact Node.child_mem_preorder (mem_children_of_outerName
        (Option.mem_toList.1 isName))
    · cases outerName? specifier with
      | none => exact .nil
      | some name => exact List.pairwise_singleton _ _

/-! ## What is reported -/

theorem ofString_injective
    {first second : String}
    (same : Text.ofString first = Text.ofString second) :
    first = second := by
  have sameBack := congrArg Text.toString? same
  rw [Text.toString?_ofString, Text.toString?_ofString] at sameBack
  exact Option.some.inj sameBack

/-- The name of a default export. -/
def defaultName : Text := .ofString "default"

theorem under_eq
    (name : Text) :
    Exports.under name =
      if name = defaultName then ⟨true, []⟩ else ⟨false, [name]⟩ := rfl

theorem any_under
    (names : List Text) :
    (names.map Exports.under).any (·.hasDefault) = decide (defaultName ∈ names) := by
  induction names with
  | nil => rfl
  | cons name names namesHypothesis =>
    rw [List.map_cons, List.any_cons, namesHypothesis, under_eq]
    by_cases isDefault : name = defaultName
    · rw [if_pos isDefault, isDefault]
      simp
    · rw [if_neg isDefault]
      simp [List.mem_cons, Ne.symm isDefault]

theorem flatMap_under
    (names : List Text) :
    (names.map Exports.under).flatMap (·.named) = names.filter (· ≠ defaultName) := by
  induction names with
  | nil => rfl
  | cons name names namesHypothesis =>
    rw [List.map_cons, List.flatMap_cons, namesHypothesis, under_eq]
    by_cases isDefault : name = defaultName
    · rw [if_pos isDefault, isDefault]
      simp
    · rw [if_neg isDefault]
      simp [isDefault]

/-- What some exports come to. -/
theorem foldl_append_eq
    (parts : List Exports) :
    parts.foldl Exports.append Exports.none =
      ⟨parts.any (·.hasDefault), parts.flatMap (·.named)⟩ := by
  have hasDefault := Exports.hasDefault_foldl_append Exports.none parts
  have named := Exports.named_foldl_append Exports.none parts
  cases whole : parts.foldl Exports.append Exports.none with
  | mk =>
    rw [whole] at hasDefault named
    rw [Exports.mk.injEq]
    exact ⟨hasDefault, named⟩

theorem exists_exportedNames
    {specifiers : List Node}
    (legible : ∀ specifier ∈ specifiers, ∃ name ∈ outerName? specifier,
      if name.kind = .string then m.HasValue name
      else '\\' ∉ (m.text name).toList) :
    ∃ texts, specifiers.mapM (Exports.exportedName m) = .ok texts ∧
      List.Forall₂ (Names m) (specifiers.filterMap outerName?) texts := by
  induction specifiers with
  | nil => exact ⟨[], rfl, .nil⟩
  | cons specifier specifiers specifiersHypothesis =>
    obtain ⟨texts, read, named⟩ := specifiersHypothesis fun other isOther =>
      legible other (List.mem_cons_of_mem _ isOther)
    obtain ⟨name, isName, isLegible⟩ := legible specifier List.mem_cons_self
    have nameEq : (specifier.child? .rename <|> specifier.child? .name) = some name :=
      isName
    obtain ⟨text, textRead, names⟩ : ∃ text,
        Exports.exportedName m specifier = .ok text ∧ Names m name text := by
      unfold Exports.exportedName
      rw [nameEq]
      by_cases isLiteral : name.kind = .string
      · rw [if_pos isLiteral] at isLegible
        obtain ⟨text, textRead⟩ := isLegible
        refine ⟨text, ?_, .literal isLiteral textRead⟩
        simpa only [isLiteral, beq_self_eq_true, if_true] using textRead
      · rw [if_neg isLiteral] at isLegible
        refine ⟨_, ?_, names_of_unescaped isLiteral isLegible⟩
        simp only [beq_iff_eq, if_neg isLiteral]
    refine ⟨text :: texts, ?_, ?_⟩
    · simp only [List.mapM_cons, bind_eq_ok, pure_eq_ok]
      exact ⟨text, textRead, texts, read, rfl⟩
    · rw [List.filterMap_cons_some isName]
      exact .cons names named

/-- What is reported of a plain statement. -/
theorem Plain.exists_ofStatement
    (plain : Plain m erased statement) :
    ∃ texts, List.Forall₂ (Names m) (seen statement) texts ∧
      Exports.ofStatement m statement =
        .ok ⟨isDefault statement || decide (defaultName ∈ texts),
          texts.filter (· ≠ defaultName)⟩ := by
  unfold Exports.ofStatement
  cases noDefault : isDefault statement with
  | true =>
    rw [seen_of_default noDefault]
    refine ⟨[], .nil, ?_⟩
    rw [isDefault] at noDefault
    rw [if_pos noDefault]
    rfl
  | false =>
    have noToken := noDefault
    rw [isDefault] at noToken
    rw [if_neg (by simpa using noToken)]
    cases declares : statement.child? .declaration with
    | some declaration =>
      have words := (plain.declaration noDefault declaration declares).words
      rw [seen_of_declaration noDefault declares]
      refine ⟨(Exports.declaredNames declaration).map fun name =>
        .ofString (m.text name), ?_, ?_⟩
      · rw [List.forall₂_map_right_iff, List.forall₂_same]
        intro name isName
        exact names_of_unescaped (words name isName).1 (words name isName).2.1
      · have noneDefault : ∀ text ∈ (Exports.declaredNames declaration).map
            (fun name => Text.ofString (m.text name)), text ≠ defaultName := by
          intro text isText
          obtain ⟨name, isName, rfl⟩ := List.mem_map.1 isText
          intro same
          exact (words name isName).2.2 (ofString_injective same)
        rw [decide_eq_false fun isDefault => noneDefault _ isDefault rfl,
          List.filter_eq_self.2 fun text isText =>
            decide_eq_true (noneDefault text isText)]
        rfl
    | none =>
      rw [seen_of_specifiers noDefault declares]
      obtain ⟨texts, read, named⟩ := exists_exportedNames (m := m)
        fun specifier isSpecifier =>
          (plain.specifiers noDefault declares specifier isSpecifier).2.named
      refine ⟨texts, named, ?_⟩
      rw [Exports.specifiersOf] at read
      simp only [bind_eq_ok, pure_eq_ok]
      refine ⟨texts, read, ?_⟩
      rw [foldl_append_eq, any_under, flatMap_under, Bool.false_or]

end

/-! ## The exports of a module -/

/-- The exports of a module at run time: `names` are the nodes of their names, in
the order of the source, and `texts` what these name. -/
structure AreExports
    (m : Module)
    (erased : Node → Bool)
    (exports : Exports)
    (names : List Node)
    (texts : List Text) : Prop where
  complete : ∀ name, name ∈ names ↔
    ∃ statement ∈ m.statements, statement.kind = .exportStatement ∧
      ExportsName m erased statement name
  inTurn : names.Pairwise fun a b => a.stop ≤ b.start
  named : List.Forall₂ (Names m) names texts
  others : exports.named = texts.filter (· ≠ defaultName)
  default : exports.hasDefault = true ↔ defaultName ∈ texts ∨
    ∃ statement ∈ m.statements, statement.kind = .exportStatement ∧
      ExportsDefault erased statement

variable {m : Module} {erased : Node → Bool}

theorem exists_ofStatements
    {statements : List Node}
    (plain : ∀ statement ∈ statements, Plain m erased statement) :
    ∃ parts texts, statements.mapM (Exports.ofStatement m) = .ok parts ∧
      List.Forall₂ (Names m) (statements.flatMap seen) texts ∧
      parts.any (·.hasDefault) =
        (statements.any isDefault || decide (defaultName ∈ texts)) ∧
      parts.flatMap (·.named) = texts.filter (· ≠ defaultName) := by
  induction statements with
  | nil => exact ⟨[], [], rfl, .nil, rfl, rfl⟩
  | cons statement statements statementsHypothesis =>
    obtain ⟨parts, texts, read, named, anyEq, flatEq⟩ :=
      statementsHypothesis fun other isOther =>
        plain other (List.mem_cons_of_mem _ isOther)
    obtain ⟨first, firstNamed, firstRead⟩ :=
      (plain statement List.mem_cons_self).exists_ofStatement
    refine ⟨⟨isDefault statement || decide (defaultName ∈ first),
      first.filter (· ≠ defaultName)⟩ :: parts, first ++ texts, ?_, ?_, ?_, ?_⟩
    · simp only [List.mapM_cons, bind_eq_ok, pure_eq_ok]
      exact ⟨_, firstRead, parts, read, rfl⟩
    · rw [List.flatMap_cons]
      exact List.rel_append firstNamed named
    · rw [List.any_cons, List.any_cons, anyEq, Bool.eq_iff_iff]
      simp only [Bool.or_eq_true, decide_eq_true_eq, List.mem_append]
      tauto
    · rw [List.flatMap_cons, flatEq, List.filter_append]

/-- A module whose export statements are plain is found to export what it exports
at run time. -/
theorem areExports_of_plain
    {dialect : Dialect}
    {source : String}
    (parsed : Module.parse? dialect source = some m)
    (plain : ∀ statement ∈ m.statements, statement.kind = .exportStatement →
      Plain m erased statement) :
    ∃ exports names texts, Exports.ofModule m = .ok exports ∧
      AreExports m erased exports names texts := by
  obtain ⟨-, overlaid⟩ := Module.exists_overlaid parsed
  have isExport {statement : Node} :
      statement ∈ m.statements.filter (·.kind == .exportStatement) ↔
        statement ∈ m.statements ∧ statement.kind = .exportStatement := by
    rw [List.mem_filter, beq_iff_eq]
  have allPlain : ∀ statement ∈ m.statements.filter (·.kind == .exportStatement),
      Plain m erased statement := fun statement member =>
    plain statement (isExport.1 member).1 (isExport.1 member).2
  obtain ⟨parts, texts, read, named, anyEq, flatEq⟩ := exists_ofStatements allPlain
  have nested : ∀ statement ∈ m.statements.filter (·.kind == .exportStatement),
      statement.Nested := fun statement member =>
    overlaid.nested.of_mem (Module.statement_mem_preorder (isExport.1 member).1)
  refine ⟨⟨parts.any (·.hasDefault), parts.flatMap (·.named)⟩, _, texts, ?_,
    ⟨fun name => ?_, ?_, named, flatEq, ?_⟩⟩
  · rw [Exports.ofModule, read]
    exact congrArg Except.ok (foldl_append_eq parts)
  · rw [List.mem_flatMap]
    constructor
    · rintro ⟨statement, member, isName⟩
      exact ⟨statement, (isExport.1 member).1, (isExport.1 member).2,
        (allPlain statement member).mem_seen.1 isName⟩
    · rintro ⟨statement, isStatement, isOne, exported⟩
      have member := isExport.2 ⟨isStatement, isOne⟩
      exact ⟨statement, member, (allPlain statement member).mem_seen.2 exported⟩
  · exact Exports.nodes_inTurn nested
      (((overlaid.nested m.tree m.tree.self_mem_preorder).inTurn.sublist
        m.tree.parts_sublist).sublist List.filter_sublist)
      (fun statement member => (seen_inTurn (nested statement member)).1)
      (fun statement member => (seen_inTurn (nested statement member)).2)
  · rw [anyEq, Bool.or_eq_true, decide_eq_true_eq, List.any_eq_true, or_comm]
    refine or_congr_right ⟨?_, ?_⟩
    · rintro ⟨statement, member, hasDefault⟩
      exact ⟨statement, (isExport.1 member).1, (isExport.1 member).2,
        (allPlain statement member).default hasDefault⟩
    · rintro ⟨statement, isStatement, isOne, exported⟩
      exact ⟨statement, isExport.2 ⟨isStatement, isOne⟩, exported.isDefault⟩

set_option maxRecDepth 100000 in
/-- Patterns, an enumeration, a list with a string and a default, and types and a
namespace that nothing is left of. -/
theorem areExports_varied :
    ∃ m exports names texts,
      Module.parse? .typescript
        ("export const \x7b a, b: [c = 1] \x7d = o;\n" ++
          "export enum E \x7b\x7d\nexport type T = E;\n" ++
          "export namespace N \x7b\x7d\n" ++
          "export \x7b a as 'd d', e as default \x7d from 'y';\n") = some m ∧
      (∀ statement ∈ m.statements, statement.kind = .exportStatement →
        Plain m (·.kind == .namespaceDeclaration) statement) ∧
      Exports.ofModule m = .ok exports ∧
      exports.named = ["a", "c", "E", "d d"].map .ofString ∧
      exports.hasDefault = true ∧
      AreExports m (·.kind == .namespaceDeclaration) exports names texts := by
  generalize sourceEq :
    "export const \x7b a, b: [c = 1] \x7d = o;\n" ++
      "export enum E \x7b\x7d\nexport type T = E;\n" ++
      "export namespace N \x7b\x7d\n" ++
      "export \x7b a as 'd d', e as default \x7d from 'y';\n" = source
  have checked : (Module.parse? .typescript source).any (fun m =>
      decide (∀ statement ∈ m.statements, statement.kind = .exportStatement →
        Plain m (·.kind == .namespaceDeclaration) statement) &&
      (Exports.ofModule m).toOption.any fun exports =>
        exports.named == ["a", "c", "E", "d d"].map .ofString &&
          exports.hasDefault) = true := by
    rw [← sourceEq]
    decide +kernel
  obtain ⟨m, parsed, checked⟩ := (Option.any_eq_true _ _).1 checked
  rw [Bool.and_eq_true, decide_eq_true_eq, any_toOption] at checked
  obtain ⟨plain, exports, read, content⟩ := checked
  rw [Bool.and_eq_true, beq_iff_eq] at content
  obtain ⟨others, names, texts, othersRead, areExports⟩ :=
    areExports_of_plain parsed plain
  obtain rfl := Except.ok.inj (read.symm.trans othersRead)
  exact ⟨m, exports, names, texts, parsed, plain, read, content.1, content.2,
    areExports⟩

set_option maxRecDepth 100000 in
/-- A module under a name is an export that is not found, the default export too. -/
theorem exports_miss_whole_modules :
    ∃ m exports,
      Module.parse? .javascript
        ("export * as default from './a';\n" ++
          "export * as tools from './b';\n") = some m ∧
      Exports.ofModule m = .ok exports ∧
      exports.hasDefault = false ∧ exports.named = [] ∧
      ∀ erased names texts, ¬ AreExports m erased exports names texts := by
  generalize sourceEq :
    "export * as default from './a';\n" ++
      "export * as tools from './b';\n" = source
  have checked : (Module.parse? .javascript source).any (fun m =>
      (m.statements.any fun statement =>
        statement.kind == .exportStatement && !isDefault statement &&
          statement.children.any fun part => part.kind == .namespaceExport &&
            part.children.any fun name => name.kind == .identifier) &&
      (Exports.ofModule m).toOption.any fun exports =>
        !exports.hasDefault && exports.named == []) = true := by
    rw [← sourceEq]
    decide +kernel
  obtain ⟨m, parsed, checked⟩ := (Option.any_eq_true _ _).1 checked
  rw [Bool.and_eq_true, List.any_eq_true, any_toOption] at checked
  obtain ⟨⟨statement, isStatement, checked⟩, exports, read, content⟩ := checked
  simp only [Bool.and_eq_true, Bool.not_eq_true', beq_iff_eq, List.any_eq_true]
    at checked content
  obtain ⟨⟨isExport, noDefault⟩, part, isPart, isWhole, name, isName, isWord⟩ :=
    checked
  obtain ⟨notDefault, noNames⟩ := content
  refine ⟨m, exports, parsed, read, notDefault, noNames,
    fun erased names texts areExports => ?_⟩
  have isExported : name ∈ names := (areExports.complete name).2 ⟨statement,
    isStatement, isExport, .whole noDefault isPart isWhole isName (.inl isWord)⟩
  have someText : texts ≠ [] := by
    rintro rfl
    rw [List.forall₂_nil_right_iff.1 areExports.named] at isExported
    contradiction
  obtain ⟨text, isText⟩ := List.exists_mem_of_ne_nil texts someText
  have others := areExports.others
  rw [noNames, eq_comm, List.filter_eq_nil_iff] at others
  have isDefault : text = defaultName := by simpa using others text isText
  rw [isDefault] at isText
  rw [areExports.default.2 (.inl isText)] at notDefault
  contradiction

end Chain
end StoryMigration
