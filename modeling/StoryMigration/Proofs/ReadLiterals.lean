import StoryMigration.Proofs.ExportedContent
import StoryMigration.Proofs.SecondConversion

/-!
# The literals that a conversion reads

On its way a conversion asks for the values of some string literals: the
sources of imports and the names in imports and exports, the titles of chains,
the names of stories and the keys of parameters.  Each step succeeds exactly
if all the literals that it reads denote something.
-/

namespace StoryMigration

open Syntax Chain Fallible

/-! ## Values of literals -/

namespace Syntax

/-- The digits of the number that an escape sequence writes, given without its
backslash. -/
def escapeDigits : List Char → List Char
  | 'u' :: '\x7b' :: digits => digits.dropLast
  | ['u', a, b, c, d] => [a, b, c, d]
  | ['x', a, b] => [a, b]
  | _ => []

theorem exists_codePointOf_iff
    {n : Nat} :
    (∃ point, codePointOf n = .ok point) ↔ n < 0x110000 := by
  unfold codePointOf CodePoint.ofNat?
  by_cases small : n < 0x110000
  · simp [small]
  · simp [small]

/-- An escape sequence denotes something unless it writes a number beyond the
last code point. -/
theorem exists_escapeValue_iff
    {body : List Char} :
    (∃ text, escapeValue body = .ok text) ↔
      hexValue (escapeDigits body) < 0x110000 := by
  have number (digits : List Char) :
      (∃ text, (do pure [← codePointOf (hexValue digits)] :
        Except EscapeError Text) = .ok text) ↔ hexValue digits < 0x110000 := by
    rw [← exists_codePointOf_iff]
    exact exists_bind_pure_eq_ok_iff
  have plain {text : Text} (body : List Char)
      (noDigits : escapeDigits body = []) :
      (∃ value, (.ok text : Except EscapeError Text) = .ok value) ↔
        hexValue (escapeDigits body) < 0x110000 := by
    rw [noDigits]
    exact ⟨fun _ => by decide, fun _ => ⟨text, rfl⟩⟩
  fun_cases escapeValue body with
  | case1 digits => exact number digits.dropLast
  | case2 a b c d notBraced =>
    have digits : escapeDigits ['u', a, b, c, d] = [a, b, c, d] := by
      unfold escapeDigits
      split <;> grind
    rw [digits]
    exact number [a, b, c, d]
  | case3 a b => exact number [a, b]
  | case4 =>
    refine plain body ?_
    unfold escapeDigits
    split <;> grind

namespace Module

/-- A string literal that denotes something. -/
def HasValue (m : Module) (literal : Node) : Prop :=
  ∃ text, m.stringValue literal = .ok text

/-- A string literal denotes something unless one of its escape sequences writes
a number beyond the last code point. -/
theorem hasValue_iff
    {m : Module}
    {literal : Node} :
    m.HasValue literal ↔
      ∀ part ∈ literal.namedChildren, part.kind = .escapeSequence →
        hexValue (escapeDigits ((m.text part).toList.drop 1)) < 0x110000 := by
  unfold HasValue stringValue
  rw [exists_bind_pure_eq_ok_iff, exists_mapM_eq_ok_iff]
  refine forall₂_congr fun part _ => ?_
  unfold fragmentValue
  by_cases isEscape : part.kind = .escapeSequence
  · simp only [isEscape, forall_const]
    exact exists_escapeValue_iff
  · simp only [if_neg isEscape]
    exact ⟨fun _ same => absurd same isEscape, fun _ => ⟨_, rfl⟩⟩

end Module
end Syntax

namespace Chain

variable {m : Module} {registration : Registration}

/-! ## Imports -/

/-- The literals of an import statement that are read: its source, and the names
given as strings if it imports from a package of the registration. -/
inductive ReadInImport
    (m : Module)
    (registration : Registration)
    (statement : Node) : Node → Prop
  | source
      {literal : Node}
      (isSource : statement.child? .source = some literal) :
      ReadInImport m registration statement literal
  | name
      {source specifier literal : Node}
      {value : Text}
      (isSource : statement.child? .source = some source)
      (valued : m.stringValue source = .ok value)
      (starts : (Text.ofString registration.packageStart).isPrefixOf value = true)
      (isSpecifier : specifier ∈
        statement.preorder.filter (·.kind == .importSpecifier))
      (named : specifier.child? .name = some literal)
      (isString : literal.kind = .string) :
      ReadInImport m registration statement literal

theorem exists_importedName_iff
    {name : Node} :
    (∃ text, importedName m name = .ok text) ↔
      (name.kind = .string → m.HasValue name) := by
  unfold importedName
  by_cases isString : name.kind = .string
  · simp only [isString, beq_self_eq_true, if_true, forall_const]
    rfl
  · rw [if_neg (by simpa using isString)]
    exact ⟨fun _ same => absurd same isString, fun _ => ⟨_, rfl⟩⟩

theorem exists_specifiersIn_iff
    {statement : Node} :
    (∃ found, specifiersIn m registration statement = .ok found) ↔
      ∀ literal, ReadInImport m registration statement literal →
        m.HasValue literal := by
  unfold specifiersIn
  cases sourceFound : statement.child? .source with
  | none =>
    refine ⟨fun _ literal read => ?_, fun _ => ⟨[], rfl⟩⟩
    cases read with
    | source isSource => rw [sourceFound] at isSource; contradiction
    | name isSource => rw [sourceFound] at isSource; contradiction
  | some source =>
    simp only
    rw [exists_bind_eq_ok_iff]
    constructor
    · rintro ⟨value, valued, chosen⟩ literal read
      cases read with
      | source isSource =>
        rw [sourceFound] at isSource
        cases isSource
        exact ⟨value, valued⟩
      | name isSource valuedHere starts isSpecifier named isString =>
        rw [sourceFound] at isSource
        cases isSource
        rw [valued] at valuedHere
        cases valuedHere
        rw [if_pos starts, exists_filterM_eq_ok_iff] at chosen
        have named' := chosen _ isSpecifier
        simp only [named] at named'
        rw [exists_bind_pure_eq_ok_iff] at named'
        exact exists_importedName_iff.1 named' isString
    · intro readable
      obtain ⟨value, valued⟩ := readable source (.source sourceFound)
      refine ⟨value, valued, ?_⟩
      split
      · rename_i starts
        rw [exists_filterM_eq_ok_iff]
        intro specifier isSpecifier
        cases named : specifier.child? .name with
        | none => exact ⟨_, rfl⟩
        | some name =>
          simp only
          rw [exists_bind_pure_eq_ok_iff, exists_importedName_iff]
          exact fun isString => readable name
            (.name sourceFound valued starts isSpecifier named isString)
      · exact ⟨[], rfl⟩

/-! ## Exports -/

/-- The literals of an export statement that are read: the names given as
strings to what it exports. -/
inductive ReadInExport (statement : Node) : Node → Prop
  | name
      {clause specifier literal : Node}
      (noDefault : statement.children.any (·.kind == .defaultToken) = false)
      (noDeclaration : statement.child? .declaration = none)
      (isClause : clause ∈
        statement.namedChildren.filter (·.kind == .exportClause))
      (isSpecifier : specifier ∈
        clause.namedChildren.filter (·.kind == .exportSpecifier))
      (named : (specifier.child? .rename <|> specifier.child? .name) =
        some literal)
      (isString : literal.kind = .string) :
      ReadInExport statement literal

theorem exists_exportedName_iff
    {specifier : Node} :
    (∃ text, Exports.exportedName m specifier = .ok text) ↔
      ∀ literal, (specifier.child? .rename <|> specifier.child? .name) =
        some literal → literal.kind = .string → m.HasValue literal := by
  unfold Exports.exportedName
  cases specifier.child? .rename <|> specifier.child? .name with
  | none => exact ⟨nofun, fun _ => ⟨_, rfl⟩⟩
  | some exported =>
    simp only [Option.some.injEq, forall_eq']
    by_cases isString : exported.kind = .string
    · simp only [isString, beq_self_eq_true, if_true, forall_const]
      rfl
    · rw [if_neg (by simpa using isString)]
      exact ⟨fun _ same => absurd same isString, fun _ => ⟨_, rfl⟩⟩

theorem exists_exportsOf_iff
    {statement : Node} :
    (∃ exports, Exports.ofStatement m statement = .ok exports) ↔
      ∀ literal, ReadInExport statement literal → m.HasValue literal := by
  unfold Exports.ofStatement
  cases isDefault : statement.children.any (·.kind == .defaultToken) with
  | true =>
    refine ⟨fun _ literal read => ?_, fun _ => ⟨_, rfl⟩⟩
    obtain ⟨noDefault⟩ := read
    rw [isDefault] at noDefault
    contradiction
  | false =>
    cases declared : statement.child? .declaration with
    | some declaration =>
      refine ⟨fun _ literal read => ?_, fun _ => ⟨_, rfl⟩⟩
      obtain ⟨-, noDeclaration⟩ := read
      rw [declared] at noDeclaration
      contradiction
    | none =>
      simp only [Bool.false_eq_true, if_false]
      rw [exists_bind_pure_eq_ok_iff, exists_mapM_eq_ok_iff]
      constructor
      · rintro readable literal ⟨-, -, isClause, isSpecifier, named, isString⟩
        refine exists_exportedName_iff.1 (readable _ ?_) literal named isString
        exact List.mem_flatMap.2 ⟨_, isClause, isSpecifier⟩
      · intro readable specifier member
        obtain ⟨clause, isClause, isSpecifier⟩ := List.mem_flatMap.1 member
        exact exists_exportedName_iff.2 fun literal named isString =>
          readable literal
            ⟨isDefault, declared, isClause, isSpecifier, named, isString⟩

/-! ## Titles -/

/-- The title of the chain that a statement starts. -/
def titleOf? (m : Module) (localName : String) (statement : Node) : Option Node :=
  (statementChain m localName statement).bind fun chain =>
    if chain.1.kind == .identifier then none else chain.1.callArguments.head?

theorem exists_step_iff
    {localName : String}
    (progress : Progress)
    (statement : Node) :
    (∃ next, progress.step m localName statement = .ok next) ↔
      ∀ title ∈ titleOf? m localName statement, m.HasValue title := by
  unfold Progress.step titleOf?
  cases statementChain m localName statement with
  | none => exact ⟨nofun, fun _ => ⟨_, rfl⟩⟩
  | some chain =>
    obtain ⟨base, links, binding⟩ := chain
    simp only [Option.bind_some]
    by_cases isName : base.kind = .identifier
    · simp only [isName, beq_self_eq_true, if_true]
      refine ⟨nofun, fun _ => ?_⟩
      split
      · split <;> exact ⟨_, rfl⟩
      · exact ⟨_, rfl⟩
    · have other : (base.kind == .identifier) = false := by simpa using isName
      simp only [other, Bool.false_eq_true, if_false]
      cases base.callArguments with
      | nil => exact ⟨nofun, fun _ => ⟨_, rfl⟩⟩
      | cons argument rest =>
        simp only [List.head?_cons, Option.mem_def, Option.some.injEq, forall_eq']
        rw [exists_bind_pure_eq_ok_iff]
        rfl

theorem exists_allFragments_iff
    {localName : String} :
    (∃ fragments, allFragments m localName = .ok fragments) ↔
      ∀ statement ∈ m.statements, ∀ title ∈ titleOf? m localName statement,
        m.HasValue title := by
  unfold allFragments
  rw [exists_bind_pure_eq_ok_iff]
  exact exists_foldlM_eq_ok_iff exists_step_iff _ _

/-! ## Everything that is read to find chains -/

/-- The literals of a module that are read to find its chains. -/
inductive ReadToLocate
    (m : Module)
    (registration : Registration) : Node → Prop
  | inImport
      {statement literal : Node}
      (isStatement : statement ∈ m.statements)
      (isImport : statement.kind = .importStatement)
      (isRead : ReadInImport m registration statement literal) :
      ReadToLocate m registration literal
  | inExport
      {statement literal : Node}
      (isStatement : statement ∈ m.statements)
      (isExport : statement.kind = .exportStatement)
      (isRead : ReadInExport statement literal) :
      ReadToLocate m registration literal
  | title
      {found : List Node}
      {root statement literal : Node}
      (imported : specifiers m registration = .ok found)
      (below : root ∈ m.tree.preorder)
      (isRoot : isRoot m (localNameOf m registration found.head?) root = true)
      (isStatement : statement ∈ m.statements)
      (isTitle : titleOf? m (localNameOf m registration found.head?) statement =
        some literal) :
      ReadToLocate m registration literal

theorem exists_specifiers_iff :
    (∃ found, specifiers m registration = .ok found) ↔
      ∀ statement ∈ m.statements, statement.kind = .importStatement →
        ∀ literal, ReadInImport m registration statement literal →
          m.HasValue literal := by
  unfold specifiers
  rw [exists_bind_pure_eq_ok_iff, exists_mapM_eq_ok_iff]
  simp only [exists_specifiersIn_iff, List.mem_filter, beq_iff_eq, and_imp]

theorem exists_exports_iff :
    (∃ exports, Exports.ofModule m = .ok exports) ↔
      ∀ statement ∈ m.statements, statement.kind = .exportStatement →
        ∀ literal, ReadInExport statement literal → m.HasValue literal := by
  unfold Exports.ofModule
  rw [exists_bind_pure_eq_ok_iff, exists_mapM_eq_ok_iff]
  simp only [exists_exportsOf_iff, List.mem_filter, beq_iff_eq, and_imp]

/-- The chains of a module are found unless a literal that is read for it
denotes nothing. -/
theorem exists_locate_iff :
    (∃ located, locate m registration = .ok located) ↔
      ∀ literal, ReadToLocate m registration literal → m.HasValue literal := by
  unfold locate
  rw [exists_bind_eq_ok_iff]
  constructor
  · rintro ⟨found, imported, made⟩ literal read
    simp only at made
    have titlesAndExports : (∀ root ∈ m.tree.preorder,
        isRoot m (localNameOf m registration found.head?) root = true →
          ∃ fragments, allFragments m
            (localNameOf m registration found.head?) = .ok fragments) ∧
        ∃ exports, Exports.ofModule m = .ok exports := by
      split at made
      · rename_i noRoots
        rw [pure_bind, exists_bind_pure_eq_ok_iff] at made
        refine ⟨fun root below isRoot => ?_, made⟩
        rw [List.isEmpty_iff, List.filter_eq_nil_iff] at noRoots
        exact absurd isRoot (noRoots root below)
      · rw [exists_bind_eq_ok_iff] at made
        obtain ⟨fragments, foundFragments, rest⟩ := made
        rw [exists_bind_pure_eq_ok_iff] at rest
        refine ⟨fun _ _ _ => ?_, rest⟩
        cases allFound : allFragments m
            (localNameOf m registration found.head?) with
        | error failure =>
          rw [allFound] at foundFragments
          contradiction
        | ok all => exact ⟨all, rfl⟩
    obtain ⟨titles, exports⟩ := titlesAndExports
    cases read with
    | inImport isStatement isImport isRead =>
      exact exists_specifiers_iff.1 ⟨found, imported⟩ _ isStatement isImport _
        isRead
    | inExport isStatement isExport isRead =>
      exact exists_exports_iff.1 exports _ isStatement isExport _ isRead
    | title importedHere below isRoot isStatement isTitle =>
      rw [imported] at importedHere
      cases importedHere
      exact exists_allFragments_iff.1 (titles _ below isRoot) _ isStatement _
        isTitle
  · intro readable
    obtain ⟨found, imported⟩ := exists_specifiers_iff.2
      fun statement isStatement isImport literal isRead =>
        readable literal (.inImport isStatement isImport isRead)
    obtain ⟨exports, exportsFound⟩ := exists_exports_iff.2
      fun statement isStatement isExport literal isRead =>
        readable literal (.inExport isStatement isExport isRead)
    refine ⟨found, imported, ?_⟩
    simp only [exportsFound]
    split
    · exact ⟨_, rfl⟩
    · rename_i someRoots
      rw [List.isEmpty_iff] at someRoots
      obtain ⟨root, isRoot⟩ := List.exists_mem_of_ne_nil _ someRoots
      obtain ⟨below, isRoot⟩ := List.mem_filter.1 isRoot
      obtain ⟨fragments, foundFragments⟩ := exists_allFragments_iff.2
        fun statement isStatement literal isTitle =>
          readable literal (.title imported below isRoot isStatement isTitle)
      rw [foundFragments]
      exact ⟨_, rfl⟩

end Chain

namespace Story

variable {m : Module} {fragment : Fragment}

/-! ## Stories and parameters -/

/-- The key of a member of an object literal, if it is a string. -/
def keyLiteral? (member : Node) : Option Node :=
  if member.kind == .pair || member.kind == .methodDefinition then
    (member.child? .key <|> member.child? .name).filter (·.kind == .string)
  else none

theorem exists_propertyKey_iff
    {member : Node} :
    (∃ key, m.propertyKey member = .ok key) ↔
      ∀ literal ∈ keyLiteral? member, m.HasValue literal := by
  unfold Module.propertyKey keyLiteral?
  by_cases isKeyed : member.kind = .pair ∨ member.kind = .methodDefinition
  · rw [if_pos (by rcases isKeyed with isPair | isMethod <;> simp [*])]
    cases keyEq : member.child? .key <|> member.child? .name with
    | none => rcases isKeyed with isPair | isMethod <;> simp [*]
    | some key =>
      by_cases isString : key.kind = .string
      · have valued : (∃ text, (some <$> m.stringValue key) = .ok text) ↔
            m.HasValue key := by
          unfold Module.HasValue
          cases m.stringValue key with
          | error failure => exact ⟨nofun, nofun⟩
          | ok value => exact ⟨fun _ => ⟨_, rfl⟩, fun _ => ⟨_, rfl⟩⟩
        rcases isKeyed with isPair | isMethod <;> simp [*]
      · rcases isKeyed with isPair | isMethod <;> simp [*] <;> split <;> simp_all
  · rw [if_neg (by simpa using isKeyed)]
    split <;> simp_all

/-- The literals of a fragment that are read to write it anew: the names of its
stories, and the keys of parameters that are given as object literals. -/
inductive ReadToWrite (fragment : Fragment) : Node → Prop
  | name
      {link : Link}
      {literal : Node}
      (isAdd : link ∈ fragment.adds)
      (isName : link.arguments[0]? = some literal) :
      ReadToWrite fragment literal
  | ownKey
      {link : Link}
      {argument member literal : Node}
      (isAdd : link ∈ fragment.adds)
      (isArgument : link.arguments[2]? = some argument)
      (isObject : argument.kind = .object)
      (isMember : member ∈ argument.namedChildren)
      (isKey : keyLiteral? member = some literal) :
      ReadToWrite fragment literal
  | sharedKey
      {link : Link}
      {argument member literal : Node}
      (isParameters : link ∈ fragment.parameters)
      (isArgument : argument ∈ link.arguments)
      (isObject : argument.kind = .object)
      (isMember : member ∈ argument.namedChildren)
      (isKey : keyLiteral? member = some literal) :
      ReadToWrite fragment literal

theorem keyed_iff
    {object : Node} :
    Keyed m object ↔
      ∀ member ∈ object.namedChildren, ∀ literal ∈ keyLiteral? member,
        m.HasValue literal := by
  unfold Keyed
  simp only [exists_propertyKey_iff]

/-- A fragment is written anew unless a literal that is read for it denotes
nothing. -/
theorem exists_generated_iff
    {options : Options}
    {located : Located}
    (wellFormed : ∀ link ∈ fragment.links, link.isWellFormed = true) :
    (∃ code, Migration.generated options m located fragment = .ok code) ↔
      ∀ literal, ReadToWrite fragment literal → m.HasValue literal := by
  have both : (∃ code, Migration.generated options m located fragment = .ok code) ↔
      (∃ metadata, Metadata.ofFragment m fragment located.exports.named =
        .ok metadata) ∧ ∃ stories, ofFragment m fragment = .ok stories := by
    unfold Migration.generated
    rw [exists_bind_eq_ok_iff]
    simp only [exists_bind_pure_eq_ok_iff, exists_and_right]
  rw [both, exists_metadata_iff m wellFormed, exists_ofFragment_iff wellFormed]
  constructor
  · rintro ⟨shared, stories⟩ literal read
    cases read with
    | name isAdd isName => exact (stories _ isAdd).name literal isName
    | ownKey isAdd isArgument isObject isMember isKey =>
      exact keyed_iff.1 ((stories _ isAdd).keys _ isArgument isObject) _ isMember
        _ isKey
    | sharedKey isParameters isArgument isObject isMember isKey =>
      exact keyed_iff.1 (shared _ isParameters _ isArgument isObject) _ isMember
        _ isKey
  · intro readable
    refine ⟨fun link isParameters argument isArgument isObject => ?_,
      fun link isAdd => ⟨fun name isName => ?_,
        fun argument isArgument isObject => ?_⟩⟩
    · exact keyed_iff.2 fun member isMember literal isKey =>
        readable literal
          (.sharedKey isParameters isArgument isObject isMember isKey)
    · exact readable name (.name isAdd isName)
    · exact keyed_iff.2 fun member isMember literal isKey =>
        readable literal (.ownKey isAdd isArgument isObject isMember isKey)

end Story

/-! ## Where the literals stand -/

namespace Chain

variable {m : Module} {registration : Registration}

theorem mem_preorder_of_readInImport
    {statement literal : Node}
    (isRead : ReadInImport m registration statement literal) :
    literal ∈ statement.preorder := by
  cases isRead with
  | source isSource => exact Node.child_mem_preorder (Node.child?_mem isSource)
  | name isSource valued starts isSpecifier named isString =>
    exact Node.mem_preorder_trans (List.mem_filter.1 isSpecifier).1
      (Node.child_mem_preorder (Node.child?_mem named))

theorem mem_preorder_of_readInExport
    {statement literal : Node}
    (isRead : ReadInExport statement literal) :
    literal ∈ statement.preorder := by
  obtain ⟨-, -, isClause, isSpecifier, named, -⟩ := isRead
  have isChild := statement.namedChildren_subset (List.mem_filter.1 isClause).1
  have isGrandchild :=
    Node.namedChildren_subset _ (List.mem_filter.1 isSpecifier).1
  refine Node.mem_preorder_of_child isChild (Node.mem_preorder_of_child
    isGrandchild (Node.child_mem_preorder ?_))
  rw [Option.orElse_eq_orElse, Option.orElse_eq_or, Option.or_eq_some_iff]
    at named
  rcases named with renamed | ⟨-, named⟩
  · exact Node.child?_mem renamed
  · exact Node.child?_mem named

theorem mem_preorder_of_titleOf?
    {localName : String}
    {statement literal : Node}
    (isTitle : titleOf? m localName statement = some literal) :
    literal ∈ statement.preorder := by
  obtain ⟨⟨base, links, binding⟩, chain, titled⟩ :=
    Option.bind_eq_some_iff.1 isTitle
  split at titled
  · contradiction
  · exact Node.mem_preorder_trans (base_of_statementChain chain).1
      (mem_preorder_of_callArguments (List.mem_of_head? titled))

/-- What is read to find the chains of a module stands in it. -/
theorem ReadToLocate.mem_preorder
    {literal : Node}
    (isRead : ReadToLocate m registration literal) :
    literal ∈ m.tree.preorder := by
  have inside {statement : Node}
      (isStatement : statement ∈ m.statements)
      (below : literal ∈ statement.preorder) :
      literal ∈ m.tree.preorder :=
    Node.mem_preorder_trans (Module.statement_mem_preorder isStatement) below
  cases isRead with
  | inImport isStatement _ isRead =>
    exact inside isStatement (mem_preorder_of_readInImport isRead)
  | inExport isStatement _ isRead =>
    exact inside isStatement (mem_preorder_of_readInExport isRead)
  | title _ _ _ isStatement isTitle =>
    exact inside isStatement (mem_preorder_of_titleOf? isTitle)

end Chain

namespace Story

theorem mem_preorder_of_keyLiteral?
    {member literal : Node}
    (isKey : keyLiteral? member = some literal) :
    literal ∈ member.preorder := by
  unfold keyLiteral? at isKey
  split at isKey
  · rw [Option.filter_eq_some_iff, Option.orElse_eq_orElse,
      Option.orElse_eq_or, Option.or_eq_some_iff] at isKey
    rcases isKey.1 with keyed | ⟨-, named⟩
    · exact Node.child_mem_preorder (Node.child?_mem keyed)
    · exact Node.child_mem_preorder (Node.child?_mem named)
  · contradiction

/-- What is read to write a fragment anew stands in its statements. -/
theorem ReadToWrite.mem_preorder
    {m : Module}
    {fragment : Fragment}
    {localName : String}
    {literal : Node}
    (collected : fragment.Collected m localName)
    (isRead : ReadToWrite fragment literal) :
    ∃ statement ∈ fragment.statements, literal ∈ statement.preorder := by
  have below
      {link : Link}
      {argument : Node}
      (isLink : link ∈ fragment.links)
      (isArgument : argument ∈ link.arguments)
      (inside : literal ∈ argument.preorder) :
      ∃ statement ∈ fragment.statements, literal ∈ statement.preorder := by
    obtain ⟨statement, isStatement, member⟩ :=
      collected.argument_mem isLink isArgument
    exact ⟨statement, isStatement, Node.mem_preorder_trans member inside⟩
  have keyInside
      {argument member : Node}
      (isMember : member ∈ argument.namedChildren)
      (isKey : keyLiteral? member = some literal) :
      literal ∈ argument.preorder :=
    Node.mem_preorder_of_child (argument.namedChildren_subset isMember)
      (mem_preorder_of_keyLiteral? isKey)
  cases isRead with
  | name isAdd isName =>
    exact below (List.mem_filter.1 isAdd).1 (List.mem_of_getElem? isName)
      literal.self_mem_preorder
  | ownKey isAdd isArgument isObject isMember isKey =>
    exact below (List.mem_filter.1 isAdd).1 (List.mem_of_getElem? isArgument)
      (keyInside isMember isKey)
  | sharedKey isParameters isArgument isObject isMember isKey =>
    exact below (List.mem_filter.1 isParameters).1 isArgument
      (keyInside isMember isKey)

end Story
end StoryMigration
