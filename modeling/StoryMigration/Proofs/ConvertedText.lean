import StoryMigration.Proofs.Guards
import StoryMigration.Proofs.Removal

/-!
# What a conversion leaves of the source

The edits of a conversion belong to different statements, so they leave each
other alone.  The converted text is the source with the generated code in
place of the fragment's last statement, and without its other statements and
the import; of everything else only white space next to a removed statement
goes, and the line ends at the two ends of the text are made regular.
-/

namespace StoryMigration

open Syntax Chain LineSpan Fallible

/-! ## Regular ends -/

namespace Newline

/-- A character of a line ending. -/
def isEnd (c : Char) : Bool := c == '\r' || c == '\n'

/-- The middle of a text is what is left without the line ending characters at
its two ends. -/
structure IsMiddle (text middle : List Char) : Prop where
  split : ∃ front back, text = front ++ middle ++ back ∧
    (∀ c ∈ front, isEnd c = true) ∧ ∀ c ∈ back, isEnd c = true
  starts : ∀ c, middle.head? = some c → isEnd c = false
  stops : ∀ c, middle.getLast? = some c → isEnd c = false

theorem head?_dropWhile_isEnd
    {text : List Char}
    {c : Char}
    (head : (text.dropWhile isEnd).head? = some c) :
    isEnd c = false := by
  have stops := List.head?_dropWhile_not isEnd text
  rw [head] at stops
  exact stops

/-- Making the ends of a text regular keeps its middle, and adds one line
ending. -/
theorem normalizedEnds_eq
    (text : String) :
    ∃ middle, IsMiddle text.toList middle ∧
      normalizedEnds text =
        String.ofList (middle ++ (ofText text.toList).chars) := by
  refine ⟨((text.toList.dropWhile isEnd).reverse.dropWhile isEnd).reverse,
    ⟨?_, ?_, ?_⟩, rfl⟩
  · refine ⟨text.toList.takeWhile isEnd,
      ((text.toList.dropWhile isEnd).reverse.takeWhile isEnd).reverse,
      ?_, ?_, ?_⟩
    · rw [List.append_assoc, ← List.reverse_append,
        List.takeWhile_append_dropWhile, List.reverse_reverse,
        List.takeWhile_append_dropWhile]
    · exact fun c member => List.mem_takeWhile_imp member
    · intro c member
      rw [List.mem_reverse] at member
      exact List.mem_takeWhile_imp member
  · intro c head
    -- the middle starts with what is left when the front has gone
    have front : ((text.toList.dropWhile isEnd).reverse.dropWhile
        isEnd).reverse <+: text.toList.dropWhile isEnd := by
      rw [← List.reverse_suffix, List.reverse_reverse]
      exact List.dropWhile_suffix isEnd
    obtain ⟨back, whole⟩ := front
    have frontHead : (text.toList.dropWhile isEnd).head? = some c := by
      rw [← whole, List.head?_append, head]
      rfl
    exact head?_dropWhile_isEnd frontHead
  · intro c last
    rw [List.getLast?_reverse] at last
    exact head?_dropWhile_isEnd last

end Newline

namespace Migration

variable {m : Module} {options : Options} {located : Located}
  {fragment : Fragment}

/-- The source of a module is the text it was read from. -/
theorem source_of_parse?
    {dialect : Dialect}
    {source : String}
    (parsed : Module.parse? dialect source = some m) :
    m.source = source := by
  obtain ⟨tree, -, rfl⟩ := Option.map_eq_some_iff.1 parsed
  show (Utf8.toString? (Utf8.ofString source)).getD "" = source
  rw [Utf8.toString?_ofString, Option.getD_some]

/-! ## The edits of a conversion -/

/-- The edits that put generated code in place of a fragment, and the removal of
the import. -/
def conversionEdits
    (m : Module)
    (located : Located)
    (fragment : Fragment)
    (code : String) : List Edit :=
  fragmentEdits m fragment code ++
    (importEdit m located fragment.statements).toList

theorem conversionEdits_eq_cons
    (m : Module)
    (located : Located)
    (fragment : Fragment)
    (code : String) :
    conversionEdits m located fragment code =
      .replacing fragment.anchor.start fragment.anchor.stop code ::
        (fragment.statements.dropLast.map (LineSpan.removal m · true) ++
          (importEdit m located fragment.statements).toList) := rfl

/-- An edit of a conversion writes the code, or removes another statement of the
fragment or the import. -/
theorem mem_conversionEdits
    {edit : Edit}
    {code : String} :
    edit ∈ conversionEdits m located fragment code ↔
      edit = .replacing fragment.anchor.start fragment.anchor.stop code ∨
        (∃ statement ∈ fragment.statements.dropLast,
          LineSpan.removal m statement true = edit) ∨
        importEdit m located fragment.statements = some edit := by
  rw [conversionEdits_eq_cons, List.mem_cons, List.mem_append, List.mem_map,
    Option.mem_toList]

/-- The spans that a conversion removes: the statements of the fragment but the
last one, with the white space around them, and the range of the import. -/
def removedSpans
    (m : Module)
    (located : Located)
    (fragment : Fragment) : List Span :=
  fragment.statements.dropLast.map (around m.bytes · true) ++
    (importEdit m located fragment.statements).toList.map Edit.span

/-- The source with some code in place of the last statement of a fragment, and
without the spans that a conversion removes. -/
def convertedBytes
    (m : Module)
    (located : Located)
    (fragment : Fragment)
    (code : String) : List UInt8 :=
  kept m.bytes (removedSpans m located fragment) 0 fragment.anchor.start ++
    Utf8.ofString code ++
    kept m.bytes (removedSpans m located fragment) fragment.anchor.stop
      m.bytes.length

theorem statements_eq_append_anchor
    (fragment : Fragment) :
    fragment.statements = fragment.statements.dropLast ++ [fragment.anchor] := by
  obtain ⟨root, title, links, first, later, binding⟩ := fragment
  rcases List.eq_nil_or_concat later with rfl | ⟨front, last, rfl⟩
  · rfl
  · simp [Fragment.statements, Fragment.anchor, List.dropLast_cons_of_ne_nil]

/-- The import that is removed belongs to an import statement. -/
theorem importEdit_eq_some
    {excluded : List Node}
    {edit : Edit}
    (orderly : m.Orderly)
    (found : importEdit m located excluded = some edit) :
    ∃ statement ∈ m.statements, statement.kind = .importStatement ∧
      edit.BelongsTo m statement ∧ edit.replacement = [] := by
  obtain ⟨specifier, -, found⟩ := Option.bind_eq_some_iff.1 found
  obtain ⟨statement, statementFound, found⟩ := Option.bind_eq_some_iff.1 found
  obtain ⟨member, isImport⟩ :=
    ImportRemoval.statementOf?_eq_some statementFound
  split at found
  · rw [Option.some.injEq] at found
    rw [← found]
    exact ⟨statement, member, isImport,
      ImportRemoval.edit_belongsTo orderly member specifier⟩
  · contradiction

/-- No statement of a fragment is an import. -/
theorem kind_ne_importStatement
    {localName : String}
    {statement : Node}
    (grounded : fragment.Grounded m localName)
    (member : statement ∈ fragment.statements) :
    statement.kind ≠ .importStatement := by
  intro isImport
  rcases List.mem_cons.1 member with rfl | later
  · obtain ⟨expression, found⟩ := grounded.bound
    obtain ⟨-, ⟨isExpression, -⟩ | ⟨isDeclaration, -⟩⟩ :=
      statementExpression_eq_some found
    · rw [isImport] at isExpression
      contradiction
    · rw [isImport] at isDeclaration
      contradiction
  · rw [grounded.laterKind statement later] at isImport
    contradiction

/-- The removal of the import leaves every edit alone that belongs to a
statement of the fragment. -/
theorem importEdit_apart
    {localName : String}
    {statement : Node}
    {own edit : Edit}
    (orderly : m.Orderly)
    (grounded : fragment.Grounded m localName)
    (sublist : fragment.statements.Sublist m.statements)
    (member : statement ∈ fragment.statements)
    (belongs : own.BelongsTo m statement)
    (found : importEdit m located fragment.statements = some edit) :
    own.Apart edit := by
  obtain ⟨importing, importMember, isImport, importBelongs, -⟩ :=
    importEdit_eq_some orderly found
  have different : statement ≠ importing := by
    rintro rfl
    exact kind_ne_importStatement grounded member isImport
  have anchored := orderly.anchored statement (sublist.subset member)
  have importAnchored := orderly.anchored importing importMember
  rcases orderly.nested.inTurn_of_ne
    (m.tree.parts_subset (sublist.subset member))
    (m.tree.parts_subset importMember) different with before | behind
  · exact belongs.apart importBelongs before anchored importAnchored
  · exact (importBelongs.apart belongs behind importAnchored anchored).symm

theorem anchor_mem
    (fragment : Fragment) :
    fragment.anchor ∈ fragment.statements := by
  rw [statements_eq_append_anchor]
  exact List.mem_append_right _ (List.mem_singleton_self _)

theorem mem_of_mem_dropLast
    {statement : Node}
    (member : statement ∈ fragment.statements.dropLast) :
    statement ∈ fragment.statements :=
  (List.dropLast_sublist _).subset member

/-- Every edit of a conversion belongs to a statement. -/
theorem conversionEdits_belongTo
    {edit : Edit}
    {code : String}
    (orderly : m.Orderly)
    (sublist : fragment.statements.Sublist m.statements)
    (member : edit ∈ conversionEdits m located fragment code) :
    ∃ statement ∈ m.statements, edit.BelongsTo m statement := by
  rcases mem_conversionEdits.1 member with
    rfl | ⟨statement, statementMember, rfl⟩ | found
  · have anchorMember := sublist.subset (anchor_mem fragment)
    exact ⟨_, anchorMember, replacing_belongsTo orderly anchorMember code⟩
  · have isStatement := sublist.subset (mem_of_mem_dropLast statementMember)
    exact ⟨statement, isStatement,
      removal_belongsTo orderly isStatement true⟩
  · obtain ⟨importing, importMember, -, belongs, -⟩ :=
      importEdit_eq_some orderly found
    exact ⟨importing, importMember, belongs⟩

/-- The edits of a conversion leave each other alone. -/
theorem conversionEdits_apart
    {localName : String}
    (orderly : m.Orderly)
    (grounded : fragment.Grounded m localName)
    (sublist : fragment.statements.Sublist m.statements)
    (code : String) :
    (conversionEdits m located fragment code).Pairwise Edit.Apart := by
  have inTurn := orderly.inTurn.sublist sublist
  rw [statements_eq_append_anchor fragment, List.pairwise_append] at inTurn
  obtain ⟨othersInTurn, -, anchorBehind⟩ := inTurn
  have anchorMember := anchor_mem fragment
  have anchored {statement : Node} (member : statement ∈ fragment.statements) :=
    orderly.anchored statement (sublist.subset member)
  have replaced :=
    replacing_belongsTo orderly (sublist.subset anchorMember) code
  have removed {statement : Node}
      (member : statement ∈ fragment.statements.dropLast) :=
    removal_belongsTo orderly (sublist.subset (mem_of_mem_dropLast member)) true
  rw [conversionEdits_eq_cons, List.pairwise_cons, List.pairwise_append]
  refine ⟨?_, ?_, ?_, ?_⟩
  · intro edit member
    rcases List.mem_append.1 member with own | found
    · obtain ⟨statement, statementMember, rfl⟩ := List.mem_map.1 own
      have behind :=
        anchorBehind statement statementMember _ (List.mem_singleton_self _)
      exact ((removed statementMember).apart replaced behind
        (anchored (mem_of_mem_dropLast statementMember))
        (anchored anchorMember)).symm
    · exact importEdit_apart orderly grounded sublist anchorMember replaced
        (Option.mem_toList.1 found)
  · rw [List.pairwise_map]
    apply othersInTurn.imp_of_mem
    intro a b aMember bMember inOrder
    exact (removed aMember).apart (removed bMember) inOrder
      (anchored (mem_of_mem_dropLast aMember))
      (anchored (mem_of_mem_dropLast bMember))
  · cases importEdit m located fragment.statements with
    | none => exact .nil
    | some edit => exact List.pairwise_singleton _ _
  · intro own ownMember edit found
    obtain ⟨statement, statementMember, rfl⟩ := List.mem_map.1 ownMember
    exact importEdit_apart orderly grounded sublist
      (mem_of_mem_dropLast statementMember) (removed statementMember)
      (Option.mem_toList.1 found)

theorem bytes_replacing
    (first last : Nat)
    (code : String) :
    (Edit.replacing first last code).bytes = Utf8.ofString code := by
  unfold Edit.bytes Edit.replacing Text.ofString
  rw [Text.toChars?_ofChars]
  rfl

theorem conversionEdits_encodable
    {edit : Edit}
    {code : String}
    (orderly : m.Orderly)
    (member : edit ∈ conversionEdits m located fragment code) :
    edit.replacement.toChars?.isSome = true := by
  rcases mem_conversionEdits.1 member with rfl | ⟨statement, -, rfl⟩ | found
  · unfold Edit.replacing Text.ofString
    rw [Text.toChars?_ofChars]
    rfl
  · rfl
  · obtain ⟨-, -, -, -, empty⟩ := importEdit_eq_some orderly found
    rw [empty]
    rfl

/-- The edits of a conversion give the source with the generated code in place
of the anchor and without what is removed. -/
theorem applyBytes_conversionEdits
    {localName : String}
    (orderly : m.Orderly)
    (grounded : fragment.Grounded m localName)
    (sublist : fragment.statements.Sublist m.statements)
    (code : String) :
    Edit.applyBytes m.bytes (conversionEdits m located fragment code) =
      .ok (convertedBytes m located fragment code) := by
  have apart : (conversionEdits m located fragment code).Pairwise Edit.Apart :=
    conversionEdits_apart orderly grounded sublist code
  have fits (edit : Edit)
      (member : edit ∈ conversionEdits m located fragment code) :
      edit.Fits m.bytes.length := by
    obtain ⟨statement, -, belongs⟩ :=
      conversionEdits_belongTo orderly sublist member
    exact belongs.fits
  have encodable (edit : Edit)
      (member : edit ∈ conversionEdits m located fragment code) :=
    conversionEdits_encodable orderly member
  rw [conversionEdits_eq_cons] at apart fits encodable ⊢
  have empty (edit : Edit) (member : edit ∈
      fragment.statements.dropLast.map (LineSpan.removal m · true) ++
        (importEdit m located fragment.statements).toList) :
      edit.replacement = [] := by
    rcases List.mem_append.1 member with own | found
    · obtain ⟨statement, -, rfl⟩ := List.mem_map.1 own
      rfl
    · obtain ⟨-, -, -, -, empty⟩ :=
        importEdit_eq_some orderly (Option.mem_toList.1 found)
      exact empty
  have applied := Edit.applyBytes_replacement_removals apart fits
    (encodable _ List.mem_cons_self) empty
  rw [List.map_append, List.map_map, bytes_replacing] at applied
  exact applied

/-- The edits of a conversion of a text give a text. -/
theorem apply_conversionEdits
    {localName : String}
    (orderly : m.Orderly)
    (readable : m.Readable)
    (grounded : fragment.Grounded m localName)
    (sublist : fragment.statements.Sublist m.statements)
    (code : String) :
    ∃ text, Edit.apply m.bytes (conversionEdits m located fragment code) =
        .ok text ∧
      Utf8.ofString text = convertedBytes m located fragment code := by
  have belong {edit : Edit}
      (isEdit : edit ∈ conversionEdits m located fragment code) :=
    conversionEdits_belongTo orderly sublist isEdit
  exact Edit.apply_of_apart readable.text
    (conversionEdits_apart orderly grounded sublist code)
    (fun edit isEdit => (belong isEdit).choose_spec.2.fits)
    (fun edit isEdit => (belong isEdit).choose_spec.2.boundaries readable)
    (fun edit isEdit => conversionEdits_encodable orderly isEdit)
    (applyBytes_conversionEdits orderly grounded sublist code)

/-- Converting a module without stripping and formatting makes the ends of the
edited text regular and nothing else. -/
theorem transform_eq_ok
    {host : Command.Host}
    {path text code : String}
    {count : Nat}
    (unstripped : options.stripResidualRoots = false)
    (unformatted : options.formatter = [])
    (found : locate m options.registration = .ok located)
    (passes : chosen located = some fragment)
    (written : generated options m located fragment = .ok (code, count))
    (applied : Edit.apply m.bytes (conversionEdits m located fragment code) =
      .ok text) :
    transform host options path m =
      .ok
        { before := m.source
          code := Newline.normalizedEnds text
          changes :=
            ((importEdit m located fragment.statements).map fun _ =>
              importChange options).toList ++
                [chainChange count fragment.title] } := by
  have allowed := (veto_eq_none_of_chosen passes).1
  unfold transform
  rw [bind_eq_ok]
  refine ⟨located, mapError_eq_ok.2 found, ?_⟩
  rw [allowed, passes]
  simp only
  rw [bind_eq_ok]
  refine ⟨(_, _), ?_, rfl⟩
  unfold converted
  rw [bind_eq_ok]
  refine ⟨(code, count), mapError_eq_ok.2 written, ?_⟩
  simp only
  rw [bind_eq_ok]
  refine ⟨text, mapError_eq_ok.2 applied, ?_⟩
  rw [unstripped, unformatted]
  rfl

/-- Converting a chain that can be written anew cannot fail without stripping
and formatting. -/
theorem exists_transform_eq_ok
    {code : String}
    {count : Nat}
    (host : Command.Host)
    (path : String)
    (unstripped : options.stripResidualRoots = false)
    (unformatted : options.formatter = [])
    (orderly : m.Orderly)
    (readable : m.Readable)
    (found : locate m options.registration = .ok located)
    (passes : chosen located = some fragment)
    (written : generated options m located fragment = .ok (code, count)) :
    ∃ outcome, transform host options path m = .ok outcome := by
  obtain ⟨-, member⟩ := veto_eq_none_of_chosen passes
  obtain ⟨-, grounded, sublist⟩ := (locate_sound found).of_mem member
  obtain ⟨text, applied, -⟩ :=
    apply_conversionEdits orderly readable grounded sublist code
  exact ⟨_, transform_eq_ok unstripped unformatted found passes written applied⟩

/-- A conversion without stripping and formatting exchanges the anchor for the
generated code, and removes the other statements of the fragment with white
space only and the range of the import edit.  No two of its edits overlap, and
every other byte is kept in its place between the others. -/
theorem transform_keeps_rest
    (host : Command.Host)
    (path : String)
    (unstripped : options.stripResidualRoots = false)
    (unformatted : options.formatter = [])
    (orderly : m.Orderly)
    (found : locate m options.registration = .ok located)
    (passes : chosen located = some fragment) :
    (∀ statement ∈ fragment.statements.dropLast,
        Grown m.bytes statement (around m.bytes statement true)) ∧
      (∀ edit, importEdit m located fragment.statements = some edit →
        ∃ statement ∈ m.statements, statement.kind = .importStatement ∧
          edit.BelongsTo m statement ∧ edit.replacement = []) ∧
      ∀ code, (conversionEdits m located fragment code).Pairwise Edit.Apart ∧
        Edit.applyBytes m.bytes (conversionEdits m located fragment code) =
          .ok (convertedBytes m located fragment code) ∧
        (m.Readable → ∃ text middle,
          Edit.apply m.bytes (conversionEdits m located fragment code) =
            .ok text ∧
          Utf8.ofString text = convertedBytes m located fragment code ∧
          Newline.IsMiddle text.toList middle ∧
          ∀ count, generated options m located fragment = .ok (code, count) →
            transform host options path m =
              .ok
                { before := m.source
                  code := String.ofList
                    (middle ++ (Newline.ofText text.toList).chars)
                  changes :=
                    ((importEdit m located fragment.statements).map fun _ =>
                      importChange options).toList ++
                        [chainChange count fragment.title] }) := by
  obtain ⟨-, member⟩ := veto_eq_none_of_chosen passes
  obtain ⟨-, grounded, sublist⟩ := (locate_sound found).of_mem member
  refine ⟨?_, ?_, ?_⟩
  · intro statement statementMember
    obtain ⟨nested, inside⟩ := orderly.statement
      (sublist.subset (mem_of_mem_dropLast statementMember))
    exact around_grown true nested.forward inside
  · intro edit editFound
    exact importEdit_eq_some orderly editFound
  · intro code
    have apart : (conversionEdits m located fragment code).Pairwise
        Edit.Apart :=
      conversionEdits_apart orderly grounded sublist code
    have applied : Edit.applyBytes m.bytes
        (conversionEdits m located fragment code) =
          .ok (convertedBytes m located fragment code) :=
      applyBytes_conversionEdits orderly grounded sublist code
    refine ⟨apart, applied, fun readable => ?_⟩
    obtain ⟨text, textApplied, textBytes⟩ :=
      apply_conversionEdits orderly readable grounded sublist code
    obtain ⟨middle, isMiddle, regular⟩ := Newline.normalizedEnds_eq text
    refine ⟨text, middle, textApplied, textBytes, isMiddle, ?_⟩
    intro count written
    rw [← regular]
    exact transform_eq_ok unstripped unformatted found passes written
      textApplied

set_option maxRecDepth 100000 in
/-- A module with its import and one chain in two statements meets the
conditions, and both the first statement and the import go. -/
theorem transform_keeps_rest_two_statements :
    ∃ m located fragment code text outcome,
      Module.parse? .javascript
        ("import \x7b storiesOf \x7d from '@storybook/react';\n" ++
          "const stories = storiesOf('A', module);\n\n" ++
          "stories.add('x', f);\n") = some m ∧
      m.Orderly ∧ m.Readable ∧
      locate m {} = .ok located ∧ chosen located = some fragment ∧
      fragment.statements.length = 2 ∧
      (importEdit m located fragment.statements).isSome = true ∧
      generated {} m located fragment = .ok (code, 1) ∧
      Edit.apply m.bytes (conversionEdits m located fragment code) = .ok text ∧
      Utf8.ofString text = convertedBytes m located fragment code ∧
      transform (fun _ => .error .noProgram) {} "a.js" m = .ok outcome := by
  generalize sourceEq :
    "import \x7b storiesOf \x7d from '@storybook/react';\n" ++
      "const stories = storiesOf('A', module);\n\n" ++
      "stories.add('x', f);\n" = source
  have checked : (Module.parse? .javascript source).any (fun m =>
      decide m.LaidOut && (locate m {}).toOption.any fun located =>
        (chosen located).any fun fragment =>
          fragment.statements.length == 2 &&
            (importEdit m located fragment.statements).isSome &&
            (generated {} m located fragment).toOption.any (·.2 == 1)) =
        true := by
    rw [← sourceEq]
    decide +kernel
  obtain ⟨m, parsed, checked⟩ := (Option.any_eq_true _ _).1 checked
  rw [Bool.and_eq_true, decide_eq_true_eq, any_toOption] at checked
  obtain ⟨laidOut, located, found, checked⟩ := checked
  obtain ⟨fragment, passes, checked⟩ := (Option.any_eq_true _ _).1 checked
  rw [Bool.and_eq_true, Bool.and_eq_true, beq_iff_eq, any_toOption] at checked
  obtain ⟨⟨two, imported⟩, ⟨code, count⟩, written, isOne⟩ := checked
  have single : count = 1 := beq_iff_eq.1 isOne
  subst single
  have orderly := laidOut.orderly
  have readable := laidOut.readable parsed
  obtain ⟨-, -, converts⟩ := transform_keeps_rest
    (fun _ => .error .noProgram) "a.js"
    (rfl : ({} : Options).stripResidualRoots = false)
    (rfl : ({} : Options).formatter = []) orderly found passes
  obtain ⟨-, -, converts⟩ := converts code
  obtain ⟨converted, middle, applied, bytesEq, -, outcome⟩ := converts readable
  exact ⟨m, located, fragment, code, converted, _, parsed, orderly, readable,
    found, passes, two, imported, written, applied, bytesEq,
    outcome 1 written⟩

end Migration
end StoryMigration
