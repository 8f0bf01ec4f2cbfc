import StoryMigration.Migration.Calls
import StoryMigration.Proofs.ConversionFailures

/-!
# Three ways to ask for a conversion

A conversion can be asked for directly, through the function of its name and
through the transformer of its name.  The first two agree.  The third picks the
dialect by the path alone, so that it agrees with the others for every source
exactly if the options name no other dialect.
-/

namespace StoryMigration
namespace Catalogue

open Syntax Chain Fallible Migration

variable {host : Command.Host} {options : Options} {arguments : Fields}

/-- The dialect that the path among some arguments picks. -/
def picked (arguments : Fields) : Dialect :=
  (Path.ofString (Transformer.pathOf arguments)).dialect

/-! ## Fields alone -/

/-- The transformer converts as its path says. -/
theorem apply_of_ofFields
    (source : String)
    (read : Options.ofFields arguments = .ok options) :
    standard.apply host "storiesof_to_csf" source arguments =
      (convert host options (Transformer.pathOf arguments) source
        (some (picked arguments))).mapError .migration := by
  have named : standard.get "storiesof_to_csf" = .ok .chainsToExports := by
    decide
  have configured : Transformer.chainsToExports.configure arguments =
      .ok (.chainsToExports options) := by
    unfold Transformer.configure
    rw [read]
  unfold apply
  rw [named]
  show (Transformer.chainsToExports.configure arguments >>= _) = _
  rw [configured]
  rfl

theorem apply_of_faulty
    {complaints : List Complaint}
    (source : String)
    (faulty : Options.ofFields arguments = .faulty complaints) :
    standard.apply host "storiesof_to_csf" source arguments =
      .error (.invalid complaints) := by
  have named : standard.get "storiesof_to_csf" = .ok .chainsToExports := by
    decide
  have configured : Transformer.chainsToExports.configure arguments =
      .error (.invalid complaints) := by
    unfold Transformer.configure
    rw [faulty]
  unfold apply
  rw [named]
  show (Transformer.chainsToExports.configure arguments >>= _) = _
  rw [configured]
  rfl

/-- The function converts as its options say. -/
theorem applyFunction_of_ofFields
    (source : String)
    (read : Options.ofFields arguments = .ok options) :
    applyFunction host "storiesof_to_csf" source arguments =
      (convert host options (Transformer.pathOf arguments) source).mapError
        .migration := by
  have found : standard.find? "storiesof_to_csf" = some .chainsToExports := by
    decide
  have configured : Transformer.chainsToExports.configure arguments =
      .ok (.chainsToExports options) := by
    unfold Transformer.configure
    rw [read]
  unfold applyFunction
  rw [found]
  show (Transformer.chainsToExports.configure arguments >>= _) = _
  rw [configured]
  rfl

theorem applyFunction_of_faulty
    {complaints : List Complaint}
    (source : String)
    (faulty : Options.ofFields arguments = .faulty complaints) :
    applyFunction host "storiesof_to_csf" source arguments =
      .error (.invalid complaints) := by
  have found : standard.find? "storiesof_to_csf" = some .chainsToExports := by
    decide
  have configured : Transformer.chainsToExports.configure arguments =
      .error (.invalid complaints) := by
    unfold Transformer.configure
    rw [faulty]
  unfold applyFunction
  rw [found]
  show (Transformer.chainsToExports.configure arguments >>= _) = _
  rw [configured]
  rfl

/-! ## Dialects -/

/-- Options that name no dialect or the one the path picks convert as the path
says. -/
theorem convert_of_dialect
    {path : String}
    (source : String)
    (keeps : ∀ dialect ∈ options.dialect, dialect = (Path.ofString path).dialect) :
    convert host options path source (some (Path.ofString path).dialect) =
      convert host options path source := by
  have same : dialectFor (none <|> options.dialect) path =
      (Path.ofString path).dialect := by
    cases dialectEq : options.dialect with
    | none => rfl
    | some dialect => exact keeps dialect dialectEq
  unfold convert
  rw [same]
  rfl

/-- A source that neither imports nor exports nor calls anything. -/
def isQuiet (m : Module) : Bool :=
  m.statements.all (fun statement =>
      statement.kind != .importStatement && statement.kind != .exportStatement) &&
    m.tree.preorder.all (·.kind != .callExpression)

/-- A quiet source is left alone, whatever the options are. -/
theorem convert_of_isQuiet
    {path source : String}
    {asked : Option Dialect}
    {m : Module}
    (parsed : Module.parse? (dialectFor (asked <|> options.dialect) path)
      source = some m)
    (quiet : isQuiet m = true) :
    convert host options path source asked = .ok (leftAlone path source []) := by
  unfold isQuiet at quiet
  simp only [Bool.and_eq_true, List.all_eq_true, bne_iff_ne] at quiet
  obtain ⟨others, noCall⟩ := quiet
  have noRoot (localName : String) :
      ∀ node ∈ m.tree.preorder, isRoot m localName node ≠ true := by
    intro node below isRoot
    unfold Chain.isRoot at isRoot
    rw [Bool.and_eq_true, Bool.and_eq_true, beq_iff_eq] at isRoot
    exact noCall node below isRoot.1.1
  obtain ⟨located, found⟩ := exists_locate_iff.2
    fun literal (isRead : ReadToLocate m options.registration literal) => by
      cases isRead with
      | inImport isStatement isImport =>
        exact absurd isImport (others _ isStatement).1
      | inExport isStatement isExport =>
        exact absurd isExport (others _ isStatement).2
      | title _ below isRoot => exact absurd isRoot (noRoot _ _ below)
  have noRoots : located.roots = [] := by
    rw [(locate_sound found).roots, List.filter_eq_nil_iff]
    exact noRoot _
  have leaves := convert_leaves host parsed found (.inl noRoots)
  rwa [noRoots] at leaves

/-- Any two dialects are told apart by a source that is read in one of them
only, and is quiet there. -/
theorem exists_told_apart
    {first second : Dialect}
    (different : first ≠ second) :
    ∃ source, (∃ m, Module.parse? first source = some m ∧ isQuiet m = true ∧
          Module.parse? second source = none) ∨
      ∃ m, Module.parse? second source = some m ∧ isQuiet m = true ∧
        Module.parse? first source = none := by
  have told
      {reader other : Dialect}
      {source : String}
      (checked : ((Module.parse? reader source).any isQuiet &&
        (Module.parse? other source).isNone) = true) :
      ∃ m, Module.parse? reader source = some m ∧ isQuiet m = true ∧
        Module.parse? other source = none := by
    rw [Bool.and_eq_true, Option.isNone_iff_eq_none] at checked
    obtain ⟨m, parsed, quiet⟩ := (Option.any_eq_true _ _).1 checked.1
    exact ⟨m, parsed, quiet, checked.2⟩
  cases first <;> cases second
  case javascript.javascript => contradiction
  case typescript.typescript => contradiction
  case tsx.tsx => contradiction
  case javascript.typescript =>
    exact ⟨"let n: T;", .inr (told (by decide +kernel))⟩
  case javascript.tsx =>
    exact ⟨"let n: T;", .inr (told (by decide +kernel))⟩
  case typescript.javascript =>
    exact ⟨"let n: T;", .inl (told (by decide +kernel))⟩
  case tsx.javascript =>
    exact ⟨"let n: T;", .inl (told (by decide +kernel))⟩
  case typescript.tsx =>
    exact ⟨"let n = <T>m;", .inl (told (by decide +kernel))⟩
  case tsx.typescript =>
    exact ⟨"let n = <T>m;", .inr (told (by decide +kernel))⟩

/-- Options that name another dialect than the path picks make a difference to
a quiet source: it is left alone in one dialect and does not parse in the
other. -/
theorem exists_dialect_matters
    {path : String}
    {dialect : Dialect}
    (names : options.dialect = some dialect)
    (other : dialect ≠ (Path.ofString path).dialect) :
    ∃ source, (convert host options path source = .ok (leftAlone path source []) ∧
          convert host options path source (some (Path.ofString path).dialect) =
            .error (.unparsable path (Path.ofString path).dialect)) ∨
      (convert host options path source = .error (.unparsable path dialect) ∧
        convert host options path source (some (Path.ofString path).dialect) =
          .ok (leftAlone path source [])) := by
  have own : dialectFor (none <|> options.dialect) path = dialect := by
    rw [names]
    rfl
  have byPath : dialectFor (some (Path.ofString path).dialect <|> options.dialect)
      path = (Path.ofString path).dialect := rfl
  obtain ⟨source, ⟨m, parsed, quiet, unparsed⟩ | ⟨m, parsed, quiet, unparsed⟩⟩ :=
    exists_told_apart other
  · refine ⟨source, .inl ⟨convert_of_isQuiet (own ▸ parsed) quiet, ?_⟩⟩
    exact convert_of_parse?_eq_none host (byPath ▸ unparsed)
  · refine ⟨source, .inr ⟨?_, convert_of_isQuiet (byPath ▸ parsed) quiet⟩⟩
    have unparsed' : Module.parse? (dialectFor (none <|> options.dialect) path)
        source = none := own ▸ unparsed
    have fails := convert_of_parse?_eq_none host unparsed'
    rwa [own] at fails

/-! ## The three ways -/

/-- Some arguments name no dialect or the one that the path picks. -/
def KeepsDialect (arguments : Fields) : Option Options → Prop
  | none => ∀ read, Options.ofFields arguments = .ok read →
      ∀ dialect ∈ read.dialect, dialect = picked arguments
  | some options => Options.unknownDialect? arguments = none ∧
      ∀ dialect ∈ (options.overridden arguments).dialect,
        dialect = picked arguments

/-- A conversion with replaced options, as far as the options can be used. -/
def replacedResult
    (arguments : Fields)
    (result : Except MigrationError Outcome) : Except CallError Outcome :=
  (if Options.hasUnusableWidth arguments && hasGenerated result then
    .error .unusableWidth
  else result.mapError OverrideError.migration).mapError .override

theorem convertReplaced_some
    (host : Command.Host)
    (source : String)
    (options : Options)
    (arguments : Fields)
    (dialect : Dialect) :
    convertReplaced host source options arguments (some dialect) =
      replacedResult arguments (convert host (options.overridden arguments)
        (Transformer.pathOf arguments) source (some dialect)) := rfl

theorem convertReplaced_none
    (source : String)
    (known : Options.unknownDialect? arguments = none) :
    convertReplaced host source options arguments =
      replacedResult arguments (convert host (options.overridden arguments)
        (Transformer.pathOf arguments) source) := by
  unfold convertReplaced convertOverridden
  rw [known]
  rfl

theorem convertReplaced_unknown
    {name : String}
    (source : String)
    (unknown : Options.unknownDialect? arguments = some name) :
    convertReplaced host source options arguments =
      .error (.override (.unknownDialect name)) := by
  unfold convertReplaced convertOverridden
  rw [unknown]
  rfl

theorem replacedResult_ne_unknown
    (result : Except MigrationError Outcome)
    (name : String) :
    replacedResult arguments result ≠ .error (.override (.unknownDialect name)) := by
  unfold replacedResult
  split
  · nofun
  · cases result <;> nofun

theorem replacedResult_of_ungenerated
    {result : Except MigrationError Outcome}
    (ungenerated : hasGenerated result = false) :
    replacedResult arguments result =
      result.mapError fun e => .override (.migration e) := by
  unfold replacedResult
  rw [ungenerated, Bool.and_false, if_neg Bool.false_ne_true]
  cases result <;> rfl

/-- The function of the name converts as a conversion does. -/
theorem applyFunctionWith_eq_convertWith
    (host : Command.Host)
    (source : String)
    (arguments : Fields)
    (options : Option Options) :
    applyFunctionWith host "storiesof_to_csf" source arguments options =
      convertWith host source arguments options := by
  have found : standard.find? "storiesof_to_csf" = some .chainsToExports := by
    decide
  cases options with
  | some options =>
    unfold applyFunctionWith
    rw [found]
    rfl
  | none =>
    unfold applyFunctionWith convertWith
    cases read : Options.ofFields arguments with
    | faulty complaints =>
      simp only
      rw [applyFunction_of_faulty source read]
      rfl
    | ok options =>
      simp only
      rw [applyFunction_of_ofFields source read]
      cases convert host options (Transformer.pathOf arguments) source <;> rfl

/-- The transformer of the name converts every source as a conversion does
exactly if no other dialect is named than the path picks. -/
theorem applyWith_eq_convertWith_iff
    (host : Command.Host)
    (arguments : Fields)
    (options : Option Options) :
    (∀ source, standard.applyWith host "storiesof_to_csf" source arguments options =
        convertWith host source arguments options) ↔
      KeepsDialect arguments options := by
  have named : standard.get "storiesof_to_csf" = .ok .chainsToExports := by
    decide
  cases options with
  | none =>
    unfold applyWith convertWith KeepsDialect
    cases read : Options.ofFields arguments with
    | faulty complaints =>
      simp only
      refine ⟨fun _ => nofun, fun _ source => ?_⟩
      rw [apply_of_faulty source read]
      rfl
    | ok options =>
      simp only [Checked.ok.injEq, forall_eq']
      constructor
      · intro agree dialect names
        by_contra other
        obtain ⟨source, ⟨direct, byPath⟩ | ⟨direct, byPath⟩⟩ :=
          exists_dialect_matters names other
        · have same := agree source
          rw [apply_of_ofFields source read, picked, direct, byPath] at same
          cases same
        · have same := agree source
          rw [apply_of_ofFields source read, picked, direct, byPath] at same
          cases same
      · intro keeps source
        rw [apply_of_ofFields source read, picked, convert_of_dialect source keeps]
        cases convert host options (Transformer.pathOf arguments) source <;> rfl
  | some options =>
    unfold applyWith convertWith KeepsDialect
    simp only [named]
    constructor
    · intro agree
      have known : Options.unknownDialect? arguments = none := by
        by_contra unknown
        obtain ⟨name, unknown⟩ := Option.ne_none_iff_exists'.1 unknown
        have same := agree ""
        rw [convertReplaced_some, convertReplaced_unknown "" unknown] at same
        exact replacedResult_ne_unknown _ _ same
      refine ⟨known, fun dialect names => ?_⟩
      by_contra other
      obtain ⟨source, ⟨direct, byPath⟩ | ⟨direct, byPath⟩⟩ :=
        exists_dialect_matters names other
      · have same := agree source
        rw [convertReplaced_some, convertReplaced_none source known, direct, byPath,
          replacedResult_of_ungenerated rfl, replacedResult_of_ungenerated rfl]
          at same
        cases same
      · have same := agree source
        rw [convertReplaced_some, convertReplaced_none source known, direct, byPath,
          replacedResult_of_ungenerated rfl, replacedResult_of_ungenerated rfl]
          at same
        cases same
    · rintro ⟨known, keeps⟩ source
      rw [convertReplaced_some, convertReplaced_none source known,
        convert_of_dialect source keeps]

/-! ## Parameters and arguments -/

/-- An argument of some name is given. -/
def Gives (arguments : Fields) (name : String) : Prop :=
  (arguments.find? name).isSome = true

theorem unlessTaken_of_not
    {parameters : List String}
    {result : Except CallError Outcome}
    (none : ∀ name ∈ parameters, ¬ Gives arguments name) :
    unlessTaken parameters arguments result = result := by
  have free : takenTwice? parameters arguments = Option.none :=
    List.find?_eq_none.2 none
  unfold unlessTaken
  rw [free]

/-- The first parameter whose name an argument has is complained about. -/
theorem unlessTaken_of_gives
    {name : String}
    {back : List String}
    {result : Except CallError Outcome}
    (front : List String)
    (none : ∀ other ∈ front, ¬ Gives arguments other)
    (gives : Gives arguments name) :
    unlessTaken (front ++ name :: back) arguments result =
      .error (.apply (.unexpectedArgument name)) := by
  have taken : takenTwice? (front ++ name :: back) arguments = some name := by
    unfold takenTwice?
    rw [List.find?_append, List.find?_eq_none.2 none, Option.none_or]
    exact List.find?_cons_of_pos gives
  unfold unlessTaken
  rw [taken]

theorem convertWith_ne_unexpected
    (source : String)
    (options : Option Options)
    (name : String) :
    convertWith host source arguments options ≠
      .error (.apply (.unexpectedArgument name)) := by
  cases options with
  | some options =>
    show (convertOverridden host options arguments
      (Transformer.pathOf arguments) source).mapError CallError.override ≠ _
    generalize convertOverridden host options arguments
      (Transformer.pathOf arguments) source = result
    cases result <;> exact fun same => by cases same
  | none =>
    unfold convertWith
    simp only
    split
    · nofun
    · rename_i options _
      cases convert host options (Transformer.pathOf arguments) source <;>
        exact fun same => by cases same

/-- The function of the name agrees with a direct conversion unless an argument
has the name of its first parameter. -/
theorem applyFunctionCall_eq_iff
    (host : Command.Host)
    (options : Option Options)
    (arguments : Fields)
    (free : ¬ Gives arguments "source_code") :
    (∀ source, applyFunctionCall host "storiesof_to_csf" source options arguments =
        convertCall host source options arguments) ↔
      ¬ Gives arguments "name" := by
  have direct (source : String) :
      convertCall host source options arguments =
        convertWith host source arguments options :=
    unlessTaken_of_not (by simpa using free)
  constructor
  · intro agree gives
    have same := agree ""
    rw [direct] at same
    have taken : applyFunctionCall host "storiesof_to_csf" "" options arguments =
        .error (.apply (.unexpectedArgument "name")) :=
      unlessTaken_of_gives ["source_code"] (by simpa using free) gives
    rw [taken] at same
    exact convertWith_ne_unexpected _ _ _ same.symm
  · intro noName source
    rw [direct, ← applyFunctionWith_eq_convertWith]
    exact unlessTaken_of_not (by simp [free, noName])

/-- The transformer of the name agrees with a direct conversion unless an
argument has the name of a parameter, or another dialect is named than the path
picks. -/
theorem applyCall_eq_iff
    (host : Command.Host)
    (options : Option Options)
    (arguments : Fields)
    (free : ¬ Gives arguments "source_code") :
    (∀ source, standard.applyCall host "storiesof_to_csf" source options arguments =
        convertCall host source options arguments) ↔
      ¬ Gives arguments "name" ∧ ¬ Gives arguments "transformer_name" ∧
        KeepsDialect arguments options := by
  have direct (source : String) :
      convertCall host source options arguments =
        convertWith host source arguments options :=
    unlessTaken_of_not (by simpa using free)
  rw [← applyWith_eq_convertWith_iff host]
  have named (gives : Gives arguments "transformer_name" ∨ Gives arguments "name") :
      ∃ name, standard.applyCall host "storiesof_to_csf" "" options arguments =
        .error (.apply (.unexpectedArgument name)) := by
    by_cases givesSecond : Gives arguments "transformer_name"
    · exact ⟨_, unlessTaken_of_gives ["source_code"]
        (by simpa using free) givesSecond⟩
    · exact ⟨_, unlessTaken_of_gives ["source_code", "transformer_name"]
        (by simp [free, givesSecond]) (gives.resolve_left givesSecond)⟩
  constructor
  · intro agree
    have noName : ¬ (Gives arguments "transformer_name" ∨
        Gives arguments "name") := by
      intro gives
      obtain ⟨name, taken⟩ := named gives
      have same := agree ""
      rw [direct, taken] at same
      exact convertWith_ne_unexpected _ _ _ same.symm
    rw [not_or] at noName
    refine ⟨noName.2, noName.1, fun source => ?_⟩
    rw [← direct, ← agree source]
    exact (unlessTaken_of_not (by simp [free, noName])).symm
  · rintro ⟨noName, noSecond, agree⟩ source
    rw [direct, ← agree source]
    exact unlessTaken_of_not (by simp [free, noName, noSecond])

/-- The three ways to ask for a conversion of a source.  The function of the name
agrees with a direct conversion for every source unless an argument has the name
of its first parameter; the transformer of the name agrees exactly if moreover
no argument has the name of its second parameter and no other dialect is named
than the path picks. -/
theorem calls_agree_iff
    (host : Command.Host)
    (options : Option Options)
    (arguments : Fields) :
    ((∀ source, applyFunctionCall host "storiesof_to_csf" source options arguments =
          convertCall host source options arguments) ↔
        (Gives arguments "source_code" ∨ ¬ Gives arguments "name")) ∧
      ((∀ source,
          standard.applyCall host "storiesof_to_csf" source options arguments =
            convertCall host source options arguments) ↔
        (Gives arguments "source_code" ∨
          ¬ Gives arguments "name" ∧ ¬ Gives arguments "transformer_name" ∧
            KeepsDialect arguments options)) := by
  by_cases taken : Gives arguments "source_code"
  · have fails (parameters : List String) (result : Except CallError Outcome) :
        unlessTaken ("source_code" :: parameters) arguments result =
          .error (.apply (.unexpectedArgument "source_code")) :=
      unlessTaken_of_gives [] (by simp) taken
    refine ⟨⟨fun _ => .inl taken, fun _ source => ?_⟩,
      ⟨fun _ => .inl taken, fun _ source => ?_⟩⟩
    · exact (fails _ _).trans (fails _ _).symm
    · exact (fails _ _).trans (fails _ _).symm
  · rw [applyFunctionCall_eq_iff host options arguments taken,
      applyCall_eq_iff host options arguments taken]
    simp only [taken, false_or, and_self]

set_option maxRecDepth 100000 in
/-- An option that names the dialect does not reach the transformer, which
refuses a source that a direct conversion accepts. -/
theorem applyCall_ignores_dialect :
    standard.applyCall (fun _ => .error .noProgram) "storiesof_to_csf"
        "let n: T;\nstoriesOf('A', module).add('s', f);\n" none
        [("grammar", .text "typescript")] =
      .error (.apply (.migration (.unparsable "<unknown>" .javascript))) ∧
    ∃ outcome, convertCall (fun _ => .error .noProgram)
        "let n: T;\nstoriesOf('A', module).add('s', f);\n" none
        [("grammar", .text "typescript")] = .ok outcome ∧
      outcome.code = "let n: T;\nexport default \x7b\n" ++
        "  title: 'A',\n\x7d;\n\nexport const s = f;\n" := by
  generalize sourceEq :
    "let n: T;\nstoriesOf('A', module).add('s', f);\n" = source
  have read : Options.ofFields [("grammar", .text "typescript")] =
      .ok { ({} : Options) with dialect := some .typescript } := rfl
  have unparsed : Module.parse? .javascript source = none := by
    rw [← Option.isNone_iff_eq_none, ← sourceEq]
    decide +kernel
  have isScript : picked [("grammar", .text "typescript")] = .javascript := by
    decide +kernel
  have refused : convert (fun _ => .error .noProgram)
      { ({} : Options) with dialect := some .typescript } "<unknown>" source
      (some .javascript) = .error (.unparsable "<unknown>" .javascript) :=
    convert_of_parse?_eq_none _ unparsed
  have converts : (convertCall (fun _ => .error .noProgram) source none
      [("grammar", .text "typescript")]).toOption.any (fun outcome =>
        outcome.code == "let n: T;\nexport default \x7b\n" ++
          "  title: 'A',\n\x7d;\n\nexport const s = f;\n") = true := by
    rw [← sourceEq]
    decide +kernel
  obtain ⟨outcome, converted, same⟩ := any_toOption.1 converts
  refine ⟨?_, outcome, converted, beq_iff_eq.1 same⟩
  have free : standard.applyCall (fun _ => .error .noProgram) "storiesof_to_csf"
      source none [("grammar", .text "typescript")] =
        (standard.apply (fun _ => .error .noProgram) "storiesof_to_csf" source
          [("grammar", .text "typescript")]).mapError .apply :=
    unlessTaken_of_not (by unfold Gives; decide)
  have path : Transformer.pathOf [("grammar", .text "typescript")] =
      "<unknown>" := by
    decide
  rw [free, apply_of_ofFields source read, isScript, path, refused]
  rfl

end Catalogue
end StoryMigration
