import StoryMigration.Proofs.ChainContent
import StoryMigration.Proofs.GeneratedCode
import StoryMigration.Proofs.ParameterUnion

/-!
# How the content of a chain is exported

The generated code has the default export first and then one export for every
story, in the order of the links that add them.  Together with what is read from
a chain this says that a supported fragment is carried over link by link.
-/

namespace StoryMigration

open Syntax

/-! ## Blocks of code -/

/-- A block of code starts with comments, each on its own line, and then some
text. -/
def OpensWith
    (block : String)
    (comments : List String)
    (opening : String) : Prop :=
  ∃ rest, block = "\n".intercalate (comments ++ [opening ++ rest])

/-- Text behind joined lines belongs to the last line. -/
theorem intercalate_append_last
    (separator : String)
    (texts : List String)
    (last back : String) :
    separator.intercalate (texts ++ [last]) ++ back =
      separator.intercalate (texts ++ [last ++ back]) := by
  induction texts with
  | nil =>
    rw [List.nil_append, List.nil_append, String.intercalate_singleton,
      String.intercalate_singleton]
  | cons text texts textsHypothesis =>
    rw [List.cons_append, List.cons_append,
      String.intercalate_cons_of_ne_nil (List.concat_ne_nil _ _),
      String.intercalate_cons_of_ne_nil (List.concat_ne_nil _ _),
      String.append_assoc, textsHypothesis]

theorem OpensWith.append
    {block opening : String}
    {comments : List String}
    (opens : OpensWith block comments opening)
    (back : String) :
    OpensWith (block ++ back) comments opening := by
  obtain ⟨rest, rfl⟩ := opens
  refine ⟨rest ++ back, ?_⟩
  rw [intercalate_append_last, String.append_assoc]

/-- A statement stands below its comments. -/
theorem opensWith_statement
    (opening rest : String)
    (comments : List String) :
    OpensWith (Layout.statement (opening ++ rest) comments) comments
      opening := by
  unfold Layout.statement OpensWith
  split
  · exact ⟨rest, rfl⟩
  · exact ⟨rest ++ ";", by rw [String.append_assoc]⟩

namespace Story

variable (options : Options) (m : Module)

/-! ## Exports -/

/-- How the parameters of a story are written. -/
def Parameters.written : Parameters → String
  | .asWritten expression => options.layout.node m expression 1
  | .members among => memberObject options m among

/-- A block of code exports a story: below the story's comments it binds what the
story renders, and it shows the parameters and the decorators, if there are
any. -/
structure ExportsStory (story : Entry) (block : String) : Prop where
  opens : ∃ identifier, OpensWith block (story.comments.map m.text)
    ("export const " ++ identifier ++ " = " ++
      options.layout.node m story.render 0)
  parameters : ∀ parameters ∈ story.parameters,
    Shows block (Layout.property "parameters" (parameters.written options m))
  decorators : ∀ decorators ∈ story.decorators,
    Shows block
      (Layout.property "decorators" (options.layout.node m decorators 1))

/-- A block of code exports what the stories share: the title, and the decorators
in their order, if there are any. -/
structure ExportsShared (metadata : Metadata) (block : String) : Prop where
  opens : OpensWith block (metadata.comments.map m.text) "export default "
  title : Shows block
    (Layout.property "title" (options.layout.string metadata.title))
  decorators : metadata.decorators ≠ [] → Shows block
    (Layout.property "decorators" (options.layout.array
      (metadata.decorators.map (options.layout.node m · 2)) 1))

theorem exportsShared_defaultExport
    (metadata : Metadata) :
    ExportsShared options m metadata (defaultExport options m metadata) := by
  have shown {texts : List String} {text : String} (isText : text ∈ texts) :
      Shows (options.layout.object
        (texts.map fun text => (⟨text, false⟩ : StoryMigration.Entry)) 0)
        text :=
    options.layout.shows_object 0 (List.mem_map_of_mem isText) (Shows.refl _)
  unfold defaultExport
  refine ⟨opensWith_statement _ _ _, ?_, fun someDecorators => ?_⟩
  · refine Layout.shows_statement _ (Shows.append_left _ (shown ?_))
    simp
  · rw [← List.isEmpty_eq_false_iff] at someDecorators
    refine Layout.shows_statement _ (Shows.append_left _ (shown ?_))
    rw [someDecorators]
    simp

/-- Every member of a story's own object is in its export. -/
theorem shows_storyExport_of_mem
    {story : NamedEntry}
    {text : String}
    (isOwn : text ∈ ownMembers options m story) :
    Shows (storyExport options m story) text := by
  unfold storyExport
  simp only
  split
  · rename_i noMembers
    rw [noMembers] at isOwn
    exact absurd isOwn List.not_mem_nil
  · have inObject := options.layout.shows_object 0
      (List.mem_map_of_mem
        (f := fun text => (⟨text, false⟩ : StoryMigration.Entry)) isOwn)
      (Shows.refl _)
    exact (Layout.shows_statement _ (inObject.append_left _)).append_left _

theorem exportsStory_storyExport
    (story : NamedEntry) :
    ExportsStory options m story.entry (storyExport options m story) := by
  refine ⟨⟨story.identifier, ?_⟩, fun parameters isParameters => ?_,
    fun decorators isDecorators => ?_⟩
  · have declared := opensWith_statement
      ("export const " ++ story.identifier ++ " = " ++
        options.layout.node m story.entry.render 0) ""
      (story.entry.comments.map m.text)
    rw [String.append_empty] at declared
    unfold storyExport
    simp only
    split
    · exact declared
    · exact (declared.append _).append _
  · have parametersEq : story.entry.parameters = some parameters :=
      isParameters
    apply shows_storyExport_of_mem
    unfold ownMembers
    rw [parametersEq]
    cases parameters <;> simp [Parameters.written]
  · have decoratorsEq : story.entry.decorators = some decorators :=
      isDecorators
    apply shows_storyExport_of_mem
    unfold ownMembers
    rw [decoratorsEq]
    simp

/-- There is one block for every story, in the order of the stories. -/
theorem forall₂_exportsStory
    (inUse : NamePool)
    (stories : List Entry) :
    List.Forall₂ (ExportsStory options m) stories
      ((named inUse stories).map (storyExport options m)) := by
  rw [List.forall₂_map_right_iff]
  have each : List.Forall₂ (fun story named => story = NamedEntry.entry named)
      stories (named inUse stories) := by
    rw [← List.forall₂_map_right_iff, map_entry_named, List.forall₂_eq_eq_eq]
  refine each.imp fun story named same => ?_
  rw [same]
  exact exportsStory_storyExport options m named

/-! ## A supported fragment -/

open Chain Fallible Migration

/-- The keys of parameters that are given as an object literal denote
something. -/
def LegibleParameters (link : Link) : Prop :=
  ∀ argument ∈ link.arguments, argument.kind = .object → Keyed m argument

/-- What all stories share can be read if the parameters are legible. -/
theorem exists_metadata_iff
    {fragment : Fragment}
    {excluded : List Text}
    (wellFormed : ∀ link ∈ fragment.links, link.isWellFormed = true) :
    (∃ metadata, Metadata.ofFragment m fragment excluded = .ok metadata) ↔
      ∀ link ∈ fragment.parameters, LegibleParameters m link := by
  have readable {argument : Node} :
      (∃ members, Member.ofArgument m argument = .ok members) ↔
        (argument.kind = .object → Keyed m argument) := by
    unfold Member.ofArgument
    split
    · rename_i isObject
      rw [beq_iff_eq] at isObject
      rw [exists_ofObject_iff]
      exact ⟨fun keyed _ => keyed, fun keyed => keyed isObject⟩
    · rename_i notObject
      rw [beq_iff_eq] at notObject
      exact ⟨fun _ isObject => absurd isObject notObject, fun _ => ⟨_, rfl⟩⟩
  have wellFormedParameters : ∀ link ∈ fragment.parameters,
      link.isParameters = true ∧ link.isWellFormed = true := by
    intro link isLink
    obtain ⟨isLink, isParameters⟩ := List.mem_filter.1 isLink
    exact ⟨isParameters, wellFormed link isLink⟩
  have arguments : (∃ metadata,
      Metadata.ofFragment m fragment excluded = .ok metadata) ↔
        ∃ parts, (fragment.parameters.flatMap (·.arguments)).mapM
          (Member.ofArgument m) = .ok parts := by
    unfold Metadata.ofFragment mergeParameters
    simp only [bind_eq_ok, pure_eq_ok,
      filterMap_head?_arguments wellFormedParameters]
    constructor
    · rintro ⟨-, -, ⟨parts, read, -⟩, -⟩
      exact ⟨parts, read⟩
    · rintro ⟨parts, read⟩
      exact ⟨_, _, ⟨parts, read, rfl⟩, rfl⟩
  rw [arguments, exists_mapM_eq_ok_iff]
  simp only [readable, List.mem_flatMap]
  constructor
  · intro keyed link isLink argument isArgument
    exact keyed argument ⟨link, isLink, isArgument⟩
  · rintro keyed argument ⟨link, isLink, isArgument⟩
    exact keyed link isLink argument isArgument

/-- The parts of a fragment that are carried over.  Its links are those of its
statements; each of them is read once, as a story, as a decorator or as
parameters; and the code has one export for what the stories share and then one
for every story.  Only literals that denote nothing can prevent this. -/
structure CarriedOver (located : Located) (fragment : Fragment) : Prop where
  links : fragment.Collected m located.localName
  kinds : fragment.links.Perm
    (fragment.adds ++ fragment.decorators ++ fragment.parameters)
  stories : ∀ stories, ofFragment m fragment = .ok stories ↔
    List.Forall₂ (IsStory m) fragment.adds stories
  storiesRead : (∃ stories, ofFragment m fragment = .ok stories) ↔
    ∀ link ∈ fragment.adds, Legible m link
  decorators : ∀ excluded metadata,
    Metadata.ofFragment m fragment excluded = .ok metadata →
      fragment.decorators.map (·.arguments) = metadata.decorators.map ([·])
  sharedRead : ∀ excluded,
    (∃ metadata, Metadata.ofFragment m fragment excluded = .ok metadata) ↔
      ∀ link ∈ fragment.parameters, LegibleParameters m link
  code : ∀ metadata stories,
    Metadata.ofFragment m fragment located.exports.named = .ok metadata →
    ofFragment m fragment = .ok stories →
      ∃ shared blocks,
        generated options m located fragment =
          .ok ((Newline.ofText m.source.toList).spread
            ("\n\n".intercalate (shared :: blocks)), stories.length) ∧
        ExportsShared options m metadata shared ∧
        List.Forall₂ (ExportsStory options m) stories blocks

/-- A supported fragment is carried over link by link, whatever the statements
are that its links are spread over. -/
theorem carriedOver_of_supported
    {registration : Registration}
    {located : Located}
    {fragment : Fragment}
    (found : locate m registration = .ok located)
    (supported : fragment ∈ located.fragments) :
    CarriedOver options m located fragment := by
  have sound := locate_sound found
  have wellFormed : ∀ link ∈ fragment.links, link.isWellFormed = true := by
    obtain ⟨isSupported, -⟩ := sound.of_mem supported
    unfold Chain.isSupported at isSupported
    rw [Bool.and_eq_true, List.all_eq_true] at isSupported
    exact isSupported.1
  refine ⟨sound.collected supported, links_perm_of_wellFormed wellFormed,
    fun stories => ofFragment_eq_ok_iff wellFormed,
    exists_ofFragment_iff wellFormed, ?_,
    fun excluded => exists_metadata_iff m wellFormed, ?_⟩
  · intro excluded metadata read
    unfold Metadata.ofFragment at read
    simp only [bind_eq_ok, pure_eq_ok] at read
    obtain ⟨-, -, rfl⟩ := read
    exact map_arguments_decorators wellFormed
  · intro metadata stories metadataRead storiesRead
    have named := map_entry_named (.ofList (m.identifiers m.tree)) stories
    refine ⟨_, _, ?_, exportsShared_defaultExport options m metadata,
      forall₂_exportsStory options m (.ofList (m.identifiers m.tree)) stories⟩
    unfold generated
    simp only [bind_eq_ok, pure_eq_ok]
    refine ⟨metadata, metadataRead, stories, storiesRead, ?_⟩
    rw [← congrArg List.length named, List.length_map]
    rfl

set_option maxRecDepth 100000 in
/-- A chain in two statements, one of whose stories has decorators between its
own parameters, is carried over. -/
theorem carriedOver_two_statements :
    ∃ m located fragment stories,
      Module.parse? .javascript
        ("const stories = storiesOf('A', module).addDecorator(d);\n" ++
          "stories.add('x', f, \x7b decorators: [e], a: 1 \x7d).add('y', g);\n") =
            some m ∧
      locate m {} = .ok located ∧ fragment ∈ located.fragments ∧
      fragment.statements.length = 2 ∧
      ofFragment m fragment = .ok stories ∧
      stories.map (fun story =>
        (story.name, story.parameters.isSome, story.decorators.isSome)) =
          [(.ofString "x", true, true), (.ofString "y", false, false)] ∧
      CarriedOver {} m located fragment := by
  generalize sourceEq :
    "const stories = storiesOf('A', module).addDecorator(d);\n" ++
      "stories.add('x', f, \x7b decorators: [e], a: 1 \x7d).add('y', g);\n" =
        source
  have checked : (Module.parse? .javascript source).any (fun m =>
      (locate m {}).toOption.any fun located =>
        located.fragments.any fun fragment =>
          fragment.statements.length == 2 &&
            (ofFragment m fragment).toOption.any fun stories =>
              stories.map (fun story => (story.name, story.parameters.isSome,
                  story.decorators.isSome)) ==
                [(.ofString "x", true, true), (.ofString "y", false, false)]) =
        true := by
    rw [← sourceEq]
    decide +kernel
  obtain ⟨m, parsed, checked⟩ := (Option.any_eq_true _ _).1 checked
  obtain ⟨located, found, checked⟩ := any_toOption.1 checked
  obtain ⟨fragment, supported, checked⟩ := List.any_eq_true.1 checked
  rw [Bool.and_eq_true, beq_iff_eq, any_toOption] at checked
  obtain ⟨two, stories, read, content⟩ := checked
  exact ⟨m, located, fragment, stories, parsed, found, supported, two, read,
    beq_iff_eq.1 content, carriedOver_of_supported {} m found supported⟩

end Story
end StoryMigration
