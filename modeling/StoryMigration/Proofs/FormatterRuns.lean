import StoryMigration.Command.Machine
import StoryMigration.Proofs.ReadTexts

/-!
# What comes of a formatter

A formatter has a result if its program is missing, if it takes too long, or if
it ends by itself, with whatever exit code, and all that it has printed is text.
It has none if the system refuses to start it for another reason, or if a byte
that it prints is no UTF-8; then the text is not left as it is, but the whole
conversion fails.
-/

namespace StoryMigration
namespace Command

open Utf8

variable {request : Request} {ending : Ending} {bytes : List UInt8}

/-- An end of a command that is told in a result. -/
inductive Ending.Told : Ending → Prop where
  | missing : Told .missing
  | outOfTime : Told .outOfTime
  | ended (code : Int) (output errors : List Char) :
      Told (.ended code (encode output) (encode errors))

/-- The end of a formatter that succeeds and prints something. -/
inductive Ending.Formats : Ending → List Char → Prop where
  | ended {output : List Char} (errors : List Char) :
      output ≠ [] → Formats (.ended 0 (encode output) (encode errors)) output

/-! ## Results -/

theorem printedText_encode
    (text : List Char) :
    printedText (encode text) = .ok (String.ofList (Newline.unified text)) := by
  simp only [printedText, read_encode, String.toList_ofList]

/-- What has been printed is told if it is text. -/
theorem exists_encode_of_printedText
    {text : String}
    (told : printedText bytes = .ok text) :
    ∃ chars, bytes = encode chars := by
  unfold printedText at told
  split at told
  · rename_i string found
    exact ⟨string.toList, read_eq_ok_iff.1 found⟩
  · contradiction

theorem result_ended
    (code : Int)
    (output errors : List Char) :
    Ending.result request (.ended code (encode output) (encode errors)) =
      .ok
        { line := " ".intercalate request.words
          exitCode := code
          output := String.ofList (Newline.unified output)
          errors := String.ofList (Newline.unified errors)
          timedOut := false } := by
  simp only [Ending.result, printedText_encode]
  rfl

/-- A command has a result exactly if its end is told in one. -/
theorem exists_result_iff :
    (∃ result, ending.result request = .ok result) ↔ ending.Told := by
  constructor
  · rintro ⟨result, found⟩
    cases ending with
    | missing => exact .missing
    | refused reason => contradiction
    | outOfTime => exact .outOfTime
    | ended code output errors =>
      simp only [Ending.result, bind, Except.bind] at found
      split at found
      · contradiction
      · rename_i toldOutput
        split at found
        · contradiction
        · rename_i toldErrors
          obtain ⟨outputChars, rfl⟩ := exists_encode_of_printedText toldOutput
          obtain ⟨errorChars, rfl⟩ := exists_encode_of_printedText toldErrors
          exact .ended code outputChars errorChars
  · intro told
    cases told with
    | missing => exact ⟨_, rfl⟩
    | outOfTime => exact ⟨_, rfl⟩
    | ended code output errors => exact ⟨_, result_ended code output errors⟩

/-! ## Formatted texts -/

theorem Ending.formats_ended_iff
    {code : Int}
    {output errors : List UInt8}
    {text : List Char} :
    (Ending.ended code output errors).Formats text ↔
      code = 0 ∧ text ≠ [] ∧ output = encode text ∧
        ∃ errorText, errors = encode errorText := by
  constructor
  · rintro ⟨errorText, some_text⟩
    exact ⟨rfl, some_text, rfl, errorText, rfl⟩
  · rintro ⟨rfl, some_text, rfl, errorText, rfl⟩
    exact .ended errorText some_text

/-- A command is taken for a formatter's success if it ends with code zero and
prints something. -/
theorem succeeded_iff
    {result : Result}
    (found : ending.result request = .ok result) :
    (result.succeeded && !result.output.isEmpty) = true ↔
      ∃ output, ending.Formats output := by
  cases exists_result_iff.1 ⟨result, found⟩ with
  | missing =>
    rw [← Except.ok.inj found]
    refine iff_of_false Bool.false_ne_true ?_
    rintro ⟨output, formats⟩
    cases formats
  | outOfTime =>
    rw [← Except.ok.inj found]
    refine iff_of_false Bool.false_ne_true ?_
    rintro ⟨output, formats⟩
    cases formats
  | ended code output errors =>
    rw [result_ended, Except.ok.injEq] at found
    subst found
    have printed : (String.ofList (Newline.unified output)).isEmpty = true ↔
        output = [] := by
      rw [String.isEmpty_iff, String.ofList_eq_empty_iff,
        Newline.unified_eq_nil_iff]
    rw [Bool.and_eq_true, Bool.not_eq_true', ← Bool.not_eq_true, printed,
      Result.succeeded, beq_iff_eq]
    constructor
    · rintro ⟨rfl, some_output⟩
      exact ⟨output, .ended errors some_output⟩
    · rintro ⟨text, formats⟩
      obtain ⟨isZero, some_text, same, -⟩ := Ending.formats_ended_iff.1 formats
      rw [encode_injective same]
      exact ⟨isZero, some_text⟩

theorem Ending.Formats.output_eq
    {output : List Char}
    {result : Result}
    (formats : ending.Formats output)
    (found : ending.result request = .ok result) :
    result.output = String.ofList (Newline.unified output) := by
  cases formats with
  | ended errors _ =>
    rw [result_ended] at found
    rw [← Except.ok.inj found]

/-- What becomes of a text when a formatter for it has come to an end: what the
formatter has printed, with line feeds for all line endings, if it succeeds and
prints something, and otherwise the text itself. -/
def Ending.Leaves (ending : Ending) (text code : String) : Prop :=
  (∃ output, ending.Formats output ∧
    code = String.ofList (Newline.unified output)) ∨
  (∀ output, ¬ending.Formats output) ∧ code = text

/-- A formatter has a result, and the text with normal ends is formatted or left
as it is, exactly if the formatter's program is missing, it takes too long, or it
ends by itself and what it has printed is text. -/
theorem formatter_told_iff
    (system : System)
    (program : String)
    (arguments : List String)
    (source path : String)
    (layout : Layout)
    (timeout : Int) :
    ((∃ result, hostOn system (formatRequest (program :: arguments) source path
        layout timeout) = .ok result) ↔
      (system (formatRequest (program :: arguments) source path layout
        timeout)).Told) ∧
    ((∃ code, prettify (hostOn system) (program :: arguments) source path layout
        timeout = .ok code) ↔
      (system (formatRequest (program :: arguments)
        (Newline.normalizedEnds source) path layout timeout)).Told) ∧
    ∀ code, prettify (hostOn system) (program :: arguments) source path layout
        timeout = .ok code →
      (system (formatRequest (program :: arguments)
        (Newline.normalizedEnds source) path layout timeout)).Leaves
          (Newline.normalizedEnds source) code := by
  refine ⟨exists_result_iff, ?_⟩
  generalize askedEq : formatRequest (program :: arguments)
    (Newline.normalizedEnds source) path layout timeout = request
  have outcome : prettify (hostOn system) (program :: arguments) source path
      layout timeout = ((system request).result request).map fun result =>
        if result.succeeded && !result.output.isEmpty then result.output
        else Newline.normalizedEnds source := by
    rw [← askedEq]
    rfl
  have told : (∃ result, (system request).result request = .ok result) ↔
      (system request).Told := exists_result_iff
  rw [outcome, ← told]
  cases found : (system request).result request with
  | error failure =>
    refine ⟨iff_of_false ?_ ?_, fun code formatted => ?_⟩
    · rintro ⟨code, formatted⟩
      contradiction
    · rintro ⟨result, told⟩
      contradiction
    · contradiction
  | ok result =>
    refine ⟨iff_of_true ⟨_, rfl⟩ ⟨_, rfl⟩, fun code formatted => ?_⟩
    rw [← Except.ok.inj formatted]
    show Ending.Leaves _ _
      (if (result.succeeded && !result.output.isEmpty) = true then result.output
      else Newline.normalizedEnds source)
    split
    · rename_i succeeds
      obtain ⟨output, formats⟩ := (succeeded_iff found).1 succeeds
      exact .inl ⟨output, formats, formats.output_eq found⟩
    · rename_i fails
      exact .inr ⟨fun output formats =>
        fails ((succeeded_iff found).2 ⟨output, formats⟩), rfl⟩

/-- A file that may not be executed and a byte that is no text fail the
conversion, though no formatter has succeeded. -/
theorem prettify_fails_without_result :
    prettify (hostOn fun _ => .refused (.notExecutable "./format")) ["./format"]
        "a\n" "" {} 30000 = .error (.notExecutable "./format") ∧
      ∃ reason, prettify (hostOn fun _ => .ended 1 [0xff] [])
        ["sh", "-c", "printf '\\377'; exit 1"] "a\n" "" {} 30000 =
          .error (.outputNotText reason) :=
  ⟨rfl, _, rfl⟩

end Command
end StoryMigration
