import StoryMigration.Proofs.StrictDecoding
import StoryMigration.Text.Newline
import StoryMigration.Text.Utf8Defect

/-!
# Texts that are read

Reading bytes succeeds exactly on those of a text, and puts a line feed in the
place of every line ending.  Then there is no carriage return left.  The text is
the same exactly if it had none before, and it is empty only if it was.
-/

namespace StoryMigration

namespace Utf8

/-- Bytes are read as a string exactly when they are its bytes. -/
theorem read_eq_ok_iff
    {bytes : List UInt8}
    {text : String} :
    read bytes = .ok text ↔ bytes = ofString text := by
  constructor
  · intro found
    unfold read at found
    split at found
    · rename_i string isString
      obtain ⟨chars, decoded, rfl⟩ := Option.map_eq_some_iff.1 isString
      rw [← Except.ok.inj found, ofString, String.toList_ofList,
        encode_of_decode? decoded]
    · contradiction
  · rintro rfl
    rw [read, toString?_ofString]

theorem read_encode
    (text : List Char) :
    read (encode text) = .ok (String.ofList text) := by
  rw [read_eq_ok_iff, ofString, String.toList_ofList]

end Utf8

namespace Newline

variable {text : List Char}

theorem not_mem_unified
    (text : List Char) :
    '\r' ∉ unified text := by
  fun_induction unified text with
  | case1 rest restHypothesis => simpa using restHypothesis
  | case2 rest _ restHypothesis => simpa using restHypothesis
  | case3 c rest _ notReturn restHypothesis =>
    simpa [restHypothesis, eq_comm] using notReturn
  | case4 => simp

/-- A text has line feeds for all line endings exactly if it has no carriage
return. -/
theorem unified_eq_self_iff :
    unified text = text ↔ '\r' ∉ text := by
  constructor
  · intro same
    rw [← same]
    exact not_mem_unified text
  · intro noReturn
    fun_induction unified text with
    | case1 rest restHypothesis => simp at noReturn
    | case2 rest _ restHypothesis => simp at noReturn
    | case3 c rest _ _ restHypothesis =>
      rw [List.mem_cons, not_or] at noReturn
      rw [restHypothesis noReturn.2]
    | case4 => rfl

/-- No text is empty with other line endings only. -/
theorem unified_eq_nil_iff :
    unified text = [] ↔ text = [] := by
  fun_cases unified text with
  | case1 rest => simp
  | case2 rest apart => simp
  | case3 c rest _ _ => simp
  | case4 => rfl

end Newline
end StoryMigration
