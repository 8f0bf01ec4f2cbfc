import StoryMigration.Proofs.BackupBytes
import StoryMigration.Proofs.ConvertedEndings

/-!
# What is written to a file

A file is converted from the text that is read of it, in which every line ending
is a line feed.  So a file without a carriage return is written with the
conversion of its own text, in which all bytes between the edits are those of
the file, whereas a file with pairs of a carriage return and a line feed is
written without any of them, as the conversion of its own text never is.
-/

namespace StoryMigration
namespace Migration

open Syntax Chain Newline Fallible

/-- The text of a module with its chain exchanged for generated code, without
residual roots if these are to go, and with regular ends. -/
structure IsEdited
    (options : Options)
    (m : Module)
    (text : String) : Prop where
  spliced : ∃ located fragment code count spliced stripped,
    locate m options.registration = .ok located ∧
    chosen located = some fragment ∧
    generated options m located fragment = .ok (code, count) ∧
    Edit.apply m.bytes (conversionEdits m located fragment code) = .ok spliced ∧
    (if options.stripResidualRoots then
      Residual.strip m.dialect located.localName spliced
    else .ok spliced) = .ok stripped ∧
    text = normalizedEnds stripped

variable {options : Options} {host : Command.Host} {path : String}
  {outcome : Outcome}

/-- A conversion that changes a source edits its module. -/
theorem isEdited_of_hasChanges
    {text : List Char}
    (unformatted : options.formatter = [])
    (converts : convert host options path (String.ofList text) = .ok outcome)
    (changes : outcome.hasChanges = true) :
    ∃ m, Module.parse? (dialectFor options.dialect path) (String.ofList text) =
        some m ∧
      m.bytes = Utf8.encode text ∧ IsEdited options m outcome.code := by
  obtain ⟨m, changed, parsed, transformed, rfl⟩ := exists_transform converts
  obtain ⟨bytesEq, -⟩ := Module.exists_overlaid parsed
  rw [String.toList_ofList] at bytesEq
  refine ⟨m, ?_, bytesEq, ?_⟩
  · exact parsed
  · rcases exists_spliced unformatted transformed with same | edited
    · rw [Outcome.hasChanges, bne_iff_ne] at changes
      exact absurd (same.trans (source_of_parse? parsed)).symm changes
    · exact ⟨edited⟩

end Migration

namespace Batch

open FileTree Fallible Migration

variable {faults : Faults} {tree : FileTree} {path : String}
  {hostOf : FileTree → Command.Host} {options : Options} {writing : Writing}

/-- A file that is written holds the conversion of what was read of it. -/
theorem find?_of_written
    (written : (migrateFileUnder faults hostOf options writing tree
      path).1.written = true) :
    ∃ source outcome, tree.read path = .ok source ∧
      Migration.convert (hostOf tree) options path source = .ok outcome ∧
      outcome.hasChanges = true ∧
      (migrateFileUnder faults hostOf options writing tree path).2.find?
          (Path.ofString path) =
        some (.file (Utf8.ofString outcome.code)) := by
  generalize migrated : migrateFileUnder faults hostOf options writing tree
    path = behind at written ⊢
  obtain ⟨report, after⟩ := behind
  obtain ⟨source, outcome, read, converts, changes, stored⟩ :=
    store_of_written migrated written
  refine ⟨source, outcome, read, converts, changes, ?_⟩
  obtain ⟨place, bytes, leads, isFile⟩ := exists_file_of_read read
  obtain ⟨saved, backedUp, ⟨reason, storedEq⟩ | storedEq⟩ :=
    store_cases faults outcome.code writing.backup leads isFile
  · rw [storedEq] at stored
    cases stored
  · rw [storedEq] at stored
    cases stored
    obtain ⟨leadsStill, isFileStill⟩ := backedUp.file leads isFile
    have noDirectory : saved.item? place ≠ some .directory := by
      rw [isFileStill]
      simp
    exact find?_eq_some_iff.2 ⟨place, (keeps_put noDirectory).placeOf leadsStill,
      item?_put_self noDirectory⟩

/-- A file holds the conversion of a text, in which everything but what was edited
is as it was. -/
def HoldsConversion
    (host : Command.Host)
    (options : Options)
    (path : String)
    (after : FileTree)
    (text : List Char) : Prop :=
  ∃ outcome m,
    Migration.convert host options path (String.ofList text) = .ok outcome ∧
    after.find? (Path.ofString path) =
      some (.file (Utf8.ofString outcome.code)) ∧
    Syntax.Module.parse? (Migration.dialectFor options.dialect path)
      (String.ofList text) = some m ∧
    m.bytes = Utf8.encode text ∧
    IsEdited options m outcome.code

section Written

variable {report : FileReport} {after : FileTree} {text : List Char}
  (unformatted : options.formatter = [])
  (isFile : tree.find? (Path.ofString path) =
    some (.file (Utf8.encode text)))
  (migrated : migrateFileUnder faults hostOf options writing tree path =
    (report, after))
  (written : report.written = true)

include unformatted isFile migrated written

/-- A file is written with the conversion of its text with a line feed for every
line ending. -/
theorem holdsConversion_unified :
    HoldsConversion (hostOf tree) options path after
      (Newline.unified text) := by
  obtain ⟨source, outcome, read, converts, changes, held⟩ :
      ∃ source outcome, tree.read path = .ok source ∧
        Migration.convert (hostOf tree) options path source = .ok outcome ∧
        outcome.hasChanges = true ∧ after.find? (Path.ofString path) =
          some (.file (Utf8.ofString outcome.code)) := by
    have holds := @find?_of_written faults tree path hostOf options writing
    rw [migrated] at holds
    exact holds written
  obtain rfl : String.ofList (Newline.unified text) = source := by
    rw [FileTree.read, isFile] at read
    exact Except.ok.inj ((textOf_encode text).symm.trans read)
  obtain ⟨m, parsed, bytesEq, edited⟩ :=
    isEdited_of_hasChanges unformatted converts changes
  exact ⟨outcome, m, converts, held, parsed, bytesEq, edited⟩

/-- No carriage return is written. -/
theorem not_mem_of_written
    (property : '\r' ∉ options.storyProperty.toList)
    {bytes : List UInt8}
    (held : after.find? (Path.ofString path) = some (.file bytes)) :
    0x0d ∉ bytes := by
  obtain ⟨outcome, m, converts, holds, -⟩ :=
    holdsConversion_unified unformatted isFile migrated written
  obtain rfl := Item.file.inj (Option.some.inj (holds.symm.trans held))
  rw [Utf8.ofString, mem_encode_return_iff]
  refine not_mem_convert unformatted property converts ?_
  rw [String.toList_ofList]
  exact Newline.not_mem_unified text

/-- A file that is written holds the conversion of its text with a line feed for
every line ending.  This is the conversion of its own text if there is no
carriage return in it, and never if one stands in front of a line feed. -/
theorem written_holdsConversion :
    HoldsConversion (hostOf tree) options path after (Newline.unified text) ∧
      (0x0d ∉ Utf8.encode text →
        HoldsConversion (hostOf tree) options path after text) ∧
      ('\r' ∉ options.storyProperty.toList →
        (∀ bytes, after.find? (Path.ofString path) = some (.file bytes) →
          0x0d ∉ bytes) ∧
        (Newline.hasPair text = true → ∀ outcome,
          Migration.convert (hostOf tree) options path (String.ofList text) =
              .ok outcome →
            after.find? (Path.ofString path) ≠
              some (.file (Utf8.ofString outcome.code)))) := by
  have holds := holdsConversion_unified unformatted isFile migrated written
  refine ⟨holds, fun noReturn => ?_, fun property => ⟨fun bytes held => ?_,
    fun pair outcome converts held => ?_⟩⟩
  · rw [mem_encode_return_iff] at noReturn
    rwa [Newline.unified_eq_self_iff.2 noReturn] at holds
  · exact not_mem_of_written unformatted isFile migrated written property held
  · have noReturn := not_mem_of_written unformatted isFile migrated written
      property held
    rw [Utf8.ofString, mem_encode_return_iff] at noReturn
    refine noReturn (mem_convert_of_hasPair unformatted converts ?_)
    rw [String.toList_ofList]
    exact pair

end Written

/-- A line that ends with a line feed is written with the conversion of itself. -/
theorem written_holdsConversion_of_lineFeed :
    (migrateFileUnder {} (fun _ _ => .error .noProgram) {} ⟨true, true⟩
        (oneFile (chainLine ++ "\n")) "a.js").1.written = true ∧
      0x0d ∉ Utf8.encode (chainLine ++ "\n").toList ∧
      HoldsConversion (fun _ => .error .noProgram) {} "a.js"
        (migrateFileUnder {} (fun _ _ => .error .noProgram) {} ⟨true, true⟩
          (oneFile (chainLine ++ "\n")) "a.js").2
        (chainLine ++ "\n").toList := by
  have written := written_oneLine (.inl rfl)
  have noReturn : 0x0d ∉ Utf8.encode (chainLine ++ "\n").toList := by
    decide +kernel
  obtain ⟨-, holds, -⟩ := written_holdsConversion
    (rfl : ({} : Options).formatter = []) (find?_oneFile _) (Prod.eta _).symm
    written
  exact ⟨written, noReturn, holds noReturn⟩

set_option maxRecDepth 100000 in
/-- A line that ends with a carriage return and a line feed is written without
the carriage return, which stays where its text is converted. -/
theorem written_loses_return :
    (migrateFileUnder {} (fun _ _ => .error .noProgram) {} ⟨true, true⟩
        (oneFile (chainLine ++ "\r\n")) "a.js").1.written = true ∧
      ∃ outcome, Migration.convert (fun _ => .error .noProgram) {} "a.js"
          (chainLine ++ "\r\n") = .ok outcome ∧
        (migrateFileUnder {} (fun _ _ => .error .noProgram) {} ⟨true, true⟩
            (oneFile (chainLine ++ "\r\n")) "a.js").2.find?
              (Path.ofString "a.js") ≠
          some (.file (Utf8.ofString outcome.code)) := by
  have written := written_oneLine (.inr rfl)
  have pair : Newline.hasPair (chainLine ++ "\r\n").toList = true := by
    decide +kernel
  have converted : (Migration.convert (fun _ => .error .noProgram) {} "a.js"
      (chainLine ++ "\r\n")).toOption.any (fun _ => true) = true := by
    decide +kernel
  obtain ⟨outcome, converts, -⟩ := any_toOption.1 converted
  refine ⟨written, outcome, converts, fun held => ?_⟩
  have noReturn := not_mem_of_written (rfl : ({} : Options).formatter = [])
    (find?_oneFile _) (Prod.eta _).symm written (by decide) held
  rw [Utf8.ofString, mem_encode_return_iff] at noReturn
  exact noReturn (mem_convert_of_hasPair rfl converts pair)

end Batch
end StoryMigration
