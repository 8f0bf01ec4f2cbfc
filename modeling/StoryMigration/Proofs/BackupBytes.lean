import StoryMigration.Proofs.FileTargets
import StoryMigration.Proofs.JoinedStatements
import StoryMigration.Proofs.MigratedFile
import StoryMigration.Proofs.ReadTexts

/-!
# What a backup holds

A backup is a copy of a text, not of bytes: reading puts a line feed in the
place of every line ending.  So the backup of a file that was written holds the
bytes that the file had exactly if there was no carriage return among them.
-/

namespace StoryMigration

open Fallible

namespace FileTree

variable {tree after : FileTree} {given : String} {text : List Char}

theorem textOf_encode
    (text : List Char) :
    textOf (Utf8.encode text) =
      .ok (String.ofList (Newline.unified text)) := by
  simp only [textOf, Utf8.read_encode, String.toList_ofList]

/-- The backup of a file holds its text with a line feed for every line
ending. -/
theorem backup_eq_ok
    {name : String}
    (isFile : tree.find? (Path.ofString given) =
      some (.file (Utf8.encode text)))
    (copied : tree.backup given = ⟨.ok name, after⟩) :
    ∃ copy,
      after = tree.put copy (.file (Utf8.encode (Newline.unified text))) ∧
        tree.item? copy ≠ some .directory ∧
        after.placeOf (backupPath given) = .ok copy := by
  unfold backup at copied
  simp only [isFile, textOf_encode] at copied
  split at copied
  · cases copied
  · split at copied
    · rename_i stored
      cases copied
      obtain ⟨copy, afterEq, noDirectory, leads, -⟩ := putFile_eq_ok stored
      rw [Utf8.ofString, String.toList_ofList] at afterEq
      exact ⟨copy, afterEq, noDirectory, leads⟩
    · cases copied

end FileTree

namespace Batch

open FileTree

variable {faults : Faults} {tree after : FileTree} {path : String}

theorem attempt_eq_ok
    {α : Type}
    {fault : Option String}
    {step : FileTree.Step α}
    (attempted : attempt fault tree step = (.ok (), after)) :
    ∃ value, step = ⟨.ok value, after⟩ := by
  rcases attempt_cases fault tree step with
    ⟨reason, struck⟩ | ⟨failure, -, failed⟩ | ⟨value, done, attemptedEq⟩
  · rw [struck] at attempted
    cases attempted
  · rw [failed] at attempted
    cases attempted
  · rw [attemptedEq] at attempted
    cases attempted
    exact ⟨value, by rw [← done]⟩

/-- A source that is stored with a backup is written behind the backup. -/
theorem store_eq_ok
    {code : String}
    (stored : store faults tree path code true = (.ok (), after)) :
    ∃ saved name written, tree.backup path = ⟨.ok name, saved⟩ ∧
      saved.write path (Text.ofString code) = ⟨.ok written, after⟩ := by
  unfold store at stored
  rw [if_pos rfl] at stored
  generalize attemptEq : attempt faults.backup tree (tree.backup path) =
    attempted at stored
  obtain ⟨result, saved⟩ := attempted
  cases result with
  | error reason => cases stored
  | ok value =>
    obtain ⟨name, copied⟩ := attempt_eq_ok attemptEq
    obtain ⟨written, wrote⟩ := attempt_eq_ok stored
    exact ⟨saved, name, written, copied, wrote⟩

/-- A file whose report says that it was written has its converted source
stored. -/
theorem store_of_written
    {hostOf : FileTree → Command.Host}
    {options : Options}
    {writing : Writing}
    {report : FileReport}
    (migrated : migrateFileUnder faults hostOf options writing tree path =
      (report, after))
    (written : report.written = true) :
    ∃ source outcome, tree.read path = .ok source ∧
      Migration.convert (hostOf tree) options path source = .ok outcome ∧
      outcome.hasChanges = true ∧
      store faults tree path outcome.code writing.backup = (.ok (), after) := by
  unfold migrateFileUnder at migrated
  split at migrated
  · cases migrated
    cases written
  · rename_i source readUnstruck
    have read := mapError_eq_ok.1 (eq_ok_of_struck readUnstruck)
    split at migrated
    · cases migrated
      cases written
    · rename_i outcome convertedUnstruck
      have converts := mapError_eq_ok.1 (eq_ok_of_struck convertedUnstruck)
      obtain ⟨unwritten, -, status⟩ := reportOf_cases path outcome
      simp only at migrated
      split at migrated
      · cases migrated
        rw [unwritten] at written
        cases written
      · rename_i converted
        rw [bne_iff_ne, not_not] at converted
        have hasChanges : outcome.hasChanges = true := by
          rcases status with ⟨changes, -⟩ | other | ⟨other, -⟩
          · exact changes
          · rw [converted] at other
            contradiction
          · rw [converted] at other
            contradiction
        split at migrated
        · cases migrated
          cases unwritten.symm.trans written
        · split at migrated
          · refine ⟨source, outcome, read, converts, hasChanges, ?_⟩
            split at migrated
            · cases migrated
              cases unwritten.symm.trans written
            · rename_i stored
              cases migrated
              rw [← stored]
          · cases migrated
            rw [unwritten] at written
            cases written

/-- Behind a file that was written and kept, the backup has the text that the
file had, with a line feed for every line ending. -/
theorem find?_backupPath_of_written
    {hostOf : FileTree → Command.Host}
    {options : Options}
    {writing : Writing}
    {text : List Char}
    (isFile : tree.find? (Path.ofString path) =
      some (.file (Utf8.encode text)))
    (asked : writing.backup = true)
    (written : (migrateFileUnder faults hostOf options writing tree
      path).1.written = true) :
    (migrateFileUnder faults hostOf options writing tree path).2.find?
        (backupPath path) =
      some (.file (Utf8.encode (Newline.unified text))) := by
  generalize migrated : migrateFileUnder faults hostOf options writing tree
    path = behind at written ⊢
  obtain ⟨report, after⟩ := behind
  obtain ⟨-, outcome, -, -, -, stored⟩ := store_of_written migrated written
  rw [asked] at stored
  obtain ⟨saved, name, target, copied, wrote⟩ := store_eq_ok stored
  obtain ⟨copy, rfl, noDirectory, toCopy⟩ := backup_eq_ok isFile copied
  obtain ⟨place, leads, held⟩ := find?_eq_some_iff.1 isFile
  obtain ⟨leadsStill, heldStill⟩ :=
    (show BackedUp tree path true _ from
      .copied rfl noDirectory toCopy).file leads held
  have apart : copy ≠ place :=
    (ne_of_backupPath leadsStill heldStill toCopy).symm
  rcases write_cases outcome.code leadsStill heldStill with
    ⟨failure, failed⟩ | ⟨target', done⟩
  · rw [failed] at wrote
    cases wrote
  · rw [done] at wrote
    cases wrote
    have fileStill : (tree.put copy (.file (Utf8.encode
        (Newline.unified text)))).item? place ≠ some .directory := by
      rw [heldStill]
      simp
    refine find?_eq_some_iff.2
      ⟨copy, (keeps_put fileStill).placeOf toCopy, ?_⟩
    rw [item?_put_of_ne apart, item?_put_self noDirectory]

theorem mem_encode_return_iff
    (text : List Char) :
    0x0d ∈ Utf8.encode text ↔ '\r' ∈ text :=
  Utf8.mem_encode_iff rfl (by decide) text

/-- A file that is written with a backup leaves its text in the backup, with a
line feed for every line ending.  These are the bytes it had exactly if no
carriage return is among them. -/
theorem backup_holds_bytes_iff
    {hostOf : FileTree → Command.Host}
    {options : Options}
    {writing : Writing}
    {text : List Char}
    (isFile : tree.find? (Path.ofString path) =
      some (.file (Utf8.encode text)))
    (asked : writing.backup = true)
    (written : (migrateFileUnder faults hostOf options writing tree
      path).1.written = true) :
    (migrateFileUnder faults hostOf options writing tree path).2.find?
        (backupPath path) =
      some (.file (Utf8.encode (Newline.unified text))) ∧
    ((migrateFileUnder faults hostOf options writing tree path).2.find?
        (backupPath path) = some (.file (Utf8.encode text)) ↔
      0x0d ∉ Utf8.encode text) := by
  have found : (migrateFileUnder faults hostOf options writing tree
      path).2.find? (backupPath path) =
        some (.file (Utf8.encode (Newline.unified text))) :=
    find?_backupPath_of_written isFile asked written
  refine ⟨found, ?_⟩
  rw [found, mem_encode_return_iff, ← Newline.unified_eq_self_iff, Option.some.injEq,
    Item.file.injEq]
  constructor
  · exact Utf8.encode_injective
  · intro same
    rw [same]

/-- No name on a path has a null character. -/
def HasNoNull (path : Path) : Prop :=
  ∀ name ∈ path.parts, '\x00' ∉ name.toList

theorem any_contains_null
    {path : Path}
    (noNull : HasNoNull path) :
    (path.parts.any fun name => name.contains '\x00') = false := by
  rw [List.any_eq_false]
  intro name isName
  rw [String.contains_char_eq, decide_eq_true_eq]
  exact noNull name isName

theorem not_mem_name
    {path : Path}
    (noNull : HasNoNull path) :
    '\x00' ∉ path.name.toList := by
  rw [Path.name]
  cases lastEq : path.parts.getLast? with
  | none => exact List.not_mem_nil
  | some name => exact noNull name (List.mem_of_getLast? lastEq)

theorem hasNoNull_parent
    {path : Path}
    (noNull : HasNoNull path) :
    HasNoNull path.parent :=
  fun name isName => noNull name (List.dropLast_subset _ isName)

theorem hasNoNull_backupPath
    {given : String}
    (noNull : HasNoNull (Path.ofString given)) :
    HasNoNull (backupPath given) := by
  have nameEq : (backupPath given).name =
      (Path.ofString given).name ++ backupExtension :=
    Path.name_withExtension _ _
  intro name isName
  have isPart : name ∈ (Path.ofString given).parts.dropLast ++
      [(backupPath given).name] := by
    rw [Path.name, backupPath, Path.withExtension, List.getLast?_concat]
    exact isName
  rcases List.mem_append.1 isPart with above | isLast
  · exact noNull name (List.dropLast_subset _ above)
  · rw [List.mem_singleton.1 isLast, nameEq, String.toList_append,
      List.mem_append, not_or]
    exact ⟨not_mem_name noNull, by decide⟩

/-- A source is stored in a file with a backup, unless a name or a directory is
in the way. -/
theorem store_of_target?
    {place : Place}
    {text : List Char}
    (aims : tree.target? (Path.ofString path) = some place)
    (isFile : tree.item? place = some (.file (Utf8.encode text)))
    (named : (Path.ofString path).name.isEmpty = false)
    (noNull : HasNoNull (Path.ofString path))
    (free : tree.item? (copyPlace place) ≠ some .directory)
    (code : String) :
    (store {} tree path code true).1 = .ok () := by
  have stored
      {tree : FileTree}
      {path : Path}
      {place : Place}
      (aims : tree.target? path = some place)
      (noNull : HasNoNull path)
      (free : tree.item? place ≠ some .directory)
      (bytes : List UInt8) :
      tree.putFile path bytes = .ok (tree.put place (.file bytes)) := by
    rw [putFile_of_target? aims, any_contains_null noNull,
      if_neg Bool.false_ne_true, if_neg free]
  have saved : tree.backup path = ⟨.ok (backupPath path).toString,
      tree.put (copyPlace place)
        (.file (Utf8.encode (Newline.unified text)))⟩ := by
    have copied := stored (target?_backupPath aims)
      (hasNoNull_backupPath noNull) free
    unfold backupPath at copied
    unfold FileTree.backup backupPath
    simp only [named, Bool.false_eq_true, if_false, find?_of_target? aims,
      isFile, textOf_encode, copied, Utf8.ofString, String.toList_ofList]
  have proper : place ≠ [] := by
    rintro rfl
    rw [item?_root] at isFile
    cases isFile
  generalize savedEq : tree.put (copyPlace place)
    (.file (Utf8.encode (Newline.unified text))) = after at saved
  have aimsStill : after.target? (Path.ofString path) = some place := by
    rw [← savedEq]
    exact (alike_put free).directories.target? aims
  have isFileStill : after.item? place ≠ some .directory := by
    rw [← savedEq, item?_put_of_ne (copyPlace_ne proper).symm, isFile]
    simp
  have parentNull : (Path.ofString path).parent.name.contains '\x00' = false := by
    rw [String.contains_char_eq, decide_eq_false_iff_not]
    exact not_mem_name (hasNoNull_parent noNull)
  have written := stored aimsStill noNull isFileStill (Utf8.ofString code)
  unfold store
  simp only [if_true, attempt, saved]
  unfold FileTree.write
  simp only [makeDirectory_of_target? aimsStill, parentNull,
    Bool.false_eq_true, if_false, Text.toString?_ofString, written]

/-- A source whose conversion by default is known, and can be stored, is
written. -/
theorem written_of_editsInto
    {hostOf : FileTree → Command.Host}
    {source text : String}
    {m : Syntax.Module}
    {known : Chain.Located → Chain.Fragment → List Piece → Bool}
    (read : tree.read path = .ok source)
    (parsed : Syntax.Module.parse? (Path.ofString path).dialect source = some m)
    (edits : Migration.editsInto m text known = true)
    (reparsed : (Syntax.Module.parse? (Path.ofString path).dialect
      (Newline.normalizedEnds text)).isSome = true)
    (different : source ≠ Newline.normalizedEnds text)
    (stored : (store {} tree path (Newline.normalizedEnds text) true).1 =
      .ok ()) :
    (migrateFileUnder {} hostOf {} ⟨true, true⟩ tree path).1.written = true := by
  obtain ⟨result, reparsed⟩ := Option.isSome_iff_exists.1 reparsed
  obtain ⟨-, -, outcome, -, -, -, -, converts, codeEq, -, -⟩ :=
    Migration.exists_conversion_into (hostOf tree) path parsed edits reparsed
  have byPath : Migration.convert (hostOf tree) {} path source =
      .ok outcome := converts
  have before : outcome.before = source := by
    obtain ⟨changed, -, outcomeEq, -⟩ :=
      (Migration.applyTo_eq_ok parsed).1 converts
    rw [outcomeEq]
  have hasChanges : outcome.hasChanges = true := by
    rw [Outcome.hasChanges, before, codeEq, bne_iff_ne]
    exact different
  have converted : (reportOf path outcome).status = .converted := by
    rw [reportOf, if_pos hasChanges]
  rw [migrateFileUnder, mapError_eq_ok.2 read]
  simp only [struck]
  rw [mapError_eq_ok.2 byPath]
  simp only [converted, bne_self_eq_false, Bool.false_eq_true, if_false,
    if_true, codeEq, stored]

/-- A tree of one file. -/
def oneFile (text : String) : FileTree :=
  ⟨[(["a.js"], .file (Utf8.ofString text))]⟩

theorem target?_oneFile
    (text : String) :
    (oneFile text).target? (Path.ofString "a.js") = some ["a.js"] := by
  have parsed : Path.ofString "a.js" = ⟨"", ["a.js"]⟩ := by decide +kernel
  rw [parsed]
  rfl

theorem item?_oneFile
    (text : String) :
    (oneFile text).item? ["a.js"] = some (.file (Utf8.encode text.toList)) :=
  rfl

theorem find?_oneFile
    (text : String) :
    (oneFile text).find? (Path.ofString "a.js") =
      some (.file (Utf8.encode text.toList)) :=
  (find?_of_target? (target?_oneFile text)).trans (item?_oneFile text)

theorem read_oneFile
    (text : String) :
    (oneFile text).read "a.js" =
      .ok (String.ofList (Newline.unified text.toList)) := by
  rw [FileTree.read, find?_oneFile]
  exact textOf_encode _

/-- A chain of stories on one line. -/
def chainLine : String := "storiesOf('A', module).add('s', f);"

set_option maxRecDepth 100000 in
/-- A file of one line is written behind a backup, whichever ending its line
has. -/
theorem written_oneLine
    {ending : String}
    (isEnding : ending = "\n" ∨ ending = "\r\n") :
    (migrateFileUnder {} (fun _ _ => .error .noProgram) {} ⟨true, true⟩
      (oneFile (chainLine ++ ending)) "a.js").1.written = true := by
  generalize textEq :
    "export default \x7b\n  title: 'A',\n\x7d;\n\nexport const s = f;\n" = text
  have checked : (Syntax.Module.parse? (Path.ofString "a.js").dialect
      (chainLine ++ "\n")).any (fun m =>
        (Syntax.Module.parse? (Path.ofString "a.js").dialect
            (Newline.normalizedEnds text)).isSome &&
          Migration.editsInto m text fun _ _ _ => true) = true := by
    rw [← textEq]
    decide +kernel
  have different : chainLine ++ "\n" ≠ Newline.normalizedEnds text := by
    rw [← textEq]
    decide +kernel
  obtain ⟨m, parsed, checked⟩ := (Option.any_eq_true _ _).1 checked
  rw [Bool.and_eq_true] at checked
  have read : (oneFile (chainLine ++ ending)).read "a.js" =
      .ok (chainLine ++ "\n") := by
    rw [read_oneFile]
    rcases isEnding with rfl | rfl <;> decide +kernel
  refine written_of_editsInto read parsed checked.2 checked.1 different ?_
  refine store_of_target? (target?_oneFile _) (item?_oneFile _) ?_ ?_ ?_ _
  · decide +kernel
  · unfold HasNoNull
    decide +kernel
  · exact nofun

/-- With a line feed at its end, the line has its own bytes in the backup. -/
theorem backup_holds_bytes_of_lineFeed :
    0x0d ∉ Utf8.encode (chainLine ++ "\n").toList ∧
      (migrateFileUnder {} (fun _ _ => .error .noProgram) {} ⟨true, true⟩
        (oneFile (chainLine ++ "\n")) "a.js").2.find? (backupPath "a.js") =
          some (.file (Utf8.encode (chainLine ++ "\n").toList)) := by
  have noReturn : 0x0d ∉ Utf8.encode (chainLine ++ "\n").toList := by
    rw [mem_encode_return_iff]
    decide +kernel
  exact ⟨noReturn, (backup_holds_bytes_iff (find?_oneFile _) rfl
    (written_oneLine (.inl rfl))).2.2 noReturn⟩

/-- With a carriage return as well, its backup has other bytes than the file
had. -/
theorem backup_loses_return :
    (migrateFileUnder {} (fun _ _ => .error .noProgram) {} ⟨true, true⟩
        (oneFile (chainLine ++ "\r\n")) "a.js").1.written = true ∧
      (migrateFileUnder {} (fun _ _ => .error .noProgram) {} ⟨true, true⟩
        (oneFile (chainLine ++ "\r\n")) "a.js").2.find? (backupPath "a.js") ≠
          (oneFile (chainLine ++ "\r\n")).find? (Path.ofString "a.js") := by
  have written := written_oneLine (.inr rfl)
  refine ⟨written, ?_⟩
  have hasReturn : '\r' ∈ (chainLine ++ "\r\n").toList := by
    decide +kernel
  rw [find?_backupPath_of_written (find?_oneFile _) rfl written,
    find?_oneFile]
  intro same
  rw [Option.some.injEq, Item.file.injEq] at same
  exact Newline.unified_eq_self_iff.1 (Utf8.encode_injective same) hasReturn

end Batch
end StoryMigration
