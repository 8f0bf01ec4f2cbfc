import StoryMigration.Batch.Run
import StoryMigration.Proofs.Fallible
import StoryMigration.Proofs.FilePlaces

/-!
# The report on a file and the file itself

Whatever fails while a file is migrated, the report says what became of it: the
file has the converted source if the report says it was written, and is as it
was otherwise, and nothing else changes but the backup that was asked for.
-/

namespace StoryMigration
namespace Batch

open FileTree Fallible

/-! ## Storing a source -/

/-- What may become of a tree in which a file is stored: its backup may be put
beside it. -/
inductive BackedUp
    (tree : FileTree)
    (path : String)
    (backup : Bool) :
    FileTree → Prop
  | same : BackedUp tree path backup tree
  | copied
      {copy : Place}
      {bytes : List UInt8}
      (asked : backup = true)
      (noDirectory : tree.item? copy ≠ some .directory)
      (leads : (tree.put copy (.file bytes)).placeOf (backupPath path) =
        .ok copy) :
      BackedUp tree path backup (tree.put copy (.file bytes))

/-- A step on files leaves its tree behind, or the tree before if it is
struck. -/
theorem attempt_cases
    {α : Type}
    (fault : Option String)
    (tree : FileTree)
    (step : FileTree.Step α) :
    (∃ reason, attempt fault tree step = (.error reason, tree)) ∨
      (∃ failure, step.result = .error failure ∧
        attempt fault tree step = (.error failure.report, step.tree)) ∨
      ∃ value, step.result = .ok value ∧
        attempt fault tree step = (.ok (), step.tree) := by
  obtain ⟨result, after⟩ := step
  cases fault with
  | some reason => exact .inl ⟨reason, rfl⟩
  | none =>
    cases result with
    | error failure => exact .inr (.inl ⟨failure, rfl, rfl⟩)
    | ok value => exact .inr (.inr ⟨value, rfl, rfl⟩)

theorem backedUp_attempt
    (fault : Option String)
    (tree : FileTree)
    (path : String) :
    BackedUp tree path true (attempt fault tree (tree.backup path)).2 := by
  have after : (attempt fault tree (tree.backup path)).2 = tree ∨
      (attempt fault tree (tree.backup path)).2 = (tree.backup path).tree := by
    rcases attempt_cases fault tree (tree.backup path) with
      ⟨reason, struck⟩ | ⟨failure, -, failed⟩ | ⟨value, -, done⟩
    · rw [struck]
      exact .inl rfl
    · rw [failed]
      exact .inr rfl
    · rw [done]
      exact .inr rfl
  rcases after with unchanged | stepped
  · rw [unchanged]
    exact .same
  · rw [stepped]
    rcases tree.backup_cases path with
      unchanged | ⟨copy, bytes, treeEq, noDirectory, leads⟩
    · rw [unchanged]
      exact .same
    · rw [treeEq] at leads ⊢
      exact .copied rfl noDirectory leads

theorem BackedUp.keeps
    {tree after : FileTree}
    {path : String}
    {backup : Bool}
    (backedUp : BackedUp tree path backup after) :
    Keeps tree after := by
  cases backedUp with
  | same => exact fun _ _ held => .inl held
  | copied asked noDirectory leads => exact keeps_put noDirectory

/-- A backup changes no place but its own. -/
theorem BackedUp.item?_eq
    {tree after : FileTree}
    {path : String}
    {backup : Bool}
    {place : Place}
    (backedUp : BackedUp tree path backup after)
    (changed : after.item? place ≠ tree.item? place) :
    backup = true ∧ after.placeOf (backupPath path) = .ok place := by
  cases backedUp with
  | same => exact absurd rfl changed
  | @copied copy bytes asked noDirectory leads =>
    by_cases same : place = copy
    · rw [same]
      exact ⟨asked, leads⟩
    · exact absurd (item?_put_of_ne same) changed

/-- A backup leaves its file alone. -/
theorem BackedUp.file
    {tree after : FileTree}
    {path : String}
    {backup : Bool}
    {place : Place}
    {bytes : List UInt8}
    (backedUp : BackedUp tree path backup after)
    (leads : tree.placeOf (Path.ofString path) = .ok place)
    (isFile : tree.item? place = some (.file bytes)) :
    after.placeOf (Path.ofString path) = .ok place ∧
      after.item? place = some (.file bytes) := by
  have leadsStill := backedUp.keeps.placeOf leads
  refine ⟨leadsStill, ?_⟩
  by_contra changed
  rw [← isFile] at changed
  obtain ⟨-, toCopy⟩ := backedUp.item?_eq changed
  rcases backedUp.keeps place _ isFile with same | ⟨before, now, -, isFile⟩
  · exact changed (same.trans isFile.symm)
  · exact ne_of_backupPath leadsStill isFile toCopy rfl

/-- Storing a source in a file either fails behind a backup, or puts the source
into the file behind it. -/
theorem store_cases
    {tree : FileTree}
    {path : String}
    {place : Place}
    {bytes : List UInt8}
    (faults : Faults)
    (code : String)
    (backup : Bool)
    (leads : tree.placeOf (Path.ofString path) = .ok place)
    (isFile : tree.item? place = some (.file bytes)) :
    ∃ saved, BackedUp tree path backup saved ∧
      ((∃ reason, store faults tree path code backup = (.error reason, saved)) ∨
        store faults tree path code backup =
          (.ok (), saved.put place (.file (Utf8.ofString code)))) := by
  unfold store
  generalize savedEq :
    (if backup = true then attempt faults.backup tree (tree.backup path)
      else (.ok (), tree)) = saved
  have backedUp : BackedUp tree path backup saved.2 := by
    cases backup with
    | true =>
      rw [← savedEq]
      exact backedUp_attempt faults.backup tree path
    | false =>
      rw [← savedEq]
      exact .same
  refine ⟨saved.2, backedUp, ?_⟩
  obtain ⟨result, after⟩ := saved
  cases result with
  | error reason => exact .inl ⟨reason, rfl⟩
  | ok value =>
    obtain ⟨leadsStill, isFileStill⟩ := backedUp.file leads isFile
    simp only
    rcases attempt_cases faults.write after
        (after.write path (Text.ofString code)) with
      ⟨reason, struck⟩ | ⟨failure, failed, attempted⟩ | ⟨name, done, attempted⟩
    · exact .inl ⟨reason, struck⟩
    · rcases write_cases code leadsStill isFileStill with
        ⟨_, written⟩ | ⟨_, written⟩
      · rw [attempted, written]
        exact .inl ⟨_, rfl⟩
      · rw [written] at failed
        contradiction
    · rcases write_cases code leadsStill isFileStill with
        ⟨_, written⟩ | ⟨_, written⟩
      · rw [written] at done
        contradiction
      · rw [attempted, written]
        exact .inr rfl

/-! ## Reports -/

/-- A report agrees with the files: it has a final status; it says that the file
was written exactly if a converted source was to be, and that something failed
exactly if it has a reason; a file that was skipped comes with a warning.  The
file has the converted source if it was written and is as it was otherwise.
Nothing else changes but the backup that was asked for. -/
structure Agrees
    (hostOf : FileTree → Command.Host)
    (options : Options)
    (writing : Writing)
    (tree : FileTree)
    (path : String)
    (report : FileReport)
    (after : FileTree) : Prop where
  status : report.status = .converted ∨ report.status = .unchanged ∨
    report.status = .skipped ∨ report.status = .failed
  written : report.written = true ↔
    report.status = .converted ∧ writing.write = true
  failure : report.failure.isSome = true ↔ report.status = .failed
  skipped : report.status = .skipped → report.diagnostics ≠ []
  kept : report.written = false →
    after.find? (Path.ofString path) = tree.find? (Path.ofString path)
  replaced : report.written = true → ∃ source outcome,
    tree.read path = .ok source ∧
      Migration.convert (hostOf tree) options path source = .ok outcome ∧
      outcome.hasChanges = true ∧
      after.find? (Path.ofString path) =
        some (.file (Utf8.ofString outcome.code))
  others : ∀ place, after.item? place ≠ tree.item? place →
    report.written = true ∧
        after.placeOf (Path.ofString path) = .ok place ∨
      writing.write = true ∧ writing.backup = true ∧
        after.placeOf (backupPath path) = .ok place

/-- Before anything is written, the report has the status of the outcome. -/
theorem reportOf_cases
    (path : String)
    (outcome : Outcome) :
    (reportOf path outcome).written = false ∧
      (reportOf path outcome).failure = none ∧
      (outcome.hasChanges = true ∧
          (reportOf path outcome).status = .converted ∨
        (reportOf path outcome).status = .unchanged ∨
        (reportOf path outcome).status = .skipped ∧
          (reportOf path outcome).diagnostics ≠ []) := by
  unfold reportOf
  cases changes : outcome.hasChanges with
  | true => exact ⟨rfl, rfl, .inl ⟨rfl, rfl⟩⟩
  | false =>
    simp only [Bool.false_eq_true, if_false]
    split
    · exact ⟨rfl, rfl, .inr (.inl rfl)⟩
    · rename_i someDiagnostics
      rw [List.isEmpty_iff] at someDiagnostics
      exact ⟨rfl, rfl, .inr (.inr ⟨rfl, someDiagnostics⟩)⟩

variable {hostOf : FileTree → Command.Host} {options : Options}
  {writing : Writing} {tree after : FileTree} {path : String}

/-- A report of a failure agrees with files that were at most backed up. -/
theorem agrees_failed
    {backup : Bool}
    {report : FileReport}
    (reason : String)
    (unwritten : report.written = false)
    (asked : backup = true → writing.write = true ∧ writing.backup = true)
    (backedUp : BackedUp tree path backup after)
    (kept : after.find? (Path.ofString path) =
      tree.find? (Path.ofString path)) :
    Agrees hostOf options writing tree path (report.failed reason) after where
  status := .inr (.inr (.inr rfl))
  written := by
    show report.written = true ↔ Status.failed = .converted ∧ _
    rw [unwritten]
    simp
  failure := ⟨fun _ => rfl, fun _ => rfl⟩
  skipped isSkipped := nomatch isSkipped
  kept _ := kept
  replaced written := by
    have written : report.written = true := written
    rw [unwritten] at written
    contradiction
  others place changed := by
    obtain ⟨copied, leads⟩ := backedUp.item?_eq changed
    exact .inr ⟨(asked copied).1, (asked copied).2, leads⟩

/-- A report on an outcome that is not to be written agrees with files that are
as they were. -/
theorem agrees_unwritten
    {outcome : Outcome}
    (notAsked : (reportOf path outcome).status = .converted →
      writing.write = false) :
    Agrees hostOf options writing tree path (reportOf path outcome) tree := by
  obtain ⟨unwritten, noFailure, status⟩ := reportOf_cases path outcome
  refine ⟨?_, ?_, ?_, ?_, fun _ => rfl, ?_, fun _ changed => absurd rfl changed⟩
  · rcases status with ⟨-, converted⟩ | unchanged | ⟨skipped, -⟩
    · exact .inl converted
    · exact .inr (.inl unchanged)
    · exact .inr (.inr (.inl skipped))
  · rw [unwritten]
    constructor
    · exact fun written => nomatch written
    · rintro ⟨converted, asked⟩
      rw [notAsked converted] at asked
      contradiction
  · rw [noFailure]
    constructor
    · exact fun failed => nomatch failed
    · intro failed
      rcases status with ⟨-, other⟩ | other | ⟨other, -⟩ <;>
        rw [other] at failed <;> contradiction
  · intro isSkipped
    rcases status with ⟨-, other⟩ | other | ⟨-, someDiagnostics⟩
    · rw [other] at isSkipped
      contradiction
    · rw [other] at isSkipped
      contradiction
    · exact someDiagnostics
  · intro written
    rw [unwritten] at written
    contradiction

/-- A report that a file was written agrees with the files behind it. -/
theorem agrees_written
    {source : String}
    {outcome : Outcome}
    {place : Place}
    {bytes : List UInt8}
    {backup : Bool}
    (read : tree.read path = .ok source)
    (converts : Migration.convert (hostOf tree) options path source =
      .ok outcome)
    (converted : (reportOf path outcome).status = .converted)
    (asked : writing.write = true)
    (backupAsked : backup = true → writing.backup = true)
    (leads : tree.placeOf (Path.ofString path) = .ok place)
    (isFile : tree.item? place = some (.file bytes))
    (backedUp : BackedUp tree path backup after) :
    Agrees hostOf options writing tree path
      { reportOf path outcome with written := true }
      (after.put place (.file (Utf8.ofString outcome.code))) := by
  obtain ⟨-, noFailure, status⟩ := reportOf_cases path outcome
  obtain ⟨leadsStill, isFileStill⟩ := backedUp.file leads isFile
  have noDirectory : after.item? place ≠ some .directory := by
    rw [isFileStill]
    simp
  have leadsThen : (after.put place
      (.file (Utf8.ofString outcome.code))).placeOf (Path.ofString path) =
        .ok place :=
    (keeps_put noDirectory).placeOf leadsStill
  refine ⟨.inl converted, ⟨fun _ => ⟨converted, asked⟩, fun _ => rfl⟩, ?_, ?_,
    (fun unwritten => nomatch unwritten), fun _ => ?_, fun other changed => ?_⟩
  · show (reportOf path outcome).failure.isSome = true ↔
      (reportOf path outcome).status = .failed
    rw [noFailure, converted]
    simp
  · intro isSkipped
    have isSkipped : (reportOf path outcome).status = .skipped := isSkipped
    rw [converted] at isSkipped
    contradiction
  · have hasChanges : outcome.hasChanges = true := by
      rcases status with ⟨changes, -⟩ | other | ⟨other, -⟩
      · exact changes
      · rw [converted] at other
        contradiction
      · rw [converted] at other
        contradiction
    exact ⟨source, outcome, read, converts, hasChanges,
      find?_eq_some_iff.2 ⟨place, leadsThen, item?_put_self noDirectory⟩⟩
  · by_cases same : other = place
    · rw [same]
      exact .inl ⟨rfl, leadsThen⟩
    · rw [item?_put_of_ne same] at changed
      obtain ⟨copied, toCopy⟩ := backedUp.item?_eq changed
      exact .inr ⟨asked, backupAsked copied,
        (keeps_put noDirectory).placeOf toCopy⟩

/-- A step that has a result was not struck. -/
theorem eq_ok_of_struck
    {α : Type}
    {fault : Option String}
    {result : Except String α}
    {value : α}
    (unstruck : struck fault result = .ok value) :
    result = .ok value := by
  cases fault with
  | some reason => exact nomatch unstruck
  | none => exact unstruck

/-- A text that is read is the text of a file. -/
theorem exists_file_of_read
    {source : String}
    (read : tree.read path = .ok source) :
    ∃ place bytes, tree.placeOf (Path.ofString path) = .ok place ∧
      tree.item? place = some (.file bytes) := by
  unfold FileTree.read at read
  split at read
  · contradiction
  · contradiction
  · rename_i bytes found
    obtain ⟨place, leads, isFile⟩ := find?_eq_some_iff.1 found
    exact ⟨place, bytes, leads, isFile⟩

/-- The report on a file agrees with the files, whatever step fails and whatever
is asked for. -/
theorem migrateFileUnder_agrees
    (faults : Faults)
    (hostOf : FileTree → Command.Host)
    (options : Options)
    (writing : Writing)
    (tree : FileTree)
    (path : String) :
    Agrees hostOf options writing tree path
      (migrateFileUnder faults hostOf options writing tree path).1
      (migrateFileUnder faults hostOf options writing tree path).2 := by
  have untouched : BackedUp tree path false tree := .same
  have failed {report : FileReport} (reason : String)
      (unwritten : report.written = false) :
      Agrees hostOf options writing tree path (report.failed reason) tree :=
    agrees_failed reason unwritten
      (fun asked => absurd asked Bool.false_ne_true) untouched rfl
  unfold migrateFileUnder
  split
  · exact failed _ rfl
  · rename_i source readUnstruck
    have read := mapError_eq_ok.1 (eq_ok_of_struck readUnstruck)
    split
    · exact failed _ rfl
    · rename_i outcome convertedUnstruck
      have converts := mapError_eq_ok.1 (eq_ok_of_struck convertedUnstruck)
      have unwritten : (reportOf path outcome).written = false :=
        (reportOf_cases path outcome).1
      simp only
      split
      · rename_i notConverted
        rw [bne_iff_ne] at notConverted
        exact agrees_unwritten fun converted =>
          absurd converted notConverted
      · rename_i converted
        rw [bne_iff_ne, not_not] at converted
        split
        · exact failed _ unwritten
        · split
          · rename_i asked
            obtain ⟨place, bytes, leads, isFile⟩ := exists_file_of_read read
            obtain ⟨saved, backedUp, ⟨reason, storedEq⟩ | storedEq⟩ :=
              store_cases faults outcome.code writing.backup leads isFile
            · rw [storedEq]
              obtain ⟨leadsStill, isFileStill⟩ := backedUp.file leads isFile
              refine agrees_failed reason unwritten
                (fun copied => ⟨asked, copied⟩) backedUp ?_
              rw [find?_eq_some_iff.2 ⟨place, leads, isFile⟩]
              exact find?_eq_some_iff.2 ⟨place, leadsStill, isFileStill⟩
            · rw [storedEq]
              exact agrees_written read converts converted asked
                (fun copied => copied) leads isFile backedUp
          · rename_i notAsked
            rw [Bool.not_eq_true] at notAsked
            exact agrees_unwritten fun _ => notAsked

end Batch
end StoryMigration
