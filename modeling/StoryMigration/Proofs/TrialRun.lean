import StoryMigration.CommandLine.Run
import StoryMigration.Proofs.BackupBytes
import StoryMigration.Proofs.WorkerRuns

/-!
# Trial runs

A batch that writes nothing takes no step that changes a file.  Nevertheless
its reports are those of the batch that writes: no file is read behind the
changes to another one, so that each is converted from what it held at first,
and storing what it came to changes its report only in that it was written.
The program therefore counts the same and ends with the same exit code.
-/

namespace StoryMigration
namespace Batch

open FileTree Fallible

variable {task : Task} {workers : Int} {tree : FileTree} {path : String}
  {stage : Stage}

/-- The same task with files written or not, and copied or not. -/
def Task.to
    (task : Task)
    (write backup : Bool) : Task :=
  { task with writing := ⟨write, backup⟩ }

/-- A report but for whether the file was written. -/
def FileReport.unwritten (report : FileReport) : FileReport :=
  { report with written := false }

/-! ## Nothing changes -/

namespace Stage

/-- A file is to be copied or to be written. -/
def isStoring : Stage → Bool
  | copying _ _ => true
  | writing _ _ => true
  | _ => false

end Stage

theorem Task.isStoring_afterReading
    (task : Task)
    (backup : Bool)
    (tree : FileTree)
    (path : String) :
    ((task.to false backup).afterReading tree path).isStoring = false := by
  unfold afterReading
  split
  · rfl
  · split
    · rfl
    · simp only
      split
      · rfl
      · split <;> rfl

/-- The tree is the first one, and no file is to be stored. -/
structure IsIdle
    (tree : FileTree)
    (pool : Pool) : Prop where
  tree : pool.tree = tree
  files : ∀ file ∈ pool.files, file.2.isStoring = false

theorem IsIdle.replace
    {front back : List (String × Stage)}
    {next : Stage}
    (idle : IsIdle tree ⟨tree, front ++ (path, stage) :: back⟩)
    (notStoring : next.isStoring = false) :
    IsIdle tree ⟨tree, front ++ (path, next) :: back⟩ where
  tree := rfl
  files file isFile := by
    rw [List.mem_append, List.mem_cons] at isFile
    rcases isFile with inFront | rfl | inBack
    · exact idle.files file (List.mem_append_left _ inFront)
    · exact notStoring
    · exact idle.files file
        (List.mem_append_right _ (List.mem_cons_of_mem _ inBack))

/-- No step of a trial run changes the tree. -/
theorem IsIdle.step
    {backup : Bool}
    {pool next : Pool}
    (idle : IsIdle tree pool)
    (step : (task.to false backup).Step workers pool next) :
    IsIdle tree next := by
  cases step with
  | take first free =>
    obtain rfl := idle.tree
    exact idle.replace rfl
  | @work T front back path stage underWay =>
    have notStoring : stage.isStoring = false :=
      idle.files (path, stage) List.mem_append_cons_self
    obtain rfl := idle.tree
    cases stage with
    | waiting => cases underWay
    | reading => exact idle.replace (task.isStoring_afterReading backup T path)
    | copying report code => cases notStoring
    | writing report code => cases notStoring
    | done report => cases underWay

theorem IsIdle.runs
    {backup : Bool}
    {paths : List String}
    {n : Nat}
    {pool : Pool}
    (runs : (task.to false backup).Runs workers (.start tree paths) n pool) :
    IsIdle tree pool := by
  induction runs with
  | nothing =>
    refine ⟨rfl, fun file isFile => ?_⟩
    obtain ⟨path, -, rfl⟩ := List.mem_map.1 isFile
    rfl
  | further before step beforeHypothesis => exact beforeHypothesis.step step

instance
    (tree : FileTree) :
    DecidableRel (Apart tree) :=
  fun path other => inferInstanceAs (Decidable (
    ∀ place ∈ tree.target? (Path.ofString path),
      ∀ otherPlace ∈ tree.target? (Path.ofString other),
        place ≠ otherPlace ∧ place ≠ copyPlace otherPlace ∧
          copyPlace place ≠ otherPlace))

instance
    (tree : FileTree)
    (paths : List String) :
    Decidable (AllApart tree paths) :=
  inferInstanceAs (Decidable (paths.Pairwise (Apart tree)))

/-! ## Reports of one file -/

/-- If a file changes, the copy and the changed file can be stored. -/
def Stores
    (task : Task)
    (tree : FileTree)
    (backup : Bool)
    (path : String) : Prop :=
  ∀ source outcome, tree.read path = .ok source →
    Migration.convert task.host task.options path source = .ok outcome →
      outcome.hasChanges = true →
        (store (task.faultsOf path) tree path outcome.code backup).1 = .ok ()

/-- A file can be stored behind its backup, unless a name or a directory is in
the way. -/
theorem stores_of_target?
    {place : Place}
    {text : List Char}
    (noFaults : task.faultsOf path = {})
    (aims : tree.target? (Path.ofString path) = some place)
    (isFile : tree.item? place = some (.file (Utf8.encode text)))
    (named : (Path.ofString path).name.isEmpty = false)
    (noNull : HasNoNull (Path.ofString path))
    (free : tree.item? (copyPlace place) ≠ some .directory) :
    Stores task tree true path := by
  intro source outcome read converts changes
  rw [noFaults]
  exact store_of_target? aims isFile named noNull free outcome.code

theorem hasChanges_of_converted
    {outcome : Outcome}
    (converted : (reportOf path outcome).status = .converted) :
    outcome.hasChanges = true := by
  by_contra unchanged
  unfold reportOf at converted
  simp only [if_neg unchanged] at converted
  split at converted <;> cases converted

theorem written_reportOf
    (path : String)
    (outcome : Outcome) :
    (reportOf path outcome).written = false := by
  unfold reportOf
  simp only
  split
  · rfl
  · split <;> rfl

theorem FileReport.unwritten_of_written
    {report : FileReport}
    (notWritten : report.written = false) :
    report.unwritten = report := by
  rw [unwritten, ← notWritten]

/-- A trial leaves the tree, and reports what is reported of a file that is
stored. -/
theorem migrate_trial
    (keep backup : Bool)
    (stores : Stores task tree backup path) :
    (task.to false keep).migrate tree path =
      (((task.to true backup).migrate tree path).1.unwritten, tree) := by
  unfold Task.migrate migrateFileUnder
  simp only [Task.to]
  cases read : struck (task.faultsOf path).read
      ((tree.read path).mapError (·.report)) with
  | error reason => rfl
  | ok source =>
    simp only
    cases converts : struck (task.faultsOf path).convert
        ((Migration.convert task.host task.options path source).mapError
          (·.report)) with
    | error reason => rfl
    | ok outcome =>
      simp only
      split
      · rw [FileReport.unwritten_of_written (written_reportOf path outcome)]
      · rename_i converted
        cases (task.faultsOf path).compare with
        | some reason =>
          have notWritten : (FileReport.failed
              { reportOf path outcome with difference := none }
              reason).written = false :=
            written_reportOf path outcome
          exact congrArg (·, tree)
            (FileReport.unwritten_of_written notWritten).symm
        | none =>
          have changes : outcome.hasChanges = true :=
            hasChanges_of_converted (by simpa using converted)
          have stored := stores source outcome
            (mapError_eq_ok.1 (eq_ok_of_struck read))
            (mapError_eq_ok.1 (eq_ok_of_struck converts)) changes
          simp only [Bool.false_eq_true, if_false, if_true, stored]
          exact congrArg (·, tree) (FileReport.unwritten_of_written
            (written_reportOf path outcome)).symm

/-! ## Reports of all files -/

/-- A trial and a run that stores the same files report alike. -/
theorem map_migrate_trial
    {paths : List String}
    (keep backup : Bool)
    (stores : ∀ path ∈ paths, Stores task tree backup path) :
    paths.map (fun path => ((task.to false keep).migrate tree path).1) =
      (paths.map fun path => ((task.to true backup).migrate tree path).1).map
        FileReport.unwritten := by
  rw [List.map_map]
  refine List.map_congr_left fun path isPath => ?_
  rw [migrate_trial keep backup (stores path isPath)]
  rfl

theorem reports_of_runs
    {paths : List String}
    {n : Nat}
    {pool : Pool}
    {reports : Reports}
    (apart : AllApart tree paths)
    (runs : task.Runs workers (.start tree paths) n pool)
    (reported : pool.reports? = some reports) :
    reports = paths.map fun path => (task.migrate tree path).1 :=
  ((isOnCourse_start task tree paths).runs apart runs).reports_eq reported

/-- Workers come to the end of a batch, and whenever they do, to these
reports. -/
structure ComesTo
    (task : Task)
    (workers : Int)
    (tree : FileTree)
    (paths : List String)
    (reports : Reports) : Prop where
  ends : ∃ n pool, task.Runs workers (.start tree paths) n pool ∧
    pool.reports? = some reports
  always : ∀ n pool found, task.Runs workers (.start tree paths) n pool →
    pool.reports? = some found → found = reports

theorem comesTo_of_apart
    {paths : List String}
    (task : Task)
    (workers : Int)
    (apart : AllApart tree paths) :
    ComesTo task workers tree paths
      (paths.map fun path => (task.migrate tree path).1) where
  ends := by
    obtain ⟨n, pool, reports, runs, reported⟩ :=
      exists_runs task workers (.start tree paths)
    rw [reports_of_runs apart runs reported] at reported
    exact ⟨n, pool, runs, reported⟩
  always n pool found runs reported := reports_of_runs apart runs reported

/-- One after another, the files are reported on as each is alone. -/
theorem reports_migrateEach
    {paths : List String}
    (apart : AllApart tree paths) :
    (task.migrateEach tree paths).1 =
      paths.map fun path => (task.migrate tree path).1 := by
  obtain ⟨files, onCourse, reported⟩ :=
    IsOnCourse.migrateEach [] (isOnCourse_start task tree paths) apart
  exact onCourse.reports_eq (reports?_eq_some_iff.2 reported)

theorem tree_migrate_trial
    (task : Task)
    (keep : Bool)
    (tree : FileTree)
    (path : String) :
    ((task.to false keep).migrate tree path).2 = tree := by
  unfold Task.migrate migrateFileUnder
  split
  · rfl
  · split
    · rfl
    · simp only
      split
      · rfl
      · split <;> rfl

/-- Without writing, the files are migrated without a change to the tree. -/
theorem tree_migrateEach
    (task : Task)
    (keep : Bool)
    (tree : FileTree)
    (paths : List String) :
    ((task.to false keep).migrateEach tree paths).2 = tree := by
  induction paths with
  | nil => rfl
  | cons path rest restHypothesis =>
    rw [Task.migrateEach]
    simp only [tree_migrate_trial]
    exact restHypothesis

/-- The counts of reports do not depend on whether files were written. -/
theorem having_unwritten
    (reports : Reports)
    (status : Status) :
    (Reports.having (reports.map FileReport.unwritten) status).length =
      (reports.having status).length := by
  unfold Reports.having
  rw [List.filter_map, List.length_map]
  rfl

end Batch

/-! ## Formatters that see no file -/

namespace Migration

open Syntax

/-- A conversion depends on the host through the formatter alone. -/
theorem convert_of_prettify
    {host other : Command.Host}
    {options : Options}
    (same : Command.prettify host options.formatter =
      Command.prettify other options.formatter)
    (path source : String) :
    convert host options path source = convert other options path source := by
  have sameTransform : transform host options path =
      transform other options path := by
    funext m
    unfold transform converted
    simp only [same]
  rw [convert, convert, sameTransform]

end Migration

namespace Batch

/-- Files are migrated alike on hosts on which conversions come out alike. -/
theorem migrateFiles_of_convert
    {hostOf : FileTree → Command.Host}
    {host : Command.Host}
    {options : Options}
    (same : ∀ tree path source,
      Migration.convert (hostOf tree) options path source =
        Migration.convert host options path source)
    (writing : Writing)
    (tree : FileTree)
    (paths : List String) :
    migrateFiles hostOf options writing tree paths =
      migrateFiles (fun _ => host) options writing tree paths := by
  induction paths generalizing tree with
  | nil => rfl
  | cons path rest restHypothesis =>
    have sameFile : migrateFile hostOf options writing tree path =
        migrateFile (fun _ => host) options writing tree path := by
      unfold migrateFile migrateFileUnder
      simp only [same]
    rw [migrateFiles, migrateFiles, sameFile]
    simp only [restHypothesis]

end Batch

/-! ## Trial runs of the program -/

namespace CommandLine

open Batch Fallible

/-- What a migration works with: its settings, its options and the files that it
finds. -/
structure Finds
    (tree : FileTree)
    (environment : List (String × String))
    (asked : MigrateArguments)
    (settings : Config.Settings)
    (options : Options)
    (files : List String) : Prop where
  areSettings : settingsFor tree environment [] = .ok settings
  areOptions : optionsFor settings asked = .ok options
  areFiles : Search.expand tree
    (asked.paths.map fun path => (Path.ofString path).toString)
    (if asked.patterns.isEmpty then settings.patterns else asked.patterns)
    Search.standardExcludes = .ok files

/-- The files that a migration finds are apart and can be stored, and its
formatter does not depend on any file. -/
def Undisturbed
    (tree : FileTree)
    (environment : List (String × String))
    (asked : MigrateArguments) : Prop :=
  ∀ settings options files, Finds tree environment asked settings options files →
    AllApart tree files ∧
    (∀ other, Command.prettify (hostFor settings environment other)
        options.formatter =
      Command.prettify (hostFor settings environment tree) options.formatter) ∧
    ∀ path ∈ files,
      Stores ⟨fun _ => {}, hostFor settings environment tree, options, {}⟩ tree
        asked.backup path

/-- A migration ends alike whether or not it is a trial, with the tree as it was
and with a report on no file. -/
def EndsEarly
    (tree : FileTree)
    (environment : List (String × String))
    (asked : MigrateArguments) : Prop :=
  ∃ early, (∀ isTrial,
    runMigrate tree environment { asked with isTrial } = early) ∧
    ∀ ending, early = .ok ending → ending.tree = tree ∧ ending.reports = []

section Early

variable {tree : FileTree} {environment : List (String × String)}
  {asked : MigrateArguments}

theorem endsEarly_of_crash
    (crash : Crash)
    (crashes : ∀ isTrial,
      runMigrate tree environment { asked with isTrial } = .error crash) :
    EndsEarly tree environment asked :=
  ⟨.error crash, crashes, fun _ impossible => by cases impossible⟩

theorem endsEarly_of_ending
    (ending : Ending)
    (ends : ∀ isTrial,
      runMigrate tree environment { asked with isTrial } = .ok ending)
    (sameTree : ending.tree = tree)
    (noReports : ending.reports = []) :
    EndsEarly tree environment asked := by
  refine ⟨.ok ending, ends, fun other isEnding => ?_⟩
  rw [← Except.ok.inj isEnding]
  exact ⟨sameTree, noReports⟩

end Early

/-- Either a migration ends before it comes to any file, or it ends with the
reports on the files that it finds. -/
theorem runMigrate_cases
    (tree : FileTree)
    (environment : List (String × String))
    (asked : MigrateArguments) :
    EndsEarly tree environment asked ∨
      ∃ settings options files,
        Finds tree environment asked settings options files ∧
        ∀ isTrial, ∃ reports after,
          Batch.migrateFiles (hostFor settings environment) options
            ⟨!isTrial, asked.backup⟩ tree files = (reports, after) ∧
          runMigrate tree environment { asked with isTrial } =
            .ok
              { exitCode := if Batch.Reports.hasFailures reports then 1 else 0
                lines := [Batch.Reports.summary reports isTrial]
                needsAttention := Batch.Reports.needAttention reports
                reports
                tree := after } := by
  cases settingsFound : settingsFor tree environment [] with
  | error crash =>
    refine .inl (endsEarly_of_crash crash fun isTrial => ?_)
    rw [runMigrate, settingsFound]
    rfl
  | ok settings =>
    by_cases noLevel : (!asked.verbose &&
        (Log.threshold? settings.logLevel).isNone) = true
    · refine .inl (endsEarly_of_crash (.unknownLevel settings.logLevel)
        fun isTrial => ?_)
      rw [runMigrate, settingsFound]
      simp only [bind, Except.bind, if_pos noLevel]
      rfl
    cases badQuote : asked.quoteStyle.filter fun style =>
        (QuoteStyle.ofName? style).isNone with
    | some style =>
      refine .inl (endsEarly_of_ending
        { exitCode := 2, lines := [badQuoteMessage style], tree }
        (fun isTrial => ?_) rfl rfl)
      rw [runMigrate, settingsFound]
      simp only [bind, Except.bind, if_neg noLevel, badQuote]
      rfl
    | none =>
      -- whether it is a trial has no part in the options
      have sameOptions (isTrial : Bool) :
          optionsFor settings { asked with isTrial } =
            optionsFor settings asked :=
        rfl
      cases areOptions : optionsFor settings asked with
      | error crash =>
        refine .inl (endsEarly_of_crash crash fun isTrial => ?_)
        rw [runMigrate, settingsFound]
        simp only [bind, Except.bind, if_neg noLevel, badQuote, sameOptions,
          areOptions]
      | ok options =>
        cases areFiles : Search.expand tree
            (asked.paths.map fun path => (Path.ofString path).toString)
            (if asked.patterns.isEmpty then settings.patterns else asked.patterns)
            Search.standardExcludes with
        | error missing =>
          left
          by_cases absent : ∃ path, missing = .file (.noPath path)
          · obtain ⟨path, rfl⟩ := absent
            refine endsEarly_of_ending
              { exitCode := 2, lines := [(FileError.noPath path).message], tree }
              (fun isTrial => ?_) rfl rfl
            rw [runMigrate, settingsFound]
            simp only [bind, Except.bind, if_neg noLevel, badQuote, sameOptions,
              areOptions, areFiles]
            rfl
          · refine endsEarly_of_crash (.search missing) fun isTrial => ?_
            rw [runMigrate, settingsFound]
            simp only [bind, Except.bind, if_neg noLevel, badQuote, sameOptions,
              areOptions, areFiles]
            split
            · rename_i path isAbsent
              exact absurd ⟨path, Except.error.inj isAbsent⟩ absent
            · rename_i error isError
              rw [Except.error.inj isError]
              rfl
            all_goals cases ‹Except.error _ = Except.ok _›
        | ok files =>
          cases files with
          | nil =>
            refine .inl (endsEarly_of_ending
              { exitCode := 0, lines := [noFilesMessage], tree }
              (fun isTrial => ?_) rfl rfl)
            rw [runMigrate, settingsFound]
            simp only [bind, Except.bind, if_neg noLevel, badQuote, sameOptions,
              areOptions, areFiles]
            rfl
          | cons file rest =>
            refine .inr ⟨settings, options, file :: rest,
              ⟨settingsFound, areOptions, areFiles⟩, fun isTrial =>
                ⟨_, _, rfl, ?_⟩⟩
            rw [runMigrate, settingsFound]
            simp only [bind, Except.bind, if_neg noLevel, badQuote, sameOptions,
              areOptions, areFiles]
            rfl

/-- A trial ends as a run that writes does: with the same counts and exit code,
and with the same reports but for what was written. -/
structure EndsAsTrial
    (tree : FileTree)
    (trial real : Ending) : Prop where
  tree : trial.tree = tree
  exitCode : trial.exitCode = real.exitCode
  reports : trial.reports = real.reports.map FileReport.unwritten
  counts : ∀ status, (trial.reports.having status).length =
    (real.reports.having status).length
  needsAttention : trial.needsAttention = real.needsAttention
  lines : trial.lines = real.lines ∨
    trial.lines = [real.reports.summary true] ∧
      real.lines = [real.reports.summary false]

/-- A migration as a trial, and as a run that writes. -/
inductive RunsAsTrial
    (tree : FileTree) : Except Crash Ending → Except Crash Ending → Prop
  | crash (crash : Crash) : RunsAsTrial tree (.error crash) (.error crash)
  | ending {trial real : Ending} (alike : EndsAsTrial tree trial real) :
    RunsAsTrial tree (.ok trial) (.ok real)

theorem hasFailures_unwritten
    (reports : Reports) :
    Reports.hasFailures (reports.map FileReport.unwritten) =
      reports.hasFailures := by
  unfold Reports.hasFailures Reports.having
  rw [List.filter_map, List.isEmpty_map]
  rfl

theorem needAttention_unwritten
    (reports : Reports) :
    Reports.needAttention (reports.map FileReport.unwritten) =
      reports.needAttention := by
  have sameDiagnostics :
      Reports.diagnostics (reports.map FileReport.unwritten) =
        reports.diagnostics := by
    unfold Reports.diagnostics
    rw [List.flatMap_map]
    rfl
  rw [Reports.needAttention, Reports.needAttention, sameDiagnostics,
    hasFailures_unwritten]

theorem summary_unwritten
    (reports : Reports)
    (isTrial : Bool) :
    Reports.summary (reports.map FileReport.unwritten) isTrial =
      reports.summary isTrial := by
  simp only [Reports.summary, having_unwritten, List.length_map]

/-- The program migrates the files that it finds as one worker does. -/
theorem migrateFiles_eq_migrateEach
    {settings : Config.Settings}
    {environment : List (String × String)}
    {tree : FileTree}
    {options : Options}
    (seesNoFile : ∀ other,
      Command.prettify (hostFor settings environment other) options.formatter =
        Command.prettify (hostFor settings environment tree) options.formatter)
    (writing : Writing)
    (files : List String) :
    Batch.migrateFiles (hostFor settings environment) options writing tree files =
      Task.migrateEach
        ⟨fun _ => {}, hostFor settings environment tree, options, writing⟩
        tree files := by
  rw [Task.migrateEach_eq_migrateFiles (fun _ => rfl)]
  exact migrateFiles_of_convert
    (fun other path source =>
      Migration.convert_of_prettify (seesNoFile other) path source)
    writing tree files

/-- Among files that do not disturb each other, a trial of the program ends as a
run that writes does. -/
theorem runsAsTrial_of_undisturbed
    {tree : FileTree}
    {environment : List (String × String)}
    {asked : MigrateArguments}
    (undisturbed : Undisturbed tree environment asked) :
    RunsAsTrial tree
      (runMigrate tree environment { asked with isTrial := true })
      (runMigrate tree environment { asked with isTrial := false }) := by
  rcases runMigrate_cases tree environment asked with
    ⟨early, endsEarly, untouched⟩ | ⟨settings, options, files, finds, ends⟩
  · rw [endsEarly, endsEarly]
    cases early with
    | error crash => exact .crash crash
    | ok ending =>
      obtain ⟨sameTree, noReports⟩ := untouched ending rfl
      refine .ending
        { tree := sameTree, exitCode := rfl, counts := fun _ => rfl
          needsAttention := rfl, lines := .inl rfl, reports := ?_ }
      rw [noReports, List.map_nil]
  · obtain ⟨apart, seesNoFile, stores⟩ :=
      undisturbed settings options files finds
    obtain ⟨trialReports, trialTree, trialMigrates, trialEnds⟩ := ends true
    obtain ⟨reports, after, migrates, realEnds⟩ := ends false
    rw [migrateFiles_eq_migrateEach seesNoFile] at trialMigrates migrates
    let task : Task :=
      ⟨fun _ => {}, hostFor settings environment tree, options, {}⟩
    have sameTree : trialTree = tree :=
      (congrArg Prod.snd trialMigrates).symm.trans
        (tree_migrateEach task asked.backup tree files)
    have sameReports : trialReports = reports.map FileReport.unwritten :=
      calc
        trialReports = ((task.to false asked.backup).migrateEach tree files).1 :=
          (congrArg Prod.fst trialMigrates).symm
        _ = files.map fun path =>
            ((task.to false asked.backup).migrate tree path).1 :=
          reports_migrateEach apart
        _ = (files.map fun path =>
            ((task.to true asked.backup).migrate tree path).1).map
              FileReport.unwritten :=
          map_migrate_trial asked.backup asked.backup stores
        _ = ((task.to true asked.backup).migrateEach tree files).1.map
            FileReport.unwritten := by
          rw [reports_migrateEach apart]
        _ = reports.map FileReport.unwritten :=
          congrArg (·.1.map FileReport.unwritten) migrates
    rw [trialEnds, realEnds]
    exact .ending
      { tree := sameTree
        exitCode := by rw [sameReports, hasFailures_unwritten]
        reports := sameReports
        counts := fun status => by rw [sameReports, having_unwritten]
        needsAttention := by rw [sameReports, needAttention_unwritten]
        lines := .inr ⟨by rw [sameReports, summary_unwritten], rfl⟩ }

/-- A trial of a batch changes no file.  If the files of the batch are apart and
can be stored, then it reports what the batch that stores them reports, however
many workers take part in either, and the program counts the same and ends with
the same exit code. -/
theorem trial_alike
    {task : Task}
    {tree : FileTree}
    {paths : List String}
    {backup : Bool}
    (apart : AllApart tree paths)
    (stores : ∀ path ∈ paths, Stores task tree backup path)
    (keep : Bool)
    (workers trialWorkers : Int) :
    (∀ n pool,
      (task.to false keep).Runs trialWorkers (.start tree paths) n pool →
        pool.tree = tree) ∧
      (∃ reports,
        ComesTo (task.to true backup) workers tree paths reports ∧
        ComesTo (task.to false keep) trialWorkers tree paths
          (reports.map FileReport.unwritten)) ∧
      ∀ environment asked, Undisturbed tree environment asked →
        RunsAsTrial tree
          (runMigrate tree environment { asked with isTrial := true })
          (runMigrate tree environment { asked with isTrial := false }) := by
  refine ⟨fun n pool runs => (IsIdle.runs runs).tree,
    ⟨paths.map fun path => ((task.to true backup).migrate tree path).1,
      comesTo_of_apart (task.to true backup) workers apart, ?_⟩,
    fun environment asked => runsAsTrial_of_undisturbed⟩
  rw [← map_migrate_trial keep backup stores]
  exact comesTo_of_apart (task.to false keep) trialWorkers apart

/-- Two files, to be copied and written. -/
def askedForTwo : MigrateArguments where
  paths := ["a.js", "b.js"]
  backup := true

theorem allApart_twoFiles :
    AllApart twoFiles ["a.js", "b.js"] := by
  decide +kernel

theorem stores_twoFiles
    {task : Task}
    (noFaults : ∀ path, task.faultsOf path = {}) :
    ∀ path ∈ ["a.js", "b.js"], Stores task twoFiles true path := by
  have first : twoFiles.item? ["a.js"] = some (.file (Utf8.encode
      "storiesOf('A', module).add('s', f);\n".toList)) :=
    rfl
  have second : twoFiles.item? ["b.js"] =
      some (.file (Utf8.encode "f();\n".toList)) :=
    rfl
  intro path isPath
  rcases List.mem_pair.1 isPath with rfl | rfl
  · refine stores_of_target? (noFaults _) ?_ first ?_ ?_ nofun
    · decide +kernel
    · decide +kernel
    · unfold HasNoNull
      decide +kernel
  · refine stores_of_target? (noFaults _) ?_ second ?_ ?_ nofun
    · decide +kernel
    · decide +kernel
    · unfold HasNoNull
      decide +kernel

theorem undisturbed_twoFiles :
    Undisturbed twoFiles [] askedForTwo := by
  have checked : ((settingsFor twoFiles [] []).toOption.any fun settings =>
      (optionsFor settings askedForTwo).toOption.any fun options =>
        decide (options.formatter = []) &&
          (Search.expand twoFiles
            (askedForTwo.paths.map fun path => (Path.ofString path).toString)
            (if askedForTwo.patterns.isEmpty then settings.patterns
              else askedForTwo.patterns)
            Search.standardExcludes).toOption.any fun files =>
              decide (files = ["a.js", "b.js"])) = true := by
    decide +kernel
  intro settings options files finds
  rw [any_toOption] at checked
  obtain ⟨foundSettings, areSettings, checked⟩ := checked
  obtain rfl := Except.ok.inj (finds.areSettings.symm.trans areSettings)
  rw [any_toOption] at checked
  obtain ⟨foundOptions, areOptions, checked⟩ := checked
  obtain rfl := Except.ok.inj (finds.areOptions.symm.trans areOptions)
  rw [Bool.and_eq_true, decide_eq_true_eq, any_toOption] at checked
  obtain ⟨noFormatter, foundFiles, areFiles, checked⟩ := checked
  obtain rfl := Except.ok.inj (finds.areFiles.symm.trans areFiles)
  obtain rfl := of_decide_eq_true checked
  refine ⟨allApart_twoFiles, fun other => ?_, stores_twoFiles fun _ => rfl⟩
  rw [noFormatter]
  rfl

theorem trial_of_twoFiles :
    AllApart twoFiles ["a.js", "b.js"] ∧
      (∀ path ∈ ["a.js", "b.js"], Stores writingTask twoFiles true path) ∧
      (∃ reports,
        ComesTo (writingTask.to true true) 2 twoFiles ["a.js", "b.js"] reports ∧
        ComesTo (writingTask.to false false) 3 twoFiles ["a.js", "b.js"]
          (reports.map FileReport.unwritten)) ∧
      RunsAsTrial twoFiles
        (runMigrate twoFiles [] { askedForTwo with isTrial := true })
        (runMigrate twoFiles [] { askedForTwo with isTrial := false }) := by
  have stores : ∀ path ∈ ["a.js", "b.js"],
      Stores writingTask twoFiles true path :=
    stores_twoFiles fun _ => rfl
  obtain ⟨-, sameReports, sameEnding⟩ :=
    trial_alike allApart_twoFiles stores false 2 3
  exact ⟨allApart_twoFiles, stores, sameReports,
    sameEnding [] askedForTwo undisturbed_twoFiles⟩

end CommandLine
end StoryMigration
