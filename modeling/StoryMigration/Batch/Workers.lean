import StoryMigration.Batch.Run

/-!
# Workers of a batch

Several workers share the files of a batch. A worker that is free takes the first file that still
waits, reads and converts it, and then, if the source changed and that is asked for, copies the file to
its backup and writes it. Between two of its steps the other workers take theirs, in any order.
-/

namespace StoryMigration
namespace Batch

/-- What the workers of a batch do with a file. -/
structure Task where
  /-- The faults that strike the steps on a path. -/
  faultsOf : String → Faults := fun _ => {}
  /-- Where formatters run; they see no file. -/
  host : Command.Host
  options : Options
  writing : Writing

/-- What is to be done with a file next. -/
inductive Stage where
  | waiting
  | reading
  /-- The file changes into the code; it is to be copied first. -/
  | copying (report : FileReport) (code : String)
  | writing (report : FileReport) (code : String)
  | done (report : FileReport)

namespace Stage

/-- The report on a file that nothing more is done with. -/
def report? : Stage → Option FileReport
  | done report => some report
  | _ => none

/-- Whether no worker has taken a file yet. -/
def isWaiting : Stage → Bool
  | waiting => true
  | _ => false

/-- Whether a worker is at a file. -/
def isUnderWay : Stage → Bool
  | waiting => false
  | done _ => false
  | _ => true

/-- What is to be done with a file whose copy was made, or failed. -/
def afterCopying (report : FileReport) (code : String) : Except String Unit → Stage
  | .error reason => done (report.failed reason)
  | .ok _ => writing report code

/-- What is to be done with a file that was written, or could not be. -/
def afterWriting (report : FileReport) : Except String Unit → Stage
  | .error reason => done (report.failed reason)
  | .ok _ => done { report with written := true }

/-- At most so many steps are left. -/
def stepsLeft : Stage → Nat
  | waiting => 4
  | reading => 3
  | copying _ _ => 2
  | writing _ _ => 1
  | done _ => 0

end Stage

namespace Task

/-- Migrates one file: its report, and the tree behind it. -/
def migrate (task : Task) (tree : FileTree) (path : String) : FileReport × FileTree :=
  migrateFileUnder (task.faultsOf path) (fun _ => task.host) task.options task.writing tree path

/-- Migrates files one after another. -/
def migrateEach (task : Task) : FileTree → List String → Reports × FileTree
  | tree, [] => ([], tree)
  | tree, path :: rest =>
    let (report, tree) := task.migrate tree path
    let (reports, tree) := task.migrateEach tree rest
    (report :: reports, tree)

/-- What is to be done with a file that has been read. -/
def afterReading (task : Task) (tree : FileTree) (path : String) : Stage :=
  match struck (task.faultsOf path).read ((tree.read path).mapError (·.report)) with
  | .error reason => .done (FileReport.failed { path } reason)
  | .ok source =>
    match struck (task.faultsOf path).convert
        ((Migration.convert task.host task.options path source).mapError (·.report)) with
    | .error reason => .done (FileReport.failed { path } reason)
    | .ok outcome =>
      let report := reportOf path outcome
      if report.status != .converted then .done report
      else
        match (task.faultsOf path).compare with
        | some reason => .done (FileReport.failed { report with difference := none } reason)
        | none =>
          if task.writing.write then
            if task.writing.backup then .copying report outcome.code
            else .writing report outcome.code
          else .done report

/-- The next step of a worker at a file: what is to be done then, and the tree behind it. -/
def advance (task : Task) (path : String) (tree : FileTree) : Stage → Stage × FileTree
  | .waiting => (.reading, tree)
  | .reading => (task.afterReading tree path, tree)
  | .copying report code =>
    let copied := attempt (task.faultsOf path).backup tree (tree.backup path)
    (.afterCopying report code copied.1, copied.2)
  | .writing report code =>
    let written := attempt (task.faultsOf path).write tree (tree.write path (Text.ofString code))
    (.afterWriting report written.1, written.2)
  | .done report => (.done report, tree)

end Task

/-- The files of a batch with what is to be done with them, in the order in which they were given, and
the tree they are in. -/
structure Pool where
  tree : FileTree
  files : List (String × Stage)

namespace Pool

/-- A batch that nothing has been done for. -/
def start (tree : FileTree) (paths : List String) : Pool :=
  ⟨tree, paths.map fun path => (path, .waiting)⟩

/-- How many workers are at a file. -/
def busy (pool : Pool) : Nat := pool.files.countP fun file => file.2.isUnderWay

/-- The reports on the files, once nothing more is to be done with any of them. -/
def reports? (pool : Pool) : Option Reports := pool.files.mapM fun file => file.2.report?

/-- At most so many steps are left. -/
def stepsLeft (pool : Pool) : Nat :=
  pool.files.foldr (fun file steps => file.2.stepsLeft + steps) 0

end Pool

/-- One step of one worker. There is at least one worker, whatever number is asked for. -/
inductive Task.Step (task : Task) (workers : Int) : Pool → Pool → Prop
  | take {tree : FileTree} {front back : List (String × Stage)} {path : String}
      (first : ∀ file ∈ front, file.2.isWaiting = false)
      (free : (Pool.busy ⟨tree, front ++ (path, .waiting) :: back⟩ : Int) < max 1 workers) :
      task.Step workers ⟨tree, front ++ (path, .waiting) :: back⟩
        ⟨tree, front ++ (path, .reading) :: back⟩
  | work {tree : FileTree} {front back : List (String × Stage)} {path : String} {stage : Stage}
      (underWay : stage.isUnderWay = true) :
      task.Step workers ⟨tree, front ++ (path, stage) :: back⟩
        ⟨(task.advance path tree stage).2, front ++ (path, (task.advance path tree stage).1) :: back⟩

/-- So many steps lead from a pool to another one. -/
inductive Task.Runs (task : Task) (workers : Int) (first : Pool) : Nat → Pool → Prop
  | nothing : task.Runs workers first 0 first
  | further {n : Nat} {pool next : Pool} (before : task.Runs workers first n pool)
      (step : task.Step workers pool next) : task.Runs workers first (n + 1) next

end Batch
end StoryMigration
