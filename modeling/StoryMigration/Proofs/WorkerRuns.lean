import Mathlib.Data.Set.List
import StoryMigration.Proofs.LocalSteps

/-!
# Runs of the workers of a batch

Workers that share files which are apart from each other do not disturb each
other.  At every moment of a run, what a file would come to if its worker went
on alone is what it would have come to alone from the start, and this is what
the batch comes to in the end.
-/

namespace StoryMigration
namespace Batch

open FileTree Fallible

variable {task : Task} {workers : Int} {tree S T : FileTree} {path : String}
  {stage : Stage}

/-! ## What a file comes to -/

namespace Task

/-- Without faults, files are migrated as by one worker alone. -/
theorem migrateEach_eq_migrateFiles
    (noFaults : ∀ path, task.faultsOf path = {})
    (tree : FileTree)
    (paths : List String) :
    task.migrateEach tree paths =
      migrateFiles (fun _ => task.host) task.options task.writing tree
        paths := by
  induction paths generalizing tree with
  | nil => rfl
  | cons path rest restHypothesis =>
    rw [migrateEach, migrateFiles]
    simp only [migrate, noFaults, restHypothesis, migrateFile]

/-- The report on a file, and the tree behind it, once its code was stored or
could not be stored. -/
def concluded
    (report : FileReport)
    (stored : Except String Unit × FileTree) : FileReport × FileTree :=
  match stored.1 with
  | .error reason => (report.failed reason, stored.2)
  | .ok _ => ({ report with written := true }, stored.2)

/-- What a file comes to if its worker goes on alone. -/
def settle
    (task : Task)
    (path : String)
    (tree : FileTree) : Stage → FileReport × FileTree
  | .waiting => task.migrate tree path
  | .reading => task.migrate tree path
  | .copying report code =>
    concluded report (store (task.faultsOf path) tree path code true)
  | .writing report code =>
    concluded report (store (task.faultsOf path) tree path code false)
  | .done report => (report, tree)

/-- What a file comes to does not change when it is read. -/
theorem settle_afterReading
    (task : Task)
    (tree : FileTree)
    (path : String) :
    task.settle path tree (task.afterReading tree path) =
      task.migrate tree path := by
  unfold migrate migrateFileUnder afterReading
  cases struck (task.faultsOf path).read
      ((tree.read path).mapError (·.report)) with
  | error reason => rfl
  | ok source =>
    simp only
    cases struck (task.faultsOf path).convert
        ((Migration.convert task.host task.options path source).mapError
          (·.report)) with
    | error reason => rfl
    | ok outcome =>
      simp only
      split
      · rfl
      · cases (task.faultsOf path).compare with
        | some reason => rfl
        | none =>
          cases task.writing.write with
          | false => rfl
          | true => cases task.writing.backup <;> rfl

/-- A step of its worker does not change what a file comes to. -/
theorem settle_advance
    (task : Task)
    (path : String)
    (tree : FileTree)
    (stage : Stage) :
    task.settle path (task.advance path tree stage).2
        (task.advance path tree stage).1 =
      task.settle path tree stage := by
  cases stage with
  | waiting => rfl
  | reading => exact task.settle_afterReading tree path
  | done report => rfl
  | writing report code =>
    simp only [advance, settle, store, Bool.false_eq_true, if_false, concluded]
    cases (attempt (task.faultsOf path).write tree
      (tree.write path (Text.ofString code))).1 <;> rfl
  | copying report code =>
    simp only [advance, settle, store, if_true, concluded]
    cases (attempt (task.faultsOf path).backup tree (tree.backup path)).1 <;>
      rfl

/-! ## A file and its places -/

/-- A file that is to be stored is in a directory. -/
def IsReady
    (tree : FileTree)
    (path : String) : Stage → Prop
  | .copying _ _ => (tree.target? (Path.ofString path)).isSome = true
  | .writing _ _ => (tree.target? (Path.ofString path)).isSome = true
  | _ => True

/-- A file that was read is either done with, or it is in a directory and to be
stored. -/
theorem afterReading_cases
    (task : Task)
    (tree : FileTree)
    (path : String) :
    (∃ report, task.afterReading tree path = .done report) ∨
      (tree.target? (Path.ofString path)).isSome = true ∧
        ∃ report code, task.afterReading tree path = .copying report code ∨
          task.afterReading tree path = .writing report code := by
  unfold afterReading
  split
  · exact .inl ⟨_, rfl⟩
  · rename_i source unstruck
    have read := mapError_eq_ok.1 (eq_ok_of_struck unstruck)
    obtain ⟨place, bytes, leads, isFile⟩ := exists_file_of_read read
    obtain ⟨target, aims⟩ := exists_target?_of_file
      (find?_eq_some_iff.2 ⟨place, leads, isFile⟩)
    have isSome : (tree.target? (Path.ofString path)).isSome = true := by
      rw [aims, Option.isSome_some]
    split
    · exact .inl ⟨_, rfl⟩
    · simp only
      split
      · exact .inl ⟨_, rfl⟩
      · cases (task.faultsOf path).compare with
        | some reason => exact .inl ⟨_, rfl⟩
        | none =>
          cases task.writing.write with
          | false => exact .inl ⟨_, rfl⟩
          | true =>
            cases task.writing.backup with
            | false => exact .inr ⟨isSome, _, _, .inr rfl⟩
            | true => exact .inr ⟨isSome, _, _, .inl rfl⟩

theorem isReady_advance
    (task : Task)
    {tree : FileTree}
    (ready : IsReady tree path stage) :
    IsReady tree path (task.advance path tree stage).1 := by
  cases stage with
  | waiting => trivial
  | reading =>
    simp only [advance]
    rcases task.afterReading_cases tree path with
      ⟨report, isDone⟩ | ⟨isSome, report, code, isCopying | isWriting⟩
    · rw [isDone]
      trivial
    · rw [isCopying]
      exact isSome
    · rw [isWriting]
      exact isSome
  | done report => trivial
  | writing report code =>
    simp only [advance]
    cases (attempt (task.faultsOf path).write tree
      (tree.write path (Text.ofString code))).1 <;> trivial
  | copying report code =>
    simp only [advance]
    cases (attempt (task.faultsOf path).backup tree (tree.backup path)).1 with
    | error reason => trivial
    | ok value => exact ready

/-- Whether a file is ready depends on the directories only. -/
theorem isReady_of_alike
    (alike : Alike ∅ S T)
    (ready : IsReady S path stage) :
    IsReady T path stage := by
  have aims
      (isSome : (S.target? (Path.ofString path)).isSome = true) :
      (T.target? (Path.ofString path)).isSome = true := by
    obtain ⟨target, aims⟩ := Option.isSome_iff_exists.1 isSome
    rw [alike.target? aims, Option.isSome_some]
  cases stage with
  | copying report code => exact aims ready
  | writing report code => exact aims ready
  | waiting => trivial
  | reading => trivial
  | done report => trivial

/-! ## What is done with a file is local to it -/

theorem isLocal_write
    (task : Task)
    (code : String)
    (isSome : (tree.target? (Path.ofString path)).isSome = true) :
    IsLocal tree (footprint tree path) fun T =>
      attempt (task.faultsOf path).write T
        (T.write path (Text.ofString code)) := by
  obtain ⟨target, aims⟩ := Option.isSome_iff_exists.1 isSome
  refine isLocal_attempt _ fun S T isBase alike => ?_
  exact sameChange_write (isBase.target? aims) alike
    (target_mem_footprint aims) _

theorem isLocal_backup
    (task : Task)
    (isSome : (tree.target? (Path.ofString path)).isSome = true) :
    IsLocal tree (footprint tree path) fun T =>
      attempt (task.faultsOf path).backup T (T.backup path) := by
  obtain ⟨target, aims⟩ := Option.isSome_iff_exists.1 isSome
  refine isLocal_attempt _ fun S T isBase alike => ?_
  exact sameChange_backup (isBase.target? aims) alike
    (target_mem_footprint aims) (copy_mem_footprint aims)

theorem isLocal_afterReading
    (task : Task)
    (tree : FileTree)
    (path : String) :
    IsLocal tree (footprint tree path) fun T =>
      (task.afterReading T path, T) := by
  refine isLocal_result fun S T isBase alike => ?_
  rw [footprint_of_alike isBase] at alike
  unfold afterReading
  rw [read_of_alike alike]

/-- A step of a worker is local to its file. -/
theorem isLocal_advance
    (task : Task)
    (ready : IsReady tree path stage) :
    IsLocal tree (footprint tree path) fun T =>
      task.advance path T stage := by
  cases stage with
  | waiting => exact isLocal_result fun _ _ _ _ => rfl
  | reading => exact task.isLocal_afterReading tree path
  | copying report code =>
    exact (task.isLocal_backup ready).map (Stage.afterCopying report code)
  | writing report code =>
    exact (task.isLocal_write code ready).map (Stage.afterWriting report)
  | done report => exact isLocal_result fun _ _ _ _ => rfl

/-- A worker at a file has fewer steps left behind each of them. -/
theorem stepsLeft_advance
    (task : Task)
    (path : String)
    (tree : FileTree)
    (unfinished : stage.report? = none) :
    (task.advance path tree stage).1.stepsLeft < stage.stepsLeft := by
  cases stage with
  | waiting => exact Nat.lt_succ_self 3
  | reading =>
    simp only [advance]
    rcases task.afterReading_cases tree path with
      ⟨report, isDone⟩ | ⟨-, report, code, isCopying | isWriting⟩
    · rw [isDone]
      exact Nat.zero_lt_succ 2
    · rw [isCopying]
      exact Nat.lt_succ_self 2
    · rw [isWriting]
      exact Nat.lt_succ_of_lt (Nat.lt_succ_self 1)
  | copying report code =>
    simp only [advance]
    cases (attempt (task.faultsOf path).backup tree (tree.backup path)).1 with
    | error reason => exact Nat.zero_lt_succ 1
    | ok value => exact Nat.lt_succ_self 1
  | writing report code =>
    simp only [advance]
    cases (attempt (task.faultsOf path).write tree
      (tree.write path (Text.ofString code))).1 <;> exact Nat.zero_lt_succ 0
  | done report => cases unfinished

/-- What a file comes to is local to it. -/
theorem isLocal_settle
    (task : Task)
    (ready : IsReady tree path stage) :
    IsLocal tree (footprint tree path) fun T =>
      task.settle path T stage := by
  induction left : stage.stepsLeft using Nat.strong_induction_on
    generalizing stage with
  | _ left leftHypothesis =>
    subst left
    cases reported : stage.report? with
    | some report =>
      cases stage with
      | done report => exact isLocal_result fun _ _ _ _ => rfl
      | _ => cases reported
    | none =>
      simp only [← task.settle_advance path _ stage]
      refine (task.isLocal_advance ready).bind
        (fun next => IsReady tree path next ∧
          next.stepsLeft < stage.stepsLeft)
        (fun T isBase => ⟨?_, task.stepsLeft_advance path T reported⟩)
        fun next possible => leftHypothesis _ possible.2 possible.1 rfl
      exact isReady_of_alike isBase.symm
        (task.isReady_advance (isReady_of_alike isBase ready))

end Task

/-! ## Files that are apart -/

/-- Two paths do not aim at the same place, nor one of them at the place of the
other's backup. -/
def Apart
    (tree : FileTree)
    (path other : String) : Prop :=
  ∀ place ∈ tree.target? (Path.ofString path),
    ∀ otherPlace ∈ tree.target? (Path.ofString other),
      place ≠ otherPlace ∧ place ≠ copyPlace otherPlace ∧
        copyPlace place ≠ otherPlace

/-- Of some paths, any two are apart. -/
def AllApart
    (tree : FileTree)
    (paths : List String) : Prop :=
  paths.Pairwise (Apart tree)

theorem ne_root_of_target?
    {path : Path}
    {place : Place}
    (aims : tree.target? path = some place) :
    place ≠ [] := by
  obtain ⟨-, -, directory, -, -, rfl⟩ := target?_eq_some_iff.1 aims
  exact List.concat_ne_nil _ _

/-- Paths that are apart have no place in common. -/
theorem Apart.not_mem_footprint
    {other : String}
    {place : Place}
    (apart : Apart tree path other)
    (isOwn : place ∈ footprint tree path) :
    place ∉ footprint tree other := by
  obtain ⟨target, aims, isPlace⟩ := isOwn
  rintro ⟨otherTarget, otherAims, isOther⟩
  obtain ⟨places, copied, copies⟩ := apart target aims otherTarget otherAims
  rcases isPlace with rfl | rfl
  · rcases isOther with same | same
    · exact places same
    · exact copied same
  · rcases isOther with same | same
    · exact copies same
    · exact places (copyPlace_injective (ne_root_of_target? aims)
        (ne_root_of_target? otherAims) same)

/-! ## What holds at every moment -/

/-- A file comes to what it would have come to alone in the first tree. -/
structure ComesToItsOwn
    (task : Task)
    (tree T : FileTree)
    (path : String)
    (stage : Stage) : Prop where
  ready : Task.IsReady tree path stage
  report : (task.settle path T stage).1 = (task.migrate tree path).1
  places : Alike (footprint tree path)
    (task.settle path T stage).2 (task.migrate tree path).2

/-- What changes elsewhere does not change what a file comes to. -/
theorem ComesToItsOwn.elsewhere
    (own : ComesToItsOwn task tree S path stage)
    (isBase : Alike ∅ tree S)
    (alike : Alike (footprint tree path) S T) :
    ComesToItsOwn task tree T path stage where
  ready := own.ready
  report := ((task.isLocal_settle own.ready).result S T isBase alike).symm.trans
    own.report
  places := ((task.isLocal_settle own.ready).inside S T isBase alike).symm.trans
    own.places

/-- Every file of a pool comes to what it would have come to alone, and nothing
else has changed. -/
structure IsOnCourse
    (task : Task)
    (tree : FileTree)
    (paths : List String)
    (pool : Pool) : Prop where
  names : pool.files.map Prod.fst = paths
  files : ∀ file ∈ pool.files,
    ComesToItsOwn task tree pool.tree file.1 file.2
  others : Alike {place | ∀ path ∈ paths, place ∉ footprint tree path}
    tree pool.tree

theorem isOnCourse_start
    (task : Task)
    (tree : FileTree)
    (paths : List String) :
    IsOnCourse task tree paths (.start tree paths) := by
  refine ⟨?_, fun file isFile => ?_, .refl _ _⟩
  · rw [Pool.start, List.map_map]
    exact List.map_id _
  · obtain ⟨path, -, rfl⟩ := List.mem_map.1 isFile
    exact ⟨trivial, rfl, .refl _ _⟩

/-- A change to the places of one file that keeps what it comes to keeps the
pool on course. -/
theorem IsOnCourse.change
    {paths : List String}
    {front back : List (String × Stage)}
    {next : Stage}
    (onCourse : IsOnCourse task tree paths
      ⟨S, front ++ (path, stage) :: back⟩)
    (apart : AllApart tree paths)
    (ready : Task.IsReady tree path next)
    (settles : task.settle path T next = task.settle path S stage)
    (changes : Alike (footprint tree path)ᶜ S T) :
    IsOnCourse task tree paths ⟨T, front ++ (path, next) :: back⟩ := by
  obtain ⟨names, files, others⟩ := onCourse
  simp only [List.map_append, List.map_cons] at names
  have own : ComesToItsOwn task tree S path stage :=
    files (path, stage) List.mem_append_cons_self
  have elsewhere
      {file : String × Stage}
      (isFile : file ∈ front ++ (path, stage) :: back)
      (away : ∀ place ∈ footprint tree file.1, place ∉ footprint tree path) :
      ComesToItsOwn task tree T file.1 file.2 :=
    (files file isFile).elsewhere others.directories
      (changes.mono away)
  rw [AllApart, ← names, List.pairwise_append, List.pairwise_cons] at apart
  obtain ⟨-, ⟨behind, -⟩, before⟩ := apart
  refine ⟨by simpa using names, fun file isFile => ?_, others.trans ?_⟩
  · rcases List.mem_append.1 isFile with inFront | inBack
    · exact elsewhere (List.mem_append_left _ inFront)
        fun _ isOther => (before _ (List.mem_map_of_mem inFront) path
          List.mem_cons_self).not_mem_footprint isOther
    · rcases List.mem_cons.1 inBack with rfl | inBack
      · exact ⟨ready, settles ▸ own.report, settles ▸ own.places⟩
      · exact elsewhere
          (List.mem_append_right _ (List.mem_cons_of_mem _ inBack))
          fun _ isOther isOwn => (behind _
            (List.mem_map_of_mem inBack)).not_mem_footprint isOwn isOther
  · refine changes.mono fun place isOther => isOther path ?_
    rw [← names]
    exact List.mem_append_cons_self

/-- A step of a worker keeps the pool on course. -/
theorem IsOnCourse.step
    {paths : List String}
    {pool next : Pool}
    (onCourse : IsOnCourse task tree paths pool)
    (apart : AllApart tree paths)
    (step : task.Step workers pool next) :
    IsOnCourse task tree paths next := by
  cases step with
  | take first free =>
    exact onCourse.change apart trivial rfl (.refl _ _)
  | @work T front back path stage underWay =>
    have isBase : Alike ∅ tree T := onCourse.others.directories
    have ready : Task.IsReady tree path stage :=
      (onCourse.files (path, stage) List.mem_append_cons_self).ready
    refine onCourse.change apart ?_ (task.settle_advance path T stage)
      ((task.isLocal_advance ready).outside T isBase)
    exact Task.isReady_of_alike isBase.symm
      (task.isReady_advance (Task.isReady_of_alike isBase ready))

theorem IsOnCourse.runs
    {paths : List String}
    {first last : Pool}
    {n : Nat}
    (onCourse : IsOnCourse task tree paths first)
    (apart : AllApart tree paths)
    (runs : task.Runs workers first n last) :
    IsOnCourse task tree paths last := by
  induction runs with
  | nothing => exact onCourse
  | further before step beforeHypothesis =>
    exact beforeHypothesis.step apart step

/-! ## The end of a run -/

theorem report?_eq_some_iff
    {report : FileReport} :
    stage.report? = some report ↔ stage = .done report := by
  cases stage <;> simp [Stage.report?]

/-- A pool has its reports once every file has one. -/
theorem reports?_eq_some_iff
    {pool : Pool}
    {reports : Reports} :
    pool.reports? = some reports ↔
      pool.files.map (fun file => file.2) = reports.map .done := by
  obtain ⟨tree, files⟩ := pool
  simp only [Pool.reports?]
  induction files generalizing reports with
  | nil => cases reports <;> simp
  | cons file files filesHypothesis =>
    simp only [List.mapM_cons, Option.bind_eq_bind, Option.bind_eq_some_iff,
      report?_eq_some_iff, filesHypothesis, Option.pure_def,
      Option.some.injEq, List.map_cons]
    constructor
    · rintro ⟨report, isDone, reports, rest, rfl⟩
      rw [isDone, rest, List.map_cons]
    · intro same
      obtain ⟨report, reports, rfl, isDone, rest⟩ :=
        List.map_eq_cons_iff.1 same.symm
      exact ⟨report, isDone.symm, reports, rest.symm, rfl⟩

/-- In a pool that is done and on course, every file has the report that it has
alone. -/
theorem IsOnCourse.reports_eq
    {paths : List String}
    {pool : Pool}
    {reports : Reports}
    (onCourse : IsOnCourse task tree paths pool)
    (reported : pool.reports? = some reports) :
    reports = paths.map fun path => (task.migrate tree path).1 := by
  obtain ⟨T, files⟩ := pool
  rw [reports?_eq_some_iff] at reported
  obtain ⟨rfl, own, -⟩ := onCourse
  simp only at own reported
  induction files generalizing reports with
  | nil =>
    rw [List.map_nil, eq_comm, List.map_eq_nil_iff] at reported
    rw [reported]
    rfl
  | cons file files filesHypothesis =>
    obtain ⟨report, reports, rfl, isDone, rest⟩ :=
      List.map_eq_cons_iff.1 reported.symm
    rw [List.forall_mem_cons] at own
    have isDone : file.2 = .done report := isDone.symm
    have reportEq := own.1.report
    rw [isDone] at reportEq
    rw [filesHypothesis rest.symm own.2]
    exact congrArg (· :: _) reportEq

/-- In a pool that is done and on course, every file is as it is alone. -/
theorem IsOnCourse.alike
    {paths : List String}
    {pool : Pool}
    {reports : Reports}
    (onCourse : IsOnCourse task tree paths pool)
    (reported : pool.reports? = some reports)
    (isPath : path ∈ paths) :
    Alike (footprint tree path) pool.tree (task.migrate tree path).2 := by
  rw [reports?_eq_some_iff] at reported
  rw [← onCourse.names] at isPath
  obtain ⟨⟨path, stage⟩, isFile, rfl⟩ := List.mem_map.1 isPath
  have isStage : stage ∈ pool.files.map (fun file => file.2) :=
    List.mem_map_of_mem isFile
  rw [reported] at isStage
  obtain ⟨report, -, rfl⟩ := List.mem_map.1 isStage
  exact (onCourse.files _ isFile).places

/-- Pools that are done and on course have the same tree. -/
theorem IsOnCourse.item?_eq
    {paths : List String}
    {pool other : Pool}
    {reports otherReports : Reports}
    (onCourse : IsOnCourse task tree paths pool)
    (otherOnCourse : IsOnCourse task tree paths other)
    (reported : pool.reports? = some reports)
    (otherReported : other.reports? = some otherReports)
    (place : Place) :
    pool.tree.item? place = other.tree.item? place := by
  by_cases isPlace : ∃ path ∈ paths, place ∈ footprint tree path
  · obtain ⟨path, isPath, isPlace⟩ := isPlace
    exact ((onCourse.alike reported isPath).2 place isPlace).trans
      ((otherOnCourse.alike otherReported isPath).2 place isPlace).symm
  · have isOther : ∀ path ∈ paths, place ∉ footprint tree path :=
      fun path isPath isPlace' => isPlace ⟨path, isPath, isPlace'⟩
    exact (onCourse.others.2 place isOther).symm.trans
      (otherOnCourse.others.2 place isOther)

/-- Migrating the files that wait one after another keeps a pool on course. -/
theorem IsOnCourse.migrateEach
    {paths rest : List String}
    (front : List (String × Stage))
    (onCourse : IsOnCourse task tree paths
      ⟨S, front ++ rest.map fun path => (path, .waiting)⟩)
    (apart : AllApart tree paths) :
    ∃ files,
      IsOnCourse task tree paths ⟨(task.migrateEach S rest).2, front ++ files⟩ ∧
        files.map (fun file => file.2) =
          (task.migrateEach S rest).1.map .done := by
  induction rest generalizing S front with
  | nil => exact ⟨[], onCourse, rfl⟩
  | cons path rest restHypothesis =>
    have isBase : Alike ∅ tree S := onCourse.others.directories
    have next : IsOnCourse task tree paths
        ⟨(task.migrate S path).2, (front ++
          [(path, .done (task.migrate S path).1)]) ++
            rest.map fun path => (path, .waiting)⟩ := by
      rw [List.append_assoc]
      have ready : Task.IsReady tree path .waiting := trivial
      exact onCourse.change apart trivial rfl
        ((task.isLocal_settle ready).outside S isBase)
    obtain ⟨files, onCourseThen, reported⟩ := restHypothesis _ next
    refine ⟨(path, .done (task.migrate S path).1) :: files, ?_, ?_⟩
    · rw [List.append_assoc] at onCourseThen
      exact onCourseThen
    · rw [List.map_cons, reported]
      rfl

/-! ## How long a run is -/

/-- The steps that are left for one file, and those for the others. -/
theorem exists_stepsLeft_eq
    (front back : List (String × Stage))
    (path : String) :
    ∃ others, ∀ (tree : FileTree) (stage : Stage),
      Pool.stepsLeft ⟨tree, front ++ (path, stage) :: back⟩ =
        stage.stepsLeft + others := by
  induction front with
  | nil => exact ⟨_, fun _ _ => rfl⟩
  | cons first front frontHypothesis =>
    obtain ⟨others, left⟩ := frontHypothesis
    refine ⟨first.2.stepsLeft + others, fun tree stage => ?_⟩
    have split : Pool.stepsLeft ⟨tree, first :: front ++ (path, stage) :: back⟩ =
        first.2.stepsLeft +
          Pool.stepsLeft ⟨tree, front ++ (path, stage) :: back⟩ := rfl
    rw [split, left]
    omega

theorem stepsLeft_of_step
    {pool next : Pool}
    (step : task.Step workers pool next) :
    next.stepsLeft < pool.stepsLeft := by
  cases step with
  | @take tree front back path first free =>
    obtain ⟨others, left⟩ := exists_stepsLeft_eq front back path
    rw [left, left]
    simp only [Stage.stepsLeft]
    omega
  | @work T front back path stage underWay =>
    have unfinished : stage.report? = none := by
      cases stage <;> first | rfl | cases underWay
    have fewer := task.stepsLeft_advance path T unfinished
    obtain ⟨others, left⟩ := exists_stepsLeft_eq front back path
    rw [left, left]
    omega

theorem length_add_stepsLeft_of_runs
    {first last : Pool}
    {n : Nat}
    (runs : task.Runs workers first n last) :
    n + last.stepsLeft ≤ first.stepsLeft := by
  induction runs with
  | nothing => rw [Nat.zero_add]
  | further before step beforeHypothesis =>
    have fewer := stepsLeft_of_step step
    omega

theorem stepsLeft_start
    (tree : FileTree)
    (paths : List String) :
    (Pool.start tree paths).stepsLeft = 4 * paths.length := by
  induction paths with
  | nil => rfl
  | cons path paths pathsHypothesis =>
    have split : (Pool.start tree (path :: paths)).stepsLeft =
        4 + (Pool.start tree paths).stepsLeft := rfl
    rw [split, pathsHypothesis, List.length_cons]
    omega

/-- As long as a file has no report, some worker has a step to take. -/
theorem exists_step
    (task : Task)
    (workers : Int)
    {pool : Pool}
    (unfinished : pool.reports? = none) :
    ∃ next, task.Step workers pool next := by
  obtain ⟨T, files⟩ := pool
  by_cases anyBusy : ∃ file ∈ files, file.2.isUnderWay = true
  · obtain ⟨⟨path, stage⟩, isFile, underWay⟩ := anyBusy
    obtain ⟨front, back, rfl⟩ := List.append_of_mem isFile
    exact ⟨_, .work underWay⟩
  · have noneBusy : Pool.busy ⟨T, files⟩ = 0 :=
      List.countP_eq_zero.2 fun file isFile underWay =>
        anyBusy ⟨file, isFile, underWay⟩
    cases waits : files.find? fun file => file.2.isWaiting with
    | some file =>
      obtain ⟨path, stage⟩ := file
      obtain ⟨isWaiting, front, back, rfl, first⟩ :=
        List.find?_eq_some_iff_append.1 waits
      cases stage with
      | waiting =>
        refine ⟨_, .take (fun file isFile => ?_) ?_⟩
        · simpa using first file isFile
        · rw [noneBusy]
          omega
      | _ => cases isWaiting
    | none =>
      have done : files.map (fun file => file.2) ∈
          Set.range (List.map Stage.done) := by
        rw [Set.range_list_map]
        intro stage isStage
        obtain ⟨⟨path, stage⟩, isFile, rfl⟩ := List.mem_map.1 isStage
        have notWaiting := List.find?_eq_none.1 waits _ isFile
        have notBusy : stage.isUnderWay ≠ true := fun underWay =>
          anyBusy ⟨_, isFile, underWay⟩
        cases stage with
        | done report => exact ⟨report, rfl⟩
        | waiting => exact absurd rfl notWaiting
        | _ => exact absurd rfl notBusy
      obtain ⟨reports, same⟩ := done
      rw [reports?_eq_some_iff.2 same.symm] at unfinished
      cases unfinished

/-- Every batch can be run to its end. -/
theorem exists_runs
    (task : Task)
    (workers : Int)
    (pool : Pool) :
    ∃ n last reports, task.Runs workers pool n last ∧
      last.reports? = some reports := by
  have further
      {n : Nat}
      {between : Pool}
      (runs : task.Runs workers pool n between) :
      ∃ n last reports, task.Runs workers pool n last ∧
        last.reports? = some reports := by
    induction left : between.stepsLeft using Nat.strong_induction_on
      generalizing n between with
    | _ left leftHypothesis =>
      subst left
      cases reported : between.reports? with
      | some reports => exact ⟨n, between, reports, runs, reported⟩
      | none =>
        obtain ⟨next, step⟩ := exists_step task workers reported
        exact leftHypothesis _ (stepsLeft_of_step step) (.further runs step) rfl
  exact further .nothing

/-- Workers that share files which are apart take at most four steps for each
file, and as long as a file has no report, some step can be taken.  Once they are
done, every file has the report that it has alone, in the order of the paths,
and the tree is the one behind migrating the files one after another. -/
theorem workers_as_one_after_another
    {paths : List String}
    {n : Nat}
    {pool : Pool}
    (apart : AllApart tree paths)
    (runs : task.Runs workers (.start tree paths) n pool) :
    n ≤ 4 * paths.length ∧
      (pool.reports? = none → ∃ next, task.Step workers pool next) ∧
      ∀ reports, pool.reports? = some reports →
        reports = paths.map (fun path => (task.migrate tree path).1) ∧
          reports = (task.migrateEach tree paths).1 ∧
          ∀ place, pool.tree.item? place =
            (task.migrateEach tree paths).2.item? place := by
  have bound := length_add_stepsLeft_of_runs runs
  rw [stepsLeft_start] at bound
  refine ⟨by omega, exists_step task workers, fun reports reported => ?_⟩
  have started := isOnCourse_start task tree paths
  have onCourse := started.runs apart runs
  obtain ⟨files, eachOnCourse, eachDone⟩ :=
    IsOnCourse.migrateEach [] started apart
  have eachReported :
      Pool.reports? ⟨(task.migrateEach tree paths).2, files⟩ =
        some (task.migrateEach tree paths).1 :=
    reports?_eq_some_iff.2 eachDone
  refine ⟨onCourse.reports_eq reported, ?_,
    onCourse.item?_eq eachOnCourse reported eachReported⟩
  rw [onCourse.reports_eq reported, eachOnCourse.reports_eq eachReported]

/-- A file with a chain of stories beside a file without one. -/
def twoFiles : FileTree :=
  ⟨[(["a.js"], .file (Utf8.ofString "storiesOf('A', module).add('s', f);\n")),
    (["b.js"], .file (Utf8.ofString "f();\n"))]⟩

/-- Files are to be written behind their backups. -/
def writingTask : Task where
  host := fun _ => .error .noProgram
  options := {}
  writing := ⟨true, true⟩

theorem twoFiles_as_one_after_another :
    AllApart twoFiles ["a.js", "b.js"] ∧
      ∃ n pool, n ≤ 8 ∧
        writingTask.Runs 2 (.start twoFiles ["a.js", "b.js"]) n pool ∧
        pool.reports? = some [(writingTask.migrate twoFiles "a.js").1,
          (writingTask.migrate twoFiles "b.js").1] ∧
        ∀ place, pool.tree.item? place =
          (writingTask.migrateEach twoFiles ["a.js", "b.js"]).2.item? place := by
  have aims : twoFiles.target? (Path.ofString "a.js") = some ["a.js"] := by
    decide +kernel
  have otherAims : twoFiles.target? (Path.ofString "b.js") = some ["b.js"] := by
    decide +kernel
  have apart : AllApart twoFiles ["a.js", "b.js"] := by
    refine List.pairwise_pair.2 fun place isPlace other isOther => ?_
    obtain rfl := Option.some.inj (aims.symm.trans isPlace)
    obtain rfl := Option.some.inj (otherAims.symm.trans isOther)
    decide +kernel
  obtain ⟨n, pool, reports, runs, reported⟩ :=
    exists_runs writingTask 2 (.start twoFiles ["a.js", "b.js"])
  obtain ⟨bound, -, ends⟩ := workers_as_one_after_another apart runs
  obtain ⟨rfl, -, sameTree⟩ := ends reports reported
  exact ⟨apart, n, pool, bound, runs, reported, sameTree⟩

end Batch
end StoryMigration
