import StoryMigration.Data.Json
import StoryMigration.Text.LetterCase

/-!
# Log records

Records of events with a level and named values, as lines for people or as JSON. Records below the level
of a log are left out. Values bound to a log stand in every record that does not have its own.
-/

namespace StoryMigration
namespace Log

/-- How grave an event is. -/
inductive Level where
  | debug
  | info
  | warning
  | error
  | critical
  deriving DecidableEq, Repr, Inhabited

namespace Level

/-- The name of a level. -/
def name : Level → String
  | debug => "debug"
  | info => "info"
  | warning => "warning"
  | error => "error"
  | critical => "critical"

/-- The weight of a level. -/
def weight : Level → Nat
  | debug => 10
  | info => 20
  | warning => 30
  | error => 40
  | critical => 50

/-- The level of a name. -/
def ofName? : String → Option Level
  | "debug" => some debug
  | "info" => some info
  | "warning" => some warning
  | "warn" => some warning
  | "error" => some error
  | "exception" => some error
  | "critical" => some critical
  | "fatal" => some critical
  | _ => none

end Level

/-- The least weight that a log keeps, by the name of a level in letters of either case. -/
def threshold? (name : String) : Option Nat :=
  match String.ofList (name.toList.flatMap upper) with
  | "NOTSET" => some 0
  | "DEBUG" => some 10
  | "INFO" => some 20
  | "WARN" => some 30
  | "WARNING" => some 30
  | "ERROR" => some 40
  | "FATAL" => some 50
  | "CRITICAL" => some 50
  | _ => none

/-- A log: how it is written, what is bound to it, and its lines so far. -/
structure Journal where
  threshold : Nat
  json : Bool
  bound : Fields := []
  /-- Lines in reverse. -/
  lines : List String := []
  deriving Repr, Inhabited

/-- The fields of a record, in the order in which they are written as JSON. -/
def recordFields (bound : Fields) (level : Level) (time event : String) (values : Fields) : Fields :=
  let own : Fields := (Fields.overlaid [] values).set "event" (.text event)
  let all : Fields := own ++ bound.filter fun field => !own.any (·.1 == field.1)
  (all.set "level" (.text level.name)).set "timestamp" (.text time)

/-- A value of a record in a line; texts stand in quotes only where they could be misread. -/
def plainValue : Value → String
  | .text s =>
    let risky := s.toList.any fun c =>
      c == ' ' || c == '\t' || c == '=' || c == '\r' || c == '\n' || c == '"' || c == '\''
    if risky then Quotation.of s else s
  | value => value.shown

/-- A text of at least some length, with spaces behind it. -/
def filled (width : Nat) (text : String) : String :=
  text ++ String.ofList (List.replicate (width - text.length) ' ')

/-- The width of the name of a level in a line, and of an event. -/
def widths : Nat × Nat := (9, 30)

/-- The names of what stands at the head of a line. -/
def headNames : List String := ["timestamp", "level", "event"]

/-- A record as a line. -/
def lineOf (fields : Fields) : String :=
  let text (name : String) : String :=
    match fields.find? name with
    | some (.text s) => s
    | _ => ""
  let others := fields.filter fun field => !headNames.contains field.1
  let sorted := others.mergeSort fun a b => decide (a.1 ≤ b.1)
  let head := text "timestamp" ++ " [" ++ filled widths.1 (text "level") ++ "] "
  let values := sorted.map fun field => field.1 ++ "=" ++ plainValue field.2
  let line := head ++ " ".intercalate (filled widths.2 (text "event") :: values)
  String.ofList (line.toList.reverse.dropWhile (· == ' ')).reverse

namespace Journal

/-- The journal with values bound. -/
def bind (journal : Journal) (values : Fields) : Journal :=
  { journal with bound := journal.bound.overlaid values }

/-- The journal with values no longer bound. -/
def unbind (journal : Journal) (names : List String) : Journal :=
  { journal with bound := journal.bound.filter fun field => !names.contains field.1 }

/-- The journal with a record, if it is grave enough. -/
def record (journal : Journal) (level : Level) (time event : String) (values : Fields) : Journal :=
  if level.weight < journal.threshold then journal
  else
    let fields := recordFields journal.bound level time event values
    let line := if journal.json then (Value.record fields).json else lineOf fields
    { journal with lines := line :: journal.lines }

/-- A journal that keeps records from a level on; the first record says how it is set up. -/
def start? (levelName : String) (json : Bool) (time : String) : Option Journal :=
  (threshold? levelName).map fun threshold =>
    record { threshold, json } .debug time "logging_configured"
      [("level", .text levelName), ("json_mode", .bool json)]

end Journal

end Log
end StoryMigration
