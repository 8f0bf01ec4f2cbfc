import StoryMigration.Diff.Alignment
import StoryMigration.Diff.Lines

/-!
# Unified differences

The difference of two texts, in hunks: changed lines with up to three lines that are kept before and
behind them. Texts that are the same have an empty difference.
-/

namespace StoryMigration
namespace Diff

/-- Kept lines around changed ones. -/
def context : Nat := 3

/-- Changed lines and what is kept around them. -/
structure Hunk where
  /-- Lines of the one text before the hunk. -/
  before : Nat
  /-- Lines of the other text before the hunk. -/
  after : Nat
  parts : List (Part String)
  deriving Repr

/-- Lines of the one text in a hunk. -/
def Hunk.beforeCount (hunk : Hunk) : Nat := (hunk.parts.flatMap (·.before)).length

/-- Lines of the other text in a hunk. -/
def Hunk.afterCount (hunk : Hunk) : Nat := (hunk.parts.flatMap (·.after)).length

/-- A hunk without any change is left out. -/
def Hunk.hasChange (hunk : Hunk) : Bool :=
  hunk.parts.any fun part =>
    match part with
    | .kept _ => false
    | .changed _ _ => true

/-- The hunks of the rest of an alignment, the first one of them begun. -/
def hunksFrom (hunk : Hunk) : List (Part String) → List Hunk
  | [] => [hunk]
  | .changed before after :: rest =>
    hunksFrom { hunk with parts := hunk.parts ++ [.changed before after] } rest
  | .kept lines :: rest =>
    let kept := fun lines => { hunk with parts := hunk.parts ++ [.kept lines] }
    if rest.isEmpty then [kept (lines.take context)]
    else if 2 * context < lines.length then
      let whole := kept (lines.take context)
      let skipped := lines.length - 2 * context
      whole :: hunksFrom
        ⟨hunk.before + whole.beforeCount + skipped, hunk.after + whole.afterCount + skipped,
          [.kept (lines.drop (lines.length - context))]⟩ rest
    else hunksFrom (kept lines) rest

/-- The hunks of an alignment. -/
def hunks (parts : List (Part String)) : List Hunk :=
  let all :=
    match parts with
    | .kept lines :: rest =>
      let skipped := lines.length - context
      hunksFrom ⟨skipped, skipped, [.kept (lines.drop skipped)]⟩ rest
    | parts => hunksFrom ⟨0, 0, []⟩ parts
  all.filter Hunk.hasChange

/-- The place of some lines: the number of the first one, and how many there are unless there is one.
No lines stand behind the line before them. -/
def rangeText (start count : Nat) : String :=
  if count = 1 then toString (start + 1)
  else toString (if count = 0 then start else start + 1) ++ "," ++ toString count

/-- A part of a hunk, every line behind a sign. -/
def partText : Part String → String
  | .kept lines => "".intercalate (lines.map (" " ++ ·))
  | .changed before after =>
    "".intercalate (before.map ("-" ++ ·) ++ after.map ("+" ++ ·))

/-- A hunk. -/
def hunkText (hunk : Hunk) : String :=
  "@@ -" ++ rangeText hunk.before hunk.beforeCount ++ " +"
    ++ rangeText hunk.after hunk.afterCount ++ " @@\n"
    ++ "".intercalate (hunk.parts.map partText)

/-- The difference of two texts of a file. -/
def unified (before after path : String) : String :=
  match hunks (alignment (linesOf before) (linesOf after)) with
  | [] => ""
  | hunks =>
    "--- a/" ++ path ++ "\n+++ b/" ++ path ++ "\n" ++ "".intercalate (hunks.map hunkText)

end Diff
end StoryMigration
