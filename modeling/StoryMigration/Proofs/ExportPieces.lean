import StoryMigration.Proofs.TextPieces

/-!
# Generated code in pieces

The code that a chain is written as consists of the default export, an export
for each story, and an assignment to a story's export if the story has members
of its own.  In front of each statement stand its comments and the line ends
that set it apart; all of that is kept when the line ends are written in the
style of the module.
-/

namespace StoryMigration

open Syntax

/-- A statement of generated code and what stands in front of it. -/
structure CodePiece where
  front : String
  text : String

/-- The code of some pieces, one after another. -/
def CodePiece.join : List CodePiece → String
  | [] => ""
  | piece :: pieces => piece.front ++ piece.text ++ join pieces

theorem CodePiece.join_append
    (front back : List CodePiece) :
    join (front ++ back) = join front ++ join back := by
  induction front with
  | nil => rw [List.nil_append, join, String.empty_append]
  | cons piece front frontHypothesis =>
    rw [List.cons_append, join, join, frontHypothesis, ← String.append_assoc]

/-! ## Statements below their comments -/

namespace Layout

/-- Comments, each on lines of its own. -/
def commentLines : List String → String
  | [] => ""
  | comment :: comments => comment ++ "\n" ++ commentLines comments

/-- A statement is written behind its comments as it is without them. -/
theorem statement_eq
    (text : String)
    (comments : List String) :
    statement text comments = commentLines comments ++ statement text [] := by
  unfold statement
  generalize (if text.toList.getLast? == some ';' then text
    else text ++ ";") = ended
  induction comments with
  | nil => rw [commentLines, String.empty_append]
  | cons comment comments commentsHypothesis =>
    rw [List.cons_append, commentLines, String.append_assoc,
      ← commentsHypothesis]
    exact String.intercalate_cons_of_ne_nil (by simp)

/-- A statement without comments ends with a semicolon. -/
theorem getLast?_statement
    (text : String) :
    (statement text []).toList.getLast? = some ';' := by
  unfold statement
  rw [List.nil_append, String.intercalate_singleton]
  split
  · rename_i ends
    exact beq_iff_eq.1 ends
  · rw [String.toList_append, List.getLast?_append]
    rfl

/-- A statement starts with the first character of its text. -/
theorem toList_statement
    {text : String}
    {c : Char}
    {rest : List Char}
    (first : text.toList = c :: rest) :
    ∃ more, (statement text []).toList = c :: more := by
  unfold statement
  rw [List.nil_append, String.intercalate_singleton]
  split
  · exact ⟨rest, first⟩
  · exact ⟨rest ++ ";".toList, by rw [String.toList_append, first]; rfl⟩

end Layout

namespace Story

variable (options : Options) (m : Module)

/-! ## The statements of a chain -/

/-- The default export below its comments. -/
def defaultPiece (metadata : Metadata) : CodePiece :=
  ⟨Layout.commentLines (metadata.comments.map m.text),
    defaultExport options m { metadata with comments := [] }⟩

/-- The export of a story below the comments of the story. -/
def exportPiece (story : NamedEntry) : CodePiece :=
  ⟨"\n\n" ++ Layout.commentLines (story.entry.comments.map m.text),
    Layout.statement ("export const " ++ story.identifier ++ " = " ++
      options.layout.node m story.entry.render 0) []⟩

/-- The assignment of what belongs to a story alone. -/
def annotationPiece (story : NamedEntry) : CodePiece :=
  ⟨"\n",
    Layout.statement (story.identifier ++ "." ++ options.storyProperty ++
      " = " ++ options.layout.object
        ((ownMembers options m story).map fun text => ⟨text, false⟩) 0) []⟩

/-- The statements of a story. -/
def storyPieces (story : NamedEntry) : List CodePiece :=
  exportPiece options m story ::
    if (ownMembers options m story).isEmpty then []
    else [annotationPiece options m story]

/-- The statements of a chain that is written as exports. -/
def codePieces
    (metadata : Metadata)
    (stories : List NamedEntry) : List CodePiece :=
  defaultPiece options m metadata :: stories.flatMap (storyPieces options m)

/-- Comments make no difference to what is below them in a default export. -/
theorem exists_defaultExport_eq
    (metadata : Metadata) :
    ∃ value, ∀ comments,
      defaultExport options m { metadata with comments := comments } =
        Layout.statement ("export default " ++ value)
          (comments.map m.text) := by
  simp only [defaultExport]
  exact ⟨_, fun _ => rfl⟩

theorem exists_text_defaultPiece
    (metadata : Metadata) :
    ∃ value, (defaultPiece options m metadata).text =
      Layout.statement ("export default " ++ value) [] := by
  obtain ⟨value, exportEq⟩ := exists_defaultExport_eq options m metadata
  refine ⟨value, ?_⟩
  rw [defaultPiece, exportEq [], List.map_nil]

theorem defaultExport_eq
    (metadata : Metadata) :
    defaultExport options m metadata =
      CodePiece.join [defaultPiece options m metadata] := by
  obtain ⟨value, exportEq⟩ := exists_defaultExport_eq options m metadata
  rw [CodePiece.join, CodePiece.join, String.append_empty, defaultPiece,
    exportEq [], exportEq metadata.comments]
  exact Layout.statement_eq _ _

theorem storyExport_eq
    (story : NamedEntry) :
    "\n\n" ++ storyExport options m story =
      CodePiece.join (storyPieces options m story) := by
  unfold storyExport storyPieces exportPiece annotationPiece
  simp only
  rw [Layout.statement_eq _ (story.entry.comments.map m.text)]
  cases ownMembers options m story with
  | nil =>
    simp only [List.isEmpty_nil, if_true, CodePiece.join, String.append_empty,
      String.append_assoc]
  | cons member members =>
    simp only [List.isEmpty_cons, Bool.false_eq_true, if_false, CodePiece.join,
      String.append_empty, String.append_assoc]

/-- The generated code is its statements, one after another. -/
theorem assembled_eq
    (metadata : Metadata)
    (stories : List NamedEntry) :
    assembled options m metadata stories =
      CodePiece.join (codePieces options m metadata stories) := by
  have behind : ∀ first : String,
      "\n\n".intercalate (first :: stories.map (storyExport options m)) =
        first ++ CodePiece.join (stories.flatMap (storyPieces options m)) := by
    induction stories with
    | nil =>
      intro first
      exact String.intercalate_singleton.trans (String.append_empty).symm
    | cons story stories storiesHypothesis =>
      intro first
      rw [List.map_cons, List.flatMap_cons, CodePiece.join_append,
        String.intercalate_cons_of_ne_nil (by simp), storiesHypothesis,
        ← storyExport_eq, String.append_assoc, String.append_assoc]
  unfold assembled
  rw [behind, defaultExport_eq, codePieces]
  simp only [CodePiece.join, String.append_empty]

end Story

/-! ## Line ends in the style of a module -/

namespace Newline

theorem joined_append
    {front : List Char}
    (back : List Char)
    (apart : front.getLast? ≠ some '\r') :
    joined (front ++ back) = joined front ++ joined back := by
  fun_induction joined front with
  | case1 rest restHypothesis =>
    have restApart : rest.getLast? ≠ some '\r' := by
      intro last
      rw [List.getLast?_cons, List.getLast?_cons, last] at apart
      exact apart rfl
    rw [List.cons_append, List.cons_append, joined, restHypothesis restApart,
      List.cons_append]
  | case2 c rest different restHypothesis =>
    have restApart : rest.getLast? ≠ some '\r' := by
      intro last
      rw [List.getLast?_cons, last] at apart
      exact apart rfl
    -- no pair forms where the two texts meet, since the first does not end in
    -- a carriage return
    have stillDifferent (tail : List Char)
        (isReturn : c = '\r')
        (isFeed : rest ++ back = '\n' :: tail) : False := by
      cases rest with
      | nil =>
        rw [isReturn] at apart
        exact apart rfl
      | cons next rest =>
        rw [List.cons_append, List.cons.injEq] at isFeed
        exact different rest isReturn (by rw [isFeed.1])
    rw [List.cons_append, joined.eq_2 _ _ stillDifferent,
      restHypothesis restApart, List.cons_append]
  | case3 => rfl

theorem spread_append
    (newline : Newline)
    {front : String}
    (back : String)
    (apart : front.toList.getLast? ≠ some '\r') :
    newline.spread (front ++ back) =
      newline.spread front ++ newline.spread back := by
  unfold spread
  rw [String.toList_append, joined_append _ apart, List.flatMap_append,
    String.ofList_append]

theorem getLast?_joined
    (text : List Char) :
    (joined text).getLast? = text.getLast? := by
  fun_induction joined text with
  | case1 rest restHypothesis =>
    rw [List.getLast?_cons, List.getLast?_cons, List.getLast?_cons,
      restHypothesis]
    rfl
  | case2 c rest different restHypothesis =>
    rw [List.getLast?_cons, List.getLast?_cons, restHypothesis]
  | case3 => rfl

/-- A semicolon stays at the end of a text. -/
theorem stops_spread
    (newline : Newline)
    {text : String}
    (last : text.toList.getLast? = some ';') :
    Piece.Stops (Utf8.ofString (newline.spread text)) := by
  rw [← getLast?_joined] at last
  obtain ⟨front, joinedEq⟩ := List.getLast?_eq_some_iff.1 last
  refine ⟨0x3b, ?_, rfl⟩
  unfold spread
  rw [Utf8.ofString, String.toList_ofList, joinedEq, List.flatMap_append,
    Utf8.encode_append]
  exact List.getLast?_concat

/-- A keyword stays at the start of a text. -/
theorem starts_spread
    (newline : Newline)
    {text : String}
    {rest : List Char}
    (first : text.toList = 'e' :: rest) :
    Piece.Starts (Utf8.ofString (newline.spread text)) := by
  refine ⟨0x65, ?_, rfl⟩
  unfold spread
  rw [Utf8.ofString, String.toList_ofList, first]
  rfl

end Newline

namespace CodePiece

/-- A piece as it is written into a module: in front of the statement stand
whole lines, and the statement ends with a semicolon. -/
structure IsLaidOut (piece : CodePiece) : Prop where
  front : piece.front.toList.getLast? ≠ some '\r'
  text : piece.text.toList.getLast? = some ';'

/-- The bytes of a piece with line ends in the style of a module. -/
def written (newline : Newline) (piece : CodePiece) : Piece :=
  ⟨Utf8.ofString (newline.spread piece.front),
    Utf8.ofString (newline.spread piece.text)⟩

theorem text_written
    (newline : Newline)
    (piece : CodePiece) :
    (written newline piece).text =
      Utf8.ofString (newline.spread piece.text) := by
  rw [written]

/-- Pieces keep their places when line ends are written in the style of a
module. -/
theorem layOut_written
    (newline : Newline)
    {pieces : List CodePiece}
    (laidOut : ∀ piece ∈ pieces, piece.IsLaidOut) :
    Piece.layOut (pieces.map (written newline)) =
      Utf8.ofString (newline.spread (join pieces)) := by
  induction pieces with
  | nil => rfl
  | cons piece pieces piecesHypothesis =>
    obtain ⟨front, text⟩ := laidOut piece List.mem_cons_self
    have rest := piecesHypothesis fun other member =>
      laidOut other (List.mem_cons_of_mem _ member)
    have textApart : piece.text.toList.getLast? ≠ some '\r' := by
      rw [text]
      decide
    rw [List.map_cons, Piece.layOut_cons, rest, join, String.append_assoc,
      newline.spread_append _ front, newline.spread_append _ textApart]
    simp only [written, Utf8.ofString, String.toList_append,
      Utf8.encode_append, List.append_assoc]

end CodePiece

namespace Story

variable (options : Options) (m : Module)

theorem commentLines_apart
    (front : String)
    (comments : List String)
    (apart : front.toList.getLast? ≠ some '\r') :
    (front ++ Layout.commentLines comments).toList.getLast? ≠ some '\r' := by
  induction comments generalizing front with
  | nil =>
    rw [Layout.commentLines, String.append_empty]
    exact apart
  | cons comment comments commentsHypothesis =>
    rw [Layout.commentLines, ← String.append_assoc]
    apply commentsHypothesis
    have last : "\n".toList.getLast? = some '\n' := rfl
    rw [← String.append_assoc, String.toList_append, List.getLast?_append,
      last, Option.some_or]
    decide

/-- Every statement of the generated code stands behind whole lines and ends
with a semicolon. -/
theorem isLaidOut_codePieces
    {metadata : Metadata}
    {stories : List NamedEntry}
    {piece : CodePiece}
    (member : piece ∈ codePieces options m metadata stories) :
    piece.IsLaidOut := by
  rcases List.mem_cons.1 member with rfl | inStory
  · obtain ⟨value, textEq⟩ := exists_text_defaultPiece options m metadata
    have apart := commentLines_apart "" (metadata.comments.map m.text)
      (by decide)
    rw [String.empty_append] at apart
    exact ⟨apart, by rw [textEq, Layout.getLast?_statement]⟩
  · obtain ⟨story, -, isPiece⟩ := List.mem_flatMap.1 inStory
    rcases List.mem_cons.1 isPiece with rfl | isPiece
    · unfold exportPiece
      exact ⟨commentLines_apart _ _ (by decide), Layout.getLast?_statement _⟩
    · split at isPiece
      · contradiction
      · rw [List.mem_singleton.1 isPiece]
        unfold annotationPiece
        refine ⟨?_, Layout.getLast?_statement _⟩
        show "\n".toList.getLast? ≠ some '\r'
        decide

/-- The default export starts with a letter. -/
theorem toList_defaultPiece
    (metadata : Metadata) :
    ∃ rest, (defaultPiece options m metadata).text.toList = 'e' :: rest := by
  obtain ⟨value, textEq⟩ := exists_text_defaultPiece options m metadata
  have starts : ("export default " ++ value).toList =
      'e' :: ("xport default ".toList ++ value.toList) := by
    rw [String.toList_append]
    rfl
  rw [textEq]
  exact Layout.toList_statement starts

end Story

end StoryMigration
