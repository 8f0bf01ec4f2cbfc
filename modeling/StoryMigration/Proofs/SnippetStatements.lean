import StoryMigration.Proofs.FreeNames
import StoryMigration.Proofs.SnippetReading

/-!
# Reading generated statements

The default export, the export of a story and the assignment to it are read as
statements wherever what is copied into them is read.
-/

namespace StoryMigration
namespace Syntax
namespace Reading

variable {α β : Type} {text before middle after : List Char} {word : String}

/-! ## Behind a word -/

theorem Meets.rest_behindWord
    (passes : Passes false before (word.toList ++ after))
    {cursor : Cursor}
    (restEq : cursor.rest = before) :
    (behindWord cursor word).rest = after := by
  show cursor.skip.rest.drop word.toList.length = after
  rw [passes cursor restEq, List.drop_left]

namespace Meets

variable (meets : Meets before word)
  (passes : Passes false before (word.toList ++ after))
include meets passes

/-- What is refused behind a word is refused behind reading it. -/
theorem anyWord_bind_refused
    {next : Node → Reading α}
    (kind : Kind)
    (refused : ∀ value, RefusedAt (next value) after) :
    RefusedAt (Reading.anyWord kind >>= next) before :=
  .behind (fun cursor restEq => ⟨_, (meets cursor restEq).anyWord_stopsAt kind,
    rest_behindWord passes restEq⟩) refused

theorem keyword_bind_refused
    {other : String}
    {kind : Kind}
    {next : Node → Reading α}
    (refused : ∀ value, RefusedAt (next value) after) :
    RefusedAt (Reading.keyword other kind >>= next) before :=
  .behind (fun cursor restEq =>
    ⟨_, (meets cursor restEq).keyword_stopsAt other kind,
      rest_behindWord passes restEq⟩) refused

theorem discard_bind_refused
    {reading : Reading Node}
    {next : Unit → Reading α}
    (stops : ∀ cursor, Faces cursor word →
      StopsAt reading cursor (behindWord cursor word))
    (refused : RefusedAt (next ()) after) :
    RefusedAt (discard reading >>= next) before :=
  .behind (fun cursor restEq =>
    ⟨_, (stops cursor (meets cursor restEq)).discard,
      rest_behindWord passes restEq⟩) fun _ => refused

/-- The word itself is read where it may be left out. -/
theorem maybe_keyword_bind_refused
    {kind : Kind}
    {next : Option Node → Reading α}
    (refused : ∀ value, RefusedAt (next value) after) :
    RefusedAt (maybe (Reading.keyword word kind) >>= next) before := by
  refine .behind (fun cursor restEq => ?_) refused
  have faces := meets cursor restEq
  have read : Reading.keyword word kind cursor =
      Reading.take kind word.toList.length cursor.skip := by
    rw [Reading.keyword, bind_apply, faces.nextWord]
    show (require (some word == some word) >>= fun _ => Reading.anyWord kind)
      cursor = _
    rw [beq_self_eq_true]
    exact faces.anyWord kind
  exact ⟨_, .of_eq (maybe_of_some read), rest_behindWord passes restEq⟩

end Meets

theorem RefusedAt.requireAhead_bind
    {reading : Reading β}
    {next : Reading α}
    (refused : RefusedAt reading before) :
    RefusedAt (do
      require (← ahead reading)
      next) before := by
  intro cursor restEq
  rw [Refuses, (refused cursor restEq).ahead_bind]
  rfl

/-- A word that stands at once. -/
theorem passes_wordHead
    (html : Bool)
    (isWord : Lexeme.IsWord word.toList) :
    Passes html (word.toList ++ after) (word.toList ++ after) := by
  have noBlanks : ([] : List Char).all isBlank = true := rfl
  exact passes_word html noBlanks isWord

theorem meets_wordHead
    (isWord : Lexeme.IsWord word.toList)
    (breaks : Lexeme.BreaksWord after) :
    Meets (word.toList ++ after) word :=
  meets_of_passes (passes_wordHead false isWord) isWord breaks

/-! ## Where a statement goes on -/

/-- A statement ends nowhere behind some characters. -/
def GoesOnAt (dialect : Dialect) (rest : List Char) : Prop :=
  ∀ cursor : Cursor, cursor.rest = rest → ∀ operator,
    cursor.statementEnd? dialect operator = none

theorem goesOnAt_of_ends
    {dialect : Dialect}
    {rest : List Char}
    (goesOn : ∀ operator,
      Terminator.ends dialect operator false rest = false)
    (noComment : commentLength? (rest.drop (rest.takeWhile isBlank).length) =
      none) :
    GoesOnAt dialect rest := by
  intro cursor restEq operator
  have noCommentHere : commentLength? cursor.skipBlanks.rest = none := by
    show commentLength? (cursor.rest.drop _) = none
    rw [restEq]
    exact noComment
  rw [Cursor.statementEnd?, Cursor.endUpTo, restEq, goesOn operator]
  simp only [noCommentHere]
  rfl

namespace GoesOnAt

variable {dialect : Dialect} {g : Grammar}
  (goesOn : GoesOnAt g.dialect before)
include goesOn

theorem stopsHere_refused :
    RefusedAt (do require (← g.stopsHere .tail)) before := by
  intro cursor restEq
  rw [Refuses, Grammar.stopsHere]
  simp only [Place.tail, if_true]
  rw [bind_apply, get_bind_apply, goesOn cursor restEq]
  rfl

theorem reads_goesOn :
    Reads text (g.goesOn .tail) before before := by
  intro cursor at_
  refine ⟨(), cursor, ?_, at_⟩
  rw [Grammar.goesOn, Grammar.stopsHere]
  simp only [Place.tail, if_true]
  rw [bind_apply, get_bind_apply, goesOn cursor at_.rest]
  rfl

end GoesOnAt

theorem reads_semicolon
    {dialect : Dialect}
    (operator : Bool)
    (rest : List Char) :
    Reads text (semicolon dialect operator) (';' :: rest) rest := by
  have goesOn : GoesOnAt dialect (';' :: rest) :=
    goesOnAt_of_ends (fun operator => by cases dialect <;> rfl) rfl
  refine .get_bind fun cursor at_ => ?_
  rw [goesOn cursor at_.rest operator]
  exact .map _ (Snippet.reads_sign_cons rfl (by decide) rest)

/-! ## Statements that start with a word -/

variable {g : Grammar} {rest : List Char}

/-- A statement is read by its first word if no colon makes that one a
label. -/
theorem reads_statementRule
    (passes : Passes true before (word.toList ++ rest))
    (isWord : Lexeme.IsWord word.toList)
    (breaks : Lexeme.BreaksWord rest)
    (noColon : RefusedAt (sign ":") rest)
    (reads : Reads text (g.wordStatement word) (word.toList ++ rest) after) :
    Reads text g.statementRule before after := by
  have meets := meets_wordHead isWord breaks
  have noLabel : RefusedAt (do
      discard (anyWord .token)
      discard (sign ":")) (word.toList ++ rest) :=
    meets.discard_bind_refused (passes_wordHead false isWord)
      (fun _ faces => faces.anyWord_stopsAt _) fun cursor restEq =>
        (noColon cursor restEq).discard
  refine .gap_bind passes (meets.nextWord_bind ?_)
  exact .orElse_of_refused noLabel.requireAhead_bind reads

/-- An export is read if what follows its first word is read. -/
theorem reads_wordStatement_export
    (breaks : Lexeme.BreaksWord rest)
    (goesOn : GoesOnAt g.dialect rest)
    (noImport : RefusedAt (keyword "import") rest)
    (reads : Reads text g.exportTail rest after) :
    Reads text (g.wordStatement "export") ("export".toList ++ rest) after := by
  have isWord : Lexeme.IsWord "export".toList := by decide
  have passes : Passes false ("export".toList ++ rest)
      ("export".toList ++ rest) :=
    passes_wordHead false isWord
  have meets := meets_wordHead isWord breaks
  have isExport : g.wordStatement "export" =
      ((do
        Reading.require !(← ahead do
          discard (Reading.keyword "export")
          Reading.require (← g.stopsHere .tail))
        (do
          let word ← Reading.keyword "export"
          let import_ ← g.whenTyped g.importAlias
          build .exportStatement [word, import_])
        <|> g.exportStatement)
      <|> g.expressionStatement) := rfl
  have noStop : RefusedAt (do
      discard (Reading.keyword "export")
      Reading.require (← g.stopsHere .tail)) ("export".toList ++ rest) :=
    meets.discard_bind_refused passes
      (fun _ faces => faces.keyword_stopsAt _ _) goesOn.stopsHere_refused
  have noAlias : RefusedAt (do
      let word ← Reading.keyword "export"
      let import_ ← g.whenTyped g.importAlias
      build .exportStatement [word, import_]) ("export".toList ++ rest) :=
    meets.keyword_bind_refused passes fun _ =>
      (RefusedAt.whenTyped g (noImport.bind _)).bind _
  have noDecorator : RefusedAt g.decorator ("export".toList ++ rest) :=
    (meets.sign_refused (by decide)).bind _
  have exported : Reads text g.exportStatement ("export".toList ++ rest)
      after :=
    .many_bind_of_refused noDecorator (.bind (meets.keyword passes) fun _ =>
      .bind reads fun _ => .build _ _)
  rw [isExport]
  refine .orElse (.ahead_bind_of_refused noStop ?_) _
  exact .bind (.pure ()) fun _ => .orElse_of_refused noAlias exported

/-- No declaration stands where an object does. -/
theorem declarations_refused
    (g : Grammar)
    (opens : MeetsMark before "\x7b") :
    RefusedAt (g.functionDeclaration true <|> g.classDeclaration true <|>
      g.whenTyped g.typedDeclaration) before := by
  have noDecorator : RefusedAt g.decorator before :=
    (opens.sign_refused (by decide)).bind _
  have noAsync : RefusedAt (do
      let async ← keyword "async"
      g.goesOn .tail
      pure async) before :=
    opens.keyword_refused.bind _
  refine .orElse ?_ (.orElse ?_ ?_)
  · exact noAsync.maybe_bind (opens.keyword_refused.bind _)
  · refine noDecorator.many_bind (.orElse ?_ ?_)
    · exact opens.keyword_refused.bind _
    · exact opens.keyword_refused.bind _
  · exact .whenTyped g (opens.nextWord_bind_refused fun _ _ => rfl)

/-- An object behind the word `default` is exported. -/
theorem reads_exportTail_default
    (meets : Meets before "default")
    (passes : Passes false before ("default".toList ++ rest))
    (opens : MeetsMark rest "\x7b")
    (value : Reads text (g.read (.expression .tail)) rest (';' :: after)) :
    Reads text g.exportTail before after := by
  refine .orElse (.bind (meets.keyword passes _) fun _ => ?_) _
  refine .orElse_of_refused ((declarations_refused g opens).bind _) ?_
  exact .bind value fun _ => .bind (reads_semicolon true after) fun _ => .pure _

/-! ## Declared names -/

theorem meetsMark_semicolon
    (after : List Char) :
    MeetsMark (';' :: after) ";" := by
  have lone : Snippet.isLone ';' = true := by decide
  exact Snippet.meetsMark_cons rfl lone after

section Constant

variable {name : String} {named equals : List Char}
  (free : IsFreeName name)
  (namedMeets : Meets named name)
  (namedPasses : Passes false named (name.toList ++ equals))
  (equalsMeets : MeetsMark equals "=")
  (equalsReads : Reads text (sign "=") equals rest)
  (value : Reads text (g.read (.expression .tail)) rest (';' :: after))
include free namedMeets namedPasses equalsMeets equalsReads value

/-- A free name with a value is read as a declarator. -/
theorem reads_declarator :
    Reads text (g.declarator .tail) named (';' :: after) := by
  have declared : Reads text g.declared named equals := by
    refine .orElse_of_refused ((namedMeets.sign_refused (by decide)).bind _)
      (.orElse_of_refused ((namedMeets.sign_refused (by decide)).bind _) ?_)
    exact namedMeets.wordExcept namedPasses (free.nameIn g.dialect) _
  have initializer : Reads text (g.initializer .tail) equals (';' :: after) :=
    .bind equalsReads fun _ => .bind value fun _ => .pure _
  have noSure : RefusedAt (do
      let mark ← sign "!"
      require (← ahead (sign ":"))
      pure mark : Reading Node) equals :=
    (equalsMeets.sign_refused (by decide)).bind _
  have noType (place : Place) :
      RefusedAt (g.typeAscription place) equals :=
    (equalsMeets.sign_refused (by decide)).bind _
  exact .bind declared fun _ => .bind (.typedOption_of_refused g noSure) fun _ =>
    .bind (.typedOption_of_refused g (noType _)) fun _ =>
      .bind initializer.maybe fun _ => .build _ _

/-- A constant with a free name is read as a declaration of variables. -/
theorem reads_variableDeclaration
    (meets : Meets before "const")
    (passes : Passes false before ("const".toList ++ named)) :
    Reads text g.variableDeclaration before after := by
  have declarator := reads_declarator free namedMeets namedPasses equalsMeets
    equalsReads value
  have noComma : RefusedAt (sign ",") (';' :: after) :=
    (meetsMark_semicolon after).sign_refused (by decide)
  have names : Reads text (commaSeparated (g.declarator .tail)) named
      (';' :: after) :=
    .bind declarator fun _ =>
      .many_bind_of_refused (noComma.bind _) (.pure _)
  have noVar : RefusedAt (keyword "var") before :=
    meets.keyword_refused (by decide)
  have declarators : Reads text (g.declarators .tail) before (';' :: after) := by
    refine .orElse_of_refused (noVar.bind _)
      (.orElse (.bind (.orElse (meets.keyword passes) _) fun _ => ?_) _)
    exact .bind names fun _ => .pure _
  exact .bind declarators fun _ => .bind (reads_semicolon _ after) fun _ =>
    .build _ _

/-- A constant with a free name is exported. -/
theorem reads_exportTail_const
    (meets : Meets before "const")
    (passes : Passes false before ("const".toList ++ named)) :
    Reads text g.exportTail before after := by
  have declared := reads_variableDeclaration free namedMeets namedPasses
    equalsMeets equalsReads value meets passes
  have noKeyword {other : String} {kind : Kind} (different : "const" ≠ other) :
      RefusedAt (keyword other kind) before :=
    meets.keyword_refused different kind
  have noSign {mark : String} (nonempty : mark.toList ≠ []) :
      RefusedAt (sign mark) before :=
    meets.sign_refused nonempty
  have noEnum : RefusedAt g.enumDeclaration before :=
    meets.maybe_keyword_bind_refused passes fun _ =>
      (namedMeets.keyword_refused (free.ne (by decide))).bind _
  have noTyped : RefusedAt (g.whenTyped g.typedDeclaration) before :=
    .whenTyped g (meets.nextWord_bind_refused noEnum)
  have declaration : Reads text (g.declaration false) before after :=
    .orElse_of_refused noTyped (.orElse declared _)
  have noClause : RefusedAt g.exportClause before :=
    (noSign (by decide)).bind _
  refine .orElse_of_refused ((noKeyword (by decide)).bind _)
    (.orElse_of_refused ((noSign (by decide)).bind _)
      (.orElse_of_refused ?_ (.orElse_of_refused ?_ ?_)))
  · exact .typedOption_bind g (noKeyword (by decide)) fun _ => noClause.bind _
  · exact .whenTyped g (.orElse ((noSign (by decide)).bind _)
      ((noKeyword (by decide)).bind _))
  · exact .bind declaration fun _ => .pure _

end Constant
end Reading
end Syntax

end StoryMigration
