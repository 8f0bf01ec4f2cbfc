import StoryMigration.Proofs.DefaultExport

/-!
# Reading what stands in a text

A place of a text is known by the characters that are left there.  A reading
reads from one place to another if it does so whatever was read before; words
and marks are read where they stand next, and everything else is refused
there.
-/

namespace StoryMigration
namespace Syntax

/-! ## Places of a text -/

namespace Cursor

/-- The cursor stands where some characters are left of a text. -/
structure At (text rest : List Char) (cursor : Cursor) : Prop where
  stands : cursor.StandsIn text
  rest : cursor.rest = rest

theorem At.leads
    {text before after : List Char}
    {cursor next : Cursor}
    (at_ : cursor.At text before)
    (leads : cursor.Leads next)
    (restEq : next.rest = after) :
    next.At text after :=
  ⟨at_.stands.leads leads, restEq⟩

/-- The cursor where some characters are left of a text, with nothing noted. -/
def standing (text rest : List Char) : Cursor :=
  ⟨rest, byteLength text - byteLength rest, []⟩

theorem At.eq_behind
    {text rest : List Char}
    {cursor : Cursor}
    (at_ : cursor.At text rest) :
    cursor = (standing text rest).behind cursor.remarks := by
  obtain ⟨⟨front, textEq, offsetEq⟩, rfl⟩ := at_
  obtain ⟨rest, offset, remarks⟩ := cursor
  simp only at textEq offsetEq
  rw [standing, textEq, byteLength_append, Nat.add_sub_cancel, ← offsetEq]
  rfl

/-- What is left behind blanks and comments depends on nothing but what is left
in front of them. -/
theorem rest_skip_congr
    {first second : Cursor}
    (html : Bool)
    (same : first.rest = second.rest) :
    (first.skip html).rest = (second.skip html).rest := by
  have upTo
      (count : Nat)
      {first second : Cursor}
      (same : first.rest = second.rest) :
      (first.skipUpTo html count).rest = (second.skipUpTo html count).rest := by
    induction count generalizing first second with
    | zero =>
      show first.rest.drop _ = second.rest.drop _
      rw [same]
    | succ count countHypothesis =>
      have here : first.skipBlanks.rest = second.skipBlanks.rest := by
        show first.rest.drop _ = second.rest.drop _
        rw [same]
      have passed
          (kind : Kind)
          (length : Nat) :
          (first.skipBlanks.pass kind length).rest =
            (second.skipBlanks.pass kind length).rest := by
        show first.skipBlanks.rest.drop _ = second.skipBlanks.rest.drop _
        rw [here]
      simp only [skipUpTo, here]
      split
      · exact countHypothesis (passed _ _)
      · split
        · exact countHypothesis (passed _ _)
        · exact here
  rw [Cursor.skip, Cursor.skip, same]
  exact upTo _ same

end Cursor

/-- Characters that are no blank and that no comment starts with. -/
def startsToken (c : Char) : Bool :=
  !isBlank c && c != '/' && c != '<' && c != '-'

theorem startsToken_of_unbroken
    {c : Char}
    (unbroken : Lexeme.isBreak c = false) :
    startsToken c = true := by
  unfold Lexeme.isBreak at unbroken
  simp only [Bool.or_eq_false_iff] at unbroken
  obtain ⟨⟨-, noBlank⟩, noMark⟩ := unbroken
  have other
      {d : Char}
      (isMark : "!\"#%&'()*+,-./:;<=>?@[\\]^`\x7b|\x7d~".toList.contains d =
        true) :
      c ≠ d := by
    rintro rfl
    rw [noMark] at isMark
    contradiction
  unfold startsToken
  simp only [noBlank, Bool.not_false, Bool.true_and, Bool.and_eq_true,
    bne_iff_ne]
  exact ⟨⟨other (by decide), other (by decide)⟩, other (by decide)⟩

namespace Reading

variable {α β : Type} {text before middle after : List Char}

/-- From one place of a text the reading reads to another one. -/
def Reads
    (text : List Char)
    (reading : Reading α)
    (before after : List Char) : Prop :=
  ∀ cursor, cursor.At text before →
    ∃ value next, reading cursor = some (value, next) ∧ next.At text after

/-- The reading fails wherever some characters are left. -/
def RefusedAt (reading : Reading α) (before : List Char) : Prop :=
  ∀ cursor, cursor.rest = before → Refuses reading cursor

/-- Behind blanks and comments, other characters are left. -/
def Passes (html : Bool) (before after : List Char) : Prop :=
  ∀ cursor : Cursor, cursor.rest = before → (cursor.skip html).rest = after

theorem passes_of_standing
    {html : Bool}
    (skips : ((Cursor.standing text before).skip html).rest = after) :
    Passes html before after := by
  intro cursor restEq
  rw [← skips]
  exact Cursor.rest_skip_congr html restEq

/-- Blanks in front of a token are passed over. -/
theorem passes_of_blanks
    {blanks token : List Char}
    (html : Bool)
    (isBlank : blanks.all Syntax.isBlank = true)
    (starts : token.head?.all startsToken = true) :
    Passes html (blanks ++ token) token := by
  intro cursor restEq
  cases token with
  | nil =>
    rw [Cursor.skip_of_blanks html restEq isBlank rfl rfl fun _ => rfl]
    show cursor.rest.drop _ = _
    rw [restEq, List.drop_left]
  | cons c token =>
    rw [List.head?_cons, Option.all_some] at starts
    unfold startsToken at starts
    simp only [Bool.and_eq_true, Bool.not_eq_true', bne_iff_ne, ne_eq]
      at starts
    obtain ⟨⟨⟨noBlank, noSlash⟩, noAngle⟩, noDash⟩ := starts
    have noComment : commentLength? (c :: token) = none := by
      unfold commentLength? lineCommentLength? blockCommentLength?
      split
      · rename_i same
        exact absurd (List.cons.inj same).1 noSlash
      · split
        · rename_i same
          exact absurd (List.cons.inj same).1 noSlash
        · rfl
    have noHtml : htmlCommentLength? (c :: token) = none := by
      unfold htmlCommentLength?
      split
      · rename_i same
        exact absurd (List.cons.inj same).1 noAngle
      · rename_i same
        exact absurd (List.cons.inj same).1 noDash
      · rfl
    rw [Cursor.skip_of_blanks html restEq isBlank
      (List.takeWhile_cons_of_neg (by simpa using noBlank)) noComment
      fun _ => noHtml]
    show cursor.rest.drop _ = _
    rw [restEq, List.drop_left]

namespace Reads

/-- A regular reading that reads from a place by itself does so whatever was
read before. -/
theorem of_standing
    {reading : Reading α}
    [regular : Regular reading]
    (read : (reading (Cursor.standing text before)).map (·.2.rest) =
      some after) :
    Reads text reading before after := by
  intro cursor at_
  obtain ⟨⟨value, next⟩, readHere, restEq⟩ := Option.map_eq_some_iff.1 read
  have readThere : reading cursor =
      some (value, next.behind cursor.remarks) := by
    rw [at_.eq_behind, regular.blind, readHere]
    rfl
  exact ⟨value, _, readThere, at_.leads (regular.leads readThere) restEq⟩

theorem pure (value : α) : Reads text (Pure.pure value) before before :=
  fun cursor at_ => ⟨value, cursor, rfl, at_⟩

theorem build
    (kind : Kind)
    (children : List Node) :
    Reads text (build kind children) before before :=
  fun cursor at_ => ⟨_, cursor, rfl, at_⟩

theorem bind
    {reading : Reading β}
    {next : β → Reading α}
    (reads : Reads text reading before middle)
    (nextReads : ∀ value, Reads text (next value) middle after) :
    Reads text (reading >>= next) before after := by
  intro cursor at_
  obtain ⟨value, place, read, placeAt⟩ := reads cursor at_
  obtain ⟨result, last, readNext, lastAt⟩ := nextReads value place placeAt
  exact ⟨result, last, by rw [bind_apply, read]; exact readNext, lastAt⟩

theorem map
    {reading : Reading β}
    (change : β → α)
    (reads : Reads text reading before after) :
    Reads text (change <$> reading) before after := by
  intro cursor at_
  obtain ⟨value, place, read, placeAt⟩ := reads cursor at_
  exact ⟨change value, place, by rw [map_apply, read]; rfl, placeAt⟩

theorem orElse
    {first : Reading α}
    (reads : Reads text first before after)
    (second : Reading α) :
    Reads text (first <|> second) before after := by
  intro cursor at_
  obtain ⟨value, place, read, placeAt⟩ := reads cursor at_
  exact ⟨value, place, by rw [orElse_apply, read]; rfl, placeAt⟩

theorem maybe
    {reading : Reading α}
    (reads : Reads text reading before after) :
    Reads text (maybe reading) before after := by
  intro cursor at_
  obtain ⟨value, place, read, placeAt⟩ := reads cursor at_
  exact ⟨some value, place, maybe_of_some read, placeAt⟩

theorem get_bind
    {next : Cursor → Reading α}
    (nextReads : ∀ cursor, cursor.At text before →
      Reads text (next cursor) before after) :
    Reads text (get >>= next) before after :=
  fun cursor at_ => nextReads cursor at_ cursor at_

theorem gap_bind
    {html : Bool}
    {next : Unit → Reading α}
    (passes : Passes html before middle)
    (nextReads : Reads text (next ()) middle after) :
    Reads text (gap html >>= next) before after :=
  fun cursor at_ => nextReads (cursor.skip html)
    (at_.leads (.skip cursor html) (passes cursor at_.rest))

theorem upcoming_bind
    {next : List Char → Reading α}
    (passes : Passes false before middle)
    (nextReads : Reads text (next middle) before after) :
    Reads text (upcoming >>= next) before after := by
  intro cursor at_
  obtain ⟨value, last, read, lastAt⟩ := nextReads cursor at_
  refine ⟨value, last, ?_, lastAt⟩
  show next (cursor.skip).rest cursor = _
  rw [passes cursor at_.rest]
  exact read

theorem take
    (kind : Kind)
    (front : List Char) :
    Reads text (take kind front.length) (front ++ after) after := by
  intro cursor at_
  refine ⟨_, cursor.advance front.length, rfl,
    at_.leads (.advance cursor _) ?_⟩
  show cursor.rest.drop front.length = after
  rw [at_.rest, List.drop_left]

end Reads

namespace RefusedAt

variable {reading first second : Reading α}

theorem bind
    {reading : Reading β}
    (refused : RefusedAt reading before)
    (next : β → Reading α) :
    RefusedAt (reading >>= next) before :=
  fun cursor restEq => (refused cursor restEq).bind

theorem map
    {reading : Reading β}
    (refused : RefusedAt reading before)
    (change : β → α) :
    RefusedAt (change <$> reading) before :=
  fun cursor restEq => (refused cursor restEq).map

theorem orElse
    (firstRefused : RefusedAt first before)
    (secondRefused : RefusedAt second before) :
    RefusedAt (first <|> second) before :=
  fun cursor restEq =>
    (firstRefused cursor restEq).orElse (secondRefused cursor restEq)

/-- What fails behind a reading that does not move fails in front of it. -/
theorem staying
    {reading : Reading β}
    {next : β → Reading α}
    (stays : ∀ cursor, StopsAt reading cursor cursor)
    (refused : ∀ value, RefusedAt (next value) before) :
    RefusedAt (reading >>= next) before :=
  fun cursor restEq => (stays cursor).bind_refuses fun value =>
    refused value cursor restEq

theorem get_bind
    {next : Cursor → Reading α}
    (refused : ∀ cursor, cursor.rest = before →
      RefusedAt (next cursor) before) :
    RefusedAt (get >>= next) before :=
  fun cursor restEq => refused cursor restEq cursor restEq

theorem gap_bind
    {html : Bool}
    {next : Unit → Reading α}
    (passes : Passes html before middle)
    (refused : RefusedAt (next ()) middle) :
    RefusedAt (gap html >>= next) before :=
  fun cursor restEq => refused (cursor.skip html) (passes cursor restEq)

theorem upcoming_bind
    {next : List Char → Reading α}
    (passes : Passes false before middle)
    (refused : RefusedAt (next middle) before) :
    RefusedAt (upcoming >>= next) before := by
  intro cursor restEq
  show next (cursor.skip).rest cursor = none
  rw [passes cursor restEq]
  exact refused cursor restEq

theorem require_bind
    {condition : Bool}
    {next : Unit → Reading α}
    (refused : RefusedAt (next ()) before) :
    RefusedAt (require condition >>= next) before :=
  .staying (fun _ => .require condition) fun _ => refused

/-- What follows a reading is refused behind it. -/
theorem behind
    {reading : Reading β}
    {next : β → Reading α}
    (reads : ∀ cursor, cursor.rest = before → ∃ stop,
      StopsAt reading cursor stop ∧ stop.rest = middle)
    (refused : ∀ value, RefusedAt (next value) middle) :
    RefusedAt (reading >>= next) before := by
  intro cursor restEq
  obtain ⟨stop, stops, stopRest⟩ := reads cursor restEq
  exact stops.bind_refuses fun value => refused value stop stopRest

theorem typedOption_bind
    (g : Grammar)
    {reading : Reading Node}
    {next : List Node → Reading α}
    (refused : RefusedAt reading before)
    (nextRefused : ∀ nodes, RefusedAt (next nodes) before) :
    RefusedAt (g.typedOption reading >>= next) before :=
  fun cursor restEq => (EndsExpression.typedOption_stopsAt g
    (refused cursor restEq)).bind_refuses fun nodes =>
      nextRefused nodes cursor restEq

theorem whenTyped
    (g : Grammar)
    (refused : RefusedAt reading before) :
    RefusedAt (g.whenTyped reading) before :=
  require_bind refused

theorem maybe_bind
    {reading : Reading β}
    {next : Option β → Reading α}
    (refused : RefusedAt reading before)
    (nextRefused : RefusedAt (next none) before) :
    RefusedAt (maybe reading >>= next) before := by
  intro cursor restEq
  rw [Refuses, (refused cursor restEq).maybe_bind]
  exact nextRefused cursor restEq

theorem many_bind
    {reading : Reading β}
    {next : List β → Reading α}
    (refused : RefusedAt reading before)
    (nextRefused : RefusedAt (next []) before) :
    RefusedAt (many reading >>= next) before := by
  intro cursor restEq
  rw [Refuses, (refused cursor restEq).many_bind]
  exact nextRefused cursor restEq

end RefusedAt

namespace Reads

theorem orElse_of_refused
    {first second : Reading α}
    (refused : RefusedAt first before)
    (reads : Reads text second before after) :
    Reads text (first <|> second) before after := by
  intro cursor at_
  obtain ⟨value, place, read, placeAt⟩ := reads cursor at_
  refine ⟨value, place, ?_, placeAt⟩
  rw [orElse_apply, refused cursor at_.rest, read]
  rfl

theorem maybe_of_refused
    {reading : Reading α}
    (refused : RefusedAt reading before) :
    Reads text (Reading.maybe reading) before before :=
  fun cursor at_ =>
    ⟨none, cursor, maybe_of_none (refused cursor at_.rest), at_⟩

theorem maybe_bind_of_refused
    {reading : Reading β}
    {next : Option β → Reading α}
    (refused : RefusedAt reading before)
    (nextReads : Reads text (next none) before after) :
    Reads text (Reading.maybe reading >>= next) before after := by
  intro cursor at_
  rw [(refused cursor at_.rest).maybe_bind]
  exact nextReads cursor at_

theorem many_bind_of_refused
    {reading : Reading β}
    {next : List β → Reading α}
    (refused : RefusedAt reading before)
    (nextReads : Reads text (next []) before after) :
    Reads text (Reading.many reading >>= next) before after := by
  intro cursor at_
  rw [(refused cursor at_.rest).many_bind]
  exact nextReads cursor at_

theorem grow_of_refused
    {step : α → Reading α}
    {value : α}
    (refused : RefusedAt (step value) before) :
    Reads text (grow step value) before before :=
  fun cursor at_ => ⟨value, cursor, (refused cursor at_.rest).grow, at_⟩

theorem typedOption_of_refused
    (g : Grammar)
    {reading : Reading Node}
    (refused : RefusedAt reading before) :
    Reads text (g.typedOption reading) before before := by
  unfold Grammar.typedOption
  split
  · exact (maybe_of_refused refused).bind fun _ => .pure _
  · exact .pure []

/-- A look ahead at what is refused fails. -/
theorem ahead_bind_of_refused
    {reading : Reading β}
    {next : Bool → Reading α}
    (refused : RefusedAt reading before)
    (nextReads : Reads text (next false) before after) :
    Reads text (Reading.ahead reading >>= next) before after := by
  intro cursor at_
  rw [(refused cursor at_.rest).ahead_bind]
  exact nextReads cursor at_

end Reads

/-! ## Repeated readings -/

/-- From one place of a text the reading reads to another one again and again,
until it is refused. -/
inductive Repeats
    (text : List Char)
    (reading : Reading α) : List Char → List Char → Prop
  | stop
      {rest : List Char}
      (refused : RefusedAt reading rest) :
      Repeats text reading rest rest
  | step
      {before middle after : List Char}
      (reads : Reads text reading before middle)
      (shorter : middle.length < before.length)
      (more : Repeats text reading middle after) :
      Repeats text reading before after

theorem Repeats.upTo
    {reading : Reading α}
    (repeats : Repeats text reading before after)
    {count : Nat}
    (enough : before.length ≤ count) :
    Reads text (upTo count reading) before after := by
  induction repeats generalizing count with
  | stop refused =>
    intro cursor at_
    cases count with
    | zero => exact ⟨[], cursor, rfl, at_⟩
    | succ count =>
      exact ⟨[], cursor, upTo_succ_of_none (refused cursor at_.rest), at_⟩
  | @step before middle after reads shorter more moreHypothesis =>
    intro cursor at_
    obtain ⟨count, rfl⟩ : ∃ fewer, count = fewer + 1 :=
      ⟨count - 1, by omega⟩
    obtain ⟨value, place, read, placeAt⟩ := reads cursor at_
    have enoughLeft : middle.length ≤ count := by omega
    obtain ⟨values, last, readRest, lastAt⟩ :=
      moreHypothesis enoughLeft place placeAt
    exact ⟨value :: values, last, upTo_succ_of_some read readRest, lastAt⟩

theorem Repeats.many
    {reading : Reading α}
    (repeats : Repeats text reading before after) :
    Reads text (many reading) before after := by
  intro cursor at_
  have enough : before.length ≤ cursor.rest.length + 1 := by
    rw [at_.rest]
    omega
  exact repeats.upTo enough cursor at_

/-! ## Words that stand next -/

/-- Wherever some characters are left, a word stands next. -/
def Meets (before : List Char) (word : String) : Prop :=
  ∀ cursor : Cursor, cursor.rest = before → Faces cursor word

theorem meets_of_passes
    {word : String}
    (passes : Passes false before (word.toList ++ after))
    (isWord : Lexeme.IsWord word.toList)
    (breaks : Lexeme.BreaksWord after) :
    Meets before word :=
  fun cursor restEq =>
    ⟨isWord, after, passes cursor restEq, breaks⟩

theorem passes_word
    {blanks : List Char}
    {word : String}
    (html : Bool)
    (isBlank : blanks.all Syntax.isBlank = true)
    (isWord : Lexeme.IsWord word.toList) :
    Passes html (blanks ++ (word.toList ++ after)) (word.toList ++ after) := by
  refine passes_of_blanks html isBlank ?_
  cases listEq : word.toList with
  | nil => exact absurd listEq isWord.nonempty
  | cons c list =>
    have unbroken := isWord.unbroken c (by rw [listEq]; exact List.mem_cons_self)
    exact startsToken_of_unbroken unbroken

namespace Meets

variable {word : String} (meets : Meets before word)
include meets

theorem keyword_refused
    {other : String}
    (different : word ≠ other)
    (kind : Kind := .token) :
    RefusedAt (keyword other kind) before :=
  fun cursor restEq => (meets cursor restEq).keyword_refuses kind different

theorem sign_refused
    {mark : String}
    (nonempty : mark.toList ≠ []) :
    RefusedAt (sign mark) before :=
  fun cursor restEq => (meets cursor restEq).sign_refuses nonempty

theorem nextWord_bind_refused
    {next : Option String → Reading α}
    (refused : RefusedAt (next (some word)) before) :
    RefusedAt (nextWord >>= next) before :=
  fun cursor restEq =>
    (meets cursor restEq).refuses_nextWord (refused cursor restEq)

theorem nextWord_bind
    {next : Option String → Reading α}
    (nextReads : Reads text (next (some word)) before after) :
    Reads text (nextWord >>= next) before after := by
  intro cursor at_
  obtain ⟨value, last, read, lastAt⟩ := nextReads cursor at_
  refine ⟨value, last, ?_, lastAt⟩
  rw [bind_apply, (meets cursor at_.rest).nextWord]
  exact read

theorem anyWord
    (passes : Passes false before (word.toList ++ after))
    (kind : Kind) :
    Reads text (anyWord kind) before after := by
  intro cursor at_
  rw [(meets cursor at_.rest).anyWord kind]
  exact Reads.take kind word.toList (cursor.skip)
    (at_.leads (.skip cursor false) (passes cursor at_.rest))

theorem keyword
    (passes : Passes false before (word.toList ++ after))
    (kind : Kind := .token) :
    Reads text (keyword word kind) before after := by
  refine meets.nextWord_bind ?_
  rw [beq_self_eq_true]
  exact (Reads.pure ()).bind fun _ => meets.anyWord passes kind

theorem wordExcept
    (passes : Passes false before (word.toList ++ after))
    {excluded : List String}
    (allowed : excluded.contains word = false)
    (kind : Kind) :
    Reads text (wordExcept excluded kind) before after := by
  refine meets.nextWord_bind ?_
  simp only [allowed, Bool.false_eq_true, if_false]
  exact meets.anyWord passes kind

end Meets

/-! ## Marks that stand next -/

/-- Wherever some characters are left, a mark stands next, and no word. -/
structure MeetsMark (before : List Char) (mark : String) : Prop where
  passes : ∃ after, Passes false before (mark.toList ++ after) ∧
    Lexeme.markOf (mark.toList ++ after) = mark.toList
  first : ∃ c rest, mark.toList = c :: rest ∧ Lexeme.isBreak c = true ∧
    c ≠ '\\' ∧ c ≠ '#'

namespace MeetsMark

variable {mark : String} (meets : MeetsMark before mark)
include meets

/-- The first character of the mark stands behind blanks and comments. -/
theorem exists_first
    {cursor : Cursor}
    (restEq : cursor.rest = before) :
    ∃ c rest, cursor.skip.rest = c :: rest ∧
      mark.toList.head? = some c ∧ Lexeme.isBreak c = true ∧ c ≠ '\\' ∧
      c ≠ '#' := by
  obtain ⟨⟨after, passes, -⟩, c, rest, listEq, first⟩ := meets
  refine ⟨c, rest ++ after, ?_, by rw [listEq]; rfl, first⟩
  rw [passes cursor restEq, listEq, List.cons_append]

theorem markOf
    {cursor : Cursor}
    (restEq : cursor.rest = before) :
    Lexeme.markOf cursor.skip.rest = mark.toList := by
  obtain ⟨⟨after, passes, isMark⟩, -⟩ := meets
  rw [passes cursor restEq, isMark]

theorem wordLength?_eq_none
    {cursor : Cursor}
    (restEq : cursor.rest = before) :
    Lexeme.wordLength? cursor.skip.rest = none := by
  obtain ⟨c, rest, skipEq, -, isBreak, noEscape, -⟩ :=
    meets.exists_first restEq
  have noTail : Lexeme.wordTail (c :: rest).length (c :: rest) = 0 := by
    rw [List.length_cons, Lexeme.wordTail, isBreak,
      Lexeme.wordEscapeLength?_eq_none (by simpa using noEscape)]
    rfl
  rw [skipEq, Lexeme.wordLength?]
  split
  · rfl
  · rw [noTail]
    rfl

theorem nextWord
    {cursor : Cursor}
    (restEq : cursor.rest = before) :
    nextWord cursor = some (none, cursor) := by
  show some ((Lexeme.wordLength? cursor.skip.rest).map fun length =>
    String.ofList (cursor.skip.rest.take length), cursor) = _
  rw [meets.wordLength?_eq_none restEq]
  rfl

theorem nextWord_bind_refused
    {next : Option String → Reading α}
    (refused : RefusedAt (next none) before) :
    RefusedAt (Reading.nextWord >>= next) before := by
  intro cursor restEq
  rw [Refuses, bind_apply, meets.nextWord restEq]
  exact refused cursor restEq

theorem nextWord_bind
    {next : Option String → Reading α}
    (nextReads : Reads text (next none) before after) :
    Reads text (Reading.nextWord >>= next) before after := by
  intro cursor at_
  rw [bind_apply, meets.nextWord at_.rest]
  exact nextReads cursor at_

theorem keyword_refused
    {word : String}
    (kind : Kind := .token) :
    RefusedAt (keyword word kind) before :=
  meets.nextWord_bind_refused fun _ _ => rfl

theorem keywordOf_refused
    {words : List String} :
    RefusedAt (keywordOf words) before :=
  meets.nextWord_bind_refused fun _ _ => rfl

theorem wordExcept_refused
    {excluded : List String}
    {kind : Kind} :
    RefusedAt (wordExcept excluded kind) before :=
  meets.nextWord_bind_refused fun _ _ => rfl

theorem anyWord_refused
    {kind : Kind} :
    RefusedAt (anyWord kind) before := by
  intro cursor restEq
  rw [Refuses, Reading.anyWord, gap_bind_apply, get_bind_apply,
    meets.wordLength?_eq_none restEq]
  rfl

theorem sign_refused
    {other : String}
    (different : mark ≠ other) :
    RefusedAt (sign other) before := by
  intro cursor restEq
  have isOther : (mark.toList == other.toList) = false := by
    rw [beq_eq_false_iff_ne, ne_eq, String.toList_inj]
    exact different
  show (if Lexeme.markOf cursor.skip.rest == other.toList
    then take .token other.length else reject) cursor.skip = none
  rw [meets.markOf restEq, isOther]
  rfl

theorem privateName_refused : RefusedAt privateName before := by
  intro cursor restEq
  obtain ⟨c, rest, skipEq, -, -, -, noHash⟩ := meets.exists_first restEq
  rw [Refuses, privateName, gap_bind_apply, get_bind_apply]
  generalize cursor.skip.rest = skipped at skipEq
  split
  · exact absurd (List.cons.inj skipEq).1.symm noHash
  · rfl

theorem endsExpression
    {cursor : Cursor}
    (isEnd : mark.toList ∈ endMarks)
    (restEq : cursor.rest = before) :
    EndsExpression cursor where
  isEnd := by
    rw [meets.markOf restEq]
    exact isEnd
  backtick := by
    have noTick : ∀ mark ∈ endMarks, mark.head? ≠ some '`' := by decide
    obtain ⟨c, rest, skipEq, isHead, -⟩ := meets.exists_first restEq
    rw [skipEq, List.head?_cons, ← isHead]
    exact noTick _ isEnd
  word := by
    intro word read
    rw [meets.nextWord restEq] at read
    cases read

end MeetsMark

/-- Characters that a mark starts with. -/
def startsMark (c : Char) : Bool :=
  startsToken c && Lexeme.isBreak c && c != '\\' && c != '#'

theorem MeetsMark.of_passes
    {mark : String}
    (passes : Passes false before (mark.toList ++ after))
    (isMark : Lexeme.markOf (mark.toList ++ after) = mark.toList)
    (starts : mark.toList.head?.any startsMark = true) :
    MeetsMark before mark where
  passes := ⟨after, passes, isMark⟩
  first := by
    cases listEq : mark.toList with
    | nil =>
      rw [listEq] at starts
      contradiction
    | cons c list =>
      rw [listEq, List.head?_cons, Option.any_some] at starts
      unfold startsMark at starts
      simp only [Bool.and_eq_true, bne_iff_ne] at starts
      exact ⟨c, list, rfl, starts.1.1.2, starts.1.2, starts.2⟩

theorem passes_mark
    {blanks : List Char}
    {mark : String}
    (html : Bool)
    (isBlank : blanks.all Syntax.isBlank = true)
    (starts : mark.toList.head?.any startsMark = true) :
    Passes html (blanks ++ (mark.toList ++ after)) (mark.toList ++ after) := by
  refine passes_of_blanks html isBlank ?_
  cases listEq : mark.toList with
  | nil =>
    rw [listEq] at starts
    contradiction
  | cons c list =>
    rw [listEq, List.head?_cons, Option.any_some] at starts
    unfold startsMark at starts
    simp only [Bool.and_eq_true] at starts
    exact starts.1.1.1

theorem Reads.sign
    {mark : String}
    (passes : Passes false before (mark.toList ++ after))
    (isMark : Lexeme.markOf (mark.toList ++ after) = mark.toList) :
    Reads text (sign mark) before after := by
  refine Reads.gap_bind passes (.get_bind fun cursor at_ => ?_)
  rw [at_.rest, isMark, beq_self_eq_true, if_pos rfl]
  exact Reads.take .token mark.toList

end Reading
end Syntax
end StoryMigration
