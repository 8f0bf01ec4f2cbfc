import StoryMigration.Proofs.LaidParameter
import StoryMigration.Proofs.RegularExpression

/-!
# Elements are laid over the text

Tags, attributes and what stands between tags are laid like other expressions.
Text between tags is read directly behind a tag, an expression in braces or a
character reference, and it goes on up to the next one.
-/

namespace StoryMigration
namespace Syntax

/-! ## The characters of elements -/

/-- The text of an attribute ends at its quote or at an ampersand. -/
theorem head?_attributeRun
    {quote : Char}
    (isOther : quote ≠ '\n')
    (text : List Char) :
    (text.drop (attributeRun quote text)).head? ≠ some '\n' := by
  fun_induction attributeRun quote text with
  | case1 => simp
  | case2 d rest _ restHypothesis => simpa using restHypothesis
  | case3 c rest _ isEnd =>
    rw [List.drop_zero, List.head?_cons, ne_eq, Option.some.injEq]
    rintro rfl
    rw [Bool.or_eq_true, beq_iff_eq, beq_iff_eq] at isEnd
    rcases isEnd with same | same
    · exact isOther same.symm
    · contradiction
  | case4 c rest _ noEnd restHypothesis => rwa [List.drop_succ_cons]
  | case5 => simp

theorem isBlank_of_isAlpha
    {c : Char}
    (isAlpha : c.isAlpha = true) :
    isBlank c = false :=
  Lexeme.isBlank_of_isAlphanum (by rw [Char.isAlphanum, isAlpha, Bool.true_or])

/-- A hyphenated name holds no blank. -/
theorem solid_hyphenated
    {text : List Char}
    {length : Nat}
    (isName : hyphenatedLength? text = some length) :
    IsSolid (text.take length) ∧ text.take length ≠ [] := by
  have first (c : Char) (isFirst : (c.isAlpha || c == '_' || c == '$') = true) :
      isBlank c = false := by
    rw [Bool.or_eq_true, Bool.or_eq_true, beq_iff_eq, beq_iff_eq] at isFirst
    rcases isFirst with (isAlpha | rfl) | rfl
    · exact isBlank_of_isAlpha isAlpha
    · decide
    · decide
  have later
      (c : Char)
      (isLater : (c.isAlpha || c == '_' || c == '$' || c.isDigit) = true) :
      isBlank c = false := by
    rw [Bool.or_eq_true] at isLater
    rcases isLater with isFirst | isDigit
    · exact first c isFirst
    · exact Lexeme.isBlank_of_isDigit isDigit
  have hyphen
      (c : Char)
      (isPart : (c.isAlpha || c == '_' || c == '$' || c.isDigit || c == '-') =
        true) :
      isBlank c = false := by
    rw [Bool.or_eq_true, beq_iff_eq] at isPart
    rcases isPart with isLater | rfl
    · exact later c isLater
    · decide
  unfold hyphenatedLength? at isName
  dsimp only at isName
  split at isName
  · rename_i c rest
    split at isName
    · rename_i isFirst
      split at isName
      · rename_i more behind
        cases isName
        refine ⟨?_, ?_⟩
        · have lengthEq (front back : Nat) :
              front + 2 + back = front + (back + 1) + 1 := by omega
          rw [lengthEq, List.take_succ_cons, List.take_add, behind,
            List.take_succ_cons]
          refine .cons (first c isFirst) (.append ?_ (.cons (by decide) ?_))
          · exact Lexeme.isSolid_run later rest
          · exact Lexeme.isSolid_run hyphen more
        · exact Lexeme.take_ne_nil (by omega) (List.cons_ne_nil _ _)
      · cases isName
    · cases isName
  · cases isName

/-- A character reference ends with its semicolon. -/
theorem take_reference
    {text : List Char}
    {length : Nat}
    (isReference : referenceLength? text = some length) :
    ∃ front, text.take length = front ++ [';'] := by
  have ends
      {text : List Char}
      {front : Nat}
      (found : (if (text.drop front).head? == some ';' then some (front + 1)
        else none) = some length) :
      ∃ front, text.take length = front ++ [';'] := by
    split at found
    · rename_i isEnd
      cases found
      have behind := eq_of_beq isEnd
      refine ⟨text.take front, ?_⟩
      rw [List.take_add, List.take_one, behind]
      rfl
    · contradiction
  unfold referenceLength? at isReference
  dsimp only at isReference
  split at isReference
  · split at isReference
    · split at isReference
      · exact ends isReference
      · contradiction
    · split at isReference
      · exact ends isReference
      · contradiction
  · split at isReference
    · exact ends isReference
    · contradiction
  · contradiction

theorem isClosed_reference
    {text : List Char}
    {length : Nat}
    (isReference : referenceLength? text = some length) :
    IsClosed (text.take length) := by
  obtain ⟨front, taken⟩ := take_reference isReference
  rw [taken]
  exact ⟨front, ';', [], rfl, by decide, by simp⟩

namespace Reading

variable {α β : Type}

/-! ## Where parts of elements end -/

/-- A reading that stops directly behind a character that text between tags can
follow. -/
structure EndsPart (reading : Reading α) : Prop where
  stops : ∀ {cursor next : Cursor} {value : α},
    reading cursor = some (value, next) →
      ∃ within mark, cursor.rest = within ++ mark :: next.rest ∧
        endsPart mark = true

namespace EndsPart

theorem reject : EndsPart (reject : Reading α) where
  stops read := by contradiction

/-- The last of two readings stops behind a part. -/
theorem bind
    {reading : Reading α}
    {next : α → Reading β}
    [regular : Regular reading]
    (ends : ∀ value, EndsPart (next value)) :
    EndsPart (reading >>= next) where
  stops read := by
    rw [bind_apply] at read
    obtain ⟨⟨value, middle⟩, readFirst, readNext⟩ :=
      Option.bind_eq_some_iff.1 read
    obtain ⟨taken, restEq, -⟩ := (regular.leads readFirst).text
    obtain ⟨within, mark, middleEq, isEnd⟩ := (ends value).stops readNext
    exact ⟨taken ++ within, mark, by rw [restEq, middleEq, List.append_assoc],
      isEnd⟩

/-- What leaves the cursor where it is can follow. -/
theorem still
    {reading : Reading α}
    {next : α → Reading β}
    (ends : EndsPart reading)
    (stays : ∀ {value cursor stop result},
      next value cursor = some (result, stop) → stop = cursor) :
    EndsPart (reading >>= next) where
  stops read := by
    rw [bind_apply] at read
    obtain ⟨⟨value, middle⟩, readFirst, readNext⟩ :=
      Option.bind_eq_some_iff.1 read
    rw [stays readNext]
    exact ends.stops readFirst

theorem orElse
    {first second : Reading α}
    (firstEnds : EndsPart first)
    (secondEnds : EndsPart second) :
    EndsPart (first <|> second) where
  stops {cursor _ _} read := by
    rw [orElse_apply] at read
    cases firstRead : first cursor with
    | none =>
      rw [firstRead] at read
      exact secondEnds.stops read
    | some result =>
      rw [firstRead] at read
      cases read
      exact firstEnds.stops firstRead

/-- A part that ends what is read, or something else if it is missing. -/
theorem maybe_bind
    {reading : Reading α}
    {next : Option α → Reading β}
    (ends : EndsPart reading)
    (stays : ∀ {value cursor stop result},
      next (some value) cursor = some (result, stop) → stop = cursor)
    (without : EndsPart (next none)) :
    EndsPart (maybe reading >>= next) where
  stops {cursor _ _} read := by
    rw [bind_apply] at read
    cases readFirst : reading cursor with
    | none =>
      rw [maybe_of_none readFirst] at read
      exact without.stops read
    | some result =>
      obtain ⟨value, middle⟩ := result
      rw [maybe_of_some readFirst] at read
      rw [stays read]
      exact ends.stops readFirst

/-- What is taken from the cursor on ends a part if its last character does. -/
theorem take
    {cursor next : Cursor}
    {kind : Kind}
    {count : Nat}
    {value : Node}
    {within : List Char}
    {mark : Char}
    (taken : cursor.rest.take count = within ++ [mark])
    (read : Reading.take kind count cursor = some (value, next)) :
    cursor.rest = within ++ mark :: next.rest := by
  cases read
  show cursor.rest = within ++ mark :: cursor.rest.drop count
  rw [List.append_cons, ← taken, List.take_append_drop]

theorem mark
    (text : String)
    (within : List Char)
    {kind : Kind}
    {last : Char}
    (same : text.toList = within ++ [last])
    (isEnd : endsPart last = true) :
    EndsPart (mark text kind) where
  stops {cursor _ _} read := by
    obtain ⟨skipped, restEq, -⟩ := (Cursor.Leads.skip cursor false).text
    have readHere : immediately text kind (cursor.skip false) = some _ := read
    obtain ⟨markEq, -⟩ := of_immediately readHere
    refine ⟨skipped ++ within, last, ?_, isEnd⟩
    rw [restEq, markEq, same, List.append_assoc, List.append_assoc]
    rfl

theorem sign
    (text : String)
    (within : List Char)
    {last : Char}
    (same : text.toList = within ++ [last])
    (isEnd : endsPart last = true) :
    EndsPart (sign text) := by
  refine .bind fun _ => ⟨fun {cursor _ _} read => ?_⟩
  rw [get_bind_apply] at read
  split at read
  · rename_i isMark
    refine ⟨within, last, take ?_ read, isEnd⟩
    rw [beq_iff_eq] at isMark
    rw [← same, ← String.length_toList, ← isMark, Lexeme.take_markOf]
  · contradiction

theorem reference : EndsPart Grammar.reference where
  stops {cursor _ _} read := by
    rw [Grammar.reference, get_bind_apply] at read
    cases isReference : referenceLength? cursor.rest with
    | none =>
      rw [isReference] at read
      contradiction
    | some length =>
      rw [isReference] at read
      obtain ⟨within, taken⟩ := take_reference isReference
      exact ⟨within, ';', take taken read, rfl⟩

theorem elementExpression
    (g : Grammar)
    [∀ goal, Regular (g.read goal)] :
    EndsPart g.elementExpression :=
  .bind fun _ => .bind fun _ =>
    (sign "\x7d" [] rfl rfl).still fun read => by cases read; rfl

/-- An element ends with its last tag. -/
theorem element
    (g : Grammar)
    [∀ goal, Regular (g.read goal)] :
    EndsPart g.element := by
  have tag : EndsPart (Reading.mark ">") := mark ">" [] rfl rfl
  refine .bind fun _ => .bind fun head => .maybe_bind ?_ ?_ ?_
  · exact mark "/>" ['/'] rfl rfl
  · intro value cursor stop result read
    cases isHead : head.isSome with
    | false =>
      rw [isHead] at read
      contradiction
    | true =>
      rw [isHead] at read
      cases read
      rfl
  · refine .bind fun _ => .bind fun _ => .bind fun _ => .bind fun _ =>
      .bind fun _ => tag.still fun read => by cases read; rfl

end EndsPart

/-- A place where text between tags can start, or where none stands. -/
def TakesText (text : List Char) (cursor : Cursor) : Prop :=
  (∃ front mark, text = front ++ mark :: cursor.rest ∧ endsPart mark = true) ∨
    ∀ c ∈ cursor.rest.head?, isInset c = false

end Reading

namespace Reading
namespace LaysSome

open HasNodes

variable {text before : List Char} {g : Grammar}

section Goals

variable (goals : ∀ goal, LaysSome text before (g.read goal))
include goals

/-! ## Elements -/

omit goals in
theorem elementWord
    (kind : Kind)
    (token : (form kind).isToken = true) :
    LaysSome text before (Grammar.elementWord kind) :=
  .gap (get_or fun cursor => by
    split
    · rename_i isName
      obtain ⟨solid, nonempty⟩ := solid_hyphenated isName
      exact .inl (.takeSolid solid nonempty token)
    · exact .inr (anyWord _ token))

omit goals in
theorem namespaceName : LaysSome text before Grammar.namespaceName :=
  (elementWord _ (by decide)).read fun _ => (sign _ (by decide)).read fun _ =>
    (elementWord _ (by decide)).read fun _ =>
    .build (by simp) rfl

omit goals in
theorem elementName : LaysSome text before Grammar.elementName :=
  .orElse namespaceName ((elementWord _ (by decide)).read fun _ =>
    .grow dotName (by simp))

theorem elementExpression : LaysSome text before g.elementExpression := by
  have value := (spread goals).orElse (commaExpression goals .inside)
  exact (sign _ (by decide)).read fun _ => (maybe value).pass fun _ =>
    (sign _ (by decide)).read fun _ =>
    .build (by simp) rfl

omit goals in
theorem reference : LaysSome text before Grammar.reference :=
  get fun cursor => by
    split
    · rename_i isReference
      exact .take (isClosed_reference isReference) rfl
    · exact .reject

omit goals in
/-- The literal text of an attribute. -/
theorem attributeText
    (text before : List Char)
    {quote : Char}
    (isOther : quote ≠ '\n') :
    Runs text before (do
      match attributeRun quote (← MonadState.get).rest with
      | 0 => reject
      | length => Reading.take .stringFragment length) :=
  Runs.get fun cursor => by
    split
    · exact .reject
    · rename_i isSome
      have apart := head?_attributeRun isOther cursor.rest
      refine .take (Lexeme.take_ne_nil (Nat.pos_of_ne_zero isSome) ?_)
        (.of_head? apart) rfl
      intro isNil
      rw [isNil] at isSome
      exact isSome rfl

omit goals in
theorem attributeString
    {quote : Char}
    (isQuote : isQuote quote = true) :
    LaysSome text before (Grammar.attributeString quote) := by
  have isOther : quote ≠ '\n' := by
    rintro rfl
    contradiction
  have filled := And.intro (quote_ne_empty quote) (isSolid_quote isQuote)
  refine quote_bind _ isQuote fun _ opens => ?_
  have parts := (attributeText text before isOther).orElse reference.toFalse
  exact parts.many.ofFalse.andThen fun _ =>
    (immediately _ _ filled (by decide)).read fun _ =>
      .gather (by simp) (.quoted_of_opens rfl opens)

theorem elementAttribute : LaysSome text before g.elementAttribute := by
  have string (quote : Char) (isQuote : isQuote quote = true) :
      LaysSome text before (Grammar.attributeString quote) :=
    attributeString isQuote
  have value : LaysSome text before (do
      let equals ← Reading.mark "="
      let value ← Grammar.attributeString '"' <|> Grammar.attributeString '\''
        <|> g.elementExpression <|> g.read .element
      Pure.pure [equals, value]) := by
    refine (mark _ _ (by decide) (by decide)).read fun _ => Lays.read ?_ fun _ =>
      .pure (by simp)
    exact .orElse (string _ (by decide)) (.orElse (string _ (by decide))
      (.orElse (elementExpression goals) (goals _)))
  refine .orElse (elementExpression goals) ?_
  refine Lays.read (.orElse namespaceName (elementWord _ (by decide))) fun _ => ?_
  exact value.maybe.pass fun value => .build (by simp) rfl

omit goals in
/-- Text between tags goes on up to where a tag, a brace or a reference starts. -/
theorem elementText
    {outer : List Node}
    {cursor next : Cursor}
    {value : Node}
    (laid : Laid text before false outer cursor)
    (takes : TakesText text cursor)
    (read : Grammar.elementText cursor = some (value, next)) :
    Laid text before false (outer ++ [value]) next ∧ TakesText text next := by
  rw [Grammar.elementText, get_bind_apply, get_bind_apply] at read
  generalize lengthEq : Lexeme.run _ cursor.rest = length at read
  have taken := Lexeme.take_run isInset cursor.rest
  have behind : ∀ c ∈ (cursor.rest.drop length).head?, isInset c = false := by
    intro c isNext
    by_contra isMore
    rw [Bool.not_eq_false] at isMore
    rw [← lengthEq] at isNext
    exact Lexeme.head?_drop_run isMore cursor.rest isNext
  rw [show Lexeme.run isInset cursor.rest = length from lengthEq] at taken
  cases counts : countsAsText false (cursor.rest.take length) with
  | false =>
    rw [counts] at read
    contradiction
  | true =>
    have nonempty : cursor.rest.take length ≠ [] := by
      intro isNil
      rw [isNil] at counts
      contradiction
    rw [counts] at read
    cases read
    refine ⟨laid.take .jsxText (fun front textEq => ?_) nonempty ?_, .inr behind⟩
    · rcases takes with ⟨front', mark, textEq', isEnd⟩ | noText
      · rw [List.append_cons] at textEq'
        have frontEq := List.append_cancel_right (textEq.symm.trans textEq')
        exact ⟨fun isName => by contradiction,
          fun _ => ⟨⟨front', mark, frontEq, isEnd⟩, behind⟩,
          by decide, by decide⟩
      · rw [taken] at nonempty
        cases restEq : cursor.rest with
        | nil =>
          rw [restEq] at nonempty
          contradiction
        | cons c rest =>
          rw [restEq] at nonempty noText
          rw [List.takeWhile_cons_of_neg (by simpa using noText c rfl)] at nonempty
          contradiction
    · refine .of_head? fun isFeed => ?_
      exact absurd (behind '\n' isFeed) (by decide)

theorem elementChild
    [∀ goal, Regular (g.read goal)]
    (elements : EndsPart (g.read .element))
    {outer : List Node}
    {cursor next : Cursor}
    {value : Node}
    (laid : Laid text before false outer cursor)
    (takes : TakesText text cursor)
    (read : g.elementChild cursor = some (value, next)) :
    Laid text before false (outer ++ [value]) next ∧ TakesText text next := by
  rw [Grammar.elementChild, orElse_apply] at read
  cases textRead : Grammar.elementText cursor with
  | some result =>
    rw [textRead] at read
    cases read
    exact elementText laid takes textRead
  | none =>
    rw [textRead] at read
    have part : LaysSome text before
        (Grammar.reference <|> g.elementExpression <|> g.read .element) :=
      reference.orElse ((elementExpression goals).orElse (goals .element))
    have ends : EndsPart
        (Grammar.reference <|> g.elementExpression <|> g.read .element) :=
      .orElse .reference (.orElse (.elementExpression g) elements)
    have readPart : (gap >>= fun _ => Grammar.reference <|>
        g.elementExpression <|> g.read .element) cursor = some (value, next) := read
    obtain ⟨within, mark, restEq, isEnd⟩ :=
      (EndsPart.bind fun _ => ends).stops readPart
    have laidPart : Laid text before false (outer ++ HasNodes.nodes value) next :=
      (Lays.gap part.toFalse).keeps (by rwa [List.append_nil]) readPart
    obtain ⟨earlier, trail, -⟩ := laid
    refine ⟨laidPart, .inl ⟨before ++ earlier ++ within, mark, ?_, isEnd⟩⟩
    rw [trail.stands, restEq, ← List.append_assoc]

theorem elementChildren
    [∀ goal, Regular (g.read goal)]
    (elements : EndsPart (g.read .element))
    {outer : List Node}
    {cursor next : Cursor}
    {values : List Node}
    (laid : Laid text before false outer cursor)
    (takes : TakesText text cursor)
    (read : Reading.many g.elementChild cursor = some (values, next)) :
    Laid text before false (outer ++ values) next := by
  have each := readsEach_of_many read
  clear read
  induction each generalizing outer with
  | nil =>
    rw [List.append_nil]
    exact laid
  | cons readFirst rest restHypothesis =>
    obtain ⟨laidFirst, takesMore⟩ := elementChild goals elements laid takes readFirst
    have laidRest := restHypothesis laidFirst takesMore
    rwa [List.append_assoc] at laidRest

/-- A tag that opens an element and what stands behind it. -/
theorem openingTag
    [∀ goal, Regular (g.read goal)]
    (elements : EndsPart (g.read .element))
    {opening : List Node}
    {given : List Node}
    {next : Node → List Node → Reading Node}
    (same : shapes given = shapes opening)
    (rest : ∀ tag inner,
      Lays text before false (tag :: inner) (next tag inner) true) :
    Lays text before true given (do
      let closing ← Reading.mark ">"
      let tag ← build .jsxOpening (opening ++ [closing])
      let inner ← Reading.many g.elementChild
      next tag inner) true where
  keeps {outer cursor stop value} laid read := by
    rw [bind_apply] at read
    obtain ⟨⟨closing, middle⟩, readMark, read⟩ := Option.bind_eq_some_iff.1 read
    rw [bind_apply] at read
    obtain ⟨⟨tag, _⟩, built, read⟩ := Option.bind_eq_some_iff.1 read
    rw [bind_apply] at read
    obtain ⟨⟨inner, last⟩, readInner, readRest⟩ := Option.bind_eq_some_iff.1 read
    have tagged : Lays text before true given (do
        let closing ← Reading.mark ">"
        build .jsxOpening (opening ++ [closing])) true :=
      (mark _ _ (by decide) (by decide)).read fun closing =>
        .build ⟨by rw [shapes_append, shapes_append, same]; rfl, by simp⟩ rfl
    have readTag : (do
        let closing ← Reading.mark ">"
        build .jsxOpening (opening ++ [closing])) cursor =
          some (tag, middle) := by
      rw [bind_apply, readMark]
      cases built
      rfl
    have takes : TakesText text middle := by
      obtain ⟨within, last, restEq, isEnd⟩ :=
        (EndsPart.mark ">" [] rfl rfl).stops readMark
      obtain ⟨earlier, trail, -⟩ := laid
      refine .inl ⟨before ++ earlier ++ within, last, ?_, isEnd⟩
      rw [trail.stands, restEq, ← List.append_assoc]
    cases built
    have laidInner := elementChildren goals elements
      (tagged.keeps laid readTag).weaken takes readInner
    rw [List.append_assoc] at laidInner
    exact (rest _ inner).keeps laidInner readRest

theorem element
    [∀ goal, Regular (g.read goal)]
    (elements : EndsPart (g.read .element)) :
    LaysSome text before g.element := by
  have head : LaysSome text before (do
      let name ← Grammar.elementName
      let types ← g.typedOption g.typeArguments
      let attributes ← Reading.many g.elementAttribute
      Pure.pure (name.withRole .name :: types ++ attributes)) :=
    elementName.read fun _ => (typedOption g (typeArguments goals)).pass fun _ =>
      (elementAttribute goals).many.pass fun _ => .pure (by simp)
  refine (mark _ _ (by decide) (by decide)).read fun _ => head.maybe.pass fun _ =>
    (mark _ _ (by decide) (by decide)).maybe.pass fun closing => ?_
  cases closing with
  | some closing => exact .require (.build (by simp) rfl)
  | none =>
    refine openingTag goals elements (by simp) fun tag inner => ?_
    refine (mark _ _ (by decide) (by decide)).read fun _ =>
      elementName.maybe.pass fun _ =>
      (mark _ _ (by decide) (by decide)).read fun _ =>
        .build_bind (tag :: inner) (by simp) rfl fun _ =>
          .build (by simp) rfl

end Goals

end LaysSome
end Reading
end Syntax
end StoryMigration
