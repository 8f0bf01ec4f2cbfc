import StoryMigration.Proofs.StatementSequence

/-!
# Where the node of a statement starts

Behind the blanks and comments that are passed over stands the first token of
what is read next, and the node of a statement starts there.
-/

namespace StoryMigration
namespace Syntax

/-! ## Nothing left to pass over -/

namespace Cursor

/-- Neither a blank nor a comment stands at the cursor. -/
structure AtToken (cursor : Cursor) : Prop where
  blank : cursor.rest.takeWhile isBlank = []
  comment : commentLength? cursor.rest = none
  html : htmlCommentLength? cursor.rest = none

theorem skipBlanks_of_blank
    {cursor : Cursor}
    (blank : cursor.rest.takeWhile isBlank = []) :
    cursor.skipBlanks = cursor := by
  rw [skipBlanks, blank]
  rfl

/-- Where neither a blank nor a comment stands, nothing is passed over. -/
theorem skip_eq_self
    {cursor : Cursor}
    {html : Bool}
    (blank : cursor.rest.takeWhile isBlank = [])
    (comment : commentLength? cursor.rest = none)
    (noHtml : html = true → htmlCommentLength? cursor.rest = none) :
    cursor.skip html = cursor := by
  unfold Cursor.skip
  cases cursor.rest.length with
  | zero => exact skipBlanks_of_blank blank
  | succ count =>
    have onlyHtml :
        (if html then htmlCommentLength? cursor.rest else none) = none := by
      split
      · rename_i isHtml
        exact noHtml isHtml
      · rfl
    rw [skipUpTo, skipBlanks_of_blank blank]
    simp only [comment, onlyHtml]

theorem AtToken.skip
    {cursor : Cursor}
    (atToken : cursor.AtToken)
    (html : Bool) :
    cursor.skip html = cursor :=
  skip_eq_self atToken.blank atToken.comment fun _ => atToken.html

end Cursor

/-- A comment takes at least one character. -/
theorem pos_of_commentLength?
    {text : List Char}
    {length : Nat}
    (isComment : commentLength? text = some length) :
    0 < length ∧ text ≠ [] := by
  unfold commentLength? at isComment
  cases isLine : lineCommentLength? text with
  | some line =>
    rw [isLine] at isComment
    cases isComment
    unfold lineCommentLength? at isLine
    split at isLine
    · rw [Option.some.injEq] at isLine
      exact ⟨by omega, List.cons_ne_nil _ _⟩
    · contradiction
  | none =>
    rw [isLine] at isComment
    have isBlock : blockCommentLength? text = some length := isComment
    unfold blockCommentLength? at isBlock
    split at isBlock
    · obtain ⟨behind, -, lengthEq⟩ := Option.map_eq_some_iff.1 isBlock
      exact ⟨by omega, List.cons_ne_nil _ _⟩
    · contradiction

theorem pos_of_htmlCommentLength?
    {text : List Char}
    {length : Nat}
    (isComment : htmlCommentLength? text = some length) :
    0 < length ∧ text ≠ [] := by
  unfold htmlCommentLength? at isComment
  split at isComment
  · rw [Option.some.injEq] at isComment
    exact ⟨by omega, List.cons_ne_nil _ _⟩
  · rw [Option.some.injEq] at isComment
    exact ⟨by omega, List.cons_ne_nil _ _⟩
  · contradiction

namespace Cursor

theorem takeWhile_skipBlanks (cursor : Cursor) :
    cursor.skipBlanks.rest.takeWhile isBlank = [] := by
  have restEq : cursor.skipBlanks.rest = cursor.rest.dropWhile isBlank := by
    have dropped := @List.drop_left _ (cursor.rest.takeWhile isBlank)
      (cursor.rest.dropWhile isBlank)
    rwa [List.takeWhile_append_dropWhile] at dropped
  rw [restEq]
  have stops := List.head?_dropWhile_not isBlank cursor.rest
  cases behind : cursor.rest.dropWhile isBlank with
  | nil => rfl
  | cons c rest =>
    rw [behind] at stops
    exact List.takeWhile_cons_of_neg (by simpa using stops)

theorem length_pass_lt
    {cursor : Cursor}
    (kind : Kind)
    {count : Nat}
    (isLong : 0 < count ∧ cursor.rest ≠ []) :
    (cursor.pass kind count).rest.length < cursor.rest.length := by
  have positive := List.length_pos_iff.2 isLong.2
  show (cursor.rest.drop count).length < cursor.rest.length
  rw [List.length_drop]
  omega

/-- Behind all that is passed over stands neither a blank nor a comment. -/
theorem nothing_behind_skip
    (cursor : Cursor)
    (html : Bool) :
    (cursor.skip html).rest.takeWhile isBlank = [] ∧
      commentLength? (cursor.skip html).rest = none ∧
      (html = true → htmlCommentLength? (cursor.skip html).rest = none) := by
  have enough
      {count : Nat}
      {cursor : Cursor}
      (isShort : cursor.rest.length ≤ count) :
      (cursor.skipUpTo html count).rest.takeWhile isBlank = [] ∧
        commentLength? (cursor.skipUpTo html count).rest = none ∧
        (html = true →
          htmlCommentLength? (cursor.skipUpTo html count).rest = none) := by
    induction count generalizing cursor with
    | zero =>
      have restEq : cursor.skipBlanks.rest = [] := by
        have isEnd : cursor.rest = [] := List.length_eq_zero_iff.1 (by omega)
        show cursor.rest.drop _ = []
        rw [isEnd, List.drop_nil]
      rw [skipUpTo, restEq]
      exact ⟨rfl, rfl, fun _ => rfl⟩
    | succ count countHypothesis =>
      have fewer : cursor.skipBlanks.rest.length ≤ cursor.rest.length := by
        show (cursor.rest.drop _).length ≤ _
        rw [List.length_drop]
        omega
      simp only [skipUpTo]
      split
      · rename_i isComment
        have := length_pass_lt .comment (pos_of_commentLength? isComment)
        exact countHypothesis (by omega)
      · rename_i noComment
        split
        · rename_i isComment
          split at isComment
          · have := length_pass_lt .htmlComment
              (pos_of_htmlCommentLength? isComment)
            exact countHypothesis (by omega)
          · contradiction
        · rename_i noHtml
          refine ⟨takeWhile_skipBlanks cursor, noComment, fun isHtml => ?_⟩
          rwa [if_pos isHtml] at noHtml
  exact enough (Nat.le_refl _)

theorem skip_skip
    (cursor : Cursor)
    (html : Bool) :
    (cursor.skip html).skip html = cursor.skip html := by
  obtain ⟨blank, comment, noHtml⟩ := cursor.nothing_behind_skip html
  exact skip_eq_self blank comment noHtml

/-- Behind all that is passed over stands a token. -/
theorem atToken_skip (cursor : Cursor) : (cursor.skip true).AtToken := by
  obtain ⟨blank, comment, noHtml⟩ := cursor.nothing_behind_skip true
  exact ⟨blank, comment, noHtml rfl⟩

end Cursor

namespace Reading

variable {α β : Type}

theorem gap_bind_apply
    (html : Bool)
    (next : Unit → Reading α)
    (cursor : Cursor) :
    (gap html >>= next) cursor = next () (cursor.skip html) := rfl

/-! ## What is read from a token on -/

/-- Whenever the reading succeeds from a token on, what it gives and the place
of the token keep a promise. -/
structure Opens
    (reading : Reading α)
    (promise : α → Nat → Prop) : Prop where
  keeps : ∀ {cursor next : Cursor} {value : α}, cursor.AtToken →
    reading cursor = some (value, next) → promise value cursor.offset

namespace Opens

variable {promise : α → Nat → Prop}

theorem reject : Opens (reject : Reading α) promise where
  keeps _ read := by contradiction

/-- What follows a reading from a token on may rely on what that one has
promised. -/
theorem bind
    {first : β → Nat → Prop}
    {reading : Reading β}
    {next : β → Reading α}
    (opens : Opens reading first)
    (yields : ∀ value offset, first value offset →
      Yields (next value) fun result _ => promise result offset) :
    Opens (reading >>= next) promise where
  keeps atToken read := by
    rw [bind_apply] at read
    obtain ⟨⟨value, middle⟩, readFirst, readNext⟩ :=
      Option.bind_eq_some_iff.1 read
    exact (yields value _ (opens.keeps atToken readFirst)).keeps readNext

theorem orElse
    {first second : Reading α}
    (firstOpens : Opens first promise)
    (secondOpens : Opens second promise) :
    Opens (first <|> second) promise where
  keeps {cursor _ _} atToken read := by
    rw [orElse_apply] at read
    cases firstRead : first cursor with
    | none =>
      rw [firstRead] at read
      exact secondOpens.keeps atToken read
    | some result =>
      rw [firstRead] at read
      cases read
      exact firstOpens.keeps atToken firstRead

/-- A step that stays where it is may stand before what is read. -/
theorem staying
    {reading : Reading β}
    {next : β → Reading α}
    (stays : ∀ {cursor after : Cursor} {value : β}, cursor.AtToken →
      reading cursor = some (value, after) → after = cursor)
    (opens : ∀ value, Opens (next value) promise) :
    Opens (reading >>= next) promise where
  keeps atToken read := by
    rw [bind_apply] at read
    obtain ⟨⟨value, middle⟩, readFirst, readNext⟩ :=
      Option.bind_eq_some_iff.1 read
    rw [stays atToken readFirst] at readNext
    exact (opens value).keeps atToken readNext

theorem gap_bind
    {html : Bool}
    {next : Unit → Reading α}
    (opens : Opens (next ()) promise) :
    Opens (gap html >>= next) promise :=
  staying (fun {cursor _ _} atToken read => by
    cases read
    exact atToken.skip html) fun _ => opens

theorem get_bind
    {next : Cursor → Reading α}
    (opens : ∀ cursor, Opens (next cursor) promise) :
    Opens (get >>= next) promise where
  keeps {cursor _ _} atToken read := (opens cursor).keeps atToken read

theorem nextWord_bind
    {next : Option String → Reading α}
    (opens : ∀ word, Opens (next word) promise) :
    Opens (nextWord >>= next) promise :=
  staying (fun _ read => by
    cases read
    rfl) opens

theorem upcoming_bind
    {next : List Char → Reading α}
    (opens : ∀ text, Opens (next text) promise) :
    Opens (upcoming >>= next) promise :=
  staying (fun _ read => by
    cases read
    rfl) opens

theorem require_bind
    {condition : Bool}
    {next : Unit → Reading α}
    (opens : Opens (next ()) promise) :
    Opens (require condition >>= next) promise :=
  staying (fun _ read => by
    cases condition with
    | false => contradiction
    | true =>
      cases read
      rfl) fun _ => opens

theorem ahead_bind
    {reading : Reading β}
    {next : Bool → Reading α}
    (opens : ∀ isAhead, Opens (next isAhead) promise) :
    Opens (ahead reading >>= next) promise :=
  staying (fun _ read => by
    cases read
    rfl) opens

theorem map
    {reading : Reading β}
    {change : β → α}
    (opens : Opens reading fun value => promise (change value)) :
    Opens (change <$> reading) promise where
  keeps atToken read := by
    rw [map_apply] at read
    obtain ⟨⟨value, middle⟩, readFirst, same⟩ := Option.map_eq_some_iff.1 read
    cases same
    exact opens.keeps atToken readFirst

/-- What may stand in front of what is read is either there or takes
nothing. -/
theorem maybe_bind
    {first : β → Nat → Prop}
    {reading : Reading β}
    {next : Option β → Reading α}
    (opens : Opens reading first)
    (without : Opens (next none) promise)
    (yields : ∀ value offset, first value offset →
      Yields (next (some value)) fun result _ => promise result offset) :
    Opens (maybe reading >>= next) promise where
  keeps {cursor _ _} atToken read := by
    rw [bind_apply] at read
    cases readFirst : reading cursor with
    | none =>
      rw [maybe_of_none readFirst] at read
      exact without.keeps atToken read
    | some result =>
      obtain ⟨value, middle⟩ := result
      rw [maybe_of_some readFirst] at read
      exact (yields value _ (opens.keeps atToken readFirst)).keeps read

/-- Likewise for what may stand there several times. -/
theorem many_bind
    {first : β → Nat → Prop}
    {reading : Reading β}
    {next : List β → Reading α}
    (opens : Opens reading first)
    (without : Opens (next []) promise)
    (yields : ∀ value values offset, first value offset →
      Yields (next (value :: values)) fun result _ => promise result offset) :
    Opens (many reading >>= next) promise where
  keeps {cursor _ _} atToken read := by
    rw [bind_apply] at read
    obtain ⟨⟨values, middle⟩, readFirst, readNext⟩ :=
      Option.bind_eq_some_iff.1 read
    cases readsEach_of_many readFirst with
    | nil cursor => exact without.keeps atToken readNext
    | cons readValue rest =>
      exact (yields _ _ _ (opens.keeps atToken readValue)).keeps readNext

end Opens

/-! ## Nodes -/

/-- A reading whose nodes start at the token it is read from. -/
abbrev Begins (reading : Reading Node) : Prop :=
  Opens reading fun node offset => node.start = offset

/-- Some nodes of which the first one starts at an offset. -/
def StartAt (nodes : List Node) (offset : Nat) : Prop :=
  nodes.head?.map Node.start = some offset

@[simp] theorem start_withRole (node : Node) (role : Role) :
    (node.withRole role).start = node.start := rfl

theorem startAt_cons
    {node : Node}
    {nodes : List Node}
    {offset : Nat}
    (starts : node.start = offset) :
    StartAt (node :: nodes) offset := by
  rw [StartAt, List.head?_cons, Option.map_some, starts]

theorem StartAt.append
    {front : List Node}
    {offset : Nat}
    (starts : StartAt front offset)
    (back : List Node) :
    StartAt (front ++ back) offset := by
  cases front with
  | nil => cases starts
  | cons node front => exact starts

theorem yields_build
    {kind : Kind}
    {children : List Node}
    {offset : Nat}
    (starts : StartAt children offset) :
    Yields (build kind children) fun node _ => node.start = offset where
  keeps read := by
    cases read
    show (children.head?.map Node.start).getD _ = offset
    rw [starts, Option.getD_some]

namespace Begins

/-- A token is read where it stands. -/
theorem take
    (kind : Kind)
    (count : Nat) :
    Begins (take kind count) where
  keeps _ read := by
    cases read
    rfl

theorem immediately
    (text : String)
    (kind : Kind) :
    Begins (immediately text kind) :=
  Opens.get_bind fun _ => by
    split
    · exact take _ _
    · exact Opens.reject

theorem mark
    (text : String)
    (kind : Kind) :
    Begins (mark text kind) :=
  Opens.gap_bind (immediately _ _)

theorem sign (text : String) : Begins (sign text) :=
  Opens.gap_bind (Opens.get_bind fun _ => by
    split
    · exact take _ _
    · exact Opens.reject)

theorem anyWord (kind : Kind) : Begins (anyWord kind) :=
  Opens.gap_bind (Opens.get_bind fun _ => by
    split
    · exact take _ _
    · exact Opens.reject)

theorem keyword
    (text : String)
    (kind : Kind) :
    Begins (keyword text kind) :=
  Opens.nextWord_bind fun _ => Opens.require_bind (anyWord kind)

theorem keywordOf (texts : List String) : Begins (keywordOf texts) :=
  Opens.nextWord_bind fun _ => by
    split
    · split
      · exact anyWord _
      · exact Opens.reject
    · exact Opens.reject

theorem wordExcept
    (excluded : List String)
    (kind : Kind) :
    Begins (wordExcept excluded kind) :=
  Opens.nextWord_bind fun _ => by
    split
    · split
      · exact Opens.reject
      · exact anyWord _
    · exact Opens.reject

theorem privateName : Begins privateName :=
  Opens.gap_bind (Opens.get_bind fun _ => by
    split
    · split
      · exact take _ _
      · exact Opens.reject
    · exact Opens.reject)

theorem number : Begins number :=
  Opens.gap_bind (Opens.get_bind fun _ => by
    split
    · exact take _ _
    · exact Opens.reject)

theorem regex : Begins regex :=
  Opens.gap_bind (Opens.get_bind fun _ => by
    split
    · exact take _ _
    · exact Opens.reject)

end Begins
end Reading
end Syntax
end StoryMigration
