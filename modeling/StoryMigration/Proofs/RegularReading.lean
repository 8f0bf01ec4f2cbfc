import StoryMigration.Syntax.Lexeme

/-!
# Readings that look at the text alone

A regular reading moves forward over the text, notes nothing but comments on
its way, and what was noted before makes no difference to it: it is the same
computation on a cursor that has noted less, with the earlier comments put
back behind the new ones.  Readings built from regular ones are regular, so
the property is a class, and all that a grammar rule has to show is how it is
built.
-/

namespace StoryMigration
namespace Syntax

/-- Nodes that a reading notes in passing. -/
def Node.IsRemark (node : Node) : Prop :=
  node.kind = .comment ∨ node.kind = .htmlComment

theorem byteLength_append
    (front back : List Char) :
    byteLength (front ++ back) = byteLength front + byteLength back := by
  have shifted (text : List Char) (total : Nat) :
      text.foldl (fun total c => total + c.utf8Size) total =
        total + byteLength text := by
    induction text generalizing total with
    | nil => rfl
    | cons c rest restHypothesis =>
      rw [byteLength, List.foldl_cons, List.foldl_cons, restHypothesis,
        restHypothesis (0 + c.utf8Size)]
      omega
  rw [byteLength, List.foldl_append, shifted]
  rfl

namespace Cursor

/-- The cursor with comments that were noted before all it has noted. -/
def behind (cursor : Cursor) (earlier : List Node) : Cursor :=
  { cursor with remarks := cursor.remarks ++ earlier }

/-- One cursor stands further on in the text than another one, with nothing
but comments noted between them. -/
structure Leads (cursor next : Cursor) : Prop where
  text : ∃ taken, cursor.rest = taken ++ next.rest ∧
    next.offset = cursor.offset + byteLength taken
  noted : ∃ noted, next.remarks = noted ++ cursor.remarks ∧
    ∀ remark ∈ noted, remark.IsRemark

theorem Leads.refl (cursor : Cursor) : cursor.Leads cursor where
  text := ⟨[], rfl, rfl⟩
  noted := ⟨[], rfl, by simp⟩

theorem Leads.trans
    {first second third : Cursor}
    (front : first.Leads second)
    (back : second.Leads third) :
    first.Leads third where
  text := by
    obtain ⟨taken, restEq, offsetEq⟩ := front.text
    obtain ⟨more, moreEq, moreOffset⟩ := back.text
    refine ⟨taken ++ more, ?_, ?_⟩
    · rw [restEq, moreEq, List.append_assoc]
    · rw [moreOffset, offsetEq, byteLength_append, Nat.add_assoc]
  noted := by
    obtain ⟨noted, notedEq, isRemark⟩ := front.noted
    obtain ⟨more, moreEq, moreRemark⟩ := back.noted
    refine ⟨more ++ noted, ?_, ?_⟩
    · rw [moreEq, notedEq, List.append_assoc]
    · intro remark member
      rcases List.mem_append.1 member with new | old
      · exact moreRemark remark new
      · exact isRemark remark old

theorem Leads.advance
    (cursor : Cursor)
    (count : Nat) :
    cursor.Leads (cursor.advance count) where
  text := ⟨cursor.rest.take count, (List.take_append_drop _ _).symm, rfl⟩
  noted := ⟨[], rfl, by simp⟩

theorem Leads.pass
    (cursor : Cursor)
    {kind : Kind}
    (isRemark : kind = .comment ∨ kind = .htmlComment)
    (count : Nat) :
    cursor.Leads (cursor.pass kind count) where
  text := (Leads.advance cursor count).text
  noted := ⟨[_], rfl, by
    intro remark member
    rw [List.mem_singleton.1 member]
    exact isRemark⟩

theorem Leads.skipUpTo
    (html : Bool)
    (count : Nat)
    (cursor : Cursor) :
    cursor.Leads (cursor.skipUpTo html count) := by
  induction count generalizing cursor with
  | zero => exact .advance _ _
  | succ count countHypothesis =>
    have blanks : cursor.Leads cursor.skipBlanks := .advance _ _
    simp only [Cursor.skipUpTo]
    split
    · exact (blanks.trans (.pass _ (.inl rfl) _)).trans (countHypothesis _)
    · split
      · exact (blanks.trans (.pass _ (.inr rfl) _)).trans (countHypothesis _)
      · exact blanks

theorem Leads.skip
    (cursor : Cursor)
    (html : Bool) :
    cursor.Leads (cursor.skip html) :=
  .skipUpTo html _ cursor

theorem Leads.endUpTo
    {ends : List Char → Bool}
    {count : Nat}
    {cursor next : Cursor}
    (found : cursor.endUpTo ends count = some next) :
    cursor.Leads next := by
  induction count generalizing cursor with
  | zero => contradiction
  | succ count countHypothesis =>
    simp only [Cursor.endUpTo] at found
    split at found
    · rw [← Option.some.inj found]
      exact .refl _
    · split at found
      · exact ((Leads.advance _ _).trans (.pass _ (.inl rfl) _)).trans
          (countHypothesis found)
      · contradiction

/-! ## What was noted before makes no difference -/

theorem skipUpTo_behind
    (html : Bool)
    (count : Nat)
    (cursor : Cursor)
    (earlier : List Node) :
    (cursor.behind earlier).skipUpTo html count =
      (cursor.skipUpTo html count).behind earlier := by
  induction count generalizing cursor with
  | zero => rfl
  | succ count countHypothesis =>
    have blanks : (cursor.behind earlier).skipBlanks =
        cursor.skipBlanks.behind earlier := rfl
    have passed (kind : Kind) (length : Nat) :
        (cursor.skipBlanks.behind earlier).pass kind length =
          (cursor.skipBlanks.pass kind length).behind earlier := rfl
    have same : (cursor.skipBlanks.behind earlier).rest =
        cursor.skipBlanks.rest := rfl
    simp only [Cursor.skipUpTo, blanks, passed, same, countHypothesis]
    split
    · rfl
    · split
      · rfl
      · rfl

theorem skip_behind
    (cursor : Cursor)
    (html : Bool)
    (earlier : List Node) :
    (cursor.behind earlier).skip html = (cursor.skip html).behind earlier :=
  skipUpTo_behind html _ cursor earlier

theorem endUpTo_behind
    (ends : List Char → Bool)
    (count : Nat)
    (cursor : Cursor)
    (earlier : List Node) :
    (cursor.behind earlier).endUpTo ends count =
      (cursor.endUpTo ends count).map (·.behind earlier) := by
  induction count generalizing cursor with
  | zero => rfl
  | succ count countHypothesis =>
    have blanks : (cursor.behind earlier).skipBlanks =
        cursor.skipBlanks.behind earlier := rfl
    have passed (length : Nat) :
        (cursor.skipBlanks.behind earlier).pass .comment length =
          (cursor.skipBlanks.pass .comment length).behind earlier := rfl
    have same (cursor : Cursor) : (cursor.behind earlier).rest =
        cursor.rest := rfl
    simp only [Cursor.endUpTo, blanks, passed, same, countHypothesis]
    split
    · rfl
    · split
      · rfl
      · rfl

theorem statementEnd?_behind
    (cursor : Cursor)
    (dialect : Dialect)
    (operator signature : Bool)
    (earlier : List Node) :
    (cursor.behind earlier).statementEnd? dialect operator signature =
      (cursor.statementEnd? dialect operator signature).map
        (·.behind earlier) :=
  endUpTo_behind _ _ cursor earlier

end Cursor

namespace Reading

variable {α β : Type}

theorem bind_apply
    (reading : Reading α)
    (next : α → Reading β)
    (cursor : Cursor) :
    (reading >>= next) cursor =
      (reading cursor).bind fun result => next result.1 result.2 := rfl

theorem get_bind_apply
    (next : Cursor → Reading β)
    (cursor : Cursor) :
    (get >>= next) cursor = next cursor cursor := rfl

theorem map_apply
    (function : α → β)
    (reading : Reading α)
    (cursor : Cursor) :
    (function <$> reading) cursor =
      (reading cursor).map fun result => (function result.1, result.2) :=
  Option.map_eq_bind.symm

theorem orElse_apply
    (first second : Reading α)
    (cursor : Cursor) :
    (first <|> second) cursor = (first cursor <|> second cursor) := rfl

theorem set_bind_apply
    (place cursor : Cursor)
    (next : PUnit → Reading β) :
    (set place >>= next) cursor = next ⟨⟩ place := rfl

theorem ahead_bind_apply
    (reading : Reading α)
    (next : Bool → Reading β)
    (cursor : Cursor) :
    (ahead reading >>= next) cursor = next (reading cursor).isSome cursor := rfl

theorem maybe_of_none
    {reading : Reading α}
    {cursor : Cursor}
    (fails : reading cursor = none) :
    maybe reading cursor = some (none, cursor) := by
  unfold maybe
  rw [orElse_apply, map_apply, fails]
  rfl

theorem maybe_of_some
    {reading : Reading α}
    {cursor next : Cursor}
    {value : α}
    (reads : reading cursor = some (value, next)) :
    maybe reading cursor = some (some value, next) := by
  unfold maybe
  rw [orElse_apply, map_apply, reads]
  rfl

/-- A reading that moves forward, notes only comments, and does not depend on
what was noted before. -/
class Regular (reading : Reading α) : Prop where
  leads : ∀ {cursor next : Cursor} {value : α},
    reading cursor = some (value, next) → cursor.Leads next
  blind : ∀ (cursor : Cursor) (earlier : List Node),
    reading (cursor.behind earlier) =
      (reading cursor).map fun result =>
        (result.1, result.2.behind earlier)

namespace Regular

/-! ## Plain steps -/

instance pure (value : α) : Regular (pure value : Reading α) where
  leads read := by
    cases read
    exact .refl _
  blind _ _ := rfl

instance reject : Regular (reject : Reading α) where
  leads read := by contradiction
  blind _ _ := rfl

instance bind
    (reading : Reading α)
    (next : α → Reading β)
    [regular : Regular reading]
    [nextRegular : ∀ value, Regular (next value)] :
    Regular (reading >>= next) where
  leads read := by
    obtain ⟨⟨first, middle⟩, readFirst, readNext⟩ :=
      Option.bind_eq_some_iff.1 read
    exact (regular.leads readFirst).trans ((nextRegular first).leads readNext)
  blind cursor earlier := by
    show (reading (cursor.behind earlier)).bind _ =
      Option.map _ (Option.bind _ _)
    rw [regular.blind, Option.bind_map, Option.map_bind]
    congr 1
    funext ⟨first, middle⟩
    exact (nextRegular first).blind middle earlier

/-- A regular reading and what follows it, each case of it by itself. -/
theorem andThen
    {reading : Reading α}
    {next : α → Reading β}
    [regular : Regular reading]
    (nextRegular : ∀ value, Regular (next value)) :
    Regular (reading >>= next) :=
  bind reading next

/-- A step that looks at the cursor, but not at what it has noted. -/
theorem get_bind
    {next : Cursor → Reading β}
    (blind : ∀ cursor earlier,
      next (Cursor.behind cursor earlier) = next cursor)
    (regular : ∀ cursor, Regular (next cursor)) :
    Regular (get >>= next) where
  leads {cursor _ _} read := (regular cursor).leads read
  blind cursor earlier := by
    show next (cursor.behind earlier) (cursor.behind earlier) =
      Option.map _ (next cursor cursor)
    rw [blind]
    exact (regular cursor).blind cursor earlier

instance map
    (function : α → β)
    (reading : Reading α)
    [regular : Regular reading] :
    Regular (function <$> reading) :=
  inferInstanceAs
    (Regular (reading >>= fun value => Pure.pure (function value)))

instance stateMap
    (function : α → β)
    (reading : Reading α)
    [regular : Regular reading] :
    Regular (StateT.map function reading) :=
  map function reading

instance discard
    (reading : Reading α)
    [regular : Regular reading] :
    Regular (discard reading) :=
  inferInstanceAs (Regular (reading >>= fun _ => Pure.pure ()))

instance orElse
    (first second : Reading α)
    [firstRegular : Regular first]
    [secondRegular : Regular second] :
    Regular (first <|> second) where
  leads {cursor next value} read := by
    have either : ((first cursor) <|> (second cursor)) = some (value, next) :=
      read
    cases firstRead : first cursor with
    | none =>
      rw [firstRead] at either
      exact secondRegular.leads either
    | some result =>
      rw [firstRead] at either
      cases either
      exact firstRegular.leads firstRead
  blind cursor earlier := by
    show (first (cursor.behind earlier) <|> second (cursor.behind earlier)) =
      Option.map _ (first cursor <|> second cursor)
    rw [firstRegular.blind, secondRegular.blind]
    cases first cursor with
    | none => rfl
    | some result => rfl

instance ite
    (condition : Prop)
    [Decidable condition]
    (first second : Reading α)
    [firstRegular : Regular first]
    [secondRegular : Regular second] :
    Regular (if condition then first else second) := by
  split
  · exact firstRegular
  · exact secondRegular

instance require
    (condition : Bool) :
    Regular (require condition) :=
  inferInstanceAs (Regular (if condition then Pure.pure () else .reject))

theorem of_bind
    {reading : Reading α}
    {next : α → Reading β}
    (regular : Regular reading)
    (nextRegular : ∀ value, Regular (next value)) :
    Regular (reading >>= next) :=
  bind reading next

theorem of_orElse
    {first second : Reading α}
    (firstRegular : Regular first)
    (secondRegular : Regular second) :
    Regular (first <|> second) :=
  orElse first second

theorem of_ite
    {condition : Prop}
    [Decidable condition]
    {first second : Reading α}
    (firstRegular : Regular first)
    (secondRegular : Regular second) :
    Regular (if condition then first else second) :=
  ite condition first second

/-! ## Combinators -/

section Combinators

variable (reading : Reading α) [regular : Regular reading]

instance maybe : Regular (maybe reading) :=
  inferInstanceAs (Regular ((some <$> reading) <|> Pure.pure none))

instance ahead : Regular (ahead reading) where
  leads read := by
    cases read
    exact .refl _
  blind cursor earlier := by
    show some ((reading (cursor.behind earlier)).isSome, _) = _
    rw [regular.blind, Option.isSome_map]
    rfl

instance upTo (count : Nat) : Regular (upTo count reading) := by
  induction count with
  | zero => exact pure []
  | succ count countHypothesis =>
    unfold Reading.upTo
    infer_instance

instance many : Regular (many reading) :=
  get_bind (fun _ _ => rfl) fun _ => inferInstance

theorem of_many
    {reading : Reading α}
    (regular : Regular reading) :
    Regular (Reading.many reading) :=
  many reading

end Combinators

section Growing

variable (step : α → Reading α) [regular : ∀ value, Regular (step value)]

instance growUpTo
    (count : Nat)
    (value : α) :
    Regular (growUpTo step count value) := by
  induction count generalizing value with
  | zero => exact pure value
  | succ count countHypothesis =>
    unfold Reading.growUpTo
    infer_instance

instance grow (value : α) : Regular (grow step value) :=
  get_bind (fun _ _ => rfl) fun _ => inferInstance

end Growing

/-! ## Characters and nodes -/

instance gap (html : Bool) : Regular (gap html) where
  leads read := by
    cases read
    exact .skip _ _
  blind cursor earlier := by
    show some ((), (cursor.behind earlier).skip html) = _
    rw [Cursor.skip_behind]
    rfl

instance build
    (kind : Kind)
    (children : List Node) :
    Regular (build kind children) :=
  get_bind (fun _ _ => rfl) fun _ => inferInstance

instance take
    (kind : Kind)
    (count : Nat) :
    Regular (take kind count) where
  leads read := by
    cases read
    exact .advance _ _
  blind _ _ := rfl

instance upcoming : Regular upcoming :=
  get_bind (fun cursor earlier => by rw [Cursor.skip_behind]; rfl)
    fun _ => inferInstance

instance immediately
    (text : String)
    (kind : Kind) :
    Regular (immediately text kind) :=
  get_bind (fun _ _ => rfl) fun cursor => by
    cases after? text.toList cursor.rest <;> infer_instance

instance mark
    (text : String)
    (kind : Kind) :
    Regular (mark text kind) := by
  unfold Reading.mark
  infer_instance

/-! ## Lexemes -/

/-- A token behind blanks and comments that is recognised by the text. -/
theorem gap_get_bind
    {html : Bool}
    {next : Cursor → Reading β}
    (blind : ∀ cursor earlier,
      next (Cursor.behind cursor earlier) = next cursor)
    (regular : ∀ cursor, Regular (next cursor)) :
    Regular (Reading.gap html >>= fun _ => get >>= next) :=
  andThen fun _ => get_bind blind regular

instance sign (text : String) : Regular (sign text) :=
  gap_get_bind (fun _ _ => rfl) fun _ => inferInstance

instance signOf (texts : List String) : Regular (signOf texts) :=
  gap_get_bind (fun _ _ => rfl) fun _ => inferInstance

instance anyWord (kind : Kind) : Regular (anyWord kind) :=
  gap_get_bind (fun _ _ => rfl) fun _ => by split <;> infer_instance

instance nextWord : Regular nextWord := by
  unfold Reading.nextWord
  infer_instance

instance keyword
    (text : String)
    (kind : Kind) :
    Regular (keyword text kind) := by
  unfold Reading.keyword
  infer_instance

instance keywordOf (texts : List String) : Regular (keywordOf texts) :=
  andThen fun word => by cases word <;> infer_instance

instance wordExcept
    (excluded : List String)
    (kind : Kind) :
    Regular (wordExcept excluded kind) :=
  andThen fun word => by cases word <;> infer_instance

instance nameIn
    (dialect : Dialect)
    (kind : Kind) :
    Regular (nameIn dialect kind) := by
  unfold Reading.nameIn
  infer_instance

instance privateName : Regular privateName :=
  gap_get_bind (fun _ _ => rfl) fun _ => by
    split
    · split <;> infer_instance
    · infer_instance

instance number : Regular number :=
  gap_get_bind (fun _ _ => rfl) fun _ => by split <;> infer_instance

instance regex : Regular regex :=
  gap_get_bind (fun _ _ => rfl) fun _ => by split <;> infer_instance

instance escape : Regular escape :=
  get_bind (fun _ _ => rfl) fun _ => by split <;> infer_instance

instance runOf
    (kind : Kind)
    (test : Char → Bool) :
    Regular (runOf kind test) :=
  get_bind (fun _ _ => rfl) fun _ => by split <;> infer_instance

instance quoted (quote : Char) : Regular (quoted quote) := by
  unfold Reading.quoted
  infer_instance

instance stringLiteral : Regular stringLiteral := by
  unfold Reading.stringLiteral
  infer_instance

instance separated
    (item : Reading α)
    (toNodes : α → List Node)
    [regular : Regular item] :
    Regular (separated item toNodes) := by
  unfold Reading.separated
  infer_instance

section Lists

variable (item : Reading Node) [regular : Regular item]

instance commaSeparated : Regular (commaSeparated item) := by
  unfold Reading.commaSeparated
  infer_instance

instance commaList : Regular (commaList item) :=
  andThen fun nodes => by cases nodes <;> infer_instance

instance commaListOne : Regular (commaListOne item) := by
  unfold Reading.commaListOne
  infer_instance

instance commaSlots : Regular (commaSlots item) := by
  unfold Reading.commaSlots
  infer_instance

end Lists

/-! ## The end of a statement -/

/-- A step to the place where a statement can end without a semicolon. -/
def statementEnd
    (dialect : Dialect)
    (operator signature : Bool) : Reading Unit :=
  fun cursor =>
    (cursor.statementEnd? dialect operator signature).map
      fun place => ((), place)

instance
    (dialect : Dialect)
    (operator signature : Bool) :
    Regular (statementEnd dialect operator signature) where
  leads read := by
    obtain ⟨place, found, same⟩ := Option.map_eq_some_iff.1 read
    cases same
    exact .endUpTo found
  blind cursor earlier := by
    show Option.map _ (Cursor.statementEnd? _ _ _ _) = _
    rw [Cursor.statementEnd?_behind, Option.map_map, statementEnd,
      Option.map_map]
    rfl

theorem semicolon_eq
    (dialect : Dialect)
    (operator signature : Bool) :
    Reading.semicolon dialect operator signature =
      ((fun _ => []) <$> statementEnd dialect operator signature <|>
        (fun node => [node]) <$> Reading.sign ";") := by
  funext cursor
  unfold Reading.semicolon
  rw [get_bind_apply, orElse_apply, map_apply, statementEnd]
  cases cursor.statementEnd? dialect operator signature <;> rfl

theorem softEnd_eq
    (dialect : Dialect)
    (operator : Bool) :
    Reading.softEnd dialect operator =
      (statementEnd dialect operator false <|> Pure.pure ()) := by
  funext cursor
  unfold Reading.softEnd
  rw [get_bind_apply, orElse_apply, statementEnd]
  cases cursor.statementEnd? dialect operator <;> rfl

instance semicolon
    (dialect : Dialect)
    (operator signature : Bool) :
    Regular (semicolon dialect operator signature) := by
  rw [semicolon_eq]
  infer_instance

instance softEnd
    (dialect : Dialect)
    (operator : Bool) :
    Regular (softEnd dialect operator) := by
  rw [softEnd_eq]
  infer_instance

end Regular
end Reading
end Syntax
end StoryMigration
