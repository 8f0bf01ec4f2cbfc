import StoryMigration.Proofs.NodeStart

/-!
# Words and marks at a place

Whether a word or a mark is read depends on what stands at the cursor: the
longest word, or the longest mark.  Any other word or mark is refused there.
-/

namespace StoryMigration
namespace Syntax

/-! ## Words in a text -/

namespace Lexeme

/-- Characters of which none breaks a word, and that start with no digit. -/
structure IsWord (word : List Char) : Prop where
  nonempty : word ≠ []
  unbroken : ∀ c ∈ word, isBreak c = false
  noDigit : ∀ c ∈ word.head?, c.isDigit = false

instance (word : List Char) : Decidable (IsWord word) :=
  decidable_of_iff
    (word.isEmpty = false ∧ word.all (!isBreak ·) = true ∧
      word.head?.all (!Char.isDigit ·) = true) (by
    constructor
    · rintro ⟨nonempty, unbroken, noDigit⟩
      refine ⟨List.isEmpty_eq_false_iff.1 nonempty, ?_, ?_⟩
      · intro c member
        simpa using List.all_eq_true.1 unbroken c member
      · intro c isHead
        rw [Option.mem_def.1 isHead] at noDigit
        simpa using noDigit
    · rintro ⟨nonempty, unbroken, noDigit⟩
      refine ⟨List.isEmpty_eq_false_iff.2 nonempty, ?_, ?_⟩
      · rw [List.all_eq_true]
        intro c member
        rw [unbroken c member]
        rfl
      · cases head : word.head? with
        | none => rfl
        | some c =>
          rw [Option.all_some, noDigit c head]
          rfl)

/-- A text that no word goes on into. -/
def BreaksWord (text : List Char) : Prop :=
  ∀ c ∈ text.head?, isBreak c = true ∧ c ≠ '\\'

theorem wordEscapeLength?_eq_none
    {text : List Char}
    (noEscape : text.head? ≠ some '\\') :
    wordEscapeLength? text = none := by
  unfold wordEscapeLength?
  split
  · exact absurd rfl noEscape
  · exact absurd rfl noEscape
  · rfl

/-- A word goes as far as nothing breaks it. -/
theorem wordTail_append
    {word rest : List Char}
    {fuel : Nat}
    (unbroken : ∀ c ∈ word, isBreak c = false)
    (breaks : BreaksWord rest)
    (enough : word.length ≤ fuel) :
    wordTail fuel (word ++ rest) = word.length := by
  induction word generalizing fuel with
  | nil =>
    cases fuel with
    | zero => rfl
    | succ fuel =>
      cases rest with
      | nil => rfl
      | cons c rest =>
        obtain ⟨isBreak, noEscape⟩ := breaks c rfl
        rw [List.nil_append, wordTail, isBreak,
          wordEscapeLength?_eq_none (by simpa using noEscape)]
        rfl
  | cons c word wordHypothesis =>
    rw [List.length_cons] at enough
    obtain ⟨fewer, rfl⟩ : ∃ fewer, fuel = fewer + 1 := ⟨fuel - 1, by omega⟩
    rw [List.cons_append, wordTail, unbroken c List.mem_cons_self,
      wordHypothesis (fun d member => unbroken d (List.mem_cons_of_mem _ member))
        (by omega)]
    rfl

theorem wordLength?_append
    {word rest : List Char}
    (isWord : IsWord word)
    (breaks : BreaksWord rest) :
    wordLength? (word ++ rest) = some word.length := by
  obtain ⟨nonempty, unbroken, noDigit⟩ := isWord
  have tail : wordTail (word ++ rest).length (word ++ rest) = word.length :=
    wordTail_append unbroken breaks (by rw [List.length_append]; omega)
  cases word with
  | nil => contradiction
  | cons c word =>
    rw [List.cons_append] at tail ⊢
    simp only [wordLength?, noDigit c rfl]
    rw [tail]
    rfl

theorem longMarks_break :
    longMarks.all (·.head?.all isBreak) = true := by
  decide

theorem longMarks_nonempty : ∀ long ∈ longMarks, long ≠ [] := by
  decide

theorem head?_of_after?
    {front text rest : List Char}
    (nonempty : front ≠ [])
    (found : after? front text = some rest) :
    text.head? = front.head? := by
  cases front with
  | nil => contradiction
  | cons c front =>
    cases text with
    | nil => contradiction
    | cons d text =>
      rw [after?] at found
      split at found
      · rename_i same
        rw [List.head?_cons, List.head?_cons, same]
      · contradiction

/-- A mark starts with the character that it is read at, which is no letter. -/
theorem head?_markOf
    {text : List Char}
    {c : Char}
    (found : c ∈ (markOf text).head?) :
    text.head? = some c ∧ isBreak c = true := by
  unfold markOf at found
  split at found
  · split at found
    · cases found
      exact ⟨rfl, rfl⟩
    · cases found
      exact ⟨rfl, rfl⟩
  · rename_i d rest _
    split at found
    · rename_i long isLong
      have matched := List.find?_some isLong
      have member := List.mem_of_find?_eq_some isLong
      obtain ⟨beyond, isBeyond⟩ := Option.isSome_iff_exists.1 matched
      rw [head?_of_after? (longMarks_nonempty long member) isBeyond]
      have breaks := List.all_eq_true.1 longMarks_break long member
      rw [Option.mem_def.1 found] at breaks
      exact ⟨found, breaks⟩
    · split at found
      · rename_i breaks
        rw [Bool.and_eq_true] at breaks
        cases found
        exact ⟨rfl, breaks.1⟩
      · cases found
  · cases found

/-- No mark stands where a word does. -/
theorem markOf_append
    {word rest : List Char}
    (isWord : IsWord word) :
    markOf (word ++ rest) = [] := by
  cases markEq : markOf (word ++ rest) with
  | nil => rfl
  | cons c mark =>
    have isHead : c ∈ (markOf (word ++ rest)).head? := by
      rw [markEq]
      rfl
    obtain ⟨headEq, breaks⟩ := head?_markOf isHead
    cases word with
    | nil => exact absurd rfl isWord.nonempty
    | cons d word =>
      rw [List.cons_append, List.head?_cons, Option.some.injEq] at headEq
      have unbroken := isWord.unbroken d List.mem_cons_self
      rw [headEq, breaks] at unbroken
      contradiction

end Lexeme

/-! ## Words at a cursor -/

namespace Reading

variable {α β : Type} {cursor stop : Cursor}

/-- The reading fails at a cursor. -/
def Refuses (reading : Reading α) (cursor : Cursor) : Prop :=
  reading cursor = none

/-- Whenever the reading succeeds from a cursor on, it stops at another one. -/
def StopsAt (reading : Reading α) (cursor stop : Cursor) : Prop :=
  ∀ value next, reading cursor = some (value, next) → next = stop

namespace Refuses

theorem bind
    {reading : Reading β}
    {next : β → Reading α}
    (refuses : Refuses reading cursor) :
    Refuses (reading >>= next) cursor := by
  rw [Refuses, bind_apply, refuses]
  rfl

theorem orElse
    {first second : Reading α}
    (firstRefuses : Refuses first cursor)
    (secondRefuses : Refuses second cursor) :
    Refuses (first <|> second) cursor := by
  rw [Refuses, orElse_apply, firstRefuses, secondRefuses]
  rfl

theorem map
    {reading : Reading β}
    {change : β → α}
    (refuses : Refuses reading cursor) :
    Refuses (change <$> reading) cursor := by
  rw [Refuses, map_apply, refuses]
  rfl

theorem maybe_bind
    {reading : Reading β}
    {next : Option β → Reading α}
    (refuses : Refuses reading cursor) :
    (maybe reading >>= next) cursor = next none cursor := by
  rw [bind_apply, maybe_of_none refuses]
  rfl

theorem many
    {reading : Reading α}
    (refuses : Refuses reading cursor) :
    many reading cursor = some ([], cursor) :=
  upTo_succ_of_none refuses

theorem many_bind
    {reading : Reading β}
    {next : List β → Reading α}
    (refuses : Refuses reading cursor) :
    (Reading.many reading >>= next) cursor = next [] cursor := by
  rw [bind_apply, refuses.many]
  rfl

theorem grow
    {step : α → Reading α}
    {value : α}
    (refuses : Refuses (step value) cursor) :
    grow step value cursor = some (value, cursor) := by
  show growUpTo step (cursor.rest.length + 1) value cursor = _
  rw [growUpTo, orElse_apply, bind_apply, refuses]
  rfl

theorem stopsAt
    {reading : Reading α}
    (refuses : Refuses reading cursor) :
    StopsAt reading cursor stop := by
  intro value next read
  rw [refuses] at read
  contradiction

end Refuses

namespace StopsAt

theorem of_eq
    {reading : Reading α}
    {value : α}
    (read : reading cursor = some (value, stop)) :
    StopsAt reading cursor stop := by
  intro other next readOther
  rw [read] at readOther
  cases readOther
  rfl

theorem bind
    {middle : Cursor}
    {reading : Reading β}
    {next : β → Reading α}
    (stopsAt : StopsAt reading cursor middle)
    (nextStopsAt : ∀ value, StopsAt (next value) middle stop) :
    StopsAt (reading >>= next) cursor stop := by
  intro value last read
  rw [bind_apply] at read
  obtain ⟨⟨first, place⟩, readFirst, readNext⟩ :=
    Option.bind_eq_some_iff.1 read
  rw [stopsAt first place readFirst] at readNext
  exact nextStopsAt first value last readNext

/-- What fails wherever a reading can stop fails behind it. -/
theorem bind_refuses
    {middle : Cursor}
    {reading : Reading β}
    {next : β → Reading α}
    (stopsAt : StopsAt reading cursor middle)
    (refuses : ∀ value, Refuses (next value) middle) :
    Refuses (reading >>= next) cursor := by
  rw [Refuses, bind_apply]
  cases read : reading cursor with
  | none => rfl
  | some result =>
    obtain ⟨value, place⟩ := result
    rw [stopsAt value place read]
    exact refuses value

theorem orElse
    {first second : Reading α}
    (firstStops : StopsAt first cursor stop)
    (secondStops : StopsAt second cursor stop) :
    StopsAt (first <|> second) cursor stop := by
  intro value next read
  rw [orElse_apply] at read
  cases readFirst : first cursor with
  | none =>
    rw [readFirst] at read
    exact secondStops value next read
  | some result =>
    rw [readFirst] at read
    cases read
    exact firstStops _ _ readFirst

theorem require (condition : Bool) :
    StopsAt (require condition) cursor cursor := by
  intro value next read
  cases condition with
  | false => contradiction
  | true =>
    cases read
    rfl

end StopsAt

/-- Behind blanks and comments a word stands, and no mark. -/
structure Faces (cursor : Cursor) (word : String) : Prop where
  isWord : Lexeme.IsWord word.toList
  text : ∃ rest, cursor.skip.rest = word.toList ++ rest ∧
    Lexeme.BreaksWord rest

namespace Faces

variable {word : String} (faces : Faces cursor word)
include faces

theorem wordLength? :
    Lexeme.wordLength? cursor.skip.rest = some word.toList.length := by
  obtain ⟨isWord, rest, restEq, breaks⟩ := faces
  rw [restEq, Lexeme.wordLength?_append isWord breaks]

theorem nextWord : nextWord cursor = some (some word, cursor) := by
  show some ((Lexeme.wordLength? cursor.skip.rest).map fun length =>
    String.ofList (cursor.skip.rest.take length), cursor) = _
  rw [faces.wordLength?]
  obtain ⟨-, rest, restEq, -⟩ := faces
  rw [Option.map_some, restEq, List.take_left, String.ofList_toList]

theorem anyWord (kind : Kind) :
    anyWord kind cursor =
      take kind word.toList.length cursor.skip := by
  rw [Reading.anyWord, gap_bind_apply, get_bind_apply, faces.wordLength?]

theorem keyword_refuses
    {other : String}
    (kind : Kind)
    (different : word ≠ other) :
    Refuses (keyword other kind) cursor := by
  have isOther : (some word == some other) = false := by
    simpa using different
  rw [Refuses, keyword, bind_apply, faces.nextWord]
  show (require (some word == some other) >>= fun _ => Reading.anyWord kind)
    cursor = none
  rw [isOther]
  rfl

theorem sign_refuses
    {text : String}
    (nonempty : text.toList ≠ []) :
    Refuses (sign text) cursor := by
  obtain ⟨isWord, rest, restEq, -⟩ := faces
  show (if Lexeme.markOf cursor.skip.rest == text.toList
    then take .token text.length else reject) cursor.skip = none
  rw [restEq, Lexeme.markOf_append isWord]
  cases listEq : text.toList with
  | nil => contradiction
  | cons c list => rfl

end Faces
end Reading
end Syntax
end StoryMigration
