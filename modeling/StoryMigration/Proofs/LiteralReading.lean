import StoryMigration.Proofs.TextReading
import StoryMigration.Story.Layout

/-!
# Reading string literals

A string literal that is generated for a value is read as one, whatever the
value is: what ends a literal or a line is escaped.
-/

namespace StoryMigration
namespace Syntax

open Reading

/-! ## What stands between quotes -/

/-- Characters that stand for themselves in a string literal. -/
def isPlain (quote c : Char) : Bool :=
  c != quote && c != '\\' && c != '\r' && c != '\n'

/-- Characters between quotes: plain ones and escape sequences. -/
inductive Quotable (quote : Char) : List Char → Prop
  | nil : Quotable quote []
  | plain
      {c : Char}
      {rest : List Char}
      (plain : isPlain quote c = true)
      (more : Quotable quote rest) :
      Quotable quote (c :: rest)
  | escape
      {body rest : List Char}
      (escapes : ∀ behind, Lexeme.escapeLength? ('\\' :: body ++ behind) =
        some (body.length + 1))
      (more : Quotable quote rest) :
      Quotable quote ('\\' :: body ++ rest)

namespace Quotable

variable {quote : Char} {content : List Char}

theorem append
    {more : List Char}
    (front : Quotable quote content)
    (back : Quotable quote more) :
    Quotable quote (content ++ more) := by
  induction front with
  | nil => exact back
  | plain plain _ frontHypothesis => exact .plain plain frontHypothesis
  | escape escapes _ frontHypothesis =>
    rw [List.append_assoc]
    exact .escape escapes frontHypothesis

theorem dropWhile
    (quotable : Quotable quote content) :
    Quotable quote (content.dropWhile (isPlain quote)) := by
  induction quotable with
  | nil => exact .nil
  | plain plain _ restHypothesis =>
    rw [List.dropWhile_cons_of_pos plain]
    exact restHypothesis
  | escape escapes more _ =>
    rw [List.cons_append, List.dropWhile_cons_of_neg (by simp [isPlain]),
      ← List.cons_append]
    exact .escape escapes more

end Quotable

variable {text after : List Char} {quote : Char}

theorem runOf_refused
    {kind : Kind}
    {test : Char → Bool}
    {c : Char}
    (stops : test c = false) :
    RefusedAt (runOf kind test) (c :: after) := by
  intro cursor restEq
  have noRun : Lexeme.run test cursor.rest = 0 := by
    rw [restEq, Lexeme.run, List.takeWhile_cons_of_neg (by simp [stops])]
    rfl
  rw [Refuses, runOf, get_bind_apply, noRun]
  rfl

theorem reads_runOf
    {kind : Kind}
    {test : Char → Bool}
    {run : List Char}
    (nonempty : run ≠ [])
    (holds : run.all test = true)
    (stops : after.takeWhile test = []) :
    Reads text (runOf kind test) (run ++ after) after := by
  refine .get_bind fun cursor at_ => ?_
  have runEq : Lexeme.run test cursor.rest = run.length := by
    rw [at_.rest, Lexeme.run,
      List.takeWhile_append_of_pos (List.all_eq_true.1 holds), stops,
      List.append_nil]
  rw [runEq]
  split
  · rename_i isNil
    exact absurd (List.length_eq_zero_iff.1 isNil) nonempty
  · exact .take kind run

theorem escape_refused
    {c : Char}
    (noEscape : c ≠ '\\') :
    RefusedAt Reading.escape (c :: after) := by
  intro cursor restEq
  have isNone : Lexeme.escapeLength? cursor.rest = none := by
    rw [restEq]
    unfold Lexeme.escapeLength?
    split <;> first
      | rfl
      | rename_i same
        exact absurd (List.cons.inj same).1 noEscape
  rw [Refuses, Reading.escape, get_bind_apply, isNone]
  rfl

theorem reads_escape
    {body : List Char}
    (escapes : ∀ behind, Lexeme.escapeLength? ('\\' :: body ++ behind) =
      some (body.length + 1)) :
    Reads text Reading.escape ('\\' :: body ++ after) after := by
  refine .get_bind fun cursor at_ => ?_
  rw [at_.rest, escapes]
  exact .take .escapeSequence ('\\' :: body)

/-- What is read again and again between quotes. -/
theorem Quotable.repeats
    {content : List Char}
    (quotable : Quotable quote content)
    (noEscape : quote ≠ '\\') :
    Repeats text (runOf .stringFragment (isPlain quote) <|> Reading.escape)
      (content ++ quote :: after) (quote :: after) := by
  have quoteStops : isPlain quote quote = false := by simp [isPlain]
  have escapeStops : isPlain quote '\\' = false := by simp [isPlain]
  -- a run of plain characters is read at once, so that the induction is on the
  -- length of what is left
  generalize lengthEq : content.length = length
  induction length using Nat.strongRecOn generalizing content with
  | ind length lengthHypothesis =>
    cases quotable with
    | nil =>
      exact .stop ((runOf_refused quoteStops).orElse (escape_refused noEscape))
    | @plain c rest plain more =>
      have quotable := (Quotable.plain plain more).dropWhile
      have whole := List.takeWhile_append_dropWhile
        (p := isPlain quote) (l := c :: rest)
      have nonempty : (c :: rest).takeWhile (isPlain quote) ≠ [] := by
        rw [List.takeWhile_cons_of_pos plain]
        exact List.cons_ne_nil _ _
      have stops : ((c :: rest).dropWhile (isPlain quote) ++
          quote :: after).takeWhile (isPlain quote) = [] := by
        have head := List.head?_dropWhile_not (isPlain quote) (c :: rest)
        cases left : (c :: rest).dropWhile (isPlain quote) with
        | nil => exact List.takeWhile_cons_of_neg (by simp [quoteStops])
        | cons d others =>
          rw [left] at head
          exact List.takeWhile_cons_of_neg (by simpa using head)
      have lengths := congrArg List.length whole
      rw [List.length_append, lengthEq] at lengths
      have positive := List.length_pos_iff.2 nonempty
      have behind := lengthHypothesis _ (by omega) quotable rfl
      rw [← whole, List.append_assoc]
      refine .step (.orElse (reads_runOf nonempty List.all_takeWhile stops) _)
        ?_ behind
      simp only [List.length_append]
      omega
    | @escape body rest escapes more =>
      have behind := lengthHypothesis rest.length (by
        rw [← lengthEq, List.length_append, List.length_cons]
        omega) more rfl
      rw [List.append_assoc]
      refine .step (.orElse_of_refused (runOf_refused escapeStops)
        (reads_escape escapes)) ?_ behind
      simp only [List.length_append, List.length_cons]
      omega

/-- A string literal in a quote is read up to its closing quote. -/
theorem Quotable.reads
    {content before : List Char}
    (quotable : Quotable quote content)
    (noEscape : quote ≠ '\\')
    (passes : Passes false before (quote :: (content ++ quote :: after))) :
    Reads text (quoted quote) before after := by
  have reads
      (rest : List Char) :
      Reads text (immediately quote.toString) (quote :: rest) rest := by
    refine .get_bind fun cursor at_ => ?_
    have found : after? quote.toString.toList cursor.rest = some rest := by
      rw [at_.rest]
      simp [after?]
    have single : quote.toString.length = [quote].length := by simp
    rw [found, single]
    exact Reads.take .token [quote]
  exact .bind (.gap_bind passes (reads _)) fun _ =>
    .bind (quotable.repeats noEscape).many fun _ =>
      .bind (reads _) fun _ => .build _ _

/-- Another quote opens no string literal. -/
theorem quoted_refused
    {before : List Char}
    {c : Char}
    (passes : Passes false before (c :: after))
    (different : quote ≠ c) :
    RefusedAt (quoted quote) before := by
  refine RefusedAt.bind (fun cursor restEq => ?_) _
  have isNone : after? quote.toString.toList cursor.skip.rest = none := by
    rw [passes cursor restEq]
    simp [after?, different]
  rw [Refuses, mark, gap_bind_apply, immediately, get_bind_apply, isNone]
  rfl

end Syntax

namespace Layout

open Syntax

variable {layout : Layout} {quote : Char}

/-! ## Generated literals -/

theorem isHexDigit_hexDigit :
    ∀ n < 16, isHexDigit (hexDigit n) = true := by
  decide

theorem hexDigit_ne_brace :
    ∀ n < 16, hexDigit n ≠ '\x7b' := by
  decide

/-- A code point by its number is an escape sequence in front of anything. -/
theorem escapeLength?_unitEscape
    (n : Nat)
    (behind : List Char) :
    Lexeme.escapeLength? (unitEscape n ++ behind) =
      some (unitEscape n).length := by
  have digit
      (k : Nat) :
      isHexDigit (hexDigit (k % 16)) = true :=
    isHexDigit_hexDigit _ (Nat.mod_lt _ (by decide))
  have noBrace := hexDigit_ne_brace (n / 0x1000 % 16) (Nat.mod_lt _ (by decide))
  have run : 4 ≤ Lexeme.run isHexDigit
      (hexDigit (n / 0x1000 % 16) :: hexDigit (n / 0x100 % 16) ::
        hexDigit (n / 16 % 16) :: hexDigit (n % 16) :: behind) := by
    unfold Lexeme.run
    rw [List.takeWhile_cons_of_pos (digit _),
      List.takeWhile_cons_of_pos (digit _),
      List.takeWhile_cons_of_pos (digit _),
      List.takeWhile_cons_of_pos (digit _)]
    simp
  show Lexeme.wordEscapeLength? ('\\' :: 'u' :: hexDigit (n / 0x1000 % 16) ::
    hexDigit (n / 0x100 % 16) :: hexDigit (n / 16 % 16) ::
      hexDigit (n % 16) :: behind) = some 6
  unfold Lexeme.wordEscapeLength?
  split
  · rename_i same
    simp only [List.cons.injEq, true_and] at same
    exact absurd same.1 noBrace
  · rename_i same
    simp only [List.cons.injEq, true_and] at same
    rw [← same, if_pos run]
  · rename_i other
    exact absurd rfl (other _)

/-- What a code point is written as stands between quotes. -/
theorem quotable_escaped
    (isQuote : quote = '\'' ∨ quote = '"')
    (p : CodePoint) :
    Quotable quote (escaped quote p) := by
  have byNumber
      (n : Nat) :
      Quotable quote (unitEscape n) := by
    have escapes := escapeLength?_unitEscape n
    have front : unitEscape n = '\\' :: (unitEscape n).drop 1 ++ [] := by
      rw [List.append_nil]
      rfl
    rw [front]
    exact .escape (fun behind => escapes behind) .nil
  have pair
      (c : Char)
      (escapes : ∀ behind,
        Lexeme.escapeLength? ('\\' :: [c] ++ behind) = some 2) :
      Quotable quote ['\\', c] :=
    .escape escapes .nil
  unfold escaped
  split
  · exact byNumber _
  · rename_i c _
    split
    · exact pair '\\' fun _ => rfl
    rename_i isEscape
    split
    · refine pair quote fun _ => ?_
      rcases isQuote with rfl | rfl <;> rfl
    rename_i isOwn
    split
    · exact pair 'n' fun _ => rfl
    rename_i isFeed
    split
    · exact pair 'r' fun _ => rfl
    rename_i isReturn
    split
    · exact pair 't' fun _ => rfl
    split
    · exact byNumber _
    · refine .plain ?_ .nil
      simp only [beq_iff_eq] at isEscape isOwn isFeed isReturn
      simp [isPlain, isEscape, isOwn, isFeed, isReturn]

theorem quoteStyle_char
    (style : QuoteStyle) :
    style.char = '\'' ∨ style.char = '"' := by
  cases style
  · exact .inl rfl
  · exact .inr rfl

theorem toList_string
    (value : Text) :
    (layout.string value).toList = layout.quoteStyle.char ::
      (value.flatMap (escaped layout.quoteStyle.char) ++
        [layout.quoteStyle.char]) := by
  unfold Layout.string
  rw [String.toList_ofList, List.cons_append]

/-- The literal that is generated for a value is read as one. -/
theorem reads_string
    {text before after : List Char}
    {value : Text}
    (passes : Reading.Passes false before
      ((layout.string value).toList ++ after)) :
    Reading.Reads text Reading.stringLiteral before after := by
  have isQuote := quoteStyle_char layout.quoteStyle
  have quotable : Quotable layout.quoteStyle.char
      (value.flatMap (escaped layout.quoteStyle.char)) := by
    clear passes
    induction value with
    | nil => exact .nil
    | cons p value valueHypothesis =>
      rw [List.flatMap_cons]
      exact (quotable_escaped isQuote p).append valueHypothesis
  rw [toList_string, List.cons_append, List.append_assoc] at passes
  unfold Reading.stringLiteral
  rcases isQuote with isSingle | isDouble
  · rw [isSingle] at quotable passes
    exact .orElse (quotable.reads (by decide) passes) _
  · rw [isDouble] at quotable passes
    exact .orElse_of_refused (quoted_refused passes (by decide))
      (quotable.reads (by decide) passes)

/-- What a code point is written as is visible, or the character itself, which
ends no line. -/
theorem mem_escaped
    {p : CodePoint}
    {c : Char}
    (isQuote : quote = '\'' ∨ quote = '"')
    (member : c ∈ escaped quote p) :
    0x20 ≤ c.toNat ∨ (p.toChar? = some c ∧ c ≠ '\n' ∧ c ≠ '\r') := by
  have digit : ∀ n < 16, 0x20 ≤ (hexDigit n).toNat := by decide
  have byNumber
      (n : Nat)
      (isByNumber : c ∈ unitEscape n) :
      0x20 ≤ c.toNat := by
    unfold unitEscape at isByNumber
    simp only [List.mem_cons, List.not_mem_nil, or_false] at isByNumber
    rcases isByNumber with rfl | rfl | rfl | rfl | rfl | rfl
    · decide
    · decide
    · exact digit _ (Nat.mod_lt _ (by decide))
    · exact digit _ (Nat.mod_lt _ (by decide))
    · exact digit _ (Nat.mod_lt _ (by decide))
    · exact digit _ (Nat.mod_lt _ (by decide))
  have letter
      {d : Char}
      (visible : 0x20 ≤ d.toNat)
      (isLetter : c ∈ ['\\', d]) :
      0x20 ≤ c.toNat := by
    simp only [List.mem_cons, List.not_mem_nil, or_false] at isLetter
    rcases isLetter with rfl | rfl
    · decide
    · exact visible
  unfold escaped at member
  split at member
  · exact .inl (byNumber _ member)
  · rename_i own isOwn
    split at member
    · exact .inl (letter (by decide) member)
    split at member
    · refine .inl (letter ?_ member)
      rcases isQuote with rfl | rfl <;> decide
    split at member
    · exact .inl (letter (by decide) member)
    rename_i noFeed
    split at member
    · exact .inl (letter (by decide) member)
    rename_i noReturn
    split at member
    · exact .inl (letter (by decide) member)
    split at member
    · exact .inl (byNumber _ member)
    · rw [List.mem_singleton.1 member]
      simp only [beq_iff_eq] at noFeed noReturn
      exact .inr ⟨isOwn, noFeed, noReturn⟩

theorem mem_string
    {value : Text}
    {c : Char}
    (member : c ∈ (layout.string value).toList) :
    0x20 ≤ c.toNat ∨
      ∃ p ∈ value, p.toChar? = some c ∧ c ≠ '\n' ∧ c ≠ '\r' := by
  have isQuote := quoteStyle_char layout.quoteStyle
  have visible : 0x20 ≤ layout.quoteStyle.char.toNat := by
    rcases isQuote with same | same <;> rw [same] <;> decide
  rw [toList_string, List.mem_cons, List.mem_append, List.mem_singleton]
    at member
  rcases member with rfl | inside | rfl
  · exact .inl visible
  · obtain ⟨p, isPoint, isEscaped⟩ := List.mem_flatMap.1 inside
    exact (mem_escaped isQuote isEscaped).imp_right fun own =>
      ⟨p, isPoint, own⟩
  · exact .inl visible

/-- A generated literal stays on its line. -/
theorem string_noLineEnd
    {value : Text}
    {c : Char}
    (member : c ∈ (layout.string value).toList) :
    c ≠ '\n' ∧ c ≠ '\r' := by
  rcases mem_string member with visible | ⟨-, -, -, noEnd⟩
  · constructor
    · rintro rfl
      exact absurd visible (by decide)
    · rintro rfl
      exact absurd visible (by decide)
  · exact noEnd

/-- A generated literal holds the character without a number exactly if its value
does. -/
theorem nul_mem_string_iff
    {value : Text} :
    '\x00' ∈ (layout.string value).toList ↔ ∃ p ∈ value, p.value = 0 := by
  constructor
  · intro member
    rcases mem_string member with visible | ⟨p, isPoint, isNul, -⟩
    · exact absurd visible (by decide)
    · refine ⟨p, isPoint, ?_⟩
      unfold CodePoint.toChar? at isNul
      split at isNul
      · contradiction
      · rename_i noSurrogate
        have same := congrArg Char.toNat (Option.some.inj isNul)
        have valid : p.value.isValidChar := by
          have lt := p.lt
          unfold CodePoint.isSurrogate CodePoint.isHigh CodePoint.isLow
            at noSurrogate
          simp only [Bool.not_eq_true, Bool.or_eq_false_iff,
            Bool.and_eq_false_iff, decide_eq_false_iff_not] at noSurrogate
          unfold Nat.isValidChar
          omega
        unfold Char.ofNat at same
        rw [dif_pos valid] at same
        exact same
  · rintro ⟨⟨value, lt⟩, isPoint, rfl⟩
    rw [toList_string, List.mem_cons, List.mem_append]
    refine .inr (.inl (List.mem_flatMap.2 ⟨_, isPoint, ?_⟩))
    cases layout.quoteStyle <;> exact List.mem_singleton.2 rfl

end Layout
end StoryMigration
