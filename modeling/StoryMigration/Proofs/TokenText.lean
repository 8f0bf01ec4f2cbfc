import Mathlib.Data.List.TakeWhile
import StoryMigration.Proofs.NodeStart

/-!
# The characters of tokens

Words, numbers and marks hold no blank.  A regular expression ends with its
closing mark and letters, and a comment on the line of one of its marks.  So
behind every token and every comment the text is closed: it holds a character
that is no blank, and no line ending behind the last of these.
-/

namespace StoryMigration
namespace Syntax

/-- Characters none of which is a blank. -/
def IsSolid (chars : List Char) : Prop := ∀ c ∈ chars, isBlank c = false

instance (chars : List Char) : Decidable (IsSolid chars) :=
  decidable_of_iff (chars.all (!isBlank ·) = true) (by simp [IsSolid])

theorem IsSolid.nil : IsSolid [] := fun _ member => by contradiction

theorem IsSolid.cons
    {c : Char}
    {chars : List Char}
    (head : isBlank c = false)
    (solid : IsSolid chars) :
    IsSolid (c :: chars) := by
  intro d member
  rcases List.mem_cons.1 member with rfl | member
  · exact head
  · exact solid d member

theorem IsSolid.append
    {front back : List Char}
    (frontSolid : IsSolid front)
    (backSolid : IsSolid back) :
    IsSolid (front ++ back) := by
  intro c member
  rcases List.mem_append.1 member with inFront | inBack
  · exact frontSolid c inFront
  · exact backSolid c inBack

theorem IsSolid.take_add
    {text : List Char}
    {first second : Nat}
    (front : IsSolid (text.take first))
    (back : IsSolid ((text.drop first).take second)) :
    IsSolid (text.take (first + second)) := by
  rw [List.take_add]
  exact front.append back

/-- A number that is one of a character is its number. -/
theorem toNat_ofNat
    {n : Nat}
    (isValid : n.isValidChar) :
    (Char.ofNat n).toNat = n := by
  rw [Char.ofNat, dif_pos isValid]
  rfl

/-- A character in the range of ASCII has what all of them have. -/
theorem of_ascii
    (test : Char → Bool)
    (holds : ∀ n < 128, test (Char.ofNat n) = true)
    {c : Char}
    (ascii : c.toNat < 128) :
    test c = true := by
  rw [← Char.ofNat_toNat c]
  exact holds _ ascii

namespace Lexeme

theorem isSolid_markOf (text : List Char) : IsSolid (markOf text) := by
  intro c member
  unfold markOf at member
  split at member
  · split at member
    · rw [List.mem_singleton] at member
      subst member
      decide
    · simp only [List.mem_cons, List.not_mem_nil, or_false] at member
      rcases member with rfl | rfl <;> decide
  · split at member
    · rename_i long found
      have solid : longMarks.all (fun mark => mark.all (!isBlank ·)) = true := by
        decide
      have longSolid :=
        List.all_eq_true.1 solid long (List.mem_of_find?_eq_some found)
      exact Bool.not_eq_true' _ ▸ List.all_eq_true.1 longSolid c member
    · split at member
      · rename_i isMark
        rw [List.mem_singleton] at member
        subst member
        rw [Bool.and_eq_true, Bool.not_eq_true'] at isMark
        exact isMark.2
      · contradiction
  · contradiction

theorem isBlank_of_isBreak
    {c : Char}
    (holds : isBreak c = false) :
    isBlank c = false := by
  unfold isBreak at holds
  simp only [Bool.or_eq_false_iff] at holds
  exact holds.1.2

theorem toNat_lt_of_isAlphanum
    {c : Char}
    (holds : c.isAlphanum = true) :
    c.toNat < 128 := by
  delta Char.isAlphanum Char.isAlpha Char.isUpper Char.isLower Char.isDigit at holds
  simp only [Bool.or_eq_true, Bool.and_eq_true, decide_eq_true_eq, ge_iff_le,
    UInt32.le_iff_toNat_le] at holds
  simp at holds
  omega

theorem isBlank_of_isAlphanum
    {c : Char}
    (holds : c.isAlphanum = true) :
    isBlank c = false := by
  have := of_ascii (fun c => !c.isAlphanum || !isBlank c) (by decide)
    (toNat_lt_of_isAlphanum holds)
  rw [holds] at this
  simpa using this

theorem isBlank_of_isDigit
    {c : Char}
    (isDigit : c.isDigit = true) :
    isBlank c = false :=
  isBlank_of_isAlphanum (by rw [Char.isAlphanum, isDigit, Bool.or_true])

theorem isBlank_of_isHexDigit
    {c : Char}
    (isHex : isHexDigit c = true) :
    isBlank c = false := by
  have ascii : c.toNat < 128 := by
    simp only [isHexDigit, Char.isDigit, Bool.or_eq_true, Bool.and_eq_true,
      decide_eq_true_eq, ge_iff_le, UInt32.le_iff_toNat_le, Char.le_def] at isHex
    simp at isHex
    omega
  have := of_ascii (fun c => !isHexDigit c || !isBlank c) (by decide) ascii
  rw [isHex] at this
  simpa using this

theorem isBlank_of_octal
    {c : Char}
    (isOctal : ('0' ≤ c && c ≤ '7') = true) :
    isBlank c = false := by
  rw [Bool.and_eq_true, decide_eq_true_eq, decide_eq_true_eq] at isOctal
  refine isBlank_of_isDigit ?_
  simp only [Char.isDigit, ge_iff_le, Bool.and_eq_true, decide_eq_true_eq]
  exact ⟨isOctal.1, UInt32.le_trans isOctal.2 (by decide)⟩

theorem isSolid_digitRun
    {digit : Char → Bool}
    (solid : ∀ c, digit c = true → isBlank c = false)
    (text : List Char) :
    IsSolid (text.take (digitRun digit text)) := by
  fun_induction digitRun digit text with
  | case1 d rest isDigit restHypothesis =>
    rw [List.take_succ_cons, List.take_succ_cons]
    exact .cons (by decide) (.cons (solid d isDigit) restHypothesis)
  | case2 => exact .nil
  | case3 c rest _ isDigit restHypothesis =>
    rw [List.take_succ_cons]
    exact .cons (solid c isDigit) restHypothesis
  | case4 => exact .nil
  | case5 => exact .nil

theorem isSolid_digits
    {digit : Char → Bool}
    (solid : ∀ c, digit c = true → isBlank c = false)
    (text : List Char) :
    IsSolid (text.take (digits digit text)) := by
  unfold digits
  split
  · exact isSolid_digitRun solid text
  · exact .nil

/-- Digits behind the mark of an exponent, if there are some. -/
theorem isSolid_behind
    {front rest : List Char}
    (solid : IsSolid front)
    (length : Nat)
    (digitsEq : digits Char.isDigit rest = length) :
    IsSolid ((front ++ rest).take (length + front.length)) := by
  rw [Nat.add_comm, List.take_length_add_append, ← digitsEq]
  exact solid.append (isSolid_digits (fun _ => isBlank_of_isDigit) rest)

theorem isSolid_exponent (text : List Char) :
    IsSolid (text.take (exponent text)) := by
  unfold exponent
  split
  · rename_i e rest
    split
    · rename_i isMark
      have mark : isBlank e = false := by
        rw [Bool.or_eq_true, beq_iff_eq, beq_iff_eq] at isMark
        rcases isMark with rfl | rfl <;> decide
      split
      · rename_i sign more
        split
        · rename_i isSign
          have signSolid : isBlank sign = false := by
            rw [Bool.or_eq_true, beq_iff_eq, beq_iff_eq] at isSign
            rcases isSign with rfl | rfl <;> decide
          split
          · exact .nil
          · exact isSolid_behind (.cons mark (.cons signSolid .nil)) _ rfl
        · split
          · exact .nil
          · exact isSolid_behind (.cons mark .nil) _ rfl
      · exact .nil
    · exact .nil
  · exact .nil

/-- A single character of a text that is no blank. -/
theorem isSolid_take_one
    {text : List Char}
    {c : Char}
    (head : text.head? = some c)
    (solid : isBlank c = false) :
    IsSolid (text.take 1) := by
  cases text with
  | nil => exact .nil
  | cons d rest =>
    cases head
    exact .cons solid .nil

/-- The characters of a number with a base, if there are digits behind its mark. -/
def withDigits (digit : Char → Bool) (rest : List Char) : Option Nat :=
  match digits digit rest with
  | 0 => none
  | length => some (length + 2 + (if (rest.drop length).head? == some 'n' then 1 else 0))

theorem isSolid_basedLength
    {text : List Char}
    {length : Nat}
    (isBased : basedLength? text = some length) :
    0 < length ∧ IsSolid (text.take length) := by
  unfold basedLength? at isBased
  -- a mark of the base, its digits and perhaps one more letter
  have based
      {front rest : List Char}
      {digit : Char → Bool}
      (frontSolid : IsSolid front)
      (isTwo : front.length = 2)
      (solid : ∀ c, digit c = true → isBlank c = false)
      (found : withDigits digit rest = some length) :
      0 < length ∧ IsSolid ((front ++ rest).take length) := by
    have digitsSolid := isSolid_digits solid rest
    unfold withDigits at found
    generalize digits digit rest = count at found digitsSolid
    split at found
    · contradiction
    · cases found
      refine ⟨by omega, ?_⟩
      rw [Nat.add_comm count 2, Nat.add_assoc, ← isTwo, List.take_length_add_append]
      refine frontSolid.append (digitsSolid.take_add ?_)
      split
      · rename_i isLetter
        exact isSolid_take_one (eq_of_beq isLetter) (by decide)
      · exact .nil
  have either {base upper lower : Char}
      (isBase : (base == upper || base == lower) = true)
      (upperSolid : isBlank upper = false)
      (lowerSolid : isBlank lower = false) :
      IsSolid ['0', base] := by
    rw [Bool.or_eq_true, beq_iff_eq, beq_iff_eq] at isBase
    refine .cons (by decide) (.cons ?_ .nil)
    rcases isBase with rfl | rfl
    · exact upperSolid
    · exact lowerSolid
  split at isBased
  · rename_i base rest
    split at isBased
    · rename_i isBase
      exact based (either isBase (by decide) (by decide)) rfl
        (fun _ => isBlank_of_isHexDigit) isBased
    · split at isBased
      · rename_i isBase
        refine based (either isBase (by decide) (by decide)) rfl
          (fun c isBinary => ?_) isBased
        rw [Bool.or_eq_true, beq_iff_eq, beq_iff_eq] at isBinary
        rcases isBinary with rfl | rfl <;> decide
      · split at isBased
        · rename_i isBase
          exact based (either isBase (by decide) (by decide)) rfl
            (fun _ => isBlank_of_octal) isBased
        · cases isBased
  · cases isBased

/-- A number holds no blank. -/
theorem isSolid_numberLength
    {text : List Char}
    {length : Nat}
    (isNumber : numberLength? text = some length) :
    0 < length ∧ IsSolid (text.take length) := by
  have digit (c : Char) (isDigit : c.isDigit = true) : isBlank c = false :=
    isBlank_of_isDigit isDigit
  unfold numberLength? at isNumber
  split at isNumber
  · rename_i isBased
    cases isNumber
    exact isSolid_basedLength isBased
  · split at isNumber
    · rename_i rest _
      have fraction := isSolid_digits digit rest
      generalize digits Char.isDigit rest = count at isNumber fraction
      split at isNumber
      · cases isNumber
      · cases isNumber
        refine ⟨by omega, ?_⟩
        rw [Nat.add_assoc, Nat.add_comm 1, List.take_succ_cons]
        exact .cons (by decide) (fraction.take_add (isSolid_exponent _))
    · have whole := isSolid_digits digit text
      generalize digits Char.isDigit text = count at isNumber whole
      split at isNumber
      · cases isNumber
      · rename_i isSome
        have positive := Nat.pos_of_ne_zero isSome
        dsimp only at isNumber
        split at isNumber
        · rename_i isLetter
          cases isNumber
          exact ⟨by omega, whole.take_add
            (isSolid_take_one (eq_of_beq isLetter) (by decide))⟩
        · split at isNumber
          · split at isNumber
            · rename_i restEq
              cases isNumber
              refine ⟨by omega, ?_⟩
              rw [Nat.add_assoc, Nat.add_assoc]
              refine whole.take_add ?_
              rw [restEq, Nat.add_comm 1, List.take_succ_cons]
              exact .cons (by decide)
                ((isSolid_digits digit _).take_add (isSolid_exponent _))
            · cases isNumber
              exact ⟨by omega, whole.take_add (isSolid_exponent _)⟩
          · cases isNumber
            exact ⟨by omega, whole⟩

/-! ## Words -/

theorem take_run (test : Char → Bool) (text : List Char) :
    text.take (run test text) = text.takeWhile test := by
  have taken := @List.take_left _ (text.takeWhile test) (text.dropWhile test)
  rwa [List.takeWhile_append_dropWhile] at taken

/-- A run ends where its test fails. -/
theorem head?_drop_run
    {test : Char → Bool}
    {c : Char}
    (holds : test c = true)
    (text : List Char) :
    (text.drop (run test text)).head? ≠ some c := by
  have dropped := @List.drop_left _ (text.takeWhile test) (text.dropWhile test)
  rw [List.takeWhile_append_dropWhile] at dropped
  have stops := List.head?_dropWhile_not test text
  rw [run, dropped]
  intro isHead
  rw [isHead] at stops
  exact Bool.false_ne_true (stops.symm.trans holds)

theorem isSolid_run
    {test : Char → Bool}
    (solid : ∀ c, test c = true → isBlank c = false)
    (text : List Char) :
    IsSolid (text.take (run test text)) := by
  rw [take_run]
  exact fun c member => solid c (List.mem_takeWhile_imp member)

theorem isSolid_wordEscape
    {text : List Char}
    {length : Nat}
    (isEscape : wordEscapeLength? text = some length) :
    0 < length ∧ IsSolid (text.take length) := by
  unfold wordEscapeLength? at isEscape
  split at isEscape
  · rename_i rest
    have digits := isSolid_run (fun _ => isBlank_of_isHexDigit) rest
    dsimp only at isEscape
    split at isEscape
    · rename_i isClosed
      cases isEscape
      rw [Bool.and_eq_true, beq_iff_eq] at isClosed
      refine ⟨by omega, ?_⟩
      iterate 3 rw [List.take_succ_cons]
      refine .cons (by decide) (.cons (by decide) (.cons (by decide) ?_))
      exact digits.take_add (isSolid_take_one isClosed.2 (by decide))
    · contradiction
  · rename_i rest _
    split at isEscape
    · rename_i enough
      cases isEscape
      refine ⟨by omega, ?_⟩
      iterate 2 rw [List.take_succ_cons]
      refine .cons (by decide) (.cons (by decide) fun c member => ?_)
      exact isSolid_run (fun _ => isBlank_of_isHexDigit) rest c
        ((List.take_sublist_take_left enough).subset member)
    · contradiction
  · contradiction

theorem isSolid_wordTail
    (fuel : Nat)
    (text : List Char) :
    IsSolid (text.take (wordTail fuel text)) := by
  fun_induction wordTail fuel text with
  | case1 => exact .nil
  | case2 => exact .nil
  | case3 fuel c rest isPart restHypothesis =>
    rw [List.take_succ_cons]
    exact .cons (isBlank_of_isBreak (by simpa using isPart)) restHypothesis
  | case4 fuel c rest _ length isEscape restHypothesis =>
    rw [isEscape]
    exact (isSolid_wordEscape isEscape).2.take_add restHypothesis
  | case5 fuel c rest _ noEscape =>
    rw [noEscape]
    exact .nil

/-- A word holds no blank. -/
theorem isSolid_wordLength
    {text : List Char}
    {length : Nat}
    (isWord : wordLength? text = some length) :
    0 < length ∧ IsSolid (text.take length) := by
  unfold wordLength? at isWord
  split at isWord
  · contradiction
  · rename_i c rest
    split at isWord
    · contradiction
    · have tail := isSolid_wordTail (c :: rest).length (c :: rest)
      generalize wordTail (c :: rest).length (c :: rest) = count at isWord tail
      split at isWord
      · contradiction
      · rename_i isSome
        cases isWord
        exact ⟨Nat.pos_of_ne_zero isSome, tail⟩

end Lexeme

/-! ## Closed texts -/

/-- A text that holds a character that is no blank, and no line ending behind
the last of these. -/
def IsClosed (front : List Char) : Prop :=
  ∃ before c tail, front = before ++ c :: tail ∧ isBlank c = false ∧
    ∀ d ∈ tail, d ≠ '\n' ∧ d ≠ '\r'

theorem IsClosed.append_left
    {piece : List Char}
    (closed : IsClosed piece)
    (front : List Char) :
    IsClosed (front ++ piece) := by
  obtain ⟨before, c, tail, rfl, solid, noEnd⟩ := closed
  exact ⟨front ++ before, c, tail, by rw [List.append_assoc], solid, noEnd⟩

theorem IsSolid.isClosed
    {piece : List Char}
    (solid : IsSolid piece)
    (nonempty : piece ≠ []) :
    IsClosed piece := by
  refine ⟨piece.dropLast, piece.getLast nonempty, [],
    (List.dropLast_concat_getLast nonempty).symm,
    solid _ (List.getLast_mem nonempty), fun _ member => by contradiction⟩

theorem IsClosed.getLast?_ne
    {front : List Char}
    (closed : IsClosed front) :
    front.getLast? ≠ some '\r' := by
  obtain ⟨before, c, tail, rfl, solid, noEnd⟩ := closed
  intro last
  rw [List.getLast?_append, List.getLast?_cons] at last
  cases tailEq : tail.getLast? with
  | none =>
    rw [tailEq] at last
    cases last
    contradiction
  | some d =>
    rw [tailEq] at last
    cases last
    exact (noEnd '\r' (List.mem_of_getLast? tailEq)).2 rfl

namespace Lexeme

theorem eq_append_of_after?
    {front text rest : List Char}
    (found : after? front text = some rest) :
    text = front ++ rest := by
  fun_induction after? front text with
  | case1 text =>
    cases found
    rfl
  | case2 => contradiction
  | case3 c front rest' restHypothesis =>
    rw [restHypothesis found, List.cons_append]
  | case4 => contradiction

theorem take_ne_nil
    {text : List Char}
    {length : Nat}
    (positive : 0 < length)
    (nonempty : text ≠ []) :
    text.take length ≠ [] := by
  intro isNil
  rcases List.take_eq_nil_iff.1 isNil with isZero | isEmpty
  · omega
  · exact nonempty isEmpty

theorem take_word_ne_nil
    {text : List Char}
    {length : Nat}
    (isWord : wordLength? text = some length) :
    text.take length ≠ [] := by
  refine take_ne_nil (isSolid_wordLength isWord).1 ?_
  rintro rfl
  contradiction

theorem take_number_ne_nil
    {text : List Char}
    {length : Nat}
    (isNumber : numberLength? text = some length) :
    text.take length ≠ [] := by
  refine take_ne_nil (isSolid_numberLength isNumber).1 ?_
  rintro rfl
  contradiction

/-- A mark is how the text starts. -/
theorem take_markOf (text : List Char) :
    text.take (markOf text).length = markOf text := by
  unfold markOf
  split
  · split <;> rfl
  · split
    · rename_i long found
      have starts := List.find?_some found
      obtain ⟨rest, startsWith⟩ := Option.isSome_iff_exists.1 starts
      rw [eq_append_of_after? startsWith, List.take_left]
    · split
      · rfl
      · rfl
  · rfl

/-- A regular expression ends with its closing mark and its flags. -/
theorem isClosed_regex
    {text : List Char}
    {length : Nat}
    (isRegex : regexLength? text = some length) :
    0 < length ∧ IsClosed (text.take length) := by
  unfold regexLength? at isRegex
  split at isRegex
  · rename_i rest
    generalize patternLength rest.length rest = count at isRegex
    split at isRegex
    · contradiction
    · split at isRegex
      · rename_i flags behind
        cases isRegex
        refine ⟨by omega, '/' :: rest.take count, '/',
          flags.takeWhile fun c => 'a' ≤ c && c ≤ 'z', ?_, by decide, ?_⟩
        · have lengthEq (flags : Nat) :
              count + 2 + flags = count + (flags + 1) + 1 := by omega
          rw [lengthEq, List.take_succ_cons, List.take_add, behind,
            List.take_succ_cons, take_run]
          rfl
        · intro d member
          have isLetter := List.mem_takeWhile_imp member
          constructor <;>
          · rintro rfl
            contradiction
      · contradiction
  · contradiction

end Lexeme

/-! ## Comments -/

theorem blockEnd_closed
    {text : List Char}
    {length : Nat}
    (ends : blockEnd? text = some length) :
    ∃ front, text.take length = front ++ ['*', '/'] := by
  induction text generalizing length with
  | nil => contradiction
  | cons c rest restHypothesis =>
    unfold blockEnd? at ends
    split at ends
    · cases ends
      rename_i rest' same
      rw [same]
      exact ⟨[], rfl⟩
    · rename_i rest' _ same
      cases same
      obtain ⟨behind, found, rfl⟩ := Option.map_eq_some_iff.1 ends
      obtain ⟨front, frontEq⟩ := restHypothesis found
      exact ⟨c :: front, by rw [List.take_succ_cons, frontEq, List.cons_append]⟩
    · contradiction

/-- A comment ends on the line of one of its marks. -/
theorem isClosed_comment
    {text : List Char}
    {length : Nat}
    (isComment : commentLength? text = some length) :
    IsClosed (text.take length) := by
  unfold commentLength? at isComment
  cases isLine : lineCommentLength? text with
  | some line =>
    rw [isLine] at isComment
    cases isComment
    unfold lineCommentLength? at isLine
    split at isLine
    · rename_i body
      cases isLine
      have taken := Lexeme.take_run (fun c => !(isLineEnd c || c == '\r')) body
      refine ⟨['/'], '/', body.takeWhile fun c => !(isLineEnd c || c == '\r'),
        ?_, by decide, fun d member => ?_⟩
      · rw [Nat.add_comm, List.take_succ_cons, List.take_succ_cons]
        exact congrArg _ (congrArg _ taken)
      · have noEnd := List.mem_takeWhile_imp member
        constructor <;>
        · rintro rfl
          contradiction
    · contradiction
  | none =>
    rw [isLine] at isComment
    have isBlock : blockCommentLength? text = some length := isComment
    unfold blockCommentLength? at isBlock
    split at isBlock
    · obtain ⟨behind, ends, rfl⟩ := Option.map_eq_some_iff.1 isBlock
      obtain ⟨front, frontEq⟩ := blockEnd_closed ends
      refine ⟨'/' :: '*' :: front ++ ['*'], '/', [], ?_, by decide,
        fun d member => by contradiction⟩
      rw [List.take_succ_cons, List.take_succ_cons, frontEq]
      simp
    · contradiction

/-! ## Line endings of two characters -/

/-- Two texts side by side that share no line ending. -/
def Apart (front back : List Char) : Prop :=
  front.getLast? = some '\r' → back.head? ≠ some '\n'

theorem Apart.of_head?
    {front back : List Char}
    (other : back.head? ≠ some '\n') :
    Apart front back :=
  fun _ => other

theorem Apart.of_getLast?
    {front back : List Char}
    (other : front.getLast? ≠ some '\r') :
    Apart front back :=
  fun last => absurd last other

/-- A character that is no blank starts no line ending. -/
theorem Apart.of_solid
    {back : List Char}
    (front : List Char)
    (solid : back.takeWhile isBlank = []) :
    Apart front back := by
  refine .of_head? fun head => ?_
  cases back with
  | nil => contradiction
  | cons c back =>
    cases head
    rw [List.takeWhile_cons_of_pos (by decide)] at solid
    contradiction

namespace Lexeme

/-- An escape sequence takes both characters of a line ending or none. -/
theorem apart_escape
    {text : List Char}
    {length : Nat}
    (isEscape : escapeLength? text = some length) :
    text.take length ≠ [] ∧ Apart (text.take length) (text.drop length) := by
  have ofSolid
      {text : List Char}
      {length : Nat}
      (positive : 0 < length)
      (nonempty : text ≠ [])
      (solid : IsSolid (text.take length)) :
      text.take length ≠ [] ∧ Apart (text.take length) (text.drop length) := by
    have filled := Lexeme.take_ne_nil positive nonempty
    exact ⟨filled, .of_getLast? (solid.isClosed filled).getLast?_ne⟩
  have ofLast
      {text : List Char}
      {length : Nat}
      {c : Char}
      (last : (text.take length).getLast? = some c)
      (other : c ≠ '\r') :
      text.take length ≠ [] ∧ Apart (text.take length) (text.drop length) := by
    refine ⟨fun isNil => ?_, .of_getLast? fun isReturn => ?_⟩
    · rw [isNil] at last
      contradiction
    · rw [last, Option.some.injEq] at isReturn
      exact other isReturn
  unfold escapeLength? at isEscape
  split at isEscape
  · obtain ⟨positive, solid⟩ := isSolid_wordEscape isEscape
    exact ofSolid positive (List.cons_ne_nil _ _) solid
  · rename_i rest
    split at isEscape
    · rename_i enough
      cases isEscape
      refine ofSolid (by omega) (List.cons_ne_nil _ _) ?_
      rw [List.take_succ_cons, List.take_succ_cons]
      refine .cons (by decide) (.cons (by decide) fun c member => ?_)
      exact isSolid_run (fun _ => isBlank_of_isHexDigit) rest c
        ((List.take_sublist_take_left enough).subset member)
    · contradiction
  · rename_i next rest
    cases isEscape
    split
    · rename_i isEnd
      refine ofLast rfl ?_
      rintro rfl
      contradiction
    · rename_i noEnd
      refine ⟨List.cons_ne_nil _ _, .of_head? fun isFeed => ?_⟩
      cases isFeed
      exact noEnd rfl
  · rename_i next rest
    cases isEscape
    split
    · rename_i isEnd
      refine ofLast rfl ?_
      rintro rfl
      contradiction
    · have last : (List.take 2 ('\\' :: '?' :: next :: rest)).getLast? =
          some '?' := rfl
      exact ofLast last (by decide)
  · rename_i c rest _ _ noReturn _
    split at isEscape
    · rename_i isOctal
      cases isEscape
      refine ofSolid (by omega) (List.cons_ne_nil _ _) ?_
      rw [Nat.add_comm, List.take_succ_cons, List.take_succ_cons]
      refine .cons (by decide) (.cons (isBlank_of_octal isOctal) ?_)
      intro d member
      exact isSolid_run (fun _ => isBlank_of_octal) rest d
        ((List.take_sublist_take_left (Nat.min_le_right _ _)).subset member)
    · cases isEscape
      by_cases isReturn : c = '\r'
      · refine ⟨List.cons_ne_nil _ _, .of_head? ?_⟩
        cases rest with
        | nil => simp
        | cons next rest => exact (noReturn next rest isReturn rfl).elim
      · exact ofLast rfl isReturn
  · contradiction

end Lexeme

end Syntax
end StoryMigration
