import StoryMigration.Proofs.CodeUnits
import StoryMigration.Proofs.LiteralReading

/-!
# The parts of a string literal

A string literal of a module is a sequence of parts between two quotes, as the
language's grammar has them: characters that stand for themselves, escape
sequences and continued lines.  Each part denotes some UTF-16 code units, and
the literal denotes the text of all of them.  What is read from a literal
differs from that where a line is continued by a line or paragraph separator,
or where one stands behind a line that is continued by a carriage return.
-/

namespace StoryMigration
namespace Syntax

/-! ## Parts and what they denote -/

/-- The line separator and the paragraph separator, which end a line in a program
and may yet stand in a string literal. -/
def isSeparator (c : Char) : Bool := c == '\u2028' || c == '\u2029'

/-- What ends a line in a program. -/
def lineEnds : List (List Char) :=
  [['\n'], ['\r'], ['\u2028'], ['\u2029'], ['\r', '\n']]

/-- A part of a string literal. -/
inductive LiteralPart where
  /-- A character by itself. -/
  | plain (c : Char)
  /-- A backslash and one character. -/
  | letter (c : Char)
  /-- A backslash and a zero. -/
  | nul
  /-- Two hexadecimal digits. -/
  | byte (a b : Char)
  /-- Four hexadecimal digits. -/
  | unit (a b c d : Char)
  /-- Hexadecimal digits in braces. -/
  | point (digits : List Char)
  /-- A backslash and the end of a line. -/
  | continuation (lineEnd : List Char)
  deriving DecidableEq

namespace LiteralPart

/-- How a part is written. -/
def written : LiteralPart → List Char
  | plain c => [c]
  | letter c => ['\\', c]
  | nul => ['\\', '0']
  | byte a b => ['\\', 'x', a, b]
  | unit a b c d => ['\\', 'u', a, b, c, d]
  | point digits => '\\' :: 'u' :: '\x7b' :: (digits ++ ['\x7d'])
  | continuation lineEnd => '\\' :: lineEnd

/-- The character that a letter behind a backslash names. -/
def named : Char → Char
  | 'b' => '\x08'
  | 't' => '\t'
  | 'n' => '\n'
  | 'v' => '\x0b'
  | 'f' => '\x0c'
  | 'r' => '\r'
  | c => c

/-- The code units that a part denotes. -/
def units : LiteralPart → List Nat
  | plain c => unitsOf c.toNat
  | letter c => unitsOf (named c).toNat
  | nul => [0]
  | byte a b => [hexValue [a, b]]
  | unit a b c d => [hexValue [a, b, c, d]]
  | point digits => unitsOf (hexValue digits)
  | continuation _ => []

/-- Characters that may not stand behind a backslash by themselves: digits, the
letters of escapes by number, and those that end a line. -/
def isReserved (c : Char) : Bool :=
  c.isDigit || c == 'x' || c == 'u' || c == '\n' || c == '\r' || isSeparator c

/-- Whether a part may stand between some quotes in a module. -/
def IsLegal (quote : Char) : LiteralPart → Prop
  | plain c => isPlain quote c = true
  | letter c => isReserved c = false
  | nul => True
  | byte a b => isHexDigit a = true ∧ isHexDigit b = true
  | unit a b c d =>
      (isHexDigit a = true ∧ isHexDigit b = true) ∧
        isHexDigit c = true ∧ isHexDigit d = true
  | point digits =>
      (digits ≠ [] ∧ digits.all isHexDigit = true) ∧ hexValue digits < 0x110000
  | continuation lineEnd => lineEnd ∈ lineEnds

instance
    (quote : Char)
    (part : LiteralPart) :
    Decidable (part.IsLegal quote) := by
  cases part <;> unfold IsLegal <;> infer_instance

/-- No digit follows the escape sequence of a zero. -/
def MayFollow : LiteralPart → LiteralPart → Prop
  | nul, plain c => c.isDigit = false
  | _, _ => True

instance
    (first second : LiteralPart) :
    Decidable (MayFollow first second) := by
  unfold MayFollow
  split <;> infer_instance

/-- The part continues a line by a separator. -/
def continuesBySeparator : LiteralPart → Bool
  | continuation [c] => isSeparator c
  | _ => false

/-- A separator stands behind a line that is continued by a carriage return. -/
def swallows : LiteralPart → LiteralPart → Bool
  | continuation ['\r'], plain c => isSeparator c
  | _, _ => false

/-- What is read from a part that stands by itself. -/
def readAlone (part : LiteralPart) : List Nat :=
  match part with
  | continuation [c] => if isSeparator c then unitsOf c.toNat else []
  | part => part.units

/-- What is read from some parts. -/
def readUnits : List LiteralPart → List Nat
  | first :: second :: more =>
      if swallows first second then readUnits more
      else first.readAlone ++ readUnits (second :: more)
  | [part] => part.readAlone
  | [] => []

/-- Some parts, one after another. -/
def flat (parts : List LiteralPart) : List Char := parts.flatMap written

@[simp] theorem flat_nil : flat [] = [] := rfl

@[simp] theorem flat_cons
    (part : LiteralPart)
    (parts : List LiteralPart) :
    flat (part :: parts) = part.written ++ flat parts := rfl

end LiteralPart

/-- A string literal: its quotes and the parts between them. -/
structure StringLiteral where
  quote : Char
  parts : List LiteralPart
  deriving DecidableEq

namespace StringLiteral

open LiteralPart

/-- How the literal is written. -/
def written (literal : StringLiteral) : List Char :=
  literal.quote :: (flat literal.parts ++ [literal.quote])

/-- The literal may stand in a module. -/
structure IsLegal (literal : StringLiteral) : Prop where
  isQuote : literal.quote = '\'' ∨ literal.quote = '"'
  legal : ∀ part ∈ literal.parts, part.IsLegal literal.quote
  follows : literal.parts.IsChain MayFollow

/-- The text that the literal denotes. -/
def value (literal : StringLiteral) : Text :=
  .ofUnits (literal.parts.flatMap LiteralPart.units)

end StringLiteral

namespace LiteralPart

variable {quote : Char} {part : LiteralPart} {parts : List LiteralPart}

/-! ## Escape sequences -/

theorem run_hexDigits
    {digits behind : List Char}
    (areDigits : digits.all isHexDigit = true) :
    digits.length ≤ Lexeme.run isHexDigit (digits ++ behind) := by
  unfold Lexeme.run
  rw [List.takeWhile_append_of_pos (List.all_eq_true.1 areDigits),
    List.length_append]
  omega

theorem ne_brace_of_isHexDigit
    {c : Char}
    (isDigit : isHexDigit c = true) :
    c ≠ '\x7b' := by
  rintro rfl
  contradiction

theorem isOctal_eq_false
    {c : Char}
    (noDigit : c.isDigit = false) :
    ('0' ≤ c && c ≤ '7') = false := by
  rw [Bool.eq_false_iff]
  intro octal
  rw [Bool.and_eq_true, decide_eq_true_eq, decide_eq_true_eq] at octal
  have leLast : c.toNat ≤ 0x37 := UInt32.le_iff_toNat_le.1 octal.2
  have isDigit : c.isDigit = true := by
    unfold Char.isDigit
    rw [Bool.and_eq_true, decide_eq_true_eq, decide_eq_true_eq]
    exact ⟨octal.1, UInt32.le_iff_toNat_le.2 (Nat.le_trans leLast (by decide))⟩
  rw [noDigit] at isDigit
  contradiction

/-- What stands behind an escape sequence does not belong to it. -/
def EndsBefore (part : LiteralPart) (behind : List Char) : Prop :=
  (part = nul → ∀ c ∈ behind.head?, c.isDigit = false) ∧
    (part = letter '?' ∨ part = continuation ['\r'] →
      ∃ c rest, behind = c :: rest ∧ c ≠ '\n' ∧ isSeparator c = false)

theorem escapeLength?_letter
    {c : Char}
    {behind : List Char}
    (free : isReserved c = false)
    (ends : (letter c).EndsBefore behind) :
    Lexeme.escapeLength? ('\\' :: c :: behind) = some 2 := by
  unfold isReserved at free
  simp only [Bool.or_eq_false_iff, beq_eq_false_iff_ne, ne_eq] at free
  obtain ⟨⟨⟨⟨⟨noDigit, noX⟩, noU⟩, -⟩, noReturn⟩, -⟩ := free
  by_cases isMark : c = '?'
  · subst isMark
    obtain ⟨d, rest, rfl, noFeed, noSeparator⟩ := ends.2 (.inl rfl)
    unfold isSeparator at noSeparator
    simp only [Bool.or_eq_false_iff, beq_eq_false_iff_ne, ne_eq] at noSeparator
    simp [Lexeme.escapeLength?, noFeed, noSeparator]
  · have noOctal := isOctal_eq_false noDigit
    unfold Lexeme.escapeLength?
    split <;> grind

theorem escapeLength?_nul
    {behind : List Char}
    (ends : nul.EndsBefore behind) :
    Lexeme.escapeLength? ('\\' :: '0' :: behind) = some 2 := by
  have noRun : Lexeme.run (fun d => '0' ≤ d && d ≤ '7') behind = 0 := by
    unfold Lexeme.run
    cases behind with
    | nil => rfl
    | cons c behind =>
      have noOctal := isOctal_eq_false (ends.1 rfl c rfl)
      rw [List.takeWhile_cons_of_neg (by simp [noOctal])]
      rfl
  show some (2 + min 2 (Lexeme.run (fun d => '0' ≤ d && d ≤ '7') behind)) = _
  rw [noRun]
  rfl

/-- A legal escape sequence is recognised as a whole. -/
theorem escapeLength?_written
    {behind : List Char}
    (legal : part.IsLegal quote)
    (escapes : ∀ c, part ≠ plain c)
    (ends : part.EndsBefore behind) :
    Lexeme.escapeLength? (part.written ++ behind) = some part.written.length := by
  cases part with
  | plain c => exact absurd rfl (escapes c)
  | letter c => exact escapeLength?_letter legal ends
  | nul => exact escapeLength?_nul ends
  | byte a b =>
    have areDigits : [a, b].all isHexDigit = true := by
      simp [legal.1, legal.2]
    have long : 2 ≤ Lexeme.run isHexDigit ([a, b] ++ behind) :=
      run_hexDigits areDigits
    show (if 2 ≤ Lexeme.run isHexDigit ([a, b] ++ behind) then some 4 else none) = _
    rw [if_pos long]
    rfl
  | unit a b c d =>
    have areDigits : [a, b, c, d].all isHexDigit = true := by
      simp [legal.1.1, legal.1.2, legal.2.1, legal.2.2]
    have long : 4 ≤ Lexeme.run isHexDigit ([a, b, c, d] ++ behind) :=
      run_hexDigits areDigits
    have noBrace := ne_brace_of_isHexDigit legal.1.1
    show Lexeme.wordEscapeLength? ('\\' :: 'u' :: ([a, b, c, d] ++ behind)) = _
    unfold Lexeme.wordEscapeLength?
    split
    · rename_i same
      simp only [List.cons_append, List.cons.injEq, true_and] at same
      exact absurd same.1 noBrace
    · rename_i same
      simp only [List.cons.injEq, true_and] at same
      rw [← same, if_pos long]
      rfl
    · rename_i other
      exact absurd rfl (other _)
  | point digits =>
    obtain ⟨⟨nonempty, areDigits⟩, -⟩ := legal
    have runEq : Lexeme.run isHexDigit (digits ++ '\x7d' :: behind) =
        digits.length := by
      unfold Lexeme.run
      rw [List.takeWhile_append_of_pos (List.all_eq_true.1 areDigits),
        List.takeWhile_cons_of_neg (by decide), List.append_nil]
    have positive := List.length_pos_iff.2 nonempty
    show Lexeme.wordEscapeLength?
      ('\\' :: 'u' :: '\x7b' :: ((digits ++ ['\x7d']) ++ behind)) = _
    rw [List.append_assoc, List.singleton_append]
    unfold Lexeme.wordEscapeLength?
    simp [runEq, positive, written]
  | continuation lineEnd =>
    have member : lineEnd ∈ lineEnds := legal
    simp only [lineEnds, List.mem_cons, List.not_mem_nil, or_false] at member
    rcases member with rfl | rfl | rfl | rfl | rfl
    · rfl
    · obtain ⟨d, rest, rfl, noFeed, noSeparator⟩ := ends.2 (.inr rfl)
      unfold isSeparator at noSeparator
      simp only [Bool.or_eq_false_iff, beq_eq_false_iff_ne, ne_eq] at noSeparator
      simp [Lexeme.escapeLength?, noFeed, noSeparator, written]
    · rfl
    · rfl
    · rfl

/-- A separator behind a question mark or a carriage return is taken into the
escape sequence. -/
theorem escapeLength?_separator
    {c d : Char}
    (isMark : c = '?' ∨ c = '\r')
    (separates : isSeparator d = true)
    (behind : List Char) :
    Lexeme.escapeLength? ('\\' :: c :: d :: behind) = some 3 := by
  unfold isSeparator at separates
  rw [Bool.or_eq_true, beq_iff_eq, beq_iff_eq] at separates
  rcases isMark with rfl | rfl <;> rcases separates with rfl | rfl <;> rfl

/-! ## What escape sequences are read as -/

theorem codePointOf_of_lt
    {n : Nat}
    (lt : n < 0x110000) :
    codePointOf n = .ok ⟨n, lt⟩ := by
  unfold codePointOf CodePoint.ofNat?
  rw [dif_pos lt]

theorem hexDigitValue_lt
    {c : Char}
    (isDigit : isHexDigit c = true) :
    hexDigitValue c < 16 := by
  unfold isHexDigit Char.isDigit at isDigit
  unfold hexDigitValue Char.isDigit
  simp only [Bool.or_eq_true, Bool.and_eq_true, decide_eq_true_eq] at isDigit
  split
  · rename_i decimal
    rw [Bool.and_eq_true, decide_eq_true_eq, decide_eq_true_eq] at decimal
    have leLast : c.toNat ≤ 0x39 := UInt32.le_iff_toNat_le.1 decimal.2
    show c.toNat - 0x30 < 16
    omega
  · split
    · rename_i noDecimal isSmall
      have leLast : c.toNat ≤ 0x66 := by
        rcases isDigit with (decimal | small) | large
        · exact absurd (by simpa using decimal) noDecimal
        · exact UInt32.le_iff_toNat_le.1 small.2
        · have leLarge : c.toNat ≤ 0x46 := UInt32.le_iff_toNat_le.1 large.2
          omega
      show c.toNat - 0x61 + 10 < 16
      omega
    · rename_i noDecimal noSmall
      have leLast : c.toNat ≤ 0x46 := by
        rcases isDigit with (decimal | small) | large
        · exact absurd (by simpa using decimal) noDecimal
        · exact absurd small.1 noSmall
        · exact UInt32.le_iff_toNat_le.1 large.2
      show c.toNat - 0x41 + 10 < 16
      omega

theorem plainEscape_letter
    {c : Char}
    (free : isReserved c = false) :
    plainEscape [c] = [named c] := by
  have noZero : c ≠ '0' := by
    rintro rfl
    contradiction
  unfold isReserved at free
  simp only [Bool.or_eq_false_iff, beq_eq_false_iff_ne, ne_eq] at free
  unfold plainEscape named
  split <;> grind

/-- A legal escape sequence is read as what it denotes, unless it continues a line
by a separator. -/
theorem exists_escapeValue
    (legal : part.IsLegal quote)
    (escapes : ∀ c, part ≠ plain c) :
    ∃ value, escapeValue (part.written.drop 1) = .ok value ∧
      Text.units value = part.readAlone := by
  have number
      (digits : List Char)
      (lt : hexValue digits < 0x110000) :
      ∃ value, (do pure [← codePointOf (hexValue digits)] :
        Except EscapeError Text) = .ok value ∧
          Text.units value = unitsOf (hexValue digits) := by
    rw [codePointOf_of_lt lt]
    exact ⟨_, rfl, List.append_nil _⟩
  cases part with
  | plain c => exact absurd rfl (escapes c)
  | letter c =>
    refine ⟨.ofChars [named c], ?_, List.append_nil _⟩
    rw [← plainEscape_letter legal]
    show escapeValue [c] = _
    unfold escapeValue
    split <;> grind
  | nul => exact ⟨_, rfl, rfl⟩
  | byte a b =>
    have first := hexDigitValue_lt legal.1
    have second := hexDigitValue_lt legal.2
    have small : hexValue [a, b] < 0x100 := by
      show (0 * 16 + hexDigitValue a) * 16 + hexDigitValue b < _
      omega
    obtain ⟨value, read, unitsEq⟩ := number [a, b] (by omega)
    exact ⟨value, read, unitsEq.trans (unitsOf_of_lt (by omega))⟩
  | unit a b c d =>
    have first := hexDigitValue_lt legal.1.1
    have second := hexDigitValue_lt legal.1.2
    have third := hexDigitValue_lt legal.2.1
    have fourth := hexDigitValue_lt legal.2.2
    have small : hexValue [a, b, c, d] < 0x10000 := by
      show (((0 * 16 + hexDigitValue a) * 16 + hexDigitValue b) * 16 +
        hexDigitValue c) * 16 + hexDigitValue d < _
      omega
    obtain ⟨value, read, unitsEq⟩ := number [a, b, c, d] (by omega)
    refine ⟨value, ?_, unitsEq.trans (unitsOf_of_lt small)⟩
    rw [← read]
    have noBrace := ne_brace_of_isHexDigit legal.1.1
    show escapeValue ['u', a, b, c, d] = _
    unfold escapeValue
    split <;> grind
  | point digits =>
    obtain ⟨value, read, unitsEq⟩ := number digits legal.2
    refine ⟨value, ?_, unitsEq⟩
    rw [← read]
    show (do pure [← codePointOf (hexValue (digits ++ ['\x7d']).dropLast)] :
      Except EscapeError Text) = _
    rw [List.dropLast_concat]
  | continuation lineEnd =>
    have member : lineEnd ∈ lineEnds := legal
    simp only [lineEnds, List.mem_cons, List.not_mem_nil, or_false] at member
    rcases member with rfl | rfl | rfl | rfl | rfl <;> exact ⟨_, rfl, rfl⟩

/-! ## What is read and what is denoted -/

theorem readAlone_eq_units
    (other : part.continuesBySeparator = false) :
    part.readAlone = part.units := by
  unfold continuesBySeparator at other
  unfold readAlone
  split
  · simp [other, units]
  · rfl

/-- A separator is one code unit. -/
theorem length_readAlone
    (isSeparated : part.continuesBySeparator = true) :
    part.readAlone.length = 1 ∧ part.units = [] := by
  unfold continuesBySeparator at isSeparated
  split at isSeparated
  · rename_i c
    refine ⟨?_, rfl⟩
    unfold readAlone
    simp only [isSeparated, if_true]
    unfold isSeparator at isSeparated
    rw [Bool.or_eq_true, beq_iff_eq, beq_iff_eq] at isSeparated
    rcases isSeparated with rfl | rfl <;> rfl
  · contradiction

theorem swallows_units
    {first second : LiteralPart}
    (swallowed : swallows first second = true) :
    first.units = [] ∧ 0 < second.units.length := by
  unfold swallows at swallowed
  split at swallowed
  · refine ⟨rfl, ?_⟩
    show 0 < (unitsOf _).length
    unfold unitsOf
    split <;> simp
  · contradiction

/-- Where no separator is taken into a continued line, the parts are read one by
one. -/
theorem readUnits_of_isChain
    (apart : parts.IsChain fun first second => swallows first second = false) :
    readUnits parts = parts.flatMap readAlone := by
  fun_induction readUnits parts with
  | case1 first second more swallowed _ =>
    rw [(List.isChain_cons_cons.1 apart).1] at swallowed
    contradiction
  | case2 first second more _ moreHypothesis =>
    rw [moreHypothesis (List.isChain_cons_cons.1 apart).2]
    rfl
  | case3 part => exact (List.append_nil _).symm
  | case4 => rfl

/-- Parts that are read one by one are read as what they denote exactly if none
of them continues a line by a separator. -/
theorem flatMap_readAlone_eq_iff :
    parts.flatMap readAlone = parts.flatMap units ↔
      ∀ part ∈ parts, part.continuesBySeparator = false := by
  have lengthEq : (parts.flatMap readAlone).length =
      (parts.flatMap units).length + parts.countP continuesBySeparator := by
    induction parts with
    | nil => rfl
    | cons part parts partsHypothesis =>
      rw [List.flatMap_cons, List.flatMap_cons, List.length_append,
        List.length_append, partsHypothesis, List.countP_cons]
      cases isSeparated : part.continuesBySeparator with
      | false =>
        rw [readAlone_eq_units isSeparated, if_neg (by simp)]
        omega
      | true =>
        obtain ⟨one, none⟩ := length_readAlone isSeparated
        rw [one, none, if_pos rfl, List.length_nil]
        omega
  constructor
  · intro same
    rw [same] at lengthEq
    have zero : parts.countP continuesBySeparator = 0 := by omega
    simpa [List.countP_eq_zero] using zero
  · intro others
    exact List.flatMap_congr fun part isPart => readAlone_eq_units (others part isPart)

/-- Parts of which none continues a line by a separator are read as what they
denote exactly if no separator is taken into a continued line. -/
theorem readUnits_eq_iff_isChain
    (others : ∀ part ∈ parts, part.continuesBySeparator = false) :
    readUnits parts = parts.flatMap units ↔
      parts.IsChain fun first second => swallows first second = false := by
  have shorter : (readUnits parts).length ≤ (parts.flatMap units).length ∧
      ((readUnits parts).length = (parts.flatMap units).length →
        parts.IsChain fun first second => swallows first second = false) := by
    fun_induction readUnits parts with
    | case1 first second more swallowed moreHypothesis =>
      obtain ⟨none, some⟩ := swallows_units swallowed
      have := (moreHypothesis fun part isPart => others part
        (List.mem_cons_of_mem _ (List.mem_cons_of_mem _ isPart))).1
      simp only [List.flatMap_cons, List.length_append, none, List.length_nil]
      exact ⟨by omega, fun _ => by omega⟩
    | case2 first second more apart moreHypothesis =>
      obtain ⟨le, chain⟩ := moreHypothesis fun part isPart =>
        others part (List.mem_cons_of_mem _ isPart)
      rw [readAlone_eq_units (others first List.mem_cons_self), List.flatMap_cons,
        List.length_append, List.length_append]
      exact ⟨by omega, fun same => List.isChain_cons_cons.2
        ⟨by simpa using apart, chain (by omega)⟩⟩
    | case3 part =>
      rw [readAlone_eq_units (others part List.mem_cons_self)]
      simp
    | case4 => simp
  constructor
  · exact fun same => shorter.2 (congrArg List.length same)
  · exact fun apart =>
      (readUnits_of_isChain apart).trans (flatMap_readAlone_eq_iff.2 others)

theorem lt_of_mem_readAlone
    {unit : Nat}
    (legal : part.IsLegal quote)
    (member : unit ∈ part.readAlone) :
    unit < 0x10000 := by
  have ofText {text : Text} (same : Text.units text = part.readAlone) :
      unit < 0x10000 :=
    Text.lt_of_mem_units (same ▸ member)
  by_cases escapes : ∀ c, part ≠ plain c
  · obtain ⟨value, -, same⟩ := exists_escapeValue legal escapes
    exact ofText same
  · push Not at escapes
    obtain ⟨c, rfl⟩ := escapes
    have same : Text.units (.ofChars [c]) = (plain c).readAlone :=
      List.append_nil _
    exact ofText same

theorem lt_of_mem_units
    {unit : Nat}
    (legal : part.IsLegal quote)
    (member : unit ∈ part.units) :
    unit < 0x10000 := by
  cases isSeparated : part.continuesBySeparator with
  | false =>
    rw [← readAlone_eq_units isSeparated] at member
    exact lt_of_mem_readAlone legal member
  | true =>
    rw [(length_readAlone isSeparated).2] at member
    contradiction

theorem lt_of_mem_readUnits
    {unit : Nat}
    (legal : ∀ part ∈ parts, part.IsLegal quote)
    (member : unit ∈ readUnits parts) :
    unit < 0x10000 := by
  fun_induction readUnits parts with
  | case1 first second more _ moreHypothesis =>
    exact moreHypothesis (fun part isPart => legal part
      (List.mem_cons_of_mem _ (List.mem_cons_of_mem _ isPart))) member
  | case2 first second more _ moreHypothesis =>
    rcases List.mem_append.1 member with isFirst | isLater
    · exact lt_of_mem_readAlone (legal first List.mem_cons_self) isFirst
    · exact moreHypothesis (fun part isPart => legal part
        (List.mem_cons_of_mem _ isPart)) isLater
  | case3 part => exact lt_of_mem_readAlone (legal part List.mem_cons_self) member
  | case4 => contradiction

end LiteralPart
end Syntax
end StoryMigration
