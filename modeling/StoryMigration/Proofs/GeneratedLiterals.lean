import StoryMigration.Proofs.LiteralStatement

/-!
# String literals that are generated

The literal that is generated for a value has one part for each code point of
it, which denotes that code point and keeps to the line.  So a value in which no
surrogates wait to be joined is what the literal is read as.
-/

namespace StoryMigration

namespace CodePoint

theorem small_of_toChar?
    {p : CodePoint}
    (noChar : p.toChar? = none) :
    p.value < 0x10000 := by
  unfold toChar? at noChar
  split at noChar
  · rename_i isSurrogate
    rw [CodePoint.isSurrogate, Bool.or_eq_true, isHigh_iff, isLow_iff] at isSurrogate
    omega
  · contradiction

theorem toNat_of_toChar?
    {p : CodePoint}
    {c : Char}
    (isChar : p.toChar? = some c) :
    c.toNat = p.value := by
  unfold toChar? at isChar
  split at isChar
  · contradiction
  · rename_i noSurrogate
    have lt := p.lt
    rw [CodePoint.isSurrogate, Bool.or_eq_true, isHigh_iff, isLow_iff] at noSurrogate
    have valid : p.value.isValidChar := by
      unfold Nat.isValidChar
      omega
    rw [← Option.some.inj isChar, Char.ofNat, dif_pos valid]
    rfl

end CodePoint

namespace Layout

open Syntax LiteralPart

variable {layout : Layout} {quote : Char} {value : Text}

/-! ## Code points by their number -/

theorem hexDigitValue_hexDigit :
    ∀ n < 16, hexDigitValue (hexDigit n) = n := by
  decide

/-- The four digits of a code unit. -/
def unitPart (n : Nat) : LiteralPart :=
  .unit (hexDigit (n / 0x1000 % 16)) (hexDigit (n / 0x100 % 16))
    (hexDigit (n / 16 % 16)) (hexDigit (n % 16))

theorem isLegal_unitPart
    (n : Nat) :
    (unitPart n).IsLegal quote :=
  ⟨⟨isHexDigit_hexDigit _ (Nat.mod_lt _ (by decide)),
      isHexDigit_hexDigit _ (Nat.mod_lt _ (by decide))⟩,
    isHexDigit_hexDigit _ (Nat.mod_lt _ (by decide)),
    isHexDigit_hexDigit _ (Nat.mod_lt _ (by decide))⟩

theorem units_unitPart
    {n : Nat}
    (small : n < 0x10000) :
    (unitPart n).units = unitsOf n := by
  have digit (k : Nat) : hexDigitValue (hexDigit (k % 16)) = k % 16 :=
    hexDigitValue_hexDigit _ (Nat.mod_lt _ (by decide))
  have whole : hexValue [hexDigit (n / 0x1000 % 16), hexDigit (n / 0x100 % 16),
      hexDigit (n / 16 % 16), hexDigit (n % 16)] = n := by
    show (((0 * 16 + hexDigitValue (hexDigit (n / 0x1000 % 16))) * 16 +
      hexDigitValue (hexDigit (n / 0x100 % 16))) * 16 +
        hexDigitValue (hexDigit (n / 16 % 16))) * 16 +
          hexDigitValue (hexDigit (n % 16)) = n
    rw [digit, digit, digit, digit]
    omega
  rw [unitsOf_of_lt small]
  exact congrArg (fun unit => [unit]) whole

theorem keepsLine_unitEscape
    {n : Nat}
    {c : Char}
    (member : c ∈ unitEscape n) :
    c ≠ '\r' ∧ isLineEnd c = false := by
  have digit : ∀ n < 16, hexDigit n ≠ '\r' ∧ isLineEnd (hexDigit n) = false := by
    decide
  unfold unitEscape at member
  simp only [List.mem_cons, List.not_mem_nil, or_false] at member
  rcases member with rfl | rfl | rfl | rfl | rfl | rfl
  · decide
  · decide
  · exact digit _ (Nat.mod_lt _ (by decide))
  · exact digit _ (Nat.mod_lt _ (by decide))
  · exact digit _ (Nat.mod_lt _ (by decide))
  · exact digit _ (Nat.mod_lt _ (by decide))

/-! ## The part of a code point -/

/-- A part of a literal that stands for a code point, whatever is around it. -/
structure Denotes
    (quote : Char)
    (part : LiteralPart)
    (p : CodePoint) : Prop where
  legal : part.IsLegal quote
  units : part.units = unitsOf p.value
  noNul : part ≠ .nul
  noContinuation : ∀ lineEnd, part ≠ .continuation lineEnd
  keepsLine : ∀ c ∈ part.written, c ≠ '\r' ∧ isLineEnd c = false

theorem denotes_unitPart
    {p : CodePoint}
    (small : p.value < 0x10000) :
    Denotes quote (unitPart p.value) p where
  legal := isLegal_unitPart p.value
  units := units_unitPart small
  noNul := nofun
  noContinuation := nofun
  keepsLine _ member := keepsLine_unitEscape member

theorem denotes_letter
    {p : CodePoint}
    {c : Char}
    (isLetter : isReserved c = false ∧ c ≠ '\r' ∧ isLineEnd c = false)
    (valueEq : (named c).toNat = p.value) :
    Denotes quote (.letter c) p where
  legal := isLetter.1
  units := congrArg unitsOf valueEq
  noNul := nofun
  noContinuation := nofun
  keepsLine d member := by
    rcases List.mem_cons.1 member with rfl | member
    · decide
    · rw [List.mem_singleton.1 member]
      exact isLetter.2

/-- What a code point is written as denotes it. -/
theorem exists_part
    (isQuote : quote = '\'' ∨ quote = '"')
    (p : CodePoint) :
    ∃ part, part.written = escaped quote p ∧ Denotes quote part p := by
  unfold escaped
  cases isChar : p.toChar? with
  | none => exact ⟨unitPart p.value, rfl, denotes_unitPart (CodePoint.small_of_toChar? isChar)⟩
  | some c =>
    have valueEq := CodePoint.toNat_of_toChar? isChar
    simp only [beq_iff_eq, Bool.or_eq_true]
    split
    · rename_i isEscape
      rw [isEscape] at valueEq
      exact ⟨.letter '\\', rfl, denotes_letter (by decide) valueEq⟩
    rename_i noEscape
    split
    · rename_i isOwn
      rw [isOwn] at valueEq
      refine ⟨.letter quote, rfl, ?_⟩
      rcases isQuote with rfl | rfl <;> exact denotes_letter (by decide) valueEq
    rename_i noQuote
    split
    · rename_i isFeed
      rw [isFeed] at valueEq
      exact ⟨.letter 'n', rfl, denotes_letter (by decide) valueEq⟩
    rename_i noFeed
    split
    · rename_i isReturn
      rw [isReturn] at valueEq
      exact ⟨.letter 'r', rfl, denotes_letter (by decide) valueEq⟩
    rename_i noReturn
    split
    · rename_i isTab
      rw [isTab] at valueEq
      exact ⟨.letter 't', rfl, denotes_letter (by decide) valueEq⟩
    split
    · rename_i separates
      refine ⟨unitPart p.value, by rw [valueEq]; rfl, denotes_unitPart ?_⟩
      rw [← valueEq]
      rcases separates with rfl | rfl <;> decide
    · rename_i noSeparator
      rw [not_or] at noSeparator
      refine ⟨.plain c, rfl, ?_, congrArg unitsOf valueEq, nofun, nofun, ?_⟩
      · simp [IsLegal, isPlain, noEscape, noQuote, noFeed, noReturn]
      · intro d member
        rw [List.mem_singleton.1 member]
        simp [isLineEnd, noFeed, noReturn, noSeparator]

/-- What a value is written as has one part for each of its code points. -/
theorem exists_parts
    (isQuote : quote = '\'' ∨ quote = '"')
    (value : Text) :
    ∃ parts, flat parts = value.flatMap (escaped quote) ∧
      List.Forall₂ (Denotes quote) parts value := by
  induction value with
  | nil => exact ⟨[], rfl, .nil⟩
  | cons p value valueHypothesis =>
    obtain ⟨part, writtenEq, denotes⟩ := exists_part isQuote p
    obtain ⟨parts, flatEq, each⟩ := valueHypothesis
    refine ⟨part :: parts, ?_, .cons denotes each⟩
    rw [flat_cons, writtenEq, flatEq, List.flatMap_cons]

section Parts

variable {parts : List LiteralPart}

theorem exists_of_mem_parts
    {part : LiteralPart}
    (each : List.Forall₂ (Denotes quote) parts value)
    (member : part ∈ parts) :
    ∃ p, Denotes quote part p := by
  induction each with
  | nil => contradiction
  | cons denotes _ eachHypothesis =>
    rcases List.mem_cons.1 member with rfl | isLater
    · exact ⟨_, denotes⟩
    · exact eachHypothesis isLater

theorem units_parts
    (each : List.Forall₂ (Denotes quote) parts value) :
    parts.flatMap LiteralPart.units = Text.units value := by
  induction each with
  | nil => rfl
  | cons denotes _ eachHypothesis =>
    rw [List.flatMap_cons, denotes.units, eachHypothesis, Text.units_cons]

/-- What is written for a value is read part by part. -/
theorem readUnits_parts
    (each : List.Forall₂ (Denotes quote) parts value) :
    readUnits parts = Text.units value := by
  have noContinuation {part : LiteralPart} (member : part ∈ parts) :=
    (exists_of_mem_parts each member).elim fun _ denotes => denotes.noContinuation
  have apart : parts.IsChain fun first second => swallows first second = false := by
    refine (List.pairwise_of_forall_mem_list fun first isFirst second _ => ?_).isChain
    unfold swallows
    split
    · exact absurd rfl (noContinuation isFirst _)
    · rfl
  rw [readUnits_of_isChain apart, ← units_parts each]
  refine flatMap_readAlone_eq_iff.2 fun part isPart => ?_
  unfold continuesBySeparator
  split
  · exact absurd rfl (noContinuation isPart _)
  · rfl

theorem isLegal_parts
    (isQuote : quote = '\'' ∨ quote = '"')
    (each : List.Forall₂ (Denotes quote) parts value) :
    StringLiteral.IsLegal ⟨quote, parts⟩ where
  isQuote := isQuote
  legal part isPart := (exists_of_mem_parts each isPart).elim fun _ denotes =>
    denotes.legal
  follows := by
    refine (List.pairwise_of_forall_mem_list fun first isFirst second _ => ?_).isChain
    obtain ⟨p, denotes⟩ := exists_of_mem_parts each isFirst
    unfold MayFollow
    split
    · exact absurd rfl denotes.noNul
    · trivial

theorem keepsLine_parts
    (isQuote : quote = '\'' ∨ quote = '"')
    (each : List.Forall₂ (Denotes quote) parts value)
    {c : Char}
    (member : c ∈ StringLiteral.written ⟨quote, parts⟩) :
    c ≠ '\r' ∧ isLineEnd c = false := by
  have ofQuote : quote ≠ '\r' ∧ isLineEnd quote = false := by
    rcases isQuote with rfl | rfl <;> decide
  unfold StringLiteral.written at member
  rw [List.mem_cons, List.mem_append, List.mem_singleton] at member
  rcases member with rfl | inside | rfl
  · exact ofQuote
  · obtain ⟨part, isPart, isWritten⟩ := List.mem_flatMap.1 inside
    obtain ⟨p, denotes⟩ := exists_of_mem_parts each isPart
    exact denotes.keepsLine c isWritten
  · exact ofQuote

end Parts

/-! ## The literal of a value -/

/-- What is generated for a value without NUL, in which no high surrogate stands
directly in front of a low one, is one legal literal in the quotes of the layout
on one line, and it is read as the value. -/
theorem string_readsAs
    (layout : Layout)
    {value : Text}
    (noNul : ∀ p ∈ value, p.value ≠ 0)
    (unpaired : value.IsUnpaired) :
    ∃ literal : StringLiteral, literal.IsLegal ∧
      literal.quote = layout.quoteStyle.char ∧
      (layout.string value).toList = literal.written ∧
      (∀ c ∈ literal.written, c ≠ '\x00' ∧ c ≠ '\r' ∧ isLineEnd c = false) ∧
      literal.ReadsAs value := by
  have isQuote := quoteStyle_char layout.quoteStyle
  obtain ⟨parts, flatEq, each⟩ := exists_parts isQuote value
  have legal := isLegal_parts isQuote each
  have writtenEq : (layout.string value).toList =
      StringLiteral.written ⟨layout.quoteStyle.char, parts⟩ := by
    rw [toList_string, StringLiteral.written, flatEq]
  refine ⟨_, legal, rfl, writtenEq, fun c member => ⟨?_, keepsLine_parts isQuote each
    member⟩, ?_⟩
  · rintro rfl
    rw [← writtenEq] at member
    obtain ⟨p, isPoint, isNul⟩ := nul_mem_string_iff.1 member
    exact noNul p isPoint isNul
  · have reads := legal.readsAs
    rw [readUnits_parts each, Text.ofUnits_units, unpaired.paired_eq] at reads
    exact reads

/-- Quotes, backslashes, separators and surrogates: a low one in front of a digit
and a high one in front of a character of two code units. -/
def awkward : Text :=
  Text.ofString "\"'\\n\n\u2028" ++ [⟨0xdc00, by decide⟩] ++
    Text.ofString "0" ++ [⟨0xd83d, by decide⟩] ++ Text.ofString "😀"

theorem string_awkward_readsAs :
    (∀ p ∈ awkward, p.value ≠ 0) ∧ awkward.IsUnpaired ∧
      ∃ literal : StringLiteral, literal.IsLegal ∧ literal.quote = '"' ∧
        (({ quoteStyle := .double } : Layout).string awkward).toList =
          literal.written ∧
        literal.ReadsAs awkward := by
  have noNul : ∀ p ∈ awkward, p.value ≠ 0 := by decide
  have unpaired : awkward.IsUnpaired := by decide
  obtain ⟨literal, legal, quoteEq, writtenEq, -, reads⟩ :=
    string_readsAs { quoteStyle := .double } noNul unpaired
  exact ⟨noNul, unpaired, literal, legal, quoteEq, writtenEq, reads⟩

end Layout
end StoryMigration
