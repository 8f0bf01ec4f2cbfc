/-!
# Text with unpaired surrogates

String literals denote sequences of UTF-16 code units, in which a surrogate can stand without its
partner. A text here is a sequence of code points that may contain such surrogates. Main statement:
`Text.ofString` embeds ordinary strings, and `Text.toString?` takes exactly those back.
-/

namespace StoryMigration

/-- A Unicode code point, surrogates included. -/
structure CodePoint where
  value : Nat
  lt : value < 0x110000
  deriving DecidableEq, Repr

instance : Inhabited CodePoint := ⟨⟨0, by decide⟩⟩

namespace CodePoint

/-- The code point of a character. -/
def ofChar (c : Char) : CodePoint :=
  ⟨c.toNat, by
    have valid := c.valid
    simp only [UInt32.isValidChar, Nat.isValidChar] at valid
    show c.val.toNat < _
    omega⟩

/-- A number as a code point. -/
def ofNat? (n : Nat) : Option CodePoint :=
  if lt : n < 0x110000 then some ⟨n, lt⟩ else none

/-- Surrogates that start a pair. -/
def isHigh (p : CodePoint) : Bool := 0xd800 ≤ p.value && p.value < 0xdc00

/-- Surrogates that end a pair. -/
def isLow (p : CodePoint) : Bool := 0xdc00 ≤ p.value && p.value < 0xe000

/-- Surrogates, which are no characters. -/
def isSurrogate (p : CodePoint) : Bool := p.isHigh || p.isLow

/-- The character of a code point, unless it is a surrogate. -/
def toChar? (p : CodePoint) : Option Char :=
  if p.isSurrogate then none else some (Char.ofNat p.value)

/-- The code point that a pair of surrogates stands for. -/
def ofPair (high low : CodePoint) (isHigh : high.isHigh) (isLow : low.isLow) : CodePoint :=
  ⟨0x10000 + (high.value - 0xd800) * 0x400 + (low.value - 0xdc00), by
    simp only [CodePoint.isHigh, CodePoint.isLow, Bool.and_eq_true, decide_eq_true_eq] at isHigh isLow
    omega⟩

theorem toChar?_ofChar (c : Char) : (ofChar c).toChar? = some c := by
  have valid := c.valid
  simp only [UInt32.isValidChar, Nat.isValidChar] at valid
  have hval : (ofChar c).value = c.val.toNat := rfl
  have notSurrogate : (ofChar c).isSurrogate = false := by
    simp only [isSurrogate, isHigh, isLow, hval, Bool.or_eq_false_iff, Bool.and_eq_false_iff,
      decide_eq_false_iff_not]
    omega
  simp only [toChar?, notSurrogate]
  exact congrArg some (Char.ofNat_toNat c)

end CodePoint

/-- A sequence of code points. -/
abbrev Text := List CodePoint

namespace Text

/-- The text of a list of characters. -/
def ofChars (chars : List Char) : Text := chars.map CodePoint.ofChar

/-- The text of a string. -/
def ofString (s : String) : Text := ofChars s.toList

/-- The characters of a text without surrogates. -/
def toChars? (text : Text) : Option (List Char) := text.mapM CodePoint.toChar?

/-- The string of a text without surrogates. -/
def toString? (text : Text) : Option String := text.toChars?.map String.ofList

/-- Joins every high surrogate and the low one behind it into the code point they stand for. -/
def paired : Text → Text
  | high :: low :: rest =>
    if h : high.isHigh = true ∧ low.isLow = true then
      CodePoint.ofPair high low h.1 h.2 :: paired rest
    else high :: paired (low :: rest)
  | text => text

/-- The UTF-16 code units of a text. -/
def units (text : Text) : List Nat :=
  text.flatMap fun p =>
    if p.value < 0x10000 then [p.value]
    else [0xd800 + (p.value - 0x10000) / 0x400, 0xdc00 + (p.value - 0x10000) % 0x400]

/-- The text of UTF-16 code units; numbers beyond code units are left out. -/
def ofUnits (units : List Nat) : Text := paired (units.filterMap CodePoint.ofNat?)

theorem toChars?_ofChars (chars : List Char) : (ofChars chars).toChars? = some chars := by
  induction chars with
  | nil => rfl
  | cons c rest ih =>
    simp only [toChars?, ofChars] at ih
    simp [toChars?, ofChars, CodePoint.toChar?_ofChar, ih]

theorem toString?_ofString (s : String) : (ofString s).toString? = some s := by
  simp [toString?, ofString, toChars?_ofChars]

/-- The code points of a text as characters, unpaired surrogates as the replacement character. -/
def legible (text : Text) : List Char :=
  text.map fun p => p.toChar?.getD '\ufffd'

end Text

end StoryMigration
