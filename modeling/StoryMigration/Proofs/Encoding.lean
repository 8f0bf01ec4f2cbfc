import StoryMigration.Text.Utf8

/-!
# Reading back UTF-8

Decoding undoes encoding.  An offset into the bytes of a text is a character
boundary when the bytes on both sides of it are texts of their own.  Every
ASCII byte has boundaries on its two sides, and what lies between two
boundaries is text.
-/

namespace StoryMigration
namespace Utf8

/-! ## One character -/

theorem toNat_ofNat_lt
    {value : Nat}
    (small : value < 256) :
    (UInt8.ofNat value).toNat = value := by
  rw [UInt8.toNat_ofNat']
  omega

theorem isContinuation_ofNat
    (value : Nat) :
    isContinuation (UInt8.ofNat (value % 64 + 128)) = true := by
  have byte := toNat_ofNat_lt (by omega : value % 64 + 128 < 256)
  simp only [isContinuation, Bool.and_eq_true, decide_eq_true_eq,
    UInt8.le_iff_toNat_le, UInt8.lt_iff_toNat_lt, byte]
  simp only [UInt8.reduceToNat]
  omega

theorem payload_ofNat
    (value : Nat) :
    payload (UInt8.ofNat (value % 64 + 128)) = value % 64 := by
  rw [payload, toNat_ofNat_lt (by omega)]
  omega

theorem decode?_one
    {a : UInt8}
    (small : a.toNat < 0x80)
    (rest : List UInt8) :
    decode? (a :: rest) = (decode? rest).map (Char.ofNat a.toNat :: ·) := by
  have lead : a < 0x80 := by
    rw [UInt8.lt_iff_toNat_lt]
    exact small
  rw [decode?.eq_def]
  simp only [if_pos lead]

theorem decode?_two
    {a b : UInt8}
    (least : 0xc0 ≤ a.toNat)
    (most : a.toNat < 0xe0)
    (tail : isContinuation b = true)
    (rest : List UInt8) :
    decode? (a :: b :: rest) =
      (charAtLeast? 0x80 (a.toNat % 32 * 64 + payload b)).bind fun c =>
        (decode? rest).map (c :: ·) := by
  have notAscii : ¬a < 0x80 := by simp [UInt8.lt_iff_toNat_lt]; omega
  have notTail : ¬a < 0xc0 := by simp [UInt8.lt_iff_toNat_lt]; omega
  have lead : a < 0xe0 := by rw [UInt8.lt_iff_toNat_lt]; exact most
  rw [decode?.eq_def]
  simp only [if_neg notAscii, if_neg notTail, if_pos lead, if_pos tail]
  rfl

theorem decode?_three
    {a b d : UInt8}
    (least : 0xe0 ≤ a.toNat)
    (most : a.toNat < 0xf0)
    (second : isContinuation b = true)
    (third : isContinuation d = true)
    (rest : List UInt8) :
    decode? (a :: b :: d :: rest) =
      (charAtLeast? 0x800
          (a.toNat % 16 * 4096 + payload b * 64 + payload d)).bind fun c =>
        (decode? rest).map (c :: ·) := by
  have notAscii : ¬a < 0x80 := by simp [UInt8.lt_iff_toNat_lt]; omega
  have notTail : ¬a < 0xc0 := by simp [UInt8.lt_iff_toNat_lt]; omega
  have notTwo : ¬a < 0xe0 := by simp [UInt8.lt_iff_toNat_lt]; omega
  have lead : a < 0xf0 := by rw [UInt8.lt_iff_toNat_lt]; exact most
  rw [decode?.eq_def]
  simp only [if_neg notAscii, if_neg notTail, if_neg notTwo, if_pos lead,
    second, third, Bool.and_self, if_true]
  rfl

theorem decode?_four
    {a b d e : UInt8}
    (least : 0xf0 ≤ a.toNat)
    (most : a.toNat < 0xf8)
    (second : isContinuation b = true)
    (third : isContinuation d = true)
    (fourth : isContinuation e = true)
    (rest : List UInt8) :
    decode? (a :: b :: d :: e :: rest) =
      (charAtLeast? 0x10000
          (a.toNat % 8 * 262144 + payload b * 4096 + payload d * 64 +
            payload e)).bind fun c =>
        (decode? rest).map (c :: ·) := by
  have notAscii : ¬a < 0x80 := by simp [UInt8.lt_iff_toNat_lt]; omega
  have notTail : ¬a < 0xc0 := by simp [UInt8.lt_iff_toNat_lt]; omega
  have notTwo : ¬a < 0xe0 := by simp [UInt8.lt_iff_toNat_lt]; omega
  have notThree : ¬a < 0xf0 := by simp [UInt8.lt_iff_toNat_lt]; omega
  have lead : a < 0xf8 := by rw [UInt8.lt_iff_toNat_lt]; exact most
  rw [decode?.eq_def]
  simp only [if_neg notAscii, if_neg notTail, if_neg notTwo, if_neg notThree,
    if_pos lead, second, third, fourth, Bool.and_self, if_true]
  rfl

/-- A code point that needs as many bytes as it has is read as its
character. -/
theorem charAtLeast?_val
    (c : Char)
    {least : Nat}
    (enough : least ≤ c.val.toNat) :
    charAtLeast? least c.val.toNat = some c := by
  have valid := c.valid
  simp only [UInt32.isValidChar, Nat.isValidChar] at valid
  rw [charAtLeast?, if_pos ⟨enough, valid⟩]
  exact congrArg some (Char.ofNat_toNat c)

/-- The bytes of one character are read as that character. -/
theorem decode?_encodeChar_append
    (c : Char)
    (rest : List UInt8) :
    decode? (String.utf8EncodeChar c ++ rest) =
      (decode? rest).map (c :: ·) := by
  have valid := c.valid
  simp only [UInt32.isValidChar, Nat.isValidChar] at valid
  have whole (least value : Nat) (enough : least ≤ c.val.toNat)
      (same : value = c.val.toNat) : charAtLeast? least value = some c := by
    rw [same, charAtLeast?_val c enough]
  fun_cases String.utf8EncodeChar with
  | case1 value small =>
    have byte := toNat_ofNat_lt (by omega : value < 256)
    rw [List.cons_append, List.nil_append, decode?_one (by omega), byte]
    exact congrArg (fun d => (decode? rest).map (d :: ·))
      (Char.ofNat_toNat c)
  | case2 value _ small =>
    have lead := toNat_ofNat_lt (by omega : value / 64 % 0x20 + 0xc0 < 256)
    simp only [List.cons_append, List.nil_append]
    rw [decode?_two (by omega) (by omega) (isContinuation_ofNat _),
      payload_ofNat, lead, whole _ _ (by omega) (by omega)]
    rfl
  | case3 value _ _ small =>
    have lead :=
      toNat_ofNat_lt (by omega : value / 4096 % 0x10 + 0xe0 < 256)
    simp only [List.cons_append, List.nil_append]
    rw [decode?_three (by omega) (by omega) (isContinuation_ofNat _)
        (isContinuation_ofNat _),
      payload_ofNat, payload_ofNat, lead, whole _ _ (by omega) (by omega)]
    rfl
  | case4 value _ _ _ =>
    have lead :=
      toNat_ofNat_lt (by omega : value / 262144 % 0x08 + 0xf0 < 256)
    simp only [List.cons_append, List.nil_append]
    rw [decode?_four (by omega) (by omega) (isContinuation_ofNat _)
        (isContinuation_ofNat _) (isContinuation_ofNat _),
      payload_ofNat, payload_ofNat, payload_ofNat, lead,
      whole _ _ (by omega) (by omega)]
    rfl

/-! ## Whole texts -/

@[simp] theorem encode_nil : encode [] = [] := rfl

@[simp] theorem encode_cons
    (c : Char)
    (chars : List Char) :
    encode (c :: chars) = String.utf8EncodeChar c ++ encode chars := by
  simp [encode]

@[simp] theorem encode_append
    (front back : List Char) :
    encode (front ++ back) = encode front ++ encode back := by
  simp [encode]

theorem decode?_encode_append
    (front : List Char)
    (rest : List UInt8) :
    decode? (encode front ++ rest) = (decode? rest).map (front ++ ·) := by
  induction front with
  | nil => simp
  | cons c front tailHypothesis =>
    rw [encode_cons, List.append_assoc, decode?_encodeChar_append,
      tailHypothesis, Option.map_map]
    rfl

/-- Decoding undoes encoding. -/
theorem decode?_encode
    (chars : List Char) :
    decode? (encode chars) = some chars := by
  have read := decode?_encode_append chars []
  rw [List.append_nil] at read
  rw [read, decode?]
  simp

/-- The string that some bytes encode is read back from them. -/
theorem toString?_ofString
    (text : String) :
    toString? (ofString text) = some text := by
  rw [toString?, ofString, decode?_encode, Option.map_some,
    String.ofList_toList]

/-! ## Character boundaries -/

/-- Bytes that encode some characters. -/
def IsText (bytes : List UInt8) : Prop :=
  ∃ chars, bytes = encode chars

/-- An offset that cuts no character in two. -/
def IsBoundary (bytes : List UInt8) (offset : Nat) : Prop :=
  IsText (bytes.take offset) ∧ IsText (bytes.drop offset)

theorem IsText.nil : IsText [] := ⟨[], rfl⟩

theorem IsText.ofString (text : String) : IsText (Utf8.ofString text) :=
  ⟨text.toList, rfl⟩

/-- Bytes of a text are read as the string that they encode. -/
theorem IsText.exists_string
    {bytes : List UInt8}
    (text : IsText bytes) :
    ∃ string, toString? bytes = some string ∧
      Utf8.ofString string = bytes := by
  obtain ⟨chars, rfl⟩ := text
  have same : Utf8.ofString (String.ofList chars) = encode chars := by
    rw [Utf8.ofString, String.toList_ofList]
  refine ⟨String.ofList chars, ?_, same⟩
  rw [← same, toString?_ofString]

theorem IsText.append
    {front back : List UInt8}
    (frontText : IsText front)
    (backText : IsText back) :
    IsText (front ++ back) := by
  obtain ⟨first, rfl⟩ := frontText
  obtain ⟨second, rfl⟩ := backText
  exact ⟨first ++ second, (encode_append first second).symm⟩

/-- What follows a text inside a text is a text. -/
theorem IsText.of_append_left
    {front back : List UInt8}
    (whole : IsText (front ++ back))
    (frontText : IsText front) :
    IsText back := by
  obtain ⟨chars, whole⟩ := whole
  obtain ⟨first, rfl⟩ := frontText
  have read := decode?_encode chars
  rw [← whole, decode?_encode_append] at read
  obtain ⟨second, -, rfl⟩ := Option.map_eq_some_iff.1 read
  rw [encode_append, List.append_cancel_left_eq] at whole
  exact ⟨second, whole⟩

theorem IsText.boundary_zero
    {bytes : List UInt8}
    (text : IsText bytes) :
    IsBoundary bytes 0 := by
  refine ⟨?_, ?_⟩
  · rw [List.take_zero]
    exact IsText.nil
  · rw [List.drop_zero]
    exact text

theorem IsText.boundary_length
    {bytes : List UInt8}
    (text : IsText bytes) :
    IsBoundary bytes bytes.length := by
  refine ⟨?_, ?_⟩
  · rw [List.take_length]
    exact text
  · rw [List.drop_length]
    exact IsText.nil

/-- The bytes between two boundaries are a text. -/
theorem IsBoundary.isText_between
    {bytes : List UInt8}
    {first last : Nat}
    (firstBoundary : IsBoundary bytes first)
    (lastBoundary : IsBoundary bytes last)
    (ordered : first ≤ last) :
    IsText ((bytes.drop first).take (last - first)) := by
  have split : bytes.take last =
      bytes.take first ++ (bytes.drop first).take (last - first) := by
    rw [← List.take_append_drop first (bytes.take last), List.take_take,
      Nat.min_eq_left ordered, List.drop_take]
  have whole := lastBoundary.1
  rw [split] at whole
  exact whole.of_append_left firstBoundary.1

/-- The bytes of a character are one ASCII byte, or none of them is ASCII. -/
theorem encodeChar_ascii
    (c : Char) :
    (∃ b, String.utf8EncodeChar c = [b]) ∨
      ∀ b ∈ String.utf8EncodeChar c, 0x80 ≤ b.toNat := by
  fun_cases String.utf8EncodeChar with
  | case1 value small => exact .inl ⟨_, rfl⟩
  | case2 value _ small =>
    refine .inr fun b member => ?_
    simp only [List.mem_cons, List.not_mem_nil, or_false] at member
    rcases member with rfl | rfl <;> rw [toNat_ofNat_lt (by omega)] <;> omega
  | case3 value _ _ small =>
    refine .inr fun b member => ?_
    simp only [List.mem_cons, List.not_mem_nil, or_false] at member
    rcases member with rfl | rfl | rfl <;> rw [toNat_ofNat_lt (by omega)] <;>
      omega
  | case4 value _ _ _ =>
    refine .inr fun b member => ?_
    simp only [List.mem_cons, List.not_mem_nil, or_false] at member
    rcases member with rfl | rfl | rfl | rfl <;>
      rw [toNat_ofNat_lt (by omega)] <;> omega

/-- An ASCII byte behind some bytes lies behind the whole first character, or
is that character. -/
theorem encodeChar_append_ascii
    {c : Char}
    {rest front back : List UInt8}
    {b : UInt8}
    (ascii : b.toNat < 0x80)
    (same : String.utf8EncodeChar c ++ rest = front ++ b :: back) :
    (front = [] ∧ String.utf8EncodeChar c = [b] ∧ rest = back) ∨
      ∃ more, front = String.utf8EncodeChar c ++ more ∧
        rest = more ++ b :: back := by
  rcases List.append_eq_append_iff.1 same with
    ⟨more, frontEq, restEq⟩ | ⟨more, charEq, restEq⟩
  · exact .inr ⟨more, frontEq, restEq⟩
  · cases more with
    | nil =>
      rw [List.append_nil] at charEq
      rw [List.nil_append] at restEq
      exact .inr ⟨[], by rw [charEq, List.append_nil], restEq.symm⟩
    | cons head more =>
      rw [List.cons_append, List.cons.injEq] at restEq
      obtain ⟨rfl, backEq⟩ := restEq
      rcases encodeChar_ascii c with ⟨single, alone⟩ | large
      · rw [alone, List.singleton_eq_append_iff] at charEq
        rcases charEq with ⟨frontEq, tailEq⟩ | ⟨-, tailEq⟩
        · rw [List.cons.injEq] at tailEq
          obtain ⟨rfl, rfl⟩ := tailEq
          exact .inl ⟨frontEq, alone, by simpa using backEq.symm⟩
        · exact absurd tailEq (by simp)
      · have tooLarge := large b (by rw [charEq]; simp)
        omega

/-- An ASCII byte of a text is a character of its own. -/
theorem IsText.around_ascii
    {front back : List UInt8}
    {b : UInt8}
    (text : IsText (front ++ b :: back))
    (ascii : b.toNat < 0x80) :
    IsText front ∧ IsText [b] ∧ IsText back := by
  obtain ⟨chars, whole⟩ := text
  induction chars generalizing front with
  | nil => exact absurd whole (by simp)
  | cons c chars tailHypothesis =>
    rw [encode_cons] at whole
    have single : encode [c] = String.utf8EncodeChar c := by
      rw [encode_cons, encode_nil, List.append_nil]
    rcases encodeChar_append_ascii ascii whole.symm with
      ⟨rfl, alone, rfl⟩ | ⟨more, rfl, rest⟩
    · exact ⟨.nil, ⟨[c], by rw [single, alone]⟩, ⟨chars, rfl⟩⟩
    · obtain ⟨moreText, byteText, backText⟩ := tailHypothesis rest.symm
      exact ⟨IsText.append ⟨[c], single.symm⟩ moreText, byteText, backText⟩

/-- An ASCII byte of a text has a boundary on each side. -/
theorem IsText.boundaries_of_ascii
    {bytes : List UInt8}
    {offset : Nat}
    {b : UInt8}
    (text : IsText bytes)
    (byte : bytes[offset]? = some b)
    (ascii : b.toNat < 0x80) :
    IsBoundary bytes offset ∧ IsBoundary bytes (offset + 1) := by
  obtain ⟨inside, rfl⟩ := List.getElem?_eq_some_iff.1 byte
  have dropped := List.drop_eq_getElem_cons inside
  have taken := List.take_append_getElem inside
  have split : IsText (bytes.take offset ++
      bytes[offset] :: bytes.drop (offset + 1)) := by
    rw [← dropped, List.take_append_drop]
    exact text
  obtain ⟨frontText, byteText, backText⟩ := split.around_ascii ascii
  refine ⟨⟨frontText, ?_⟩, ⟨?_, backText⟩⟩
  · rw [dropped]
    exact byteText.append backText
  · rw [← taken]
    exact frontText.append byteText

/-! ## Bytes of single characters -/

theorem encode_singleton
    (c : Char) :
    encode [c] = String.utf8EncodeChar c := by
  rw [encode_cons, encode_nil, List.append_nil]

theorem encode_injective
    {front back : List Char}
    (same : encode front = encode back) :
    front = back := by
  have read := decode?_encode front
  rwa [same, decode?_encode, Option.some.injEq, eq_comm] at read

/-- An ASCII byte is among the bytes of its own character alone. -/
theorem mem_encodeChar_iff
    {c : Char}
    {b : UInt8}
    (encoded : encode [c] = [b])
    (ascii : b.toNat < 0x80)
    (d : Char) :
    b ∈ String.utf8EncodeChar d ↔ c = d := by
  constructor
  · intro member
    rcases encodeChar_ascii d with ⟨single, alone⟩ | large
    · rw [alone, List.mem_singleton] at member
      have same : encode [c] = encode [d] := by
        rw [encoded, encode_singleton, alone, member]
      exact (List.cons.inj (encode_injective same)).1
    · have tooLarge := large b member
      omega
  · rintro rfl
    rw [← encode_singleton, encoded]
    exact List.mem_singleton_self b

/-- An ASCII byte is among the bytes of a text exactly if its character is in
the text. -/
theorem mem_encode_iff
    {c : Char}
    {b : UInt8}
    (encoded : encode [c] = [b])
    (ascii : b.toNat < 0x80)
    (chars : List Char) :
    b ∈ encode chars ↔ c ∈ chars := by
  induction chars with
  | nil => simp
  | cons d chars charsHypothesis =>
    rw [encode_cons, List.mem_append, List.mem_cons,
      mem_encodeChar_iff encoded ascii, charsHypothesis]

end Utf8
end StoryMigration
