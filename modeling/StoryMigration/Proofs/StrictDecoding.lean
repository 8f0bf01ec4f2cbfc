import StoryMigration.Proofs.Encoding

/-!
# Only texts are read

Reading UTF-8 is strict: bytes that are read as some characters are the bytes of
these characters, with no overlong form and no surrogate among them.
-/

namespace StoryMigration
namespace Utf8

/-- A code point that needs as many bytes as it has is read as its character. -/
theorem toNat_of_charAtLeast?
    {least value : Nat}
    {c : Char}
    (found : charAtLeast? least value = some c) :
    c.val.toNat = value ∧ least ≤ value := by
  unfold charAtLeast? at found
  split at found
  · rename_i valid
    have isChar : value.isValidChar := by
      simp only [Nat.isValidChar]
      omega
    rw [← Option.some.inj found, Char.ofNat, dif_pos isChar]
    exact ⟨rfl, valid.1⟩
  · contradiction

theorem eq_ofNat_of_isContinuation
    {b : UInt8}
    {value : Nat}
    (tail : isContinuation b = true)
    (same : value % 64 = payload b) :
    UInt8.ofNat (value % 64 + 128) = b := by
  simp only [isContinuation, Bool.and_eq_true, decide_eq_true_eq,
    UInt8.le_iff_toNat_le, UInt8.lt_iff_toNat_lt, UInt8.reduceToNat] at tail
  rw [← UInt8.toNat_inj, toNat_ofNat_lt (by omega), same, payload]
  omega

theorem ofNat_eq_of_toNat
    {a : UInt8}
    {value : Nat}
    (same : value = a.toNat) :
    UInt8.ofNat value = a := by
  rw [same, UInt8.ofNat_toNat]

theorem payload_lt
    (b : UInt8) :
    payload b < 64 :=
  Nat.mod_lt _ (by decide)

/-! ## One character -/

theorem encodeChar_one
    {a : UInt8}
    (small : a.toNat < 0x80) :
    String.utf8EncodeChar (Char.ofNat a.toNat) = [a] := by
  have isChar : a.toNat.isValidChar := .inl (by omega)
  have value : (Char.ofNat a.toNat).val.toNat = a.toNat := by
    rw [Char.ofNat, dif_pos isChar]
    rfl
  rw [String.utf8EncodeChar, value, if_pos (by omega), UInt8.ofNat_toNat]

theorem encodeChar_two
    {a b : UInt8}
    {c : Char}
    (least : 0xc0 ≤ a.toNat)
    (most : a.toNat < 0xe0)
    (tail : isContinuation b = true)
    (found : charAtLeast? 0x80 (a.toNat % 32 * 64 + payload b) = some c) :
    String.utf8EncodeChar c = [a, b] := by
  obtain ⟨value, enough⟩ := toNat_of_charAtLeast? found
  have last := payload_lt b
  have lead : (a.toNat % 32 * 64 + payload b) / 64 % 32 + 0xc0 = a.toNat := by
    omega
  rw [String.utf8EncodeChar, value, if_neg (by omega), if_pos (by omega),
    ofNat_eq_of_toNat lead,
    eq_ofNat_of_isContinuation tail (by omega)]

theorem encodeChar_three
    {a b d : UInt8}
    {c : Char}
    (least : 0xe0 ≤ a.toNat)
    (most : a.toNat < 0xf0)
    (second : isContinuation b = true)
    (third : isContinuation d = true)
    (found : charAtLeast? 0x800
      (a.toNat % 16 * 4096 + payload b * 64 + payload d) = some c) :
    String.utf8EncodeChar c = [a, b, d] := by
  obtain ⟨value, enough⟩ := toNat_of_charAtLeast? found
  have middle := payload_lt b
  have last := payload_lt d
  have lead : (a.toNat % 16 * 4096 + payload b * 64 + payload d) / 4096 % 16 +
      0xe0 = a.toNat := by omega
  rw [String.utf8EncodeChar, value, if_neg (by omega), if_neg (by omega),
    if_pos (by omega), ofNat_eq_of_toNat lead,
    eq_ofNat_of_isContinuation second (by omega),
    eq_ofNat_of_isContinuation third (by omega)]

theorem encodeChar_four
    {a b d e : UInt8}
    {c : Char}
    (least : 0xf0 ≤ a.toNat)
    (most : a.toNat < 0xf8)
    (second : isContinuation b = true)
    (third : isContinuation d = true)
    (fourth : isContinuation e = true)
    (found : charAtLeast? 0x10000
      (a.toNat % 8 * 262144 + payload b * 4096 + payload d * 64 + payload e) =
        some c) :
    String.utf8EncodeChar c = [a, b, d, e] := by
  obtain ⟨value, enough⟩ := toNat_of_charAtLeast? found
  have first := payload_lt b
  have middle := payload_lt d
  have last := payload_lt e
  have lead : (a.toNat % 8 * 262144 + payload b * 4096 + payload d * 64 +
      payload e) / 262144 % 8 + 0xf0 = a.toNat := by omega
  rw [String.utf8EncodeChar, value, if_neg (by omega), if_neg (by omega),
    if_neg (by omega), ofNat_eq_of_toNat lead,
    eq_ofNat_of_isContinuation second (by omega),
    eq_ofNat_of_isContinuation third (by omega),
    eq_ofNat_of_isContinuation fourth (by omega)]

/-! ## Whole texts -/

/-- Bytes that are read as some characters are theirs. -/
theorem encode_of_decode?
    {bytes : List UInt8}
    {chars : List Char}
    (read : decode? bytes = some chars) :
    encode chars = bytes := by
  -- each width is read with its bounds; all other bytes are refused
  fun_induction decode? bytes generalizing chars with
  | case1 =>
    rw [← Option.some.inj read]
    rfl
  | case2 a rest ascii restHypothesis =>
    rw [UInt8.lt_iff_toNat_lt] at ascii
    obtain ⟨behind, readRest, rfl⟩ := Option.map_eq_some_iff.1 read
    rw [encode_cons, encodeChar_one ascii, restHypothesis readRest]
    rfl
  | case4 a _ least most b rest tail restHypothesis =>
    simp only [UInt8.lt_iff_toNat_lt, UInt8.reduceToNat, Nat.not_lt] at least most
    obtain ⟨c, found, read⟩ := Option.bind_eq_some_iff.1 read
    obtain ⟨behind, readRest, rfl⟩ := Option.map_eq_some_iff.1 read
    rw [encode_cons, encodeChar_two least most tail found,
      restHypothesis readRest]
    rfl
  | case7 a _ _ least most b d rest tails restHypothesis =>
    simp only [UInt8.lt_iff_toNat_lt, UInt8.reduceToNat, Nat.not_lt] at least most
    rw [Bool.and_eq_true] at tails
    obtain ⟨c, found, read⟩ := Option.bind_eq_some_iff.1 read
    obtain ⟨behind, readRest, rfl⟩ := Option.map_eq_some_iff.1 read
    rw [encode_cons, encodeChar_three least most tails.1 tails.2 found,
      restHypothesis readRest]
    rfl
  | case10 a _ _ _ least most b d e rest tails restHypothesis =>
    simp only [UInt8.lt_iff_toNat_lt, UInt8.reduceToNat, Nat.not_lt] at least most
    rw [Bool.and_eq_true, Bool.and_eq_true] at tails
    obtain ⟨c, found, read⟩ := Option.bind_eq_some_iff.1 read
    obtain ⟨behind, readRest, rfl⟩ := Option.map_eq_some_iff.1 read
    rw [encode_cons, encodeChar_four least most tails.1.1 tails.1.2 tails.2
      found, restHypothesis readRest]
    rfl
  | _ => contradiction

end Utf8
end StoryMigration
