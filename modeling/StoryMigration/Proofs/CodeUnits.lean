import Mathlib.Data.List.Chain
import StoryMigration.Text.CodePoint

/-!
# Texts and their code units

A text whose surrogates are joined wherever they form a pair is told apart by
its UTF-16 code units, and every sequence of code units belongs to one such
text.
-/

namespace StoryMigration

/-- The UTF-16 code units of a code point. -/
def unitsOf (n : Nat) : List Nat :=
  if n < 0x10000 then [n]
  else [0xd800 + (n - 0x10000) / 0x400, 0xdc00 + (n - 0x10000) % 0x400]

theorem unitsOf_of_lt
    {n : Nat}
    (small : n < 0x10000) :
    unitsOf n = [n] := if_pos small

theorem unitsOf_of_le
    {n : Nat}
    (large : 0x10000 ≤ n) :
    unitsOf n =
      [0xd800 + (n - 0x10000) / 0x400, 0xdc00 + (n - 0x10000) % 0x400] :=
  if_neg (by omega)

theorem lt_of_mem_unitsOf
    {n unit : Nat}
    (lt : n < 0x110000)
    (member : unit ∈ unitsOf n) :
    unit < 0x10000 := by
  unfold unitsOf at member
  split at member
  · rw [List.mem_singleton.1 member]
    assumption
  · rw [List.mem_cons, List.mem_singleton] at member
    omega

namespace CodePoint

theorem eq_of_value_eq
    {p q : CodePoint}
    (same : p.value = q.value) :
    p = q := by
  cases p
  cases q
  cases same
  rfl

theorem value_ofPair
    {high low : CodePoint}
    (isHigh : high.isHigh = true)
    (isLow : low.isLow = true) :
    (ofPair high low isHigh isLow).value =
      0x10000 + (high.value - 0xd800) * 0x400 + (low.value - 0xdc00) := rfl

theorem isHigh_iff
    {p : CodePoint} :
    p.isHigh = true ↔ 0xd800 ≤ p.value ∧ p.value < 0xdc00 := by
  simp [isHigh]

theorem isLow_iff
    {p : CodePoint} :
    p.isLow = true ↔ 0xdc00 ≤ p.value ∧ p.value < 0xe000 := by
  simp [isLow]

end CodePoint

namespace Text

@[simp] theorem units_nil : units [] = [] := rfl

@[simp] theorem units_cons
    (p : CodePoint)
    (text : Text) :
    units (p :: text) = unitsOf p.value ++ units text := rfl

@[simp] theorem units_append
    (front back : Text) :
    units (front ++ back) = units front ++ units back :=
  List.flatMap_append

theorem units_ofChars
    (chars : List Char) :
    units (ofChars chars) = chars.flatMap fun c => unitsOf c.toNat := by
  induction chars with
  | nil => rfl
  | cons c chars charsHypothesis =>
    rw [List.flatMap_cons, ← charsHypothesis]
    rfl

theorem lt_of_mem_units
    {text : Text}
    {unit : Nat}
    (member : unit ∈ units text) :
    unit < 0x10000 := by
  obtain ⟨p, -, isUnit⟩ := List.mem_flatMap.1 member
  exact lt_of_mem_unitsOf p.lt isUnit

/-! ## Pairs -/

/-- No high surrogate stands directly in front of a low one. -/
def IsUnpaired (text : Text) : Prop :=
  text.IsChain fun p q => ¬ (p.isHigh = true ∧ q.isLow = true)

instance (text : Text) : Decidable text.IsUnpaired := by
  unfold IsUnpaired
  infer_instance

theorem paired_cons_pair
    {high low : CodePoint}
    (rest : Text)
    (isHigh : high.isHigh = true)
    (isLow : low.isLow = true) :
    paired (high :: low :: rest) =
      CodePoint.ofPair high low isHigh isLow :: paired rest := by
  rw [paired, dif_pos ⟨isHigh, isLow⟩]

theorem paired_cons
    {p : CodePoint}
    {rest : Text}
    (apart : p.isHigh = true → ∀ q ∈ rest.head?, q.isLow = false) :
    paired (p :: rest) = p :: paired rest := by
  cases rest with
  | nil => rfl
  | cons q rest =>
    rw [paired, dif_neg]
    rintro ⟨isHigh, isLow⟩
    rw [apart isHigh q rfl] at isLow
    contradiction

/-- Where no pair stands, nothing is joined. -/
theorem IsUnpaired.paired_eq
    {text : Text}
    (unpaired : text.IsUnpaired) :
    text.paired = text := by
  induction text with
  | nil => rfl
  | cons p text textHypothesis =>
    unfold IsUnpaired at unpaired
    rw [paired_cons, textHypothesis (List.isChain_cons.1 unpaired).2]
    intro isHigh q isNext
    cases text with
    | nil => contradiction
    | cons next text =>
      cases isNext
      have noPair := (List.isChain_cons_cons.1 unpaired).1
      simpa [isHigh] using noPair

/-- Characters are no surrogates, so that nothing is joined in a text of them. -/
theorem paired_ofChars
    (chars : List Char) :
    paired (ofChars chars) = ofChars chars := by
  have notHigh (c : Char) : (CodePoint.ofChar c).isHigh = false := by
    have valid := c.valid
    simp only [UInt32.isValidChar, Nat.isValidChar] at valid
    have value : (CodePoint.ofChar c).value = c.val.toNat := rfl
    simp only [CodePoint.isHigh, value, Bool.and_eq_false_iff,
      decide_eq_false_iff_not]
    omega
  induction chars with
  | nil => rfl
  | cons c chars charsHypothesis =>
    rw [ofChars, List.map_cons, paired_cons, ← ofChars, charsHypothesis]
    exact fun isHigh => absurd isHigh (by rw [notHigh]; exact Bool.false_ne_true)

/-! ## Code units of pairs -/

/-- Code units as code points. -/
def points (units : List Nat) : Text := units.filterMap CodePoint.ofNat?

theorem points_cons
    {unit : Nat}
    (lt : unit < 0x110000)
    (units : List Nat) :
    points (unit :: units) = ⟨unit, lt⟩ :: points units := by
  unfold points
  rw [List.filterMap_cons_some]
  exact dif_pos lt

/-- The first code unit of a text is low only if its first code point is. -/
theorem isLow_of_head?_points
    {p : CodePoint}
    {text : Text}
    {q : CodePoint}
    (isHead : q ∈ (points (units (p :: text))).head?)
    (isLow : q.isLow = true) :
    p.isLow = true := by
  have lt := p.lt
  rw [units_cons] at isHead
  rcases Nat.lt_or_ge p.value 0x10000 with small | large
  · rw [unitsOf_of_lt small, List.singleton_append,
      points_cons p.lt, List.head?_cons] at isHead
    cases isHead
    exact isLow
  · rw [unitsOf_of_le large, List.cons_append,
      points_cons (by omega), List.head?_cons] at isHead
    cases isHead
    unfold CodePoint.isLow at isLow
    simp only [Bool.and_eq_true, decide_eq_true_eq] at isLow
    omega

theorem paired_points_cons
    {p : CodePoint}
    {text : Text}
    (apart : p.isHigh = true → ∀ q ∈ text.head?, q.isLow = false) :
    paired (points (units (p :: text))) = p :: paired (points (units text)) := by
  have lt := p.lt
  rw [units_cons]
  rcases Nat.lt_or_ge p.value 0x10000 with small | large
  · rw [unitsOf_of_lt small, List.singleton_append, points_cons p.lt]
    refine paired_cons fun isHigh q isHead => ?_
    cases text with
    | nil => contradiction
    | cons next text =>
      by_contra isLow
      have nextLow := isLow_of_head?_points isHead (by simpa using isLow)
      rw [apart isHigh next rfl] at nextLow
      contradiction
  · obtain ⟨high, highEq⟩ : ∃ high : CodePoint,
        high.value = 0xd800 + (p.value - 0x10000) / 0x400 :=
      ⟨⟨_, by omega⟩, rfl⟩
    obtain ⟨low, lowEq⟩ : ∃ low : CodePoint,
        low.value = 0xdc00 + (p.value - 0x10000) % 0x400 :=
      ⟨⟨_, by omega⟩, rfl⟩
    have isHigh : high.isHigh = true := CodePoint.isHigh_iff.2 (by omega)
    have isLow : low.isLow = true := CodePoint.isLow_iff.2 (by omega)
    have whole : CodePoint.ofPair high low isHigh isLow = p := by
      refine CodePoint.eq_of_value_eq ?_
      rw [CodePoint.value_ofPair]
      omega
    rw [unitsOf_of_le large, ← highEq, ← lowEq, List.cons_append,
      List.singleton_append, points_cons high.lt, points_cons low.lt,
      paired_cons_pair _ isHigh isLow, whole]

/-- The text of the code units of a text is that text with its pairs joined. -/
theorem ofUnits_units
    (text : Text) :
    ofUnits (units text) = paired text := by
  show paired (points (units text)) = paired text
  fun_induction paired text with
  | case1 high low rest isPair restHypothesis =>
    obtain ⟨isHigh, isLow⟩ := isPair
    have highUnits := CodePoint.isHigh_iff.1 isHigh
    have lowUnits := CodePoint.isLow_iff.1 isLow
    rw [units_cons, units_cons, unitsOf_of_lt (by omega), unitsOf_of_lt (by omega),
      List.singleton_append, List.singleton_append, points_cons high.lt,
      points_cons low.lt, paired_cons_pair _ isHigh isLow, restHypothesis]
  | case2 high low rest noPair restHypothesis =>
    rw [paired_points_cons, restHypothesis]
    intro isHigh q isNext
    cases isNext
    simpa [isHigh] using noPair
  | case3 text noTwo =>
    cases text with
    | nil => rfl
    | cons p rest =>
      cases rest with
      | nil => rw [paired_points_cons (by simp)]; rfl
      | cons q rest => exact absurd rfl (noTwo p q rest)

/-- Joining pairs changes no code unit. -/
theorem units_paired
    (text : Text) :
    units (paired text) = units text := by
  fun_induction paired text with
  | case1 high low rest isPair restHypothesis =>
    obtain ⟨isHigh, isLow⟩ := isPair
    have highUnits := CodePoint.isHigh_iff.1 isHigh
    have lowUnits := CodePoint.isLow_iff.1 isLow
    have whole := CodePoint.value_ofPair isHigh isLow
    generalize CodePoint.ofPair high low isHigh isLow = pair at whole
    have highEq : 0xd800 + (pair.value - 0x10000) / 0x400 = high.value := by omega
    have lowEq : 0xdc00 + (pair.value - 0x10000) % 0x400 = low.value := by omega
    rw [units_cons, units_cons, units_cons, unitsOf_of_lt (by omega : high.value < _),
      unitsOf_of_lt (by omega : low.value < _), unitsOf_of_le (by omega), highEq,
      lowEq, restHypothesis]
    rfl
  | case2 high low rest noPair restHypothesis =>
    rw [units_cons, restHypothesis]
    rfl
  | case3 text noTwo => rfl

theorem units_points
    {codeUnits : List Nat}
    (small : ∀ unit ∈ codeUnits, unit < 0x10000) :
    units (points codeUnits) = codeUnits := by
  induction codeUnits with
  | nil => rfl
  | cons unit codeUnits unitsHypothesis =>
    have unitSmall := small unit List.mem_cons_self
    rw [points_cons (by omega), units_cons, unitsOf_of_lt unitSmall,
      unitsHypothesis fun other member => small other (List.mem_cons_of_mem _ member)]
    rfl

/-- Different sequences of code units belong to different texts. -/
theorem ofUnits_injective
    {first second : List Nat}
    (firstSmall : ∀ unit ∈ first, unit < 0x10000)
    (secondSmall : ∀ unit ∈ second, unit < 0x10000)
    (same : ofUnits first = ofUnits second) :
    first = second := by
  have sameUnits := congrArg units same
  unfold ofUnits at sameUnits
  rw [units_paired, units_paired] at sameUnits
  rwa [← units_points firstSmall, ← units_points secondSmall]

end Text

end StoryMigration
