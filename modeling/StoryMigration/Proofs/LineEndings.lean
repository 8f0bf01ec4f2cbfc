import StoryMigration.Proofs.ExportPieces
import StoryMigration.Proofs.TokenText

/-!
# Paired line endings

A text is written with carriage returns and line feeds together if none of them
stands alone.  Such a text stays one when it is cut where no line ending is cut
in two, when such texts are put together, and when it is written as bytes or
read from them.
-/

namespace StoryMigration

open Syntax

/-! ## Pairs in a list -/

section Pairs

variable {α : Type} {first second : α}

/-- Every `first` stands in front of a `second`, and every `second` behind a
`first`. -/
inductive IsPaired (first second : α) : List α → Prop
  | nil : IsPaired first second []
  | pair
      {rest : List α}
      (more : IsPaired first second rest) :
      IsPaired first second (first :: second :: rest)
  | other
      {a : α}
      {rest : List α}
      (noFirst : a ≠ first)
      (noSecond : a ≠ second)
      (more : IsPaired first second rest) :
      IsPaired first second (a :: rest)

/-- No pair stands across the place between two lists. -/
def Unsplit (first second : α) (front back : List α) : Prop :=
  front.getLast? = some first → back.head? ≠ some second

namespace IsPaired

theorem append
    {front back : List α}
    (frontPaired : IsPaired first second front)
    (backPaired : IsPaired first second back) :
    IsPaired first second (front ++ back) := by
  induction frontPaired with
  | nil => exact backPaired
  | pair _ moreHypothesis => exact .pair moreHypothesis
  | other noFirst noSecond _ moreHypothesis =>
    exact .other noFirst noSecond moreHypothesis

theorem of_free
    {items : List α}
    (noFirst : first ∉ items)
    (noSecond : second ∉ items) :
    IsPaired first second items := by
  induction items with
  | nil => exact .nil
  | cons a items itemsHypothesis =>
    rw [List.mem_cons, not_or] at noFirst noSecond
    exact .other (Ne.symm noFirst.1) (Ne.symm noSecond.1)
      (itemsHypothesis noFirst.2 noSecond.2)

/-- A list is paired on both sides of a place where no pair is split. -/
theorem split
    {front back : List α}
    (paired : IsPaired first second (front ++ back))
    (unsplit : Unsplit first second front back) :
    IsPaired first second front ∧ IsPaired first second back := by
  generalize wholeEq : front ++ back = whole at paired
  induction paired generalizing front with
  | nil =>
    obtain ⟨rfl, rfl⟩ := List.append_eq_nil_iff.1 wholeEq
    exact ⟨.nil, .nil⟩
  | @pair rest more moreHypothesis =>
    cases front with
    | nil =>
      rw [List.nil_append] at wholeEq
      rw [wholeEq]
      exact ⟨.nil, .pair more⟩
    | cons a front =>
      rw [List.cons_append, List.cons.injEq] at wholeEq
      obtain ⟨rfl, sameRest⟩ := wholeEq
      cases front with
      | nil =>
        rw [List.nil_append] at sameRest
        rw [sameRest] at unsplit
        exact absurd rfl (unsplit rfl)
      | cons b front =>
        rw [List.cons_append, List.cons.injEq] at sameRest
        obtain ⟨rfl, sameMore⟩ := sameRest
        have restUnsplit : Unsplit a b front back := by
          intro last
          refine unsplit ?_
          rw [List.getLast?_cons, List.getLast?_cons, last]
          rfl
        obtain ⟨frontPaired, backPaired⟩ := moreHypothesis restUnsplit sameMore
        exact ⟨.pair frontPaired, backPaired⟩
  | @other a rest noFirst noSecond more moreHypothesis =>
    cases front with
    | nil =>
      rw [List.nil_append] at wholeEq
      rw [wholeEq]
      exact ⟨.nil, .other noFirst noSecond more⟩
    | cons b front =>
      rw [List.cons_append, List.cons.injEq] at wholeEq
      obtain ⟨rfl, sameRest⟩ := wholeEq
      have restUnsplit : Unsplit first second front back := by
        intro last
        refine unsplit ?_
        rw [List.getLast?_cons, last]
        rfl
      obtain ⟨frontPaired, backPaired⟩ := moreHypothesis restUnsplit sameRest
      exact ⟨.other noFirst noSecond frontPaired, backPaired⟩

theorem getLast?_ne
    {items : List α}
    (different : first ≠ second)
    (paired : IsPaired first second items) :
    items.getLast? ≠ some first := by
  induction paired with
  | nil => simp
  | @pair rest _ moreHypothesis =>
    rw [List.getLast?_cons, List.getLast?_cons]
    cases last : rest.getLast? with
    | none => simpa using different.symm
    | some a => simpa [last] using moreHypothesis
  | @other a rest noFirst _ _ moreHypothesis =>
    rw [List.getLast?_cons]
    cases last : rest.getLast? with
    | none => simpa using noFirst
    | some b => simpa [last] using moreHypothesis

theorem head?_ne
    {items : List α}
    (different : first ≠ second)
    (paired : IsPaired first second items) :
    items.head? ≠ some second := by
  cases paired with
  | nil => simp
  | pair => simpa using different
  | other noFirst noSecond => simpa using noSecond

end IsPaired

/-- A list is paired exactly if whatever stands in front of a `second` ends with a
`first`, and whatever stands behind a `first` starts with a `second`. -/
theorem isPaired_iff
    {items : List α}
    (different : first ≠ second) :
    IsPaired first second items ↔
      (∀ front back, items = front ++ second :: back →
        front.getLast? = some first) ∧
      ∀ front back, items = front ++ first :: back →
        back.head? = some second := by
  constructor
  · intro paired
    refine ⟨?_, ?_⟩
    · rintro front back rfl
      by_contra noFirst
      have unsplit : Unsplit first second front (second :: back) :=
        fun last => absurd last noFirst
      exact (paired.split unsplit).2.head?_ne different rfl
    · rintro front back rfl
      by_contra noSecond
      rw [← List.singleton_append, ← List.append_assoc] at paired
      have unsplit : Unsplit first second (front ++ [first]) back :=
        fun _ => noSecond
      exact (paired.split unsplit).1.getLast?_ne different List.getLast?_concat
  · rintro ⟨before, behind⟩
    induction lengthEq : items.length using Nat.strongRecOn generalizing items with
    | ind length lengthHypothesis =>
      match items with
      | [] => exact .nil
      | a :: rest =>
        -- what stands in front of a place of a later part stands behind what goes
        have noSecond : a ≠ second := by
          rintro rfl
          exact absurd (before [] rest rfl) (by simp)
        by_cases isFirst : a = first
        · subst isFirst
          obtain ⟨more, rfl⟩ := List.head?_eq_some_iff.1 (behind [] rest rfl)
          refine .pair (lengthHypothesis more.length ?_ ?_ ?_ rfl)
          · simp only [List.length_cons] at lengthEq
            omega
          · rintro front back rfl
            have last := before (a :: second :: front) back rfl
            rw [List.getLast?_cons, List.getLast?_cons] at last
            cases front with
            | nil => exact absurd (Option.some.inj last) different.symm
            | cons b front =>
              rw [List.getLast?_cons] at last ⊢
              exact last
          · rintro front back rfl
            exact behind (a :: second :: front) back rfl
        · refine .other isFirst noSecond (lengthHypothesis rest.length ?_ ?_ ?_ rfl)
          · simp only [List.length_cons] at lengthEq
            omega
          · rintro front back rfl
            have last := before (a :: front) back rfl
            rw [List.getLast?_cons] at last
            cases front with
            | nil => exact absurd (Option.some.inj last) isFirst
            | cons b front =>
              rw [List.getLast?_cons] at last ⊢
              exact last
          · rintro front back rfl
            exact behind (a :: front) back rfl

theorem isPaired_cons_cons_iff
    {a b : α}
    {rest : List α} :
    IsPaired first second (a :: b :: rest) ↔
      a = first ∧ b = second ∧ IsPaired first second rest ∨
        a ≠ first ∧ a ≠ second ∧ IsPaired first second (b :: rest) := by
  constructor
  · intro paired
    cases paired with
    | pair more => exact .inl ⟨rfl, rfl, more⟩
    | other noFirst noSecond more => exact .inr ⟨noFirst, noSecond, more⟩
  · rintro (⟨rfl, rfl, more⟩ | ⟨noFirst, noSecond, more⟩)
    · exact .pair more
    · exact .other noFirst noSecond more

theorem isPaired_singleton_iff
    {a : α} :
    IsPaired first second [a] ↔ a ≠ first ∧ a ≠ second := by
  constructor
  · intro paired
    cases paired with
    | other noFirst noSecond => exact ⟨noFirst, noSecond⟩
  · exact fun ⟨noFirst, noSecond⟩ => .other noFirst noSecond .nil

instance decidableIsPaired
    [DecidableEq α] :
    (items : List α) → Decidable (IsPaired first second items)
  | [] => .isTrue .nil
  | [_] => decidable_of_iff _ isPaired_singleton_iff.symm
  | _ :: b :: rest =>
    have := decidableIsPaired rest
    have := decidableIsPaired (b :: rest)
    decidable_of_iff _ isPaired_cons_cons_iff.symm

end Pairs

/-! ## The line endings of a text -/

/-- Every carriage return of a text stands in front of a line feed, and every
line feed behind a carriage return. -/
abbrev PairedText (text : List Char) : Prop := IsPaired '\r' '\n' text

/-- Every carriage return of some bytes stands in front of a line feed, and every
line feed behind a carriage return. -/
abbrev PairedBytes (bytes : List UInt8) : Prop := IsPaired 0x0d 0x0a bytes

namespace Newline

theorem mem_joined
    {chars : List Char}
    {c : Char}
    (member : c ∈ joined chars) :
    c ∈ chars := by
  fun_induction joined chars with
  | case1 rest restHypothesis =>
    rcases List.mem_cons.1 member with rfl | member
    · simp
    · exact List.mem_cons_of_mem _ (List.mem_cons_of_mem _
        (restHypothesis member))
  | case2 d rest different restHypothesis =>
    rcases List.mem_cons.1 member with rfl | member
    · exact List.mem_cons_self
    · exact List.mem_cons_of_mem _ (restHypothesis member)
  | case3 => exact member

theorem hasPair_iff
    (text : List Char) :
    hasPair text = true ↔
      ∃ front back, text = front ++ '\r' :: '\n' :: back := by
  fun_induction hasPair text with
  | case1 rest => simpa using ⟨[], rest, rfl⟩
  | case2 c rest different restHypothesis =>
    rw [restHypothesis]
    constructor
    · rintro ⟨front, back, rfl⟩
      exact ⟨c :: front, back, rfl⟩
    · rintro ⟨front, back, whole⟩
      cases front with
      | nil =>
        obtain ⟨rfl, rfl⟩ := List.cons.inj whole
        exact (different back rfl rfl).elim
      | cons d front =>
        obtain ⟨-, rfl⟩ := List.cons.inj whole
        exact ⟨front, back, rfl⟩
  | case3 => simp

end Newline

namespace PairedText

variable {text : List Char}

theorem hasPair
    (paired : PairedText text)
    (feed : '\n' ∈ text) :
    Newline.hasPair text = true := by
  rw [Newline.hasPair_iff]
  induction paired with
  | nil => contradiction
  | @pair rest => exact ⟨[], rest, rfl⟩
  | @other a rest noFirst noSecond more moreHypothesis =>
    obtain ⟨front, back, rfl⟩ :=
      moreHypothesis ((List.mem_cons.1 feed).resolve_left (Ne.symm noSecond))
    exact ⟨a :: front, back, rfl⟩

end PairedText

namespace Newline

/-! ## Texts without a carriage return of its own -/

/-- Every carriage return of a text stands in front of a line feed. -/
def Clean (text : List Char) : Prop := '\r' ∉ joined text

instance (text : List Char) : Decidable (Clean text) :=
  inferInstanceAs (Decidable (¬ _))

theorem joined_cons_of_ne
    {c : Char}
    (rest : List Char)
    (noReturn : c ≠ '\r') :
    joined (c :: rest) = c :: joined rest :=
  joined.eq_2 c rest fun _ isReturn _ => noReturn isReturn

namespace Clean

variable {front back text : List Char}

theorem of_free
    (noReturn : '\r' ∉ text) :
    Clean text :=
  fun member => noReturn (mem_joined member)

theorem getLast?_ne
    (clean : Clean text) :
    text.getLast? ≠ some '\r' := by
  intro last
  rw [← getLast?_joined] at last
  exact clean (List.mem_of_getLast? last)

theorem append
    (frontClean : Clean front)
    (backClean : Clean back) :
    Clean (front ++ back) := by
  unfold Clean
  rw [joined_append back frontClean.getLast?_ne, List.mem_append, not_or]
  exact ⟨frontClean, backClean⟩

theorem tail
    {c : Char}
    (clean : Clean (c :: text)) :
    Clean text := by
  intro member
  refine clean ?_
  cases text with
  | nil => contradiction
  | cons d rest =>
    by_cases isPair : c = '\r' ∧ d = '\n'
    · obtain ⟨rfl, rfl⟩ := isPair
      rw [joined_cons_of_ne rest (by decide)] at member
      exact member
    · rw [joined.eq_2 c (d :: rest) fun more isReturn isFeed =>
        isPair ⟨isReturn, (List.cons.inj isFeed).1⟩]
      exact List.mem_cons_of_mem _ member

theorem suffix
    (clean : Clean text)
    (isSuffix : back <:+ text) :
    Clean back := by
  obtain ⟨front, rfl⟩ := isSuffix
  induction front with
  | nil => exact clean
  | cons c front frontHypothesis => exact frontHypothesis clean.tail

theorem of_paired
    (paired : PairedText text) :
    Clean text := by
  induction paired with
  | nil => exact List.not_mem_nil
  | pair _ moreHypothesis =>
    unfold Clean
    rw [joined, List.mem_cons, not_or]
    exact ⟨by decide, moreHypothesis⟩
  | other noReturn _ _ moreHypothesis =>
    unfold Clean
    rw [joined_cons_of_ne _ noReturn, List.mem_cons, not_or]
    exact ⟨noReturn.symm, moreHypothesis⟩

end Clean

/-! ## Line ends in the style of a module -/

/-- Characters with this line ending at every line end. -/
def spreadList (newline : Newline) (chars : List Char) : List Char :=
  (joined chars).flatMap fun c => if c == '\n' then newline.chars else [c]

theorem toList_spread
    (newline : Newline)
    (text : String) :
    (newline.spread text).toList = newline.spreadList text.toList :=
  String.toList_ofList

theorem spreadList_append
    (newline : Newline)
    {front : List Char}
    (back : List Char)
    (apart : front.getLast? ≠ some '\r') :
    newline.spreadList (front ++ back) =
      newline.spreadList front ++ newline.spreadList back := by
  unfold spreadList
  rw [joined_append back apart, List.flatMap_append]

/-- Characters that end no line are written as they are. -/
theorem spreadList_eq_self
    (newline : Newline)
    {chars : List Char}
    (noEnd : ∀ c ∈ chars, c ≠ '\n' ∧ c ≠ '\r') :
    newline.spreadList chars = chars := by
  induction chars with
  | nil => rfl
  | cons c chars charsHypothesis =>
    obtain ⟨noFeed, noReturn⟩ := noEnd c List.mem_cons_self
    have apart : [c].getLast? ≠ some '\r' := by simpa using noReturn
    have single : newline.spreadList [c] = [c] := by
      have joinedEq : joined [c] = [c] := by
        rw [joined.eq_2 c [] fun _ _ same => by cases same]
        rfl
      unfold spreadList
      rw [joinedEq]
      simp [noFeed]
    rw [← List.singleton_append, newline.spreadList_append chars apart, single,
      charsHypothesis fun d member => noEnd d (List.mem_cons_of_mem _ member)]

/-- A clean text is written with pairs alone. -/
theorem paired_spread
    {text : String}
    (clean : Clean text.toList) :
    PairedText (crlf.spread text).toList := by
  rw [toList_spread, spreadList]
  unfold Clean at clean
  generalize joined text.toList = chars at clean
  induction chars with
  | nil => exact .nil
  | cons c chars charsHypothesis =>
    rw [List.mem_cons, not_or] at clean
    have rest := charsHypothesis clean.2
    rw [List.flatMap_cons]
    split
    · exact .pair rest
    · rename_i noFeed
      exact .other (Ne.symm clean.1) (by simpa using noFeed) rest

/-- A clean text is written without a carriage return in a module without
one. -/
theorem not_mem_spread
    {text : String}
    (clean : Clean text.toList) :
    '\r' ∉ (lf.spread text).toList := by
  rw [toList_spread, spreadList, List.mem_flatMap]
  rintro ⟨c, isJoined, member⟩
  split at member
  · exact absurd member (by decide)
  · rw [List.mem_singleton] at member
    exact clean (member ▸ isJoined)

/-- Making the ends of a text regular keeps its line endings paired, and there is
one at the end. -/
theorem paired_normalizedEnds
    {text : String}
    (paired : PairedText text.toList)
    (feed : '\n' ∈ text.toList) :
    PairedText (normalizedEnds text).toList ∧
      hasPair (normalizedEnds text).toList = true := by
  obtain ⟨middle, ⟨⟨front, back, textEq, -, -⟩, starts, stops⟩, normalEq⟩ :=
    normalizedEnds_eq text
  have middlePaired : PairedText middle := by
    rw [textEq, List.append_assoc] at paired
    by_cases isNil : middle = []
    · rw [isNil]
      exact .nil
    · have behind : IsPaired '\r' '\n' (middle ++ back) := by
        refine (paired.split fun _ head => ?_).2
        rw [List.head?_append_of_ne_nil _ isNil] at head
        exact absurd (starts _ head) (by decide)
      refine (behind.split fun last => ?_).1
      exact absurd (stops _ last) (by decide)
  have style : ofText text.toList = crlf := by
    unfold ofText
    rw [paired.hasPair feed]
    rfl
  rw [normalEq, String.toList_ofList, style]
  have ended : PairedText (middle ++ crlf.chars) := middlePaired.append (.pair .nil)
  exact ⟨ended, ended.hasPair (List.mem_append_right _ (by decide))⟩

/-- A text without a carriage return is taken to be written without it. -/
theorem ofText_of_free
    {text : List Char}
    (noReturn : '\r' ∉ text) :
    ofText text = lf := by
  unfold ofText
  rw [if_neg]
  rw [hasPair_iff]
  rintro ⟨before, behind, rfl⟩
  exact noReturn (List.mem_append_right _ List.mem_cons_self)

theorem not_mem_normalizedEnds
    {text : String}
    (noReturn : '\r' ∉ text.toList) :
    '\r' ∉ (normalizedEnds text).toList := by
  obtain ⟨middle, ⟨⟨front, back, textEq, -, -⟩, -, -⟩, normalEq⟩ :=
    normalizedEnds_eq text
  rw [normalEq, String.toList_ofList, ofText_of_free noReturn, List.mem_append, not_or]
  refine ⟨fun member => noReturn ?_, by decide⟩
  rw [textEq]
  exact List.mem_append_left _ (List.mem_append_right _ member)

end Newline

/-! ## Bytes and characters -/

theorem encodeChar_ne_nil
    (c : Char) :
    String.utf8EncodeChar c ≠ [] := by
  rw [← List.length_pos_iff, String.length_utf8EncodeChar]
  exact c.utf8Size_pos

theorem return_mem_encodeChar_iff
    (c : Char) :
    0x0d ∈ String.utf8EncodeChar c ↔ '\r' = c :=
  Utf8.mem_encodeChar_iff rfl (by decide) c

theorem feed_mem_encodeChar_iff
    (c : Char) :
    0x0a ∈ String.utf8EncodeChar c ↔ '\n' = c :=
  Utf8.mem_encodeChar_iff rfl (by decide) c

/-- The last byte of a text is a carriage return only if its last character is
one. -/
theorem getLast?_of_encode
    {text : List Char}
    (last : (Utf8.encode text).getLast? = some 0x0d) :
    text.getLast? = some '\r' := by
  rcases List.eq_nil_or_concat text with rfl | ⟨front, c, rfl⟩
  · contradiction
  · rw [List.concat_eq_append] at last ⊢
    rw [Utf8.encode_append, Utf8.encode_singleton,
      List.getLast?_append_of_ne_nil _ (encodeChar_ne_nil c)] at last
    rw [List.getLast?_concat,
      (return_mem_encodeChar_iff c).1 (List.mem_of_getLast? last)]

/-- The first byte of a text is a line feed only if its first character is
one. -/
theorem head?_of_encode
    {text : List Char}
    (head : (Utf8.encode text).head? = some 0x0a) :
    text.head? = some '\n' := by
  cases text with
  | nil => contradiction
  | cons c rest =>
    rw [Utf8.encode_cons, List.head?_append_of_ne_nil _ (encodeChar_ne_nil c)]
      at head
    rw [List.head?_cons,
      (feed_mem_encodeChar_iff c).1 (List.mem_of_head? head)]

/-- A carriage return and a line feed next to each other are read as such. -/
theorem hasPair_of_encode
    {text : List Char}
    {front back : List UInt8}
    (split : Utf8.encode text = front ++ 0x0d :: 0x0a :: back) :
    Newline.hasPair text = true := by
  rw [Newline.hasPair_iff]
  induction text generalizing front with
  | nil => simp [Utf8.encode_nil] at split
  | cons c text textHypothesis =>
    have later
        {front : List UInt8}
        (split : Utf8.encode text = front ++ 0x0d :: 0x0a :: back) :
        ∃ before behind, c :: text = before ++ '\r' :: '\n' :: behind := by
      obtain ⟨before, behind, rfl⟩ := textHypothesis split
      exact ⟨c :: before, behind, rfl⟩
    rw [Utf8.encode_cons, List.append_eq_append_iff] at split
    rcases split with ⟨more, -, restEq⟩ | ⟨more, charEq, restEq⟩
    · exact later restEq
    · cases more with
      | nil => exact @later [] restEq.symm
      | cons byte more =>
        obtain ⟨rfl, behindEq⟩ := List.cons.inj restEq
        obtain rfl : '\r' = c := (return_mem_encodeChar_iff c).1 (by
          rw [charEq]
          exact List.mem_append_right _ List.mem_cons_self)
        have single : String.utf8EncodeChar '\r' = [0x0d] := by decide
        rw [single, List.singleton_eq_append_iff] at charEq
        have none : more = [] := by
          rcases charEq with ⟨-, same⟩ | ⟨-, impossible⟩
          · exact (List.cons.inj same).2
          · cases impossible
        have head : (Utf8.encode text).head? = some 0x0a := by
          rw [none] at behindEq
          exact congrArg List.head? behindEq.symm
        obtain ⟨behind, rfl⟩ := List.head?_eq_some_iff.1 (head?_of_encode head)
        exact ⟨[], behind, rfl⟩

theorem unsplit_encode
    {front back : List Char}
    (apart : Apart front back) :
    Unsplit 0x0d 0x0a (Utf8.encode front) (Utf8.encode back) :=
  fun last head => apart (getLast?_of_encode last) (head?_of_encode head)

/-- The line endings of a text are paired exactly if those of its bytes are. -/
theorem pairedBytes_encode_iff
    (text : List Char) :
    PairedBytes (Utf8.encode text) ↔ PairedText text := by
  constructor
  · intro paired
    induction lengthEq : text.length using Nat.strongRecOn generalizing text with
    | ind length lengthHypothesis =>
      match text with
      | [] => exact .nil
      | c :: rest =>
        rw [List.length_cons] at lengthEq
        by_cases isReturn : c = '\r'
        · subst isReturn
          have head := ((isPaired_iff (by decide)).1 paired).2 [] _ rfl
          obtain ⟨more, rfl⟩ := List.head?_eq_some_iff.1 (head?_of_encode head)
          rw [List.length_cons] at lengthEq
          have morePaired : PairedBytes (Utf8.encode more) := by
            have whole : PairedBytes ([0x0d, 0x0a] ++ Utf8.encode more) := paired
            exact (whole.split fun last => absurd last (by decide)).2
          exact .pair (lengthHypothesis more.length (by omega) more morePaired rfl)
        · by_cases isFeed : c = '\n'
          · subst isFeed
            exact absurd rfl (paired.head?_ne (by decide))
          · have restPaired : PairedBytes (Utf8.encode rest) := by
              rw [Utf8.encode_cons] at paired
              refine (paired.split fun last => absurd ?_ isReturn).2
              exact ((return_mem_encodeChar_iff c).1
                (List.mem_of_getLast? last)).symm
            exact .other isReturn isFeed
              (lengthHypothesis rest.length (by omega) rest restPaired rfl)
  · intro paired
    induction paired with
    | nil => exact .nil
    | pair _ moreHypothesis => exact .pair moreHypothesis
    | @other c rest noReturn noFeed _ moreHypothesis =>
      rw [Utf8.encode_cons]
      refine .append (.of_free ?_ ?_) moreHypothesis
      · rw [return_mem_encodeChar_iff]
        exact noReturn.symm
      · rw [feed_mem_encodeChar_iff]
        exact noFeed.symm

/-! ## Pieces of a source -/

/-- No line ending of some bytes is cut in two at an offset. -/
def UnsplitAt (bytes : List UInt8) (offset : Nat) : Prop :=
  Unsplit 0x0d 0x0a (bytes.take offset) (bytes.drop offset)

/-- The bytes between two offsets that cut no line ending in two are paired. -/
theorem PairedBytes.between
    {source : List UInt8}
    {start stop : Nat}
    (paired : PairedBytes source)
    (ordered : start ≤ stop)
    (startUnsplit : UnsplitAt source start)
    (stopUnsplit : UnsplitAt source stop) :
    PairedBytes (between source start stop) := by
  have whole : PairedBytes (source.take stop ++ source.drop stop) := by
    rw [List.take_append_drop]
    exact paired
  have front := (whole.split stopUnsplit).1
  rw [← take_append_between source ordered] at front
  refine (front.split fun last head => startUnsplit last ?_).2
  obtain ⟨rest, isHead⟩ := List.head?_eq_some_iff.1 head
  rw [← List.take_append_drop (stop - start) (source.drop start)]
  exact List.head?_append_of_ne_nil _ (isHead ▸ List.cons_ne_nil _ _) ▸ head

end StoryMigration
