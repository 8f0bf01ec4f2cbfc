import Mathlib.Data.List.Basic
import StoryMigration.Proofs.Encoding
import StoryMigration.Source.Edit
import StoryMigration.Syntax.Module

/-!
# What edits leave of a source

Edits are applied from the back to the front, each on the outcome of the one
before.  If no two of them touch the same byte, the outcome is the source read
from the front with every range exchanged in its place.  A replacement among
removals therefore leaves the bytes in front of it and behind it that no
removal takes, each once and in their order.
-/

namespace StoryMigration

open Syntax

/-- The span holds the byte at an offset. -/
def Syntax.Span.holds (span : Span) (offset : Nat) : Bool :=
  span.start ≤ offset && offset < span.stop

/-- The bytes from one offset up to another. -/
def between (source : List UInt8) (first last : Nat) : List UInt8 :=
  (source.drop first).take (last - first)

/-- The bytes from one offset up to another that none of some spans holds. -/
def kept
    (source : List UInt8)
    (gone : List Span)
    (first last : Nat) : List UInt8 :=
  (List.range' first (last - first)).filterMap fun offset =>
    if gone.any (·.holds offset) then none else source[offset]?

/-! ## Bytes between two offsets -/

/-- Items with a property in front of one without it are dropped. -/
theorem dropWhile_append_of_stops
    {α : Type}
    {test : α → Bool}
    {front rest : List α}
    (passes : ∀ item ∈ front, test item = true)
    (stops : ∀ item ∈ rest.head?, test item = false) :
    (front ++ rest).dropWhile test = rest := by
  rw [List.dropWhile_append_of_pos passes]
  cases rest with
  | nil => rfl
  | cons item rest =>
    rw [List.dropWhile_cons_of_neg]
    rw [stops item rfl]
    exact Bool.false_ne_true

theorem take_append_between
    (source : List UInt8)
    {first last : Nat}
    (ordered : first ≤ last) :
    source.take first ++ between source first last = source.take last := by
  rw [between, ← List.take_append_drop first (source.take last),
    List.take_take, Nat.min_eq_left ordered, List.drop_take]

theorem between_append
    (source : List UInt8)
    {first middle last : Nat}
    (firstOrdered : first ≤ middle)
    (lastOrdered : middle ≤ last) :
    between source first middle ++ between source middle last =
      between source first last := by
  apply (List.append_right_inj (source.take first)).1
  rw [← List.append_assoc, take_append_between source firstOrdered,
    take_append_between source lastOrdered,
    take_append_between source (Nat.le_trans firstOrdered lastOrdered)]

theorem between_succ
    (source : List UInt8)
    {first last : Nat}
    (inside : first < last) :
    between source first last =
      source[first]?.toList ++ between source (first + 1) last := by
  rw [← between_append source (Nat.le_succ first) inside]
  congr 1
  rw [between, Nat.succ_sub (Nat.le_refl first), Nat.sub_self,
    List.take_one, List.head?_drop]

theorem kept_append
    (source : List UInt8)
    (gone : List Span)
    {first middle last : Nat}
    (firstOrdered : first ≤ middle)
    (lastOrdered : middle ≤ last) :
    kept source gone first middle ++ kept source gone middle last =
      kept source gone first last := by
  have joined : List.range' first (middle - first) ++
      List.range' middle (last - middle) =
        List.range' first (last - first) := by
    rw [show last - first = (middle - first) + (last - middle) by omega,
      ← List.range'_append_1, Nat.add_sub_cancel' firstOrdered]
  rw [kept, kept, kept, ← joined, List.filterMap_append]

/-- What is kept depends only on the spans that reach between the offsets. -/
theorem kept_congr
    (source : List UInt8)
    {gone others : List Span}
    {first last : Nat}
    (agree : ∀ offset, first ≤ offset → offset < last →
      gone.any (·.holds offset) = others.any (·.holds offset)) :
    kept source gone first last = kept source others first last := by
  rw [kept, kept]
  apply List.filterMap_congr
  intro offset member
  rw [List.mem_range'_1] at member
  rw [agree offset member.1 (by omega)]

/-- Without spans everything is kept. -/
theorem kept_nil
    (source : List UInt8)
    (first last : Nat) :
    kept source [] first last = between source first last := by
  rw [kept]
  generalize lengthEq : last - first = length
  induction length generalizing first with
  | zero => simp [between, lengthEq]
  | succ length lengthHypothesis =>
    have rest := lengthHypothesis (first + 1) (by omega)
    simp only [List.any_nil, Bool.false_eq_true, if_false] at rest ⊢
    rw [List.range'_succ, List.filterMap_cons, rest,
      between_succ source (by omega : first < last)]
    cases source[first]? with
    | none => rfl
    | some byte => rfl

/-- Nothing is kept of a span that goes. -/
theorem kept_of_held
    (source : List UInt8)
    {gone : List Span}
    {first last : Nat}
    (held : ∀ offset, first ≤ offset → offset < last →
      gone.any (·.holds offset) = true) :
    kept source gone first last = [] := by
  rw [kept, List.filterMap_eq_nil_iff]
  intro offset member
  rw [List.mem_range'_1] at member
  rw [if_pos (held offset member.1 (by omega))]

/-- Only the bytes behind a span that goes are kept. -/
theorem kept_cons_span
    (source : List UInt8)
    (gone : List Span)
    {span : Span}
    {last : Nat}
    (ordered : span.start ≤ span.stop)
    (inside : span.stop ≤ last) :
    kept source (span :: gone) span.start last =
      kept source gone span.stop last := by
  have held : kept source (span :: gone) span.start span.stop = [] := by
    apply kept_of_held
    intro offset startLe ltStop
    simp [Span.holds, startLe, ltStop]
  rw [← kept_append source (span :: gone) ordered inside, held, List.nil_append]
  apply kept_congr
  intro offset startLe _
  have missed : span.holds offset = false := by
    simp [Span.holds]
    omega
  rw [List.any_cons, missed, Bool.false_or]

/-- What lies in front of all spans is kept. -/
theorem kept_of_behind
    (source : List UInt8)
    {gone : List Span}
    {first last : Nat}
    (behind : ∀ span ∈ gone, last ≤ span.start) :
    kept source gone first last = between source first last := by
  rw [← kept_nil]
  apply kept_congr
  intro offset _ ltLast
  rw [List.any_nil, List.any_eq_false]
  intro span member
  have startLe := behind span member
  simp [Span.holds]
  omega

namespace Edit

/-! ## Edits that leave each other alone -/

/-- Two edits touch different bytes. -/
def Apart (a b : Edit) : Prop := a.stop ≤ b.start ∨ b.stop ≤ a.start

/-- An edit's offsets are in order and lie inside a source. -/
structure Fits (length : Nat) (edit : Edit) : Prop where
  nonneg : 0 ≤ edit.start
  ordered : edit.start ≤ edit.stop
  inside : edit.stop ≤ length

/-- The bytes an edit exchanges. -/
def span (edit : Edit) : Span := ⟨edit.start.toNat, edit.stop.toNat⟩

/-- The bytes an edit writes. -/
def bytes (edit : Edit) : List UInt8 :=
  (edit.replacement.toChars?.map Utf8.encode).getD []

/-- A source read from one offset to another with some edits, in the order of
their places, made on the way. -/
def woven (source : List UInt8) : List Edit → Nat → Nat → List UInt8
  | [], first, last => between source first last
  | edit :: edits, first, last =>
      between source first edit.span.start ++ edit.bytes ++
        woven source edits edit.span.stop last

theorem woven_append_cons
    (source : List UInt8)
    (front back : List Edit)
    (edit : Edit)
    (first last : Nat) :
    woven source (front ++ edit :: back) first last =
      woven source front first edit.span.start ++ edit.bytes ++
        woven source back edit.span.stop last := by
  induction front generalizing first with
  | nil => rfl
  | cons head front frontHypothesis =>
    simp only [List.cons_append, woven, frontHypothesis, List.append_assoc]

theorem clamp_of_le
    {length : Nat}
    {offset : Int}
    (nonneg : 0 ≤ offset)
    (inside : offset ≤ length) :
    clamp length offset = offset.toNat := by
  rw [clamp, if_neg (by omega), Nat.min_eq_left (by omega)]

/-- An edit in front of what has been edited already. -/
theorem splice_take_append
    (source tail replacement : List UInt8)
    {edit : Edit}
    {limit : Nat}
    (limitInside : limit ≤ source.length)
    (fits : edit.Fits limit) :
    splice (source.take limit ++ tail) edit.start edit.stop replacement =
      source.take edit.span.start ++
        (replacement ++ (between source edit.span.stop limit ++ tail)) := by
  obtain ⟨nonneg, ordered, inside⟩ := fits
  have takeLength : (source.take limit).length = limit := by
    rw [List.length_take]
    omega
  have whole : limit ≤ (source.take limit ++ tail).length := by
    rw [List.length_append, takeLength]
    omega
  rw [splice, clamp_of_le nonneg (by omega), clamp_of_le (by omega) (by omega),
    List.take_append_of_le_length (by omega), List.take_take,
    Nat.min_eq_left (by omega), List.drop_append_of_le_length (by omega),
    List.drop_take, List.append_assoc]
  rfl

/-- Edits in the order in which they are applied give the source with the same
edits woven in from the front. -/
theorem applyInOrder_take_append
    (source tail : List UInt8)
    (edits : List Edit)
    {limit : Nat}
    {bound : Int}
    (limitInside : limit ≤ source.length)
    (limitBound : limit ≤ bound)
    (fits : ∀ edit ∈ edits, edit.Fits limit)
    (encodable : ∀ edit ∈ edits, edit.replacement.toChars?.isSome)
    (backwards : edits.Pairwise fun a b => b.stop ≤ a.start) :
    applyInOrder (source.take limit ++ tail) bound edits =
      .ok (woven source edits.reverse 0 limit ++ tail) := by
  induction edits generalizing tail limit bound with
  | nil => simp [applyInOrder, woven, between]
  | cons edit edits editsHypothesis =>
    rw [List.pairwise_cons] at backwards
    have editFits := fits edit List.mem_cons_self
    obtain ⟨chars, charsEq⟩ :=
      Option.isSome_iff_exists.1 (encodable edit List.mem_cons_self)
    have bytesEq : edit.bytes = Utf8.encode chars := by
      rw [bytes, charsEq]
      rfl
    have nonneg := editFits.nonneg
    have inside := editFits.inside
    have ordered := editFits.ordered
    have startEq : ((edit.span.start : Nat) : Int) = edit.start :=
      Int.toNat_of_nonneg nonneg
    rw [applyInOrder, if_neg (by omega), charsEq]
    simp only
    have restFits (other : Edit) (member : other ∈ edits) :
        other.Fits edit.span.start := by
      have otherFits := fits other (List.mem_cons_of_mem _ member)
      refine ⟨otherFits.nonneg, otherFits.ordered, ?_⟩
      rw [startEq]
      exact backwards.1 other member
    rw [splice_take_append source tail _ limitInside editFits,
      editsHypothesis _ (by omega) (by omega) restFits
        (fun other member => encodable other (List.mem_cons_of_mem _ member))
        backwards.2,
      List.reverse_cons, woven_append_cons, bytesEq, woven]
    simp only [List.append_assoc]

/-! ## Edits in any order -/

theorem isBehind_trans
    (a b c : Edit)
    (first : a.isBehind b = true)
    (second : b.isBehind c = true) :
    a.isBehind c = true := by
  simp only [isBehind, Bool.or_eq_true, Bool.and_eq_true, decide_eq_true_eq,
    beq_iff_eq] at *
  omega

theorem isBehind_total
    (a b : Edit) :
    (a.isBehind b || b.isBehind a) = true := by
  simp only [isBehind, Bool.or_eq_true, Bool.and_eq_true, decide_eq_true_eq,
    beq_iff_eq]
  omega

theorem Apart.symm
    {a b : Edit}
    (apart : a.Apart b) :
    b.Apart a :=
  Or.symm apart

/-- Of two edits that are apart, the one behind starts where the other has
stopped. -/
theorem Apart.stop_le_start
    {a b : Edit}
    {length : Nat}
    (apart : a.Apart b)
    (aFits : a.Fits length)
    (bFits : b.Fits length)
    (behind : a.isBehind b = true) :
    b.stop ≤ a.start := by
  have aOrdered := aFits.ordered
  have bOrdered := bFits.ordered
  simp only [isBehind, Bool.or_eq_true, Bool.and_eq_true, decide_eq_true_eq,
    beq_iff_eq] at behind
  rcases apart with before | after
  · omega
  · exact after

/-- The edits of a list in the order of their places. -/
def ascending (edits : List Edit) : List Edit :=
  (edits.mergeSort isBehind).reverse

theorem ascending_perm
    (edits : List Edit) :
    (ascending edits).Perm edits :=
  (List.reverse_perm _).trans (List.mergeSort_perm edits isBehind)

theorem mem_ascending
    {edits : List Edit}
    {edit : Edit} :
    edit ∈ ascending edits ↔ edit ∈ edits :=
  (ascending_perm edits).mem_iff

theorem ascending_pairwise
    {edits : List Edit}
    {length : Nat}
    (apart : edits.Pairwise Apart)
    (fits : ∀ edit ∈ edits, edit.Fits length) :
    (ascending edits).Pairwise fun a b => a.stop ≤ b.start := by
  rw [ascending, List.pairwise_reverse]
  have sorted : (edits.mergeSort isBehind).Pairwise
      (fun a b => a.isBehind b = true) :=
    List.pairwise_mergeSort isBehind_trans isBehind_total edits
  have stillApart : (edits.mergeSort isBehind).Pairwise Apart :=
    apart.perm (List.mergeSort_perm edits isBehind).symm Apart.symm
  apply (sorted.and stillApart).imp_of_mem
  rintro a b aMember bMember ⟨behind, apart⟩
  rw [List.mem_mergeSort] at aMember bMember
  exact apart.stop_le_start (fits a aMember) (fits b bMember) behind

/-- Edits that leave each other alone are applied, and give the source with
each of them made in its place. -/
theorem applyBytes_of_apart
    {source : List UInt8}
    {edits : List Edit}
    (apart : edits.Pairwise Apart)
    (fits : ∀ edit ∈ edits, edit.Fits source.length)
    (encodable : ∀ edit ∈ edits, edit.replacement.toChars?.isSome) :
    applyBytes source edits =
      .ok (woven source (ascending edits) 0 source.length) := by
  have backwards := ascending_pairwise apart fits
  rw [ascending, List.pairwise_reverse] at backwards
  have applied := applyInOrder_take_append source [] (edits.mergeSort isBehind)
    (Nat.le_refl _) (by omega : (source.length : Int) ≤ source.length + 1)
    (fun edit member => fits edit (List.mem_mergeSort.1 member))
    (fun edit member => encodable edit (List.mem_mergeSort.1 member)) backwards
  rw [List.take_length, List.append_nil, List.append_nil] at applied
  exact applied

/-! ## Edits between characters -/

theorem isText_bytes
    (edit : Edit) :
    Utf8.IsText edit.bytes := by
  unfold bytes
  cases edit.replacement.toChars? with
  | none => exact .nil
  | some chars => exact ⟨chars, rfl⟩

/-- What holds of the bytes between two places of a source, and of what edits
write from place to place, holds of the outcome if it holds of two texts one
behind the other. -/
theorem woven_of_pieces
    {source : List UInt8}
    {edits : List Edit}
    {first last : Nat}
    {holds : List UInt8 → Prop}
    {isPlace : Nat → Prop}
    (append : ∀ {front back}, holds front → holds back → holds (front ++ back))
    (pieces : ∀ {start stop}, isPlace start → isPlace stop → start ≤ stop →
      holds (between source start stop))
    (firstPlace : isPlace first)
    (lastPlace : isPlace last)
    (ordered : first ≤ last)
    (ascends : edits.Pairwise fun a b => a.stop ≤ b.start)
    (fits : ∀ edit ∈ edits, edit.Fits last)
    (behind : ∀ edit ∈ edits, first ≤ edit.span.start)
    (places : ∀ edit ∈ edits, isPlace edit.span.start ∧ isPlace edit.span.stop)
    (writes : ∀ edit ∈ edits, holds edit.bytes) :
    holds (woven source edits first last) := by
  induction edits generalizing first with
  | nil => exact pieces firstPlace lastPlace ordered
  | cons edit edits editsHypothesis =>
    rw [List.pairwise_cons] at ascends
    obtain ⟨startPlace, stopPlace⟩ := places edit List.mem_cons_self
    obtain ⟨nonneg, editOrdered, inside⟩ := fits edit List.mem_cons_self
    have front := pieces firstPlace startPlace (behind edit List.mem_cons_self)
    have stopInside : edit.span.stop ≤ last := by
      show edit.stop.toNat ≤ last
      omega
    have back := editsHypothesis stopPlace stopInside ascends.2
      (fun other member => fits other (List.mem_cons_of_mem _ member))
      (fun other member => Int.toNat_le_toNat (ascends.1 other member))
      (fun other member => places other (List.mem_cons_of_mem _ member))
      (fun other member => writes other (List.mem_cons_of_mem _ member))
    exact append (append front (writes edit List.mem_cons_self)) back

/-- Edits that leave each other alone and cut no character in two give a text
whose bytes are those of the edited source. -/
theorem apply_of_apart
    {source result : List UInt8}
    {edits : List Edit}
    (text : Utf8.IsText source)
    (apart : edits.Pairwise Apart)
    (fits : ∀ edit ∈ edits, edit.Fits source.length)
    (boundaries : ∀ edit ∈ edits, Utf8.IsBoundary source edit.span.start ∧
      Utf8.IsBoundary source edit.span.stop)
    (encodable : ∀ edit ∈ edits, edit.replacement.toChars?.isSome)
    (applied : applyBytes source edits = .ok result) :
    ∃ string, apply source edits = .ok string ∧
      Utf8.ofString string = result := by
  have woven := applyBytes_of_apart apart fits encodable
  rw [applied, Except.ok.injEq] at woven
  have isText : Utf8.IsText result := by
    rw [woven]
    apply woven_of_pieces Utf8.IsText.append
      Utf8.IsBoundary.isText_between text.boundary_zero text.boundary_length
      (Nat.zero_le _) (ascending_pairwise apart fits)
    · exact fun edit member => fits edit (mem_ascending.1 member)
    · exact fun edit member => Nat.zero_le _
    · exact fun edit member => boundaries edit (mem_ascending.1 member)
    · exact fun edit _ => edit.isText_bytes
  obtain ⟨string, read, same⟩ := isText.exists_string
  refine ⟨string, ?_, same⟩
  simp only [apply, applied, bind, Except.bind, read, pure, Except.pure]

/-- Without edits a text stays as it is. -/
theorem apply_nil (source : String) :
    apply (Utf8.ofString source) [] = .ok source := by
  simp only [apply, applyBytes, List.mergeSort_nil, applyInOrder, bind,
    Except.bind, Utf8.toString?_ofString, pure, Except.pure]

/-! ## One replacement among removals -/

/-- Removals keep what none of them takes. -/
theorem woven_removals
    (source : List UInt8)
    {removals : List Edit}
    {first last : Nat}
    (ordered : first ≤ last)
    (ascends : removals.Pairwise fun a b => a.stop ≤ b.start)
    (fits : ∀ edit ∈ removals, edit.Fits last)
    (behind : ∀ edit ∈ removals, first ≤ edit.span.start)
    (empty : ∀ edit ∈ removals, edit.replacement = []) :
    woven source removals first last =
      kept source (removals.map span) first last := by
  induction removals generalizing first with
  | nil => rw [woven, List.map_nil, kept_nil]
  | cons edit removals removalsHypothesis =>
    rw [List.pairwise_cons] at ascends
    obtain ⟨nonneg, editOrdered, inside⟩ := fits edit List.mem_cons_self
    have startBehind := behind edit List.mem_cons_self
    have bytesEq : edit.bytes = [] := by
      rw [bytes, empty edit List.mem_cons_self]
      rfl
    have spanOrdered : edit.span.start ≤ edit.span.stop :=
      Int.toNat_le_toNat editOrdered
    have spanInside : edit.span.stop ≤ last := by
      show edit.stop.toNat ≤ last
      omega
    have restBehind (other : Edit) (member : other ∈ removals) :
        edit.span.stop ≤ other.span.start :=
      Int.toNat_le_toNat (ascends.1 other member)
    have rest := removalsHypothesis spanInside ascends.2
      (fun other member => fits other (List.mem_cons_of_mem _ member))
      restBehind
      (fun other member => empty other (List.mem_cons_of_mem _ member))
    have front : kept source (edit.span :: removals.map span) first
        edit.span.start = between source first edit.span.start := by
      apply kept_of_behind
      intro other member
      rw [List.mem_cons, List.mem_map] at member
      rcases member with rfl | ⟨edit', member, rfl⟩
      · exact Nat.le_refl _
      · exact Nat.le_trans spanOrdered (restBehind edit' member)
    rw [woven, bytesEq, List.append_nil, rest, List.map_cons,
      ← kept_append source (edit.span :: removals.map span) startBehind
        (Nat.le_trans spanOrdered spanInside),
      kept_cons_span source _ spanOrdered spanInside, front]

/-- Spans on the far side of an offset take nothing in front of it, so that all
spans may be named on each side. -/
theorem kept_of_perm_append
    (source : List UInt8)
    {gone front back : List Span}
    {first last : Nat}
    (perm : (front ++ back).Perm gone)
    (missed : ∀ span ∈ back, ∀ offset, first ≤ offset → offset < last →
      span.holds offset = false) :
    kept source front first last = kept source gone first last := by
  apply kept_congr
  intro offset startLe ltLast
  rw [← perm.any_eq, List.any_append]
  have none : back.any (·.holds offset) = false := by
    rw [List.any_eq_false]
    intro span member
    rw [missed span member offset startLe ltLast]
    exact Bool.false_ne_true
  rw [none, Bool.or_false]

/-- A replacement and removals that leave each other alone keep every byte in
front of the replacement and behind it that no removal takes. -/
theorem applyBytes_replacement_removals
    {source : List UInt8}
    {replacement : Edit}
    {removals : List Edit}
    (apart : (replacement :: removals).Pairwise Apart)
    (fits : ∀ edit ∈ replacement :: removals, edit.Fits source.length)
    (encodable : replacement.replacement.toChars?.isSome)
    (empty : ∀ edit ∈ removals, edit.replacement = []) :
    applyBytes source (replacement :: removals) =
      .ok (kept source (removals.map span) 0 replacement.span.start ++
        replacement.bytes ++
        kept source (removals.map span) replacement.span.stop
          source.length) := by
  have allEncodable (edit : Edit) (member : edit ∈ replacement :: removals) :
      edit.replacement.toChars?.isSome := by
    rcases List.mem_cons.1 member with rfl | removal
    · exact encodable
    · rw [empty edit removal]
      rfl
  rw [applyBytes_of_apart apart fits allEncodable]
  have ascends := ascending_pairwise apart fits
  have sortedPerm := ascending_perm (replacement :: removals)
  have member : replacement ∈ ascending (replacement :: removals) :=
    mem_ascending.2 List.mem_cons_self
  obtain ⟨front, back, sortedEq⟩ := List.append_of_mem member
  rw [sortedEq] at ascends sortedPerm ⊢
  have perm : (front ++ back).Perm removals :=
    (List.perm_middle.symm.trans sortedPerm).cons_inv
  rw [List.pairwise_append, List.pairwise_cons] at ascends
  obtain ⟨frontAscends, ⟨backBehind, backAscends⟩, frontBefore⟩ := ascends
  have frontMember (edit : Edit) (member : edit ∈ front) : edit ∈ removals :=
    perm.subset (List.mem_append_left _ member)
  have backMember (edit : Edit) (member : edit ∈ back) : edit ∈ removals :=
    perm.subset (List.mem_append_right _ member)
  obtain ⟨nonneg, ordered, inside⟩ := fits replacement List.mem_cons_self
  have frontKept : woven source front 0 replacement.span.start =
      kept source (front.map span) 0 replacement.span.start := by
    apply woven_removals source (Nat.zero_le _) frontAscends
    · intro edit member
      have editFits := fits edit (List.mem_cons_of_mem _ (frontMember edit member))
      have before := frontBefore edit member replacement List.mem_cons_self
      refine ⟨editFits.nonneg, editFits.ordered, ?_⟩
      show edit.stop ≤ (replacement.start.toNat : Int)
      omega
    · exact fun edit member => Nat.zero_le _
    · exact fun edit member => empty edit (frontMember edit member)
  have backKept : woven source back replacement.span.stop source.length =
      kept source (back.map span) replacement.span.stop source.length := by
    apply woven_removals source (by show replacement.stop.toNat ≤ _; omega)
      backAscends
    · exact fun edit member =>
        fits edit (List.mem_cons_of_mem _ (backMember edit member))
    · exact fun edit member => Int.toNat_le_toNat (backBehind edit member)
    · exact fun edit member => empty edit (backMember edit member)
  have spansPerm : (front.map span ++ back.map span).Perm
      (removals.map span) := by
    rw [← List.map_append]
    exact perm.map span
  rw [woven_append_cons, frontKept, backKept,
    kept_of_perm_append source spansPerm,
    kept_of_perm_append source (List.perm_append_comm.trans spansPerm)]
  · intro other member offset startLe _
    obtain ⟨edit, editMember, rfl⟩ := List.mem_map.1 member
    have before := frontBefore edit editMember replacement List.mem_cons_self
    have stopLe : edit.span.stop ≤ replacement.span.stop := by
      show edit.stop.toNat ≤ replacement.stop.toNat
      omega
    simp [Span.holds]
    omega
  · intro other member offset _ ltStart
    obtain ⟨edit, editMember, rfl⟩ := List.mem_map.1 member
    have behind := backBehind edit editMember
    have startLe : replacement.span.start ≤ edit.span.start := by
      show replacement.start.toNat ≤ edit.start.toNat
      omega
    simp [Span.holds]
    omega

end Edit

end StoryMigration
