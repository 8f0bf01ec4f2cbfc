import Mathlib.Data.List.Nodup
import StoryMigration.Proofs.Fallible
import StoryMigration.Proofs.Splice

/-!
# Edits in any order

Edits are sorted and applied from the back, and each is checked against the
one applied before it only.  The check is complete all the same: it passes
exactly when no two edits overlap, and the outcome is then the source read
from the front with every edit made in its place.  The order in which the
edits were given does not show, not even in the position that is reported of
an overlap.
-/

namespace StoryMigration
namespace Edit

/-- Where an edit starts and stops. -/
def place (edit : Edit) : Int × Int := (edit.start, edit.stop)

/-- An edit starts in front of another one, or with it and stops no later. -/
def Precedes (a b : Edit) : Prop :=
  a.start < b.start ∨ a.start = b.start ∧ a.stop ≤ b.stop

/-- Of two edits, the one that precedes stops behind the start of the other. -/
def Overlaps (a b : Edit) : Prop :=
  a.Precedes b ∧ b.start < a.stop ∨ b.Precedes a ∧ a.start < b.stop

/-- Two edits only insert, and at the same place. -/
def InsertTogether (a b : Edit) : Prop :=
  a.start = a.stop ∧ b.start = b.stop ∧ a.start = b.start

/-- The replacement holds no surrogate without its partner. -/
def IsEncodable (edit : Edit) : Prop := edit.replacement.toChars?.isSome

/-- Edits lie inside a source in UTF-8, start and stop between its characters,
and no two of them insert at the same place. -/
structure WellPlaced (source : List UInt8) (edits : List Edit) : Prop where
  text : Utf8.IsText source
  fits : ∀ edit ∈ edits, edit.Fits source.length
  boundaries : ∀ edit ∈ edits, Utf8.IsBoundary source edit.span.start ∧
    Utf8.IsBoundary source edit.span.stop
  insertions : edits.Pairwise fun a b => ¬ a.InsertTogether b

/-! ## The check of neighbours -/

/-- Edits that are applied stop in front of the limit, and each stops where the
one applied before it starts, or further in front. -/
theorem backwards_of_applyInOrder
    {source result : List UInt8}
    {limit : Int}
    {edits : List Edit}
    (ordered : ∀ edit ∈ edits, edit.start ≤ edit.stop)
    (applied : applyInOrder source limit edits = .ok result) :
    (∀ edit ∈ edits, edit.stop ≤ limit) ∧
      edits.Pairwise fun a b => b.stop ≤ a.start := by
  induction edits generalizing source limit with
  | nil => exact ⟨nofun, .nil⟩
  | cons edit edits editsHypothesis =>
    have editOrdered := ordered edit List.mem_cons_self
    have restOrdered (other : Edit) (member : other ∈ edits) :=
      ordered other (List.mem_cons_of_mem _ member)
    rw [applyInOrder] at applied
    split at applied
    · cases applied
    · rename_i inside
      split at applied
      · cases applied
      · obtain ⟨restInside, restBackwards⟩ := editsHypothesis restOrdered applied
        refine ⟨?_, List.pairwise_cons.2 ⟨restInside, restBackwards⟩⟩
        intro other member
        rcases List.mem_cons.1 member with rfl | member
        · omega
        · have otherInside := restInside other member
          omega

/-- Edits are applied only if every replacement has an encoding. -/
theorem encodable_of_applyInOrder
    {source result : List UInt8}
    {limit : Int}
    {edits : List Edit}
    (applied : applyInOrder source limit edits = .ok result) :
    ∀ edit ∈ edits, edit.IsEncodable := by
  induction edits generalizing source limit with
  | nil => exact nofun
  | cons edit edits editsHypothesis =>
    rw [applyInOrder] at applied
    split at applied
    · cases applied
    · split at applied
      · cases applied
      · rename_i chars charsEq
        intro other member
        rcases List.mem_cons.1 member with rfl | member
        · rw [IsEncodable, charsEq]
          rfl
        · exact editsHypothesis applied other member

/-- What stops encodable edits is an overlap, and its position depends on
nothing but the places of the edits. -/
theorem overlap_of_applyInOrder
    {source target : List UInt8}
    {limit : Int}
    {edits others : List Edit}
    {error : EditError}
    (samePlaces : edits.map place = others.map place)
    (encodable : ∀ edit ∈ edits, edit.IsEncodable)
    (othersEncodable : ∀ edit ∈ others, edit.IsEncodable)
    (stopped : applyInOrder source limit edits = .error error) :
    applyInOrder target limit others = .error error ∧
      ∃ start, error = .overlap start := by
  induction edits generalizing source target limit others with
  | nil => cases stopped
  | cons edit edits editsHypothesis =>
    cases others with
    | nil => cases samePlaces
    | cons other others =>
      rw [List.map_cons, List.map_cons, List.cons.injEq] at samePlaces
      obtain ⟨placeEq, samePlaces⟩ := samePlaces
      obtain ⟨startEq, stopEq⟩ := Prod.mk.inj placeEq
      obtain ⟨chars, charsEq⟩ :=
        Option.isSome_iff_exists.1 (encodable edit List.mem_cons_self)
      obtain ⟨otherChars, otherEq⟩ :=
        Option.isSome_iff_exists.1 (othersEncodable other List.mem_cons_self)
      rw [applyInOrder, charsEq] at stopped
      rw [applyInOrder, otherEq, ← startEq, ← stopEq]
      split at stopped
      · rename_i beyond
        cases stopped
        exact ⟨if_pos beyond, edit.start, rfl⟩
      · rename_i inside
        rw [if_neg inside]
        exact editsHypothesis samePlaces
          (fun edit member => encodable edit (List.mem_cons_of_mem _ member))
          (fun edit member =>
            othersEncodable edit (List.mem_cons_of_mem _ member))
          stopped

/-! ## Overlaps -/

/-- Edits overlap exactly when they do not leave each other alone. -/
theorem overlaps_iff_not_apart
    {a b : Edit}
    {length : Nat}
    (aFits : a.Fits length)
    (bFits : b.Fits length) :
    a.Overlaps b ↔ ¬ a.Apart b := by
  have aOrdered := aFits.ordered
  have bOrdered := bFits.ordered
  unfold Overlaps Precedes Apart
  omega

theorem pairwise_apart_iff
    {edits : List Edit}
    {length : Nat}
    (fits : ∀ edit ∈ edits, edit.Fits length) :
    edits.Pairwise Apart ↔ edits.Pairwise fun a b => ¬ a.Overlaps b := by
  refine List.Pairwise.iff_of_mem fun {a b} aMember bMember => ?_
  rw [overlaps_iff_not_apart (fits a aMember) (fits b bMember), not_not]

/-- Encodable edits are applied exactly when no two of them overlap. -/
theorem applyBytes_eq_ok_iff
    {source : List UInt8}
    {edits : List Edit}
    (fits : ∀ edit ∈ edits, edit.Fits source.length)
    (encodable : ∀ edit ∈ edits, edit.IsEncodable) :
    (∃ result, applyBytes source edits = .ok result) ↔
      edits.Pairwise fun a b => ¬ a.Overlaps b := by
  rw [← pairwise_apart_iff fits]
  constructor
  · rintro ⟨result, applied⟩
    have sortedApart : (edits.mergeSort isBehind).Pairwise Apart :=
      (backwards_of_applyInOrder
        (fun edit member => (fits edit (List.mem_mergeSort.1 member)).ordered)
        applied).2.imp Or.inr
    exact sortedApart.perm (List.mergeSort_perm edits isBehind) Apart.symm
  · exact fun apart => ⟨_, applyBytes_of_apart apart fits encodable⟩

/-! ## The order in which edits are given -/

/-- Sorting leaves the same places, whatever order the edits were given in. -/
theorem places_mergeSort_of_perm
    {edits others : List Edit}
    (perm : edits.Perm others) :
    (edits.mergeSort isBehind).map place =
      (others.mergeSort isBehind).map place := by
  have sorted (edits : List Edit) :
      ((edits.mergeSort isBehind).map place).Pairwise fun p q =>
        q.1 < p.1 ∨ q.1 = p.1 ∧ q.2 ≤ p.2 := by
    rw [List.pairwise_map]
    refine (List.pairwise_mergeSort isBehind_trans isBehind_total edits).imp ?_
    intro a b behind
    simpa [isBehind, place] using behind
  apply List.Perm.eq_of_pairwise _ (sorted edits) (sorted others)
  · exact (((List.mergeSort_perm edits isBehind).trans perm).trans
      (List.mergeSort_perm others isBehind).symm).map place
  · rintro ⟨pStart, pStop⟩ ⟨qStart, qStop⟩ _ _ first second
    simp only [Prod.mk.injEq] at first second ⊢
    omega

/-- Edits that neither overlap nor insert together stand at different
places. -/
theorem nodup_places
    {edits : List Edit}
    {length : Nat}
    (fits : ∀ edit ∈ edits, edit.Fits length)
    (apart : edits.Pairwise Apart)
    (insertions : edits.Pairwise fun a b => ¬ a.InsertTogether b) :
    (edits.map place).Nodup := by
  rw [List.nodup_iff_pairwise_ne, List.pairwise_map]
  apply (apart.and insertions).imp_of_mem
  rintro a b aMember bMember ⟨apart, separate⟩ samePlace
  have aOrdered := (fits a aMember).ordered
  obtain ⟨startEq, stopEq⟩ := Prod.mk.inj samePlace
  unfold Apart at apart
  unfold InsertTogether at separate
  omega

theorem ascending_precedes (edits : List Edit) :
    (ascending edits).Pairwise Precedes := by
  rw [ascending, List.pairwise_reverse]
  refine (List.pairwise_mergeSort isBehind_trans isBehind_total edits).imp ?_
  intro a b behind
  simpa [isBehind, Precedes] using behind

/-- Edits at different places have one order of their places. -/
theorem ascending_unique
    {edits others : List Edit}
    (distinct : (edits.map place).Nodup)
    (perm : others.Perm edits)
    (sorted : others.Pairwise Precedes) :
    others = ascending edits := by
  apply List.Perm.eq_of_pairwise _ sorted (ascending_precedes edits)
  · exact perm.trans (ascending_perm edits).symm
  · intro a b aMember bMember first second
    apply List.inj_on_of_nodup_map distinct (perm.subset aMember)
      (mem_ascending.1 bMember)
    unfold Precedes at first second
    rw [place, place, Prod.mk.injEq]
    omega

/-- Edits that overlap nowhere are applied alike, whatever order they were
given in. -/
theorem ascending_of_perm
    {edits others : List Edit}
    {length : Nat}
    (fits : ∀ edit ∈ edits, edit.Fits length)
    (apart : edits.Pairwise Apart)
    (insertions : edits.Pairwise fun a b => ¬ a.InsertTogether b)
    (perm : others.Perm edits) :
    ascending others = ascending edits :=
  ascending_unique (nodup_places fits apart insertions)
    ((ascending_perm others).trans perm) (ascending_precedes others)

/-! ## Outcomes -/

theorem apply_eq_error
    {source : List UInt8}
    {edits : List Edit}
    {error : EditError}
    (stopped : applyBytes source edits = .error error) :
    apply source edits = .error error := by
  rw [apply, stopped]
  rfl

/-- Well placed, encodable edits without overlaps give the source with every
edit made in its place. -/
theorem apply_of_wellPlaced
    {source : List UInt8}
    {edits : List Edit}
    (placed : WellPlaced source edits)
    (encodable : ∀ edit ∈ edits, edit.IsEncodable)
    (separate : edits.Pairwise fun a b => ¬ a.Overlaps b) :
    ∃ text, apply source edits = .ok text ∧
      Utf8.ofString text = woven source (ascending edits) 0 source.length := by
  have apart := (pairwise_apart_iff placed.fits).2 separate
  exact apply_of_apart placed.text apart placed.fits placed.boundaries encodable
    (applyBytes_of_apart apart placed.fits encodable)

/-- Overlaps among encodable edits are reported. -/
theorem apply_of_overlap
    {source : List UInt8}
    {edits : List Edit}
    (fits : ∀ edit ∈ edits, edit.Fits source.length)
    (encodable : ∀ edit ∈ edits, edit.IsEncodable)
    (clash : ¬ edits.Pairwise fun a b => ¬ a.Overlaps b) :
    ∃ start, applyBytes source edits = .error (.overlap start) := by
  have sortedEncodable (edit : Edit) (member : edit ∈ edits.mergeSort isBehind) :=
    encodable edit (List.mem_mergeSort.1 member)
  cases outcome : applyBytes source edits with
  | ok result =>
    exact absurd ((applyBytes_eq_ok_iff fits encodable).1 ⟨result, outcome⟩) clash
  | error error =>
    obtain ⟨-, start, rfl⟩ := @overlap_of_applyInOrder source source _ _ _ _
      rfl sortedEncodable sortedEncodable outcome
    exact ⟨start, rfl⟩

/-- Without overlaps nothing but a replacement stops the edits. -/
theorem unencodable_of_applyInOrder
    {source : List UInt8}
    {limit : Int}
    {edits : List Edit}
    {error : EditError}
    (inside : ∀ edit ∈ edits, edit.stop ≤ limit)
    (backwards : edits.Pairwise fun a b => b.stop ≤ a.start)
    (stopped : applyInOrder source limit edits = .error error) :
    error = .unencodable := by
  induction edits generalizing source limit with
  | nil => cases stopped
  | cons edit edits editsHypothesis =>
    have editInside := inside edit List.mem_cons_self
    rw [List.pairwise_cons] at backwards
    rw [applyInOrder, if_neg (by omega)] at stopped
    split at stopped
    · cases stopped
      rfl
    · exact editsHypothesis backwards.1 backwards.2 stopped

theorem applyBytes_of_unencodable
    {source : List UInt8}
    {edits : List Edit}
    {edit : Edit}
    (fits : ∀ edit ∈ edits, edit.Fits source.length)
    (separate : edits.Pairwise fun a b => ¬ a.Overlaps b)
    (member : edit ∈ edits)
    (unencodable : ¬ edit.IsEncodable) :
    applyBytes source edits = .error .unencodable := by
  have backwards := ascending_pairwise ((pairwise_apart_iff fits).2 separate) fits
  rw [ascending, List.pairwise_reverse] at backwards
  have inside (edit : Edit) (member : edit ∈ edits.mergeSort isBehind) :
      edit.stop ≤ (source.length + 1 : Int) := by
    have editInside := (fits edit (List.mem_mergeSort.1 member)).inside
    omega
  cases outcome : applyBytes source edits with
  | ok result =>
    exact absurd (encodable_of_applyInOrder outcome edit
      (List.mem_mergeSort.2 member)) unencodable
  | error error =>
    rw [unencodable_of_applyInOrder inside backwards outcome]

/-- Well placed edits whose replacements all have an encoding are refused for an
overlap exactly when two of them overlap.  Otherwise they give the bytes between
them and their replacements in the order of their places.  The outcome is that
of any other order of the edits.  With a replacement that has no encoding there
is never a text, and without an overlap this is what is reported. -/
theorem apply_anyOrder
    {source : List UInt8}
    {edits : List Edit}
    (placed : WellPlaced source edits) :
    ((∀ edit ∈ edits, edit.IsEncodable) →
      ((∃ start, apply source edits = .error (.overlap start)) ↔
        ¬ edits.Pairwise fun a b => ¬ a.Overlaps b) ∧
      ((edits.Pairwise fun a b => ¬ a.Overlaps b) →
        ∃ ordered text, ordered.Perm edits ∧ ordered.Pairwise Precedes ∧
          apply source edits = .ok text ∧
          Utf8.ofString text = woven source ordered 0 source.length) ∧
      ∀ others, others.Perm edits → apply source others = apply source edits) ∧
    ((∃ edit ∈ edits, ¬ edit.IsEncodable) →
      (∀ text, apply source edits ≠ .ok text) ∧
      ((edits.Pairwise fun a b => ¬ a.Overlaps b) →
        apply source edits = .error .unencodable)) := by
  refine ⟨fun encodable => ⟨⟨?_, ?_⟩, ?_, ?_⟩, ?_⟩
  · rintro ⟨start, refused⟩ separate
    obtain ⟨text, applied, _⟩ := apply_of_wellPlaced placed encodable separate
    rw [applied] at refused
    cases refused
  · intro clash
    obtain ⟨start, stopped⟩ := apply_of_overlap placed.fits encodable clash
    exact ⟨start, apply_eq_error stopped⟩
  · intro separate
    obtain ⟨text, applied, same⟩ := apply_of_wellPlaced placed encodable separate
    exact ⟨ascending edits, text, ascending_perm edits, ascending_precedes edits,
      applied, same⟩
  · intro others perm
    have othersEncodable (edit : Edit) (member : edit ∈ others) :=
      encodable edit (perm.subset member)
    have othersFits (edit : Edit) (member : edit ∈ others) :=
      placed.fits edit (perm.subset member)
    by_cases separate : edits.Pairwise fun a b => ¬ a.Overlaps b
    · have apart := (pairwise_apart_iff placed.fits).2 separate
      have othersApart : others.Pairwise Apart := apart.perm perm.symm Apart.symm
      rw [apply, apply, applyBytes_of_apart apart placed.fits encodable,
        applyBytes_of_apart othersApart othersFits othersEncodable,
        ascending_of_perm placed.fits apart placed.insertions perm]
    · obtain ⟨start, stopped⟩ := apply_of_overlap placed.fits encodable separate
      have othersStopped : applyBytes source others = .error (.overlap start) :=
        (overlap_of_applyInOrder (places_mergeSort_of_perm perm.symm)
          (fun edit member => encodable edit (List.mem_mergeSort.1 member))
          (fun edit member => othersEncodable edit (List.mem_mergeSort.1 member))
          stopped).1
      rw [apply_eq_error stopped, apply_eq_error othersStopped]
  · rintro ⟨edit, member, unencodable⟩
    refine ⟨fun text applied => ?_, fun separate =>
      apply_eq_error (applyBytes_of_unencodable placed.fits separate member
        unencodable)⟩
    obtain ⟨result, appliedBytes, _⟩ := Fallible.bind_eq_ok.1 applied
    exact unencodable (encodable_of_applyInOrder appliedBytes edit
      (List.mem_mergeSort.2 member))

/-- Two insertions and a removal touch a replaced character, all out of
order. -/
def touching : List Edit :=
  [.replacing 3 3 "x", .replacing 1 3 "y", .replacing 1 1 "z", .removal 0 1]

theorem wellPlaced_touching :
    WellPlaced (Utf8.ofString "aéb") touching := by
  have text : Utf8.IsText (Utf8.ofString "aéb") := .ofString _
  have bytes : Utf8.ofString "aéb" = [97, 195, 169, 98] := by decide
  have front := text.boundaries_of_ascii
    (show (Utf8.ofString "aéb")[0]? = some 97 by rw [bytes]; rfl) (by decide)
  have back := text.boundaries_of_ascii
    (show (Utf8.ofString "aéb")[3]? = some 98 by rw [bytes]; rfl) (by decide)
  refine ⟨text, ?_, ?_, ?_⟩
  · simp only [touching, List.forall_mem_cons, bytes]
    exact ⟨⟨by decide, by decide, by decide⟩, ⟨by decide, by decide, by decide⟩,
      ⟨by decide, by decide, by decide⟩, ⟨by decide, by decide, by decide⟩, nofun⟩
  · simp only [touching, List.forall_mem_cons]
    exact ⟨⟨back.1, back.1⟩, ⟨front.2, back.1⟩, ⟨front.2, front.2⟩,
      ⟨front.1, front.2⟩, nofun⟩
  · unfold InsertTogether
    decide

theorem apply_anyOrder_touching :
    WellPlaced (Utf8.ofString "aéb") touching ∧
      (∀ edit ∈ touching, edit.IsEncodable) ∧
      (touching.Pairwise fun a b => ¬ a.Overlaps b) ∧
      ∃ ordered text, ordered.Perm touching ∧ ordered.Pairwise Precedes ∧
        apply (Utf8.ofString "aéb") touching = .ok text ∧
        Utf8.ofString text = woven (Utf8.ofString "aéb") ordered 0
          (Utf8.ofString "aéb").length := by
  have encodable : ∀ edit ∈ touching, edit.IsEncodable := by
    unfold IsEncodable
    decide
  have separate : touching.Pairwise fun a b => ¬ a.Overlaps b := by
    unfold Overlaps Precedes
    decide
  exact ⟨wellPlaced_touching, encodable, separate,
    ((apply_anyOrder wellPlaced_touching).1 encodable).2.1 separate⟩

/-- A single replacement that overlaps nothing is refused if it holds a
surrogate without its partner. -/
theorem apply_surrogate_refused :
    ∃ edit : Edit, WellPlaced (Utf8.ofString "a") [edit] ∧
      ([edit].Pairwise fun a b => ¬ a.Overlaps b) ∧
      apply (Utf8.ofString "a") [edit] = .error .unencodable := by
  have text : Utf8.IsText (Utf8.ofString "a") := .ofString _
  have boundaries := text.boundaries_of_ascii
    (show (Utf8.ofString "a")[0]? = some 97 by decide) (by decide)
  refine ⟨⟨0, 1, [⟨0xd800, by decide⟩]⟩, ⟨text, ?_, ?_, ?_⟩, ?_, ?_⟩
  · rw [List.forall_mem_singleton]
    exact ⟨by decide, by decide, by decide⟩
  · rw [List.forall_mem_singleton]
    exact boundaries
  · exact List.pairwise_singleton _ _
  · exact List.pairwise_singleton _ _
  · apply apply_eq_error
    rw [applyBytes, List.mergeSort_singleton]
    decide

end Edit
end StoryMigration
