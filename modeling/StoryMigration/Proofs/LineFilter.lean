import StoryMigration.Proofs.LineSpan
import StoryMigration.Proofs.RootFronts

/-!
# Stripping a text line by line

A text without its residual roots is the text without some of its lines, cut
behind every line feed: those that begin like a residual root with a keyword
that stands in no literal.  All others are kept in their order.
-/

namespace StoryMigration
namespace Residual

open Syntax Utf8

variable {name bytes body rest : List UInt8} {offset : Nat} {line : Line}

/-! ## The lines of some bytes -/

/-- A line of some bytes. -/
structure Line where
  start : Nat
  /-- Its bytes, with the line feed that ends it. -/
  bytes : List UInt8
  deriving DecidableEq, Repr

/-- The bytes that a line takes. -/
def Line.span (line : Line) : Span :=
  ⟨line.start, line.start + line.bytes.length⟩

/-- The lines of bytes that start at an offset. -/
def linesFrom (offset : Nat) : List UInt8 → List Line
  | [] => []
  | b :: rest =>
    if b = 0x0a then ⟨offset, [b]⟩ :: linesFrom (offset + 1) rest
    else
      match linesFrom (offset + 1) rest with
      | [] => [⟨offset, [b]⟩]
      | line :: lines => ⟨offset, b :: line.bytes⟩ :: lines

/-- Bytes are nothing, a line without a line feed, or a line and what follows. -/
theorem lineInduction
    {motive : List UInt8 → Prop}
    (nil : motive [])
    (last : ∀ {body}, body ≠ [] → 0x0a ∉ body → motive body)
    (line : ∀ {body rest}, 0x0a ∉ body → motive rest →
      motive (body ++ 0x0a :: rest))
    (bytes : List UInt8) : motive bytes := by
  induction lengthEq : bytes.length using Nat.strong_induction_on
    generalizing bytes with
  | _ length lengthHypothesis =>
    rcases LineSpan.line_split bytes with whole | ⟨rest, split⟩
    · rw [← whole]
      by_cases empty : bytes.takeWhile (· != 0x0a) = []
      · rw [empty]
        exact nil
      · exact last empty fun member =>
          absurd (List.mem_takeWhile_imp member) (by decide)
    · have shorter : rest.length < length := by
        rw [← lengthEq, split, List.length_append, List.length_cons]
        omega
      rw [split]
      exact line (fun member =>
        absurd (List.mem_takeWhile_imp member) (by decide))
        (lengthHypothesis rest.length shorter rest rfl)

/-- A line and what follows are cut behind the line feed. -/
theorem linesFrom_line
    (noFeed : 0x0a ∉ body) :
    linesFrom offset (body ++ 0x0a :: rest) =
      ⟨offset, body ++ [0x0a]⟩ :: linesFrom (offset + (body.length + 1)) rest := by
  induction body generalizing offset with
  | nil => rw [List.nil_append, linesFrom, if_pos rfl]; rfl
  | cons b body bodyHypothesis =>
    rw [List.mem_cons, not_or] at noFeed
    rw [List.cons_append, linesFrom, if_neg (Ne.symm noFeed.1),
      bodyHypothesis noFeed.2]
    simp only [List.cons_append, List.length_cons]
    rw [show offset + 1 + (body.length + 1) = offset + (body.length + 1 + 1) by
      omega]

/-- A line without a line feed is not cut. -/
theorem linesFrom_last
    (some_body : body ≠ [])
    (noFeed : 0x0a ∉ body) :
    linesFrom offset body = [⟨offset, body⟩] := by
  induction body generalizing offset with
  | nil => exact absurd rfl some_body
  | cons b body bodyHypothesis =>
    rw [List.mem_cons, not_or] at noFeed
    rw [linesFrom, if_neg (Ne.symm noFeed.1)]
    by_cases empty : body = []
    · rw [empty, linesFrom]
    · rw [bodyHypothesis empty noFeed.2]

/-- Lines start behind the offset they are cut from. -/
theorem le_start_of_mem_linesFrom
    (member : line ∈ linesFrom offset bytes) :
    offset ≤ line.start := by
  induction bytes using lineInduction generalizing offset with
  | nil => exact absurd member List.not_mem_nil
  | last some_body noFeed =>
    rw [linesFrom_last some_body noFeed, List.mem_singleton] at member
    rw [member]
  | line noFeed restHypothesis =>
    rw [linesFrom_line noFeed, List.mem_cons] at member
    rcases member with rfl | later
    · exact Nat.le_refl _
    · have behind := restHypothesis later
      omega

/-! ## Lines that go -/

/-- A line begins like a residual root of a function, with a keyword that none
of some literals holds. -/
def Line.Goes (name : List UInt8) (literals : List Span) (line : Line) : Prop :=
  ∃ front : RootFront, front.spelled name <+: line.bytes ∧
    ∀ literal ∈ literals,
      literal.holds (line.start + front.blanks.length) = false

/-- The residual root that a line is. -/
def Line.root? (name : List UInt8) (line : Line) : Option Match :=
  if (behindRoot? name line.bytes).isSome then
    some ⟨line.start, line.start + (line.bytes.takeWhile isGap).length,
      line.start + line.bytes.length⟩
  else none

/-- A line goes when it is a residual root that is code. -/
theorem Line.goes_iff
    {literals : List Span} :
    line.Goes name literals ↔ (line.root? name).any (isCode literals) = true := by
  have code {root : Match} : isCode literals root = true ↔
      ∀ literal ∈ literals, literal.holds root.keyword = false := by
    rw [isCode, Bool.not_eq_true', List.any_eq_false]
    simp only [Bool.not_eq_true]
    rfl
  unfold Line.root?
  split
  · rename_i begins
    obtain ⟨front, behind, whole⟩ := behindRoot?_isSome_iff.1 begins
    have blanks : line.bytes.takeWhile isGap = front.blanks := by
      rw [← whole, front.takeWhile_eq]
    rw [Option.any_some, code]
    constructor
    · rintro ⟨front', ⟨behind', whole'⟩, outside⟩
      rwa [← whole', front'.takeWhile_eq]
    · intro outside
      rw [blanks] at outside
      exact ⟨front, ⟨behind, whole⟩, outside⟩
  · rename_i begins
    refine iff_of_false ?_ Bool.false_ne_true
    rintro ⟨front, isFront, -⟩
    exact begins (behindRoot?_isSome_iff.2 ⟨front, isFront⟩)

instance (name : List UInt8) (literals : List Span) (line : Line) :
    Decidable (line.Goes name literals) :=
  decidable_of_iff _ Line.goes_iff.symm

/-! ## The residual roots are lines -/

/-- The beginning of a root that calls a function with a name on one line is on
one line. -/
theorem RootFront.noFeed
    (front : RootFront)
    (oneLine : 0x0a ∉ name) :
    0x0a ∉ front.spelled name := by
  have notKeyword : ∀ keyword ∈ keywords, 0x0a ∉ keyword := by decide
  rw [spelled]
  simp only [List.mem_append, List.mem_cons, List.not_mem_nil, or_false, not_or]
  exact ⟨fun member => absurd (front.blanks_gap _ member) (by decide),
    notKeyword _ front.keyword_mem,
    fun member => absurd (front.gap_gap _ member) (by decide),
    fun member => absurd (front.word_name _ member) (by decide),
    fun member => absurd (front.before_gap _ member) (by decide), by decide,
    fun member => absurd (front.after_gap _ member) (by decide), oneLine,
    by decide⟩

/-- What begins a text and has no line feed begins its first line. -/
theorem prefix_line_iff
    {front : List UInt8}
    (noFeed : 0x0a ∉ front) :
    front <+: body ++ 0x0a :: rest ↔ front <+: body := by
  induction front generalizing body with
  | nil => exact iff_of_true List.nil_prefix List.nil_prefix
  | cons b front frontHypothesis =>
    rw [List.mem_cons, not_or] at noFeed
    cases body with
    | nil =>
      refine iff_of_false (fun begins => ?_) (fun begins => ?_)
      · exact noFeed.1 (List.cons_prefix_cons.1 begins).1.symm
      · exact absurd (List.prefix_nil.1 begins) (List.cons_ne_nil _ _)
    | cons c body =>
      rw [List.cons_append, List.cons_prefix_cons, List.cons_prefix_cons,
        frontHypothesis noFeed.2]

/-- Whether bytes begin like a residual root is decided on their first line. -/
theorem begins_line
    (oneLine : 0x0a ∉ name) :
    (behindRoot? name (body ++ 0x0a :: rest)).isSome =
      (behindRoot? name (body ++ [0x0a])).isSome := by
  rw [Bool.eq_iff_iff, behindRoot?_isSome_iff, behindRoot?_isSome_iff]
  simp only [prefix_line_iff (RootFront.noFeed _ oneLine)]

/-- The root at the start of a line, and those from the next line on. -/
theorem matchesFrom_line
    (oneLine : 0x0a ∉ name)
    (noFeed : 0x0a ∉ body)
    (fuel offset : Nat) :
    matchesFrom name (fuel + 1) offset (body ++ 0x0a :: rest) =
      (Line.root? name ⟨offset, body ++ [0x0a]⟩).toList ++
        matchesFrom name fuel (offset + (body.length + 1)) rest := by
  have length : lineLength (body ++ 0x0a :: rest) = body.length := by
    rw [lineLength, LineSpan.takeWhile_line noFeed]
  have blanks : (body ++ 0x0a :: rest).takeWhile isGap =
      (body ++ [0x0a]).takeWhile isGap := by
    rw [List.takeWhile_append, List.takeWhile_append]
    rfl
  have inside : body.length < (body ++ 0x0a :: rest).length := by
    rw [List.length_append, List.length_cons]
    omega
  have behind : (body ++ 0x0a :: rest).drop (body.length + 1) = rest := by
    rw [← List.drop_drop, List.drop_left]
    rfl
  rw [matchesFrom_succ oneLine, length, if_pos inside, Nat.min_eq_left inside,
    behind, begins_line oneLine, blanks]
  unfold Line.root?
  rw [List.length_append]
  split <;> rfl

/-- The root that a line without a line feed is. -/
theorem matchesFrom_last
    (oneLine : 0x0a ∉ name)
    (noFeed : 0x0a ∉ body)
    (fuel offset : Nat) :
    matchesFrom name (fuel + 1) offset body =
      (Line.root? name ⟨offset, body⟩).toList := by
  have length : lineLength body = body.length := by
    rw [lineLength, List.takeWhile_eq_self_iff.2]
    intro b member
    rw [bne_iff_ne]
    rintro rfl
    exact noFeed member
  rw [matchesFrom_succ oneLine, length, if_neg (Nat.lt_irrefl _),
    List.append_nil, Nat.min_eq_right (Nat.le_succ _)]
  unfold Line.root?
  split <;> rfl

/-- With a step for each line the residual roots are the lines that are one. -/
theorem matchesFrom_eq
    (oneLine : 0x0a ∉ name)
    {fuel : Nat}
    (enough : bytes.length < fuel)
    (offset : Nat) :
    matchesFrom name fuel offset bytes =
      (linesFrom offset bytes).filterMap (Line.root? name) := by
  obtain ⟨steps, rfl⟩ :=
    Nat.exists_eq_succ_of_ne_zero (Nat.ne_of_gt (Nat.zero_lt_of_lt enough))
  induction bytes using lineInduction generalizing steps offset with
  | nil => rfl
  | last some_body noFeed =>
    rw [matchesFrom_last oneLine noFeed, linesFrom_last some_body noFeed,
      List.filterMap_cons]
    cases Line.root? name _ <;> rfl
  | @line body rest noFeed restHypothesis =>
    rw [List.length_append, List.length_cons] at enough
    obtain ⟨steps, rfl⟩ := Nat.exists_eq_succ_of_ne_zero
      (show steps ≠ 0 by omega)
    rw [matchesFrom_line oneLine noFeed, linesFrom_line noFeed,
      restHypothesis _ steps (by omega), List.filterMap_cons]
    cases Line.root? name _ <;> rfl

/-! ## What is left -/

variable {literals : List Span}

/-- The lines of some bytes that stay, one behind the other. -/
def linesLeft (literals : List Span) (name bytes : List UInt8) : List UInt8 :=
  ((linesFrom 0 bytes).filter fun line => ¬line.Goes name literals).flatMap
    Line.bytes

/-- The roots that are code take the lines that go. -/
theorem spans_of_roots
    (lines : List Line) :
    ((lines.filterMap (Line.root? name)).filter (isCode literals)).map
        Match.span =
      (lines.filter fun line => line.Goes name literals).map Line.span := by
  induction lines with
  | nil => rfl
  | cons line lines linesHypothesis =>
    have goes : line.Goes name literals ↔
        (line.root? name).any (isCode literals) = true := Line.goes_iff
    cases found : line.root? name with
    | none =>
      rw [found, Option.any_none] at goes
      rw [List.filterMap_cons_none found, linesHypothesis,
        List.filter_cons_of_neg]
      rw [decide_eq_true_eq, goes]
      exact Bool.false_ne_true
    | some root =>
      have span : root.span = line.span := by
        unfold Line.root? at found
        split at found
        · rw [← Option.some.inj found]
          rfl
        · contradiction
      rw [found, Option.any_some] at goes
      rw [List.filterMap_cons_some found, List.filter_cons, List.filter_cons]
      by_cases code : isCode literals root = true
      · rw [if_pos code, if_pos (decide_eq_true (goes.2 code)), List.map_cons,
          List.map_cons, linesHypothesis, span]
      · rw [if_neg code, if_neg (by rw [decide_eq_true_eq, goes]; exact code),
          linesHypothesis]

/-- A line in front of others goes or stays. -/
theorem kept_line
    {front text : List UInt8}
    (goes : Line → Bool)
    (spans : List Span)
    (whole : bytes = front ++ (text ++ rest))
    (behind : ∀ span ∈ spans, front.length + text.length ≤ span.start) :
    kept bytes (([⟨front.length, text⟩].filter goes).map Line.span ++ spans)
        front.length bytes.length =
      ([⟨front.length, text⟩].filter (!goes ·)).flatMap Line.bytes ++
        kept bytes spans (front.length + text.length) bytes.length := by
  have inside : front.length + text.length ≤ bytes.length := by
    rw [whole, List.length_append, List.length_append]
    omega
  rw [List.filter_cons, List.filter_cons]
  cases goes ⟨front.length, text⟩ with
  | true => exact kept_cons_span bytes spans (Nat.le_add_right _ _) inside
  | false =>
    have stays : between bytes front.length (front.length + text.length) =
        text := by
      rw [between, whole, List.drop_left, Nat.add_sub_cancel_left,
        List.take_left]
    show kept bytes spans _ _ = [⟨front.length, text⟩].flatMap Line.bytes ++ _
    rw [← kept_append bytes spans (Nat.le_add_right _ _) inside,
      kept_of_behind bytes behind, stays, List.flatMap_singleton]

/-- Without some of its lines a text has the others left, in their order. -/
theorem kept_lines
    (goes : Line → Bool)
    {front : List UInt8}
    (whole : bytes = front ++ rest) :
    kept bytes (((linesFrom front.length rest).filter goes).map Line.span)
        front.length bytes.length =
      ((linesFrom front.length rest).filter (!goes ·)).flatMap Line.bytes := by
  induction rest using lineInduction generalizing front with
  | nil =>
    rw [whole, List.append_nil, kept, Nat.sub_self]
    rfl
  | @last body some_body noFeed =>
    have lineWhole : bytes = front ++ (body ++ []) := by
      rw [List.append_nil, whole]
    have line := kept_line goes [] lineWhole
      fun _ member => absurd member List.not_mem_nil
    have ended : front.length + body.length = bytes.length := by
      rw [whole, List.length_append]
    rw [ended, kept_nil, between, Nat.sub_self, List.take_zero, List.append_nil,
      List.append_nil] at line
    rwa [linesFrom_last some_body noFeed]
  | @line body rest noFeed restHypothesis =>
    have lengths : (front ++ (body ++ [0x0a])).length =
        front.length + (body.length + 1) := by
      rw [List.length_append, List.length_append]
      rfl
    have lineWhole : bytes = front ++ ((body ++ [0x0a]) ++ rest) := by
      rw [whole, List.append_assoc]
      rfl
    have later := restHypothesis (lineWhole.trans (List.append_assoc _ _ _).symm)
    rw [lengths] at later
    have line := kept_line goes
      (((linesFrom (front.length + (body.length + 1)) rest).filter
        goes).map Line.span) lineWhole (by
        intro span isSpan
        obtain ⟨line, member, rfl⟩ := List.mem_map.1 isSpan
        have behind := le_start_of_mem_linesFrom (List.mem_of_mem_filter member)
        rw [List.length_append]
        exact behind)
    rw [List.length_append, List.length_singleton, later] at line
    rw [linesFrom_line noFeed, ← List.singleton_append, List.filter_append,
      List.filter_append, List.map_append, List.flatMap_append]
    exact line

/-- A text whose lines are cut behind every line feed loses exactly those that
declare a residual root with a keyword outside all literals, and no two removals
overlap. -/
theorem strip_filters_lines
    {name : String}
    (oneLine : '\n' ∉ name.toList)
    (source : String) :
    (∀ literals,
      (removals literals (ofString name) (ofString source)).Pairwise
        Edit.Apart ∧
      ∃ stripped,
        Edit.apply (ofString source)
            (removals literals (ofString name) (ofString source)) =
          .ok stripped ∧
        ofString stripped =
          linesLeft literals (ofString name) (ofString source)) ∧
      ∀ dialect, ∃ stripped, strip dialect name source = .ok stripped ∧
        ofString stripped = linesLeft (literalSpans dialect source)
          (ofString name) (ofString source) := by
  have nameLine := noFeed_of_oneLine oneLine
  obtain ⟨areRoots, inTurn⟩ := roots_lines nameLine (ofString source)
  have lines : roots (ofString name) (ofString source) =
      (linesFrom 0 (ofString source)).filterMap (Line.root? (ofString name)) :=
    matchesFrom_eq nameLine (Nat.lt_succ_self _) 0
  have removed (literals : List Span) :
      (removals literals (ofString name) (ofString source)).Pairwise
        Edit.Apart ∧
      ∃ stripped,
        Edit.apply (ofString source)
            (removals literals (ofString name) (ofString source)) =
          .ok stripped ∧
        ofString stripped =
          linesLeft literals (ofString name) (ofString source) := by
    have sublist := List.filter_sublist
      (l := roots (ofString name) (ofString source)) (p := isCode literals)
    have goneRoots (root : Match) (isRoot : root ∈
        (roots (ofString name) (ofString source)).filter (isCode literals)) :=
      areRoots root (sublist.subset isRoot)
    obtain ⟨apart, stripped, applied, bytesEq⟩ :=
      exists_apply_removals source goneRoots (inTurn.sublist sublist)
    refine ⟨apart, stripped, applied, ?_⟩
    have whole : ofString source = [] ++ ofString source := rfl
    have left := kept_lines
      (fun line => line.Goes (ofString name) literals) whole
    rw [bytesEq, woven_removals_eq_kept goneRoots apart, lines, spans_of_roots]
    simp only [linesLeft, decide_not]
    exact left
  refine ⟨removed, fun dialect => ?_⟩
  obtain ⟨-, stripped, applied, left⟩ := removed (literalSpans dialect source)
  exact ⟨stripped, (strip_eq_apply dialect name source).trans applied, left⟩

set_option maxRecDepth 100000 in
/-- Two lines go, one of them without a line feed, and one that a template holds
stays. -/
theorem strip_filters_lines_template :
    '\n' ∉ "s.of".toList ∧
      strip .javascript "s.of"
          ("const s = s.of('X', module);\r\nconst doc = `\n" ++
            "const t = s.of('Y', module)\n`;\nlet u = sXof();\n\tvar v=  s.of(y)") =
        .ok ("const doc = `\nconst t = s.of('Y', module)\n`;\n" ++
          "let u = sXof();\n") := by
  generalize sourceEq :
    "const s = s.of('X', module);\r\nconst doc = `\n" ++
      "const t = s.of('Y', module)\n`;\nlet u = sXof();\n\tvar v=  s.of(y)" =
        source
  have checked : linesLeft (literalSpans .javascript source) (ofString "s.of")
      (ofString source) =
        ofString ("const doc = `\nconst t = s.of('Y', module)\n`;\n" ++
          "let u = sXof();\n") := by
    rw [← sourceEq]
    decide +kernel
  have oneLine : '\n' ∉ "s.of".toList := by decide
  obtain ⟨-, strips⟩ := strip_filters_lines oneLine source
  obtain ⟨stripped, strips, left⟩ := strips .javascript
  rw [checked] at left
  refine ⟨oneLine, strips.trans (congrArg Except.ok ?_)⟩
  exact String.toList_injective (encode_injective left)

end Residual
end StoryMigration
