import Mathlib.Data.List.Basic
import StoryMigration.Proofs.TokenText
import StoryMigration.Proofs.Tree

/-!
# Nodes laid over a text

What a reading has built so far lies over the text in order: the nodes stand
one behind the other in front of the cursor, everywhere below them children
lie inside their parents, no node starts or stops inside a line ending, and
the comments noted on the way stand between the tokens.  A reading takes what
is laid to what is laid, with the nodes that it gives behind the others; what
was laid before makes no difference, so rules are put together from the rules
they call.
-/

namespace StoryMigration
namespace Syntax

/-! ## Places between characters -/

/-- A place between the characters of a text. -/
def IsBetween (text : List Char) (offset : Nat) : Prop :=
  ∃ front back, text = front ++ back ∧ offset = byteLength front

/-- A place between the characters of a text and in no line ending. -/
def IsSharp (text : List Char) (offset : Nat) : Prop :=
  ∃ front back, text = front ++ back ∧ offset = byteLength front ∧
    Apart front back

theorem IsSharp.isBetween
    {text : List Char}
    {offset : Nat}
    (sharp : IsSharp text offset) :
    IsBetween text offset := by
  obtain ⟨front, back, textEq, offsetEq, -⟩ := sharp
  exact ⟨front, back, textEq, offsetEq⟩

/-! ## Nodes -/

/-- What the kind of a node says of it besides its places. -/
inductive Form where
  /-- A word that a name consists of. -/
  | name
  /-- A name behind what it is a member of. -/
  | member
  /-- Arguments behind what they are given to. -/
  | call
  /-- A literal between quotation marks. -/
  | quoted
  /-- Text between tags. -/
  | inset
  /-- A comment, which no rule of the grammar reads. -/
  | note
  /-- Nothing. -/
  | plain
  deriving DecidableEq

def form : Kind → Form
  | .identifier | .typeIdentifier | .propertyName => .name
  | .memberExpression => .member
  | .callExpression => .call
  | .string | .templateString => .quoted
  | .jsxText => .inset
  | .comment => .note
  | _ => .plain

/-- Forms of single tokens. -/
def Form.isToken : Form → Bool
  | .name | .plain => true
  | _ => false

/-- Among some children, a part of the one role stands in front of a part of
the other. -/
def InTurnAs (first second : Role) (children : List Node) : Prop :=
  ∀ front ∈ children, ∀ back ∈ children,
    front.role = some first → back.role = some second →
      front.stop ≤ back.start

/-- Among some children, what a member is taken of stands in front of the
member's name. -/
abbrev MemberInTurn (children : List Node) : Prop :=
  InTurnAs .receiver .property children

/-- Quotation marks, those of templates among them. -/
def isQuote (c : Char) : Bool := c == '\'' || c == '"' || c == '\x60'

/-- A node that starts with a quotation mark. -/
def OpensQuote (text : List Char) (node : Node) : Prop :=
  ∃ front quote back, text = front ++ quote :: back ∧
    node.start = byteLength front ∧ byteLength (front ++ [quote]) ≤ node.stop ∧
    isQuote quote = true

/-- A node that goes on behind one starts with its quotation mark. -/
theorem OpensQuote.grow
    {text : List Char}
    {node other : Node}
    (opens : OpensQuote text node)
    (start : other.start = node.start)
    (stop : node.stop ≤ other.stop) :
    OpensQuote text other := by
  obtain ⟨front, quote, back, textEq, startEq, stopEq, isQuote⟩ := opens
  exact ⟨front, quote, back, textEq, start.trans startEq, Nat.le_trans stopEq stop,
    isQuote⟩

/-- Characters that stand in text between tags. -/
def isInset (c : Char) : Bool := !"<>\x7b\x7d&".toList.contains c

/-- Last characters of what text between tags can stand behind: tags,
expressions in braces and character references. -/
def endsPart (c : Char) : Bool := c == '>' || c == '\x7d' || c == ';'

/-- Text that starts directly behind a tag, an expression or a reference and
goes on up to the next one. -/
def IsInset (text : List Char) (node : Node) : Prop :=
  ∃ front mark body back, text = front ++ mark :: (body ++ back) ∧
    node.start = byteLength (front ++ [mark]) ∧
    node.stop = byteLength (front ++ mark :: body) ∧ endsPart mark = true ∧
    ∀ c ∈ back.head?, isInset c = false

/-- A node that covers no blank. -/
def Unbroken (text : List Char) (node : Node) : Prop :=
  ∃ front body back, text = front ++ body ++ back ∧
    node.start = byteLength front ∧ node.stop = byteLength (front ++ body) ∧
    IsSolid body

theorem Unbroken.congr
    {text : List Char}
    {node other : Node}
    (unbroken : Unbroken text node)
    (start : node.start = other.start)
    (stop : node.stop = other.stop) :
    Unbroken text other := by
  obtain ⟨front, body, back, textEq, startEq, stopEq, solid⟩ := unbroken
  exact ⟨front, body, back, textEq, start ▸ startEq, stop ▸ stopEq, solid⟩

/-- A node with its children in order inside it and its ends in no line
ending, which is what its kind says. -/
structure Sound (text : List Char) (node : Node) : Prop where
  ordered : node.Ordered
  start : IsSharp text node.start
  stop : IsSharp text node.stop
  name : form node.kind = .name → Unbroken text node
  member : form node.kind = .member → MemberInTurn node.children
  call : form node.kind = .call → InTurnAs .callee .arguments node.children
  quoted : form node.kind = .quoted → OpensQuote text node
  inset : form node.kind = .inset → IsInset text node
  noNote : form node.kind ≠ .note

/-- Some children may become those of a node of a kind. -/
structure Suits (text : List Char) (kind : Kind) (children : List Node) :
    Prop where
  noName : form kind ≠ .name
  member : form kind = .member →
    (children.Pairwise fun a b => a.stop ≤ b.start) → MemberInTurn children
  call : form kind = .call →
    (children.Pairwise fun a b => a.stop ≤ b.start) →
      InTurnAs .callee .arguments children
  quoted : form kind = .quoted → ∀ first ∈ children.head?, OpensQuote text first
  noInset : form kind ≠ .inset
  noNote : form kind ≠ .note

theorem Suits.plain
    {text : List Char}
    {kind : Kind}
    {children : List Node}
    (plain : form kind = .plain) :
    Suits text kind children where
  noName isName := absurd (plain.symm.trans isName) (by decide)
  member isMember := absurd (plain.symm.trans isMember) (by decide)
  call isCall := absurd (plain.symm.trans isCall) (by decide)
  quoted isQuoted := absurd (plain.symm.trans isQuoted) (by decide)
  noInset isInset := absurd (plain.symm.trans isInset) (by decide)
  noNote isNote := absurd (plain.symm.trans isNote) (by decide)

/-- Some characters may become a leaf of a kind between those in front of them
and those behind them. -/
structure SuitsLeaf (kind : Kind) (front chars back : List Char) : Prop where
  name : form kind = .name → IsSolid chars
  inset : form kind = .inset →
    (∃ before mark, front = before ++ [mark] ∧ endsPart mark = true) ∧
      ∀ c ∈ back.head?, isInset c = false
  noQuoted : form kind ≠ .quoted
  noNote : form kind ≠ .note

/-- Tokens stand anywhere. -/
theorem SuitsLeaf.token
    {kind : Kind}
    {front chars back : List Char}
    (token : (form kind).isToken = true)
    (name : form kind = .name → IsSolid chars) :
    SuitsLeaf kind front chars back where
  name := name
  inset isInset := by
    rw [isInset] at token
    contradiction
  noQuoted isQuoted := by
    rw [isQuoted] at token
    contradiction
  noNote isNote := by
    rw [isNote] at token
    contradiction

theorem SuitsLeaf.plain
    {kind : Kind}
    {front chars back : List Char}
    (plain : form kind = .plain) :
    SuitsLeaf kind front chars back :=
  .token (by rw [plain]; rfl)
    fun isName => absurd (plain.symm.trans isName) (by decide)

/-- The first part is what is called, and of the others only the last one has a
role. -/
theorem Suits.callee
    {text : List Char}
    (callee arguments : Node)
    {others : List Node}
    (noRole : ∀ other ∈ others, other.role = none) :
    Suits text .callExpression
      (callee.withRole .callee :: (others ++ [arguments.withRole .arguments])) where
  noName := by decide
  member isMember := by contradiction
  quoted isQuoted := by contradiction
  noInset := by decide
  noNote := by decide
  call _ inTurn front isFront back isBack isCallee isArguments := by
    rcases List.mem_cons.1 isFront with rfl | isOther
    · rcases List.mem_cons.1 isBack with rfl | isOther
      · cases isArguments
      · exact (List.pairwise_cons.1 inTurn).1 back isOther
    · rcases List.mem_append.1 isOther with isOther | isLast
      · rw [noRole front isOther] at isCallee
        contradiction
      · rw [List.mem_singleton.1 isLast] at isCallee
        cases isCallee

theorem Suits.called
    {text : List Char}
    (callee arguments : Node) :
    Suits text .callExpression
      [callee.withRole .callee, arguments.withRole .arguments] :=
  .callee callee arguments
    (List.forall_mem_nil _ : ∀ other ∈ ([] : List Node), other.role = none)

/-- A literal starts where its quotation mark does. -/
theorem Suits.quoted_of_opens
    {text : List Char}
    {kind : Kind}
    {opening : Node}
    {others : List Node}
    (isQuoted : form kind = .quoted)
    (opens : OpensQuote text opening) :
    Suits text kind (opening :: others) where
  noName isName := absurd (isQuoted.symm.trans isName) (by decide)
  member isMember := absurd (isQuoted.symm.trans isMember) (by decide)
  call isCall := absurd (isQuoted.symm.trans isCall) (by decide)
  quoted _ first isFirst := by
    rw [List.head?_cons, Option.mem_some] at isFirst
    exact isFirst ▸ opens
  noInset isInset := absurd (isQuoted.symm.trans isInset) (by decide)
  noNote isNote := absurd (isQuoted.symm.trans isNote) (by decide)

/-- A name behind what it is a member of. -/
theorem Suits.receiver
    {text : List Char}
    (receiver mark property : Node) :
    Suits text .memberExpression
      [receiver.withRole .receiver, mark, property.withRole .property] where
  noName := by decide
  call isCall := by contradiction
  quoted isQuoted := by contradiction
  noInset := by decide
  noNote := by decide
  member _ inTurn first isFirst second isSecond isReceiver isProperty := by
    simp only [List.pairwise_cons, List.mem_cons, List.not_mem_nil, or_false,
      forall_eq_or_imp, forall_eq] at inTurn isFirst isSecond
    obtain ⟨⟨beforeMark, before⟩, behindMark, -⟩ := inTurn
    rcases isFirst with rfl | rfl | rfl <;> rcases isSecond with rfl | rfl | rfl
    · cases isProperty
    · exact beforeMark
    · exact before
    · cases isProperty
    · exact absurd (isReceiver.symm.trans isProperty) (by decide)
    · exact behindMark
    · cases isReceiver
    · cases isReceiver
    · cases isReceiver

/-- A node that is sound everywhere. -/
def Firm (text : List Char) (node : Node) : Prop :=
  ∀ inner ∈ node.preorder, Sound text inner

theorem Firm.sound
    {text : List Char}
    {node : Node}
    (firm : Firm text node) :
    Sound text node :=
  firm node node.self_mem_preorder

theorem Firm.nested
    {text : List Char}
    {node : Node}
    (firm : Firm text node) :
    node.Nested :=
  fun inner member => (firm inner member).ordered

/-- What a node covers, what its kind says and what it is made of. -/
def Node.shape (node : Node) : Span × Form × List Node :=
  (node.span, form node.kind, node.children)

/-- The shapes of some nodes. -/
def shapes (nodes : List Node) : List (Span × Form × List Node) :=
  nodes.map Node.shape

@[simp] theorem shapes_nil : shapes [] = [] := rfl

@[simp] theorem shapes_cons
    (node : Node)
    (nodes : List Node) :
    shapes (node :: nodes) = node.shape :: shapes nodes := rfl

@[simp] theorem shapes_append
    (front back : List Node) :
    shapes (front ++ back) = shapes front ++ shapes back :=
  List.map_append

@[simp] theorem shape_withRole
    (node : Node)
    (role : Role) :
    (node.withRole role).shape = node.shape := rfl

theorem shape_withKind
    {node : Node}
    {kind : Kind}
    (same : form kind = form node.kind) :
    (node.withKind kind).shape = node.shape := by
  unfold Node.shape
  rw [← same]
  rfl

@[simp] theorem shapes_option_withRole
    (value : Option Node)
    (role : Role) :
    shapes (value.map (·.withRole role)).toList = shapes value.toList := by
  cases value <;> rfl

/-- A node that stands before another one, behind it, or around it. -/
def Clear (note node : Node) : Prop :=
  note.stop ≤ node.start ∨ node.stop ≤ note.start ∨
    (node.start ≤ note.start ∧ note.stop ≤ node.stop)

/-- What holds of two shapes of the same nodes. -/
theorem exists_of_shapes_eq
    {nodes others : List Node}
    (same : shapes nodes = shapes others)
    {node : Node}
    (member : node ∈ others) :
    ∃ other ∈ nodes, other.shape = node.shape := by
  have isShape : node.shape ∈ shapes others := List.mem_map_of_mem member
  rw [← same] at isShape
  exact List.mem_map.1 isShape

theorem start_of_shape
    {node other : Node}
    (same : node.shape = other.shape) :
    node.start = other.start ∧ node.stop = other.stop ∧
      form node.kind = form other.kind ∧ node.children = other.children := by
  obtain ⟨spanEq, restEq⟩ := Prod.mk.inj same
  obtain ⟨formEq, childrenEq⟩ := Prod.mk.inj restEq
  refine ⟨?_, ?_, formEq, childrenEq⟩
  · rw [Node.start, Node.start, spanEq]
  · rw [Node.stop, Node.stop, spanEq]

theorem Sound.of_shape
    {text : List Char}
    {node other : Node}
    (same : node.shape = other.shape)
    (sound : Sound text node) :
    Sound text other := by
  obtain ⟨startEq, stopEq, formEq, childrenEq⟩ := start_of_shape same
  obtain ⟨⟨forward, inside, inTurn⟩, start, stop, name, member, call, quoted,
    inset, noNote⟩ := sound
  rw [startEq, stopEq] at forward inside
  rw [childrenEq] at inside inTurn
  rw [startEq] at start
  rw [stopEq] at stop
  rw [formEq] at name member call quoted inset noNote
  rw [childrenEq] at member call
  unfold OpensQuote at quoted
  unfold IsInset at inset
  rw [startEq, stopEq] at quoted inset
  exact ⟨⟨forward, inside, inTurn⟩, start, stop,
    fun isName => (name isName).congr startEq stopEq, member, call, quoted,
    inset, noNote⟩

/-- Below two nodes of the same shape stand the same nodes. -/
theorem forall_preorder_of_shape
    {node other : Node}
    {holds : Node → Prop}
    (same : node.shape = other.shape)
    (own : holds node → holds other)
    (below : ∀ inner ∈ node.preorder, holds inner) :
    ∀ inner ∈ other.preorder, holds inner := by
  intro inner member
  obtain ⟨-, -, -, childrenEq⟩ := start_of_shape same
  rcases Node.mem_preorder.1 member with rfl | ⟨child, isChild, inChild⟩
  · exact own (below node node.self_mem_preorder)
  · rw [← childrenEq] at isChild
    exact below inner (Node.mem_preorder_of_child isChild inChild)

/-! ## Comments -/

/-- A comment or the line for the shell, by itself: it starts on a character
that is no blank.  A comment of the usual kinds ends in no line ending, and
another one spans no line. -/
structure IsNote (text : List Char) (note : Node) : Prop where
  leaf : note.children = []
  noRole : note.role = none
  ofKind : note.kind = .comment ∨ note.kind = .htmlComment ∨
    note.kind = .hashBang
  place : ∃ front body back, text = front ++ body ++ back ∧
    note.start = byteLength front ∧ note.stop = byteLength (front ++ body) ∧
    (∃ c, body.head? = some c ∧ isBlank c = false) ∧
    (note.kind = .comment → body.getLast? ≠ some '\r') ∧
    (note.kind ≠ .comment → '\n' ∉ body)

/-! ## What is laid -/

/-- Nodes that stand one behind the other in front of the cursor, with the
comments noted on the way between their tokens. -/
structure Trail
    (text front : List Char)
    (nodes : List Node)
    (cursor : Cursor) : Prop where
  stands : text = front ++ cursor.rest
  offset : cursor.offset = byteLength front
  firm : ∀ node ∈ nodes, Firm text node
  inTurn : nodes.Pairwise fun a b => a.stop ≤ b.start
  behind : ∀ node ∈ nodes, node.stop ≤ cursor.offset
  notes : ∀ note ∈ cursor.remarks, IsNote text note ∧ note.stop ≤ cursor.offset
  notesInTurn : cursor.remarks.Pairwise fun later earlier =>
    earlier.stop ≤ later.start
  clear : ∀ node ∈ nodes, ∀ inner ∈ node.preorder, ∀ note ∈ cursor.remarks,
    Clear note inner

/-- Nodes in front of a cursor that stands in no line ending.  A closed text
before the cursor reaches back to some place no further than the start of the
text `before` it. -/
def Laid
    (text before : List Char)
    (closed : Bool)
    (nodes : List Node)
    (cursor : Cursor) : Prop :=
  ∃ within, Trail text (before ++ within) nodes cursor ∧
    Apart (before ++ within) cursor.rest ∧
    (closed = true → IsClosed within)

namespace Trail

variable {text front : List Char} {nodes : List Node} {cursor : Cursor}

/-- The cursor moves over some characters. -/
theorem advance
    (trail : Trail text front nodes cursor)
    (count : Nat) :
    Trail text (front ++ cursor.rest.take count) nodes
      (cursor.advance count) where
  stands := by
    show text = front ++ cursor.rest.take count ++ cursor.rest.drop count
    rw [List.append_assoc, List.take_append_drop]
    exact trail.stands
  offset := by
    show cursor.offset + byteLength _ = _
    rw [byteLength_append, trail.offset]
  firm := trail.firm
  inTurn := trail.inTurn
  behind node member :=
    Nat.le_trans (trail.behind node member) (Nat.le_add_right _ _)
  notes note member := by
    obtain ⟨isNote, before⟩ := trail.notes note member
    exact ⟨isNote, Nat.le_trans before (Nat.le_add_right _ _)⟩
  notesInTurn := trail.notesInTurn
  clear := trail.clear

/-- The places in front of the cursor do not lie behind it. -/
theorem inner_stop
    (trail : Trail text front nodes cursor)
    {node inner : Node}
    (member : node ∈ nodes)
    (below : inner ∈ node.preorder) :
    inner.stop ≤ cursor.offset :=
  Nat.le_trans ((trail.firm node member).nested.inside below).2
    (trail.behind node member)

/-- A comment is noted. -/
theorem pass
    (trail : Trail text front nodes cursor)
    {kind : Kind}
    {count : Nat}
    (isNote : IsNote text
      (.leaf kind ⟨cursor.offset, (cursor.advance count).offset⟩)) :
    Trail text (front ++ cursor.rest.take count) nodes
      (cursor.pass kind count) where
  stands := (trail.advance count).stands
  offset := (trail.advance count).offset
  firm := trail.firm
  inTurn := trail.inTurn
  behind := (trail.advance count).behind
  notes note member := by
    rcases List.mem_cons.1 member with rfl | member
    · exact ⟨isNote, Nat.le_refl _⟩
    · exact (trail.advance count).notes note member
  notesInTurn := by
    refine List.pairwise_cons.2 ⟨fun earlier member => ?_, trail.notesInTurn⟩
    exact (trail.notes earlier member).2
  clear node member inner below note isNoted := by
    rcases List.mem_cons.1 isNoted with rfl | isNoted
    · exact .inr (.inl (trail.inner_stop member below))
    · exact trail.clear node member inner below note isNoted

/-- A leaf is laid where the cursor moves over it. -/
theorem take
    (trail : Trail text front nodes cursor)
    (kind : Kind)
    (count : Nat)
    (start : Apart front cursor.rest)
    (stop : Apart (front ++ cursor.rest.take count) (cursor.rest.drop count))
    (suits : SuitsLeaf kind front (cursor.rest.take count)
      (cursor.rest.drop count)) :
    Trail text (front ++ cursor.rest.take count)
      (nodes ++ [.leaf kind ⟨cursor.offset, (cursor.advance count).offset⟩])
      (cursor.advance count) := by
  have moved := trail.advance count
  have forward : cursor.offset ≤ (cursor.advance count).offset :=
    Nat.le_add_right _ _
  refine ⟨moved.stands, moved.offset, ?_, ?_, ?_, moved.notes,
    moved.notesInTurn, ?_⟩
  · intro node member
    rcases List.mem_append.1 member with old | new
    · exact trail.firm node old
    · rw [List.mem_singleton.1 new]
      intro inner below
      rcases Node.mem_preorder.1 below with rfl | ⟨child, isChild, -⟩
      · refine ⟨⟨forward, ?_, .nil⟩, ?_, ?_, fun isName => ?_, fun _ => ?_,
          fun _ => ?_, fun isQuoted => absurd isQuoted suits.noQuoted,
          fun isInset => ?_, suits.noNote⟩
        · intro child isChild
          contradiction
        · exact ⟨front, cursor.rest, trail.stands, trail.offset, start⟩
        · exact ⟨_, _, moved.stands, moved.offset, stop⟩
        · exact ⟨front, _, _, moved.stands, trail.offset, moved.offset,
            suits.name isName⟩
        · intro receiver isChild
          contradiction
        · intro callee isChild
          contradiction
        · obtain ⟨⟨before, mark, rfl, ends⟩, behind⟩ := suits.inset isInset
          refine ⟨before, mark, cursor.rest.take count, cursor.rest.drop count,
            ?_, trail.offset, ?_, ends, behind⟩
          · rw [List.take_append_drop, ← List.singleton_append, ← List.append_assoc]
            exact trail.stands
          · rw [← List.singleton_append, ← List.append_assoc]
            exact moved.offset
      · contradiction
  · refine List.pairwise_append.2 ⟨trail.inTurn, List.pairwise_singleton _ _, ?_⟩
    intro node member leaf isLeaf
    rw [List.mem_singleton.1 isLeaf]
    exact trail.behind node member
  · intro node member
    rcases List.mem_append.1 member with old | new
    · exact moved.behind node old
    · rw [List.mem_singleton.1 new]
      exact Nat.le_refl _
  · intro node member inner below note isNoted
    rcases List.mem_append.1 member with old | new
    · exact trail.clear node old inner below note isNoted
    · rw [List.mem_singleton.1 new] at below
      rcases Node.mem_preorder.1 below with rfl | ⟨child, isChild, -⟩
      · exact .inl (trail.notes note isNoted).2
      · contradiction

/-- Of the nodes only the shapes matter. -/
theorem congr
    {others : List Node}
    (trail : Trail text front nodes cursor)
    (same : shapes nodes = shapes others) :
    Trail text front others cursor := by
  refine ⟨trail.stands, trail.offset, ?_, ?_, ?_, trail.notes,
    trail.notesInTurn, ?_⟩
  · intro node member
    obtain ⟨other, isOther, shapeEq⟩ := exists_of_shapes_eq same member
    exact forall_preorder_of_shape shapeEq (.of_shape shapeEq)
      (trail.firm other isOther)
  · have onShapes : (shapes nodes).Pairwise fun a b => a.1.stop ≤ b.1.start :=
      List.pairwise_map.2 trail.inTurn
    rw [same] at onShapes
    exact List.pairwise_map.1 onShapes
  · intro node member
    obtain ⟨other, isOther, shapeEq⟩ := exists_of_shapes_eq same member
    rw [← (start_of_shape shapeEq).2.1]
    exact trail.behind other isOther
  · intro node member
    obtain ⟨other, isOther, shapeEq⟩ := exists_of_shapes_eq same member
    refine forall_preorder_of_shape shapeEq (fun own note isNoted => ?_)
      (trail.clear other isOther)
    have clear := own note isNoted
    obtain ⟨startEq, stopEq, -⟩ := start_of_shape shapeEq
    rwa [Clear, startEq, stopEq] at clear

/-- Neighbours become the children of a node that starts with the first of
them and stops behind the last one. -/
theorem gather
    {outer children others : List Node}
    (trail : Trail text front (outer ++ (children ++ others)) cursor)
    (kind : Kind)
    (role : Option Role)
    {stop : Nat}
    (suits : Suits text kind children)
    (stopSharp : IsSharp text stop)
    (nonempty : children ≠ [])
    (around : ∀ child ∈ children, child.stop ≤ stop)
    (before : ∀ other ∈ others, stop ≤ other.start)
    (reached : stop ≤ cursor.offset)
    (noted : ∀ note ∈ cursor.remarks, note.stop ≤ stop ∨ stop ≤ note.start) :
    Trail text front (outer ++ (.mk kind role
      ⟨(children.head nonempty).start, stop⟩ children :: others)) cursor := by
  obtain ⟨outerInTurn, innerInTurn, outerFirst⟩ :=
    List.pairwise_append.1 trail.inTurn
  obtain ⟨childrenInTurn, othersInTurn, -⟩ := List.pairwise_append.1 innerInTurn
  have isNode {node : Node} (member : node ∈ children) :
      node ∈ outer ++ (children ++ others) := by simp [member]
  have first := List.head_mem nonempty
  have firmFirst := trail.firm _ (isNode first)
  have startLe : ∀ child ∈ children,
      (children.head nonempty).start ≤ child.start := by
    intro child member
    cases children with
    | nil => contradiction
    | cons head tail =>
      rcases List.mem_cons.1 member with rfl | member
      · exact Nat.le_refl _
      · have headForward := firmFirst.sound.ordered.forward
        have headBefore := (List.pairwise_cons.1 childrenInTurn).1 child member
        rw [List.head_cons] at headForward ⊢
        omega
  have firstForward := firmFirst.sound.ordered.forward
  have firstStop := around _ first
  refine ⟨trail.stands, trail.offset, ?_, ?_, ?_, trail.notes,
    trail.notesInTurn, ?_⟩
  · intro node member
    rw [List.mem_append, List.mem_cons] at member
    rcases member with isOuter | rfl | isOther
    · exact trail.firm node (List.mem_append_left _ isOuter)
    · intro inner below
      rcases Node.mem_preorder.1 below with rfl | ⟨child, isChild, inChild⟩
      · refine ⟨⟨Nat.le_trans firstForward firstStop, ?_, childrenInTurn⟩,
          firmFirst.sound.start, stopSharp,
          fun isName => absurd isName suits.noName,
          fun isMember => suits.member isMember childrenInTurn,
          fun isCall => suits.call isCall childrenInTurn,
          fun isQuoted => (suits.quoted isQuoted (children.head nonempty)
            (List.head?_eq_some_head nonempty)).grow rfl firstStop,
          fun isInset => absurd isInset suits.noInset, suits.noNote⟩
        exact fun child isChild => ⟨startLe child isChild, around child isChild⟩
      · exact trail.firm child (isNode isChild) inner inChild
    · exact trail.firm node (by simp [isOther])
  · refine List.pairwise_append.2 ⟨outerInTurn,
      List.pairwise_cons.2 ⟨before, othersInTurn⟩, ?_⟩
    intro node isOuter other member
    rcases List.mem_cons.1 member with rfl | isOther
    · have firstBehind :=
        outerFirst node isOuter _ (List.mem_append_left _ first)
      exact firstBehind
    · exact outerFirst node isOuter other (List.mem_append_right _ isOther)
  · intro node member
    rw [List.mem_append, List.mem_cons] at member
    rcases member with isOuter | rfl | isOther
    · exact trail.behind node (List.mem_append_left _ isOuter)
    · exact reached
    · exact trail.behind node (by simp [isOther])
  · intro node member
    rw [List.mem_append, List.mem_cons] at member
    rcases member with isOuter | rfl | isOther
    · exact trail.clear node (List.mem_append_left _ isOuter)
    · intro inner below note isNoted
      rcases Node.mem_preorder.1 below with rfl | ⟨child, isChild, inChild⟩
      · -- a note that is clear of the first child and of the stop is clear of
        -- all that lies between
        have firstClear := trail.clear _ (isNode first) _
          (Node.self_mem_preorder _) note isNoted
        have stopClear := noted note isNoted
        show note.stop ≤ (children.head nonempty).start ∨ stop ≤ note.start ∨
          ((children.head nonempty).start ≤ note.start ∧ note.stop ≤ stop)
        rcases firstClear with front | behind | inside <;> omega
      · exact trail.clear child (isNode isChild) inner inChild note isNoted
    · exact trail.clear node (by simp [isOther])

end Trail

/-! ## Moving over blanks and comments -/

theorem exists_head_of_commentLength?
    {text : List Char}
    {length : Nat}
    (isComment : commentLength? text = some length) :
    ∃ c, (text.take length).head? = some c ∧ isBlank c = false := by
  obtain ⟨positive, -⟩ := pos_of_commentLength? isComment
  rw [List.head?_take, if_neg (by omega)]
  unfold commentLength? at isComment
  cases isLine : lineCommentLength? text with
  | some line =>
    unfold lineCommentLength? at isLine
    split at isLine
    · exact ⟨'/', rfl, by decide⟩
    · contradiction
  | none =>
    rw [isLine] at isComment
    have isBlock : blockCommentLength? text = some length := isComment
    unfold blockCommentLength? at isBlock
    split at isBlock
    · exact ⟨'/', rfl, by decide⟩
    · contradiction

/-- A comment in the manner of HTML starts with a mark and spans no line. -/
theorem html_line
    {text : List Char}
    {length : Nat}
    (isComment : htmlCommentLength? text = some length) :
    (∃ c, (text.take length).head? = some c ∧ isBlank c = false) ∧
      '\n' ∉ text.take length := by
  have noFeed (body : List Char) :
      '\n' ∉ body.takeWhile fun c => !isLineEnd c := by
    intro member
    have isOther := List.mem_takeWhile_imp member
    contradiction
  have taken (body : List Char) := Lexeme.take_run (fun c => !isLineEnd c) body
  unfold htmlCommentLength? at isComment
  split at isComment
  · rename_i body
    cases isComment
    rw [Nat.add_comm]
    refine ⟨⟨'<', rfl, by decide⟩, ?_⟩
    have same := taken body
    unfold Lexeme.run at same
    simp only [List.take_succ_cons, same, List.mem_cons, not_or]
    exact ⟨by decide, by decide, by decide, by decide, noFeed body⟩
  · rename_i body
    cases isComment
    rw [Nat.add_comm]
    refine ⟨⟨'-', rfl, by decide⟩, ?_⟩
    have same := taken body
    unfold Lexeme.run at same
    simp only [List.take_succ_cons, same, List.mem_cons, not_or]
    exact ⟨by decide, by decide, by decide, noFeed body⟩
  · contradiction

namespace Trail

variable {text front : List Char} {nodes : List Node} {cursor : Cursor}

theorem isNote_comment
    (trail : Trail text front nodes cursor)
    {length : Nat}
    (isComment : commentLength? cursor.rest = some length) :
    IsNote text
      (.leaf .comment ⟨cursor.offset, (cursor.advance length).offset⟩) where
  leaf := rfl
  noRole := rfl
  ofKind := .inl rfl
  place := by
    have moved := trail.advance length
    refine ⟨front, cursor.rest.take length, cursor.rest.drop length,
      moved.stands, trail.offset, moved.offset,
      exists_head_of_commentLength? isComment, fun _ => ?_, by simp [Node.leaf]⟩
    exact (isClosed_comment isComment).getLast?_ne

theorem isNote_html
    (trail : Trail text front nodes cursor)
    {length : Nat}
    (isComment : htmlCommentLength? cursor.rest = some length) :
    IsNote text
      (.leaf .htmlComment ⟨cursor.offset, (cursor.advance length).offset⟩) where
  leaf := rfl
  noRole := rfl
  ofKind := .inr (.inl rfl)
  place := by
    have moved := trail.advance length
    obtain ⟨startsSolid, oneLine⟩ := html_line isComment
    exact ⟨front, cursor.rest.take length, cursor.rest.drop length,
      moved.stands, trail.offset, moved.offset, startsSolid,
      by simp [Node.leaf], fun _ => oneLine⟩

/-- Blanks and comments are passed over with the comments noted. -/
theorem skipUpTo
    (trail : Trail text front nodes cursor)
    (html : Bool)
    (count : Nat) :
    ∃ passed, Trail text (front ++ passed) nodes (cursor.skipUpTo html count) := by
  induction count generalizing front cursor with
  | zero => exact ⟨_, trail.advance _⟩
  | succ count countHypothesis =>
    have blanks : Trail text _ nodes cursor.skipBlanks := trail.advance _
    simp only [Cursor.skipUpTo]
    split
    · rename_i length isComment
      have passed := blanks.pass (blanks.isNote_comment isComment)
      obtain ⟨more, rest⟩ := countHypothesis passed
      exact ⟨_, by rwa [List.append_assoc, List.append_assoc] at rest⟩
    · split
      · rename_i length isHtml
        have isComment : htmlCommentLength? cursor.skipBlanks.rest =
            some length := by
          split at isHtml
          · exact isHtml
          · contradiction
        have passed := blanks.pass (blanks.isNote_html isComment)
        obtain ⟨more, rest⟩ := countHypothesis passed
        exact ⟨_, by rwa [List.append_assoc, List.append_assoc] at rest⟩
      · exact ⟨_, blanks⟩

end Trail

namespace Laid

variable
  {text before : List Char}
  {closed : Bool}
  {nodes : List Node}
  {cursor : Cursor}

theorem weaken (laid : Laid text before closed nodes cursor) :
    Laid text before false nodes cursor := by
  obtain ⟨within, trail, apart, -⟩ := laid
  exact ⟨within, trail, apart, fun impossible => by contradiction⟩

theorem congr
    {others : List Node}
    (laid : Laid text before closed nodes cursor)
    (same : shapes nodes = shapes others) :
    Laid text before closed others cursor := by
  obtain ⟨within, trail, rest⟩ := laid
  exact ⟨within, trail.congr same, rest⟩

/-- Behind blanks and comments no line ending is split. -/
theorem skip
    (laid : Laid text before closed nodes cursor)
    (html : Bool) :
    Laid text before false nodes (cursor.skip html) := by
  obtain ⟨within, trail, -, -⟩ := laid
  obtain ⟨passed, trail⟩ := trail.skipUpTo html cursor.rest.length
  rw [List.append_assoc] at trail
  refine ⟨within ++ passed, trail, ?_, fun impossible => by contradiction⟩
  exact .of_solid _ (cursor.nothing_behind_skip html).1

/-- A token closes what stands in front of the cursor. -/
theorem take_closed
    (laid : Laid text before closed nodes cursor)
    (kind : Kind)
    {count : Nat}
    (isClosed : IsClosed (cursor.rest.take count))
    (suits : ∀ front,
      SuitsLeaf kind front (cursor.rest.take count) (cursor.rest.drop count)) :
    Laid text before true
      (nodes ++ [.leaf kind ⟨cursor.offset, (cursor.advance count).offset⟩])
      (cursor.advance count) := by
  obtain ⟨within, trail, apart, -⟩ := laid
  have taken : IsClosed (before ++ within ++ cursor.rest.take count) :=
    isClosed.append_left _
  have stop : Apart (before ++ within ++ cursor.rest.take count)
      (cursor.rest.drop count) := .of_getLast? taken.getLast?_ne
  have next := trail.take kind count apart stop (suits _)
  rw [List.append_assoc] at next stop
  exact ⟨_, next, stop, fun _ => isClosed.append_left _⟩

/-- A run of characters is laid if it ends in no line ending. -/
theorem take
    (laid : Laid text before closed nodes cursor)
    (kind : Kind)
    {count : Nat}
    (suits : ∀ front, text = front ++ cursor.rest →
      SuitsLeaf kind front (cursor.rest.take count) (cursor.rest.drop count))
    (nonempty : cursor.rest.take count ≠ [])
    (apart : Apart (cursor.rest.take count) (cursor.rest.drop count)) :
    Laid text before false
      (nodes ++ [.leaf kind ⟨cursor.offset, (cursor.advance count).offset⟩])
      (cursor.advance count) := by
  obtain ⟨within, trail, start, -⟩ := laid
  have stop : Apart (before ++ within ++ cursor.rest.take count)
      (cursor.rest.drop count) := by
    unfold Apart at apart ⊢
    rwa [List.getLast?_append_of_ne_nil _ nonempty]
  have next := trail.take kind count start stop (suits _ trail.stands)
  rw [List.append_assoc] at next stop
  exact ⟨_, next, stop, fun impossible => by contradiction⟩

/-- The place where a statement can end behind comments is as closed as the
place where it is looked for. -/
theorem endUpTo
    {ends : List Char → Bool}
    {count : Nat}
    {next : Cursor}
    (laid : Laid text before closed nodes cursor)
    (found : cursor.endUpTo ends count = some next) :
    Laid text before closed nodes next := by
  induction count generalizing cursor with
  | zero => contradiction
  | succ count countHypothesis =>
    simp only [Cursor.endUpTo] at found
    split at found
    · rw [← Option.some.inj found]
      exact laid
    · split at found
      · rename_i length isComment
        obtain ⟨within, trail, -, -⟩ := laid
        have blanks : Trail text _ nodes cursor.skipBlanks := trail.advance _
        have passed := blanks.pass (blanks.isNote_comment isComment)
        have isClosed := isClosed_comment isComment
        have taken := isClosed.append_left
          (before ++ within ++
            cursor.rest.take (cursor.rest.takeWhile isBlank).length)
        have apart : Apart _ (cursor.skipBlanks.pass .comment length).rest :=
          .of_getLast? taken.getLast?_ne
        rw [List.append_assoc, List.append_assoc] at passed apart
        refine countHypothesis ⟨_, passed, apart, fun _ => ?_⟩ found
        exact (isClosed.append_left _).append_left _
      · contradiction

/-- The nodes read last become the children of a node that ends at the
cursor. -/
theorem build
    {outer children : List Node}
    (laid : Laid text before closed (outer ++ children) cursor)
    (kind : Kind)
    (suits : Suits text kind children)
    (nonempty : children ≠ []) :
    Laid text before closed (outer ++ [.mk kind none
      ⟨(children.head nonempty).start, cursor.offset⟩ children]) cursor := by
  obtain ⟨within, trail, apart, ends⟩ := laid
  have stopSharp : IsSharp text cursor.offset :=
    ⟨_, _, trail.stands, trail.offset, apart⟩
  refine ⟨within, ?_, apart, ends⟩
  rw [← List.append_nil children] at trail
  refine trail.gather kind none suits stopSharp nonempty ?_ (by simp) (Nat.le_refl _) ?_
  · intro child member
    exact trail.behind child (by simp [member])
  · intro note isNoted
    exact .inl (trail.notes note isNoted).2

/-- Three neighbours become the children of a node that ends with the last of
them. -/
theorem join
    {outer others : List Node}
    {first second third : Node}
    (laid : Laid text before closed
      (outer ++ ([first, second, third] ++ others)) cursor)
    (kind : Kind)
    (plain : form kind = .plain) :
    Laid text before closed
      (outer ++ (.mk kind none ⟨first.start, third.stop⟩
        [first, second, third] :: others)) cursor := by
  obtain ⟨within, trail, apart, ends⟩ := laid
  have isNode {node : Node} (member : node ∈ [first, second, third]) :
      node ∈ outer ++ ([first, second, third] ++ others) := by
    rw [List.mem_append, List.mem_append]
    exact .inr (.inl member)
  have isThird : third ∈ [first, second, third] := by simp
  have thirdFirm := trail.firm third (isNode isThird)
  obtain ⟨-, inner, -⟩ := List.pairwise_append.1 trail.inTurn
  obtain ⟨children, -, behind⟩ := List.pairwise_append.1 inner
  have thirdForward := thirdFirm.sound.ordered.forward
  refine ⟨within, ?_, apart, ends⟩
  refine trail.gather kind none (.plain plain) thirdFirm.sound.stop
    (List.cons_ne_nil _ _) ?_
    (behind third isThird) (trail.behind third (isNode isThird)) ?_
  · intro child member
    simp only [List.pairwise_cons, List.mem_cons, List.not_mem_nil, or_false]
      at children member
    obtain ⟨firstBefore, secondBefore, -⟩ := children
    rcases member with rfl | rfl | rfl
    · exact Nat.le_trans (firstBefore third (.inr rfl)) thirdForward
    · exact Nat.le_trans (secondBefore third rfl) thirdForward
    · exact Nat.le_refl _
  · intro note isNoted
    have clear := trail.clear third (isNode isThird) third
      third.self_mem_preorder note isNoted
    rcases clear with front | after | inside
    · exact .inl (Nat.le_trans front thirdForward)
    · exact .inr after
    · exact .inl inside.2

end Laid

end Syntax
end StoryMigration
