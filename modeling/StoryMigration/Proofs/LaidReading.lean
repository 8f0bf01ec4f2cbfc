import StoryMigration.Proofs.NodeLayout

/-!
# Readings that lay nodes

A reading is described by what it takes and what it gives: from nodes laid up
to the cursor it leads to nodes laid up to where it stops, with its own nodes
in the place of those it was given to build with.  The rules of this module
put such facts together in the way readings are put together.
-/

namespace StoryMigration
namespace Syntax

/-! ## The nodes of a value -/

/-- Values that nodes are kept in. -/
class HasNodes (α : Type) where
  nodes : α → List Node

open HasNodes

instance : HasNodes Node := ⟨fun node => [node]⟩
instance : HasNodes Unit := ⟨fun _ => []⟩
instance : HasNodes Bool := ⟨fun _ => []⟩
instance : HasNodes Nat := ⟨fun _ => []⟩
instance : HasNodes Char := ⟨fun _ => []⟩
instance : HasNodes String := ⟨fun _ => []⟩
instance : HasNodes Kind := ⟨fun _ => []⟩

instance {α : Type} [HasNodes α] : HasNodes (List α) := ⟨(·.flatMap nodes)⟩

instance {α : Type} [HasNodes α] : HasNodes (Option α) :=
  ⟨fun value => (value.map nodes).getD []⟩

instance {α β : Type} [HasNodes α] [HasNodes β] : HasNodes (α × β) :=
  ⟨fun value => nodes value.1 ++ nodes value.2⟩

@[simp] theorem nodes_node (node : Node) : nodes node = [node] := rfl
@[simp] theorem nodes_unit (value : Unit) : nodes value = [] := rfl
@[simp] theorem nodes_bool (value : Bool) : nodes value = [] := rfl
@[simp] theorem nodes_nat (value : Nat) : nodes value = [] := rfl
@[simp] theorem nodes_char (value : Char) : nodes value = [] := rfl
@[simp] theorem nodes_string (value : String) : nodes value = [] := rfl
@[simp] theorem nodes_kind (value : Kind) : nodes value = [] := rfl

@[simp] theorem nodes_pair
    {α β : Type}
    [HasNodes α]
    [HasNodes β]
    (first : α)
    (second : β) :
    nodes (first, second) = nodes first ++ nodes second := rfl

@[simp] theorem nodes_none
    {α : Type}
    [HasNodes α] :
    nodes (none : Option α) = [] := rfl

@[simp] theorem nodes_some
    {α : Type}
    [HasNodes α]
    (value : α) :
    nodes (some value) = nodes value := rfl

@[simp] theorem nodes_nil
    {α : Type}
    [HasNodes α] :
    nodes ([] : List α) = [] := rfl

@[simp] theorem nodes_cons
    {α : Type}
    [HasNodes α]
    (first : α)
    (rest : List α) :
    nodes (first :: rest) = nodes first ++ nodes rest := rfl

@[simp] theorem nodes_append
    {α : Type}
    [HasNodes α]
    (front back : List α) :
    nodes (front ++ back) = nodes front ++ nodes back :=
  List.flatMap_append

@[simp] theorem nodes_list (list : List Node) : nodes list = list :=
  List.flatMap_singleton' list

@[simp] theorem nodes_lists (lists : List (List Node)) :
    nodes lists = lists.flatten := by
  show lists.flatMap nodes = lists.flatten
  rw [List.flatMap_def, List.map_congr_left fun list _ => nodes_list list,
    List.map_id']

@[simp] theorem nodes_option (value : Option Node) :
    nodes value = value.toList := by
  cases value <;> rfl

@[simp] theorem nodes_options (value : Option (List Node)) :
    nodes value = value.getD [] := by
  cases value with
  | none => rfl
  | some list => exact nodes_list list

@[simp] theorem nodes_word (value : Option String) : nodes value = [] := by
  cases value <;> rfl

@[simp] theorem nodes_text (text : List Char) : nodes text = [] := by
  induction text with
  | nil => rfl
  | cons c text textHypothesis => exact textHypothesis

namespace Reading

variable {α β : Type} [HasNodes α] [HasNodes β] {text before : List Char}

/-! ## What a reading lays -/

/-- From nodes laid up to the cursor, with some nodes at their end, a reading
leads to nodes laid up to where it stops, with the nodes of its value instead
of those. -/
structure Lays
    (text before : List Char)
    (closed : Bool)
    (given : List Node)
    (reading : Reading α)
    (closes : Bool) : Prop where
  keeps : ∀ {outer : List Node} {cursor next : Cursor} {value : α},
    Laid text before closed (outer ++ given) cursor →
      reading cursor = some (value, next) →
        Laid text before closes (outer ++ nodes value) next

/-- A reading that lays its nodes and stops behind a token or a comment. -/
abbrev LaysSome (text before : List Char) (reading : Reading α) : Prop :=
  Lays text before false [] reading true

/-- A reading that lays its nodes, perhaps none, and stops behind a token or a
comment if it starts behind one. -/
def LaysAny (text before : List Char) (reading : Reading α) : Prop :=
  ∀ closed, Lays text before closed [] reading closed

namespace Lays

variable
  {closed middle closes : Bool}
  {given kept : List Node}
  {reading : Reading α}
  {next : α → Reading β}

/-- Less may be known of the place where the reading starts. -/
theorem ofFalse
    (lays : Lays text before false given reading closes) :
    Lays text before closed given reading closes where
  keeps laid read := lays.keeps laid.weaken read

/-- Less may be asked of the place where the reading stops. -/
theorem toFalse
    (lays : Lays text before closed given reading closes) :
    Lays text before closed given reading false where
  keeps laid read := (lays.keeps laid read).weaken

theorem toAny (reads : LaysSome text before reading) :
    LaysAny text before reading := by
  intro closed
  cases closed with
  | false => exact reads.toFalse
  | true => exact reads.ofFalse

/-- Of the nodes given only the shapes matter. -/
theorem ofShapes
    {others : List Node}
    (lays : Lays text before closed others reading closes)
    (same : shapes given = shapes others) :
    Lays text before closed given reading closes where
  keeps {outer _ _ _} laid read :=
    lays.keeps (laid.congr (by rw [shapes_append, shapes_append, same])) read

/-- A reading that is given the last nodes, and one that is given what it makes
of them. -/
theorem bind
    {used : List Node}
    (first : Lays text before closed used reading middle)
    (same : shapes given = shapes (kept ++ used))
    (rest : ∀ value,
      Lays text before middle (kept ++ nodes value) (next value) closes) :
    Lays text before closed given (reading >>= next) closes where
  keeps {outer cursor _ _} laid read := by
    rw [bind_apply] at read
    obtain ⟨⟨value, stop⟩, readFirst, readRest⟩ :=
      Option.bind_eq_some_iff.1 read
    have split : Laid text before closed (outer ++ kept ++ used) cursor := by
      refine laid.congr ?_
      rw [shapes_append, same, shapes_append, shapes_append, shapes_append,
        List.append_assoc]
    have laidFirst := first.keeps split readFirst
    rw [List.append_assoc] at laidFirst
    exact (rest value).keeps laidFirst readRest

/-- A reading of its own behind the nodes given. -/
theorem andThen
    (first : Lays text before closed [] reading middle)
    (rest : ∀ value,
      Lays text before middle (given ++ nodes value) (next value) closes) :
    Lays text before closed given (reading >>= next) closes :=
  first.bind (by rw [List.append_nil]) rest

/-- Something that is there in any case. -/
theorem read
    (first : LaysSome text before reading)
    (rest : ∀ value,
      Lays text before true (given ++ nodes value) (next value) closes) :
    Lays text before closed given (reading >>= next) closes :=
  first.ofFalse.andThen rest

/-- What follows may rely on what else is known of the value. -/
theorem read_where
    {promise : α → Cursor → Prop}
    (first : Lays text before closed [] reading middle)
    (yields : Yields reading promise)
    (rest : ∀ value stop, promise value stop →
      Lays text before middle (given ++ nodes value) (next value) closes) :
    Lays text before closed given (reading >>= next) closes where
  keeps {outer _ _ _} laid read := by
    rw [bind_apply] at read
    obtain ⟨⟨value, stop⟩, readFirst, readRest⟩ :=
      Option.bind_eq_some_iff.1 read
    rw [← List.append_nil (outer ++ given)] at laid
    have laidFirst := first.keeps laid readFirst
    rw [List.append_assoc] at laidFirst
    exact (rest value stop (yields.keeps readFirst)).keeps laidFirst readRest

theorem orElse
    {first second : Reading α}
    (firstLays : Lays text before closed given first closes)
    (secondLays : Lays text before closed given second closes) :
    Lays text before closed given (first <|> second) closes where
  keeps {outer cursor _ _} laid read := by
    rw [orElse_apply] at read
    cases firstRead : first cursor with
    | none =>
      rw [firstRead] at read
      exact secondLays.keeps laid read
    | some result =>
      rw [firstRead] at read
      cases read
      exact firstLays.keeps laid firstRead

theorem reject : Lays text before closed given (reject : Reading α) closes where
  keeps _ read := by contradiction

omit [HasNodes α] in
theorem reject_bind :
    Lays text before closed given (Reading.reject >>= next) closes where
  keeps _ read := by contradiction

/-- Nodes are given back. -/
theorem pure
    {value : α}
    (same : shapes given = shapes (nodes value)) :
    Lays text before closed given (pure value : Reading α) closed where
  keeps {outer _ _ _} laid read := by
    cases read
    exact laid.congr (by rw [shapes_append, shapes_append, same])

omit [HasNodes α] in
/-- A value that is given back at once. -/
theorem pure_bind
    {value : α}
    (rest : Lays text before closed given (next value) closes) :
    Lays text before closed given (Pure.pure value >>= next) closes :=
  ⟨rest.keeps⟩

/-- Nodes become the children of one that they suit. -/
theorem gather
    {kind : Kind}
    {children : List Node}
    (whole : shapes given = shapes children ∧ children ≠ [])
    (suits : Suits text kind children) :
    Lays text before closed given (build kind children) closed where
  keeps {outer cursor _ _} laid read := by
    cases read
    obtain ⟨same, nonempty⟩ := whole
    have laid : Laid text before closed (outer ++ children) cursor :=
      laid.congr (by rw [shapes_append, shapes_append, same])
    cases children with
    | nil => contradiction
    | cons first rest => exact laid.build kind suits nonempty

/-- Nodes become the children of one. -/
theorem build
    {kind : Kind}
    {children : List Node}
    (whole : shapes given = shapes children ∧ children ≠ [])
    (plain : form kind = .plain) :
    Lays text before closed given (Reading.build kind children) closed :=
  .gather whole (.plain plain)

/-- A name becomes that of a member of what stands in front of it. -/
theorem member (receiver mark property : Node) :
    Lays text before closed [receiver, mark, property]
      (Reading.build .memberExpression
        [receiver.withRole .receiver, mark, property.withRole .property])
      closed :=
  .gather (by simp) (.receiver receiver mark property)

/-- The last of the nodes become the children of one that they suit, and more
follows. -/
theorem gather_bind
    {kind : Kind}
    {children : List Node}
    {next : Node → Reading α}
    (kept : List Node)
    (whole : shapes given = shapes (kept ++ children) ∧ children ≠ [])
    (suits : Suits text kind children)
    (rest : ∀ node, Lays text before closed (kept ++ [node]) (next node) closes) :
    Lays text before closed given (Reading.build kind children >>= next)
      closes :=
  (gather ⟨rfl, whole.2⟩ suits).bind whole.1 rest

/-- The last of the nodes become the children of one, and more follows. -/
theorem build_bind
    {kind : Kind}
    {children : List Node}
    {next : Node → Reading α}
    (kept : List Node)
    (whole : shapes given = shapes (kept ++ children) ∧ children ≠ [])
    (plain : form kind = .plain)
    (rest : ∀ node, Lays text before closed (kept ++ [node]) (next node) closes) :
    Lays text before closed given (Reading.build kind children >>= next)
      closes :=
  gather_bind kept whole (.plain plain) rest

theorem map
    {change : α → β}
    (lays : Lays text before closed given reading closes)
    (same : ∀ value, shapes (nodes (change value)) = shapes (nodes value)) :
    Lays text before closed given (change <$> reading) closes where
  keeps {outer _ _ _} laid read := by
    rw [map_apply] at read
    obtain ⟨⟨value, stop⟩, readValue, result⟩ := Option.map_eq_some_iff.1 read
    cases result
    exact (lays.keeps laid readValue).congr
      (by rw [shapes_append, shapes_append, same])

/-- A node may be given another kind if this makes no name of it. -/
theorem retag
    {reading : Reading Node}
    {kind other : Kind}
    (lays : Lays text before closed given reading closes)
    (yields : Yields reading fun node _ => node.kind = kind)
    (same : form other = form kind) :
    Lays text before closed given ((·.withKind other) <$> reading) closes where
  keeps {outer _ _ _} laid read := by
    rw [map_apply] at read
    obtain ⟨⟨value, stop⟩, readValue, result⟩ := Option.map_eq_some_iff.1 read
    cases result
    have sameName : form other = form value.kind := by
      rw [same, yields.keeps readValue]
    refine (lays.keeps laid readValue).congr ?_
    simp [shape_withKind sameName]

theorem get_bind
    {next : Cursor → Reading α}
    (rest : ∀ cursor, Lays text before closed given (next cursor) closes) :
    Lays text before closed given (get >>= next) closes where
  keeps laid read := (rest _).keeps laid read

/-- Behind blanks and comments nothing is known to be closed. -/
theorem gap
    {html : Bool}
    {next : Unit → Reading α}
    (rest : Lays text before false given (next ()) closes) :
    Lays text before closed given (gap html >>= next) closes where
  keeps laid read := rest.keeps (laid.skip html) read

/-- What leaves the cursor where it is can stand anywhere. -/
theorem stay
    {γ : Type}
    {look : Reading γ}
    {next : γ → Reading α}
    (stays : ∀ {cursor stop : Cursor} {value : γ},
      look cursor = some (value, stop) → stop = cursor)
    (rest : ∀ value, Lays text before closed given (next value) closes) :
    Lays text before closed given (look >>= next) closes where
  keeps laid read := by
    rw [bind_apply] at read
    obtain ⟨⟨value, stop⟩, looked, readRest⟩ := Option.bind_eq_some_iff.1 read
    rw [stays looked] at readRest
    exact (rest value).keeps laid readRest

section Looking

variable {γ : Type} {look : Reading γ}

theorem ahead
    {next : Bool → Reading α}
    (rest : ∀ isAhead, Lays text before closed given (next isAhead) closes) :
    Lays text before closed given (ahead look >>= next) closes :=
  stay (fun read => by cases read; rfl) rest

/-- What follows a condition may rely on it. -/
theorem require_of
    {condition : Bool}
    {next : Unit → Reading α}
    (rest : condition = true →
      Lays text before closed given (next ()) closes) :
    Lays text before closed given (require condition >>= next) closes where
  keeps laid read := by
    cases condition with
    | false => contradiction
    | true => exact (rest rfl).keeps laid read

theorem require
    {condition : Bool}
    {next : Unit → Reading α}
    (rest : Lays text before closed given (next ()) closes) :
    Lays text before closed given (require condition >>= next) closes :=
  require_of fun _ => rest

theorem nextWord
    {next : Option String → Reading α}
    (rest : ∀ word, Lays text before closed given (next word) closes) :
    Lays text before closed given (nextWord >>= next) closes :=
  stay (fun read => by cases read; rfl) rest

theorem upcoming
    {next : List Char → Reading α}
    (rest : ∀ text', Lays text before closed given (next text') closes) :
    Lays text before closed given (upcoming >>= next) closes :=
  stay (fun read => by cases read; rfl) rest

end Looking

/-! ## Repetitions -/

/-- A step that may be missing and uses the nodes given if it is there, with
what else is known of its value. -/
theorem maybe_bind_where
    {promise : α → Cursor → Prop}
    {next : Option α → Reading β}
    (first : Lays text before closed given reading middle)
    (yields : Yields reading promise)
    (rest : ∀ value stop, promise value stop →
      Lays text before middle (nodes value) (next (some value)) closes)
    (without : Lays text before closed given (next none) closes) :
    Lays text before closed given (maybe reading >>= next) closes where
  keeps {outer cursor _ _} laid read := by
    rw [bind_apply] at read
    cases readFirst : reading cursor with
    | none =>
      rw [maybe_of_none readFirst] at read
      exact without.keeps laid read
    | some result =>
      obtain ⟨value, stop⟩ := result
      rw [maybe_of_some readFirst] at read
      exact (rest value stop (yields.keeps readFirst)).keeps
        (first.keeps laid readFirst) read

/-- A step that may be missing and uses the nodes given if it is there. -/
theorem maybe_bind
    {next : Option α → Reading β}
    (first : Lays text before closed given reading middle)
    (rest : ∀ value,
      Lays text before middle (nodes value) (next (some value)) closes)
    (without : Lays text before closed given (next none) closes) :
    Lays text before closed given (maybe reading >>= next) closes :=
  first.maybe_bind_where ⟨fun _ => trivial⟩
    (fun value _ _ => rest value) without

theorem many
    (lays : Lays text before closed [] reading closed) :
    Lays text before closed [] (many reading) closed where
  keeps {outer _ _ _} laid read := by
    have each := readsEach_of_many read
    clear read
    rw [List.append_nil] at laid
    induction each generalizing outer with
    | nil => exact laid.congr (by simp [nodes])
    | cons readFirst rest restHypothesis =>
      rw [← List.append_nil outer] at laid
      have laidFirst := lays.keeps laid readFirst
      have laidRest := restHypothesis laidFirst
      rw [List.append_assoc] at laidRest
      exact laidRest

/-- A value grows by one step after another. -/
theorem grow
    {step : α → Reading α}
    {value : α}
    (steps : ∀ value, Lays text before closed (nodes value) (step value) closed)
    (same : shapes given = shapes (nodes value)) :
    Lays text before closed given (grow step value) closed := by
  have upTo
      (count : Nat)
      (value : α) :
      Lays text before closed (nodes value) (growUpTo step count value)
        closed := by
    induction count generalizing value with
    | zero => exact pure rfl
    | succ count countHypothesis =>
      refine orElse ((steps value).bind (by rw [List.nil_append]) ?_) (pure rfl)
      exact fun next => countHypothesis next
  exact (get_bind fun _ => upTo _ value).ofShapes same

end Lays

/-- Something that may be missing. -/
theorem LaysAny.pass
    {closed closes : Bool}
    {given : List Node}
    {reading : Reading α}
    {next : α → Reading β}
    (first : LaysAny text before reading)
    (rest : ∀ value,
      Lays text before closed (given ++ nodes value) (next value) closes) :
    Lays text before closed given (reading >>= next) closes :=
  (first closed).andThen rest


/-! ## Tokens -/

/-- Given characters that are read directly at the cursor stand there. -/
theorem of_immediately
    {mark : String}
    {kind : Kind}
    {cursor next : Cursor}
    {value : Node}
    (read : immediately mark kind cursor = some (value, next)) :
    cursor.rest = mark.toList ++ next.rest ∧ value.start = cursor.offset ∧
      value.stop = cursor.offset + byteLength mark.toList := by
  rw [immediately, get_bind_apply] at read
  cases found : after? mark.toList cursor.rest with
  | none =>
    rw [found] at read
    contradiction
  | some rest =>
    rw [found] at read
    cases read
    have standsThere := Lexeme.eq_append_of_after? found
    refine ⟨?_, rfl, ?_⟩
    · show _ = mark.toList ++ cursor.rest.drop mark.length
      rw [standsThere, ← String.length_toList, List.drop_left]
    · show cursor.offset + byteLength (cursor.rest.take mark.length) = _
      rw [standsThere, ← String.length_toList, List.take_left]

/-- From the cursor a reading takes a leaf of characters that closes the text. -/
structure TokenAt (cursor : Cursor) (reading : Reading Node) : Prop where
  takes : ∀ {next value}, reading cursor = some (value, next) →
    ∃ kind count, next = cursor.advance count ∧
      value = .leaf kind ⟨cursor.offset, next.offset⟩ ∧
      IsClosed (cursor.rest.take count) ∧
      ∀ front,
        SuitsLeaf kind front (cursor.rest.take count) (cursor.rest.drop count)

/-- Characters that are no name. -/
theorem TokenAt.take
    {cursor : Cursor}
    {kind : Kind}
    {count : Nat}
    (isClosed : IsClosed (cursor.rest.take count))
    (plain : form kind = .plain) :
    TokenAt cursor (take kind count) where
  takes read := by
    cases read
    exact ⟨kind, count, rfl, rfl, isClosed, fun _ => .plain plain⟩

/-- Characters none of which is a blank. -/
theorem TokenAt.takeSolid
    {cursor : Cursor}
    {kind : Kind}
    {count : Nat}
    (solid : IsSolid (cursor.rest.take count))
    (nonempty : cursor.rest.take count ≠ [])
    (token : (form kind).isToken = true) :
    TokenAt cursor (Reading.take kind count) where
  takes read := by
    cases read
    exact ⟨kind, count, rfl, rfl, solid.isClosed nonempty,
      fun _ => .token token fun _ => solid⟩

theorem TokenAt.reject {cursor : Cursor} : TokenAt cursor reject where
  takes read := by contradiction

theorem TokenAt.keeps
    {cursor next : Cursor}
    {reading : Reading Node}
    {value : Node}
    {closed : Bool}
    {outer : List Node}
    (token : TokenAt cursor reading)
    (laid : Laid text before closed outer cursor)
    (read : reading cursor = some (value, next)) :
    Laid text before true (outer ++ [value]) next := by
  obtain ⟨kind, count, rfl, rfl, isClosed, suits⟩ := token.takes read
  exact laid.take_closed kind isClosed suits

omit [HasNodes α] in
/-- A value that may be missing keeps what it keeps. -/
theorem Yields.maybe
    {holds : α → Prop}
    {reading : Reading α}
    (yields : Yields reading fun value _ => holds value) :
    Yields (maybe reading) fun found _ => ∀ value ∈ found, holds value where
  keeps {cursor _ _} read := by
    cases readFirst : reading cursor with
    | none =>
      rw [maybe_of_none readFirst] at read
      cases read
      exact fun _ member => by contradiction
    | some result =>
      rw [maybe_of_some readFirst] at read
      cases read
      exact fun value same => Option.some.inj same ▸ yields.keeps readFirst

omit [HasNodes α] in
/-- Every one of the values read keeps what one of them keeps. -/
theorem Yields.many
    {holds : α → Prop}
    {reading : Reading α}
    (yields : Yields reading fun value _ => holds value) :
    Yields (many reading) fun values _ => ∀ value ∈ values, holds value where
  keeps read := by
    have each := readsEach_of_many read
    clear read
    induction each with
    | nil => exact fun _ member => absurd member List.not_mem_nil
    | cons readFirst rest restHypothesis =>
      exact List.forall_mem_cons.2 ⟨yields.keeps readFirst, restHypothesis⟩

theorem yields_sign (text : String) :
    Yields (sign text) fun node _ => node.role = none :=
  .bind fun _ => .get_bind fun _ => by
    split
    · exact ⟨fun read => by cases read; rfl⟩
    · exact .reject

/-- A word is of the kind asked for. -/
theorem yields_anyWord
    (kind : Kind) :
    Yields (anyWord kind) fun node _ => node.kind = kind :=
  .bind fun _ => .get_bind fun _ => by
    split
    · exact ⟨fun read => by cases read; rfl⟩
    · exact .reject

theorem yields_keywordOf
    (words : List String) :
    Yields (keywordOf words) fun node _ => node.kind = .token :=
  .bind fun word => by
    split
    · split
      · exact yields_anyWord _
      · exact .reject
    · exact .reject

namespace LaysSome

/-- A token directly at the cursor, or something else from there on. -/
theorem get_or
    {next : Cursor → Reading Node}
    (either : ∀ cursor, TokenAt cursor (next cursor) ∨
      LaysSome text before (next cursor)) :
    LaysSome text before (get >>= next) where
  keeps {outer cursor _ _} laid read := by
    rcases either cursor with token | reads
    · rw [List.append_nil] at laid
      exact token.keeps laid read
    · exact reads.keeps laid read

/-- A token directly at the cursor. -/
theorem get
    {next : Cursor → Reading Node}
    (token : ∀ cursor, TokenAt cursor (next cursor)) :
    LaysSome text before (get >>= next) :=
  get_or fun cursor => .inl (token cursor)

/-- A token behind blanks and comments. -/
theorem gap_get
    {html : Bool}
    {next : Cursor → Reading Node}
    (token : ∀ cursor, TokenAt cursor (next cursor)) :
    LaysSome text before (gap html >>= fun _ => MonadState.get >>= next) :=
  .gap (get token)

theorem immediately
    (mark : String)
    (kind : Kind)
    (filled : mark ≠ "" ∧ IsSolid mark.toList)
    (token : (form kind).isToken = true) :
    LaysSome text before (immediately mark kind) :=
  get fun cursor => by
    obtain ⟨filled, solid⟩ := filled
    split
    · rename_i rest found
      have taken : cursor.rest.take mark.length = mark.toList := by
        rw [Lexeme.eq_append_of_after? found, ← String.length_toList,
          List.take_left]
      refine .takeSolid (taken ▸ solid) (fun isNil => ?_) token
      exact filled (String.toList_eq_nil_iff.1 (taken ▸ isNil))
    · exact .reject

theorem mark
    (text' : String)
    (kind : Kind)
    (filled : text' ≠ "" ∧ IsSolid text'.toList)
    (token : (form kind).isToken = true) :
    LaysSome text before (mark text' kind) :=
  .gap (immediately text' kind filled token)

theorem sign
    (text' : String)
    (filled : text' ≠ "") :
    LaysSome text before (sign text') :=
  gap_get fun cursor => by
    split
    · rename_i isMark
      refine .take ?_ rfl
      rw [beq_iff_eq] at isMark
      rw [← String.length_toList, ← isMark, Lexeme.take_markOf]
      refine (Lexeme.isSolid_markOf _).isClosed ?_
      rw [isMark]
      exact fun isNil => filled (String.toList_eq_nil_iff.1 isNil)
    · exact .reject

theorem signOf
    (texts : List String)
    (filled : texts.contains "" = false) :
    LaysSome text before (signOf texts) :=
  gap_get fun cursor => by
    dsimp only
    split
    · rename_i isMark
      refine .take ?_ rfl
      rw [String.length_ofList, Lexeme.take_markOf]
      refine (Lexeme.isSolid_markOf _).isClosed fun isNil => ?_
      rw [isNil] at isMark
      exact Bool.false_ne_true (filled.symm.trans isMark)
    · exact .reject

theorem anyWord
    (kind : Kind)
    (token : (form kind).isToken = true) :
    LaysSome text before (anyWord kind) :=
  gap_get fun cursor => by
    split
    · rename_i isWord
      exact .takeSolid (Lexeme.isSolid_wordLength isWord).2
        (Lexeme.take_word_ne_nil isWord) token
    · exact .reject

theorem number : LaysSome text before number :=
  gap_get fun cursor => by
    split
    · rename_i isNumber
      exact .takeSolid (Lexeme.isSolid_numberLength isNumber).2
        (Lexeme.take_number_ne_nil isNumber) (by decide)
    · exact .reject

theorem regex : LaysSome text before regex :=
  gap_get fun cursor => by
    split
    · rename_i isRegex
      exact .take (Lexeme.isClosed_regex isRegex).2 rfl
    · exact .reject

theorem privateName : LaysSome text before privateName :=
  gap_get fun cursor => by
    split
    · rename_i rest restEq
      split
      · rename_i length isWord
        have solid := (Lexeme.isSolid_wordLength isWord).2
        refine .takeSolid ?_ ?_ (by decide)
        · rw [restEq, List.take_succ_cons]
          exact .cons (by decide) solid
        · rw [restEq, List.take_succ_cons]
          exact List.cons_ne_nil _ _
      · exact .reject
    · exact .reject

theorem keyword
    (word : String)
    (kind : Kind)
    (token : (form kind).isToken = true) :
    LaysSome text before (keyword word kind) :=
  .nextWord fun _ => .require (anyWord kind token)

theorem keywordOf (words : List String) :
    LaysSome text before (keywordOf words) :=
  .nextWord fun word => by
    split
    · split
      · exact anyWord _ (by decide)
      · exact .reject
    · exact .reject

theorem wordExcept
    (excluded : List String)
    (kind : Kind)
    (token : (form kind).isToken = true) :
    LaysSome text before (wordExcept excluded kind) :=
  .nextWord fun word => by
    split
    · split
      · exact .reject
      · exact anyWord _ token
    · exact .reject

theorem nameIn
    (dialect : Dialect)
    (kind : Kind)
    (token : (form kind).isToken = true) :
    LaysSome text before (nameIn dialect kind) :=
  wordExcept _ _ token

end LaysSome

/-! ## Runs of characters -/

/-- From the cursor a reading takes a leaf of characters that splits no line
ending. -/
structure RunAt (cursor : Cursor) (reading : Reading Node) : Prop where
  takes : ∀ {next value}, reading cursor = some (value, next) →
    ∃ kind count, next = cursor.advance count ∧
      value = .leaf kind ⟨cursor.offset, next.offset⟩ ∧
      form kind = .plain ∧ cursor.rest.take count ≠ [] ∧
      Apart (cursor.rest.take count) (cursor.rest.drop count)

theorem RunAt.take
    {cursor : Cursor}
    {kind : Kind}
    {count : Nat}
    (nonempty : cursor.rest.take count ≠ [])
    (apart : Apart (cursor.rest.take count) (cursor.rest.drop count))
    (plain : form kind = .plain) :
    RunAt cursor (take kind count) where
  takes read := by
    cases read
    exact ⟨kind, count, rfl, rfl, plain, nonempty, apart⟩

theorem RunAt.reject {cursor : Cursor} : RunAt cursor reject where
  takes read := by contradiction

/-- A reading of characters that may be blanks. -/
abbrev Runs (text before : List Char) (reading : Reading Node) : Prop :=
  Lays text before false [] reading false

namespace Runs

/-- A run directly at the cursor. -/
theorem get
    {next : Cursor → Reading Node}
    (run : ∀ cursor, RunAt cursor (next cursor)) :
    Runs text before (get >>= next) where
  keeps {outer cursor _ _} laid read := by
    obtain ⟨kind, count, rfl, rfl, plain, nonempty, apart⟩ :=
      (run cursor).takes read
    rw [List.append_nil] at laid
    exact laid.take kind (fun _ _ => .plain plain) nonempty apart

/-- Characters up to the first one that fails a test. -/
theorem runOf
    (kind : Kind)
    {test : Char → Bool}
    (noFeed : test '\r' = false)
    (plain : form kind = .plain) :
    Runs text before (runOf kind test) :=
  get fun cursor => by
    split
    · exact .reject
    · rename_i isSome
      have taken := Lexeme.take_run test cursor.rest
      refine .take ?_ (.of_getLast? fun last => ?_) plain
      · intro isNil
        rw [taken] at isNil
        refine isSome ?_
        rw [Lexeme.run, isNil, List.length_nil]
      · rw [taken] at last
        have isTested := List.mem_takeWhile_imp (List.mem_of_getLast? last)
        exact Bool.false_ne_true (noFeed.symm.trans isTested)

/-- The escape of a line ending takes the whole of it. -/
theorem escape : Runs text before escape :=
  get fun cursor => by
    split
    · rename_i length isEscape
      obtain ⟨nonempty, apart⟩ := Lexeme.apart_escape isEscape
      exact .take nonempty apart rfl
    · exact .reject

end Runs

/-! ## Lists of nodes -/

namespace LaysAny

variable {reading : Reading α}

/-- Nothing is there. -/
theorem nothing : LaysAny text before (Pure.pure none : Reading (Option α)) :=
  fun _ => .pure (by simp)

theorem maybe
    (passes : LaysAny text before reading) :
    LaysAny text before (maybe reading) := by
  intro closed
  refine .orElse (.map (passes closed) fun _ => rfl) ?_
  exact .pure rfl

theorem many
    (passes : LaysAny text before reading) :
    LaysAny text before (many reading) :=
  fun closed => .many (passes closed)

end LaysAny

namespace LaysSome

variable {reading : Reading α}

theorem maybe
    (reads : LaysSome text before reading) :
    LaysAny text before (maybe reading) :=
  reads.toAny.maybe

theorem many
    (reads : LaysSome text before reading) :
    LaysAny text before (many reading) :=
  reads.toAny.many

variable {item : Reading Node}

theorem commaSeparated
    (reads : LaysSome text before item) :
    LaysSome text before (commaSeparated item) := by
  have more : LaysSome text before (do
      let comma ← Reading.sign ","
      let next ← item
      Pure.pure [comma, next]) :=
    (sign _ (by decide)).read fun _ => reads.read fun _ => .pure (by simp)
  exact reads.read fun _ => more.many.pass fun _ => .pure (by simp)

theorem commaList
    (reads : LaysSome text before item) :
    LaysAny text before (commaList item) := by
  refine fun closed => (commaSeparated reads).maybe.pass fun nodes => ?_
  cases nodes with
  | none => exact .pure (by simp)
  | some nodes => exact (sign _ (by decide)).maybe.pass fun _ => .pure (by simp)

theorem commaListOne
    (reads : LaysSome text before item) :
    LaysSome text before (commaListOne item) :=
  (commaSeparated reads).read fun _ => (sign _ (by decide)).maybe.pass fun _ =>
    .pure (by simp)

theorem commaSlots
    (reads : LaysSome text before item) :
    LaysAny text before (commaSlots item) := by
  have more : LaysSome text before (do
      let comma ← Reading.sign ","
      let next ← Reading.maybe item
      Pure.pure (comma :: next.toList)) :=
    (sign _ (by decide)).read fun _ => reads.maybe.pass fun _ => .pure (by simp)
  exact fun closed => reads.maybe.pass fun _ => more.many.pass fun _ =>
    .pure (by simp)

/-! ## Strings -/

theorem quote_ne_empty (quote : Char) : quote.toString ≠ "" := by
  intro isEmpty
  have isNil : quote.toString.toList = [] := by rw [isEmpty, String.toList_empty]
  rw [Char.toString, String.toList_singleton] at isNil
  contradiction

theorem isSolid_quote
    {quote : Char}
    (isQuote : isQuote quote = true) :
    IsSolid quote.toString.toList := by
  have solid : isBlank quote = false := by
    simp only [Syntax.isQuote, Bool.or_eq_true, beq_iff_eq] at isQuote
    rcases isQuote with (rfl | rfl) | rfl <;> decide
  rw [Char.toString, String.toList_singleton]
  exact .cons solid .nil

/-- A quotation mark, and what may rely on where it stands. -/
theorem quote_bind
    (quote : Char)
    {closed closes : Bool}
    {given : List Node}
    {next : Node → Reading α}
    (isQuote : isQuote quote = true)
    (rest : ∀ opening, OpensQuote text opening →
      Lays text before true (given ++ [opening]) (next opening) closes) :
    Lays text before closed given (Reading.mark quote.toString >>= next)
      closes where
  keeps {outer cursor _ _} laid read := by
    rw [bind_apply] at read
    obtain ⟨⟨opening, stop⟩, readMark, readRest⟩ :=
      Option.bind_eq_some_iff.1 read
    have filled := And.intro (quote_ne_empty quote) (isSolid_quote isQuote)
    have opens : OpensQuote text opening := by
      obtain ⟨within, trail, -⟩ := laid.skip false
      have readHere : Reading.immediately quote.toString .token (cursor.skip false) =
          some (opening, stop) := readMark
      obtain ⟨restEq, startEq, stopEq⟩ := of_immediately readHere
      rw [Char.toString, String.toList_singleton] at restEq stopEq
      refine ⟨_, quote, stop.rest, ?_, startEq.trans trail.offset, ?_, isQuote⟩
      · rw [trail.stands, restEq]
        rfl
      · rw [stopEq, byteLength_append, trail.offset]
    rw [← List.append_nil (outer ++ given)] at laid
    have laidMark := (mark _ _ filled (by decide)).ofFalse.keeps laid readMark
    rw [List.append_assoc] at laidMark
    exact (rest opening opens).keeps laidMark readRest

theorem quoted
    (quote : Char)
    (isQuote : isQuote quote = true) :
    LaysSome text before (quoted quote) := by
  have filled := And.intro (quote_ne_empty quote) (isSolid_quote isQuote)
  refine quote_bind _ isQuote fun opening opens => ?_
  have parts : Runs text before
      (Reading.runOf .stringFragment
        (fun c => c != quote && c != '\\' && c != '\r' && c != '\n') <|>
        Reading.escape) :=
    .orElse (Runs.runOf _ (by simp) rfl) Runs.escape
  refine parts.many.ofFalse.andThen fun _ => ?_
  exact (immediately _ _ filled (by decide)).read fun _ =>
    .gather (by simp) (.quoted_of_opens rfl opens)

theorem stringLiteral : LaysSome text before stringLiteral :=
  .orElse (quoted _ (by decide)) (quoted _ (by decide))

end LaysSome

/-! ## The end of a statement -/

theorem LaysAny.statementEnd
    (dialect : Dialect)
    (operator signature : Bool) :
    LaysAny text before (Regular.statementEnd dialect operator signature) :=
  fun _ => ⟨fun {outer _ _ _} laid read => by
    obtain ⟨place, found, same⟩ := Option.map_eq_some_iff.1 read
    cases same
    rw [List.append_nil] at laid
    exact (laid.endUpTo found).congr (by simp)⟩

theorem LaysAny.semicolon
    (dialect : Dialect)
    (operator signature : Bool) :
    LaysAny text before (semicolon dialect operator signature) := by
  intro closed
  rw [Regular.semicolon_eq]
  exact .orElse (.map (statementEnd _ _ _ closed) (by simp))
    (.map ((LaysSome.sign _ (by decide)).toAny closed) (by simp))

theorem LaysAny.softEnd
    (dialect : Dialect)
    (operator : Bool) :
    LaysAny text before (softEnd dialect operator) := by
  intro closed
  rw [Regular.softEnd_eq]
  exact .orElse (statementEnd _ _ _ closed) (.pure (by simp))

end Reading
end Syntax
end StoryMigration
