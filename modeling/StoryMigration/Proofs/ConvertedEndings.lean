import StoryMigration.Proofs.ConvertedText
import StoryMigration.Proofs.GeneratedEndings
import StoryMigration.Proofs.SecondConversion
import StoryMigration.Proofs.UncutPlaces

/-!
# Line endings of converted modules

A conversion copies pieces of the source and writes code of its own between
them.  The pieces start and end at nodes, which lie across no line ending, and
at the ends of lines.  Only a comment in the manner of HTML takes half of a
line ending with it.
-/

namespace StoryMigration

open Syntax Utf8 LineSpan

namespace Migration

open Chain Fallible Newline Story

variable
  {m : Module}
  {options : Options}
  {located : Located}
  {fragment : Fragment}
  {dialect : Dialect}
  {source : String}

/-! ## What is copied -/

/-- Nothing that is copied ends within a line ending, and the import is removed
from and up to places that do not lie within one. -/
structure KeepsEndings
    (m : Module)
    (located : Located)
    (fragment : Fragment) : Prop where
  kept : ∀ expression, Kept m fragment expression →
    (m.text expression).toList.getLast? ≠ some '\r'
  edit : ∀ edit, importEdit m located fragment.statements = some edit →
    UnsplitAt m.bytes edit.span.start ∧ UnsplitAt m.bytes edit.span.stop

theorem mem_tree_of_statement
    {statement node : Node}
    (sound : located.Sound m)
    (isFragment : fragment ∈ located.fragments)
    (isStatement : statement ∈ fragment.statements)
    (below : node ∈ statement.preorder) :
    node ∈ m.tree.preorder :=
  Node.mem_preorder_trans (Module.statement_mem_preorder
    ((sound.of_mem isFragment).2.2.subset isStatement)) below

section Parsed

variable
  (parsed : Module.parse? dialect source = some m)
  (sound : located.Sound m)
  (isFragment : fragment ∈ located.fragments)

include parsed

theorem forward_of_parsed
    {node : Node}
    (isNode : node ∈ m.tree.preorder) :
    node.start ≤ node.stop :=
  ((Module.orderly_of_parse? parsed).nested.of_mem isNode).forward

/-- A node of a text with paired line endings has paired line endings if it ends
in none of them. -/
theorem clean_text_of_paired
    {node : Node}
    (paired : PairedText source.toList)
    (isNode : node ∈ m.tree.preorder)
    (ends : UnsplitAt m.bytes node.stop) :
    Clean (m.text node).toList := by
  obtain ⟨bytesEq, overlaid⟩ := Module.exists_overlaid parsed
  have start := (overlaid.stands node isNode).start.unsplitAt
  rw [← bytesEq] at start
  have forward := forward_of_parsed parsed isNode
  have bytesPaired : PairedBytes m.bytes := by
    rw [bytesEq, pairedBytes_encode_iff]
    exact paired
  have textPaired := bytesPaired.between forward start ends
  rw [Module.between_eq_ofString_text (Module.readable_of_parse? parsed) isNode
    forward, ofString, pairedBytes_encode_iff] at textPaired
  exact .of_paired textPaired

/-- A node of a text without a carriage return has none. -/
theorem clean_text_of_free
    {node : Node}
    (noReturn : '\r' ∉ source.toList)
    (isNode : node ∈ m.tree.preorder) :
    Clean (m.text node).toList := by
  obtain ⟨bytesEq, -⟩ := Module.exists_overlaid parsed
  refine .of_free fun member => noReturn ?_
  have inText : 0x0d ∈ ofString (m.text node) :=
    (mem_encode_iff (c := '\r') rfl (by decide) _).2 member
  rw [← Module.between_eq_ofString_text (Module.readable_of_parse? parsed)
    isNode (forward_of_parsed parsed isNode), between, bytesEq] at inText
  exact (mem_encode_iff (c := '\r') rfl (by decide) _).1
    (List.mem_of_mem_drop (List.mem_of_mem_take inText))

include sound isFragment

/-- What is copied of a chain in a text with paired line endings has paired line
endings if it ends in none of them. -/
theorem copiesClean_of_paired
    (paired : PairedText source.toList)
    (keeps : KeepsEndings m located fragment) :
    CopiesClean m fragment := by
  obtain ⟨bytesEq, overlaid⟩ := Module.exists_overlaid parsed
  refine ⟨fun expression kept => ?_, fun link isLink comment isComment => ?_⟩
  · obtain ⟨statement, isStatement, below⟩ :=
      kept.mem_preorder (sound.collected isFragment)
    have isNode := mem_tree_of_statement sound isFragment isStatement below
    have start := (overlaid.stands expression isNode).start.unsplitAt
    rw [← bytesEq] at start
    exact clean_text_of_paired parsed paired isNode (Module.unsplitAt_stop
      (Module.readable_of_parse? parsed) isNode (forward_of_parsed parsed isNode)
      start (keeps.kept expression kept))
  · obtain ⟨isComment, statement, isStatement, below⟩ :=
      sound.comment_mem isFragment isLink isComment
    have isNode := mem_tree_of_statement sound isFragment isStatement below
    have sharp := (overlaid.stands comment isNode).stop
      (by rw [isComment]; decide) (by rw [isComment]; decide)
    have stop := sharp.unsplitAt
    rw [← bytesEq] at stop
    exact clean_text_of_paired parsed paired isNode stop

theorem copiesClean_of_free
    (noReturn : '\r' ∉ source.toList) :
    CopiesClean m fragment := by
  refine ⟨fun expression kept => ?_, fun link isLink comment isComment => ?_⟩
  · obtain ⟨statement, isStatement, below⟩ :=
      kept.mem_preorder (sound.collected isFragment)
    exact clean_text_of_free parsed noReturn
      (mem_tree_of_statement sound isFragment isStatement below)
  · obtain ⟨-, statement, isStatement, below⟩ :=
      sound.comment_mem isFragment isLink isComment
    exact clean_text_of_free parsed noReturn
      (mem_tree_of_statement sound isFragment isStatement below)

/-- The name of the registration function is on one line. -/
theorem localName_oneLine :
    '\n' ∉ located.localName.toList := by
  obtain ⟨bytesEq, overlaid⟩ := Module.exists_overlaid parsed
  have grounded := (sound.of_mem isFragment).2.1
  have rooted := grounded.isRoot
  unfold isRoot at rooted
  simp only [Bool.and_eq_true] at rooted
  obtain ⟨⟨-, isCallee⟩, -⟩ := rooted
  cases calleeFound : fragment.root.child? .callee with
  | none =>
    rw [calleeFound] at isCallee
    contradiction
  | some callee =>
    simp only [calleeFound, Bool.and_eq_true, beq_iff_eq] at isCallee
    have isNode := mem_tree_of_statement sound isFragment List.mem_cons_self
      (Node.mem_preorder_trans grounded.rootBelow
        (Node.child_mem_preorder (Node.child?_mem calleeFound)))
    have isName : form callee.kind = .name := by
      rw [isCallee.1]
      rfl
    obtain ⟨front, body, back, textEq, start, stop, solid⟩ :=
      (overlaid.stands callee isNode).name isName
    have bytesOf := Module.between_eq_ofString_text
      (Module.readable_of_parse? parsed) isNode (forward_of_parsed parsed isNode)
    rw [bytesEq, textEq, start, stop, ← length_encode, ← length_encode,
      encode_append, encode_append, between] at bytesOf
    simp only [List.length_append, Nat.add_sub_cancel_left, List.append_assoc,
      List.drop_left, List.take_left] at bytesOf
    rw [← isCallee.2, ← encode_injective bytesOf]
    exact fun member => absurd (solid _ member) (by decide)

/-- The statements of a chain cut no line ending in two. -/
theorem unsplitAt_of_statement
    {statement : Node}
    (isStatement : statement ∈ fragment.statements) :
    UnsplitAt m.bytes statement.start ∧ UnsplitAt m.bytes statement.stop := by
  obtain ⟨bytesEq, overlaid⟩ := Module.exists_overlaid parsed
  obtain ⟨-, grounded, -⟩ := sound.of_mem isFragment
  have stands := overlaid.stands statement (mem_tree_of_statement sound isFragment
    isStatement statement.self_mem_preorder)
  have kinds : statement.kind = .expressionStatement ∨
      statement.kind.isVariableDeclaration = true := by
    rcases List.mem_cons.1 isStatement with rfl | isLater
    · obtain ⟨expression, found⟩ := grounded.bound
      obtain ⟨-, ⟨isExpression, -⟩ | ⟨isDeclaration, -⟩⟩ :=
        statementExpression_eq_some found
      · exact .inl isExpression
      · exact .inr isDeclaration
    · exact .inl (grounded.laterKind statement isLater)
  have sharp : IsSharp source.toList statement.stop := by
    refine stands.stop (fun isHtml => ?_) fun isShell => ?_
    · rw [isHtml] at kinds
      exact absurd kinds (by decide)
    · rw [isShell] at kinds
      exact absurd kinds (by decide)
  rw [bytesEq]
  exact ⟨stands.start.unsplitAt, sharp.unsplitAt⟩

/-- What holds of the code, and of the pieces of the source between places where
the edits of a conversion start or end, holds of the outcome. -/
theorem convertedBytes_of_pieces
    {code : String}
    (holds : List UInt8 → Prop)
    (isPlace : Nat → Prop)
    (append : ∀ {front back}, holds front → holds back → holds (front ++ back))
    (pieces : ∀ {start stop}, isPlace start → isPlace stop → start ≤ stop →
      holds (between m.bytes start stop))
    (firstPlace : isPlace 0)
    (lastPlace : isPlace m.bytes.length)
    (places : ∀ edit ∈ conversionEdits m located fragment code,
      isPlace edit.span.start ∧ isPlace edit.span.stop)
    (codeHolds : holds (ofString code)) :
    holds (convertedBytes m located fragment code) := by
  have orderly := Module.orderly_of_parse? parsed
  obtain ⟨-, grounded, sublist⟩ := sound.of_mem isFragment
  have apart : (conversionEdits m located fragment code).Pairwise Edit.Apart :=
    conversionEdits_apart orderly grounded sublist code
  have fits (edit : Edit)
      (isEdit : edit ∈ conversionEdits m located fragment code) :
      edit.Fits m.bytes.length :=
    (conversionEdits_belongTo orderly sublist isEdit).choose_spec.2.fits
  have applied : Edit.applyBytes m.bytes
      (conversionEdits m located fragment code) =
        .ok (convertedBytes m located fragment code) :=
    applyBytes_conversionEdits orderly grounded sublist code
  rw [Edit.applyBytes_of_apart apart fits fun edit isEdit =>
    conversionEdits_encodable orderly isEdit, Except.ok.injEq] at applied
  have empty : holds [] := by
    have piece := pieces firstPlace firstPlace (Nat.le_refl 0)
    rwa [between, Nat.sub_self, List.take_zero] at piece
  rw [← applied]
  refine Edit.woven_of_pieces append pieces firstPlace lastPlace (Nat.zero_le _)
    (Edit.ascending_pairwise apart fits)
    (fun edit isEdit => fits edit (Edit.mem_ascending.1 isEdit))
    (fun edit _ => Nat.zero_le _)
    (fun edit isEdit => places edit (Edit.mem_ascending.1 isEdit))
    fun edit isEdit => ?_
  rcases mem_conversionEdits.1 (Edit.mem_ascending.1 isEdit) with
    rfl | ⟨statement, -, rfl⟩ | found
  · rw [bytes_replacing]
    exact codeHolds
  · exact empty
  · obtain ⟨-, -, -, -, noText⟩ := importEdit_eq_some orderly found
    rw [Edit.bytes, noText]
    exact empty

/-- The edits of a conversion cut no line ending in two if that of the import
does not. -/
theorem unsplitAt_conversionEdits
    {code : String}
    (keeps : KeepsEndings m located fragment) :
    ∀ edit ∈ conversionEdits m located fragment code,
      UnsplitAt m.bytes edit.span.start ∧ UnsplitAt m.bytes edit.span.stop := by
  intro edit isEdit
  rcases mem_conversionEdits.1 isEdit with
    rfl | ⟨statement, isOther, rfl⟩ | found
  · exact unsplitAt_of_statement parsed sound isFragment (anchor_mem fragment)
  · have isStatement := mem_of_mem_dropLast isOther
    obtain ⟨start, stop⟩ :=
      unsplitAt_of_statement parsed sound isFragment isStatement
    obtain ⟨nested, inside⟩ := (Module.orderly_of_parse? parsed).statement
      ((sound.of_mem isFragment).2.2.subset isStatement)
    exact (around_grown true nested.forward inside).unsplitAt start stop
  · exact keeps.edit edit found

end Parsed

/-! ## The line of the title -/

theorem noEnd_titleLine
    {title : Text}
    {comma : String}
    (isComma : comma ∈ ["", ","]) :
    ∀ c ∈ (titleLine options title comma).toList, c ≠ '\n' ∧ c ≠ '\r' := by
  intro c member
  unfold titleLine Layout.property Layout.indent at member
  simp only [String.toList_append, String.toList_ofList, List.mem_append,
    List.mem_replicate] at member
  have fixed (text : String)
      (noEnd : text.toList.all (fun c => c != '\n' && c != '\r') = true)
      (member : c ∈ text.toList) :
      c ≠ '\n' ∧ c ≠ '\r' := by
    have here := List.all_eq_true.1 noEnd c member
    rwa [Bool.and_eq_true, bne_iff_ne, bne_iff_ne] at here
  rcases member with (⟨-, rfl⟩ | ((isKey | isColon) | isTitle)) | inComma
  · decide
  · exact fixed "title" (by decide) isKey
  · exact fixed ": " (by decide) isColon
  · exact options.layout.string_noLineEnd isTitle
  · simp only [List.mem_cons, List.not_mem_nil, or_false] at isComma
    rcases isComma with rfl | rfl
    · exact fixed "" (by decide) inComma
    · exact fixed "," (by decide) inComma

/-- The line of the title does not begin like a residual root. -/
theorem behindRoot?_titleLine
    (title : Text)
    (comma : String)
    (name rest : List UInt8) :
    Residual.behindRoot? name
      (encode (titleLine options title comma).toList ++ rest) = none := by
  have spaces (count : Nat) :
      encode (List.replicate count ' ') = List.replicate count 0x20 := by
    induction count with
    | zero => rfl
    | succ count countHypothesis =>
      rw [List.replicate_succ, encode_cons, countHypothesis]
      rfl
  obtain ⟨more, titleEq⟩ : ∃ more, (titleLine options title comma).toList =
      List.replicate (options.layout.tabWidth * 1).toNat ' ' ++ 't' :: more := by
    unfold titleLine Layout.property Layout.indent
    simp only [String.toList_append, String.toList_ofList, List.append_assoc]
    exact ⟨_, rfl⟩
  have keyword (rest : List UInt8) :
      Residual.behindKeyword? (0x74 :: rest) = none := rfl
  have gaps : ∀ b ∈ List.replicate (options.layout.tabWidth * 1).toNat 0x20,
      Residual.isGap b = true := by
    intro b member
    rw [List.eq_of_mem_replicate member]
    rfl
  rw [titleEq, encode_append, spaces, encode_cons, List.append_assoc]
  unfold Residual.behindRoot?
  rw [List.dropWhile_append_of_pos gaps]
  show (Residual.behindKeyword? (0x74 :: (encode more ++ rest)) >>= _) = none
  rw [keyword]
  rfl

/-- The line of the title stands in the code, written with the line endings of the
module. -/
theorem exists_code_title
    {newline : Newline}
    {title : Text}
    {text comma : String}
    (isComma : comma ∈ ["", ","])
    (shows : Shows text ("\x7b\n" ++ titleLine options title comma ++ "\n")) :
    ∃ front line back, ofString (newline.spread text) =
        front ++ 0x0a :: (line ++ 0x0a :: back) ∧
      0x0a ∉ line ∧
      (∀ name rest, Residual.behindRoot? name (line ++ rest) = none) ∧
      (newline = .crlf → line.getLast? = some 0x0d) := by
  obtain ⟨front, back, whole⟩ := shows
  have noEnd : ∀ c ∈ (titleLine options title comma).toList, c ≠ '\n' ∧ c ≠ '\r' :=
    noEnd_titleLine isComma
  have other : ∀ name rest, Residual.behindRoot? name
      (encode (titleLine options title comma).toList ++ rest) = none :=
    behindRoot?_titleLine title comma
  rw [String.toList_append, String.toList_append] at whole
  generalize (titleLine options title comma).toList = line at whole noEnd other
  have textEq : text.toList =
      (front ++ ['\x7b']) ++ '\n' :: (line ++ '\n' :: back) := by
    rw [← whole]
    show front ++ ('\x7b' :: '\n' :: (line ++ ['\n'])) ++ back = _
    simp
  have feed (rest : List Char) : newline.spreadList ('\n' :: rest) =
      newline.chars ++ newline.spreadList rest := by
    unfold Newline.spreadList
    rw [joined_cons_of_ne rest (by decide), List.flatMap_cons]
    rfl
  obtain ⟨ends, endsEq, noFeed⟩ : ∃ ends, newline.chars = ends ++ ['\n'] ∧
      '\n' ∉ ends := by
    cases newline
    · exact ⟨[], rfl, List.not_mem_nil⟩
    · exact ⟨['\r'], rfl, by decide⟩
  have lineApart : line.getLast? ≠ some '\r' :=
    fun last => (noEnd _ (List.mem_of_getLast? last)).2 rfl
  have frontApart : (front ++ ['\x7b']).getLast? ≠ some '\r' := by
    rw [List.getLast?_concat]
    decide
  refine ⟨encode (newline.spreadList (front ++ ['\x7b']) ++ ends),
    encode (line ++ ends), encode (newline.spreadList back), ?_, ?_, ?_, ?_⟩
  · rw [ofString, toList_spread, textEq, spreadList_append _ _ frontApart, feed,
      spreadList_append _ _ lineApart, spreadList_eq_self _ noEnd, feed, endsEq]
    simp only [encode_append, List.append_assoc]
    rfl
  · rw [mem_encode_iff (b := 0x0a) (c := '\n') rfl (by decide), List.mem_append]
    rintro (inLine | inEnds)
    · exact (noEnd _ inLine).1 rfl
    · exact noFeed inEnds
  · intro name rest
    rw [encode_append, List.append_assoc]
    exact other name _
  · rintro rfl
    obtain rfl : ends = ['\r'] := List.append_cancel_right endsEq.symm
    rw [encode_append]
    exact List.getLast?_concat

/-! ## The whole conversion -/

/-- A conversion that has an outcome changes a module that was read from the
source. -/
theorem exists_transform
    {host : Command.Host}
    {path : String}
    {asked : Option Dialect}
    {outcome : Outcome}
    (converts : convert host options path source asked = .ok outcome) :
    ∃ m changed,
      Module.parse? (dialectFor (asked <|> options.dialect) path) source =
        some m ∧
      transform host options path m = .ok changed ∧
      outcome = { changed with before := source } := by
  cases parsed : Module.parse? (dialectFor (asked <|> options.dialect) path)
      source with
  | none =>
    unfold convert applyTo at converts
    rw [parsed] at converts
    contradiction
  | some m =>
    obtain ⟨changed, transformed, outcomeEq, -⟩ :=
      (applyTo_eq_ok parsed).1 converts
    exact ⟨m, changed, rfl, transformed, outcomeEq⟩

/-- The text that a conversion without a formatter returns: the source itself, or
the edited source with regular ends, without its residual roots if these are to
go. -/
theorem exists_spliced
    {host : Command.Host}
    {path : String}
    {outcome : Outcome}
    (unformatted : options.formatter = [])
    (transformed : transform host options path m = .ok outcome) :
    outcome.code = m.source ∨
      ∃ located fragment code count spliced stripped,
        locate m options.registration = .ok located ∧
        chosen located = some fragment ∧
        generated options m located fragment = .ok (code, count) ∧
        Edit.apply m.bytes (conversionEdits m located fragment code) =
          .ok spliced ∧
        (if options.stripResidualRoots then
          Residual.strip m.dialect located.localName spliced
        else .ok spliced) = .ok stripped ∧
        outcome.code = normalizedEnds stripped := by
  unfold transform at transformed
  rw [bind_eq_ok] at transformed
  obtain ⟨located, found, transformed⟩ := transformed
  rw [mapError_eq_ok] at found
  cases vetoed : veto located with
  | some kind =>
    rw [vetoed] at transformed
    simp only [pure_eq_ok] at transformed
    exact .inl (congrArg Outcome.code transformed.symm)
  | none =>
    rw [vetoed] at transformed
    cases passes : chosen located with
    | none =>
      rw [passes] at transformed
      simp only [pure_eq_ok] at transformed
      exact .inl (congrArg Outcome.code transformed.symm)
    | some fragment =>
      rw [passes] at transformed
      simp only [bind_eq_ok, pure_eq_ok] at transformed
      obtain ⟨⟨text, changes⟩, convertedEq, rfl⟩ := transformed
      unfold converted at convertedEq
      rw [bind_eq_ok] at convertedEq
      obtain ⟨⟨code, count⟩, written, convertedEq⟩ := convertedEq
      simp only at convertedEq
      rw [bind_eq_ok] at convertedEq
      obtain ⟨spliced, applied, convertedEq⟩ := convertedEq
      rw [mapError_eq_ok] at written applied
      rw [unformatted] at convertedEq
      refine .inr ⟨located, fragment, code, count, spliced, ?_⟩
      cases strips : options.stripResidualRoots with
      | false =>
        rw [strips] at convertedEq
        obtain ⟨rfl, -⟩ := Prod.mk.inj (Except.ok.inj convertedEq)
        exact ⟨spliced, found, passes, written, applied, rfl, rfl⟩
      | true =>
        rw [strips, if_pos rfl, bind_eq_ok] at convertedEq
        obtain ⟨stripped, isStripped, convertedEq⟩ := convertedEq
        rw [mapError_eq_ok] at isStripped
        obtain ⟨rfl, -⟩ := Prod.mk.inj (Except.ok.inj convertedEq)
        exact ⟨stripped, found, passes, written, applied, isStripped, rfl⟩

/-- What holds of a text, and of all texts put together from pieces of it between
line ends, holds of the text without its residual roots. -/
theorem stripped_of_pieces
    {spliced stripped name : String}
    {strips : Bool}
    (holds : List UInt8 → Prop)
    (append : ∀ {front back}, holds front → holds back → holds (front ++ back))
    (pieces : ∀ {start stop}, UnsplitAt (ofString spliced) start →
      UnsplitAt (ofString spliced) stop → start ≤ stop →
        holds (between (ofString spliced) start stop))
    (oneLine : '\n' ∉ name.toList)
    (isStripped : (if strips then Residual.strip dialect name spliced
      else .ok spliced) = .ok stripped) :
    holds (ofString stripped) := by
  cases strips with
  | false =>
    obtain rfl := Except.ok.inj isStripped
    have whole := pieces (unsplitAt_zero _) (unsplitAt_length _) (Nat.zero_le _)
    rwa [between, List.drop_zero, Nat.sub_zero, List.take_length] at whole
  | true =>
    exact Residual.strip_of_pieces oneLine isStripped append
      fun start stop ordered => pieces start.unsplitAt stop.unsplitAt ordered

section Spliced

variable
  {code spliced stripped : String}
  {count : Nat}
  (parsed : Module.parse? dialect source = some m)
  (sound : located.Sound m)
  (isFragment : fragment ∈ located.fragments)
  (property : '\r' ∉ options.storyProperty.toList)
  (written : generated options m located fragment = .ok (code, count))
  (applied : Edit.apply m.bytes (conversionEdits m located fragment code) =
    .ok spliced)
  (isStripped : (if options.stripResidualRoots then
      Residual.strip m.dialect located.localName spliced
    else .ok spliced) = .ok stripped)

include parsed sound isFragment applied

theorem ofString_spliced :
    ofString spliced = convertedBytes m located fragment code := by
  obtain ⟨-, grounded, sublist⟩ := sound.of_mem isFragment
  obtain ⟨text, textApplied, textBytes⟩ : ∃ text,
      Edit.apply m.bytes (conversionEdits m located fragment code) = .ok text ∧
        ofString text = convertedBytes m located fragment code :=
    apply_conversionEdits (Module.orderly_of_parse? parsed)
      (Module.readable_of_parse? parsed) grounded sublist code
  rw [applied, Except.ok.injEq] at textApplied
  rw [textApplied, textBytes]

include written isStripped

/-- The line of the title stands in the edited text, with a carriage return in
front of its line feed if the module is written so. -/
theorem exists_titleLine_of_stripped :
    ∃ before line behind,
      ofString stripped = before ++ (line ++ 0x0a :: behind) ∧
        (Newline.ofText m.source.toList = .crlf →
          line.getLast? = some 0x0d) := by
  obtain ⟨text, codeEq, comma, isComma, shows⟩ :=
    exists_titleLine_of_generated written
  obtain ⟨front, line, back, split, oneBody, other, returns⟩ :=
    exists_code_title isComma shows
  have splicedSplit : ∃ front back, ofString spliced =
      front ++ 0x0a :: (line ++ 0x0a :: back) := by
    rw [ofString_spliced parsed sound isFragment applied, convertedBytes, codeEq,
      split]
    exact ⟨_ ++ front, back ++ _, by
      simp only [List.append_assoc, List.cons_append]; rfl⟩
  obtain ⟨front, back, split⟩ := splicedSplit
  split at isStripped
  · obtain ⟨before, behind, stays⟩ := Residual.exists_line_of_strip
      (localName_oneLine parsed sound isFragment) isStripped split oneBody
      (other _ _)
    exact ⟨before, line, behind, stays, returns⟩
  · rw [← Except.ok.inj isStripped, split]
    exact ⟨front ++ [0x0a], line, back, by simp, returns⟩

include property

/-- The edited text of a module with paired line endings has paired line
endings. -/
theorem paired_stripped
    (paired : PairedText source.toList)
    (feed : '\n' ∈ source.toList)
    (keeps : KeepsEndings m located fragment) :
    PairedText stripped.toList ∧ '\n' ∈ stripped.toList := by
  obtain ⟨bytesEq, -⟩ := Module.exists_overlaid parsed
  have splicedBytes := ofString_spliced parsed sound isFragment applied
  have oneLine := localName_oneLine parsed sound isFragment
  obtain ⟨text, codeEq, clean⟩ := exists_clean_of_generated property
    (copiesClean_of_paired parsed sound isFragment paired keeps) written
  have style : Newline.ofText m.source.toList = crlf := by
    rw [source_of_parse? parsed, ofText, paired.hasPair feed]
    rfl
  have bytesPaired : PairedBytes m.bytes := by
    rw [bytesEq, pairedBytes_encode_iff]
    exact paired
  have codePaired : PairedBytes (ofString code) := by
    rw [ofString, pairedBytes_encode_iff, codeEq, style]
    exact paired_spread clean
  have splicedPaired : PairedBytes (ofString spliced) := by
    rw [splicedBytes]
    exact convertedBytes_of_pieces parsed sound isFragment PairedBytes
      (UnsplitAt m.bytes) IsPaired.append
      (fun start stop ordered => bytesPaired.between ordered start stop)
      (unsplitAt_zero _) (unsplitAt_length _)
      (unsplitAt_conversionEdits parsed sound isFragment keeps) codePaired
  constructor
  · rw [← pairedBytes_encode_iff]
    exact stripped_of_pieces PairedBytes IsPaired.append
      (fun start stop ordered => splicedPaired.between ordered start stop)
      oneLine isStripped
  · rw [← mem_encode_iff (b := 0x0a) (c := '\n') rfl (by decide)]
    obtain ⟨before, line, behind, stays, -⟩ :=
      exists_titleLine_of_stripped parsed sound isFragment written applied
        isStripped
    show 0x0a ∈ ofString stripped
    rw [stays]
    exact List.mem_append_right _
      (List.mem_append_right _ List.mem_cons_self)

/-- The edited text of a module without a carriage return has none. -/
theorem not_mem_stripped
    (noReturn : '\r' ∉ source.toList) :
    '\r' ∉ stripped.toList := by
  obtain ⟨bytesEq, -⟩ := Module.exists_overlaid parsed
  have append {front back : List UInt8}
      (frontFree : 0x0d ∉ front)
      (backFree : 0x0d ∉ back) :
      0x0d ∉ front ++ back := by
    rw [List.mem_append, not_or]
    exact ⟨frontFree, backFree⟩
  have pieces {bytes : List UInt8}
      (free : 0x0d ∉ bytes)
      (start stop : Nat) :
      0x0d ∉ between bytes start stop :=
    fun member => free (List.mem_of_mem_drop (List.mem_of_mem_take member))
  have encoded (text : List Char) : 0x0d ∈ encode text ↔ '\r' ∈ text :=
    mem_encode_iff rfl (by decide) text
  obtain ⟨text, codeEq, clean⟩ := exists_clean_of_generated property
    (copiesClean_of_free parsed sound isFragment noReturn) written
  have style : Newline.ofText m.source.toList = lf := by
    rw [source_of_parse? parsed]
    exact ofText_of_free noReturn
  have bytesFree : 0x0d ∉ m.bytes := by
    rw [bytesEq, encoded]
    exact noReturn
  have codeFree : 0x0d ∉ ofString code := by
    rw [ofString, encoded, codeEq, style]
    exact not_mem_spread clean
  have splicedFree : 0x0d ∉ ofString spliced := by
    rw [ofString_spliced parsed sound isFragment applied]
    exact convertedBytes_of_pieces parsed sound isFragment (0x0d ∉ ·)
      (fun _ => True) append (fun _ _ _ => pieces bytesFree _ _) trivial trivial
      (fun _ _ => ⟨trivial, trivial⟩) codeFree
  rw [← encoded]
  exact stripped_of_pieces (0x0d ∉ ·) append (fun _ _ _ => pieces splicedFree _ _)
    (localName_oneLine parsed sound isFragment) isStripped

end Spliced

/-- A text in which all line endings are pairs of a carriage return and a line
feed, and which has at least one. -/
structure WrittenInPairs (text : List Char) : Prop where
  feeds : ∀ front back, text = front ++ '\n' :: back →
    front.getLast? = some '\r'
  returns : ∀ front back, text = front ++ '\r' :: back →
    back.head? = some '\n'
  nonempty : '\n' ∈ text

theorem writtenInPairs_iff
    (text : List Char) :
    WrittenInPairs text ↔ PairedText text ∧ '\n' ∈ text := by
  rw [PairedText, isPaired_iff (by decide)]
  constructor
  · rintro ⟨feeds, returns, nonempty⟩
    exact ⟨⟨feeds, returns⟩, nonempty⟩
  · rintro ⟨⟨feeds, returns⟩, nonempty⟩
    exact ⟨feeds, returns, nonempty⟩

instance (text : List Char) : Decidable (WrittenInPairs text) :=
  decidable_of_iff _ (writtenInPairs_iff text).symm

/-- A conversion without a formatter returns no carriage return for a source
without one. -/
theorem not_mem_convert
    {host : Command.Host}
    {path : String}
    {asked : Option Dialect}
    {outcome : Outcome}
    (unformatted : options.formatter = [])
    (property : '\r' ∉ options.storyProperty.toList)
    (converts : convert host options path source asked = .ok outcome)
    (noReturn : '\r' ∉ source.toList) :
    '\r' ∉ outcome.code.toList := by
  obtain ⟨m, changed, parsed, transformed, rfl⟩ := exists_transform converts
  rcases exists_spliced unformatted transformed with
    same | ⟨located, fragment, code, count, spliced, stripped, found, passes,
      written, applied, isStripped, codeEq⟩
  · rw [same, source_of_parse? parsed]
    exact noReturn
  · obtain ⟨-, isFragment⟩ := veto_eq_none_of_chosen passes
    rw [codeEq]
    exact not_mem_normalizedEnds (not_mem_stripped parsed (locate_sound found)
      isFragment property written applied isStripped noReturn)

/-- A conversion without a formatter returns a carriage return for a source with
a carriage return in front of a line feed. -/
theorem mem_convert_of_hasPair
    {host : Command.Host}
    {path : String}
    {asked : Option Dialect}
    {outcome : Outcome}
    (unformatted : options.formatter = [])
    (converts : convert host options path source asked = .ok outcome)
    (pair : Newline.hasPair source.toList = true) :
    '\r' ∈ outcome.code.toList := by
  obtain ⟨m, changed, parsed, transformed, rfl⟩ := exists_transform converts
  rcases exists_spliced unformatted transformed with
    same | ⟨located, fragment, code, count, spliced, stripped, found, passes,
      written, applied, isStripped, codeEq⟩
  · obtain ⟨front, back, split⟩ := (Newline.hasPair_iff _).1 pair
    rw [same, source_of_parse? parsed, split]
    exact List.mem_append_right _ List.mem_cons_self
  · obtain ⟨-, isFragment⟩ := veto_eq_none_of_chosen passes
    obtain ⟨before, line, behind, stays, returns⟩ :=
      exists_titleLine_of_stripped parsed (locate_sound found) isFragment written
        applied isStripped
    have style : Newline.ofText m.source.toList = crlf := by
      rw [source_of_parse? parsed, ofText, pair]
      rfl
    obtain ⟨title, titleEq⟩ := List.getLast?_eq_some_iff.1 (returns style)
    have split : encode stripped.toList =
        (before ++ title) ++ 0x0d :: 0x0a :: behind := by
      show ofString stripped = _
      rw [stays, titleEq]
      simp
    have kept := hasPair_of_encode split
    obtain ⟨middle, -, normalEq⟩ := normalizedEnds_eq stripped
    rw [codeEq, normalEq, String.toList_ofList, ofText, kept]
    exact List.mem_append_right _ List.mem_cons_self

/-- A conversion without a formatter returns paired line endings for paired ones
if nothing that is copied or kept ends within one, and no carriage return for
none. -/
theorem convert_keepsLineEndings
    {host : Command.Host}
    {path : String}
    {asked : Option Dialect}
    {outcome : Outcome}
    (unformatted : options.formatter = [])
    (property : '\r' ∉ options.storyProperty.toList)
    (converts : convert host options path source asked = .ok outcome) :
    (WrittenInPairs source.toList →
      (∀ m located fragment,
        Module.parse? (dialectFor (asked <|> options.dialect) path) source =
          some m →
        locate m options.registration = .ok located →
        chosen located = some fragment → KeepsEndings m located fragment) →
      WrittenInPairs outcome.code.toList) ∧
    ('\r' ∉ source.toList → '\r' ∉ outcome.code.toList) := by
  refine ⟨fun inPairs keeps => ?_,
    not_mem_convert unformatted property converts⟩
  obtain ⟨m, changed, parsed, transformed, rfl⟩ := exists_transform converts
  rcases exists_spliced unformatted transformed with
    same | ⟨located, fragment, code, count, spliced, stripped, found, passes,
      written, applied, isStripped, codeEq⟩
  · rw [same, source_of_parse? parsed]
    exact inPairs
  · obtain ⟨-, isFragment⟩ := veto_eq_none_of_chosen passes
    rw [writtenInPairs_iff] at inPairs ⊢
    obtain ⟨paired, feed⟩ := inPairs
    obtain ⟨strippedPaired, strippedFeed⟩ := paired_stripped parsed
      (locate_sound found) isFragment property written applied isStripped paired
      feed (keeps m located fragment parsed found passes)
    obtain ⟨normal, hasPair⟩ := paired_normalizedEnds strippedPaired strippedFeed
    obtain ⟨front, back, pair⟩ := (hasPair_iff _).1 hasPair
    rw [codeEq]
    refine ⟨normal, ?_⟩
    rw [pair]
    simp

theorem keepsEndings_of_copies
    {excluded : List Text}
    {metadata : Metadata}
    {entries : List Story.Entry}
    (metadataRead : Metadata.ofFragment m fragment excluded = .ok metadata)
    (entriesRead : ofFragment m fragment = .ok entries)
    (ends : ∀ expression ∈ copies metadata entries,
      (m.text expression).toList.getLast? ≠ some '\r')
    (stays : importEdit m located fragment.statements = none) :
    KeepsEndings m located fragment := by
  refine ⟨fun expression kept => ?_, fun edit found => ?_⟩
  · exact ends expression ((mem_copies_iff metadataRead entriesRead).2 kept)
  · rw [stays] at found
    contradiction

set_option maxRecDepth 100000 in
/-- A chain over several lines meets the conditions, and its expressions keep
their line endings. -/
theorem convert_keepsLineEndings_lines :
    ∃ outcome, convert (fun _ => .error .noProgram) {} "a.js"
        "storiesOf('A', module)\r\n  .add('x', () =>\r\n\r\n    1);\r\n" =
          .ok outcome ∧
      outcome.hasChanges = true ∧
      WrittenInPairs outcome.code.toList := by
  generalize sourceEq :
    "storiesOf('A', module)\r\n  .add('x', () =>\r\n\r\n    1);\r\n" = source
  have inPairs : WrittenInPairs source.toList := by
    rw [← sourceEq]
    decide +kernel
  have checked : (convert (fun _ => .error .noProgram) {} "a.js"
      source).toOption.any (·.hasChanges) = true := by
    rw [← sourceEq]
    decide +kernel
  have dialectEq : dialectFor (none <|> ({} : Options).dialect) "a.js" =
      .javascript := by
    decide +kernel
  have keeps : (Module.parse? .javascript source).all (fun m =>
      (locate m {}).toOption.all fun located =>
        (chosen located).all fun fragment =>
          (importEdit m located fragment.statements).isNone &&
          ((Metadata.ofFragment m fragment []).toOption.any fun metadata =>
            (ofFragment m fragment).toOption.any fun entries =>
              (copies metadata entries).all fun expression =>
                (m.text expression).toList.getLast? != some '\r')) = true := by
    rw [← sourceEq]
    decide +kernel
  rw [any_toOption] at checked
  obtain ⟨outcome, converts, changes⟩ := checked
  refine ⟨outcome, converts, changes, ?_⟩
  refine (convert_keepsLineEndings rfl (by decide) converts).1 inPairs ?_
  intro m located fragment parsed found passes
  rw [dialectEq] at parsed
  rw [parsed, Option.all_some, found, Except.toOption, Option.all_some, passes,
    Option.all_some, Bool.and_eq_true, any_toOption] at keeps
  obtain ⟨stays, metadata, metadataRead, keeps⟩ := keeps
  rw [any_toOption] at keeps
  obtain ⟨entries, entriesRead, keeps⟩ := keeps
  refine keepsEndings_of_copies metadataRead entriesRead
    (fun expression isCopy => ?_) (Option.isNone_iff_eq_none.1 stays)
  exact bne_iff_ne.1 (List.all_eq_true.1 keeps expression isCopy)

set_option maxRecDepth 100000 in
/-- A comment in the manner of HTML takes the carriage return with it, but not
the line feed. -/
theorem convert_parts_lineEnding :
    WrittenInPairs
        "storiesOf('A', module).add('s', <!-- x\r\n f);\r\n".toList ∧
      ∃ outcome, convert (fun _ => .error .noProgram) {} "a.js"
          "storiesOf('A', module).add('s', <!-- x\r\n f);\r\n" = .ok outcome ∧
        outcome.hasChanges = true ∧
        ¬ WrittenInPairs outcome.code.toList := by
  refine ⟨by decide +kernel, ?_⟩
  have checked : (convert (fun _ => .error .noProgram) {} "a.js"
      "storiesOf('A', module).add('s', <!-- x\r\n f);\r\n").toOption.any
        (fun outcome => outcome.hasChanges &&
          !decide (WrittenInPairs outcome.code.toList)) = true := by
    decide +kernel
  rw [any_toOption] at checked
  obtain ⟨outcome, converts, checked⟩ := checked
  rw [Bool.and_eq_true, Bool.not_eq_true', decide_eq_false_iff_not] at checked
  exact ⟨outcome, converts, checked⟩

end Migration

end StoryMigration
