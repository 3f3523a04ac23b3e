import EqGen.Ir.Lexed

/-! Which expressions SQL reads back as they were built. -/

namespace EqGen.Ir.RoundTrip

open EqGen.Core.Types
open EqGen.Ir.Expr
open EqGen.Ir.Render
open EqGen.Ir.Reading
open EqGen.Ir.Lexed
open EqGen.Lib.SqlTokens
open EqGen.Lib.SqlGrammar
open EqGen.Lib.SqlShape
open EqGen.Lib.SqlParser

section Parts

def ShapedPiece (piece : Piece) : Prop :=
  Shaped piece.1 piece.2

def ReadsPiece (piece : Piece) : Prop :=
  ReadsAs piece.1 piece.2

/-- What stands behind the last expression of a list does not continue it. -/
def Separates (parts : List Part) : Prop :=
  parts = [] ∨ ∃ token rest, parts = .mark token :: rest ∧ continues token = false

theorem spaced_list {pieces : List Piece} (h : ∀ piece ∈ pieces, ShapedPiece piece)
    {rest : List Part} (hrest : Spaced rest) (hseparates : Separates rest) :
    Spaced (listParts pieces ++ rest) := by
  induction pieces with
  | nil => exact hrest
  | cons piece pieces ih =>
      have hpiece : ShapedPiece piece := h piece List.mem_cons_self
      cases pieces with
      | nil => exact ⟨hpiece, hrest, hseparates⟩
      | cons next pieces =>
          have hspaced := ih fun other hmem => h other (List.mem_cons_of_mem _ hmem)
          exact ⟨hpiece, ⟨rfl, hspaced⟩, .inr ⟨comma, _, rfl, rfl⟩⟩

theorem mem_listParts {tokens : List Token} {read : Tree} (pieces : List Piece) :
    .expr tokens read ∈ listParts pieces ↔ (tokens, read) ∈ pieces := by
  induction pieces with
  | nil => simp [listParts]
  | cons piece pieces ih =>
      cases pieces with
      | nil => simp [listParts, part, Prod.ext_iff]
      | cons next pieces =>
          rw [listParts, List.mem_cons, List.mem_cons, ih]
          simp [part, Prod.ext_iff]

theorem spaced_by (by_ : String) {pieces : List Piece} (h : ∀ piece ∈ pieces, ShapedPiece piece)
    {rest : List Part} (hrest : Spaced rest) (hseparates : Separates rest) :
    Spaced (byParts by_ pieces ++ rest) ∧ Separates (byParts by_ pieces ++ rest) := by
  unfold byParts
  split
  · exact ⟨hrest, hseparates⟩
  · exact ⟨⟨rfl, rfl, spaced_list h hrest hseparates⟩, .inr ⟨_, _, rfl, rfl⟩⟩

theorem mem_byParts {by_ : String} {tokens : List Token} {read : Tree} (pieces : List Piece) :
    .expr tokens read ∈ byParts by_ pieces ↔ (tokens, read) ∈ pieces := by
  unfold byParts
  split
  · next hempty => simp [List.isEmpty_iff.mp hempty]
  · simp [mem_listParts]

theorem spaced_marks {tokens : List Token} (h : ∀ token ∈ tokens, isMark token = true) :
    Spaced (tokens.map Part.mark) := by
  induction tokens with
  | nil => trivial
  | cons token tokens ih =>
      exact ⟨h token List.mem_cons_self, ih fun other hmem => h other (List.mem_cons_of_mem _ hmem)⟩

theorem spaced_frame (frame : Option WindowFrameKind) :
    Spaced (frameParts frame) ∧ Separates (frameParts frame) := by
  cases frame with
  | none => exact ⟨trivial, .inl rfl⟩
  | some frame =>
      refine ⟨spaced_marks ?_, .inr ⟨_, _, rfl, rfl⟩⟩
      simp [frameMarks, isMark, keyword]

theorem mem_frameParts {tokens : List Token} {read : Tree} (frame : Option WindowFrameKind) :
    .expr tokens read ∉ frameParts frame := by
  cases frame <;> simp [frameParts]

theorem spaced_window {partitionBy orderBy : List Piece}
    (hpartition : ∀ piece ∈ partitionBy, ShapedPiece piece)
    (horder : ∀ piece ∈ orderBy, ShapedPiece piece) (frame : Option WindowFrameKind) :
    Spaced (windowParts partitionBy orderBy frame) := by
  have hframe := spaced_frame frame
  have hordered := spaced_by "ORDER" horder hframe.1 hframe.2
  exact (spaced_by _ hpartition hordered.1 hordered.2).1

theorem mem_windowParts {tokens : List Token} {read : Tree} (partitionBy orderBy : List Piece)
    (frame : Option WindowFrameKind) :
    .expr tokens read ∈ windowParts partitionBy orderBy frame ↔
      (tokens, read) ∈ partitionBy ∨ (tokens, read) ∈ orderBy := by
  rw [windowParts, List.mem_append, List.mem_append, mem_byParts, mem_byParts]
  simp [mem_frameParts]

theorem head_windowParts (partitionBy orderBy : List Piece) (frame : Option WindowFrameKind) :
    windowParts partitionBy orderBy frame = [] ∨
      ∃ token rest, windowParts partitionBy orderBy frame = .mark token :: rest ∧
        isMark token = true := by
  cases partitionBy with
  | cons piece pieces => exact .inr ⟨_, _, rfl, rfl⟩
  | nil =>
      cases orderBy with
      | cons piece pieces => exact .inr ⟨_, _, rfl, rfl⟩
      | nil =>
          cases frame with
          | none => exact .inl rfl
          | some frame => exact .inr ⟨_, _, rfl, rfl⟩

theorem partClause_list (pieces : List Piece) (rest : List Part) :
    partClause (listParts pieces ++ rest) =
      listClause (pieces.map Prod.snd) (partClause rest) := by
  induction pieces with
  | nil => rfl
  | cons piece pieces ih =>
      cases pieces with
      | nil => rfl
      | cons next pieces =>
          have : partClause (listParts (piece :: next :: pieces) ++ rest) =
              .expr piece.2 (.mark comma (partClause (listParts (next :: pieces) ++ rest))) := rfl
          rw [this, ih]
          rfl

theorem partClause_by (by_ : String) (pieces : List Piece) (rest : List Part) :
    partClause (byParts by_ pieces ++ rest) =
      byClause by_ (pieces.map Prod.snd) (partClause rest) := by
  cases pieces with
  | nil => rfl
  | cons piece pieces =>
      have : partClause (byParts by_ (piece :: pieces) ++ rest) = .mark (keyword by_)
          (.mark (keyword "BY") (partClause (listParts (piece :: pieces) ++ rest))) := rfl
      rw [this, partClause_list]
      rfl

theorem partClause_window (partitionBy orderBy : List Piece) (frame : Option WindowFrameKind) :
    partClause (windowParts partitionBy orderBy frame) =
      byClause "PARTITION" (partitionBy.map Prod.snd)
        (byClause "ORDER" (orderBy.map Prod.snd) (frameClause frame)) := by
  rw [windowParts, partClause_by, partClause_by]
  cases frame <;> rfl

theorem trees_eq (nodes : List ExpressionNode) : trees nodes = (pieces nodes).map Prod.snd := by
  induction nodes with
  | nil => rfl
  | cons node nodes ih => rw [trees, pieces, List.map_cons, ih]

theorem treeOption_eq (arg : Option ExpressionNode) :
    treeOption arg = (piecesOption arg).map Prod.snd := by
  cases arg <;> rfl

theorem tree_window (function : WindowFunction) (arg : Option ExpressionNode)
    (partitionBy orderBy : List ExpressionNode) (frame : Option WindowFrameKind)
    (resultType : SqlType) :
    tree (.windowCall function arg partitionBy orderBy frame resultType) =
      .binary .over (callTree (word function.value) (listParts (piecesOption arg)))
        (.enclosed .round (partClause
          (windowParts (pieces partitionBy) (pieces orderBy) frame))) := by
  have harg := partClause_list (piecesOption arg) []
  rw [List.append_nil] at harg
  rw [tree, trees_eq, trees_eq, treeOption_eq, partClause_window, callTree, harg]
  rfl

end Parts

section Pieces

variable {first second : Piece} {mark : Token} {parts : List Part}

theorem spaced_single (h : ShapedPiece first) : Spaced [part first] :=
  ⟨h, trivial, .inl rfl⟩

theorem spaced_pair (hfirst : ShapedPiece first) (hsecond : ShapedPiece second)
    (hmark : isMark mark = true) (hcontinues : continues mark = false) :
    Spaced [part first, .mark mark, part second] :=
  ⟨hfirst, ⟨hmark, spaced_single hsecond⟩, .inr ⟨_, _, rfl, hcontinues⟩⟩

theorem spaced_case {third : Piece} (hfirst : ShapedPiece first) (hsecond : ShapedPiece second)
    (hthird : ShapedPiece third) :
    Spaced [.mark (keyword "WHEN"), part first, .mark (keyword "THEN"), part second,
      .mark (keyword "ELSE"), part third] :=
  ⟨rfl, hfirst, ⟨rfl, hsecond, ⟨rfl, spaced_single hthird⟩, .inr ⟨_, _, rfl, rfl⟩⟩,
    .inr ⟨_, _, rfl, rfl⟩⟩

theorem shaped_callPiece (name : String) (h : Spaced parts) :
    ShapedPiece (callPiece name parts) :=
  shaped_call rfl h

theorem shaped_atomPiece (token : Token) (h : isAtom token = true) :
    ShapedPiece (atomPiece token) :=
  shaped_atom h

theorem reads_atomPiece (token : Token) (h : isAtom token = true) :
    ReadsPiece (atomPiece token) :=
  ⟨_, _, .atom h⟩

theorem readsPiece_call_iff (name : String) (h : Spaced parts) :
    ReadsPiece (callPiece name parts) ↔
      ∀ tokens read, .expr tokens read ∈ parts → ReadsAs tokens read :=
  readsAs_call_iff rfl h

theorem readsPiece_single_iff (name : String) (h : ShapedPiece first) :
    ReadsPiece (callPiece name [part first]) ↔ ReadsPiece first := by
  rw [readsPiece_call_iff name (spaced_single h)]
  simp [part, ReadsPiece]

theorem readsPiece_pair_iff (name : String) (hfirst : ShapedPiece first)
    (hsecond : ShapedPiece second) (hmark : isMark mark = true)
    (hcontinues : continues mark = false) :
    ReadsPiece (callPiece name [part first, .mark mark, part second]) ↔
      ReadsPiece first ∧ ReadsPiece second := by
  rw [readsPiece_call_iff name (spaced_pair hfirst hsecond hmark hcontinues)]
  constructor
  · intro h
    exact ⟨h _ _ (by simp [part]), h _ _ (by simp [part])⟩
  · rintro ⟨hreads, hreads'⟩ tokens read hmem
    simp only [part, List.mem_cons, List.not_mem_nil, reduceCtorEq, or_false, false_or,
      Part.expr.injEq] at hmem
    rcases hmem with ⟨rfl, rfl⟩ | ⟨rfl, rfl⟩
    · exact hreads
    · exact hreads'

/-- Both binary codecs call four functions around the argument, which alone can be misread. -/
theorem binaryCodec_iff (fmt : String) (h : ShapedPiece first) :
    ShapedPiece (binaryCodecPiece fmt first) ∧
      (ReadsPiece (binaryCodecPiece fmt first) ↔ ReadsPiece first) := by
  have htype : ShapedPiece (atomPiece (word "BYTEA")) := shaped_atomPiece _ rfl
  have hformat : ShapedPiece (atomPiece (.string fmt.toList)) := shaped_atomPiece _ rfl
  have hutf : ShapedPiece (atomPiece (.string "UTF8".toList)) := shaped_atomPiece _ rfl
  have hmark : isMark (keyword "AS") = true := rfl
  have hcomma : isMark comma = true := rfl
  have hcast := shaped_callPiece "CAST" (spaced_pair h htype hmark rfl)
  have hencode := shaped_callPiece "encode" (spaced_pair hcast hformat hcomma rfl)
  have hdecode := shaped_callPiece "decode" (spaced_pair hencode hformat hcomma rfl)
  refine ⟨shaped_callPiece "convert_from" (spaced_pair hdecode hutf hcomma rfl), ?_⟩
  rw [binaryCodecPiece, readsPiece_pair_iff _ hdecode hutf hcomma rfl,
    readsPiece_pair_iff _ hencode hformat hcomma rfl, readsPiece_pair_iff _ hcast hformat hcomma rfl,
    readsPiece_pair_iff _ h htype hmark rfl]
  simp only [reads_atomPiece _ (rfl : isAtom (word "BYTEA") = true),
    reads_atomPiece _ (rfl : isAtom (.string fmt.toList) = true),
    reads_atomPiece _ (rfl : isAtom (.string "UTF8".toList) = true), and_true]

theorem grouped_iff {tokens : List Token} {read : Tree} (hbalanced : Balanced tokens)
    (hread : ∀ clause, read ≠ .enclosed .round clause) :
    ReadsAs (.opening .round :: (tokens ++ [.closing .round])) read ↔ ReadsAs tokens read := by
  constructor
  · rintro ⟨left, right, h⟩
    exact grouped_inv h hbalanced hread
  · rintro ⟨left, right, h⟩
    exact ⟨_, _, .grouped h⟩

theorem jsonPack_iff (h : ShapedPiece first) :
    ShapedPiece (codecTokens .jsonPack first, codecTree .jsonPack first.2) ∧
      (ReadsAs (codecTokens .jsonPack first) (codecTree .jsonPack first.2) ↔
        ReadsPiece first) := by
  have hkey : ShapedPiece (atomPiece (.string "v".toList)) := shaped_atomPiece _ rfl
  have hcomma : isMark comma = true := rfl
  have hspaced := spaced_pair hkey h hcomma rfl
  have hbuilt := shaped_callPiece "jsonb_build_object" hspaced
  have hbinary : ShapedPiece (jsonPackPiece first) := shaped_binary jsonArrow hbuilt hkey
  refine ⟨Shaped.grouped hbinary, ?_⟩
  refine Iff.trans (grouped_iff hbinary.balanced (by simp [codecTree])) ?_
  have hbuilt_iff := readsPiece_pair_iff "jsonb_build_object" hkey h hcomma rfl
  constructor
  · rintro ⟨left, right, hreads⟩
    obtain ⟨⟨left, right, hfirst, -⟩, -⟩ := binary_inv hreads hbuilt
    exact (hbuilt_iff.mp ⟨_, _, hfirst⟩).2
  · intro hfirst
    have hparts := (readsPiece_call_iff "jsonb_build_object" hspaced).mp
      (hbuilt_iff.mpr ⟨reads_atomPiece _ rfl, hfirst⟩)
    exact ⟨_, _, .binary (reads_call rfl hspaced hparts) (.atom rfl) (.inl (by decide))
      (by decide)⟩

end Pieces

section Nodes

def nodePiece (node : ExpressionNode) : Piece :=
  (nodeTokens node, tree node)

theorem pieces_eq_map (nodes : List ExpressionNode) : pieces nodes = nodes.map nodePiece :=
  pieces_eq nodes

theorem codec_iff (codec : ValueCodec) {piece : Piece} (h : ShapedPiece piece) :
    Shaped (codecTokens codec piece) (codecTree codec piece.2) ∧
      (ReadsAs (codecTokens codec piece) (codecTree codec piece.2) ↔ ReadsPiece piece) := by
  cases codec with
  | jsonPack => exact jsonPack_iff h
  | hex => exact binaryCodec_iff "hex" h
  | base64 => exact binaryCodec_iff "base64" h

theorem shaped_operand {node : ExpressionNode} (h : ShapedPiece (nodePiece node)) :
    Shaped (operandTokens node (nodeTokens node)) (tree node) := by
  unfold operandTokens
  split
  · exact h
  · exact Shaped.grouped h

theorem readsClause_word (text : String) :
    ReadsClause [word text] (.expr (.atom (word text)) .nil) :=
  .expr (.atom (by simp [isAtom, word])) (by simp [Halts]) .nil

theorem readsClause_typeCall (name : String) (arguments : List Nat) :
    ReadsClause
      (callTokens (word name) (listParts (arguments.map fun n => atomPiece (numberToken n))))
      (.expr (call name (listClause (arguments.map fun n => .atom (numberToken n)) .nil)) .nil) := by
  have hshaped : ∀ piece ∈ arguments.map (fun n => atomPiece (numberToken n)),
      ShapedPiece piece := by
    simpa using fun n _ => shaped_atomPiece (numberToken n) rfl
  have hnil : Spaced [] := trivial
  have hspaced := spaced_list hshaped hnil (.inl rfl)
  have hclause := partClause_list (arguments.map fun n => atomPiece (numberToken n)) []
  rw [List.append_nil] at hspaced hclause
  have hname : isAtom (word name) = true := rfl
  have hreads := reads_call hname hspaced fun tokens read hmem => by
    rw [mem_listParts, List.mem_map] at hmem
    obtain ⟨n, -, heq⟩ := hmem
    have hatom := reads_atomPiece (numberToken n) rfl
    rw [heq] at hatom
    exact hatom
  have := ReadsClause.expr hreads (by simp [Halts]) .nil
  rw [List.append_nil, callTree, hclause, List.map_map] at this
  exact this

theorem readsClause_type (dataType : SqlType) :
    ReadsClause (typeTokens dataType) (typeClause dataType) := by
  unfold typeTokens typeClause
  cases hkind : dataType.kind with
  | double =>
      have hhalts : Halts [word "PRECISION"] := by simp [Halts, continues, word]
      exact .expr (.atom (by simp [isAtom, word])) hhalts (readsClause_word "PRECISION")
  | _ =>
      cases hargs : typeArguments dataType with
      | nil => exact readsClause_word _
      | cons n arguments => exact readsClause_typeCall _ (n :: arguments)

theorem reads_typedNull (dataType : SqlType) :
    Reads (min Applied.call.level shut) shut (nodeTokens (.typedNull dataType))
      (tree (.typedNull dataType)) := by
  have hclause : ReadsClause (.constant .null :: keyword "AS" :: typeTokens dataType)
      (.expr (.atom (.constant .null)) (.mark (keyword "AS") (typeClause dataType))) :=
    .expr (.atom rfl) (by simp [Halts, continues, keyword]) (.mark rfl (readsClause_type dataType))
  exact .apply (.atom rfl) hclause (Nat.le_succ 15)

theorem reads_int (value : Int) :
    ∃ right, 12 ≤ right ∧ Reads shut right (intTokens value) (intTree value) := by
  unfold intTokens intTree
  split
  · exact ⟨_, by decide, .unary rfl (.atom rfl) (by decide)⟩
  · exact ⟨_, by decide, .atom rfl⟩

theorem isAtom_of_isName {token : Token} (h : isName token = true) : isAtom token = true := by
  cases token <;> simp_all [isName, isAtom]

theorem reads_column (name : Name) (columnType : SqlType) (relationAlias : Option Name) :
    ∃ left right, 15 ≤ left ∧ 12 ≤ right ∧
      Reads left right (nodeTokens (.columnRef name columnType relationAlias))
        (tree (.columnRef name columnType relationAlias)) := by
  have hname := isAtom_of_isName name.isName
  cases relationAlias with
  | none => exact ⟨_, _, by decide, by decide, .atom hname⟩
  | some relation =>
      have hrelation := isAtom_of_isName relation.isName
      have hdot : Infix.level (.symbol .dot) < shut := by decide
      exact ⟨_, _, by decide, by decide, .binary (.atom hrelation) (.atom hname) (.inl hdot) hdot⟩

/-- The pieces of a window call: its argument, its partition and its order. -/
theorem spaced_windowCall {arg : Option ExpressionNode} {partitionBy orderBy : List ExpressionNode}
    (harg : ∀ node ∈ arg, ShapedPiece (nodePiece node))
    (hpartition : ∀ node ∈ partitionBy, ShapedPiece (nodePiece node))
    (horder : ∀ node ∈ orderBy, ShapedPiece (nodePiece node)) (frame : Option WindowFrameKind) :
    Spaced (listParts (piecesOption arg)) ∧
      Spaced (windowParts (pieces partitionBy) (pieces orderBy) frame) := by
  constructor
  · cases arg with
    | none => trivial
    | some node => exact spaced_single (harg node rfl)
  · rw [pieces_eq_map, pieces_eq_map]
    exact spaced_window (by simpa using hpartition) (by simpa using horder) frame

/-- The tokens of a node are balanced and are those of its tree. -/
theorem shaped_node (node : ExpressionNode) : ShapedPiece (nodePiece node) := by
  induction node using node_induction with
  | columnRef name columnType relationAlias =>
      obtain ⟨left, right, -, -, h⟩ := reads_column name columnType relationAlias
      exact shaped_of_reads h
  | intLiteral value =>
      obtain ⟨right, -, h⟩ := reads_int value
      exact shaped_of_reads h
  | booleanLiteral value => exact shaped_atom rfl
  | rawExpr sql exprType =>
      obtain ⟨-, left, right, h⟩ := sql.reads
      exact shaped_of_reads h
  | typedNull nullType => exact shaped_of_reads (reads_typedNull nullType)
  | generatedPredicate value =>
      obtain ⟨-, left, right, h⟩ := value.reads
      exact shaped_of_reads (.grouped h)
  | comparison operator left right ihLeft ihRight =>
      exact shaped_binary _ (shaped_operand ihLeft) (shaped_operand ihRight)
  | boolOp operator left right ihLeft ihRight =>
      exact shaped_binary _ (shaped_operand ihLeft) (shaped_operand ihRight)
  | not operand ih => exact shaped_unary rfl (shaped_operand ih)
  | isNull operand negated ih => exact shaped_test _ _ (shaped_operand ih)
  | mod operand modulus ih =>
      obtain ⟨right, -, h⟩ := reads_int modulus
      have hint : ShapedPiece (intTokens modulus, intTree modulus) := shaped_of_reads h
      have hcomma : isMark comma = true := rfl
      exact shaped_callPiece "MOD" (spaced_pair ih hint hcomma rfl)
  | case condition thenExpr elseExpr resultType ihCondition ihThen ihElse =>
      exact shaped_enclosed .case (spaced_case ihCondition ihThen ihElse)
  | aggregateCall function arg resultType ih =>
      exact shaped_callPiece function.value (spaced_single ih)
  | valueCodecRoundTrip codec arg resultType ih => exact (codec_iff codec ih).1
  | windowCall function arg partitionBy orderBy frame resultType ihArg ihPartition ihOrder =>
      obtain ⟨harg, hwindow⟩ := spaced_windowCall ihArg ihPartition ihOrder frame
      rw [ShapedPiece, nodePiece, tree_window]
      exact shaped_binary .over (shaped_callPiece function.value harg)
        (shaped_enclosed .round hwindow)

/-- A bare operand other than raw text is closed enough for every place. -/
theorem reads_tight {node : ExpressionNode} (hatomic : atomic node = true)
    (hraw : ∀ sql exprType, node ≠ .rawExpr sql exprType)
    (h : ReadsAs (nodeTokens node) (tree node)) :
    ∃ left right, 15 ≤ left ∧ 12 ≤ right ∧ Reads left right (nodeTokens node) (tree node) := by
  cases node with
  | columnRef name columnType relationAlias => exact reads_column name columnType relationAlias
  | intLiteral value =>
      obtain ⟨right, hright, hreads⟩ := reads_int value
      exact ⟨_, _, by decide, hright, hreads⟩
  | booleanLiteral value => exact ⟨_, _, by decide, by decide, .atom rfl⟩
  | rawExpr sql exprType => exact absurd rfl (hraw sql exprType)
  | typedNull nullType => exact ⟨_, _, by decide, by decide, reads_typedNull nullType⟩
  | generatedPredicate value =>
      obtain ⟨-, left, right, hreads⟩ := value.reads
      exact ⟨_, _, by decide, by decide, .grouped hreads⟩
  | mod operand modulus =>
      obtain ⟨right, -, hint⟩ := reads_int modulus
      have hint' : ShapedPiece (intTokens modulus, intTree modulus) := shaped_of_reads hint
      have hcomma : isMark comma = true := rfl
      have hspaced := spaced_pair (shaped_node operand) hint' hcomma rfl
      have hparts := (readsPiece_call_iff "MOD" hspaced).mp h
      exact ⟨_, _, by decide, by decide, reads_call rfl hspaced hparts⟩
  | _ => cases hatomic

theorem tree_ne_enclosed {node : ExpressionNode} (h : atomic node = false) (clause : Clause) :
    tree node ≠ .enclosed .round clause := by
  cases node with
  | comparison | boolOp | not | isNull | windowCall => simp [tree]
  | case => simp [tree]
  | aggregateCall => simp [tree, call]
  | valueCodecRoundTrip codec arg resultType =>
      cases codec <;> simp [tree, codecTree, binaryCodecTree, call]
  | _ => cases h

/-- An operand reads at its place if and only if its own operands fit, and it fits itself when it
is raw text. -/
theorem operand_iff {node : ExpressionNode} {place : Nat → Nat → Prop}
    (hplace : ∀ left right, 15 ≤ left → 12 ≤ right → place left right)
    (ih : ReadsPiece (nodePiece node) ↔ OperandsFit node) :
    (∃ left right, Reads left right (operandTokens node (nodeTokens node)) (tree node) ∧
      place left right) ↔ BareFits place node ∧ OperandsFit node := by
  by_cases hraw : ∃ sql exprType, node = .rawExpr sql exprType
  · obtain ⟨sql, exprType, rfl⟩ := hraw
    simp [operandTokens, atomic, nodeTokens, tree, BareFits, OperandsFit]
  have hbare : BareFits place node := by
    cases node with
    | rawExpr sql exprType => exact absurd ⟨_, _, rfl⟩ hraw
    | _ => trivial
  rw [← ih]
  unfold operandTokens
  split
  · next hatomic =>
      constructor
      · rintro ⟨left, right, h, -⟩
        exact ⟨hbare, _, _, h⟩
      · rintro ⟨-, h⟩
        obtain ⟨left, right, hleft, hright, hreads⟩ :=
          reads_tight hatomic (fun sql exprType heq => hraw ⟨sql, exprType, heq⟩) h
        exact ⟨_, _, hreads, hplace _ _ hleft hright⟩
  · next hcompound =>
      have htree := tree_ne_enclosed (Bool.not_eq_true _ ▸ hcompound)
      constructor
      · rintro ⟨left, right, h, -⟩
        exact ⟨hbare, grouped_inv h (shaped_node node).balanced htree⟩
      · rintro ⟨-, left, right, h⟩
        exact ⟨_, _, .grouped h, hplace _ _ (by decide) (by decide)⟩

/-- A binary expression reads if and only if both operands read at their places. -/
theorem binary_iff {operator : Infix} (hlevel : operator.level < 12) {left right : ExpressionNode}
    (ihLeft : ReadsPiece (nodePiece left) ↔ OperandsFit left)
    (ihRight : ReadsPiece (nodePiece right) ↔ OperandsFit right) :
    ReadsAs (operandTokens left (nodeTokens left) ++
        (operator.tokens ++ operandTokens right (nodeTokens right)))
      (.binary operator (tree left) (tree right)) ↔
      (BareFits (fun _ right => operator.Follows right) left ∧ OperandsFit left) ∧
        BareFits (fun left _ => operator.level < left) right ∧ OperandsFit right := by
  rw [← operand_iff (fun _ _ _ hright => .inl (Nat.lt_of_lt_of_le hlevel hright)) ihLeft,
    ← operand_iff (fun _ _ hleft _ => by omega) ihRight]
  constructor
  · rintro ⟨_, _, h⟩
    exact binary_inv h (shaped_operand (shaped_node left))
  · rintro ⟨⟨_, _, hfirst, hfollows⟩, _, _, hsecond, hbinds⟩
    exact ⟨_, _, .binary hfirst hsecond hfollows hbinds⟩

theorem operandsFitAll_iff (nodes : List ExpressionNode) :
    OperandsFitAll nodes ↔ ∀ node ∈ nodes, OperandsFit node := by
  induction nodes with
  | nil => simp [OperandsFitAll]
  | cons node nodes ih => simp [OperandsFitAll, ih]

theorem operandsFitOption_iff (arg : Option ExpressionNode) :
    OperandsFitOption arg ↔ ∀ node ∈ arg.toList, OperandsFit node := by
  cases arg <;> simp [OperandsFitOption]

/-- A window call reads if and only if its argument, its partition and its order do. -/
theorem window_iff {name : Token} (hname : isAtom name = true) {parts window : List Part}
    (hparts : Spaced parts) (hwindow : Spaced window)
    (hhead : window = [] ∨ ∃ token rest, window = .mark token :: rest ∧ isMark token = true) :
    ReadsAs (callTokens name parts ++ (Infix.over.tokens ++
        .opening .round :: (partTokens window ++ [.closing .round])))
      (.binary .over (callTree name parts) (.enclosed .round (partClause window))) ↔
      (∀ tokens read, .expr tokens read ∈ parts → ReadsAs tokens read) ∧
        ∀ tokens read, .expr tokens read ∈ window → ReadsAs tokens read := by
  constructor
  · rintro ⟨_, _, h⟩
    obtain ⟨⟨_, _, hcall, -⟩, _, _, hclauses, -⟩ := binary_inv h (shaped_call hname hparts)
    refine ⟨(readsAs_call_iff hname hparts).mp ⟨_, _, hcall⟩,
      (readsClause_iff hwindow).mp (enclosed_inv hclauses ?_)⟩
    rcases hhead with rfl | ⟨token, rest, rfl, htoken⟩
    · simp [partTokens]
    · simpa [partTokens] using htoken
  · rintro ⟨hcall, hclauses⟩
    have hinner := (readsClause_iff hwindow).mpr hclauses
    have hwhole : Reads shut shut (.opening .round :: (partTokens window ++ [.closing .round]))
        (.enclosed .round (partClause window)) := by
      refine .enclosed hinner fun read _ => ?_
      rcases hhead with rfl | ⟨token, rest, rfl, -⟩ <;> simp [partClause]
    exact ⟨_, _, .binary (reads_call hname hparts hcall) hwhole (.inl (by decide)) (by decide)⟩

theorem readsAll_iff {nodes : List ExpressionNode}
    (ih : ∀ node ∈ nodes, ReadsPiece (nodePiece node) ↔ OperandsFit node) :
    (∀ tokens read, (tokens, read) ∈ nodes.map nodePiece → ReadsAs tokens read) ↔
      ∀ node ∈ nodes, OperandsFit node := by
  constructor
  · intro h node hnode
    exact (ih node hnode).mp (h _ _ (List.mem_map_of_mem hnode))
  · intro h tokens read hmem
    obtain ⟨node, hnode, heq⟩ := List.mem_map.mp hmem
    have := (ih node hnode).mpr (h node hnode)
    rwa [heq] at this

/-- The tokens of a node read as its tree if and only if its raw operands fit. -/
theorem reads_node_iff (node : ExpressionNode) :
    ReadsPiece (nodePiece node) ↔ OperandsFit node := by
  induction node using node_induction with
  | columnRef name columnType relationAlias =>
      obtain ⟨left, right, -, -, h⟩ := reads_column name columnType relationAlias
      exact iff_of_true ⟨_, _, h⟩ trivial
  | intLiteral value =>
      obtain ⟨right, -, h⟩ := reads_int value
      exact iff_of_true ⟨_, _, h⟩ trivial
  | booleanLiteral value => exact iff_of_true ⟨_, _, .atom rfl⟩ trivial
  | rawExpr sql exprType => exact iff_of_true sql.reads.2 trivial
  | typedNull nullType => exact iff_of_true ⟨_, _, reads_typedNull nullType⟩ trivial
  | generatedPredicate value =>
      obtain ⟨-, left, right, h⟩ := value.reads
      exact iff_of_true ⟨_, _, .grouped h⟩ trivial
  | comparison operator left right ihLeft ihRight =>
      have hlevel : (comparisonInfix operator).level < 12 := by cases operator <;> decide
      exact binary_iff hlevel ihLeft ihRight
  | boolOp operator left right ihLeft ihRight =>
      have hlevel : (boolInfix operator).level < 12 := by cases operator <;> decide
      exact binary_iff hlevel ihLeft ihRight
  | not operand ih =>
      have hplace : ∀ left right, 15 ≤ left → 12 ≤ right → notLevel < left :=
        fun left _ hleft _ => Nat.lt_of_lt_of_le (by decide) hleft
      refine Iff.trans ?_ (operand_iff hplace ih)
      constructor
      · rintro ⟨_, _, h⟩
        exact unary_inv rfl h
      · rintro ⟨_, _, h, hbinds⟩
        exact ⟨_, _, .unary rfl h hbinds⟩
  | isNull operand negated ih =>
      have hplace : ∀ left right, 15 ≤ left → 12 ≤ right → testLevel ≤ right :=
        fun _ right _ hright => Nat.le_trans (by decide) hright
      refine Iff.trans ?_ (operand_iff hplace ih)
      constructor
      · rintro ⟨_, _, h⟩
        exact test_inv h
      · rintro ⟨_, _, h, hbinds⟩
        exact ⟨_, _, .test h hbinds⟩
  | mod operand modulus ih =>
      obtain ⟨right, -, h⟩ := reads_int modulus
      have hint : ShapedPiece (intTokens modulus, intTree modulus) := shaped_of_reads h
      have hcomma : isMark comma = true := rfl
      have hreads : ReadsPiece (intTokens modulus, intTree modulus) := ⟨_, _, h⟩
      refine Iff.trans (readsPiece_pair_iff "MOD" (shaped_node operand) hint hcomma rfl) ?_
      rw [ih]
      exact and_iff_left hreads
  | case condition thenExpr elseExpr resultType ihCondition ihThen ihElse =>
      have hiff := readsClause_iff
        (spaced_case (shaped_node condition) (shaped_node thenExpr) (shaped_node elseExpr))
      rw [OperandsFit, ← ihCondition, ← ihThen, ← ihElse]
      constructor
      · rintro ⟨_, _, h⟩
        have hparts := hiff.mp (enclosed_inv h (by simp [partTokens, keyword, isMark]))
        exact ⟨hparts _ _ (by simp [part]), hparts _ _ (by simp [part]),
          hparts _ _ (by simp [part])⟩
      · rintro ⟨hcondition, hthen, helse⟩
        refine ⟨_, _, .enclosed (hiff.mpr fun tokens read hmem => ?_) (by simp)⟩
        simp only [part, List.mem_cons, List.not_mem_nil, reduceCtorEq, or_false, false_or,
          Part.expr.injEq] at hmem
        rcases hmem with ⟨rfl, rfl⟩ | ⟨rfl, rfl⟩ | ⟨rfl, rfl⟩
        · exact hcondition
        · exact hthen
        · exact helse
  | aggregateCall function arg resultType ih =>
      exact (readsPiece_single_iff function.value (shaped_node arg)).trans ih
  | valueCodecRoundTrip codec arg resultType ih =>
      exact (codec_iff codec (shaped_node arg)).2.trans ih
  | windowCall function arg partitionBy orderBy frame resultType ihArg ihPartition ihOrder =>
      obtain ⟨harg, hwindow⟩ := spaced_windowCall (fun node _ => shaped_node node)
        (fun node _ => shaped_node node) (fun node _ => shaped_node node) frame
      rw [ReadsPiece, nodePiece, tree_window, OperandsFit, operandsFitOption_iff,
        operandsFitAll_iff, operandsFitAll_iff]
      refine Iff.trans (window_iff rfl harg hwindow (head_windowParts _ _ frame)) ?_
      have hargument : piecesOption arg = arg.toList.map nodePiece := by cases arg <;> rfl
      simp only [mem_listParts, mem_windowParts, or_imp, forall_and, pieces_eq_map, hargument]
      rw [readsAll_iff (by simpa using ihArg), readsAll_iff ihPartition, readsAll_iff ihOrder]

theorem bareFits_of_not_raw {node : ExpressionNode} (place : Nat → Nat → Prop)
    (h : ∀ sql exprType, node ≠ .rawExpr sql exprType) : BareFits place node := by
  cases node with
  | rawExpr sql exprType => exact absurd rfl (h sql exprType)
  | _ => trivial

/-- `conjoin` keeps the operands fitting unless one of the two is raw text. -/
theorem operandsFit_conjoin {existing : Option ExpressionNode} {extra : ExpressionNode}
    (hexisting : ∀ node ∈ existing, OperandsFit node ∧ ∀ sql type, node ≠ .rawExpr sql type)
    (hextra : OperandsFit extra) (hraw : ∀ sql type, extra ≠ .rawExpr sql type) :
    OperandsFit (conjoin existing extra) := by
  cases existing with
  | none => exact hextra
  | some node =>
      obtain ⟨hnode, hnodeRaw⟩ := hexisting node rfl
      exact ⟨⟨bareFits_of_not_raw _ hnodeRaw, hnode⟩, bareFits_of_not_raw _ hraw, hextra⟩

/-- The constant predicates that are built from plugin text always fit. -/
theorem operandsFit_determined (value : RawText) :
    OperandsFit (determinedTrue (.generatedPredicate value)) ∧
      OperandsFit (determinedFalse (.generatedPredicate value)) := by
  simp [determinedTrue, determinedFalse, OperandsFit, BareFits]

end Nodes

/-- SQL reads a rendered expression back as it was built if and only if its raw operands fit where
they stand bare. Every name in it is one identifier. -/
theorem unambiguous_iff (node : ExpressionNode) : Unambiguous node ↔ OperandsFit node := by
  obtain ⟨hcomplete, hlex⟩ := lexes_expr node
  rw [← reads_node_iff]
  constructor
  · intro h
    have := ((h (tree node)).mpr rfl).2
    rwa [hlex] at this
  · intro h read
    rw [ReadsText, hlex]
    constructor
    · rintro ⟨-, hread⟩
      exact readsAs_unique hread h
    · rintro rfl
      exact ⟨hcomplete, h⟩

/-- The column `a`. -/
def columnA : Name where
  text := "a"
  token := word "a"
  isName := rfl
  complete := by decide
  lexed := by decide

example : expr (.not (.comparison .lt (.columnRef columnA { kind := .integer } (some columnA))
    (.intLiteral 1))) = "NOT (a.a < 1)" := by
  decide +kernel

theorem reads_pair (operator : Infix) {first second : Token} (hfirst : isAtom first = true)
    (hsecond : isAtom second = true) :
    Reads operator.level operator.level (first :: (operator.tokens ++ [second]))
      (.binary operator (.atom first) (.atom second)) := by
  have hlevel := operator.level_lt_shut
  have h := Reads.binary (.atom hfirst) (.atom hsecond) (.inl hlevel) hlevel
  rwa [Nat.min_eq_left (Nat.le_of_lt hlevel)] at h

/-- `a OR b` as text of a dialect. -/
def disjunction : RawText where
  text := "a OR b"
  tree := .binary .or (.atom (word "a")) (.atom (word "b"))
  reads := by
    have hlex : Lexes "a OR b".toList [word "a", .or, word "b"] := by decide +kernel
    exact ⟨hlex.1, hlex.2 ▸ ⟨_, _, reads_pair .or rfl rfl⟩⟩

/-- SQL reads `a OR b = 1` as `a OR (b = 1)`. -/
theorem unambiguous_fails : ¬ ∀ node, Unambiguous node := by
  intro h
  have hnode := h (.comparison .eq (.rawExpr disjunction { kind := .boolean }) (.intLiteral 1))
  have hlex : Lexes (expr (.comparison .eq (.rawExpr disjunction { kind := .boolean })
      (.intLiteral 1))).toList [word "a", .or, word "b", .symbol .eq, numberToken 1] := by
    decide +kernel
  have hright : Reads 5 5 [word "b", .symbol .eq, numberToken 1]
      (.binary (.symbol .eq) (.atom (word "b")) (.atom (numberToken 1))) :=
    reads_pair (.symbol .eq) rfl rfl
  have hor : Infix.Follows .or shut := .inl (by decide)
  have hread : ReadsAs [word "a", .or, word "b", .symbol .eq, numberToken 1]
      (.binary .or (.atom (word "a"))
        (.binary (.symbol .eq) (.atom (word "b")) (.atom (numberToken 1)))) :=
    ⟨_, _, .binary (.atom rfl) hright hor (by decide)⟩
  have heq := (hnode _).mp ⟨hlex.1, hlex.2 ▸ hread⟩
  simp [tree, comparisonInfix] at heq

end EqGen.Ir.RoundTrip
