import EqGen.Ir.Reading
import Mathlib.Data.List.Forall2

/-! The tokens of a rendered expression. -/

namespace EqGen.Ir.Lexed

open EqGen.Core.Types
open EqGen.Ir.Expr
open EqGen.Ir.Render
open EqGen.Ir.Reading
open EqGen.Lib.SqlTokens
open EqGen.Lib.SqlGrammar
open EqGen.Lib.SqlShape

/-- Tokens and the tree they are to read as. -/
abbrev Piece := List Token × Tree

def part (piece : Piece) : Part :=
  .expr piece.1 piece.2

def atomPiece (token : Token) : Piece :=
  ([token], .atom token)

def callPiece (name : String) (parts : List Part) : Piece :=
  (callTokens (word name) parts, callTree (word name) parts)

def listParts : List Piece → List Part
  | [] => []
  | [piece] => [part piece]
  | piece :: next :: pieces => part piece :: .mark comma :: listParts (next :: pieces)

def intTokens (value : Int) : List Token :=
  if value < 0 then [.symbol .minus, numberToken value.natAbs] else [numberToken value.natAbs]

def typeTokens (dataType : SqlType) : List Token :=
  match dataType.kind, typeArguments dataType with
  | .double, _ => [word "DOUBLE", word "PRECISION"]
  | _, [] => [word (typeName dataType)]
  | _, arguments =>
    callTokens (word (typeName dataType))
      (listParts (arguments.map fun n => atomPiece (numberToken n)))

def binaryCodecPiece (format : String) (inner : Piece) : Piece :=
  let text := part (atomPiece (.string format.toList))
  let cast := callPiece "CAST"
    [part inner, .mark (keyword "AS"), part (atomPiece (word "BYTEA"))]
  let encode := callPiece "encode" [part cast, .mark comma, text]
  let decode := callPiece "decode" [part encode, .mark comma, text]
  callPiece "convert_from"
    [part decode, .mark comma, part (atomPiece (.string "UTF8".toList))]

def jsonArrow : Infix :=
  .symbol (.other ['-', '>', '>'])

def jsonPackPiece (inner : Piece) : Piece :=
  let key := atomPiece (.string "v".toList)
  let built := callPiece "jsonb_build_object" [part key, .mark comma, part inner]
  (built.1 ++ (jsonArrow.tokens ++ key.1), .binary jsonArrow built.2 key.2)

def codecTokens (codec : ValueCodec) (inner : Piece) : List Token :=
  match codec with
  | .jsonPack => .opening .round :: ((jsonPackPiece inner).1 ++ [.closing .round])
  | .hex => (binaryCodecPiece "hex" inner).1
  | .base64 => (binaryCodecPiece "base64" inner).1

def byParts (by_ : String) (pieces : List Piece) : List Part :=
  if pieces.isEmpty then []
  else .mark (keyword by_) :: .mark (keyword "BY") :: listParts pieces

def frameParts (frame : Option WindowFrameKind) : List Part :=
  match frame with
  | none => []
  | some frame => (frameMarks frame).map .mark

def windowParts (partitionBy orderBy : List Piece) (frame : Option WindowFrameKind) : List Part :=
  byParts "PARTITION" partitionBy ++ (byParts "ORDER" orderBy ++ frameParts frame)

/-- The tokens of the node where it stands as an operand. -/
def operandTokens (node : ExpressionNode) (tokens : List Token) : List Token :=
  if atomic node then tokens else .opening .round :: (tokens ++ [.closing .round])

mutual

def nodeTokens : ExpressionNode → List Token
  | .columnRef name _ none => [name.token]
  | .columnRef name _ (some relation) => [relation.token, .symbol .dot, name.token]
  | .intLiteral value => intTokens value
  | .booleanLiteral value => [.constant (if value then .true else .false)]
  | .rawExpr sql _ => lex sql.text.toList
  | .typedNull nullType =>
    word "CAST" :: .opening .round ::
      (.constant .null :: keyword "AS" :: typeTokens nullType ++ [.closing .round])
  | .generatedPredicate value => .opening .round :: (lex value.text.toList ++ [.closing .round])
  | .comparison operator left right =>
    operandTokens left (nodeTokens left) ++
      ((comparisonInfix operator).tokens ++ operandTokens right (nodeTokens right))
  | .boolOp operator left right =>
    operandTokens left (nodeTokens left) ++
      ((boolInfix operator).tokens ++ operandTokens right (nodeTokens right))
  | .not operand => .not :: operandTokens operand (nodeTokens operand)
  | .isNull operand negated =>
    operandTokens operand (nodeTokens operand) ++ testTokens negated .null
  | .mod operand modulus =>
    callTokens (word "MOD") [.expr (nodeTokens operand) (tree operand), .mark comma,
      .expr (intTokens modulus) (intTree modulus)]
  | .case condition thenExpr elseExpr _ =>
    .opening .case :: (partTokens [.mark (keyword "WHEN"),
      .expr (nodeTokens condition) (tree condition), .mark (keyword "THEN"),
      .expr (nodeTokens thenExpr) (tree thenExpr), .mark (keyword "ELSE"),
      .expr (nodeTokens elseExpr) (tree elseExpr)] ++ [.closing .case])
  | .aggregateCall function arg _ =>
    callTokens (word function.value) [.expr (nodeTokens arg) (tree arg)]
  | .valueCodecRoundTrip codec arg _ => codecTokens codec (nodeTokens arg, tree arg)
  | .windowCall function arg partitionBy orderBy frame _ =>
    callTokens (word function.value) (listParts (piecesOption arg)) ++ (Infix.over.tokens ++
      .opening .round :: (partTokens (windowParts (pieces partitionBy) (pieces orderBy) frame) ++
        [.closing .round]))

def pieces : List ExpressionNode → List Piece
  | [] => []
  | node :: nodes => (nodeTokens node, tree node) :: pieces nodes

def piecesOption : Option ExpressionNode → List Piece
  | none => []
  | some node => [(nodeTokens node, tree node)]

end

example (value : Int) : nodeTokens (.not (.intLiteral value)) = .not :: intTokens value := by
  rw [nodeTokens, nodeTokens]
  rfl

theorem lexes_int (value : Int) : Lexes (toString value).toList (intTokens value) := by
  unfold intTokens
  split
  · next hneg =>
      have htext : (toString value).toList = '-' :: (toString value.natAbs).toList := by
        rw [Int.toString_eq_repr, Int.repr_eq_if, if_neg (by omega)]
        have habs : (-value).toNat = value.natAbs := by omega
        simp [habs]
      rw [htext]
      exact lexes_minus (digits_toString _).1 (digits_toString _).2
  · next hpos =>
      have htext : (toString value).toList = (toString value.natAbs).toList := by
        rw [Int.toString_eq_repr, Int.repr_eq_if, if_pos (by omega)]
        have habs : value.toNat = value.natAbs := by omega
        simp [habs]
      rw [htext]
      exact lexes_nat _

section Texts

variable {inner : List Char} {tokens : List Token}

theorem lexes_operator (operator : ComparisonOperator) :
    Lexes operator.text.toList (comparisonInfix operator).tokens := by
  cases operator <;> decide

theorem lexes_boolOperator (operator : BoolOperator) :
    Lexes operator.text.toList (boolInfix operator).tokens := by
  cases operator <;> decide

theorem lexes_aggregate (function : AggregateFunction) :
    Lexes function.value.toList [word function.value] := by
  cases function <;> decide

theorem lexes_window (function : WindowFunction) :
    Lexes function.value.toList [word function.value] := by
  cases function <;> decide

/-- The texts that are written out, with their tokens. -/
def written : List (String × List Token) :=
  [("MOD", [word "MOD"]), ("WHEN", [keyword "WHEN"]), ("THEN", [keyword "THEN"]),
    ("ELSE", [keyword "ELSE"]), ("convert_from", [word "convert_from"]),
    ("decode", [word "decode"]), ("encode", [word "encode"]), ("CAST", [word "CAST"]),
    ("AS", [keyword "AS"]), ("BYTEA", [word "BYTEA"]),
    ("jsonb_build_object", [word "jsonb_build_object"]), ("NOT", [.not]),
    ("CASE", [.opening .case]), ("END", [.closing .case]), ("'UTF8'", [.string "UTF8".toList]),
    ("'v'", [.string "v".toList]), ("->>", jsonArrow.tokens), ("NULL", [.constant .null]),
    ("PARTITION BY", [keyword "PARTITION", keyword "BY"]),
    ("ORDER BY", [keyword "ORDER", keyword "BY"]), ("OVER", Infix.over.tokens),
    ("DOUBLE PRECISION", [word "DOUBLE", word "PRECISION"]), ("'hex'", [.string "hex".toList]),
    ("'base64'", [.string "base64".toList])]

theorem lexes_written : ∀ entry ∈ written, Lexes entry.1.toList entry.2 := by
  decide +kernel

theorem lexes_typeName (dataType : SqlType) :
    Lexes (typeName dataType).toList [word (typeName dataType)] := by
  unfold typeName
  split <;> decide

theorem lexes_column (name : Name) : Lexes name.text.toList [name.token] :=
  ⟨name.complete, name.lexed⟩

theorem lexes_raw (sql : RawText) : Lexes sql.text.toList (lex sql.text.toList) :=
  ⟨sql.reads.1, rfl⟩

theorem lexes_bracketed {node : ExpressionNode} (h : Lexes (expr node).toList tokens) :
    Lexes (bracketed node (expr node)).toList (operandTokens node tokens) := by
  unfold bracketed operandTokens
  split
  · exact h
  · simpa using h.enclosed

theorem lexes_mod (h : Lexes inner tokens) (operand : Tree) (modulus : Int) :
    Lexes ("MOD(".toList ++ (inner ++ (", ".toList ++ ((toString modulus).toList ++ ")".toList))))
      (callTokens (word "MOD") [.expr tokens operand, .mark comma,
        .expr (intTokens modulus) (intTree modulus)]) := by
  have hname := lexes_written ("MOD", [word "MOD"]) (by simp [written])
  have := hname.opened (h.comma ((lexes_int modulus).closed lexes_nil))
  simpa [callTokens, partTokens] using this

theorem lexes_infix {left right operator : List Char} {before after middle : List Token}
    (hleft : Lexes left before) (hoperator : Lexes operator middle) (hright : Lexes right after) :
    Lexes (left ++ (" ".toList ++ (operator ++ (" ".toList ++ right))))
      (before ++ (middle ++ after)) := by
  simpa using hleft.space (hoperator.space hright)

theorem lexes_not (h : Lexes inner tokens) :
    Lexes ("NOT ".toList ++ inner) (.not :: tokens) := by
  have hnot := lexes_written ("NOT", [.not]) (by simp [written])
  simpa using hnot.space h

theorem lexes_isNull (h : Lexes inner tokens) (negated : Bool) :
    Lexes (inner ++ (" IS ".toList ++ ((if negated then "NOT " else "").toList ++ "NULL".toList)))
      (tokens ++ testTokens negated .null) := by
  have htest : Lexes ("IS ".toList ++ ((if negated then "NOT " else "").toList ++ "NULL".toList))
      (testTokens negated .null) := by
    cases negated <;> decide
  simpa using h.space htest

theorem lexes_case {condition thenExpr elseExpr : List Char} {first second third : List Token}
    (hfirst : Lexes condition first) (hsecond : Lexes thenExpr second)
    (hthird : Lexes elseExpr third) (firstTree secondTree thirdTree : Tree) :
    Lexes ("CASE WHEN ".toList ++ (condition ++ (" THEN ".toList ++ (thenExpr ++
        (" ELSE ".toList ++ (elseExpr ++ " END".toList))))))
      (.opening .case :: (partTokens [.mark (keyword "WHEN"), .expr first firstTree,
        .mark (keyword "THEN"), .expr second secondTree, .mark (keyword "ELSE"),
        .expr third thirdTree] ++ [.closing .case])) := by
  have hcase := lexes_written ("CASE", [.opening .case]) (by simp [written])
  have hwhen := lexes_written ("WHEN", [keyword "WHEN"]) (by simp [written])
  have hthen := lexes_written ("THEN", [keyword "THEN"]) (by simp [written])
  have helse := lexes_written ("ELSE", [keyword "ELSE"]) (by simp [written])
  have hend := lexes_written ("END", [.closing .case]) (by simp [written])
  have := hcase.space (hwhen.space (hfirst.space (hthen.space (hsecond.space (helse.space
    (hthird.space hend))))))
  simpa [partTokens] using this

theorem lexes_call {name : String} {parts : List Part} (hname : Lexes name.toList [word name])
    (h : Lexes inner (partTokens parts)) :
    Lexes (name.toList ++ ("(".toList ++ (inner ++ ")".toList))) (callTokens (word name) parts) := by
  simpa [callTokens] using hname.opened (h.closed lexes_nil)

theorem lexes_binaryCodec (h : Lexes inner tokens) (operand : Tree) {format : String}
    (hformat : Lexes ('\'' :: (format.toList ++ ['\''])) [.string format.toList]) :
    Lexes ("convert_from(decode(encode(CAST(".toList ++ (inner ++ (" AS BYTEA), '".toList ++
        (format.toList ++ ("'), '".toList ++ (format.toList ++ "'), 'UTF8')".toList))))))
      (binaryCodecPiece format (tokens, operand)).1 := by
  have hconvert := lexes_written ("convert_from", [word "convert_from"]) (by simp [written])
  have hdecode := lexes_written ("decode", [word "decode"]) (by simp [written])
  have hencode := lexes_written ("encode", [word "encode"]) (by simp [written])
  have hcast := lexes_written ("CAST", [word "CAST"]) (by simp [written])
  have has := lexes_written ("AS", [keyword "AS"]) (by simp [written])
  have hbytea := lexes_written ("BYTEA", [word "BYTEA"]) (by simp [written])
  have hutf := lexes_written ("'UTF8'", [.string "UTF8".toList]) (by simp [written])
  have := hconvert.opened (hdecode.opened (hencode.opened (hcast.opened (h.space (has.space
    (hbytea.closed (lexes_nil.comma (hformat.closed (lexes_nil.comma (hformat.closed
      (lexes_nil.comma (hutf.closed lexes_nil))))))))))))
  have hopen : "convert_from(decode(encode(CAST(".toList = "convert_from".toList ++ '(' ::
      ("decode".toList ++ '(' :: ("encode".toList ++ '(' :: ("CAST".toList ++ ['(']))) := rfl
  have htype : " AS BYTEA), '".toList =
      ' ' :: ("AS".toList ++ ' ' :: ("BYTEA".toList ++ [')', ',', ' ', '\''])) := rfl
  have hformats : "'), '".toList = ['\'', ')', ',', ' ', '\''] := rfl
  have hclose : "'), 'UTF8')".toList =
      ['\'', ')', ',', ' '] ++ ("'UTF8'".toList ++ [')']) := rfl
  rw [hopen, htype, hformats, hclose]
  simp only [binaryCodecPiece, callPiece, callTokens, part, partTokens, atomPiece,
    List.append_assoc, List.cons_append, List.nil_append, List.append_nil] at this ⊢
  exact this

theorem lexes_jsonPack (h : Lexes inner tokens) (operand : Tree) {text : String}
    (htext : text.toList = inner) :
    Lexes (jsonPackSql text).toList (codecTokens .jsonPack (tokens, operand)) := by
  have hname := lexes_written ("jsonb_build_object", [word "jsonb_build_object"]) (by simp [written])
  have hkey := lexes_written ("'v'", [.string "v".toList]) (by simp [written])
  have harrow := lexes_written ("->>", jsonArrow.tokens) (by simp [written])
  have := lexes_nil.opened (hname.opened (hkey.comma (h.closed (lexes_nil.space
    (harrow.space (hkey.closed lexes_nil))))))
  have hopen : "(jsonb_build_object('v', ".toList =
      '(' :: ("jsonb_build_object".toList ++ '(' :: ("'v'".toList ++ [',', ' '])) := rfl
  have hclose : ") ->> 'v')".toList =
      ')' :: ' ' :: ("->>".toList ++ ' ' :: ("'v'".toList ++ [')'])) := rfl
  delta jsonPackSql
  rw [String.toList_append, String.toList_append, hopen, hclose, htext]
  simp only [codecTokens, jsonPackPiece, callPiece, callTokens, part, partTokens, atomPiece,
    List.append_assoc, List.cons_append, List.nil_append, List.append_nil] at this ⊢
  exact this

theorem lexes_codec (h : Lexes inner tokens) (operand : Tree) (codec : ValueCodec) {text : String}
    (htext : text.toList = inner) :
    Lexes (valueCodecSql codec text).toList (codecTokens codec (tokens, operand)) := by
  have hbinary : ∀ fmt, (binaryCodecSql fmt text).toList =
      "convert_from(decode(encode(CAST(".toList ++ (inner ++ (" AS BYTEA), '".toList ++
        (fmt.toList ++ ("'), '".toList ++ (fmt.toList ++ "'), 'UTF8')".toList))))) := by
    intro fmt
    delta binaryCodecSql
    rw [← htext]
    simp only [String.toList_append, List.append_assoc]
  cases codec with
  | jsonPack => exact lexes_jsonPack h operand htext
  | hex =>
      rw [valueCodecSql, hbinary]
      exact lexes_binaryCodec h operand
        (lexes_written ("'hex'", [.string "hex".toList]) (by simp [written]))
  | base64 =>
      rw [valueCodecSql, hbinary]
      exact lexes_binaryCodec h operand
        (lexes_written ("'base64'", [.string "base64".toList]) (by simp [written]))

theorem lexes_argument {name : String} (hname : Lexes name.toList [word name]) (n : Nat) :
    Lexes (name.toList ++ ("(".toList ++ ((toString n).toList ++ ")".toList)))
      (callTokens (word name) [part (atomPiece (numberToken n))]) :=
  lexes_call hname (lexes_nat n)

theorem lexes_arguments {name : String} (hname : Lexes name.toList [word name]) (n m : Nat) :
    Lexes (name.toList ++ ("(".toList ++ (((toString n).toList ++ (", ".toList ++
        (toString m).toList)) ++ ")".toList)))
      (callTokens (word name) [part (atomPiece (numberToken n)), .mark comma,
        part (atomPiece (numberToken m))]) := by
  refine lexes_call hname ?_
  simpa [part, atomPiece, partTokens] using (lexes_nat n).comma (lexes_nat m)

theorem lexes_type (dataType : SqlType) :
    Lexes (typeSql dataType).toList (typeTokens dataType) := by
  have hname := lexes_typeName dataType
  obtain ⟨kind, precision, scale⟩ := dataType
  cases kind with
  | double =>
      exact lexes_written ("DOUBLE PRECISION", [word "DOUBLE", word "PRECISION"])
        (by simp [written])
  | numeric =>
      rcases precision with _ | precision
      · exact hname
      rcases scale with _ | scale
      · have := lexes_argument hname precision
        simpa [typeSql, typeTokens, typeArguments, SqlType.getScale, typeName, listParts] using this
      · have := lexes_arguments hname precision scale
        simpa [typeSql, typeTokens, typeArguments, SqlType.getScale, typeName, listParts] using this
  | char =>
      rcases precision with _ | precision
      · exact hname
      · have := lexes_argument hname precision
        simpa [typeSql, typeTokens, typeArguments, typeName, listParts] using this
  | varchar =>
      rcases precision with _ | precision
      · exact hname
      · have := lexes_argument hname precision
        simpa [typeSql, typeTokens, typeArguments, typeName, listParts] using this
  | integer | text | boolean | date | timestamp | jsonb | uuid | int4range => exact hname

theorem lexes_typedNull (dataType : SqlType) :
    Lexes (expr (.typedNull dataType)).toList (nodeTokens (.typedNull dataType)) := by
  have hcast := lexes_written ("CAST", [word "CAST"]) (by simp [written])
  have hnull := lexes_written ("NULL", [.constant .null]) (by simp [written])
  have has := lexes_written ("AS", [keyword "AS"]) (by simp [written])
  have hopen : "CAST(NULL AS ".toList =
      "CAST".toList ++ '(' :: ("NULL".toList ++ ' ' :: ("AS".toList ++ [' '])) := rfl
  have := hcast.opened (hnull.space (has.space ((lexes_type dataType).closed lexes_nil)))
  rw [expr, nodeTokens, String.toList_append, String.toList_append, hopen]
  simp only [List.append_assoc, List.cons_append, List.nil_append] at this ⊢
  exact this

theorem lexes_columnSql (name : Name) (relationAlias : Option Name) (columnType : SqlType) :
    Lexes (columnSql name relationAlias).toList
      (nodeTokens (.columnRef name columnType relationAlias)) := by
  cases relationAlias with
  | none => exact lexes_column name
  | some relation =>
      have := lexes_dot relation.isName (lexes_column relation) (lexes_column name)
      simpa [columnSql, nodeTokens] using this

theorem partTokens_listParts (pieces : List Piece) :
    partTokens (listParts pieces) = [comma].intercalate (pieces.map Prod.fst) := by
  induction pieces with
  | nil => rfl
  | cons piece pieces ih =>
      cases pieces with
      | nil => simp [listParts, part, partTokens]
      | cons next pieces =>
          rw [listParts, part, partTokens, partTokens, ih]
          simp [List.intercalate_cons_cons]

theorem exprs_eq (nodes : List ExpressionNode) : exprs nodes = nodes.map expr := by
  induction nodes with
  | nil => rfl
  | cons node nodes ih => rw [exprs, ih, List.map_cons]

theorem pieces_eq (nodes : List ExpressionNode) :
    pieces nodes = nodes.map fun node => (nodeTokens node, tree node) := by
  induction nodes with
  | nil => rfl
  | cons node nodes ih => rw [pieces, ih, List.map_cons]

theorem lexes_exprs {nodes : List ExpressionNode}
    (h : ∀ node ∈ nodes, Lexes (expr node).toList (nodeTokens node)) :
    Lexes (", ".intercalate (exprs nodes)).toList (partTokens (listParts (pieces nodes))) := by
  rw [String.toList_intercalate, partTokens_listParts, exprs_eq, pieces_eq, List.map_map,
    List.map_map]
  refine lexes_commas ?_
  rw [List.forall₂_map_left_iff, List.forall₂_map_right_iff, List.forall₂_same]
  exact h

theorem lexes_by {nodes : List ExpressionNode} {by_ : String} {head : List Char}
    (hhead : Lexes head [keyword by_, keyword "BY"])
    (h : ∀ node ∈ nodes, Lexes (expr node).toList (nodeTokens node)) (text : String)
    (htext : text.toList = head ++ [' ']) :
    List.Forall₂ Lexes
      ((if exprs nodes = [] then [] else [text ++ ", ".intercalate (exprs nodes)]).map
        String.toList)
      (if nodes.isEmpty then [] else [partTokens (byParts by_ (pieces nodes))]) := by
  cases nodes with
  | nil => exact .nil
  | cons node nodes =>
      have hne : exprs (node :: nodes) ≠ [] := by simp [exprs]
      have hlist := hhead.space (lexes_exprs h)
      rw [if_neg hne]
      refine .cons ?_ .nil
      rw [String.toList_append, htext, List.append_assoc, List.singleton_append]
      exact hlist

theorem lexes_frame (frame : WindowFrameKind) :
    Lexes (frameSql frame).toList (partTokens (frameParts (some frame))) := by
  cases frame <;> decide +kernel

theorem partTokens_by (by_ : String) (nodes : List ExpressionNode) :
    partTokens (byParts by_ (pieces nodes)) =
      (if nodes.isEmpty then [] else [partTokens (byParts by_ (pieces nodes))]).flatten := by
  cases nodes with
  | nil => rfl
  | cons node nodes => simp

/-- The clauses of a window stand with blanks between them. -/
theorem lexes_clauses {partitionBy orderBy : List ExpressionNode}
    (hpartition : ∀ node ∈ partitionBy, Lexes (expr node).toList (nodeTokens node))
    (horder : ∀ node ∈ orderBy, Lexes (expr node).toList (nodeTokens node))
    (frame : Option WindowFrameKind) :
    Lexes (" ".intercalate
      ((if exprs partitionBy = [] then []
          else ["PARTITION BY " ++ ", ".intercalate (exprs partitionBy)]) ++
        (if exprs orderBy = [] then []
          else ["ORDER BY " ++ ", ".intercalate (exprs orderBy)]) ++
        (frame.map frameSql).toList)).toList
      (partTokens (windowParts (pieces partitionBy) (pieces orderBy) frame)) := by
  have hpartitionBy := lexes_written ("PARTITION BY", [keyword "PARTITION", keyword "BY"])
    (by simp [written])
  have horderBy := lexes_written ("ORDER BY", [keyword "ORDER", keyword "BY"]) (by simp [written])
  have hframe : List.Forall₂ Lexes ((frame.map frameSql).toList.map String.toList)
      (frame.toList.map fun frame => partTokens (frameParts (some frame))) := by
    cases frame with
    | none => exact .nil
    | some frame => exact .cons (lexes_frame frame) .nil
  have hframes : partTokens (frameParts frame) =
      (frame.toList.map fun frame => partTokens (frameParts (some frame))).flatten := by
    cases frame with
    | none => rfl
    | some frame => simp
  have hall := List.rel_append (List.rel_append
    (lexes_by hpartitionBy hpartition "PARTITION BY " rfl)
    (lexes_by horderBy horder "ORDER BY " rfl)) hframe
  have := lexes_spaces hall
  rw [List.flatten_append, List.flatten_append, ← partTokens_by, ← partTokens_by, ← hframes,
    List.append_assoc, ← partTokens_append, ← partTokens_append] at this
  rw [String.toList_intercalate, List.map_append, List.map_append]
  exact this

theorem lexes_option {arg : Option ExpressionNode}
    (h : ∀ node ∈ arg, Lexes (expr node).toList (nodeTokens node)) :
    Lexes (exprOption arg).toList (partTokens (listParts (piecesOption arg))) := by
  cases arg with
  | none => exact lexes_nil
  | some node => simpa [exprOption, listParts, piecesOption, part, partTokens] using h node rfl

theorem lexes_windowSql {name argument clauses : String} {nameTokens : List Token}
    {parts windowParts : List Part} (hname : Lexes name.toList nameTokens)
    (hargument : Lexes argument.toList (partTokens parts))
    (hclauses : Lexes clauses.toList (partTokens windowParts)) :
    Lexes (name ++ "(" ++ argument ++ ") OVER (" ++ clauses ++ ")").toList
      ((nameTokens ++ .opening .round :: (partTokens parts ++ [.closing .round])) ++
        (Infix.over.tokens ++
          .opening .round :: (partTokens windowParts ++ [.closing .round]))) := by
  have hover := lexes_written ("OVER", Infix.over.tokens) (by simp [written])
  have := hname.opened (hargument.closed (lexes_nil.space (hover.space (lexes_nil.opened
    (hclauses.closed lexes_nil)))))
  simpa using this

end Texts

/-- The rendered text is cut into the tokens of the node. -/
theorem lexes_expr (node : ExpressionNode) : Lexes (expr node).toList (nodeTokens node) := by
  induction node using node_induction with
  | columnRef name columnType relationAlias => exact lexes_columnSql name relationAlias columnType
  | intLiteral value => exact lexes_int value
  | booleanLiteral value => cases value <;> decide
  | rawExpr sql exprType => exact lexes_raw sql
  | typedNull nullType => exact lexes_typedNull nullType
  | generatedPredicate value =>
      have := (lexes_raw value).enclosed
      simpa [expr, nodeTokens] using this
  | comparison operator left right ihLeft ihRight =>
      have := lexes_infix (lexes_bracketed ihLeft) (lexes_operator operator)
        (lexes_bracketed ihRight)
      rw [expr, nodeTokens]
      simpa only [String.toList_append, List.append_assoc] using this
  | boolOp operator left right ihLeft ihRight =>
      have := lexes_infix (lexes_bracketed ihLeft) (lexes_boolOperator operator)
        (lexes_bracketed ihRight)
      rw [expr, nodeTokens]
      simpa only [String.toList_append, List.append_assoc] using this
  | not operand ih =>
      rw [expr, nodeTokens, String.toList_append]
      exact lexes_not (lexes_bracketed ih)
  | isNull operand negated ih =>
      have := lexes_isNull (lexes_bracketed ih) negated
      rw [expr, nodeTokens]
      simpa only [String.toList_append, List.append_assoc] using this
  | mod operand modulus ih =>
      have := lexes_mod ih (tree operand) modulus
      rw [expr, nodeTokens]
      simpa only [String.toList_append, List.append_assoc] using this
  | case condition thenExpr elseExpr resultType ihCondition ihThen ihElse =>
      have := lexes_case ihCondition ihThen ihElse (tree condition) (tree thenExpr)
        (tree elseExpr)
      rw [expr, nodeTokens]
      simpa only [String.toList_append, List.append_assoc] using this
  | aggregateCall function arg resultType ih =>
      have hargument : Lexes (expr arg).toList
          (partTokens [.expr (nodeTokens arg) (tree arg)]) := by
        simpa [partTokens] using ih
      have := lexes_call (lexes_aggregate function) hargument
      rw [expr, nodeTokens]
      simpa only [String.toList_append, List.append_assoc] using this
  | valueCodecRoundTrip codec arg resultType ih =>
      rw [expr, nodeTokens]
      exact lexes_codec ih (tree arg) codec rfl
  | windowCall function arg partitionBy orderBy frame resultType ihArg ihPartition ihOrder =>
      rw [expr, nodeTokens]
      exact lexes_windowSql (lexes_window function) (lexes_option ihArg)
        (lexes_clauses ihPartition ihOrder frame)

end EqGen.Ir.Lexed
