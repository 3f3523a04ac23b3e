import EqGen.Ir.Render
import EqGen.Lib.SqlParser

/-! What SQL reads in a rendered expression. -/

namespace EqGen.Ir.Reading

open EqGen.Core.Types
open EqGen.Ir.Expr
open EqGen.Ir.Render
open EqGen.Lib.SqlTokens
open EqGen.Lib.SqlGrammar
open EqGen.Lib.SqlShape
open EqGen.Lib.SqlParser

/-- The tree of `CAST(... AS type)` behind the `AS`. -/
def typeName (dataType : SqlType) : String :=
  match dataType.kind with
  | .integer => "INTEGER"
  | .double => "DOUBLE"
  | .numeric => "NUMERIC"
  | .text => "TEXT"
  | .char => "CHAR"
  | .varchar => "VARCHAR"
  | .boolean => "BOOLEAN"
  | .date => "DATE"
  | .timestamp => "TIMESTAMP"
  | .jsonb => "JSONB"
  | .uuid => "UUID"
  | .int4range => "INT4RANGE"

def typeArguments (dataType : SqlType) : List Nat :=
  match dataType.kind with
  | .numeric =>
    match dataType.precision, dataType.getScale with
    | none, _ => []
    | some precision, none => [precision]
    | some precision, some scale => [precision, scale]
  | .char | .varchar => dataType.precision.toList
  | _ => []

/-- Trees with commas between them. -/
def listClause : List Tree → Clause → Clause
  | [], rest => rest
  | [tree], rest => .expr tree rest
  | tree :: next :: trees, rest => .expr tree (.mark comma (listClause (next :: trees) rest))

def word (text : String) : Token :=
  .word text.toList

def keyword (text : String) : Token :=
  .clause text.toList

def call (name : String) (arguments : Clause) : Tree :=
  .apply (.atom (word name)) .call arguments

def typeClause (dataType : SqlType) : Clause :=
  match dataType.kind, typeArguments dataType with
  | .double, _ => .expr (.atom (word "DOUBLE")) (.expr (.atom (word "PRECISION")) .nil)
  | _, [] => .expr (.atom (word (typeName dataType))) .nil
  | _, arguments =>
    .expr (call (typeName dataType)
      (listClause (arguments.map fun n => .atom (numberToken n)) .nil)) .nil

def intTree (value : Int) : Tree :=
  if value < 0 then .unary (.symbol .minus) (.atom (numberToken value.natAbs))
  else .atom (numberToken value.natAbs)

def comparisonInfix : ComparisonOperator → Infix
  | .eq => .symbol .eq
  | .ne => .symbol .ne
  | .lt => .symbol .lt
  | .le => .symbol .le
  | .gt => .symbol .gt
  | .ge => .symbol .ge

def boolInfix : BoolOperator → Infix
  | .and => .and
  | .or => .or

def stringAtom (text : String) : Tree :=
  .atom (.string text.toList)

/-- `convert_from(decode(encode(CAST(x AS BYTEA), 'fmt'), 'fmt'), 'UTF8')` -/
def binaryCodecTree (format : String) (inner : Tree) : Tree :=
  let cast := call "CAST" (.expr inner (.mark (keyword "AS") (.expr (.atom (word "BYTEA")) .nil)))
  let encode := call "encode" (.expr cast (.mark comma (.expr (stringAtom format) .nil)))
  let decode := call "decode" (.expr encode (.mark comma (.expr (stringAtom format) .nil)))
  call "convert_from" (.expr decode (.mark comma (.expr (stringAtom "UTF8") .nil)))

def codecTree (codec : ValueCodec) (inner : Tree) : Tree :=
  match codec with
  | .jsonPack =>
    .binary (.symbol (.other ['-', '>', '>']))
      (call "jsonb_build_object"
        (.expr (stringAtom "v") (.mark comma (.expr inner .nil))))
      (stringAtom "v")
  | .hex => binaryCodecTree "hex" inner
  | .base64 => binaryCodecTree "base64" inner

/-- `PARTITION BY a, b` or `ORDER BY a, b`, left out when there is nothing to order by. -/
def byClause (by_ : String) (trees : List Tree) (rest : Clause) : Clause :=
  if trees.isEmpty then rest
  else .mark (keyword by_) (.mark (keyword "BY") (listClause trees rest))

def frameMarks (frame : WindowFrameKind) : List Token :=
  [keyword frame.value, .between, keyword "UNBOUNDED", keyword "PRECEDING", .and,
    keyword "UNBOUNDED", keyword "FOLLOWING"]

def frameClause (frame : Option WindowFrameKind) : Clause :=
  match frame with
  | none => .nil
  | some frame => (frameMarks frame).foldr .mark .nil

mutual

/-- The tree of an expression: of opaque text, the tree that text has. -/
def tree : ExpressionNode → Tree
  | .columnRef name _ none => .atom name.token
  | .columnRef name _ (some relation) =>
    .binary (.symbol .dot) (.atom relation.token) (.atom name.token)
  | .intLiteral value => intTree value
  | .booleanLiteral value => .atom (.constant (if value then .true else .false))
  | .rawExpr sql _ => sql.tree
  | .typedNull nullType =>
    call "CAST" (.expr (.atom (.constant .null)) (.mark (keyword "AS") (typeClause nullType)))
  | .generatedPredicate value => value.tree
  | .comparison operator left right =>
    .binary (comparisonInfix operator) (tree left) (tree right)
  | .boolOp operator left right => .binary (boolInfix operator) (tree left) (tree right)
  | .not operand => .unary .not (tree operand)
  | .isNull operand negated => .test negated .null (tree operand)
  | .mod operand modulus =>
    call "MOD" (.expr (tree operand) (.mark comma (.expr (intTree modulus) .nil)))
  | .case condition thenExpr elseExpr _ =>
    .enclosed .case (.mark (keyword "WHEN") (.expr (tree condition) (.mark (keyword "THEN")
      (.expr (tree thenExpr) (.mark (keyword "ELSE") (.expr (tree elseExpr) .nil))))))
  | .aggregateCall function arg _ => call function.value (.expr (tree arg) .nil)
  | .valueCodecRoundTrip codec arg _ => codecTree codec (tree arg)
  | .windowCall function arg partitionBy orderBy frame _ =>
    .binary .over (call function.value (listClause (treeOption arg) .nil))
      (.enclosed .round (byClause "PARTITION" (trees partitionBy)
        (byClause "ORDER" (trees orderBy) (frameClause frame))))

def trees : List ExpressionNode → List Tree
  | [] => []
  | node :: nodes => tree node :: trees nodes

def treeOption : Option ExpressionNode → List Tree
  | none => []
  | some node => [tree node]

end

/-- SQL reads the rendered text as the expression it was rendered from, and as nothing else. -/
def Unambiguous (node : ExpressionNode) : Prop :=
  ∀ read, ReadsText (expr node).toList read ↔ read = tree node

/-- Expressions that SQL reads as different trees are written differently. -/
theorem Unambiguous.tree_eq {node other : ExpressionNode} (h : Unambiguous node)
    (h' : Unambiguous other) (htext : expr node = expr other) : tree node = tree other :=
  (h' _).mp (htext ▸ (h _).mpr rfl)

/-- A raw expression that stands bare here reads at the levels that the place asks for. -/
def BareFits (place : Nat → Nat → Prop) : ExpressionNode → Prop
  | .rawExpr sql _ =>
    ∃ left right, Reads left right (lex sql.text.toList) sql.tree ∧ place left right
  | _ => True

mutual

/--
Every raw expression that is an operand is closed enough for its place: no operator at its right
end binds looser than the one behind it, none at its left end looser than the one before it.
-/
def OperandsFit : ExpressionNode → Prop
  | .comparison operator left right =>
    (BareFits (fun _ right => (comparisonInfix operator).Follows right) left ∧
        OperandsFit left) ∧
      BareFits (fun left _ => (comparisonInfix operator).level < left) right ∧ OperandsFit right
  | .boolOp operator left right =>
    (BareFits (fun _ right => (boolInfix operator).Follows right) left ∧ OperandsFit left) ∧
      BareFits (fun left _ => (boolInfix operator).level < left) right ∧ OperandsFit right
  | .not operand => BareFits (fun left _ => notLevel < left) operand ∧ OperandsFit operand
  | .isNull operand _ => BareFits (fun _ right => testLevel ≤ right) operand ∧ OperandsFit operand
  | .mod operand _ => OperandsFit operand
  | .case condition thenExpr elseExpr _ =>
    OperandsFit condition ∧ OperandsFit thenExpr ∧ OperandsFit elseExpr
  | .aggregateCall _ arg _ => OperandsFit arg
  | .valueCodecRoundTrip _ arg _ => OperandsFit arg
  | .windowCall _ arg partitionBy orderBy _ _ =>
    OperandsFitOption arg ∧ OperandsFitAll partitionBy ∧ OperandsFitAll orderBy
  | _ => True

def OperandsFitAll : List ExpressionNode → Prop
  | [] => True
  | node :: nodes => OperandsFit node ∧ OperandsFitAll nodes

def OperandsFitOption : Option ExpressionNode → Prop
  | none => True
  | some node => OperandsFit node

end

section Induction

variable {motive : ExpressionNode → Prop}

/-- Induction over a node: the parts of a window call are its argument, its partition and its
order. -/
theorem node_induction (columnRef : ∀ name type relation, motive (.columnRef name type relation))
    (intLiteral : ∀ value, motive (.intLiteral value))
    (booleanLiteral : ∀ value, motive (.booleanLiteral value))
    (rawExpr : ∀ sql type, motive (.rawExpr sql type))
    (typedNull : ∀ type, motive (.typedNull type))
    (generatedPredicate : ∀ value, motive (.generatedPredicate value))
    (comparison : ∀ operator left right, motive left → motive right →
      motive (.comparison operator left right))
    (boolOp : ∀ operator left right, motive left → motive right →
      motive (.boolOp operator left right))
    (not : ∀ operand, motive operand → motive (.not operand))
    (isNull : ∀ operand negated, motive operand → motive (.isNull operand negated))
    (mod : ∀ operand modulus, motive operand → motive (.mod operand modulus))
    (case : ∀ condition thenExpr elseExpr type, motive condition → motive thenExpr →
      motive elseExpr → motive (.case condition thenExpr elseExpr type))
    (aggregateCall : ∀ function arg type, motive arg → motive (.aggregateCall function arg type))
    (valueCodecRoundTrip : ∀ codec arg type, motive arg →
      motive (.valueCodecRoundTrip codec arg type))
    (windowCall : ∀ function arg partitionBy orderBy frame type, (∀ node ∈ arg, motive node) →
      (∀ node ∈ partitionBy, motive node) → (∀ node ∈ orderBy, motive node) →
      motive (.windowCall function arg partitionBy orderBy frame type)) :
    ∀ node, motive node := by
  intro node
  refine @Expression.rec Name RawText motive (fun arg => ∀ node ∈ arg, motive node)
    (fun nodes => ∀ node ∈ nodes, motive node) columnRef intLiteral booleanLiteral
    rawExpr typedNull generatedPredicate comparison boolOp not isNull mod case aggregateCall
    valueCodecRoundTrip windowCall ?_ ?_ ?_ ?_ node
  · simp
  · simp
  · simp
  · intro head tail hhead htail
    simpa using ⟨hhead, htail⟩

end Induction

end EqGen.Ir.Reading
