import EqGen.Ir.Expr

/-! How `PostgresSpelling`, the default spelling of `ir/render.py`, writes an expression. -/

namespace EqGen.Ir.Render

open EqGen.Core.Types
open EqGen.Ir.Expr

/-- `PostgresSpelling.type_sql` -/
def typeSql (dataType : SqlType) : String :=
  match dataType.kind with
  | .integer => "INTEGER"
  | .double => "DOUBLE PRECISION"
  | .numeric =>
    match dataType.precision, dataType.getScale with
    | none, _ => "NUMERIC"
    | some precision, none => "NUMERIC(" ++ toString precision ++ ")"
    | some precision, some scale =>
      "NUMERIC(" ++ toString precision ++ ", " ++ toString scale ++ ")"
  | .text => "TEXT"
  | .char =>
    match dataType.precision with
    | none => "CHAR"
    | some precision => "CHAR(" ++ toString precision ++ ")"
  | .varchar =>
    match dataType.precision with
    | none => "VARCHAR"
    | some precision => "VARCHAR(" ++ toString precision ++ ")"
  | .boolean => "BOOLEAN"
  | .date => "DATE"
  | .timestamp => "TIMESTAMP"
  | .jsonb => "JSONB"
  | .uuid => "UUID"
  | .int4range => "INT4RANGE"

/-- `_ATOMIC`: the nodes that stand as an operand without parentheses. -/
def atomic : ExpressionNode → Bool
  | .columnRef .. | .intLiteral _ | .booleanLiteral _ | .typedNull _ | .mod .. => true
  | .generatedPredicate _ | .rawExpr .. => true
  | _ => false

/-- The operand as `_operand` writes it, from the text of the node. -/
def bracketed (node : ExpressionNode) (rendered : String) : String :=
  if atomic node then rendered else "(" ++ rendered ++ ")"

def columnSql (name : Name) (relationAlias : Option Name) : String :=
  match relationAlias with
  | some relation => relation.text ++ "." ++ name.text
  | none => name.text

def jsonPackSql (inner : String) : String :=
  "(jsonb_build_object('v', " ++ inner ++ ") ->> 'v')"

def binaryCodecSql (fmt inner : String) : String :=
  "convert_from(decode(encode(CAST(" ++ inner ++ " AS BYTEA), '" ++ fmt ++ "'), '" ++ fmt ++
    "'), 'UTF8')"

/-- `PostgresSpelling.value_codec_sql`, from the text of the argument. -/
def valueCodecSql (codec : ValueCodec) (inner : String) : String :=
  match codec with
  | .jsonPack => jsonPackSql inner
  | .hex => binaryCodecSql "hex" inner
  | .base64 => binaryCodecSql "base64" inner

def frameSql (frame : WindowFrameKind) : String :=
  frame.value ++ " BETWEEN UNBOUNDED PRECEDING AND UNBOUNDED FOLLOWING"

/-- `window_sql`, from the texts of the argument, the partition and the order. -/
def windowSql (function : WindowFunction) (argument : String) (partitionBy orderBy : List String)
    (frame : Option WindowFrameKind) : String :=
  let clauses :=
    (if partitionBy = [] then [] else ["PARTITION BY " ++ ", ".intercalate partitionBy]) ++
    (if orderBy = [] then [] else ["ORDER BY " ++ ", ".intercalate orderBy]) ++
    (frame.map frameSql).toList
  function.value ++ "(" ++ argument ++ ") OVER (" ++ " ".intercalate clauses ++ ")"

mutual

/-- `Spelling.expr` -/
def expr : ExpressionNode → String
  | .columnRef name _ relationAlias => columnSql name relationAlias
  | .intLiteral value => toString value
  | .booleanLiteral value => if value then "TRUE" else "FALSE"
  | .rawExpr sql _ => sql.text
  | .typedNull nullType => "CAST(NULL AS " ++ typeSql nullType ++ ")"
  | .generatedPredicate value => "(" ++ value.text ++ ")"
  | .comparison operator left right =>
    bracketed left (expr left) ++ " " ++ operator.text ++ " " ++ bracketed right (expr right)
  | .boolOp operator left right =>
    bracketed left (expr left) ++ " " ++ operator.text ++ " " ++ bracketed right (expr right)
  | .not operand => "NOT " ++ bracketed operand (expr operand)
  | .isNull operand negated =>
    bracketed operand (expr operand) ++ " IS " ++ (if negated then "NOT " else "") ++ "NULL"
  | .mod operand modulus => "MOD(" ++ expr operand ++ ", " ++ toString modulus ++ ")"
  | .case condition thenExpr elseExpr _ =>
    "CASE WHEN " ++ expr condition ++ " THEN " ++ expr thenExpr ++ " ELSE " ++ expr elseExpr ++
      " END"
  | .aggregateCall function arg _ => function.value ++ "(" ++ expr arg ++ ")"
  | .valueCodecRoundTrip codec arg _ => valueCodecSql codec (expr arg)
  | .windowCall function arg partitionBy orderBy frame _ =>
    windowSql function (exprOption arg) (exprs partitionBy) (exprs orderBy) frame

def exprs : List ExpressionNode → List String
  | [] => []
  | node :: nodes => expr node :: exprs nodes

/-- The argument of a window call; `ROW_NUMBER` has none. -/
def exprOption : Option ExpressionNode → String
  | none => ""
  | some node => expr node

end

/-- `Spelling._operand` -/
def operandSql (node : ExpressionNode) : String :=
  bracketed node (expr node)

example (value : Int) :
    operandSql (.not (.intLiteral value)) = "(" ++ ("NOT " ++ toString value) ++ ")" := by
  rw [operandSql, expr, expr]
  rfl

end EqGen.Ir.Render
