import EqGen.Core.Types
import EqGen.Lib.SqlGrammar

/-! The expression nodes of `ir/expr.py`. -/

namespace EqGen.Ir.Expr

open EqGen.Core.Types
open EqGen.Lib.SqlTokens
open EqGen.Lib.SqlGrammar

/-- The name of a column or a relation as SQL writes it: one identifier. -/
structure Name where
  text : String
  token : Token
  isName : isName token = true
  complete : Complete text.toList
  lexed : lex text.toList = [token]

/-- Text from a plugin or a dialect that is itself one complete expression. -/
structure RawText where
  text : String
  tree : Tree
  reads : ReadsText text.toList tree

inductive ComparisonOperator where
  | eq | ne | lt | le | gt | ge
  deriving DecidableEq, Repr

inductive BoolOperator where
  | and | or
  deriving DecidableEq, Repr

inductive AggregateFunction where
  | min | max | anyValue
  deriving DecidableEq, Repr

inductive ValueCodec where
  | hex | base64 | jsonPack
  deriving DecidableEq, Repr

inductive WindowFunction where
  | min | max | firstValue | lastValue | rowNumber
  deriving DecidableEq, Repr

inductive WindowFrameKind where
  | rows | range
  deriving DecidableEq, Repr

/-- The expression nodes over names `ν` and opaque texts `ρ`. -/
inductive Expression (ν ρ : Type) where
  | columnRef (name : ν) (columnType : SqlType) (relationAlias : Option ν)
  | intLiteral (value : Int)
  | booleanLiteral (value : Bool)
  | rawExpr (sql : ρ) (exprType : SqlType)
  | typedNull (nullType : SqlType)
  | generatedPredicate (value : ρ)
  | comparison (operator : ComparisonOperator) (left right : Expression ν ρ)
  | boolOp (operator : BoolOperator) (left right : Expression ν ρ)
  | not (operand : Expression ν ρ)
  | isNull (operand : Expression ν ρ) (negated : Bool)
  | mod (operand : Expression ν ρ) (modulus : Int)
  | case (condition thenExpr elseExpr : Expression ν ρ) (resultType : SqlType)
  | aggregateCall (function : AggregateFunction) (arg : Expression ν ρ) (resultType : SqlType)
  | valueCodecRoundTrip (codec : ValueCodec) (arg : Expression ν ρ) (resultType : SqlType)
  | windowCall (function : WindowFunction) (arg : Option (Expression ν ρ))
      (partitionBy orderBy : List (Expression ν ρ)) (frame : Option WindowFrameKind)
      (resultType : SqlType)

/-- Expressions whose names and texts SQL can read back. -/
abbrev ExpressionNode := Expression Name RawText

/-- The values of the enumerations, and the operators as they are spelled. -/
def ComparisonOperator.text : ComparisonOperator → String
  | eq => "="
  | ne => "<>"
  | lt => "<"
  | le => "<="
  | gt => ">"
  | ge => ">="

def BoolOperator.text : BoolOperator → String
  | and => "AND"
  | or => "OR"

def AggregateFunction.value : AggregateFunction → String
  | min => "MIN"
  | max => "MAX"
  | anyValue => "ANY_VALUE"

def WindowFunction.value : WindowFunction → String
  | min => "MIN"
  | max => "MAX"
  | firstValue => "FIRST_VALUE"
  | lastValue => "LAST_VALUE"
  | rowNumber => "ROW_NUMBER"

def WindowFrameKind.value : WindowFrameKind → String
  | rows => "ROWS"
  | range => "RANGE"

variable {ν ρ : Type}

/-- `conjoin`: `AND` the extra condition onto one that may be absent. -/
def conjoin (existing : Option (Expression ν ρ)) (extra : Expression ν ρ) : Expression ν ρ :=
  match existing with
  | none => extra
  | some existing => .boolOp .and existing extra

def determinedTrue (predicate : Expression ν ρ) : Expression ν ρ :=
  .boolOp .or (.boolOp .or predicate (.not predicate)) (.isNull predicate false)

def determinedFalse (predicate : Expression ν ρ) : Expression ν ρ :=
  .boolOp .and (.boolOp .and predicate (.not predicate)) (.isNull predicate true)

end EqGen.Ir.Expr
