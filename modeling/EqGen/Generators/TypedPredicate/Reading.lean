import EqGen.Generators.TypedPredicate.Print
import EqGen.Generators.TypedPredicate.Typing
import EqGen.Lib.SqlConditions

/-! Printed predicates are read back as they were built. -/

namespace EqGen.Generators.TypedPredicate.Reading

open EqGen.Core.Catalog
open EqGen.Core.Types
open EqGen.Generators.TypedPredicate.Build
open EqGen.Generators.TypedPredicate.Functions
open EqGen.Generators.TypedPredicate.Print
open EqGen.Generators.TypedPredicate.Typing
open EqGen.Ir.Expr
open EqGen.Lib.SqlConditions
open EqGen.Lib.SqlTokens

/-- DuckDB has the precedences of PostgreSQL, and the MySQL family those of MySQL. -/
def levelsFor (dialect : String) : Levels :=
  if dialect = "clickhouse" then clickhouseLevels
  else if dialect = "cratedb" then cratedbLevels
  else if dialect = "sqlite" then sqliteLevels
  else if dialect ∈ ["mysql", "mariadb", "tidb", "dolt"] then mysqlLevels
  else postgresLevels

/-- A predicate without the types, which are not printed. -/
inductive Untyped where
  | column (name : String)
  | literal (sql : String)
  | comparison (operator : ComparisonOperator) (left right : Untyped)
  | boolOp (operator : BoolOperator) (left right : Untyped)
  | not (operand : Untyped)
  | isNull (operand : Untyped) (negated : Bool)
  | funcCall (sqlName : String) (args : List Untyped)
  | mod (operand modulus : Untyped)
  | isDistinctFrom (left right : Untyped) (negated : Bool)
  | between (value low high : Untyped) (negated : Bool)
  | inList (value : Untyped) (items : List Untyped) (negated : Bool)
  | like (value pattern : Untyped) (negated : Bool)

mutual

def erase : Node → Untyped
  | .columnRef name _ _ => .column name
  | .intLiteral value => .literal (toString value)
  | .portableLiteral sql _ => .literal sql
  | .comparison operator left right => .comparison operator (erase left) (erase right)
  | .boolOp operator left right => .boolOp operator (erase left) (erase right)
  | .not operand => .not (erase operand)
  | .isNull operand negated => .isNull (erase operand) negated
  | .mod operand modulus => .mod (erase operand) (.literal (toString modulus))
  | .funcCall sqlName args _ => .funcCall sqlName (eraseAll args)
  | .isDistinctFrom left right negated => .isDistinctFrom (erase left) (erase right) negated
  | .between value low high negated => .between (erase value) (erase low) (erase high) negated
  | .inList value items negated => .inList (erase value) (eraseAll items) negated
  | .like value pattern negated => .like (erase value) (erase pattern) negated

def eraseAll : List Node → List Untyped
  | [] => []
  | node :: nodes => erase node :: eraseAll nodes

end

def nullSafe : Binary := .symbol (.other "<=>".toList)

/-- The text of a literal, and the name of a column. -/
def leaf : Token → Option Untyped
  | .word name => some (.column (String.ofList name))
  | .number text => some (.literal (String.ofList text))
  | .string text => some (.literal (quote (String.ofList text)))
  | .constant .true => some (.literal "TRUE")
  | .constant .false => some (.literal "FALSE")
  | _ => none

def comparisonOf : Symbol → Option ComparisonOperator
  | .eq => some .eq
  | .ne => some .ne
  | .lt => some .lt
  | .le => some .le
  | .gt => some .gt
  | .ge => some .ge
  | _ => none

/-- What an infix operator stands for. -/
def infixOf (operator : Binary) (left right : Untyped) : Option Untyped :=
  match operator with
  | .and => some (.boolOp .and left right)
  | .or => some (.boolOp .or left right)
  | .distinct negated => some (.isDistinctFrom left right negated)
  | .like negated => some (.like left right negated)
  | .symbol .percent => some (.mod left right)
  | .symbol (.other text) =>
    if text = "<=>".toList then some (.isDistinctFrom left right true) else none
  | .symbol s => (comparisonOf s).map fun comparison => .comparison comparison left right

/-- `MOD` is the remainder, every other name a function of the catalog. -/
def callOf (name : List Char) (args : List Untyped) : Untyped :=
  match args with
  | [operand, modulus] =>
    if name = "MOD".toList then .mod operand modulus else .funcCall (String.ofList name) args
  | _ => .funcCall (String.ofList name) args

mutual

/-- The predicate that a tree stands for. -/
def restore : Tree → Option Untyped
  | .atom token => leaf token
  | .negative (.atom (.number text)) => some (.literal (String.ofList ('-' :: text)))
  | .cast (.atom (.string text)) type =>
    some (.literal (quote (String.ofList text) ++ "::" ++ String.ofList type))
  | .call name args => (restoreAll args).map (callOf name)
  | .group (.not (.group (.binary (.symbol (.other text)) left right))) =>
    -- The form that MySQL has for `IS DISTINCT FROM`.
    (restore left).bind fun left => (restore right).bind fun right =>
      if text = "<=>".toList then some (.isDistinctFrom left right false) else none
  | .group inner => restore inner
  | .not operand => (restore operand).map .not
  | .binary operator left right =>
    (restore left).bind fun left => (restore right).bind fun right => infixOf operator left right
  | .null negated operand => (restore operand).map fun operand => .isNull operand negated
  | .between negated value low high =>
    (restore value).bind fun value => (restore low).bind fun low =>
      (restore high).map fun high => .between value low high negated
  | .within negated value items =>
    (restore value).bind fun value =>
      (restoreAll items).map fun items => .inList value items negated
  | _ => none

def restoreAll : List Tree → Option (List Untyped)
  | [] => some []
  | tree :: trees =>
    (restore tree).bind fun first => (restoreAll trees).map fun rest => first :: rest

end

/-- The predicate that a dialect reads the text as. -/
def reread (dialect text : String) : Option Untyped :=
  (parse (levelsFor dialect) (lex text.toList)).bind restore

end EqGen.Generators.TypedPredicate.Reading
