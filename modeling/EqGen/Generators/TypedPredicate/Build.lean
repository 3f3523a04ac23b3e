import EqGen.Core.Catalog
import EqGen.Generators.TypedPredicate.Functions
import EqGen.Ir.Expr
import EqGen.Lib.Draws

/-!
`build.py`: a typed predicate over the columns of a table. The numbers that `random` draws are a
parameter; the thresholds are the decimal fractions that the source writes.
-/

namespace EqGen.Generators.TypedPredicate.Build

open EqGen.Core.Catalog
open EqGen.Core.Types
open EqGen.Generators.TypedPredicate.Functions
open EqGen.Ir.Expr
open EqGen.Lib.Draws

/-- The expression nodes that a typed predicate is made of. -/
inductive Node where
  | columnRef (name : String) (columnType : SqlType) (relationAlias : Option String)
  | intLiteral (value : ℤ)
  | portableLiteral (sql : String) (resultType : SqlType)
  | comparison (operator : ComparisonOperator) (left right : Node)
  | boolOp (operator : BoolOperator) (left right : Node)
  | not (operand : Node)
  | isNull (operand : Node) (negated : Bool)
  | mod (operand : Node) (modulus : ℤ)
  | funcCall (sqlName : String) (args : List Node) (resultType : SqlType)
  | isDistinctFrom (left right : Node) (negated : Bool)
  | between (value low high : Node) (negated : Bool)
  | inList (value : Node) (items : List Node) (negated : Bool)
  | like (value pattern : Node) (negated : Bool)

def Node.dataType : Node → SqlType
  | .columnRef _ columnType _ => columnType
  | .intLiteral _ => { kind := .integer }
  | .portableLiteral _ resultType => resultType
  | .mod operand _ => operand.dataType
  | .funcCall _ _ resultType => resultType
  | .comparison .. | .boolOp .. | .not .. | .isNull .. | .isDistinctFrom .. | .between ..
  | .inList .. | .like .. => { kind := .boolean }

inductive BuildError where
  | assertion (message : String)
  | index
  | type (result : Result)
  | value (message : String)
  deriving DecidableEq, Repr

abbrev Gen := Draw BuildError

/-- `rng.choice(options)` -/
def choice {α : Type} (options : List α) : Gen α := do
  match ← Draw.pick options with
  | some a => return a
  | none => Draw.raise .index

def funcCall (sqlName : String) (args : List Node) (resultType : SqlType) : Gen Node :=
  if args = [] then Draw.raise (.assertion "a function call needs at least one argument")
  else return .funcCall sqlName args resultType

def inList (value : Node) (items : List Node) (negated : Bool) : Gen Node :=
  if items = [] then Draw.raise (.assertion "IN needs at least one item")
  else return .inList value items negated

def comparisons : List ComparisonOperator := [.eq, .ne, .lt, .le, .gt, .ge]

def strings : List String := ["", "a", "abc", "Zed", "o'brien", "trailing "]

def likePatterns : List String := ["%", "a%", "%c", "%a%", "___", "o'brien"]

def maxPredicateDepth : ℕ := 2

/-- `_quote` -/
def quote (text : String) : String :=
  let doubled := text.toList.flatMap fun c => if c = '\'' then ['\'', '\''] else [c]
  "'" ++ String.ofList doubled ++ "'"

def allFamilies : List TypeClass :=
  [.numericType, .doubleType, .varcharType, .booleanType, .dateType, .timestampType, .jsonbType,
    .uuidType, .int4RangeType]

def clickhouseFamilies : List TypeClass :=
  [.doubleType, .varcharType, .booleanType, .dateType, .timestampType]

/-- Both types are instances of one of the families. -/
def share (families : List TypeClass) (left right : SqlType) : Bool :=
  families.any fun family => isInstance left family && isInstance right family

/-- `_same_family` -/
def sameFamily (left right : SqlType) (dialect : String) : Bool :=
  if dialect = "clickhouse" then
    if isInstance left .integerType && isInstance right .integerType then true
    else if isInstance left .numericType && isInstance right .numericType &&
        !isInstance left .integerType && !isInstance right .integerType then
      left.getScale.getD 0 = right.getScale.getD 0
    else share clickhouseFamilies left right
  else share allFamilies left right

/-- The literals of a type; whole numbers are integer literals whatever their type. -/
def literals (dtype : SqlType) : List Node :=
  if isInstance dtype .booleanType then
    ["TRUE", "FALSE"].map fun sql => .portableLiteral sql dtype
  else if isInstance dtype .doubleType then
    ["0.0", "1.5", "-0.25", "1000.125"].map fun sql => .portableLiteral sql dtype
  else if isInstance dtype .numericType then
    if dtype.getScale.getD 0 ≠ 0 then
      ["0.00", "12.34", "-5.50", "999.99"].map fun sql => .portableLiteral sql dtype
    else [-7, -1, 0, 1, 2, 3, 42, 1000].map .intLiteral
  else if isInstance dtype .dateType then
    ["2024-01-15", "1999-12-31", "2030-06-01"].map fun text => .portableLiteral (quote text) dtype
  else if isInstance dtype .timestampType then
    ["2024-01-15 12:34:56", "1999-12-31 23:59:59"].map fun text =>
      .portableLiteral (quote text) dtype
  else if isInstance dtype .jsonbType then
    ["'\x7b\x7d'::jsonb", "'[]'::jsonb", "'\x7b\"a\": 1\x7d'::jsonb"].map fun sql =>
      .portableLiteral sql dtype
  else if isInstance dtype .uuidType then
    ["'00000000-0000-0000-0000-000000000000'::uuid",
      "'550e8400-e29b-41d4-a716-446655440000'::uuid"].map fun sql => .portableLiteral sql dtype
  else if isInstance dtype .int4RangeType then
    ["'empty'::int4range", "'[1,10)'::int4range", "'[0,100]'::int4range"].map fun sql =>
      .portableLiteral sql dtype
  else strings.map fun text => .portableLiteral (quote text) dtype

/-- `_literal` -/
def literal (dtype : SqlType) : Gen Node :=
  choice (literals dtype)

/-- `rng.random() < p` -/
def chance (p : ℚ) : Gen Bool := do
  return (← Draw.random) < p

/-- `_compare` -/
def compare (left right : Node) : Gen Node := do
  return .comparison (← choice comparisons) left right

/-- `expr.col` of a column. -/
def columnRef (column : Column) : Node :=
  .columnRef column.name column.dataType none

/-- The other columns of the family. -/
def peers (columns : List Column) (name : String) (dtype : SqlType) (dialect : String) :
    List Column :=
  columns.filter fun c => c.name ≠ name && sameFamily dtype c.dataType dialect

/-- `_peer_or_literal`; the chance is only taken where there is a peer. -/
def peerOrLiteral (columns : List Column) (name : String) (dtype : SqlType) (dialect : String) :
    Gen Node :=
  Draw.otherwise
    (if peers columns name dtype dialect = [] then pure none
    else do
      if ← chance (2 / 5) then
        return some (columnRef (← choice (peers columns name dtype dialect)))
      else return none)
    (literal dtype)

def candidates (columns : List Column) (family : TypeClass) : List Column :=
  columns.filter fun c => isInstance c.dataType family

/-- The first argument is a column; a later one may be a literal. -/
def takesColumn (first : Bool) : Gen Bool :=
  if first then return true else chance (3 / 5)

/-- One argument. -/
def funcArg (columns : List Column) (first : Bool) (family : TypeClass) : Gen Node := do
  if ← takesColumn first then return columnRef (← choice (candidates columns family))
  else literal (← choice (candidates columns family)).dataType

/-- The loop of `_pick_func_args`. -/
def pickFuncArgs (columns : List Column) : Bool → List TypeClass → Gen (Option (List Node))
  | _, [] => return some []
  | first, family :: families => do
    if candidates columns family = [] then return none
    else
      let arg ← funcArg columns first family
      return (← pickFuncArgs columns false families).map fun args => arg :: args

/-- The specs of the catalog that the columns of the table can be arguments of. -/
def applicable (catalog : List FuncSpec) (columns : List Column) : List FuncSpec :=
  catalog.filter fun spec => spec.argFamilies.all fun family =>
    columns.any fun c => isInstance c.dataType family

/-- What `_func_atom` makes of a function and its arguments. -/
def funcAtomOf (spec : FuncSpec) (args : List Node) : Gen Node := do
  match spec.resultTypeFor (args.map Node.dataType) with
  | none => Draw.raise (.type spec.result)
  | some result =>
    let call ← funcCall spec.sqlName args result
    if isInstance result .booleanType then return call
    else compare call (← literal result)

/-- `_func_atom` -/
def funcAtom (columns : List Column) (dialect : String) : Gen (Option Node) := do
  match catalogFor dialect with
  | none => Draw.raise (.value s!"no function catalog for dialect '{dialect}'")
  | some catalog =>
    if applicable catalog columns = [] then return none
    else
      let spec ← choice (applicable catalog columns)
      match ← pickFuncArgs columns true spec.argFamilies with
      | none => return none
      | some args => return some (← funcAtomOf spec args)

section Atoms

variable (columns : List Column) (dialect : String) (column : Column) (drawn : ℚ)

/-- `jsonb` and the integer range: only null tests and equality. -/
def unorderedAtom : Gen Node := do
  let ref := columnRef column
  if drawn < 2 / 5 then return .isNull ref false
  else if drawn < 7 / 10 then return .isNull ref true
  else return .comparison .eq ref (← literal column.dataType)

def distinctAtom : Gen (Option Node) := do
  if drawn < 13 / 50 ∧ dialect ≠ "clickhouse" then
    let other ← peerOrLiteral columns column.name column.dataType dialect
    return some (.isDistinctFrom (columnRef column) other (← chance (1 / 2)))
  else return none

def betweenAtom : Gen (Option Node) := do
  if drawn < 9 / 25 then
    let low ← literal column.dataType
    let high ← literal column.dataType
    return some (.between (columnRef column) low high (← chance (1 / 4)))
  else return none

/-- ClickHouse reads a decimal literal as a float. -/
def decimalish : Bool :=
  dialect = "clickhouse" && isInstance column.dataType .numericType &&
    !isInstance column.dataType .integerType && column.dataType.getScale.getD 0 ≠ 0

def inAtom : Gen (Option Node) := do
  if drawn < 23 / 50 ∧ decimalish dialect column = false then
    let n ← Draw.between 1 3
    let items ← Draw.times (literal column.dataType) n
    return some (← inList (columnRef column) items (← chance (1 / 4)))
  else return none

def likeAtom : Gen (Option Node) := do
  if drawn < 27 / 50 ∧ isInstance column.dataType .varcharType then
    let pattern := .portableLiteral (quote (← choice likePatterns)) column.dataType
    return some (.like (columnRef column) pattern (← chance (1 / 4)))
  else return none

def catalogAtom : Gen (Option Node) :=
  if drawn < 18 / 25 then funcAtom columns dialect else return none

def peerAtom : Gen (Option Node) := do
  if drawn < 41 / 50 ∧ peers columns column.name column.dataType dialect ≠ [] then
    let other ← choice (peers columns column.name column.dataType dialect)
    return some (← compare (columnRef column) (columnRef other))
  else return none

def modAtom : Gen (Option Node) := do
  if drawn < 22 / 25 ∧ isInstance column.dataType .numericType ∧
      isInstance column.dataType .doubleType = false ∧ column.dataType.getScale.getD 0 = 0 then
    let parity ← choice [0, 1]
    return some (← compare (.mod (columnRef column) 2) (.intLiteral parity))
  else return none

def literalAtom : Gen Node := do
  compare (columnRef column) (← literal column.dataType)

/-- An atom of a type with an order; a shape that does not fit gives way to the next. -/
def orderedAtom : Gen Node :=
  if drawn < 1 / 10 then return .isNull (columnRef column) false
  else if drawn < 4 / 25 then return .isNull (columnRef column) true
  else
    Draw.otherwise (distinctAtom columns dialect column drawn) <|
    Draw.otherwise (betweenAtom column drawn) <|
    Draw.otherwise (inAtom dialect column drawn) <|
    Draw.otherwise (likeAtom column drawn) <|
    Draw.otherwise (catalogAtom columns dialect drawn) <|
    Draw.otherwise (peerAtom columns dialect column drawn) <|
    Draw.otherwise (modAtom column drawn) (literalAtom column)

end Atoms

/-- `_atom` -/
def atom (columns : List Column) (dialect : String) : Gen Node := do
  let column ← choice columns
  let drawn ← Draw.random
  if column.dataType.getProperties.orderable then orderedAtom columns dialect column drawn
  else unorderedAtom column drawn

/-- `_predicate`, by the depth that is left. -/
def predicate (columns : List Column) (dialect : String) : ℕ → Gen Node
  | 0 => atom columns dialect
  | left + 1 => do
    if ← chance (9 / 20) then atom columns dialect
    else if ← chance (1 / 5) then return .not (← predicate columns dialect left)
    else
      let first ← predicate columns dialect left
      let second ← predicate columns dialect left
      if ← chance (1 / 2) then return .boolOp .and first second
      else return .boolOp .or first second

/-- `build_predicate`; a seed is the stream that it draws. -/
def buildPredicate (table : Table) (dialect : String) (draws : ℕ → ℕ) :
    Except BuildError (Option Node) :=
  if table.columns = [] then .ok none
  else (predicate table.columns dialect maxPredicateDepth).run draws |>.map some

end EqGen.Generators.TypedPredicate.Build
