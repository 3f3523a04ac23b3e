import EqGen.Generators.TypedPredicate.Build

/-! `print.py`: a predicate as the SQL of a dialect. -/

namespace EqGen.Generators.TypedPredicate.Print

open EqGen.Generators.TypedPredicate.Build

/-- `Printer` and the classes that override it; the others only inherit. -/
inductive Printer where
  | portable | sqlite | mysql
  deriving DecidableEq, Repr

/-- `printer_for` -/
def printerFor (dialect : String) : Option Printer :=
  if dialect ∈ ["duckdb", "postgres", "cratedb", "clickhouse"] then some .portable
  else if dialect = "sqlite" then some .sqlite
  else if dialect ∈ ["mysql", "mariadb", "tidb", "dolt"] then some .mysql
  else none

/-- The nodes that need no brackets as operands. -/
def atomic : Node → Bool
  | .columnRef .. | .intLiteral _ | .portableLiteral .. | .mod .. | .funcCall .. => true
  | _ => false

/-- `_operand` -/
def operandSql (node : Node) (rendered : String) : String :=
  if atomic node then rendered else "(" ++ (rendered ++ ")")

def columnSql (name : String) (relationAlias : Option String) : String :=
  match relationAlias with
  | none => name
  | some relation => relation ++ "." ++ name

/-- The keyword of a form that can be negated. -/
def negatable (negated : Bool) (word : String) : String :=
  if negated then "NOT " ++ word else word

/-- MySQL has an operator for `IS NOT DISTINCT FROM` and brackets it. -/
def distinctSql (printer : Printer) (left right : String) (negated : Bool) : String :=
  match printer with
  | .mysql =>
    let same := "(" ++ (left ++ (" <=> " ++ (right ++ ")")))
    if negated then same else "(NOT " ++ (same ++ ")")
  | _ =>
    left ++ ((if negated then " IS NOT DISTINCT FROM " else " IS DISTINCT FROM ") ++ right)

/-- `mod_sql` -/
def modSql (printer : Printer) (operand : String) (modulus : ℤ) : String :=
  match printer with
  | .sqlite => "(" ++ (operand ++ (" % " ++ (toString modulus ++ ")")))
  | _ => "MOD(" ++ (operand ++ (", " ++ (toString modulus ++ ")")))

mutual

/-- `Printer.expr` -/
def expr (printer : Printer) : Node → String
  | .columnRef name _ relationAlias => columnSql name relationAlias
  | .intLiteral value => toString value
  | .portableLiteral sql _ => sql
  | .comparison operator left right =>
    operandSql left (expr printer left) ++
      (" " ++ (operator.text ++ (" " ++ operandSql right (expr printer right))))
  | .boolOp operator left right =>
    operandSql left (expr printer left) ++
      (" " ++ (operator.text ++ (" " ++ operandSql right (expr printer right))))
  | .not operand => "NOT " ++ operandSql operand (expr printer operand)
  | .isNull operand negated =>
    operandSql operand (expr printer operand) ++ (" IS " ++ negatable negated "NULL")
  | .mod operand modulus => modSql printer (expr printer operand) modulus
  | .funcCall sqlName args _ =>
    sqlName ++ ("(" ++ (", ".intercalate (exprs printer args) ++ ")"))
  | .isDistinctFrom left right negated =>
    distinctSql printer (operandSql left (expr printer left))
      (operandSql right (expr printer right)) negated
  | .between value low high negated =>
    operandSql value (expr printer value) ++
      (" " ++ (negatable negated "BETWEEN" ++
        (" " ++ (operandSql low (expr printer low) ++
          (" AND " ++ operandSql high (expr printer high))))))
  | .inList value items negated =>
    operandSql value (expr printer value) ++
      (" " ++ (negatable negated "IN" ++
        (" (" ++ (", ".intercalate (exprs printer items) ++ ")"))))
  | .like value pattern negated =>
    operandSql value (expr printer value) ++
      (" " ++ (negatable negated "LIKE" ++ (" " ++ operandSql pattern (expr printer pattern))))

def exprs (printer : Printer) : List Node → List String
  | [] => []
  | node :: nodes => expr printer node :: exprs printer nodes

end

example (printer : Printer) (value : Int) :
    expr printer (.not (.intLiteral value)) = "NOT " ++ toString value := by
  rw [expr, expr]
  rfl

/-- `print_predicate` -/
def printPredicate (node : Node) (dialect : String) : Option String :=
  (printerFor dialect).map fun printer => expr printer node

end EqGen.Generators.TypedPredicate.Print
