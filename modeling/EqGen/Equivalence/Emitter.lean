import EqGen.Equivalence.Ast

/-!
The `SELECT` that a `QueryRenderer` writes for a query (`equivalence/emitter.py`), kept as the
clauses it has until it is spelled out.
-/

namespace EqGen.Equivalence.Emitter

open EqGen.Core.Types
open EqGen.Core.Catalog
open EqGen.Ir.Expr hiding ExpressionNode
open EqGen.Equivalence.Ast

/-- How a dialect writes expressions, and the types it casts to. -/
structure Spelling where
  expr : ExpressionNode → String
  castType : SqlType → String

/-- One entry of a select list: an item, an item cast to its type, or a condition to filter by. -/
inductive ListItem where
  | plain (item : ProjectionItem)
  | cast (item : ProjectionItem)
  | probe (condition : ExpressionNode)

/-- The name a lowered `QUALIFY` gives its condition. -/
def probeName : String := "eq_q"

def ListItem.name : ListItem → String
  | .plain item => item.name
  | .cast item => item.name
  | .probe _ => probeName

def ListItem.expr : ListItem → ExpressionNode
  | .plain item => item.expr
  | .cast item => item.expr
  | .probe condition => condition

/-- The clauses of one `SELECT`; without a list it selects `*`. -/
structure Body where
  distinct : Bool := false
  list : Option (List ListItem) := none
  predicate : Option ExpressionNode := none
  groupBy : Option (List ExpressionNode) := none
  qualify : Option ExpressionNode := none

/-- A `SELECT` over a created relation, or over another one, sorted or not. -/
inductive Rendered where
  | over (body : Body) (refSql : String)
  | nested (body : Body) (inner : Rendered) (orderBy : Option (List ExpressionNode))
      (subquery : String)

section Text

variable (spelling : Spelling)

/-- `_projection_sql` -/
def projectionSql (item : ProjectionItem) : String :=
  let rendered := spelling.expr item.expr
  if rendered = item.name then rendered else rendered ++ " AS " ++ item.name

/-- `_cast_projection_sql` -/
def castProjectionSql (item : ProjectionItem) : String :=
  "CAST(" ++ spelling.expr item.expr ++ " AS " ++ spelling.castType item.dataType ++ ") AS " ++
    item.name

def ListItem.text : ListItem → String
  | .plain item => projectionSql spelling item
  | .cast item => castProjectionSql spelling item
  | .probe condition => "(" ++ spelling.expr condition ++ ") AS " ++ probeName

/-- A keyword and an expression, or nothing. -/
def clause (keyword : String) : Option ExpressionNode → String
  | none => ""
  | some condition => keyword ++ spelling.expr condition

def keysClause (keyword : String) : Option (List ExpressionNode) → String
  | none => ""
  | some keys => keyword ++ ", ".intercalate (keys.map spelling.expr)

def Body.text (body : Body) (source : String) : String :=
  "SELECT " ++ (if body.distinct then "DISTINCT " else "") ++
    (match body.list with
    | none => "*"
    | some items => ", ".intercalate (items.map (ListItem.text spelling))) ++
    " FROM " ++ source ++ clause spelling " WHERE " body.predicate ++
    keysClause spelling " GROUP BY " body.groupBy ++ clause spelling " QUALIFY " body.qualify

def Rendered.text : Rendered → String
  | .over body refSql => body.text spelling refSql
  | .nested body inner orderBy subquery =>
    body.text spelling
      ("(" ++ Rendered.text inner ++ keysClause spelling " ORDER BY " orderBy ++ ") AS " ++
        subquery)

end Text

/-- The body, and around it the same list once more where its rows are to be sorted. -/
def sorted (body : Body) (outer : Option (List ListItem)) (refSql : String) :
    Option (List ExpressionNode) → Rendered
  | none => .over body refSql
  | some keys => .nested { list := outer } (.over body refSql) (some keys) "eq_ord"

/-- The clauses of a query, with its list written in some way. -/
def bodyOf (list : Option (List ListItem)) (query : SelectQuery) : Body where
  distinct := query.distinct
  list := list
  predicate := query.predicate
  groupBy := query.groupBy
  qualify := query.qualify

def plainList (query : SelectQuery) : Option (List ListItem) :=
  query.projection.map fun items => items.map .plain

namespace QueryRenderer

/-- `QueryRenderer.visit_select_query` -/
def visitSelectQuery (query : SelectQuery) (refSql : String) : Rendered :=
  sorted (bodyOf (plainList query) query) (plainList query) refSql query.orderBy

/-- `QueryRenderer.visit_join_query` -/
def visitJoinQuery (spelling : Spelling) (left right : String) (query : JoinQuery) :
    Except String String := do
  let selectList := ", ".intercalate (query.projection.map (projectionSql spelling))
  let where' := clause spelling " WHERE " query.predicate
  let on ←
    if query.joinType.value.toUpper = "CROSS" then pure ""
    else
      match query.condition with
      | none => throw "a join must have an ON condition"
      | some condition => pure (" ON " ++ spelling.expr condition)
  pure ("SELECT " ++ selectList ++ " FROM " ++ left ++ " " ++ query.leftAlias ++ " " ++
    query.joinType.value ++ " JOIN " ++ right ++ " " ++ query.rightAlias ++ on ++ where')

end QueryRenderer

end EqGen.Equivalence.Emitter
