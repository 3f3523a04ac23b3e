import EqGen.Equivalence.Emitter

/-!
The query renderers of the dialects that lack `QUALIFY` or `FULL OUTER JOIN`
(`dialects/*/emitter.py`).
-/

namespace EqGen.Dialects.Emitters

open EqGen.Core.Types
open EqGen.Core.Catalog
open EqGen.Ir.Expr hiding ExpressionNode
open EqGen.Equivalence.Ast
open EqGen.Equivalence.Emitter

def booleanType : SqlType := ⟨.boolean, none, none⟩

/-- The column of a projection item, under its own name. -/
def aliasItem (item : ProjectionItem) : ProjectionItem :=
  ⟨item.name, .columnRef item.name item.dataType none, item.dataType⟩

/-- The select list with the condition in it, and the filter around it. -/
def lowerQualify (outer : List ListItem) (items : List ProjectionItem)
    (condition : ExpressionNode) (query : SelectQuery) (refSql : String) : Rendered :=
  let list := items.map .plain ++ [.probe condition]
  .nested { list := some outer, predicate := some (.columnRef probeName booleanType none) }
    (.over { bodyOf (some list) query with qualify := none } refSql) none "eq_qsrc"

/-- The lowered form, sorted where the query is. -/
def lowered (outer : List ListItem) (items : List ProjectionItem) (condition : ExpressionNode)
    (query : SelectQuery) (refSql : String) : Rendered :=
  let body := lowerQualify outer items condition query refSql
  match query.orderBy with
  | none => body
  | some keys => .nested { list := some outer } body (some keys) "eq_ord"

/-- What the renderers do with a `QUALIFY`, given how they write the outer list and the rest. -/
def visitQualified (dialect : String) (outer : ProjectionItem → ListItem)
    (visit : SelectQuery → String → Rendered) (query : SelectQuery) (refSql : String) :
    Except String Rendered :=
  match query.qualify, query.projection with
  | none, _ => pure (visit query refSql)
  | some _, none => throw (dialect ++ " QUALIFY lowering needs an explicit projection")
  | some condition, some items => pure (lowered (items.map outer) items condition query refSql)

/-- The join written in place of a `FULL OUTER JOIN`. -/
def lowerFullOuter (query : JoinQuery) : JoinQuery :=
  if query.joinType = .fullOuter then { query with joinType := .leftOuter } else query

namespace Postgres

/-- `PostgresQueryRenderer.visit_select_query` -/
def visitSelectQuery : SelectQuery → String → Except String Rendered :=
  visitQualified "PostgreSQL" (fun item => .plain (aliasItem item)) QueryRenderer.visitSelectQuery

end Postgres

namespace MySql

/-- `MySqlQueryRenderer.visit_select_query` -/
def visitSelectQuery : SelectQuery → String → Except String Rendered :=
  visitQualified "MySQL" (fun item => .plain (aliasItem item)) QueryRenderer.visitSelectQuery

/-- `MySqlQueryRenderer.visit_join_query` -/
def visitJoinQuery (spelling : Spelling) (left right : String) (query : JoinQuery) :
    Except String String :=
  QueryRenderer.visitJoinQuery spelling left right (lowerFullOuter query)

end MySql

namespace ClickHouse

/-- `ClickHouseQueryRenderer.visit_select_query` -/
def visitSelectQuery : SelectQuery → String → Except String Rendered :=
  visitQualified "ClickHouse" (fun item => .plain (aliasItem item)) QueryRenderer.visitSelectQuery

/-- `ClickHouseQueryRenderer.visit_join_query` -/
def visitJoinQuery (spelling : Spelling) (left right : String) (query : JoinQuery) :
    Except String String :=
  QueryRenderer.visitJoinQuery spelling left right (lowerFullOuter query)

end ClickHouse

namespace Crate

/-- `CrateQueryRenderer.visit_select_query` -/
def visitSelectQuery : SelectQuery → String → Except String Rendered :=
  visitQualified "CrateDB" (fun item => .plain (aliasItem item)) QueryRenderer.visitSelectQuery

/-- `CrateQueryRenderer.visit_join_query` -/
def visitJoinQuery (spelling : Spelling) (left right : String) (query : JoinQuery) :
    Except String String :=
  QueryRenderer.visitJoinQuery spelling left right (lowerFullOuter query)

end Crate

namespace Sqlite

/-- The columns of the source, each cast to its type. -/
def castSignature (signature : Signature) : List ListItem :=
  signature.map fun named =>
    .cast ⟨named.name, .columnRef named.name named.target none, named.target⟩

/-- The select list with a cast around every entry; `*` is written out for it. -/
def selectItems (source : Signature) (query : SelectQuery) : List ListItem :=
  match query.projection with
  | none => castSignature source
  | some items => items.map .cast

/-- `SqliteQueryRenderer._select_with_affinity`, given the signature of the source. -/
def selectWithAffinity (source : Signature) (query : SelectQuery) (refSql : String) : Rendered :=
  let list := selectItems source query
  sorted { bodyOf (some list) query with qualify := none } (some list) refSql query.orderBy

/-- `SqliteQueryRenderer.visit_select_query` -/
def visitSelectQuery (source : Signature) : SelectQuery → String → Except String Rendered :=
  visitQualified "SQLite" (fun item => .cast (aliasItem item)) (selectWithAffinity source)

end Sqlite

end EqGen.Dialects.Emitters
