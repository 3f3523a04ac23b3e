import EqGen.Equivalence.Builders.Base

/-!
The builders that wrap a query in a created object (`builders/creates.py`), and the one that
serves a request for particular columns (`builders/selects.py`).
-/

namespace EqGen.Equivalence.Builders.Creates

open EqGen.Equivalence.Ast
open EqGen.Equivalence.Context
open EqGen.Equivalence.Builders.Base
open EqGen.Lib.Backtrack

variable (buildSubtree : BuildSubtree) (context : EquivalenceContext)

/-- `_query_constraints` -/
def queryConstraints (constraints : ConstraintSet) : ConstraintSet :=
  { rowFilter := constraints.rowFilter, columnRewrite := constraints.columnRewrite }

/-- `CreateFromQueryBuilder._build`, given how the kind wraps its query. -/
def createFromQuery (wrap : EqNode → Option String → Gen EqNode) (constraints : ConstraintSet) :
    Gen EqNode := do
  let query ← buildSubtree .queryNode (queryConstraints constraints)
  wrap query constraints.exposedName

/-- `CreateViewBuilder._build` -/
def createViewBuilder (constraints : ConstraintSet) : Gen EqNode :=
  createFromQuery buildSubtree (createView context) constraints

/-- `CreateTemporaryViewBuilder._build` -/
def createTemporaryViewBuilder (constraints : ConstraintSet) : Gen EqNode :=
  createFromQuery buildSubtree (createTemporaryView context) constraints

/-- `CreateMaterializedViewBuilder._wrap`: over a permanent table of the query. -/
def wrapMaterializedView (query : EqNode) (exposedName : Option String) : Gen EqNode := do
  let body ← createTable context query none
  let all ← selectQuery body {}
  createMaterializedView context all exposedName

/-- `CreateMaterializedViewBuilder._build` -/
def createMaterializedViewBuilder (constraints : ConstraintSet) : Gen EqNode :=
  createFromQuery buildSubtree (wrapMaterializedView context) constraints

/-- `CreateTableBuilder._build` -/
def createTableBuilder (constraints : ConstraintSet) : Gen EqNode :=
  createFromQuery buildSubtree (createTable context) constraints

/-- `CreateTemporaryTableBuilder._build` -/
def createTemporaryTableBuilder (constraints : ConstraintSet) : Gen EqNode :=
  createFromQuery buildSubtree (createTemporaryTable context) constraints

/-- `_dispatch_source` -/
def dispatchSource (constraints : ConstraintSet) : Gen EqNode :=
  buildSubtree .equivalentSource { singleSource := constraints.singleSource }

/-- `ProjectionQueryBuilder._build` -/
def projectionQuery (constraints : ConstraintSet) : Gen EqNode := do
  let source ← dispatchSource buildSubtree constraints
  match constraints.columnRewrite with
  | none => Attempt.raise (.value "Constraint of type ColumnRewriteConstraint not found")
  | some items =>
    selectQuery source { projection := some items, predicate := constraints.rowFilter }

end EqGen.Equivalence.Builders.Creates
