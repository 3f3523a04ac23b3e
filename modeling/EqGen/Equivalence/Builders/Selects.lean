import EqGen.Equivalence.Builders.Creates

/-! The builders of `builders/sources.py` and `builders/selects.py`. -/

namespace EqGen.Equivalence.Builders.Selects

open EqGen.Core.Types
open EqGen.Ir.Expr hiding ExpressionNode
open EqGen.Equivalence.Ast
open EqGen.Equivalence.Context
open EqGen.Equivalence.Builders.Base
open EqGen.Equivalence.Builders.Creates
open EqGen.Lib.Backtrack

variable (buildSubtree : BuildSubtree) (context : EquivalenceContext)

/-- `BaseTableSourceBuilder._build` -/
def baseTableSource : Gen EqNode :=
  newNode (.baseTableSource context.baseTable) []

/-- `SelectStarQueryBuilder._build` -/
def selectStarQuery (constraints : ConstraintSet) : Gen EqNode := do
  let source ← dispatchSource buildSubtree constraints
  selectQuery source { predicate := constraints.rowFilter }

/-- `ExplicitProjectionQueryBuilder._build` -/
def explicitProjectionQuery (constraints : ConstraintSet) : Gen EqNode := do
  let items := passthroughItems context
  Attempt.guard (items ≠ [])
  let source ← dispatchSource buildSubtree constraints
  selectQuery source { projection := some items, predicate := constraints.rowFilter }

/-- The three builders that read through a common table expression. -/
def readThroughCte (suffix : String) (materialize : Option Bool) (constraints : ConstraintSet) :
    Gen EqNode := do
  let source ← dispatchSource buildSubtree constraints
  let name ← generateObjectName (context.baseTable.name ++ suffix)
  newQuery (.cte name constraints.rowFilter materialize) [source]

/-- `CteQueryBuilder._build` -/
def cteQuery : ConstraintSet → Gen EqNode :=
  readThroughCte buildSubtree context "_cte" none

/-- `MaterializedCteQueryBuilder._build` -/
def materializedCteQuery : ConstraintSet → Gen EqNode :=
  readThroughCte buildSubtree context "_mcte" (some true)

/-- `NotMaterializedCteQueryBuilder._build` -/
def notMaterializedCteQuery : ConstraintSet → Gen EqNode :=
  readThroughCte buildSubtree context "_nmcte" (some false)

/-- `LateralReprojectQueryBuilder._build` -/
def lateralReprojectQuery : Gen EqNode := do
  let source ← dispatchSource buildSubtree {}
  Attempt.guard (getSignature source ≠ [])
  newQuery (.lateralReproject "s" "l") [source]

/-- `AddDropColumnQueryBuilder._build` -/
def addDropColumnQuery : Gen EqNode := do
  let baseItems := passthroughItems context
  Attempt.guard (baseItems ≠ [])
  let source ← dispatchSource buildSubtree {}
  let extraName ← generateColumnName "eq_tmp_col"
  let extra : ProjectionItem := ⟨extraName, .typedNull integerType, integerType⟩
  let query ← selectQuery source { projection := some (baseItems ++ [extra]) }
  let wider ← createView context query none
  selectQuery wider { projection := some baseItems }

/-- The columns of the base table, selected from a source with the first column at hand. -/
def selectOrdered (query : List ProjectionItem → ExpressionNode → SelectQuery) : Gen EqNode :=
  match passthroughItems context with
  | [] => Attempt.decline
  | first :: rest => do
    let source ← dispatchSource buildSubtree {}
    selectQuery source (query (first :: rest) (col first.name first.dataType))

/-- `QualifyQueryBuilder._build` -/
def qualifyQuery : Gen EqNode :=
  selectOrdered buildSubtree context fun items orderCol =>
    { projection := some items, qualify := some (ge (rowNumber [orderCol]) (intLit 1)) }

/-- `OrderedScanQueryBuilder._build` -/
def orderedScanQuery : Gen EqNode :=
  selectOrdered buildSubtree context fun items orderCol =>
    { projection := some items, orderBy := some [orderCol] }

/-- `DistinctAsGroupByQueryBuilder._build` -/
def distinctAsGroupByQuery : Gen EqNode := do
  let keyName ← generateColumnName "eq_dg"
  let keyed ← materializeRowKey buildSubtree context keyName
  Attempt.guard (keyed.baseItems ≠ [])
  let groupKeys := keyed.baseItems.map (fun item => col item.name item.dataType) ++
    [col keyName integerType]
  selectQuery keyed.relation { projection := some keyed.baseItems, groupBy := some groupKeys }

end EqGen.Equivalence.Builders.Selects
