import EqGen.Equivalence.Builders.Base

/-! The expanders and reducers of `builders/expansion.py`. -/

namespace EqGen.Equivalence.Builders.Expansion

open EqGen.Core.Types
open EqGen.Ir.Expr hiding ExpressionNode
open EqGen.Equivalence.Ast
open EqGen.Equivalence.Context
open EqGen.Equivalence.Builders.Base
open EqGen.Lib.Backtrack
open EqGen.Lib.Dag

/-- `_KEEP` -/
def keep : Int := 1

/-- `_THROWAWAY` -/
def throwaway : Int := 0

variable (buildSubtree : BuildSubtree) (context : EquivalenceContext)

/-- `child.exposed` -/
def exposedOf (node : EqNode) : Object :=
  match node.label with
  | .relation relation => relation.exposed
  | _ => ⟨false, refSql node, "", ⟨.unionAll, []⟩⟩

/-- The base columns and the tag set to a constant. -/
def taggedItems (baseItems : List ProjectionItem) (tagCol : String) (tag : Int) :
    List ProjectionItem :=
  baseItems ++ [⟨tagCol, intLit tag, integerType⟩]

/-- The same columns of a child, and the tag of a throwaway copy. -/
def throwItems (baseItems : List ProjectionItem) (tagCol : String) : List ProjectionItem :=
  taggedItems (baseItems.map fun item => passthrough item.name item.dataType) tagCol throwaway

def tagIs (tagCol : String) (value : Int) : ExpressionNode :=
  eq (col tagCol integerType) (intLit value)

/-- `InsertExtrasExpansion.build` -/
def insertExtrasExpansion (child : EqNode) (insert : SetupStep) : Gen EqNode :=
  newNode (.relation ⟨.insertExtrasExpansion, .table, [insert], exposedOf child,
    getSignature child⟩) [child]

/-- `TagPruneDeleteTable.build` -/
def tagPruneDeleteTable (child : EqNode) (baseItems : List ProjectionItem) (tagCol : String)
    (keepValue : Int) (exposedName : Option String) : Gen EqNode := do
  let name ← exposedOrMinted context "view" exposedName
  let view : Object :=
    ⟨true, name, "VIEW", queryOver (.select { projection := some baseItems }) [child]⟩
  newNode (.relation ⟨.tagPruneDeleteTable, .view,
    [.delete (refSql child) (some (ne (col tagCol integerType) (intLit keepValue))),
      .object view],
    view, itemSignature baseItems⟩) [child]

/-- `TagExplodeExpansionBuilder._build` -/
def tagExplodeExpansion (constraints : ConstraintSet) : Gen EqNode := do
  let channel ← Attempt.fromOption constraints.tagChannel
  let baseItems := passthroughItems context
  Attempt.guard (baseItems ≠ [])
  let kept ← buildSubtree .equivalentRelation
    { columnRewrite := some (taggedItems baseItems channel.tagCol channel.keepValue),
      acceptsDml := true }
  let thrown ← selectQuery kept { projection := some (throwItems baseItems channel.tagCol) }
  let thrown ← createTable context thrown none
  let rowcount ← chooseOne context context.config.bigTableRowcountWeights
  let branches := kept :: List.replicate (rowcount - 1) thrown
  if branches.length = 1 then
    let query ← selectQuery kept {}
    createTable context query none
  else
    let query ← unionAllQuery branches
    createTable context query none

/-- `TagInsertExtrasExpansionBuilder._build` -/
def tagInsertExtrasExpansion (constraints : ConstraintSet) : Gen EqNode := do
  let channel ← Attempt.fromOption constraints.tagChannel
  let baseItems := passthroughItems context
  Attempt.guard (baseItems ≠ [])
  let child ← buildSubtree .equivalentRelation { tagChannel := some channel, acceptsDml := true }
  let query : SelectQuery :=
    { projection := some (throwItems baseItems channel.tagCol),
      predicate := some (tagIs channel.tagCol channel.keepValue) }
  insertExtrasExpansion child
    (.insertQuery (refSql child) (queryOver (.select query) [child]))

/-- `KeyExplodeExpansionBuilder._build` -/
def keyExplodeExpansion (constraints : ConstraintSet) : Gen EqNode := do
  let channel ← Attempt.fromOption constraints.keyChannel
  let keyed ← materializeRowKey buildSubtree context channel.column
  let rowcount ← chooseOne context context.config.bigTableRowcountWeights
  let query ← unionAllQuery (List.replicate rowcount keyed.relation)
  createTable context query none

/-- `KeyInsertExtrasExpansionBuilder._build` -/
def keyInsertExtrasExpansion (constraints : ConstraintSet) : Gen EqNode := do
  let channel ← Attempt.fromOption constraints.keyChannel
  let child ← buildSubtree .equivalentRelation { keyChannel := some channel }
  insertExtrasExpansion child (.insertQuery (refSql child) (queryOver (.select {}) [child]))

/-- What a reducer has in hand once an expansion came back. -/
structure Expanded where
  child : EqNode
  baseItems : List ProjectionItem
  column : String

/-- `_build_reduced` -/
def buildReduced (requiresDml : Bool) : Gen Expanded := do
  let baseItems := passthroughItems context
  Attempt.guard (baseItems ≠ [])
  let tagCol ← generateColumnName "eq_tag"
  let child ← buildSubtree .equivalentRelation
    { tagChannel := some ⟨tagCol, keep⟩, acceptsDml := requiresDml }
  pure ⟨child, baseItems, tagCol⟩

/-- `_build_keyed` -/
def buildKeyed : Gen Expanded := do
  let baseItems := passthroughItems context
  Attempt.guard (baseItems ≠ [])
  let keyCol ← generateColumnName "eq_key"
  let child ← buildSubtree .equivalentRelation
    { keyChannel := some { column := keyCol, scope := .identity } }
  pure ⟨child, baseItems, keyCol⟩

/-- `TagPruneDeleteReduceBuilder._build` -/
def tagPruneDeleteReduce (constraints : ConstraintSet) : Gen EqNode := do
  let built ← buildReduced buildSubtree context true
  tagPruneDeleteTable context built.child built.baseItems built.column keep constraints.exposedName

/-- `TagPruneFilterReduceBuilder._build` -/
def tagPruneFilterReduce (constraints : ConstraintSet) : Gen EqNode := do
  let built ← buildReduced buildSubtree context false
  let query ← selectQuery built.child
    { projection := some built.baseItems, predicate := some (tagIs built.column keep) }
  createView context query constraints.exposedName

/-- A view that collapses the copies, and the view that drops the key from it. -/
def collapse (built : Expanded) (query : SelectQuery) (constraints : ConstraintSet) :
    Gen EqNode := do
  let query ← selectQuery built.child query
  let collapsed ← createView context query none
  let outer ← selectQuery collapsed { projection := some built.baseItems }
  createView context outer constraints.exposedName

/-- `KeyDistinctReduceBuilder._build` -/
def keyDistinctReduce (constraints : ConstraintSet) : Gen EqNode := do
  let baseItems := passthroughItems context
  Attempt.guard (baseItems ≠ [])
  Attempt.guard (∀ item ∈ baseItems, item.dataType.getProperties.groupable)
  let built ← buildKeyed buildSubtree context
  collapse context built
    { projection := some (passthrough built.column integerType :: built.baseItems),
      distinct := true } constraints

def anyValueItem (item : ProjectionItem) : ProjectionItem :=
  ⟨item.name, .aggregateCall .anyValue (col item.name item.dataType) item.dataType, item.dataType⟩

/-- `KeyGroupAggregateReduceBuilder._build` -/
def keyGroupAggregateReduce (constraints : ConstraintSet) : Gen EqNode := do
  let built ← buildKeyed buildSubtree context
  let query ← selectQuery built.child
    { projection := some (built.baseItems.map anyValueItem),
      groupBy := some [col built.column integerType] }
  createView context query constraints.exposedName

/-- `MAX(column) OVER (PARTITION BY key)` -/
def windowedItem (keyCol : String) (item : ProjectionItem) : ProjectionItem :=
  ⟨item.name, .windowCall .max (some (col item.name item.dataType)) [col keyCol integerType] []
    none item.dataType, item.dataType⟩

/-- `KeyWindowAggregateReduceBuilder._build` -/
def keyWindowAggregateReduce (constraints : ConstraintSet) : Gen EqNode := do
  let baseItems := passthroughItems context
  Attempt.guard (baseItems ≠ [])
  Attempt.guard (∀ item ∈ baseItems,
    item.dataType.getProperties.aggregatable ∧ item.dataType.getProperties.groupable)
  let built ← buildKeyed buildSubtree context
  collapse context built
    { projection := some (passthrough built.column integerType ::
        built.baseItems.map (windowedItem built.column)),
      distinct := true } constraints

/-- `ROW_NUMBER() OVER (PARTITION BY key ORDER BY key)` -/
def copyNumber (keyCol : String) : ExpressionNode :=
  .windowCall .rowNumber none [col keyCol integerType] [col keyCol integerType] none integerType

/-- `KeyQualifyDedupReduceBuilder._build` -/
def keyQualifyDedupReduce (constraints : ConstraintSet) : Gen EqNode := do
  let built ← buildKeyed buildSubtree context
  collapse context built
    { projection := some (passthrough built.column integerType :: built.baseItems),
      qualify := some (eq (copyNumber built.column) (intLit 1)) } constraints

end EqGen.Equivalence.Builders.Expansion
