import EqGen.Equivalence.Builders.Base

/-! The builders of `builders/partitioning.py`. -/

namespace EqGen.Equivalence.Builders.Partitioning

open EqGen.Core.Types
open EqGen.Ir.Expr hiding ExpressionNode
open EqGen.Equivalence.Ast
open EqGen.Equivalence.Context
open EqGen.Equivalence.Builders.Base
open EqGen.Lib.Backtrack

/-- `_RANK_MODULI` -/
def rankModuli : List Nat := [2, 3, 4]

variable (buildSubtree : BuildSubtree) (context : EquivalenceContext)

/-- One relation for each of the predicates, on top of the filter that was asked for. -/
def filteredBranches (current : Option ExpressionNode) :
    List ExpressionNode → Gen (List EqNode)
  | [] => pure []
  | predicate :: rest => do
    let branch ← buildSubtree .equivalentRelation
      { rowFilter := some (conjoin current predicate) }
    let branches ← filteredBranches current rest
    pure (branch :: branches)

/-- `PartitionUnionQueryBuilder._build` -/
def partitionUnionQuery (constraints : ConstraintSet) : Gen EqNode := do
  let picked ← pickIntegerKey context
  let key ← Attempt.fromOption picked
  let keyRef := col key.name key.dataType
  let even := eq (.mod keyRef 2) (intLit 0)
  let odd : ExpressionNode :=
    .boolOp .or (ne (.mod keyRef 2) (intLit 0)) (.isNull keyRef false)
  let branches ← filteredBranches buildSubtree constraints.rowFilter [even, odd]
  unionAllQuery branches

/-- `TlpPartitionUnionQueryBuilder._build` -/
def tlpPartitionUnionQuery (constraints : ConstraintSet) : Gen EqNode := do
  let generated ← generatedPredicate context
  let predicate ← Attempt.fromOption generated
  let branches ← filteredBranches buildSubtree constraints.rowFilter
    [predicate, .not predicate, .isNull predicate false]
  unionAllQuery branches

/-- The rows of a keyed relation by the residue of their key. -/
def residueViews (keyed : KeyedRelation) (rankName : String) (modulus : Nat) :
    List Nat → Gen (List EqNode)
  | [] => pure []
  | residue :: rest => do
    let predicate := eq (.mod (col rankName integerType) modulus) (intLit residue)
    let query ← selectQuery keyed.relation
      { projection := some keyed.baseItems, predicate := some predicate }
    let view ← createView context query none
    let views ← residueViews keyed rankName modulus rest
    pure (view :: views)

/-- `RankModUnionQueryBuilder._build` -/
def rankModUnionQuery : Gen EqNode := do
  let modulus ← randomChoice context rankModuli
  let rankName ← generateColumnName "eq_rank"
  let keyed ← materializeRowKey buildSubtree context rankName
  Attempt.guard (keyed.baseItems ≠ [])
  let branches ← residueViews context keyed rankName modulus (List.range modulus)
  unionAllQuery branches

/-- `UnionEmptyRoundTripBuilder._build` -/
def unionEmptyRoundTrip : Gen EqNode := do
  let sides ← bothSides buildSubtree { rowFilter := some nothing }
  unionAllQuery [sides.1, sides.2]

/-- `ExceptEmptyRoundTripBuilder._build` -/
def exceptEmptyRoundTrip : Gen EqNode := do
  let sides ← bothSides buildSubtree { rowFilter := some nothing }
  newQuery .exceptAll [sides.1, sides.2]

/-- `IntersectSelfRoundTripBuilder._build` -/
def intersectSelfRoundTrip : Gen EqNode := do
  let sides ← bothSides buildSubtree {}
  newQuery .intersectAll [sides.1, sides.2]

/-- `DistinctUnionDuplicateQueryBuilder._build` -/
def distinctUnionDuplicateQuery : Gen EqNode := do
  let items := passthroughItems context
  Attempt.guard (items ≠ [])
  Attempt.guard (∀ item ∈ items, item.dataType.getProperties.groupable)
  let keyName ← generateColumnName "eq_dd"
  let keyed ← materializeRowKey buildSubtree context keyName
  Attempt.guard (keyed.baseItems ≠ [])
  let twice ← unionAllQuery [keyed.relation, keyed.relation]
  let doubled ← createTable context twice none
  let once ← selectQuery doubled { distinct := true }
  let deduped ← createTable context once none
  selectQuery deduped { projection := some keyed.baseItems }

end EqGen.Equivalence.Builders.Partitioning
