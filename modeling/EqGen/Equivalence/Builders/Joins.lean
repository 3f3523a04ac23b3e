import EqGen.Equivalence.Builders.Base

/-! The builders of `builders/joins.py` that join on a materialised key. -/

namespace EqGen.Equivalence.Builders.Joins

open EqGen.Core.Types
open EqGen.Ir.Expr hiding ExpressionNode
open EqGen.Equivalence.Ast
open EqGen.Equivalence.Context
open EqGen.Equivalence.Builders.Base
open EqGen.Lib.Backtrack

/-- `_LEFT` -/
def leftAlias : String := "l"

/-- `_RIGHT` -/
def rightAlias : String := "r"

def qualifiedCol (relation name : String) (dataType : SqlType) : ExpressionNode :=
  .columnRef name dataType (some relation)

/-- `_qualified`: the same columns, read from one side of the join. -/
def qualified (relation : String) (items : List ProjectionItem) : List ProjectionItem :=
  items.map fun item => ⟨item.name, qualifiedCol relation item.name item.dataType, item.dataType⟩

/-- The two sides agree on the key. -/
def keysAgree (key : String) : ExpressionNode :=
  eq (qualifiedCol leftAlias key integerType) (qualifiedCol rightAlias key integerType)

/-- `JoinQuery`, with the aliases these builders give its sides. -/
def joinQuery (left right : EqNode) (condition : Option ExpressionNode) (joinType : JoinType)
    (projection : List ProjectionItem) (predicate : Option ExpressionNode) : Gen EqNode :=
  newQuery (.join { condition, joinType, projection, leftAlias, rightAlias, predicate })
    [left, right]

variable (buildSubtree : BuildSubtree) (context : EquivalenceContext)

/-- `LeftJoinEmptyQueryBuilder._build` -/
def leftJoinEmpty : Gen EqNode := do
  let baseItems := passthroughItems context
  Attempt.guard (baseItems ≠ [])
  let sides ← bothSides buildSubtree { rowFilter := some nothing }
  joinQuery sides.1 sides.2 (some (eq (intLit 1) (intLit 1))) .leftOuter
    (qualified leftAlias baseItems) none

/-- `SemiJoinFlagRoundTripBuilder._build` -/
def semiJoinFlagRoundTrip : Gen EqNode := do
  let uid ← generateColumnName "eq_sj"
  let keyed ← materializeRowKey buildSubtree context uid
  Attempt.guard (keyed.baseItems ≠ [])
  let flags ← selectQuery keyed.relation { projection := some [passthrough uid integerType] }
  let flagTable ← createTable context flags none
  joinQuery keyed.relation flagTable (some (keysAgree uid)) .semi
    (qualified leftAlias keyed.baseItems) none

/-- The key of every row, and a flag that is set. -/
def flagItems (uid flag : String) : List ProjectionItem :=
  [passthrough uid integerType, ⟨flag, intLit 1, integerType⟩]

/-- `FlagTableJoinQueryBuilder._build` -/
def flagTableJoin : Gen EqNode := do
  let uid ← generateColumnName "eq_uid"
  let flag ← generateColumnName "eq_flag"
  let keyed ← materializeRowKey buildSubtree context uid
  let flags ← selectQuery keyed.relation { projection := some (flagItems uid flag) }
  let flagTable ← createTable context flags none
  let keep := eq (qualifiedCol rightAlias flag integerType) (intLit 1)
  let joinType ← chooseOne context context.config.joinTypeWeights
  joinQuery keyed.relation flagTable (some (keysAgree uid)) joinType
    (qualified leftAlias keyed.baseItems) (some keep)

/-- `SequenceOuterJoinQueryBuilder._build` -/
def sequenceOuterJoin : Gen EqNode := do
  let key ← generateColumnName "eq_seq"
  let keyed ← materializeRowKey buildSubtree context key
  Attempt.guard (2 ≤ keyed.baseItems.length)
  let split := keyed.baseItems.length / 2
  let leftCols := keyed.baseItems.take split
  let rightCols := keyed.baseItems.drop split
  let keyItem := passthrough key integerType
  let left ← selectQuery keyed.relation { projection := some (leftCols ++ [keyItem]) }
  let left ← createView context left none
  let right ← selectQuery keyed.relation { projection := some (rightCols ++ [keyItem]) }
  let right ← createView context right none
  joinQuery left right (some (keysAgree key)) .fullOuter
    (qualified leftAlias leftCols ++ qualified rightAlias rightCols) none

/-- `CrossJoinFilterAsInnerBuilder._build` -/
def crossJoinFilterAsInner : Gen EqNode := do
  let uid ← generateColumnName "eq_xj"
  let keyed ← materializeRowKey buildSubtree context uid
  Attempt.guard (keyed.baseItems ≠ [])
  let flags ← selectQuery keyed.relation { projection := some [passthrough uid integerType] }
  let flagTable ← createTable context flags none
  joinQuery keyed.relation flagTable none .cross (qualified leftAlias keyed.baseItems)
    (some (keysAgree uid))

end EqGen.Equivalence.Builders.Joins
