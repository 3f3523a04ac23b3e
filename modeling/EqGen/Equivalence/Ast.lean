import EqGen.Core.Catalog
import EqGen.Ir.Expr
import EqGen.Lib.Dag

/-! The nodes of `equivalence/ast.py`, and the setup steps a relation carries. -/

namespace EqGen.Equivalence.Ast

open EqGen.Core.Types
open EqGen.Core.Catalog
open EqGen.Ir.Expr
open EqGen.Lib.Dag

abbrev ExpressionNode := Expression String String

/-- One entry of a select list: the output name, the expression and its type. -/
structure ProjectionItem where
  name : String
  expr : ExpressionNode
  dataType : SqlType

/-- The keyword of a join, as it is passed through to the statement. -/
inductive JoinType where
  | inner | leftOuter | rightOuter | fullOuter | semi | anti | cross
  deriving DecidableEq, Repr

def JoinType.value : JoinType → String
  | inner => "INNER"
  | leftOuter => "LEFT OUTER"
  | rightOuter => "RIGHT OUTER"
  | fullOuter => "FULL OUTER"
  | semi => "SEMI"
  | anti => "ANTI"
  | cross => "CROSS"

/-- `SelectQuery`, less the source it reads. -/
structure SelectQuery where
  projection : Option (List ProjectionItem) := none
  predicate : Option ExpressionNode := none
  distinct : Bool := false
  groupBy : Option (List ExpressionNode) := none
  qualify : Option ExpressionNode := none
  orderBy : Option (List ExpressionNode) := none

/-- `JoinQuery`, less the two relations it joins. -/
structure JoinQuery where
  condition : Option ExpressionNode
  joinType : JoinType
  projection : List ProjectionItem
  leftAlias : String
  rightAlias : String
  predicate : Option ExpressionNode := none

/-- What a query node does with the sources it reads. -/
inductive QueryShape where
  | select (query : SelectQuery)
  | unionAll
  | exceptAll
  | intersectAll
  | join (query : JoinQuery)
  | cte (cteName : String) (predicate : Option ExpressionNode) (materialize : Option Bool)
  | lateralReproject (sourceAlias lateralAlias : String)

/-- What a query needs of a source: the name it is referenced by, and its columns. -/
structure SourceRef where
  refSql : String
  signature : Signature

/-- The part after `AS`: it names its sources, which are created before it. -/
structure Query where
  shape : QueryShape
  sources : List SourceRef

def itemSignature (items : List ProjectionItem) : Signature :=
  items.map fun item => ⟨item.name, item.dataType⟩

/-- The signature of the first source. -/
def firstSignature : List SourceRef → Signature
  | [] => []
  | source :: _ => source.signature

/-- `get_signature` of the query nodes. -/
def Query.getSignature (query : Query) : Signature :=
  match query.shape with
  | .select select =>
    match select.projection with
    | none => firstSignature query.sources
    | some items => itemSignature items
  | .join join => itemSignature join.projection
  | _ => firstSignature query.sources

/-- `objects.py`: a statement that introduces a name. -/
structure Object where
  isView : Bool
  name : String
  keyword : String
  query : Query

/-- One statement of a relation: an object it creates or an action on one. -/
inductive SetupStep where
  | object (object : Object)
  | delete (target : String) (predicate : Option ExpressionNode)
  | insert (target : String) (selectColumns : List String) (sourceRef : String)
      (predicate : Option ExpressionNode)
  | insertQuery (target : String) (query : Query)
  | update (target : String) (assignments : List (String × ExpressionNode))
      (predicate : Option ExpressionNode)

inductive ObjectKind where
  | table | temporaryTable | unloggedTable | view | temporaryView | materializedView
  deriving DecidableEq, Repr

/-- The classes of the relations. -/
inductive RelationClass where
  | createView | createTemporaryView | createMaterializedView
  | createTable | createTemporaryTable | createUnloggedTable
  | deleteReinsertTable | noopUpdateTable
  | tagPruneDeleteTable | insertExtrasExpansion
  deriving DecidableEq, Repr

/-- `EquivalentRelation`, less its inputs. -/
structure EquivalentRelation where
  relationClass : RelationClass
  kind : ObjectKind
  steps : List SetupStep
  exposed : Object
  signature : Signature

/-- What a node is. -/
inductive Label where
  | baseTableSource (table : Table)
  | query (query : Query)
  | relation (relation : EquivalentRelation)

abbrev EqNode := Node Label

/-- `get_signature` -/
def getSignature (node : EqNode) : Signature :=
  match node.label with
  | .baseTableSource table => table.getSignature
  | .query query => query.getSignature
  | .relation relation => relation.signature

/-- `ref_sql`; a query node is rendered in place and has no name. -/
def refSql (node : EqNode) : String :=
  match node.label with
  | .baseTableSource table => table.getSqlName true
  | .query _ => ""
  | .relation relation => relation.exposed.name

def sourceRef (node : EqNode) : SourceRef :=
  ⟨refSql node, getSignature node⟩

/-- A query over the given sources. -/
def queryOver (shape : QueryShape) (sources : List EqNode) : Query :=
  ⟨shape, sources.map sourceRef⟩

@[simp]
theorem getSignature_query (i : Nat) (query : Query) (inputs : List EqNode) :
    getSignature (.mk i (.query query) inputs) = query.getSignature := rfl

@[simp]
theorem getSignature_relation (i : Nat) (relation : EquivalentRelation) (inputs : List EqNode) :
    getSignature (.mk i (.relation relation) inputs) = relation.signature := rfl

@[simp]
theorem refSql_relation (i : Nat) (relation : EquivalentRelation) (inputs : List EqNode) :
    refSql (.mk i (.relation relation) inputs) = relation.exposed.name := rfl

@[simp]
theorem names_itemSignature (items : List ProjectionItem) :
    (itemSignature items).names = items.map ProjectionItem.name := by
  simp [itemSignature, Signature.names, Function.comp_def]

end EqGen.Equivalence.Ast
