import EqGen.Equivalence.Factory

/-! The tree of a generation under a renaming, and what the factory sees of it. -/

namespace EqGen.Equivalence.Renaming

open EqGen.Core.Catalog
open EqGen.Equivalence.Ast
open EqGen.Equivalence.Builders.Base
open EqGen.Equivalence.Context
open EqGen.Equivalence.Factory
open EqGen.Ir.Expr hiding ExpressionNode
open EqGen.Lib.Dag
open EqGen.Lib.Dag.Node

section Rename

variable (ρ : String → String)

mutual

/-- The columns of an expression renamed; opaque texts stay as they are. -/
def renameExpr : ExpressionNode → ExpressionNode
  | .columnRef name columnType relationAlias =>
    .columnRef (ρ name) columnType (relationAlias.map ρ)
  | .intLiteral value => .intLiteral value
  | .booleanLiteral value => .booleanLiteral value
  | .rawExpr sql exprType => .rawExpr sql exprType
  | .typedNull nullType => .typedNull nullType
  | .generatedPredicate value => .generatedPredicate value
  | .comparison operator left right => .comparison operator (renameExpr left) (renameExpr right)
  | .boolOp operator left right => .boolOp operator (renameExpr left) (renameExpr right)
  | .not operand => .not (renameExpr operand)
  | .isNull operand negated => .isNull (renameExpr operand) negated
  | .mod operand modulus => .mod (renameExpr operand) modulus
  | .case condition thenExpr elseExpr resultType =>
    .case (renameExpr condition) (renameExpr thenExpr) (renameExpr elseExpr) resultType
  | .aggregateCall function arg resultType => .aggregateCall function (renameExpr arg) resultType
  | .valueCodecRoundTrip codec arg resultType =>
    .valueCodecRoundTrip codec (renameExpr arg) resultType
  | .windowCall function arg partitionBy orderBy frame resultType =>
    .windowCall function (renameOption arg) (renameExprs partitionBy) (renameExprs orderBy) frame
      resultType

def renameExprs : List ExpressionNode → List ExpressionNode
  | [] => []
  | node :: nodes => renameExpr node :: renameExprs nodes

def renameOption : Option ExpressionNode → Option ExpressionNode
  | none => none
  | some node => some (renameExpr node)

end

example (columnType : Core.Types.SqlType) :
    renameExprs ρ [.not (.columnRef "a" columnType none)] =
      [.not (.columnRef (ρ "a") columnType none)] := by
  simp [renameExpr, renameExprs]

def renameItem (item : ProjectionItem) : ProjectionItem :=
  ⟨ρ item.name, renameExpr ρ item.expr, item.dataType⟩

def renameItems (items : List ProjectionItem) : List ProjectionItem :=
  items.map (renameItem ρ)

def renameSignature (signature : Signature) : Signature :=
  signature.map fun named => ⟨ρ named.name, named.target⟩

def renameSelect (query : SelectQuery) : SelectQuery where
  projection := query.projection.map (renameItems ρ)
  predicate := query.predicate.map (renameExpr ρ)
  distinct := query.distinct
  groupBy := query.groupBy.map (List.map (renameExpr ρ))
  qualify := query.qualify.map (renameExpr ρ)
  orderBy := query.orderBy.map (List.map (renameExpr ρ))

def renameJoin (query : JoinQuery) : JoinQuery where
  condition := query.condition.map (renameExpr ρ)
  joinType := query.joinType
  projection := renameItems ρ query.projection
  leftAlias := ρ query.leftAlias
  rightAlias := ρ query.rightAlias
  predicate := query.predicate.map (renameExpr ρ)

def renameShape : QueryShape → QueryShape
  | .select query => .select (renameSelect ρ query)
  | .unionAll => .unionAll
  | .exceptAll => .exceptAll
  | .intersectAll => .intersectAll
  | .join query => .join (renameJoin ρ query)
  | .cte cteName predicate materialize =>
    .cte (ρ cteName) (predicate.map (renameExpr ρ)) materialize
  | .lateralReproject sourceAlias lateralAlias =>
    .lateralReproject (ρ sourceAlias) (ρ lateralAlias)

def renameRef (source : SourceRef) : SourceRef :=
  ⟨ρ source.refSql, renameSignature ρ source.signature⟩

def renameQuery (query : Query) : Query :=
  ⟨renameShape ρ query.shape, query.sources.map (renameRef ρ)⟩

def renameObject (object : Object) : Object where
  isView := object.isView
  name := ρ object.name
  keyword := object.keyword
  query := renameQuery ρ object.query

def renameStep : SetupStep → SetupStep
  | .object object => .object (renameObject ρ object)
  | .delete target predicate => .delete (ρ target) (predicate.map (renameExpr ρ))
  | .insert target selectColumns sourceRef predicate =>
    .insert (ρ target) (selectColumns.map ρ) (ρ sourceRef) (predicate.map (renameExpr ρ))
  | .insertQuery target query => .insertQuery (ρ target) (renameQuery ρ query)
  | .update target assignments predicate =>
    .update (ρ target) (assignments.map fun entry => (ρ entry.1, renameExpr ρ entry.2))
      (predicate.map (renameExpr ρ))

def renameRelation (relation : EquivalentRelation) : EquivalentRelation where
  relationClass := relation.relationClass
  kind := relation.kind
  steps := relation.steps.map (renameStep ρ)
  exposed := renameObject ρ relation.exposed
  signature := renameSignature ρ relation.signature

/-- The base table is not the generation's to name. -/
def renameLabel : Label → Label
  | .baseTableSource table => .baseTableSource table
  | .query query => .query (renameQuery ρ query)
  | .relation relation => .relation (renameRelation ρ relation)

def renameNode (node : EqNode) : EqNode :=
  node.map (renameLabel ρ)

def renameConstraints (constraints : ConstraintSet) : ConstraintSet where
  rowFilter := constraints.rowFilter.map (renameExpr ρ)
  acceptsDml := constraints.acceptsDml
  singleSource := constraints.singleSource
  columnRewrite := constraints.columnRewrite.map (renameItems ρ)
  tagChannel := constraints.tagChannel.map fun channel => { channel with tagCol := ρ channel.tagCol }
  keyChannel := constraints.keyChannel.map fun key => { key with column := ρ key.column }
  exposedName := constraints.exposedName.map ρ

end Rename

/-- The renaming leaves every name alone that a generation is given. -/
structure Keeps (ρ : String → String) (context : EquivalenceContext) : Prop where
  injective : Function.Injective ρ
  column : ∀ column ∈ context.baseTable.columns, ρ column.name = column.name
  table : ρ (context.baseTable.getSqlName true) = context.baseTable.getSqlName true
  short : ∀ name ∈ ["", "s", "l", "r"], ρ name = name

/-- A base table in the tree is the one that the generation was given. -/
def Own (context : EquivalenceContext) (node : EqNode) : Prop :=
  ∀ table, node.label = .baseTableSource table → table = context.baseTable

section Views

variable {ρ : String → String} {context : EquivalenceContext} {node : EqNode}

theorem renameExprs_eq (nodes : List ExpressionNode) :
    renameExprs ρ nodes = nodes.map (renameExpr ρ) := by
  induction nodes with
  | nil => rfl
  | cons node nodes ih => rw [renameExprs, ih, List.map_cons]

theorem names_renameSignature (signature : Signature) :
    (renameSignature ρ signature).names = signature.names.map ρ := by
  simp [renameSignature, Signature.names, Function.comp_def]

theorem itemSignature_rename (items : List ProjectionItem) :
    itemSignature (renameItems ρ items) = renameSignature ρ (itemSignature items) := by
  simp [itemSignature, renameItems, renameSignature, renameItem, Function.comp_def]

theorem firstSignature_rename (sources : List SourceRef) :
    firstSignature (sources.map (renameRef ρ)) = renameSignature ρ (firstSignature sources) := by
  cases sources <;> rfl

theorem getSignature_renameQuery (query : Query) :
    (renameQuery ρ query).getSignature = renameSignature ρ query.getSignature := by
  obtain ⟨shape, sources⟩ := query
  cases shape with
  | select select =>
      obtain ⟨projection, _, _, _, _, _⟩ := select
      cases projection with
      | none => exact firstSignature_rename sources
      | some items => exact itemSignature_rename items
  | join join => exact itemSignature_rename join.projection
  | unionAll | exceptAll | intersectAll => exact firstSignature_rename sources
  | cte _ _ _ | lateralReproject _ _ => exact firstSignature_rename sources

theorem label_renameNode (node : EqNode) : (renameNode ρ node).label = renameLabel ρ node.label :=
  label_map _ _

theorem Keeps.signature (h : Keeps ρ context) :
    renameSignature ρ context.baseTable.getSignature = context.baseTable.getSignature := by
  unfold renameSignature Table.getSignature
  rw [List.map_map]
  refine List.map_congr_left fun column hcolumn => ?_
  simp [h.column column hcolumn]

theorem getSignature_renameNode (h : Keeps ρ context) (hown : Own context node) :
    getSignature (renameNode ρ node) = renameSignature ρ (getSignature node) := by
  rw [getSignature, getSignature, label_renameNode]
  cases hlabel : node.label with
  | baseTableSource table =>
      rw [hown table hlabel]
      exact h.signature.symm
  | query query => exact getSignature_renameQuery query
  | relation relation => rfl

theorem refSql_renameNode (h : Keeps ρ context) (hown : Own context node) :
    refSql (renameNode ρ node) = ρ (refSql node) := by
  rw [refSql, refSql, label_renameNode]
  cases hlabel : node.label with
  | baseTableSource table =>
      rw [hown table hlabel]
      exact h.table.symm
  | query query => exact (h.short "" (by simp)).symm
  | relation relation => rfl

theorem sourceRef_renameNode (h : Keeps ρ context) (hown : Own context node) :
    sourceRef (renameNode ρ node) = renameRef ρ (sourceRef node) := by
  rw [sourceRef, sourceRef, refSql_renameNode h hown, getSignature_renameNode h hown, renameRef]

theorem queryOver_rename (h : Keeps ρ context) (shape : QueryShape) {sources : List EqNode}
    (hown : ∀ node ∈ sources, Own context node) :
    queryOver (renameShape ρ shape) (sources.map (renameNode ρ)) =
      renameQuery ρ (queryOver shape sources) := by
  rw [queryOver, queryOver, renameQuery, List.map_map, List.map_map]
  congr 1
  exact List.map_congr_left fun node hnode => sourceRef_renameNode h (hown node hnode)

theorem queryOf_renameNode (node : EqNode) :
    queryOf (renameNode ρ node) = renameQuery ρ (queryOf node) := by
  rw [queryOf, queryOf, label_renameNode]
  cases node.label <;> rfl

theorem nodeClass_renameNode (node : EqNode) : nodeClass (renameNode ρ node) = nodeClass node := by
  rw [nodeClass, nodeClass, label_renameNode]
  cases node.label with
  | query query =>
      obtain ⟨shape, sources⟩ := query
      cases shape <;> rfl
  | _ => rfl

theorem constraintTypes_rename (constraints : ConstraintSet) :
    constraintTypes (renameConstraints ρ constraints) = constraintTypes constraints := by
  obtain ⟨rowFilter, acceptsDml, singleSource, columnRewrite, tagChannel, keyChannel,
    exposedName⟩ := constraints
  cases rowFilter <;> cases columnRewrite <;> cases tagChannel <;> cases keyChannel <;>
    cases exposedName <;> rfl

theorem renameItems_append (items items' : List ProjectionItem) :
    renameItems ρ (items ++ items') = renameItems ρ items ++ renameItems ρ items' :=
  List.map_append

theorem renameItems_take (n : Nat) (items : List ProjectionItem) :
    renameItems ρ (items.take n) = (renameItems ρ items).take n :=
  List.map_take

theorem renameItems_drop (n : Nat) (items : List ProjectionItem) :
    renameItems ρ (items.drop n) = (renameItems ρ items).drop n :=
  List.map_drop

theorem names_renameItems (items : List ProjectionItem) :
    (renameItems ρ items).map ProjectionItem.name = (items.map ProjectionItem.name).map ρ := by
  simp [renameItems, renameItem, Function.comp_def]

theorem meetsConstraints_rename (h : Keeps ρ context) (hown : Own context node)
    (constraints : ConstraintSet) :
    meetsConstraints (renameConstraints ρ constraints) (renameNode ρ node) =
      meetsConstraints constraints node := by
  have hrewrite : meetsColumnRewrite (renameConstraints ρ constraints) (renameNode ρ node) =
      meetsColumnRewrite constraints node := by
    unfold meetsColumnRewrite
    rw [getSignature_renameNode h hown, names_renameSignature]
    obtain ⟨_, _, _, columnRewrite, _, _, _⟩ := constraints
    cases columnRewrite with
    | none => rfl
    | some items =>
        simp only [renameConstraints, Option.map_some, names_renameItems,
          h.injective.list_map.eq_iff]
  have hexposed : meetsExposedName (renameConstraints ρ constraints) (renameNode ρ node) =
      meetsExposedName constraints node := by
    unfold meetsExposedName
    rw [label_renameNode]
    obtain ⟨_, _, _, _, _, _, exposedName⟩ := constraints
    cases exposedName with
    | none => rfl
    | some name =>
        cases node.label with
        | relation relation =>
            simp [renameConstraints, renameLabel, renameRelation, renameObject, h.injective.eq_iff]
        | _ => rfl
  rw [meetsConstraints, meetsConstraints, hrewrite, hexposed]

end Views

end EqGen.Equivalence.Renaming
