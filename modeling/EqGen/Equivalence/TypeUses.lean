import EqGen.Equivalence.Builders.Creates

/-!
What the expressions and the queries of a tree ask of the types of their columns: an order, a
grouping, an extremum (`TypeProperty`).
-/

namespace EqGen.Equivalence.TypeUses

open EqGen.Core.Types
open EqGen.Core.Catalog
open EqGen.Ir.Expr hiding ExpressionNode
open EqGen.Equivalence.Ast
open EqGen.Equivalence.Builders.Base
open EqGen.Equivalence.Context
open EqGen.Lib.Dag

def orderable (type : SqlType) : Bool :=
  type.getProperties.orderable

def groupable (type : SqlType) : Bool :=
  type.getProperties.groupable

/-- `MIN` and `MAX` are for aggregatable types, and not for booleans. -/
def extremal (type : SqlType) : Bool :=
  type.getProperties.aggregatable && !type.isBooleanType

section Expressions

variable (p : SqlType → Bool)

mutual

/-- Every column the expression mentions has a type with the property. -/
def mentions : ExpressionNode → Bool
  | .columnRef _ columnType _ => p columnType
  | .intLiteral _ | .booleanLiteral _ | .rawExpr _ _ | .typedNull _ | .generatedPredicate _ => true
  | .comparison _ left right => mentions left && mentions right
  | .boolOp _ left right => mentions left && mentions right
  | .not operand => mentions operand
  | .isNull operand _ => mentions operand
  | .mod operand _ => mentions operand
  | .case condition thenExpr elseExpr _ =>
    mentions condition && mentions thenExpr && mentions elseExpr
  | .aggregateCall _ arg _ => mentions arg
  | .valueCodecRoundTrip _ arg _ => mentions arg
  | .windowCall _ arg partitionBy orderBy _ _ =>
    mentionsOption arg && mentionsAll partitionBy && mentionsAll orderBy

def mentionsOption : Option ExpressionNode → Bool
  | none => true
  | some expr => mentions expr

def mentionsAll : List ExpressionNode → Bool
  | [] => true
  | expr :: rest => mentions expr && mentionsAll rest

end

/-- What a window function asks of its argument. -/
def windowArgument (function : WindowFunction) (arg : Option ExpressionNode) : Bool :=
  match function with
  | .min | .max => mentionsOption extremal arg
  | _ => true

/-- What an aggregate asks of its argument. -/
def aggregateArgument (function : AggregateFunction) (arg : ExpressionNode) : Bool :=
  match function with
  | .min | .max => mentions extremal arg
  | .anyValue => true

/-- What a comparison asks of its sides. -/
def comparisonSides (operator : ComparisonOperator) (left right : ExpressionNode) : Bool :=
  match operator with
  | .ge => mentions orderable left && mentions orderable right
  | _ => true

mutual

/-- No part of the expression asks of a column what its type cannot do. -/
def respects : ExpressionNode → Bool
  | .columnRef _ _ _ | .intLiteral _ | .booleanLiteral _ | .rawExpr _ _ | .typedNull _
  | .generatedPredicate _ => true
  | .comparison operator left right =>
    comparisonSides operator left right && respects left && respects right
  | .boolOp _ left right => respects left && respects right
  | .not operand => respects operand
  | .isNull operand _ => respects operand
  | .mod operand _ => respects operand
  | .case condition thenExpr elseExpr _ =>
    respects condition && respects thenExpr && respects elseExpr
  | .aggregateCall function arg _ => aggregateArgument function arg && respects arg
  | .valueCodecRoundTrip _ arg _ => respects arg
  | .windowCall function arg partitionBy orderBy _ _ =>
    windowArgument function arg && mentionsAll groupable partitionBy &&
      mentionsAll orderable orderBy && respectsOption arg && respectsAll partitionBy &&
      respectsAll orderBy

def respectsOption : Option ExpressionNode → Bool
  | none => true
  | some expr => respects expr

def respectsAll : List ExpressionNode → Bool
  | [] => true
  | expr :: rest => respects expr && respectsAll rest

end

example : respects (.aggregateCall .max (.columnRef "a" ⟨.boolean, none, none⟩ none)
    ⟨.boolean, none, none⟩) = false := by
  rw [respects, aggregateArgument, mentions]
  decide

end Expressions

section Queries

def itemsRespect (items : List ProjectionItem) : Bool :=
  items.all fun item => respects item.expr

/-- `DISTINCT` compares the rows it returns, `GROUP BY` and `ORDER BY` the values they list. -/
def selectRespects (query : SelectQuery) (signature : Signature) : Bool :=
  itemsRespect (query.projection.getD []) && respectsOption query.predicate &&
    respectsOption query.qualify &&
    mentionsAll groupable (query.groupBy.getD []) && respectsAll (query.groupBy.getD []) &&
    mentionsAll orderable (query.orderBy.getD []) && respectsAll (query.orderBy.getD []) &&
    (!query.distinct || signature.all fun named => groupable named.target)

def queryRespects (query : Query) : Bool :=
  match query.shape with
  | .select select => selectRespects select query.getSignature
  | .join join =>
    respectsOption join.condition && itemsRespect join.projection && respectsOption join.predicate
  | .cte _ predicate _ => respectsOption predicate
  | _ => true

def stepRespects : SetupStep → Bool
  | .object object => queryRespects object.query
  | .delete _ predicate => respectsOption predicate
  | .insert _ _ _ predicate => respectsOption predicate
  | .insertQuery _ query => queryRespects query
  | .update _ assignments predicate =>
    (assignments.all fun assignment => respects assignment.2) && respectsOption predicate

def labelRespects : Label → Bool
  | .baseTableSource _ => true
  | .query query => queryRespects query
  | .relation relation => queryRespects relation.exposed.query && relation.steps.all stepRespects

/-- Nowhere in the tree is a column asked for what its type cannot do. -/
def RespectsTypes (root : EqNode) : Prop :=
  ∀ label ∈ root.labels, labelRespects label = true

/-- What a request asks of the columns. -/
def constraintsRespect (constraints : ConstraintSet) : Bool :=
  respectsOption constraints.rowFilter && itemsRespect (constraints.columnRewrite.getD [])

end Queries

section Facts

@[simp]
theorem groupable_eq (type : SqlType) : groupable type = true := by
  unfold groupable SqlType.getProperties
  cases type.kind <;> rfl

mutual

theorem mentions_groupable : (expr : ExpressionNode) → mentions groupable expr = true
  | .columnRef _ columnType _ => groupable_eq columnType
  | .intLiteral _ | .booleanLiteral _ | .rawExpr _ _ | .typedNull _ | .generatedPredicate _ => rfl
  | .comparison _ left right => by
    rw [mentions, mentions_groupable left, mentions_groupable right]
    rfl
  | .boolOp _ left right => by
    rw [mentions, mentions_groupable left, mentions_groupable right]
    rfl
  | .not operand => mentions_groupable operand
  | .isNull operand _ => mentions_groupable operand
  | .mod operand _ => mentions_groupable operand
  | .case condition thenExpr elseExpr _ => by
    rw [mentions, mentions_groupable condition, mentions_groupable thenExpr,
      mentions_groupable elseExpr]
    rfl
  | .aggregateCall _ arg _ => mentions_groupable arg
  | .valueCodecRoundTrip _ arg _ => mentions_groupable arg
  | .windowCall _ arg partitionBy orderBy _ _ => by
    rw [mentions, mentionsOption_groupable arg, mentionsAll_groupable partitionBy,
      mentionsAll_groupable orderBy]
    rfl

theorem mentionsOption_groupable :
    (expr : Option ExpressionNode) → mentionsOption groupable expr = true
  | none => rfl
  | some expr => mentions_groupable expr

theorem mentionsAll_groupable : (exprs : List ExpressionNode) → mentionsAll groupable exprs = true
  | [] => rfl
  | expr :: rest => by
    rw [mentionsAll, mentions_groupable expr, mentionsAll_groupable rest]
    rfl

end

attribute [simp] mentions_groupable mentionsAll_groupable

@[simp]
theorem respects_conjoin (existing : Option ExpressionNode) (extra : ExpressionNode) :
    respects (conjoin existing extra) = (respectsOption existing && respects extra) := by
  cases existing <;> simp [conjoin, respects, respectsOption]

@[simp]
theorem respects_determinedTrue (predicate : ExpressionNode) :
    respects (determinedTrue predicate) = respects predicate := by
  simp [determinedTrue, respects]

@[simp]
theorem respects_eq (left right : ExpressionNode) :
    respects (eq left right) = (respects left && respects right) := by
  simp [eq, respects, comparisonSides]

@[simp]
theorem respects_ne (left right : ExpressionNode) :
    respects (ne left right) = (respects left && respects right) := by
  simp [ne, respects, comparisonSides]

@[simp]
theorem respects_col (name : String) (type : SqlType) : respects (col name type) = true := rfl

@[simp]
theorem respects_intLit (value : Int) : respects (intLit value) = true := rfl

theorem respectsAll_eq (exprs : List ExpressionNode) : respectsAll exprs = exprs.all respects := by
  induction exprs with
  | nil => rfl
  | cons expr rest ih => rw [respectsAll, ih, List.all_cons]

@[simp]
theorem itemsRespect_nil : itemsRespect [] = true := rfl

@[simp]
theorem itemsRespect_cons (item : ProjectionItem) (items : List ProjectionItem) :
    itemsRespect (item :: items) = (respects item.expr && itemsRespect items) := rfl

@[simp]
theorem itemsRespect_append (items items' : List ProjectionItem) :
    itemsRespect (items ++ items') = (itemsRespect items && itemsRespect items') := by
  simp [itemsRespect]

theorem itemsRespect_passthroughItems (context : EquivalenceContext) :
    itemsRespect (passthroughItems context) = true := by
  simp [itemsRespect, passthroughItems, passthrough, col, respects]

theorem respectsTypes_mk {i : Nat} {label : Label} {inputs : List EqNode} :
    RespectsTypes (.mk i label inputs) ↔
      labelRespects label = true ∧ ∀ input ∈ inputs, RespectsTypes input := by
  simp only [RespectsTypes, Node.mem_labels_mk]
  constructor
  · intro h
    refine ⟨h label (Or.inl rfl), ?_⟩
    intro input hinput below hbelow
    exact h below (Or.inr ⟨input, hinput, hbelow⟩)
  · rintro ⟨hlabel, hinputs⟩ below (rfl | ⟨input, hinput, hbelow⟩)
    · exact hlabel
    · exact hinputs input hinput below hbelow

theorem queryRespects_queryOf {node : EqNode} (h : RespectsTypes node) :
    queryRespects (queryOf node) = true := by
  obtain ⟨i, label, inputs⟩ := node
  have hlabel := (respectsTypes_mk.mp h).1
  cases label with
  | query query => exact hlabel
  | baseTableSource table => rfl
  | relation relation => rfl

end Facts

end EqGen.Equivalence.TypeUses
