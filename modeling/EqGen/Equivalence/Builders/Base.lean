import EqGen.Equivalence.Context
import EqGen.Lib.Lines

/-!
What a builder may ask of a child (`equivalence/constraints.py`, `equivalence/keys.py`) and the
helpers the builders share (`builders/base.py`).
-/

namespace EqGen.Equivalence.Builders.Base

open EqGen.Core.Types
open EqGen.Core.Catalog
open EqGen.Ir.Expr hiding ExpressionNode
open EqGen.Equivalence.Ast
open EqGen.Equivalence.Context
open EqGen.Lib.Backtrack
open EqGen.Lib.Lines

/-- The uniqueness of a synthesized key. -/
inductive KeyScope where
  | identity | grouped
  deriving DecidableEq, Repr

structure KeySpec where
  column : String
  scope : KeyScope
  physical : Bool := false
  deriving DecidableEq, Repr

structure TagChannel where
  tagCol : String
  keepValue : Int
  deriving DecidableEq, Repr

/-- `ConstraintSet`, with one field for each type of constraint. -/
structure ConstraintSet where
  rowFilter : Option ExpressionNode := none
  acceptsDml : Bool := false
  singleSource : Bool := false
  columnRewrite : Option (List ProjectionItem) := none
  tagChannel : Option TagChannel := none
  keyChannel : Option KeySpec := none
  exposedName : Option String := none

/-- The kinds of node a builder asks the factory for. -/
inductive RequestType where
  | equivalentSource | equivalentRelation | queryNode
  deriving DecidableEq, Repr

/-- `builder_factory.build_subtree`, which declines where the source returns `None`. -/
abbrev BuildSubtree := RequestType → ConstraintSet → Gen EqNode

def integerType : SqlType := ⟨.integer, none, none⟩

def col (name : String) (dataType : SqlType) : ExpressionNode :=
  .columnRef name dataType none

def intLit (value : Int) : ExpressionNode :=
  .intLiteral value

def eq (left right : ExpressionNode) : ExpressionNode :=
  .comparison .eq left right

def ne (left right : ExpressionNode) : ExpressionNode :=
  .comparison .ne left right

def ge (left right : ExpressionNode) : ExpressionNode :=
  .comparison .ge left right

def rowNumber (orderBy : List ExpressionNode) : ExpressionNode :=
  .windowCall .rowNumber none [] orderBy none integerType

/-- The column itself, under its own name. -/
def passthrough (name : String) (dataType : SqlType) : ProjectionItem :=
  ⟨name, col name dataType, dataType⟩

/-- `_passthrough_items` -/
def passthroughItems (context : EquivalenceContext) : List ProjectionItem :=
  context.baseTable.columns.map fun column => passthrough column.name column.dataType

/-- `KeyedRelation`, less the key, which the caller named. -/
structure KeyedRelation where
  relation : EqNode
  baseItems : List ProjectionItem

/-- The base items and the key, as `_materialize_row_key` asks for them. -/
def keyedItems (keyName : String) (baseItems : List ProjectionItem) (first : ProjectionItem) :
    List ProjectionItem :=
  baseItems ++ [⟨keyName, rowNumber [col first.name first.dataType], integerType⟩]

/-- `_materialize_row_key` -/
def materializeRowKey (buildSubtree : BuildSubtree) (context : EquivalenceContext)
    (keyName : String) : Gen KeyedRelation :=
  match passthroughItems context with
  | [] => Attempt.decline
  | first :: rest => do
    let baseItems := first :: rest
    let keyed ← buildSubtree .equivalentRelation
      { columnRewrite := some (keyedItems keyName baseItems first), acceptsDml := true }
    pure ⟨keyed, baseItems⟩

/-- `1 = 0` -/
def nothing : ExpressionNode :=
  eq (intLit 1) (intLit 0)

/-- A relation with all the rows and one with those asked for; both are asked for first. -/
def bothSides (buildSubtree : BuildSubtree) (right : ConstraintSet) : Gen (EqNode × EqNode) := do
  let left ← Attempt.optional (buildSubtree .equivalentRelation {})
  let right ← Attempt.optional (buildSubtree .equivalentRelation right)
  match left, right with
  | some left, some right => pure (left, right)
  | _, _ => Attempt.decline

/-- `_select_key`: the first of the candidates or a random one, as the settings say. -/
def selectKey {α : Type} (context : EquivalenceContext) (candidates : List α) : Gen α := do
  let strategy ← chooseOne context context.config.keySelectionWeights
  if strategy = .random ∧ 1 < candidates.length then randomChoice context candidates
  else
    match candidates with
    | first :: _ => pure first
    | [] => Attempt.raise (.index "list index out of range")

/-- `expr.generated_predicate`, which refuses a blank text. -/
def generatedPredicateOf (text : String) : Gen ExpressionNode := do
  Attempt.require (text.toList.any fun c => !isSpace c)
    (.assertion "a generated predicate must not be empty")
  pure (.generatedPredicate text)

/-- `_generated_predicate` -/
def generatedPredicate (context : EquivalenceContext) : Gen (Option ExpressionNode) :=
  match context.predicateSource with
  | none => do
    noteOrigin "none-configured"
    pure none
  | some source => do
    let text ← askPredicate context source
    match text with
    | none => do
      noteOrigin (source.name ++ "-declined")
      pure none
    | some text =>
      if text = "" then do
        noteOrigin (source.name ++ "-declined")
        pure none
      else do
        noteOrigin source.name
        let predicate ← generatedPredicateOf text
        pure (some predicate)

/-- The columns whose values are whole numbers. -/
def integerColumns (context : EquivalenceContext) : List Column :=
  context.baseTable.columns.filter fun column =>
    column.dataType.isNumericType && column.dataType.getScale.getD 0 = 0

/-- `_pick_integer_key` -/
def pickIntegerKey (context : EquivalenceContext) : Gen (Option Column) :=
  match integerColumns context with
  | [] => pure none
  | first :: rest => do
    let column ← selectKey context (first :: rest)
    pure (some column)

end EqGen.Equivalence.Builders.Base
