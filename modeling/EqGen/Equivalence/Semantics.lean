import Mathlib.Data.Multiset.AddSub
import Mathlib.Data.Multiset.Bind
import Mathlib.Data.Multiset.Dedup
import Mathlib.Data.Multiset.UnionInter
import EqGen.Equivalence.Ast
import EqGen.Lib.Places

/-!
What the nodes denote under SQL's bag semantics. An `Engine` settles whatever SQL leaves open:
the order rows come in, the numbers `ROW_NUMBER` gives them, the member an aggregate returns,
the value of opaque text.
-/

namespace EqGen.Equivalence.Semantics

open Classical
open EqGen.Core.Catalog
open EqGen.Ir.Expr hiding ExpressionNode
open EqGen.Equivalence.Ast
open EqGen.Lib
open EqGen.Lib.Dag

inductive Value (V : Type) where
  | null
  | int (value : Int)
  | bool (value : Bool)
  | other (value : V)

/-- A row gives each of its columns a value and every other name `NULL`. -/
abbrev Row (V : Type) := String → Value V

abbrev Bag (V : Type) := Multiset (Row V)

/-- When something is evaluated: a read, a statement of a node, or a source of one of these. -/
inductive Occasion where
  | read (number : Nat)
  | statement (node step : Nat)
  | source (index : Nat) (reader : Occasion)

/-- An engine, as far as SQL leaves its behaviour open. -/
structure Engine (V : Type) where
  /-- The truth value of a predicate's text on a row. -/
  predicate : String → Row V → Option Bool
  raw : String → Row V → Value V
  compare : ComparisonOperator → Value V → Value V → Bool
  mod : Value V → Int → Int
  arrange : Occasion → Bag V → List (Row V)
  arrange_coe : ∀ occasion rows, (arrange occasion rows : Bag V) = rows
  /-- The place a row takes when the rows are sorted for a window. -/
  rank : Occasion → ExpressionNode → Nat → Nat
  rank_injective : ∀ occasion window, Function.Injective (rank occasion window)
  pick : Occasion → ExpressionNode → Nat → Nat

variable {V : Type}

namespace Value

def isNull : Value V → Bool
  | null => true
  | _ => false

/-- The truth value of a condition. -/
def truth : Value V → Option Bool
  | bool b => some b
  | _ => none

def ofTruth : Option Bool → Value V
  | none => null
  | some b => bool b

@[simp]
theorem truth_ofTruth (t : Option Bool) : (ofTruth t : Value V).truth = t := by
  cases t <;> rfl

end Value

/-- `AND`, `OR` and `NOT` over true, false and unknown. -/
def and3 : Option Bool → Option Bool → Option Bool
  | some false, _ => some false
  | _, some false => some false
  | some true, some true => some true
  | _, _ => none

def not3 : Option Bool → Option Bool
  | none => none
  | some b => some (!b)

def or3 (p q : Option Bool) : Option Bool :=
  not3 (and3 (not3 p) (not3 q))

/-- What an expression can see while it is evaluated. -/
structure Sight (V : Type) where
  column : Option String → String → Value V
  aggregate : ExpressionNode → Value V := fun _ => .null
  window : ExpressionNode → Value V := fun _ => .null

/-- The row behind a sight, as `*` selects it. -/
def Sight.row (sight : Sight V) : Row V :=
  sight.column none

def rowSight (row : Row V) : Sight V :=
  { column := fun _ name => row name }

@[simp]
theorem row_rowSight (row : Row V) : (rowSight row).row = row := rfl

@[simp]
theorem column_rowSight (row : Row V) (relation : Option String) (name : String) :
    (rowSight row).column relation name = row name := rfl

mutual

/-- Whether the expression calls an aggregate, also inside a window call. -/
def aggregates : ExpressionNode → Bool
  | .aggregateCall _ _ _ => true
  | .comparison _ left right => aggregates left || aggregates right
  | .boolOp _ left right => aggregates left || aggregates right
  | .not operand => aggregates operand
  | .isNull operand _ => aggregates operand
  | .mod operand _ => aggregates operand
  | .case condition thenExpr elseExpr _ =>
    aggregates condition || aggregates thenExpr || aggregates elseExpr
  | .valueCodecRoundTrip _ arg _ => aggregates arg
  | .windowCall _ arg partitionBy orderBy _ _ =>
    aggregatesArg arg || aggregatesAny partitionBy || aggregatesAny orderBy
  | .columnRef _ _ _ | .intLiteral _ | .booleanLiteral _ | .rawExpr _ _ | .typedNull _
  | .generatedPredicate _ => false

def aggregatesAny : List ExpressionNode → Bool
  | [] => false
  | node :: nodes => aggregates node || aggregatesAny nodes

def aggregatesArg : Option ExpressionNode → Bool
  | none => false
  | some node => aggregates node

end

def itemsAggregate (items : List ProjectionItem) : Bool :=
  items.any fun item => aggregates item.expr

/-- Whether a clause makes one group of all rows where no `GROUP BY` makes groups. -/
def aggregated (query : SelectQuery) : Bool :=
  itemsAggregate (query.projection.getD []) || aggregatesArg query.qualify

namespace Engine

variable (engine : Engine V)

def compareValues (operator : ComparisonOperator) : Value V → Value V → Option Bool
  | .null, _ => none
  | _, .null => none
  | .int a, .int b =>
    match operator with
    | .eq => some (a = b)
    | .ne => some (a ≠ b)
    | .lt => some (a < b)
    | .le => some (a ≤ b)
    | .gt => some (b < a)
    | .ge => some (b ≤ a)
  | a, b => some (engine.compare operator a b)

/-- The remainder takes the sign of the dividend, as in most engines. -/
def modValue : Value V → Int → Value V
  | .null, _ => .null
  | .int a, m => .int (a.tmod m)
  | a, m => .int (engine.mod a m)

/-- The value of an expression. -/
def eval (sight : Sight V) : ExpressionNode → Value V
  | .columnRef name _ relation => sight.column relation name
  | .intLiteral value => .int value
  | .booleanLiteral value => .bool value
  | .rawExpr sql _ => engine.raw sql sight.row
  | .typedNull _ => .null
  | .generatedPredicate text => .ofTruth (engine.predicate text sight.row)
  | .comparison operator left right =>
    .ofTruth (engine.compareValues operator (eval sight left) (eval sight right))
  | .boolOp .and left right => .ofTruth (and3 (eval sight left).truth (eval sight right).truth)
  | .boolOp .or left right => .ofTruth (or3 (eval sight left).truth (eval sight right).truth)
  | .not operand => .ofTruth (not3 (eval sight operand).truth)
  | .isNull operand negated => .bool ((eval sight operand).isNull != negated)
  | .mod operand modulus => engine.modValue (eval sight operand) modulus
  | .case condition thenExpr elseExpr _ =>
    if (eval sight condition).truth = some true then eval sight thenExpr else eval sight elseExpr
  | .aggregateCall function arg resultType =>
    sight.aggregate (.aggregateCall function arg resultType)
  | .valueCodecRoundTrip _ arg _ => eval sight arg
  | .windowCall function arg partitionBy orderBy frame resultType =>
    sight.window (.windowCall function arg partitionBy orderBy frame resultType)

/-- Whether a row passes a `WHERE` or a `QUALIFY`: only where the condition is true. -/
def keeps (sight : Sight V) (condition : Option ExpressionNode) : Prop :=
  ∀ expr, condition = some expr → (engine.eval sight expr).truth = some true

/-- The output row of a select list. -/
def project (sight : Sight V) (items : List ProjectionItem) : Row V := fun name =>
  match items.find? fun item => item.name = name with
  | some item => engine.eval sight item.expr
  | none => .null

/-- One of the values an aggregate or a window function may return. -/
def choose (occasion : Occasion) (call : ExpressionNode) (place : Nat) (values : List (Value V)) :
    Value V :=
  (values[engine.pick occasion call place % values.length]?).getD .null

/-- The values a function looks at: `MIN` and `MAX` skip the `NULL`s. -/
def candidates (skipNulls : Bool) (members : List (Sight V)) (arg : ExpressionNode) :
    List (Value V) :=
  let values := members.map fun sight => engine.eval sight arg
  if skipNulls then values.filter fun value => !value.isNull else values

def aggregateValue (occasion : Occasion) (members : List (Sight V)) (place : Nat) :
    ExpressionNode → Value V
  | .aggregateCall function arg resultType =>
    engine.choose occasion (.aggregateCall function arg resultType) place
      (engine.candidates (function ≠ .anyValue) members arg)
  | _ => .null

/-- The rows `i` shares its partition with. -/
noncomputable def partition (units : List (Sight V)) (partitionBy : List ExpressionNode)
    (unit : Sight V) : List (Sight V × Nat) :=
  units.zipIdx.filter fun other =>
    partitionBy.map (engine.eval other.1) = partitionBy.map (engine.eval unit)

/-- The value of a window call on the row at `place`. -/
noncomputable def windowValue (occasion : Occasion) (units : List (Sight V)) (unit : Sight V)
    (place : Nat) : ExpressionNode → Value V
  | .windowCall function arg partitionBy orderBy frame resultType =>
    let call : ExpressionNode := .windowCall function arg partitionBy orderBy frame resultType
    let members := engine.partition units partitionBy unit
    match function, arg with
    | .rowNumber, _ => .int (Places.place (engine.rank occasion call) members place)
    | function, some arg =>
      engine.choose occasion call place
        (engine.candidates (function = .min ∨ function = .max) (members.map Prod.fst) arg)
    | _, none => .null
  | _ => .null

/-- One sight for every group, which reads plain columns from one of its members. -/
noncomputable def groups (occasion : Occasion) (rows : List (Row V)) (keys : List ExpressionNode) :
    List (Sight V) :=
  let keyOf := fun row => keys.map (engine.eval (rowSight row))
  ((rows.map keyOf).dedup.zipIdx).map fun group =>
    let members := (rows.filter fun row => keyOf row = group.1).map rowSight
    { column := (members.headD (rowSight fun _ => .null)).column
      aggregate := engine.aggregateValue occasion members group.2 }

/-- The one group of all rows, which there is even when there are no rows. -/
noncomputable def wholeGroup (occasion : Occasion) (rows : List (Row V)) : Sight V :=
  let members := rows.map rowSight
  { column := (members.headD (rowSight fun _ => .null)).column
    aggregate := engine.aggregateValue occasion members 0 }

/-- The rows or groups a select list is evaluated on, before the windows. -/
noncomputable def units (occasion : Occasion) (rows : Bag V) (query : SelectQuery) :
    List (Sight V) :=
  let kept := engine.arrange occasion
    (rows.filter fun row => engine.keeps (rowSight row) query.predicate)
  match query.groupBy with
  | none => if aggregated query then [engine.wholeGroup occasion kept] else kept.map rowSight
  | some keys => engine.groups occasion kept keys

/-- The same with the windows, less what `QUALIFY` drops. -/
noncomputable def qualified (occasion : Occasion) (rows : Bag V) (query : SelectQuery) :
    List (Sight V) :=
  let units := engine.units occasion rows query
  (units.zipIdx.map fun unit =>
      { unit.1 with window := engine.windowValue occasion units unit.1 unit.2 }).filter
    fun sight => engine.keeps sight query.qualify

/-- The select list, or every column. -/
def selectList (query : SelectQuery) (sight : Sight V) : Row V :=
  match query.projection with
  | none => sight.row
  | some items => engine.project sight items

/-- The rows of a `SELECT`, which an `ORDER BY` does not change. -/
noncomputable def select (occasion : Occasion) (rows : Bag V) (query : SelectQuery) : Bag V :=
  let listed : Bag V := (engine.qualified occasion rows query).map (engine.selectList query)
  if query.distinct then listed.dedup else listed

end Engine

/-- A relation an SQL statement can read: its columns, and its rows whenever it is read. -/
structure Relation (V : Type) where
  columns : List String
  rows : Occasion → Bag V

/-- What the names in scope stand for. -/
abbrev Scope (V : Type) := String → Relation V

/-- The row under other column names, matched by position. -/
def relabel (source target : List String) (row : Row V) : Row V := fun name =>
  match target.idxOf? name with
  | none => .null
  | some i =>
    match source[i]? with
    | none => .null
    | some original => row original

namespace Scope

/-- The rows of the `i`-th source of a query, read for it. -/
def readSource (scope : Scope V) (occasion : Occasion) (source : SourceRef × Nat) : Bag V :=
  (scope source.1.refSql).rows (.source source.2 occasion)

/-- The same under the column names of the first source. -/
def branch (scope : Scope V) (occasion : Occasion) (columns : List String)
    (source : SourceRef × Nat) : Bag V :=
  (scope.readSource occasion source).map
    (relabel (scope source.1.refSql).columns columns)

def firstColumns (scope : Scope V) : List SourceRef → List String
  | [] => []
  | source :: _ => (scope source.refSql).columns

/-- The columns a query returns, as the engine resolves them. -/
def columns (scope : Scope V) (query : Query) : List String :=
  match query.shape with
  | .select select =>
    match select.projection with
    | none => scope.firstColumns query.sources
    | some items => items.map ProjectionItem.name
  | .join join => join.projection.map ProjectionItem.name
  | .lateralReproject _ _ => (firstSignature query.sources).names
  | _ => scope.firstColumns query.sources

/-- The rows of one relation replaced, as an action on its table does. -/
def rewrite (scope : Scope V) (target : String) (rows : Bag V → Bag V) : Scope V :=
  Function.update scope target
    { scope target with rows := fun occasion => rows ((scope target).rows occasion) }

/-- `INSERT`: the new rows take the columns of the table by position. -/
def insertInto (scope : Scope V) (target : String) (columns : List String) (rows : Bag V) :
    Scope V :=
  scope.rewrite target fun held => held + rows.map (relabel columns (scope target).columns)

/-- The visible names over the ones already in scope. -/
def extend (scope : Scope V) (visible : List (String × Relation V)) : Scope V :=
  visible.foldr (fun entry scope => Function.update scope entry.1 entry.2) scope

end Scope

/-- Whether the rows are written down when the object is created. -/
def stored (object : Object) : Bool :=
  !object.isView || object.keyword = "MATERIALIZED VIEW"

/-- The columns of one side of a join, under its alias. -/
def joinSight (join : JoinQuery) (left right : Row V) : Sight V :=
  { column := fun relation name =>
      if relation = some join.leftAlias then left name
      else if relation = some join.rightAlias then right name
      else .null }

def nullRow : Row V := fun _ => .null

namespace Engine

variable (engine : Engine V)

def joins (join : JoinQuery) (left right : Row V) : Prop :=
  engine.keeps (joinSight join left right) join.condition

/-- The pairs of rows a join forms, with `NULL`s for a side that is missing. -/
noncomputable def joinPairs (join : JoinQuery) (left right : Bag V) :
    Multiset (Row V × Row V) :=
  let matched := (left ×ˢ right).filter fun pair => engine.joins join pair.1 pair.2
  let lonelyLeft := left.filter fun l => ∀ r ∈ right, ¬engine.joins join l r
  let lonelyRight := right.filter fun r => ∀ l ∈ left, ¬engine.joins join l r
  let padRight := lonelyLeft.map fun l => (l, nullRow)
  let padLeft := lonelyRight.map fun r => (nullRow, r)
  match join.joinType with
  | .inner | .cross => matched
  | .leftOuter => matched + padRight
  | .rightOuter => matched + padLeft
  | .fullOuter => matched + padRight + padLeft
  | .semi => (left.filter fun l => ∃ r ∈ right, engine.joins join l r).map fun l => (l, nullRow)
  | .anti => padRight

noncomputable def join (join : JoinQuery) (left right : Bag V) : Bag V :=
  ((engine.joinPairs join left right).filter fun pair =>
      engine.keeps (joinSight join pair.1 pair.2) join.predicate).map fun pair =>
    engine.project (joinSight join pair.1 pair.2) join.projection

/-- The rows of a query over the names in scope. -/
noncomputable def query (scope : Scope V) (query : Query) (occasion : Occasion) : Bag V :=
  let sources := query.sources.zipIdx
  let columns := scope.firstColumns query.sources
  match query.shape, sources with
  | .select select, source :: _ => engine.select occasion (scope.readSource occasion source) select
  | .unionAll, sources => (sources.map (scope.branch occasion columns)).sum
  | .exceptAll, left :: right :: _ =>
    scope.branch occasion columns left - scope.branch occasion columns right
  | .intersectAll, left :: right :: _ =>
    scope.branch occasion columns left ∩ scope.branch occasion columns right
  | .join join, left :: right :: _ =>
    engine.join join (scope.readSource occasion left) (scope.readSource occasion right)
  | .cte _ predicate _, source :: _ =>
    (scope.readSource occasion source).filter fun row => engine.keeps (rowSight row) predicate
  | .lateralReproject _ _, source :: _ =>
    (scope.readSource occasion source).map fun row name =>
      if name ∈ source.1.signature.names then row name else .null
  | _, _ => 0

/-- The relation an object is, once it is created. -/
noncomputable def created (scope : Scope V) (site : Occasion) (object : Object) : Relation V where
  columns := scope.columns object.query
  rows := fun occasion =>
    engine.query scope object.query (if stored object then site else occasion)

/-- The names in scope after a statement. An object is created under a name that is not in use. -/
noncomputable def step (site : Occasion) (scope : Scope V) : SetupStep → Scope V
  | .object object => Function.update scope object.name (engine.created scope site object)
  | .delete target predicate =>
    scope.rewrite target fun rows =>
      rows.filter fun row => ¬engine.keeps (rowSight row) predicate
  | .insert target selectColumns sourceRef predicate =>
    scope.insertInto target selectColumns
      (((scope sourceRef).rows (.source 0 site)).filter fun row =>
        engine.keeps (rowSight row) predicate)
  | .insertQuery target query =>
    scope.insertInto target (scope.columns query) (engine.query scope query site)
  | .update target assignments predicate =>
    scope.rewrite target fun rows => rows.map fun row =>
      if engine.keeps (rowSight row) predicate then fun name =>
        match assignments.find? fun assignment => assignment.1 = name with
        | some assignment => engine.eval (rowSight row) assignment.2
        | none => row name
      else row

/-- The statements of a node in order, each on its own occasion. -/
noncomputable def steps (node : Nat) (scope : Scope V) (steps : List SetupStep) : Scope V :=
  steps.zipIdx.foldl (fun scope step => engine.step (.statement node step.2) scope step.1) scope

end Engine

/-- What a parent sees of a node: the relation it is, and the names its statements can read. -/
structure Meaning (V : Type) where
  relation : Relation V
  visible : List (String × Relation V)

namespace Engine

variable (engine : Engine V) (base : Scope V)

/-- What a node denotes, from what its inputs denote. -/
noncomputable def meaningOf (id : Nat) (label : Label) (inputs : List (Meaning V)) : Meaning V :=
  let visible := inputs.flatMap Meaning.visible
  let scope := base.extend visible
  match label with
  | .baseTableSource table =>
    let name := table.getSqlName true
    ⟨base name, [(name, base name)]⟩
  | .query query => ⟨⟨scope.columns query, engine.query scope query⟩, visible⟩
  | .relation relation =>
    let name := relation.exposed.name
    let after := engine.steps id scope relation.steps
    ⟨after name, [(name, after name)]⟩

/-- The meaning of a node over a scope that holds the base table. -/
noncomputable def meaning (node : EqNode) : Meaning V :=
  node.fold (engine.meaningOf base)

/-- The rows a read of the node returns. -/
noncomputable def rows (node : EqNode) (occasion : Occasion) : Bag V :=
  (engine.meaning base node).relation.rows occasion

theorem meaning_mk (i : Nat) (label : Label) (inputs : List EqNode) :
    engine.meaning base (.mk i label inputs) =
      engine.meaningOf base i label (inputs.map (engine.meaning base)) :=
  Node.fold_mk _ _ _ _

end Engine

end EqGen.Equivalence.Semantics
