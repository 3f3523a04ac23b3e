import EqGen.Dialects.Emitters
import EqGen.Equivalence.Rows

/-!
What an emitted `SELECT` returns. Names are resolved first: a column that the relation behind
`FROM` lacks, or has twice, makes the engine refuse the statement.
-/

namespace EqGen.Equivalence.Emitted

open Classical
open EqGen.Core.Types
open EqGen.Ir.Expr hiding ExpressionNode
open EqGen.Equivalence.Ast
open EqGen.Equivalence.Emitter
open EqGen.Equivalence.Rows
open EqGen.Equivalence.Semantics

/-- What is left open of how an engine takes a statement: names, sort keys and casts. -/
structure Binder (V : Type) where
  /-- The columns that opaque text mentions. -/
  mentions : String → List String
  /-- Whether the engine sorts a `SELECT` by these keys. -/
  sorts : Rendered → List ExpressionNode → Prop
  castTo : SqlType → Value V → Value V

/-- An engine that takes any sort keys and casts without a change, over text without columns. -/
def lenient (V : Type) : Binder V where
  mentions := fun _ => []
  sorts := fun _ _ => True
  castTo := fun _ value => value

section Names

variable (mentions : String → List String)

mutual

/-- The columns an expression mentions. -/
def columnsOf : ExpressionNode → List String
  | .columnRef name _ _ => [name]
  | .rawExpr sql _ => mentions sql
  | .generatedPredicate text => mentions text
  | .comparison _ left right => columnsOf left ++ columnsOf right
  | .boolOp _ left right => columnsOf left ++ columnsOf right
  | .not operand => columnsOf operand
  | .isNull operand _ => columnsOf operand
  | .mod operand _ => columnsOf operand
  | .case condition thenExpr elseExpr _ =>
    columnsOf condition ++ columnsOf thenExpr ++ columnsOf elseExpr
  | .aggregateCall _ arg _ => columnsOf arg
  | .valueCodecRoundTrip _ arg _ => columnsOf arg
  | .windowCall _ arg partitionBy orderBy _ _ =>
    columnsOfArg arg ++ columnsOfAll partitionBy ++ columnsOfAll orderBy
  | .intLiteral _ | .booleanLiteral _ | .typedNull _ => []

def columnsOfAll : List ExpressionNode → List String
  | [] => []
  | node :: nodes => columnsOf node ++ columnsOfAll nodes

def columnsOfArg : Option ExpressionNode → List String
  | none => []
  | some node => columnsOf node

end

example (columnType : SqlType) :
    columnsOfAll mentions [.not (.columnRef "a" columnType none)] = ["a"] := by
  simp [columnsOf, columnsOfAll]

def mentionedBy (list : List ListItem) : List String :=
  list.flatMap fun item => columnsOf mentions item.expr

/-- The columns the clauses of a body mention. -/
def mentionedIn (body : Body) : List String :=
  mentionedBy mentions (body.list.getD []) ++ columnsOfArg mentions body.predicate ++
    columnsOfAll mentions (body.groupBy.getD []) ++ columnsOfArg mentions body.qualify

/-- Every mentioned column is one of the columns, and only one. -/
def Resolves (columns mentioned : List String) : Prop :=
  ∀ name ∈ mentioned, columns.count name = 1

end Names

/-- The columns and the rows a statement returns. -/
structure Result (V : Type) where
  columns : List String
  rows : Bag V

/-- The query a body evaluates, as far as it decides on groups, windows and filters. -/
def queryOf (body : Body) : SelectQuery where
  projection := body.list.map fun list =>
    list.map fun item => ⟨item.name, item.expr, ⟨.integer, none, none⟩⟩
  predicate := body.predicate
  distinct := body.distinct
  groupBy := body.groupBy
  qualify := body.qualify

section Rows

variable {V : Type} (engine : Engine V) (binder : Binder V)

def itemValue (sight : Sight V) : ListItem → Value V
  | .plain item => engine.eval sight item.expr
  | .cast item => binder.castTo item.dataType (engine.eval sight item.expr)
  | .probe condition => engine.eval sight condition

/-- The output row of an emitted list. -/
def listRow (list : List ListItem) (sight : Sight V) : Row V := fun name =>
  match list.find? fun item => item.name = name with
  | some item => itemValue engine binder sight item
  | none => .null

def outputRow (body : Body) (sight : Sight V) : Row V :=
  match body.list with
  | none => sight.row
  | some list => listRow engine binder list sight

def outputColumns (body : Body) (columns : List String) : List String :=
  match body.list with
  | none => columns
  | some list => list.map ListItem.name

noncomputable def bodyRows (occasion : Occasion) (rows : Bag V) (body : Body) : Bag V :=
  let listed : Bag V :=
    (engine.qualified occasion rows (queryOf body)).map (outputRow engine binder body)
  if body.distinct then listed.dedup else listed

/-- What a body returns over a source, unless the engine refuses a name in it. -/
noncomputable def bodyResult (occasion : Occasion) (source : Result V) (body : Body) :
    Option (Result V) :=
  if Resolves source.columns (mentionedIn binder.mentions body) then
    some ⟨outputColumns body source.columns, bodyRows engine binder occasion source.rows body⟩
  else none

/-- How many `SELECT`s are nested below the outermost one. -/
def depth : Rendered → Nat
  | .over _ _ => 0
  | .nested _ inner _ _ => depth inner + 1

/--
What a statement returns over the relation it reads, each `SELECT` of it on an occasion of its
own, numbered from the innermost.
-/
noncomputable def result (occasion : Nat → Occasion) (source : Result V) :
    Rendered → Option (Result V)
  | .over body _ => bodyResult engine binder (occasion 0) source body
  | .nested body inner orderBy _ =>
    match result occasion source inner with
    | none => none
    | some within =>
      if ∀ keys, orderBy = some keys → binder.sorts inner keys then
        bodyResult engine binder (occasion (depth inner + 1)) within body
      else none

variable {engine binder} {body : Body} {refSql : String} {source : Result V}

theorem result_over (occasion : Nat → Occasion)
    (hnames : Resolves source.columns (mentionedIn binder.mentions body)) :
    result engine binder occasion source (.over body refSql) =
      some ⟨outputColumns body source.columns,
        bodyRows engine binder (occasion 0) source.rows body⟩ :=
  if_pos hnames

theorem result_over_refused (occasion : Nat → Occasion)
    (hnames : ¬Resolves source.columns (mentionedIn binder.mentions body)) :
    result engine binder occasion source (.over body refSql) = none :=
  if_neg hnames

end Rows

section Rowwise

/-- Whether the row alone decides the expression: no aggregate and no window in it. -/
def rowwise : ExpressionNode → Bool
  | .aggregateCall _ _ _ | .windowCall _ _ _ _ _ _ => false
  | .comparison _ left right => rowwise left && rowwise right
  | .boolOp _ left right => rowwise left && rowwise right
  | .not operand => rowwise operand
  | .isNull operand _ => rowwise operand
  | .mod operand _ => rowwise operand
  | .case condition thenExpr elseExpr _ => rowwise condition && rowwise thenExpr && rowwise elseExpr
  | .valueCodecRoundTrip _ arg _ => rowwise arg
  | .columnRef _ _ _ | .intLiteral _ | .booleanLiteral _ | .rawExpr _ _ | .typedNull _
  | .generatedPredicate _ => true

variable {V : Type} (engine : Engine V) (binder : Binder V)

theorem eval_rowwise {sight other : Sight V} (h : sight.column = other.column) :
    (expr : ExpressionNode) → rowwise expr = true →
      engine.eval sight expr = engine.eval other expr
  | .columnRef name _ relation, _ => by simp only [Engine.eval, h]
  | .rawExpr sql _, _ => by simp only [Engine.eval, Sight.row, h]
  | .generatedPredicate text, _ => by simp only [Engine.eval, Sight.row, h]
  | .intLiteral _, _ | .booleanLiteral _, _ | .typedNull _, _ => rfl
  | .comparison _ left right, hexpr => by
    rw [rowwise, Bool.and_eq_true] at hexpr
    rw [Engine.eval, Engine.eval, eval_rowwise h left hexpr.1, eval_rowwise h right hexpr.2]
  | .boolOp .and left right, hexpr => by
    rw [rowwise, Bool.and_eq_true] at hexpr
    rw [Engine.eval, Engine.eval, eval_rowwise h left hexpr.1, eval_rowwise h right hexpr.2]
  | .boolOp .or left right, hexpr => by
    rw [rowwise, Bool.and_eq_true] at hexpr
    rw [Engine.eval, Engine.eval, eval_rowwise h left hexpr.1, eval_rowwise h right hexpr.2]
  | .not operand, hexpr => by
    rw [Engine.eval, Engine.eval, eval_rowwise h operand hexpr]
  | .isNull operand _, hexpr => by
    rw [Engine.eval, Engine.eval, eval_rowwise h operand hexpr]
  | .mod operand _, hexpr => by
    rw [Engine.eval, Engine.eval, eval_rowwise h operand hexpr]
  | .case condition thenExpr elseExpr _, hexpr => by
    rw [rowwise, Bool.and_eq_true, Bool.and_eq_true] at hexpr
    rw [Engine.eval, Engine.eval, eval_rowwise h condition hexpr.1.1,
      eval_rowwise h thenExpr hexpr.1.2, eval_rowwise h elseExpr hexpr.2]
  | .valueCodecRoundTrip _ arg _, hexpr => by
    rw [Engine.eval, Engine.eval, eval_rowwise h arg hexpr]

theorem aggregates_of_rowwise :
    (expr : ExpressionNode) → rowwise expr = true → aggregates expr = false
  | .columnRef _ _ _, _ | .rawExpr _ _, _ | .generatedPredicate _, _ | .intLiteral _, _
  | .booleanLiteral _, _ | .typedNull _, _ => rfl
  | .comparison _ left right, hexpr | .boolOp _ left right, hexpr => by
    rw [rowwise, Bool.and_eq_true] at hexpr
    simp [aggregates, aggregates_of_rowwise left hexpr.1, aggregates_of_rowwise right hexpr.2]
  | .not operand, hexpr | .isNull operand _, hexpr | .mod operand _, hexpr
  | .valueCodecRoundTrip _ operand _, hexpr => by
    rw [aggregates]
    exact aggregates_of_rowwise operand hexpr
  | .case condition thenExpr elseExpr _, hexpr => by
    rw [rowwise, Bool.and_eq_true, Bool.and_eq_true] at hexpr
    simp [aggregates, aggregates_of_rowwise condition hexpr.1.1,
      aggregates_of_rowwise thenExpr hexpr.1.2, aggregates_of_rowwise elseExpr hexpr.2]

/-- Whether every entry of the list is decided by the row alone. -/
def rowwiseList (list : List ListItem) : Bool :=
  list.all fun item => rowwise item.expr

def listAggregates (list : List ListItem) : Bool :=
  list.any fun item => aggregates item.expr

theorem listRow_rowwise {list : List ListItem} (hlist : rowwiseList list = true)
    {sight other : Sight V} (h : sight.column = other.column) :
    listRow engine binder list sight = listRow engine binder list other := by
  funext name
  unfold listRow
  cases hfind : list.find? fun item => item.name = name with
  | none => rfl
  | some item =>
      have hitem : rowwise item.expr = true :=
        List.all_eq_true.mp hlist item (List.mem_of_find?_eq_some hfind)
      cases item with
      | plain item => exact eval_rowwise engine h item.expr hitem
      | cast item =>
          exact congrArg (binder.castTo item.dataType) (eval_rowwise engine h item.expr hitem)
      | probe condition => exact eval_rowwise engine h condition hitem

theorem listAggregates_of_rowwise {list : List ListItem} (hlist : rowwiseList list = true) :
    listAggregates list = false := by
  simp only [listAggregates, List.any_eq_false]
  intro item hitem
  rw [aggregates_of_rowwise item.expr (List.all_eq_true.mp hlist item hitem)]
  decide

theorem aggregated_queryOf {body : Body} (hqualify : body.qualify = none) :
    aggregated (queryOf body) = listAggregates (body.list.getD []) := by
  cases hlist : body.list with
  | none => simp [aggregated, queryOf, hlist, hqualify, itemsAggregate, listAggregates, aggregatesArg]
  | some list =>
      simp [aggregated, queryOf, hlist, hqualify, itemsAggregate, listAggregates, aggregatesArg,
        Function.comp_def]

/-- Without groups, a rowwise list has one row for each row that passes the filter. -/
theorem bodyRows_rowwise {body : Body} {list : List ListItem} (hlist : body.list = some list)
    (hrowwise : rowwiseList list = true) (hgroup : body.groupBy = none)
    (hqualify : body.qualify = none) (hdistinct : body.distinct = false) (occasion : Occasion)
    (rows : Bag V) :
    bodyRows engine binder occasion rows body =
      (rows.filter fun row => engine.keeps (rowSight row) body.predicate).map fun row =>
        listRow engine binder list (rowSight row) := by
  have hplain : aggregated (queryOf body) = false := by
    rw [aggregated_queryOf hqualify, hlist]
    exact listAggregates_of_rowwise hrowwise
  have hgroup : (queryOf body).groupBy = none := hgroup
  have hqualify : (queryOf body).qualify = none := hqualify
  have hcoe := coe_kept engine occasion rows (queryOf body)
  simp only [bodyRows, hdistinct, Bool.false_eq_true, if_false]
  rw [qualified_ungrouped engine occasion rows hgroup hplain, hqualify]
  change _ = Multiset.map _ (rows.filter fun row =>
    engine.keeps (rowSight row) (queryOf body).predicate)
  rw [← hcoe, Multiset.map_coe]
  simp only [keeps_none, decide_true, List.filter_true, List.map_map]
  refine congrArg _ ?_
  calc _ = (kept engine occasion rows (queryOf body)).zipIdx.map
          ((fun row => listRow engine binder list (rowSight row)) ∘ Prod.fst) := by
        apply List.map_congr_left
        intro entry _
        simp only [Function.comp_apply, outputRow, hlist]
        exact listRow_rowwise engine binder hrowwise rfl
    _ = _ := by rw [← List.map_map, List.zipIdx_map_fst]

theorem listRow_map {items : List ProjectionItem} {f : ProjectionItem → ListItem}
    (hname : ∀ item, (f item).name = item.name) (sight : Sight V) (name : String) :
    listRow engine binder (items.map f) sight name =
      match items.find? fun item => item.name = name with
      | some item => itemValue engine binder sight (f item)
      | none => .null := by
  have hfind : (items.map f).find? (fun item => item.name = name) =
      (items.find? fun item => item.name = name).map f := by
    rw [List.find?_map]
    simp only [Function.comp_def, hname]
  unfold listRow
  rw [hfind]
  cases items.find? fun item => item.name = name with
  | none => rfl
  | some item => rfl

end Rowwise

end EqGen.Equivalence.Emitted
