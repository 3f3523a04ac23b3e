import EqGen.Equivalence.Builders.Creates

/-!
The builders that replace each column by an expression of the same value: `builders/eet.py`,
`builders/roundtrips.py` and `builders/window.py`.
-/

namespace EqGen.Equivalence.Builders.Rewrites

open EqGen.Core.Types
open EqGen.Core.Catalog
open EqGen.Ir.Expr hiding ExpressionNode
open EqGen.Equivalence.Ast
open EqGen.Equivalence.Context
open EqGen.Equivalence.Builders.Base
open EqGen.Equivalence.Builders.Creates
open EqGen.Lib.Backtrack

/-- What a column is replaced by, or nothing where it passes through. -/
abbrev ColumnRewriter := String → SqlType → Gen (Option ExpressionNode)

variable (buildSubtree : BuildSubtree) (context : EquivalenceContext)

/-- The items for some columns, and whether one of them was rewritten. -/
def rewriteItems (rewrite : ColumnRewriter) : List Column → Gen (List ProjectionItem × Bool)
  | [] => pure ([], false)
  | column :: rest => do
    let rewritten ← rewrite column.name column.dataType
    let items ← rewriteItems rewrite rest
    match rewritten with
    | none => pure (passthrough column.name column.dataType :: items.1, items.2)
    | some expr => pure (⟨column.name, expr, column.dataType⟩ :: items.1, true)

/-- `ColumnRewriteQueryBuilder._build`, given its `_column_rewriter`. -/
def columnRewriteQuery (columnRewriter : Gen ColumnRewriter) : Gen EqNode := do
  let rewrite ← columnRewriter
  let items ← rewriteItems rewrite context.baseTable.columns
  Attempt.guard (items.2 = true)
  let source ← dispatchSource buildSubtree {}
  selectQuery source { projection := some items.1 }

/-- `_free_predicate` -/
def freePredicate : Gen (Option ExpressionNode) := do
  let generated ← generatedPredicate context
  match generated with
  | some predicate => pure (some predicate)
  | none =>
    match context.baseTable.columns with
    | [] => pure none
    | first :: rest => do
      noteOrigin "builtin-fallback"
      let column ← selectKey context (first :: rest)
      let reference := col column.name column.dataType
      if column.dataType.getProperties.orderable then pure (some (ge reference reference))
      else pure (some (.isNull reference false))

/-- `CASE WHEN <always true> THEN column ELSE NULL END` -/
def eetCase (predicate : ExpressionNode) (name : String) (dataType : SqlType) : ExpressionNode :=
  .case (determinedTrue predicate) (col name dataType) (.typedNull dataType) dataType

/-- `EetCaseColumnQueryBuilder._column_rewriter` -/
def eetCaseRewriter : Gen ColumnRewriter := do
  let tried ← freePredicate context
  match tried with
  | none => pure fun _ _ => pure none
  | some _ => pure fun name dataType => do
    let predicate ← freePredicate context
    pure (predicate.map fun predicate => eetCase predicate name dataType)

/-- `EetCaseColumnQueryBuilder._build` -/
def eetCaseColumnQuery : Gen EqNode :=
  columnRewriteQuery buildSubtree context (eetCaseRewriter context)

/-- `EetDeterminedFilterQueryBuilder._build` -/
def eetDeterminedFilterQuery (constraints : ConstraintSet) : Gen EqNode := do
  let free ← freePredicate context
  let predicate ← Attempt.fromOption free
  let source ← dispatchSource buildSubtree constraints
  selectQuery source
    { predicate := some (conjoin constraints.rowFilter (determinedTrue predicate)) }

/-- `ValueCodecSpec.roundtrip` -/
def codecRoundTrip (codec : ValueCodec) (name : String) (dataType : SqlType) : ExpressionNode :=
  .case (.isNull (col name dataType) false) (.typedNull dataType)
    (.valueCodecRoundTrip codec (col name dataType) dataType) dataType

/-- `UniformAssignment.plan`: the codec for the text columns. -/
def uniformPlan (codec : ValueCodec) : List (String × ValueCodec) :=
  (context.baseTable.columns.filter fun column => column.dataType.isVarcharType).map
    fun column => (column.name, codec)

/-- `PerColumnAssignment.plan`: a codec drawn for each text column. -/
def perColumnPlan (codecs : List ValueCodec) : List Column → Gen (List (String × ValueCodec))
  | [] => pure []
  | column :: rest => do
    if column.dataType.isVarcharType ∧ codecs ≠ [] then
      let codec ← randomChoice context codecs
      let plan ← perColumnPlan codecs rest
      pure ((column.name, codec) :: plan)
    else perColumnPlan codecs rest

/-- A later entry of a plan replaces an earlier one of the same name. -/
def planned (plan : List (String × ValueCodec)) (name : String) : Option ValueCodec :=
  List.lookup name plan.reverse

/-- `CodecRoundTripQueryBuilder._column_rewriter` -/
def codecRewriter (assignment : Gen (List (String × ValueCodec))) : Gen ColumnRewriter := do
  let plan ← assignment
  pure fun name dataType =>
    pure ((planned plan name).map fun codec => codecRoundTrip codec name dataType)

/-- The `_build` of the builders with one codec. -/
def uniformCodecRoundTrip (codec : ValueCodec) : Gen EqNode :=
  columnRewriteQuery buildSubtree context (codecRewriter (pure (uniformPlan context codec)))

/-- `HexCodecRoundTripBuilder._build` -/
def hexCodecRoundTrip : Gen EqNode :=
  uniformCodecRoundTrip buildSubtree context .hex

/-- `Base64CodecRoundTripBuilder._build` -/
def base64CodecRoundTrip : Gen EqNode :=
  uniformCodecRoundTrip buildSubtree context .base64

/-- `JsonPackCodecRoundTripBuilder._build` -/
def jsonPackCodecRoundTrip : Gen EqNode :=
  uniformCodecRoundTrip buildSubtree context .jsonPack

/-- `MixedCodecRoundTripBuilder._build` -/
def mixedCodecRoundTrip : Gen EqNode :=
  columnRewriteQuery buildSubtree context
    (codecRewriter (perColumnPlan context [.hex, .jsonPack] context.baseTable.columns))

/-- `_FUNCTIONS` -/
def windowFunction : WindowFunctionChoice → WindowFunction
  | .min => .min
  | .max => .max
  | .firstValue => .firstValue
  | .lastValue => .lastValue

/-- `_frame_for` -/
def frameFor : WindowFrameChoice → Option WindowFrameKind
  | .none => none
  | .rows => some .rows
  | .range => some .range

/-- `WindowRewriteQueryBuilder._eligible` -/
def eligible (dataType : SqlType) (function : WindowFunction) (ordered : Bool) : Bool :=
  let properties := dataType.getProperties
  let aggregate := function = .min || function = .max
  properties.groupable && (!ordered || properties.orderable) &&
    (!aggregate || properties.aggregatable) && (!aggregate || !dataType.isBooleanType) &&
    !(dataType.kind = .double)

/-- `<function>(column) OVER (PARTITION BY column ...)` -/
def windowed (function : WindowFunction) (frame : Option WindowFrameKind) (ordered : Bool)
    (name : String) (dataType : SqlType) : ExpressionNode :=
  .windowCall function (some (col name dataType)) [col name dataType]
    (if ordered then [col name dataType] else []) frame dataType

/-- `WindowRewriteQueryBuilder._column_rewriter` -/
def windowRewriter : Gen ColumnRewriter := do
  let choice ← chooseOne context context.config.windowFunctionWeights
  let function := windowFunction choice
  let frameChoice ← chooseOne context context.config.windowFrameWeights
  let frame := frameFor frameChoice
  let ordered := function = .firstValue || function = .lastValue || frame.isSome
  pure fun name dataType =>
    pure (if eligible dataType function ordered then
      some (windowed function frame ordered name dataType) else none)

/-- `WindowRewriteQueryBuilder._build` -/
def windowRewriteQuery : Gen EqNode :=
  columnRewriteQuery buildSubtree context (windowRewriter context)

end EqGen.Equivalence.Builders.Rewrites
