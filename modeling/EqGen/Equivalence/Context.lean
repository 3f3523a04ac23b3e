import EqGen.Builder.Factory
import EqGen.Equivalence.Ast

/-!
The run of a generation: its configuration, its draws, the names it mints and the nodes it
makes (`equivalence/config.py`, `equivalence/context.py`, `config/weighted.py`).
-/

namespace EqGen.Equivalence.Context

open EqGen.Builder.Context
open EqGen.Builder.Factory
open EqGen.Core.Catalog
open EqGen.Equivalence.Ast
open EqGen.Ir.Expr hiding ExpressionNode
open EqGen.Lib.Backtrack
open EqGen.Lib.Dag

/-- An option and its relative weight. -/
structure Weighted (α : Type) where
  value : α
  weight : Nat

abbrev Choices (α : Type) := List (Weighted α)

inductive KeySelection where
  | first | random
  deriving DecidableEq, Repr

inductive WindowFunctionChoice where
  | min | max | firstValue | lastValue
  deriving DecidableEq, Repr

inductive WindowFrameChoice where
  | none | rows | range
  deriving DecidableEq, Repr

/-- The settings of a generation: the limits, the weights of the builders, and theirs. -/
structure EquivalenceConfig where
  maxDepth : Nat
  maxNodes : Nat
  maxAttempts : Nat
  builderWeights : Weights
  rootBuilderWeights : Weights
  keySelectionWeights : Choices KeySelection
  joinTypeWeights : Choices JoinType
  windowFunctionWeights : Choices WindowFunctionChoice
  windowFrameWeights : Choices WindowFrameChoice
  bigTableRowcountWeights : Choices Nat

/-- A plugin: what it answers may depend on how many numbers were drawn before it was asked. -/
structure PredicateSource where
  name : String
  booleanPredicate : Nat → Table → Nat → Option String

/--
What a generation is given: the settings, the table, every random number it draws, the plugin,
and whether the deadline has passed whenever it is checked.
-/
structure EquivalenceContext where
  config : EquivalenceConfig
  baseTable : Table
  draws : Nat → Nat
  predicateSource : Option PredicateSource := none
  late : Nat → Bool := fun _ => false

/-- What changes while a generation runs: the build, the name counters, the predicates' origins. -/
structure GenerationState extends BuildState where
  objectCounters : String → Nat
  predicateOrigin : Multiset String := 0

instance : HasBuildState GenerationState where
  buildState := GenerationState.toBuildState
  setBuildState b s := { s with toBuildState := b }
  buildState_setBuildState _ _ := rfl

abbrev Gen := Attempt GenerationError GenerationState

/-- The next random number. -/
def draw (context : EquivalenceContext) : Gen Nat := fun s =>
  .done (context.draws s.drawn) { s with drawn := s.drawn + 1 }

/-- The options `random.choices` can return. -/
def Choices.eligible {α : Type} (choices : Choices α) : List (Weighted α) :=
  choices.filter fun option => 0 < option.weight

/-- The value a draw selects among the eligible options. -/
def Choices.pick {α : Type} (choices : Choices α) (drawn : Nat) : Option α :=
  (choices.eligible[drawn % choices.eligible.length]?).map Weighted.value

/-- `Choices.choose_one` -/
def chooseOne {α : Type} (context : EquivalenceContext) (choices : Choices α) : Gen α := do
  Attempt.require (choices ≠ []) (.index "list index out of range")
  Attempt.require (choices.eligible ≠ []) (.value "Total of weights must be greater than zero")
  let drawn ← draw context
  match choices.pick drawn with
  | some value => pure value
  | none => Attempt.raise (.index "list index out of range")

/-- `random.choice` -/
def randomChoice {α : Type} (context : EquivalenceContext) (items : List α) : Gen α := do
  let drawn ← draw context
  match items[drawn % items.length]? with
  | some item => pure item
  | none => Attempt.raise (.index "Cannot choose from an empty sequence")

/-- `context.predicate_origin[origin] += 1` -/
def noteOrigin (origin : String) : Gen Unit := fun s =>
  .done () { s with predicateOrigin := origin ::ₘ s.predicateOrigin }

/-- `source.boolean_predicate(context.base_table, seed=random.randrange(2**31))` -/
def askPredicate (context : EquivalenceContext) (source : PredicateSource) :
    Gen (Option String) := fun s =>
  .done (source.booleanPredicate s.drawn context.baseTable (context.draws s.drawn % 2 ^ 31))
    { s with drawn := s.drawn + 1 }

/-- `NameGenerator.generate_object_name` -/
def generateObjectName (stem : String) : Gen String := fun s =>
  let count := s.objectCounters stem + 1
  .done (stem ++ "_" ++ toString count)
    { s with objectCounters := Function.update s.objectCounters stem count }

/-- `NameGenerator.generate_column_name` shares the counters of the object names. -/
def generateColumnName (stem : String) : Gen String :=
  generateObjectName stem

/-- `ObjectNamer.mint` -/
def mint (context : EquivalenceContext) (kind : String) : Gen String :=
  generateObjectName (context.baseTable.name ++ "_" ++ kind)

/-- A node object of its own. -/
def newNode (label : Label) (inputs : List EqNode) : Gen EqNode := fun s =>
  .done (.mk s.created label inputs) { s with created := s.created + 1 }

/-- The query of a query node. -/
def queryOf (node : EqNode) : Query :=
  match node.label with
  | .query query => query
  | _ => ⟨.unionAll, []⟩

/-- A query node over its sources. -/
def newQuery (shape : QueryShape) (sources : List EqNode) : Gen EqNode :=
  newNode (.query (queryOver shape sources)) sources

def selectQuery (source : EqNode) (query : SelectQuery) : Gen EqNode :=
  newQuery (.select query) [source]

/-- `UnionAllQuery.__init__` -/
def unionAllQuery (branches : List EqNode) : Gen EqNode := do
  Attempt.require (2 ≤ branches.length)
    (.assertion "UNION ALL requires at least two branches")
  newQuery .unionAll branches

/-- `exposed_name or namer.mint(label)` -/
def exposedOrMinted (context : EquivalenceContext) (kind : String) (exposedName : Option String) :
    Gen String :=
  match exposedName with
  | some name => if name = "" then mint context kind else pure name
  | none => mint context kind

/-- `CreateFromQuery._create_as_select` and the node around it. -/
def createAsSelect (context : EquivalenceContext) (relationClass : RelationClass)
    (kind : ObjectKind) (keyword label : String) (query : EqNode) (exposedName : Option String) :
    Gen EqNode := do
  let name ← exposedOrMinted context label exposedName
  let isView := kind = .view || kind = .temporaryView || kind = .materializedView
  let created : Object := ⟨isView, name, keyword, queryOf query⟩
  newNode (.relation ⟨relationClass, kind, [.object created], created, getSignature query⟩) [query]

def createView (context : EquivalenceContext) (query : EqNode) (exposedName : Option String) :
    Gen EqNode :=
  createAsSelect context .createView .view "VIEW" "view" query exposedName

def createTemporaryView (context : EquivalenceContext) (query : EqNode)
    (exposedName : Option String) : Gen EqNode :=
  createAsSelect context .createTemporaryView .temporaryView "TEMPORARY VIEW" "view" query
    exposedName

def createMaterializedView (context : EquivalenceContext) (query : EqNode)
    (exposedName : Option String) : Gen EqNode :=
  createAsSelect context .createMaterializedView .materializedView "MATERIALIZED VIEW" "view" query
    exposedName

def createTable (context : EquivalenceContext) (query : EqNode) (exposedName : Option String) :
    Gen EqNode :=
  createAsSelect context .createTable .table "TABLE" "table" query exposedName

def createTemporaryTable (context : EquivalenceContext) (query : EqNode)
    (exposedName : Option String) : Gen EqNode :=
  createAsSelect context .createTemporaryTable .temporaryTable "TEMPORARY TABLE" "table" query
    exposedName

end EqGen.Equivalence.Context
