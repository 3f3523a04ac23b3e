import Mathlib.Data.List.Sort
import EqGen.Builder.Discipline

/-!
The factory: which builders may serve a request, in which order they are tried, and the
recursion through their requests (`builder/builder.py`, `builder/weighted_factory.py`).
-/

namespace EqGen.Builder.Factory

open EqGen.Builder.Context
open EqGen.Builder.Discipline
open EqGen.Lib.Backtrack
open EqGen.Lib.Dag

/--
What the factory asks of node types and constraints: `C` are the classes builders declare, `R`
the ones requested, `K` the types of constraints and `S` the sets of them.
-/
structure Vocabulary (α C R K S : Type) where
  issubclass : C → R → Bool
  isinstance : Node α → C → Bool
  serves : Node α → R → Bool
  constraintTypes : S → List K
  meetsConstraints : S → Node α → Bool

/-- `NodeBuilder`: it counts nodes through its requests only, and drops no node it asked for. -/
structure NodeBuilder (σ α C R K S : Type) [HasBuildState σ] where
  name : String
  resultType : C
  requiredConstraintTypes : List K := []
  supportedConstraintTypes : List K
  isLeaf : Bool := false
  build : (R → S → Build σ (Node α)) → S → Build σ (Node α)
  disciplined : Disciplined build

/-- `BuilderSettings`; 0 nodes or attempts mean no limit. -/
structure BuilderSettings where
  maxDepth : Nat
  maxNodes : Nat := 0
  maxAttempts : Nat := 0

abbrev Weights := List (String × Nat)

/-- The weight of a builder, which is 1 if it has no entry. -/
def Weights.get (weights : Weights) (name : String) : Nat :=
  (List.lookup name weights).getD 1

/-- A factory, with the numbers its run draws and whether its deadline has passed. -/
structure WeightedBuilderFactory (σ α C R K S : Type) [HasBuildState σ] where
  vocabulary : Vocabulary α C R K S
  builders : List (NodeBuilder σ α C R K S)
  settings : BuilderSettings
  weights : Weights
  rootWeights : Weights
  draws : Nat → Nat
  late : Nat → Bool

variable {σ α C R K S : Type} [HasBuildState σ] [DecidableEq K]

namespace WeightedBuilderFactory

variable (factory : WeightedBuilderFactory σ α C R K S)

/-- Whether only leaf builders may run. -/
def leafOnly (counters : Counters) : Bool :=
  let settings := factory.settings
  settings.maxDepth - 1 ≤ counters.depth ||
    (0 < settings.maxNodes && settings.maxNodes ≤ counters.nodeCount) ||
    (0 < settings.maxAttempts && settings.maxAttempts ≤ counters.nodesAttempted)

/-- Whether a builder can serve a request. -/
def supports (requested : R) (constraints : S) (leafOnly : Bool) (b : NodeBuilder σ α C R K S) :
    Bool :=
  let types := factory.vocabulary.constraintTypes constraints
  types ⊆ b.supportedConstraintTypes &&
    factory.vocabulary.issubclass b.resultType requested &&
    b.requiredConstraintTypes ⊆ types &&
    (!leafOnly || b.isLeaf)

/-- `_filter_builders` -/
def filterBuilders (requested : R) (constraints : S) (counters : Counters) :
    Option (List (NodeBuilder σ α C R K S)) :=
  if factory.settings.maxDepth ≤ counters.depth then none
  else
    let supported :=
      factory.builders.filter (factory.supports requested constraints (factory.leafOnly counters))
    if supported.isEmpty then none else some supported

/-- `_active_weight_cache` -/
def activeWeights (depth : Nat) : Weights :=
  if depth = 0 && !factory.rootWeights.isEmpty then factory.rootWeights else factory.weights

def drawKeys : Nat → Build σ (List Nat)
  | 0 => pure []
  | n + 1 => do
    let key ← drawNumber factory.draws
    let keys ← drawKeys n
    pure (key :: keys)

/--
`weighted_shuffle`: the builders in the order of the keys they draw. The weight of a builder
decides how its key is distributed, and 0 leaves the builder out.
-/
def weightedShuffle (depth : Nat) (builders : List (NodeBuilder σ α C R K S)) :
    Build σ (List (NodeBuilder σ α C R K S)) := do
  let weights := factory.activeWeights depth
  let eligible := builders.filter fun b => 0 < weights.get b.name
  let keys ← factory.drawKeys eligible.length
  pure (((keys.zip eligible).insertionSort fun x y => x.1 ≤ y.1).map Prod.snd)

/-- `_run_builder` -/
def runBuilder (recurse : R → S → Build σ (Node α)) (constraints : S)
    (b : NodeBuilder σ α C R K S) : Build σ (Node α) := do
  let result ← b.build recurse constraints
  Attempt.require (factory.vocabulary.isinstance result b.resultType)
    (.assertion "declared one type but produced another")
  Attempt.require (factory.vocabulary.meetsConstraints constraints result) .constraintViolation
  pure result

/-- `_dispatch` -/
def dispatch (recurse : R → S → Build σ (Node α)) (requested : R) (constraints : S) :
    Build σ (Node α) := do
  let counters ← readCounters
  let eligible ← Attempt.fromOption (factory.filterBuilders requested constraints counters)
  let ordered ← factory.weightedShuffle counters.depth eligible
  Attempt.firstOf (ordered.map fun b =>
    enterBuilder b.name b.isLeaf (factory.runBuilder recurse constraints b))

/-- `build_subtree`, given what the builders recurse to. -/
def subtreeWith (recurse : R → S → Build σ (Node α)) (requested : R) (constraints : S) :
    Build σ (Node α) := do
  checkDeadline factory.late
  let result ← factory.dispatch recurse requested constraints
  Attempt.require (factory.vocabulary.serves result requested)
    (.assertion "the result is not of the requested type")
  pure result

/-- `build_subtree`; every request of a builder costs one unit of fuel. -/
def buildSubtree : Nat → R → S → Build σ (Node α)
  | 0 => factory.subtreeWith fun _ _ => Attempt.raise .outOfFuel
  | fuel + 1 => factory.subtreeWith (buildSubtree fuel)

end WeightedBuilderFactory

end EqGen.Builder.Factory
