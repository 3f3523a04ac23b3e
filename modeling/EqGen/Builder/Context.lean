import Mathlib.Algebra.GroupWithZero.Nat
import Mathlib.Data.Multiset.AddSub
import EqGen.Lib.Backtrack
import EqGen.Lib.Dag

/-!
The counters a build keeps, and how the factory changes them around a builder
(`builder/context.py`, `builder/builder.py`).
-/

namespace EqGen.Builder.Context

open EqGen.Lib.Backtrack
open EqGen.Lib.Dag

/-- The errors of a build. The last one is the model's: the recursion was not given enough fuel. -/
inductive GenerationError where
  | assertion (message : String)
  | value (message : String)
  | index (message : String)
  | deadlineExceeded (depth nodes attempted : Nat)
  | constraintViolation
  | outOfFuel

/-- The counters of `BuilderContext`. -/
structure Counters where
  depth : Nat := 0
  nodeCount : Nat := 0
  nodesAttempted : Nat := 0
  deriving DecidableEq, Repr

/-- What happens to a builder: it starts, it has built a node, it ends. -/
inductive Deed where
  | entered (leaf : Bool)
  | committed (node : Nat)
  | left (undone : Nat)
  deriving DecidableEq, Repr

/-- A change of the counters, and what they are after it. -/
structure Event where
  builder : String
  deed : Deed
  counters : Counters
  deriving DecidableEq, Repr

/--
The state every build has: the counters, the factory's `chosen`, and how many nodes were made,
random numbers drawn and deadlines checked. The trace is kept for the statements only.
-/
structure BuildState extends Counters where
  chosen : Multiset String := 0
  created : Nat := 0
  drawn : Nat := 0
  checked : Nat := 0
  trace : List Event := []

/-- A state with the state of a build in it. -/
class HasBuildState (σ : Type) where
  buildState : σ → BuildState
  setBuildState : BuildState → σ → σ
  buildState_setBuildState (b : BuildState) (s : σ) : buildState (setBuildState b s) = b

export HasBuildState (buildState setBuildState)

attribute [simp] HasBuildState.buildState_setBuildState

namespace BuildState

def record (builder : String) (deed : Deed) (s : BuildState) : BuildState :=
  { s with trace := s.trace ++ [⟨builder, deed, s.toCounters⟩] }

/-- The start of `_enter_builder`. -/
def enter (builder : String) (leaf : Bool) (s : BuildState) : BuildState :=
  { s with depth := s.depth + 1 }.record builder (.entered leaf)

/-- `commit`, and the factory's count of the builder. -/
def commit (builder : String) (node : Nat) (s : BuildState) : BuildState :=
  { s with
    nodeCount := s.nodeCount + 1
    nodesAttempted := s.nodesAttempted + 1
    chosen := builder ::ₘ s.chosen }.record builder (.committed node)

/-- The end of `_enter_builder` after a commit. -/
def leave (builder : String) (s : BuildState) : BuildState :=
  { s with depth := s.depth - 1 }.record builder (.left 0)

/-- The end of `_enter_builder` without one. -/
def abandon (builder : String) (saved : Nat) (s : BuildState) : BuildState :=
  { s with depth := s.depth - 1, nodeCount := saved }.record builder (.left (s.nodeCount - saved))

end BuildState

section Enter

variable {σ : Type} [HasBuildState σ] {α : Type}

abbrev Build (σ α : Type) := Attempt GenerationError σ α

/-- The counters as they are now. -/
def readCounters : Build σ Counters := fun s =>
  .done (buildState s).toCounters s

def modifyBuild (f : BuildState → BuildState) (s : σ) : σ :=
  setBuildState (f (buildState s)) s

@[simp]
theorem buildState_modifyBuild (f : BuildState → BuildState) (s : σ) :
    buildState (modifyBuild f s) = f (buildState s) :=
  HasBuildState.buildState_setBuildState _ _

/-- `with context._enter_builder(builder) as commit`, around a body that commits what it builds. -/
def enterBuilder (builder : String) (leaf : Bool) (body : Build σ (Node α)) :
    Build σ (Node α) := fun s =>
  let saved := (buildState s).nodeCount
  match body (modifyBuild (BuildState.enter builder leaf) s) with
  | .done node s =>
    .done node (modifyBuild (BuildState.leave builder ∘ BuildState.commit builder node.id) s)
  | .declined s => .declined (modifyBuild (BuildState.abandon builder saved) s)
  | .raised error s => .raised error (modifyBuild (BuildState.abandon builder saved) s)

/-- `check_deadline`, given whether the deadline has passed at each check. -/
def checkDeadline (late : Nat → Bool) : Build σ Unit := fun s =>
  let b := buildState s
  let s' := setBuildState { b with checked := b.checked + 1 } s
  if late b.checked then .raised (.deadlineExceeded b.depth b.nodeCount b.nodesAttempted) s'
  else .done () s'

/-- The next of the numbers the run draws. -/
def drawNumber (draws : Nat → Nat) : Build σ Nat := fun s =>
  let b := buildState s
  .done (draws b.drawn) (setBuildState { b with drawn := b.drawn + 1 } s)

end Enter

end EqGen.Builder.Context
