import Mathlib.Data.Rat.Defs
import Mathlib.Data.Rat.Lemmas
import Mathlib.Algebra.Order.Field.Rat
import Mathlib.Tactic.Linarith
import Mathlib.Tactic.NormNum
import EqGen.Equivalence.Ast
import EqGen.Lib.Bag
import EqGen.Lib.Walk

/-!
`schedule.py`: the time a round may take grows with the shape of its tree. The score counts in
exact fractions.
-/

namespace EqGen.Fuzz.Schedule

open EqGen.Core.Catalog
open EqGen.Equivalence.Ast
open EqGen.Lib.Bag
open EqGen.Lib.Dag
open EqGen.Lib.Walk

def depthCap : ℚ := 30

def nodeCap : ℚ := 80

def stmtCap : ℚ := 40

/-- Shape metrics for one generated equivalence, plus a score in `[0, 1]`. -/
structure EquivalenceComplexity where
  depth : Nat
  nodes : Nat
  statements : Nat
  builderKinds : Nat
  score : ℚ

/-- `measure_complexity` -/
def measureComplexity (root : EqNode) (statements : Nat) (buildersUsed : Counter String) :
    EquivalenceComplexity :=
  let walked := walk [(root, 1)] {}
  { depth := walked.depth
    nodes := walked.nodes
    statements := statements
    builderKinds := buildersUsed.items.length
    score := min 1 (max (max (walked.depth / depthCap) (walked.nodes / nodeCap))
      (statements / stmtCap)) }

/-- The depth is that of the longest path to a leaf, and every node is counted once. -/
structure MeasuresTree (root : EqNode) (complexity : EquivalenceComplexity) : Prop where
  depth : IsGreatest {k | ∃ path, RootToLeaf root path ∧ path.length = k} complexity.depth
  nodes : complexity.nodes = root.ids.toFinset.card

/--
Some longest path always goes on through the last of the inputs from which the node that it ends
in can be reached.
-/
def LastInputsLeadDeepest (root : EqNode) : Prop :=
  ∃ target, Leads root target (height root)

theorem isGreatest_depth_iff (root : EqNode) (depth : Nat) :
    IsGreatest {k | ∃ path, RootToLeaf root path ∧ path.length = k} depth ↔
      depth = height root :=
  ⟨fun h => h.unique (isGreatest_height root), fun h => h ▸ isGreatest_height root⟩

/-- Every node is counted once, in whatever order the shared ones are reached. -/
theorem nodes_measureComplexity {root : EqNode} (hroot : Coherent root) (statements : Nat)
    (buildersUsed : Counter String) :
    (measureComplexity root statements buildersUsed).nodes = root.ids.toFinset.card :=
  nodes_walk hroot 1

/-- The depth is never overstated. -/
theorem depth_measureComplexity_le {root : EqNode} (hroot : Coherent root) (statements : Nat)
    (buildersUsed : Counter String) :
    (measureComplexity root statements buildersUsed).depth ≤ height root :=
  (depth_walk_le hroot).mpr fun _ _ hleads => hleads.le_height

/-- The depth is that of the longest path if and only if the last inputs lead along one. -/
theorem measuresTree_iff {root : EqNode} (hroot : Coherent root) (statements : Nat)
    (buildersUsed : Counter String) :
    MeasuresTree root (measureComplexity root statements buildersUsed) ↔
      LastInputsLeadDeepest root := by
  constructor
  · intro h
    exact (depth_walk_eq_height hroot).mp ((isGreatest_depth_iff root _).mp h.depth)
  · intro h
    refine ⟨(isGreatest_depth_iff root _).mpr ?_, nodes_measureComplexity hroot _ _⟩
    exact (depth_walk_eq_height hroot).mpr h

/-- A base table, a query over it, one over that, and the union of these two queries. -/
def source : EqNode :=
  .mk 0 (.baseTableSource { name := "t", columns := [], name_nonempty := t_ne_empty }) []

def selected (id : Nat) (input : EqNode) : EqNode :=
  .mk id (.query (queryOver (.select {}) [input])) [input]

def union (left right : EqNode) : EqNode :=
  .mk 3 (.query (queryOver .unionAll [left, right])) [left, right]

theorem coherent_union {left right : EqNode}
    (h : [left, right] ⊆ [selected 1 source, selected 2 (selected 1 source)]) :
    Coherent (union left right) := by
  apply coherent_of_closed
    [union left right, source, selected 1 source, selected 2 (selected 1 source)] (by simp)
  · simp only [List.forall_mem_cons, List.not_mem_nil, false_implies, implies_true, and_true]
    refine ⟨fun n hn => ?_, ?_, ?_, ?_⟩
    · exact List.mem_cons_of_mem _ (List.mem_cons_of_mem _ (h hn))
    · simp [source]
    · simp [selected]
    · simp [selected]
  · simp [union, source, selected]

theorem height_union : height (union (selected 2 (selected 1 source)) (selected 1 source)) = 4 := by
  simp [union, source, selected, height_mk]

/-- With the longer branch last the depth is right. -/
theorem measuresTree_union :
    MeasuresTree (union (selected 1 source) (selected 2 (selected 1 source)))
      (measureComplexity (union (selected 1 source) (selected 2 (selected 1 source))) 1
        ⟨[], List.nodup_nil⟩) := by
  refine (measuresTree_iff (coherent_union (by simp)) 1 _).mpr ⟨0, ?_⟩
  have hheight : height (union (selected 1 source) (selected 2 (selected 1 source))) = 4 := by
    simp [union, source, selected, height_mk]
  rw [hheight]
  have hsource : Leads source 0 1 := .here source
  have hshared : Leads (selected 1 source) 0 2 := leads_last [] rfl (by simp [selected]) hsource
  have hover : Leads (selected 2 (selected 1 source)) 0 3 :=
    leads_last [] rfl (by simp [selected]) hshared
  exact leads_last [selected 1 source] rfl (by simp [union]) hover

/-- The shared query is popped as the last input of the union, before the longer path to it. -/
theorem not_always_measuresTree :
    ¬∀ (root : EqNode) (statements : Nat) (buildersUsed : Counter String), Coherent root →
      MeasuresTree root (measureComplexity root statements buildersUsed) := by
  intro h
  have hcoherent : Coherent (union (selected 2 (selected 1 source)) (selected 1 source)) :=
    coherent_union (by simp)
  have hdepth := (isGreatest_depth_iff _ _).mp
    (h _ 1 ⟨[], List.nodup_nil⟩ hcoherent).depth
  rw [height_union] at hdepth
  revert hdepth
  simp [measureComplexity, walk, pushed, Walked.visit, union, selected, source]

/-- `RoundTimeScheduler`, with what its constructor checks. -/
structure RoundTimeScheduler where
  maxSeconds : ℚ := 10
  minSeconds : ℚ := 3
  flat : Bool := false
  max_pos : 0 < maxSeconds
  min_pos : 0 < minSeconds
  min_le_max : minSeconds ≤ maxSeconds

/-- `RoundTimeScheduler.seconds` -/
def RoundTimeScheduler.seconds (scheduler : RoundTimeScheduler) :
    Option EquivalenceComplexity → ℚ
  | none => scheduler.maxSeconds
  | some complexity =>
    if scheduler.flat then scheduler.maxSeconds
    else scheduler.minSeconds + (scheduler.maxSeconds - scheduler.minSeconds) * complexity.score

theorem score_measureComplexity (root : EqNode) (statements : Nat)
    (buildersUsed : Counter String) :
    0 ≤ (measureComplexity root statements buildersUsed).score ∧
      (measureComplexity root statements buildersUsed).score ≤ 1 := by
  refine ⟨le_min zero_le_one (le_max_of_le_right ?_), min_le_left _ _⟩
  exact div_nonneg (Nat.cast_nonneg _) (by norm_num [stmtCap])

/-- Every tree gets a budget between the floor and the cap. -/
theorem seconds_measureComplexity (scheduler : RoundTimeScheduler) (root : EqNode)
    (statements : Nat) (buildersUsed : Counter String) :
    scheduler.minSeconds ≤
        scheduler.seconds (some (measureComplexity root statements buildersUsed)) ∧
      scheduler.seconds (some (measureComplexity root statements buildersUsed)) ≤
        scheduler.maxSeconds := by
  obtain ⟨hzero, hone⟩ := score_measureComplexity root statements buildersUsed
  have hspan := sub_nonneg.mpr scheduler.min_le_max
  rw [RoundTimeScheduler.seconds]
  split
  · exact ⟨scheduler.min_le_max, le_refl _⟩
  · constructor
    · exact le_add_of_nonneg_right (mul_nonneg hspan hzero)
    · have := mul_le_of_le_one_right hspan hone
      linarith

end EqGen.Fuzz.Schedule
