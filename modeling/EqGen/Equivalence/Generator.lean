import EqGen.Builder.Budget
import EqGen.Equivalence.Factory

/-! `EquivalenceGenerator.generate` (`equivalence/generator.py`), up to the emission of the tree. -/

namespace EqGen.Equivalence.Generator

open EqGen.Builder.Accounts
open EqGen.Builder.Budget
open EqGen.Builder.Context
open EqGen.Builder.Discipline
open EqGen.Builder.Factory
open EqGen.Core.Catalog
open EqGen.Equivalence.Ast
open EqGen.Equivalence.Context
open EqGen.Equivalence.Factory
open EqGen.Equivalence.Builders.Base
open EqGen.Lib.Backtrack
open EqGen.Lib.Dag
open EqGen.Lib.Dag.Node

/-- A new context after `reset_chosen`; the name generator may have been used before. -/
def freshState (objectCounters : String → Nat) : GenerationState := { objectCounters }

/-- What `generate` asks of the root. -/
def rootConstraints (context : EquivalenceContext) (exposedName : Option String) :
    ConstraintSet :=
  { exposedName := some (exposedName.getD context.baseTable.name) }

/-- `generate`; no builder runs deeper than the largest depth, which is fuel enough. -/
def generate (context : EquivalenceContext) (pool : List EquivalenceBuilder)
    (exposedName : Option String) : Gen EqNode := do
  let root ← Attempt.optional ((factoryOf context pool).buildSubtree context.config.maxDepth
    .equivalentRelation (rootConstraints context exposedName))
  match root with
  | some root => pure root
  | none =>
    Attempt.raise (.value ("failed to generate an equivalence for table " ++
      context.baseTable.getSqlName false))

/-- `builders_used`, after a generation that returned. -/
def buildersUsed (s : GenerationState) : Multiset String :=
  s.chosen

/-- How a dispatch that started in `s` ends. -/
inductive WithinBudget (settings : BuilderSettings) (s : GenerationState) :
    Outcome GenerationError GenerationState EqNode → Prop where
  | done {node : EqNode} {s' : GenerationState} {events : List Event}
      (progress : Progress (Lawful settings) s.toBuildState s'.toBuildState events)
      (counted : s'.nodeCount = s.nodeCount + (producers [node] events).length) :
      WithinBudget settings s (.done node s')
  | declined {s' : GenerationState} {events : List Event}
      (progress : Progress (Lawful settings) s.toBuildState s'.toBuildState events)
      (restored : s'.nodeCount = s.nodeCount) : WithinBudget settings s (.declined s')
  | raised {error : GenerationError} {s' : GenerationState} {events : List Event}
      (fueled : error ≠ .outOfFuel)
      (progress : Progress (Lawful settings) s.toBuildState s'.toBuildState events) :
      WithinBudget settings s (.raised error s')

section Budgets

variable (context : EquivalenceContext) (pool : List EquivalenceBuilder)

/--
Whatever a dispatch is asked for and in whatever state of a build it starts, it ends without
running out of fuel and within its budget. The dispatches below it are those of such states.
-/
theorem withinBudget_buildSubtree (fuel : Nat) (requested : RequestType)
    (constraints : ConstraintSet) (s : GenerationState)
    (hfuel : context.config.maxDepth ≤ s.depth + fuel) (hcount : s.nodeCount ≤ s.nodesAttempted) :
    WithinBudget (builderSettings context) s
      ((factoryOf context pool).buildSubtree fuel requested constraints s) := by
  have hready : Ready s.depth ([] : List EqNode) s.toBuildState :=
    ⟨rfl, hcount, fun i hi => nomatch hi⟩
  have hasks := asks_buildSubtree (factoryOf context pool) hfuel requested constraints [] s hready
  unfold AsksFrom Attempt.Spec at hasks
  revert hasks
  cases (factoryOf context pool).buildSubtree fuel requested constraints s with
  | done node s' =>
      rintro ⟨events, hprogress, hkept⟩
      exact .done hprogress hkept.counted
  | declined s' =>
      rintro ⟨⟨events, hprogress⟩, hsame⟩
      exact .declined hprogress hsame
  | raised error s' =>
      rintro ⟨hfueled, events, hprogress⟩
      exact .raised hfueled hprogress

end Budgets

/--
`builders_used` says which builders made the nodes of the tree: each builder as often as it made
one, as many as were counted, and no builder that made none.
-/
structure TellsTruth (root : EqNode) (s : GenerationState) : Prop where
  exact : buildersUsed s = ↑((producers [root] s.trace).map Prod.fst)
  positive : ∀ builder, 0 < (buildersUsed s).count builder ↔
    ∃ node ∈ root.ids, (builder, node) ∈ commits s.trace
  total : (buildersUsed s).card = s.nodeCount

/-- No builder ended without a node after nodes below it had been counted. -/
def NothingTakenBack (events : List Event) : Prop :=
  ∀ event ∈ events, takenBack event = 0

section Used

variable {context : EquivalenceContext} {pool : List EquivalenceBuilder}
variable {exposedName : Option String} {objectCounters : String → Nat} {root : EqNode}
variable {s' : GenerationState} {events : List Event}

theorem undone_eq_zero_iff : undone events = 0 ↔ NothingTakenBack events := by
  rw [undone, List.sum_eq_zero_iff_forall_eq_nat]
  simp only [List.mem_map, forall_exists_index, and_imp, forall_apply_eq_imp_iff₂,
    NothingTakenBack]

theorem mem_producers {builder : String} {node : Nat} :
    (builder, node) ∈ producers [root] events ↔
      node ∈ root.ids ∧ (builder, node) ∈ commits events := by
  rw [producers, List.mem_filter, and_comm, decide_eq_true_iff, mem_occurs_cons, occurs_nil]
  simp

theorem generate_done {s : GenerationState}
    (h : (factoryOf context pool).buildSubtree context.config.maxDepth .equivalentRelation
      (rootConstraints context exposedName) s = .done root s') :
    generate context pool exposedName s = .done root s' := by
  simp only [generate, bind, Attempt.optional, h]
  rfl

/-- What the events of a generation that returned add up to. -/
theorem accounts_generate
    (h : generate context pool exposedName (freshState objectCounters) = .done root s') :
    buildersUsed s' = ↑((commits s'.trace).map Prod.fst) ∧
      (commits s'.trace).length = s'.nodeCount + undone s'.trace ∧
      s'.nodeCount = (producers [root] s'.trace).length := by
  have hready : Ready 0 ([] : List EqNode) (freshState objectCounters).toBuildState :=
    ⟨rfl, le_rfl, fun i hi => nomatch hi⟩
  have hasks := asks_buildSubtree (factoryOf context pool)
    (Nat.le_add_left context.config.maxDepth 0) .equivalentRelation
    (rootConstraints context exposedName) [] _ hready
  unfold AsksFrom Attempt.Spec at hasks
  simp only [generate, bind, Attempt.optional] at h
  cases hrun : (factoryOf context pool).buildSubtree context.config.maxDepth
      .equivalentRelation (rootConstraints context exposedName) (freshState objectCounters) with
  | done node t =>
      rw [hrun] at h hasks
      obtain ⟨rfl, rfl⟩ : node = root ∧ t = s' := by
        simpa [pure] using h
      obtain ⟨events, hprogress, hkept⟩ := hasks
      have htrace : t.trace = events := hprogress.trace
      have hbalance := hprogress.balance
      have hcounted := hkept.counted
      rw [htrace]
      refine ⟨?_, ?_, ?_⟩
      · exact hprogress.chosen.trans (Multiset.zero_add _)
      · exact (Nat.zero_add _).symm.trans hbalance
      · exact hcounted.trans (Nat.zero_add _)
  | declined t =>
      rw [hrun] at h
      simp [Attempt.raise] at h
  | raised error t =>
      rw [hrun] at h
      simp at h

/--
`builders_used` tells the truth about the runs in which no builder gave up after nodes below it
had been counted, and about no others.
-/
theorem tellsTruth_iff_nothingTakenBack
    (h : generate context pool exposedName (freshState objectCounters) = .done root s') :
    TellsTruth root s' ↔ NothingTakenBack s'.trace := by
  obtain ⟨hused, hbalance, hcounted⟩ := accounts_generate h
  rw [← undone_eq_zero_iff]
  constructor
  · intro htruth
    have htotal := htruth.total
    rw [hused, Multiset.coe_card, List.length_map] at htotal
    omega
  · intro hnone
    have hlength : (producers [root] s'.trace).length = (commits s'.trace).length := by omega
    have hall : producers [root] s'.trace = commits s'.trace :=
      List.filter_sublist.eq_of_length hlength
    refine ⟨by rw [hused, hall], ?_, ?_⟩
    · intro builder
      rw [Multiset.count_pos, hused, Multiset.mem_coe, List.mem_map]
      constructor
      · rintro ⟨⟨b, node⟩, hmem, rfl⟩
        exact ⟨node, (mem_producers.mp (hall ▸ hmem)).1, hmem⟩
      · rintro ⟨node, _, hmem⟩
        exact ⟨(builder, node), hmem, rfl⟩
    · rw [hused, Multiset.coe_card, List.length_map]
      omega

end Used

section Sample

/-- A table with one column. -/
def narrowTable : Table where
  name := "t"
  columns := [{ name := "a", dataType := ⟨.integer, none, none⟩, name_nonempty := a_ne_empty }]
  name_nonempty := t_ne_empty

/-- The builders that have a weight other than zero below. -/
def fewBuilders : List String :=
  ["CreateViewBuilder", "CreateTableBuilder", "SelectStarQueryBuilder", "ProjectionQueryBuilder",
    "SequenceOuterJoinQueryBuilder", "BaseTableSourceBuilder"]

/--
A run over a few builders: those at the given places in the sequence of draws come after the
others they are drawn with.
-/
def fewBuildersContext (maxNodes : Nat) (late : List Nat) : EquivalenceContext where
  config := ⟨6, maxNodes, 0, [], [], [⟨.first, 1⟩], [⟨.inner, 1⟩], [⟨.max, 1⟩], [⟨.none, 1⟩],
    [⟨2, 1⟩]⟩
  baseTable := narrowTable
  draws n := if n ∈ late then 1 else 0

def fewBuildersPool (context : EquivalenceContext) : List EquivalenceBuilder :=
  (portableBuilders context).filter fun b => b.name ∈ fewBuilders

/-- The tree is a view of the table, and the join that gave up had a table of its own built. -/
def joinGivesUp : EquivalenceContext := fewBuildersContext 0 [2, 6, 7, 9, 10]

theorem withinBudget_root :
    WithinBudget (builderSettings (fewBuildersContext 2 [])) (freshState fun _ => 0)
      ((factoryOf (fewBuildersContext 2 []) (portableBuilders (fewBuildersContext 2 []))).buildSubtree
        6 .equivalentRelation {} (freshState fun _ => 0)) :=
  withinBudget_buildSubtree (fewBuildersContext 2 []) (portableBuilders (fewBuildersContext 2 []))
    6 .equivalentRelation {} (freshState fun _ => 0) (by decide) (by decide)

/-- How many nodes `builders_used` and the counter of nodes say there are. -/
def ledger : Outcome GenerationError GenerationState EqNode → Option (Nat × Nat)
  | .done _ s => some ((buildersUsed s).card, s.nodeCount)
  | _ => none

def traceOf : Outcome GenerationError GenerationState EqNode → List Event
  | .done _ s => s.trace
  | .declined s => s.trace
  | .raised _ s => s.trace

theorem returns_of_ledger (outcome : Outcome GenerationError GenerationState EqNode)
    (h : (ledger outcome).isSome = true) : ∃ root s, outcome = .done root s := by
  cases outcome with
  | done root s => exact ⟨root, s, rfl⟩
  | declined s => simp [ledger] at h
  | raised error s => simp [ledger] at h

theorem ledger_balanced {outcome : Outcome GenerationError GenerationState EqNode}
    (h : ∀ root s, outcome = .done root s → TellsTruth root s) {used count : Nat}
    (hledger : ledger outcome = some (used, count)) : used = count := by
  cases outcome with
  | done root s =>
      obtain ⟨rfl, rfl⟩ : (buildersUsed s).card = used ∧ s.nodeCount = count := by
        simpa [ledger] using hledger
      exact (h root s rfl).total
  | declined s => simp [ledger] at hledger
  | raised error s => simp [ledger] at hledger

/-- The same draws, with the join drawn after the query that reads the table. -/
theorem tellsTruth_select_first :
    ∃ root s, generate (fewBuildersContext 0 [3, 4, 5]) (fewBuildersPool (fewBuildersContext 0 []))
      none (freshState fun _ => 0) = .done root s ∧ TellsTruth root s := by
  obtain ⟨root, s, hrun⟩ := returns_of_ledger (generate (fewBuildersContext 0 [3, 4, 5])
    (fewBuildersPool (fewBuildersContext 0 [])) none (freshState fun _ => 0)) (by decide +kernel)
  have hnothing : NothingTakenBack (traceOf (generate (fewBuildersContext 0 [3, 4, 5])
      (fewBuildersPool (fewBuildersContext 0 [])) none (freshState fun _ => 0))) := by
    unfold NothingTakenBack
    decide +kernel
  rw [hrun] at hnothing
  exact ⟨root, s, hrun, (tellsTruth_iff_nothingTakenBack hrun).mpr hnothing⟩

theorem not_always_tellsTruth :
    ¬∀ (context : EquivalenceContext) (pool : List EquivalenceBuilder)
      (exposedName : Option String) (objectCounters : String → Nat) (root : EqNode)
      (s : GenerationState),
      generate context pool exposedName (freshState objectCounters) = .done root s →
        TellsTruth root s := by
  intro h
  have hledger : ledger (generate joinGivesUp (fewBuildersPool joinGivesUp) none
      (freshState fun _ => 0)) = some (6, 3) := by decide +kernel
  exact absurd (ledger_balanced (h _ _ _ _) hledger) (by decide)

end Sample

end EqGen.Equivalence.Generator
