import EqGen.Equivalence.Generator
import EqGen.Equivalence.TypeBuilders

/-! Which tables let every generated tree respect the types of its columns. -/

namespace EqGen.Equivalence.TypeRuns

open EqGen.Builder.Budget
open EqGen.Builder.Context
open EqGen.Builder.Factory
open EqGen.Core.Types
open EqGen.Core.Catalog
open EqGen.Equivalence.Ast
open EqGen.Equivalence.Context
open EqGen.Equivalence.Factory
open EqGen.Equivalence.Generator
open EqGen.Equivalence.TypeBuilders
open EqGen.Equivalence.TypeUses
open EqGen.Equivalence.Builders.Base
open EqGen.Equivalence.Builders.Creates
open EqGen.Equivalence.Builders.Expansion
open EqGen.Equivalence.Builders.Selects
open EqGen.Lib.Backtrack
open EqGen.Lib.Backtrack.Attempt
open EqGen.Lib.Dag

section Pool

variable {context : EquivalenceContext}

/-- Every builder of the pool keeps to the types. -/
def CarefulPool (pool : List EquivalenceBuilder) : Prop :=
  ∀ builder ∈ pool, Careful builder.build

theorem careful_nil : CarefulPool [] :=
  fun _ h => nomatch h

theorem careful_createBuilders : CarefulPool (createBuilders context) := by
  show ∀ builder ∈ createBuilders context, Careful builder.build
  simp only [createBuilders, List.forall_mem_cons]
  exact ⟨careful_createFromQuery fun _ _ => yields_createAsSelect,
    careful_createFromQuery fun _ _ => yields_createAsSelect,
    careful_createFromQuery fun _ _ => yields_createAsSelect,
    careful_createFromQuery fun _ _ => yields_createAsSelect,
    careful_createFromQuery yields_wrapMaterializedView,
    careful_deleteReinsertTable, careful_noopUpdateTable, careful_nil⟩

theorem careful_selectBuilders (hallow : TypesAllow context.baseTable) :
    CarefulPool (selectBuilders context) := by
  show ∀ builder ∈ selectBuilders context, Careful builder.build
  simp only [selectBuilders, List.forall_mem_cons]
  exact ⟨careful_selectStarQuery, careful_explicitProjectionQuery, careful_readThroughCte _ _,
    careful_lateralReprojectQuery, careful_readThroughCte _ _, careful_readThroughCte _ _,
    careful_addDropColumnQuery, careful_projectionQuery, careful_qualifyQuery hallow,
    careful_orderedScanQuery hallow, careful_nil⟩

theorem careful_partitioningBuilders (hallow : TypesAllow context.baseTable) :
    CarefulPool (partitioningBuilders context) := by
  show ∀ builder ∈ partitioningBuilders context, Careful builder.build
  simp only [partitioningBuilders, List.forall_mem_cons]
  exact ⟨careful_partitionUnionQuery, careful_tlpPartitionUnionQuery,
    careful_rankModUnionQuery hallow, careful_unionEmptyRoundTrip, careful_exceptEmptyRoundTrip,
    careful_intersectSelfRoundTrip, careful_nil⟩

theorem careful_rewriteBuilders : CarefulPool (rewriteBuilders context) := by
  show ∀ builder ∈ rewriteBuilders context, Careful builder.build
  simp only [rewriteBuilders, List.forall_mem_cons]
  exact ⟨careful_columnRewriteQuery (yields_codecRewriter _),
    careful_columnRewriteQuery (yields_codecRewriter _),
    careful_columnRewriteQuery (yields_codecRewriter _),
    careful_columnRewriteQuery (yields_codecRewriter _),
    careful_columnRewriteQuery yields_eetCaseRewriter, careful_eetDeterminedFilterQuery,
    careful_columnRewriteQuery yields_windowRewriter, careful_nil⟩

theorem careful_joinBuilders (hallow : TypesAllow context.baseTable) :
    CarefulPool (joinBuilders context) := by
  show ∀ builder ∈ joinBuilders context, Careful builder.build
  simp only [joinBuilders, List.forall_mem_cons]
  exact ⟨careful_flagTableJoin hallow, careful_sequenceOuterJoin hallow, careful_leftJoinEmpty,
    careful_semiJoinFlagRoundTrip hallow, careful_crossJoinFilterAsInner hallow,
    careful_distinctAsGroupByQuery hallow, careful_distinctUnionDuplicateQuery hallow, careful_nil⟩

theorem careful_expansionBuilders (hallow : TypesAllow context.baseTable) :
    CarefulPool (expansionBuilders context) := by
  show ∀ builder ∈ expansionBuilders context, Careful builder.build
  simp only [expansionBuilders, List.forall_mem_cons]
  exact ⟨careful_keyDistinctReduce, careful_keyGroupAggregateReduce,
    careful_keyWindowAggregateReduce hallow, careful_keyQualifyDedupReduce,
    careful_keyExplodeExpansion hallow, careful_keyInsertExtrasExpansion,
    careful_tagPruneDeleteReduce, careful_tagPruneFilterReduce, careful_tagExplodeExpansion,
    careful_tagInsertExtrasExpansion, careful_nil⟩

theorem careful_portableBuilders (hallow : TypesAllow context.baseTable) :
    CarefulPool (portableBuilders context) := by
  intro builder hbuilder
  simp only [portableBuilders, List.mem_append, List.mem_singleton] at hbuilder
  rcases hbuilder with (((((h | h) | h) | h) | h) | h) | rfl
  · exact careful_createBuilders builder h
  · exact careful_selectBuilders hallow builder h
  · exact careful_partitioningBuilders hallow builder h
  · exact careful_rewriteBuilders builder h
  · exact careful_joinBuilders hallow builder h
  · exact careful_expansionBuilders hallow builder h
  · exact careful_baseTableSource

theorem yields_enterBuilder {name : String} {leaf : Bool} {body : Gen EqNode}
    (hbody : Yields RespectsTypes body) : Yields RespectsTypes (enterBuilder name leaf body) := by
  intro s
  have hspec := hbody (modifyBuild (BuildState.enter name leaf) s)
  unfold Spec at hspec ⊢
  unfold enterBuilder
  simp only
  cases hrun : body (modifyBuild (BuildState.enter name leaf) s) with
  | done node s' =>
      simp only [hrun] at hspec
      exact hspec
  | declined s' => trivial
  | raised error s' => trivial

/-- A dispatch over careful builders is one more careful answer. -/
theorem serves_subtreeWith {pool : List EquivalenceBuilder} (hpool : CarefulPool pool)
    {recurse : BuildSubtree} (hrecurse : Serves recurse) :
    Serves ((factoryOf context pool).subtreeWith recurse) := by
  intro requested constraints hconstraints
  have hdispatch : Yields RespectsTypes
      ((factoryOf context pool).dispatch recurse requested constraints) := by
    apply Yields.next
    intro counters
    apply Yields.bind (Yields.fromOption _)
    intro eligible heligible s
    rw [spec_bind]
    apply (spec_weightedShuffle (factoryOf context pool) eligible s).mono
    · rintro ordered s' ⟨hordered, _⟩
      apply Yields.firstOf
      intro attempt hattempt
      obtain ⟨builder, hbuilder, rfl⟩ := List.mem_map.mp hattempt
      have hmem := (mem_filterBuilders (factoryOf context pool) heligible (hordered hbuilder)).1
      apply yields_enterBuilder
      apply Yields.bind (hpool builder hmem recurse hrecurse constraints hconstraints)
      intro result hresult
      apply Yields.next
      intro _
      apply Yields.next
      intro _
      exact Yields.pure hresult
    · exact fun _ h => h
    · exact fun _ _ h => h
  apply Yields.next
  intro _
  apply Yields.bind hdispatch
  intro result hresult
  apply Yields.next
  intro _
  exact Yields.pure hresult

theorem serves_buildSubtree {pool : List EquivalenceBuilder} (hpool : CarefulPool pool)
    (fuel : Nat) : Serves ((factoryOf context pool).buildSubtree fuel) := by
  induction fuel with
  | zero => exact serves_subtreeWith hpool fun _ _ _ => Yields.raise _
  | succ fuel ih => exact serves_subtreeWith hpool ih

/-- Over a table that allows it, every generated tree respects the types. -/
theorem yields_generate (hallow : TypesAllow context.baseTable) (exposedName : Option String) :
    Yields RespectsTypes (generate context (portableBuilders context) exposedName) := by
  apply Yields.bind
    (Yields.optional (serves_buildSubtree (careful_portableBuilders hallow) _ _ _ rfl))
  intro root hroot
  cases root with
  | none => exact Yields.raise _
  | some root => exact Yields.pure (hroot root rfl)

end Pool

section Makes

variable {β γ : Type} {depth : Nat} {P : β → Prop} {Q : γ → Prop}

/-- Started at the depth the computation returns, at that depth, what has the property. -/
def Makes (depth : Nat) (P : β → Prop) (m : Gen β) : Prop :=
  ∀ s, s.depth = depth →
    m.Spec s (fun b s' => P b ∧ s'.depth = depth) (fun _ => False) fun _ _ => False

theorem Makes.bind {m : Gen β} {f : β → Gen γ} (hm : Makes depth P m)
    (hf : ∀ b, P b → Makes depth Q (f b)) : Makes depth Q (m >>= f) := by
  intro s hs
  rw [spec_bind]
  apply (hm s hs).mono
  · rintro b s' ⟨hb, hs'⟩
    exact hf b hb s' hs'
  · exact fun _ h => h
  · exact fun _ _ h => h

theorem Makes.mono {P' : β → Prop} {m : Gen β} (hm : Makes depth P m) (hP : ∀ b, P b → P' b) :
    Makes depth P' m :=
  fun s hs => (hm s hs).mono (fun b _ h => ⟨hP b h.1, h.2⟩) (fun _ h => h) fun _ _ h => h

theorem Makes.pure {b : β} (hb : P b) : Makes depth P (pure b : Gen β) :=
  fun _ hs => ⟨hb, hs⟩

theorem makes_require {p : Prop} [Decidable p] {e : GenerationError} (hp : p) :
    Makes depth (fun _ => True) (require p e : Gen Unit) := by
  intro s hs
  rw [spec_require]
  exact ⟨fun _ => ⟨trivial, hs⟩, fun h => h hp⟩

theorem makes_guard {p : Prop} [Decidable p] (hp : p) :
    Makes depth (fun _ => True) (guard p : Gen Unit) := by
  intro s hs
  rw [spec_guard]
  exact ⟨fun _ => ⟨trivial, hs⟩, fun h => h hp⟩

theorem makes_fromOption {b : β} : Makes depth (fun a => a = b) (fromOption (some b) : Gen β) :=
  fun _ hs => ⟨rfl, hs⟩

theorem makes_newNode (label : Label) (inputs : List EqNode) :
    Makes depth (fun node => ∃ i, node = .mk i label inputs) (newNode label inputs) :=
  fun s hs => ⟨⟨s.created, rfl⟩, hs⟩

theorem makes_generateObjectName (stem : String) :
    Makes depth (fun _ => True) (generateObjectName stem) :=
  fun _ hs => ⟨trivial, hs⟩

/-- An object over a query, under the name it was asked for or under one of its own. -/
theorem makes_createAsSelect {context : EquivalenceContext} (relationClass : RelationClass)
    (kind : ObjectKind) (keyword label : String) (query : EqNode) (exposedName : Option String) :
    Makes depth
      (fun node => ∃ i relation, node = .mk i (.relation relation) [query] ∧
        relation.relationClass = relationClass ∧ relation.signature = getSignature query ∧
        ∀ name ∈ exposedName, name ≠ "" → relation.exposed.name = name)
      (createAsSelect context relationClass kind keyword label query exposedName) := by
  have hname : Makes depth (fun chosen => ∀ name ∈ exposedName, name ≠ "" → chosen = name)
      (exposedOrMinted context label exposedName) := by
    intro s hs
    cases exposedName with
    | none => exact ⟨by simp, hs⟩
    | some name =>
        by_cases hempty : name = ""
        · simp only [exposedOrMinted, hempty]
          exact ⟨by simp, hs⟩
        · simp only [exposedOrMinted, hempty]
          exact ⟨by simp, hs⟩
  apply Makes.bind hname
  intro chosen hchosen s hs
  exact ⟨⟨s.created, _, rfl, rfl, rfl, hchosen⟩, hs⟩

theorem makes_enterBuilder {name : String} {leaf : Bool} {body : Gen EqNode} {P : EqNode → Prop}
    (hbody : Makes (depth + 1) P body) : Makes depth P (enterBuilder name leaf body) := by
  intro s hs
  have hspec := hbody (modifyBuild (BuildState.enter name leaf) s) (congrArg Nat.succ hs)
  unfold Spec at hspec ⊢
  unfold enterBuilder
  simp only
  cases hrun : body (modifyBuild (BuildState.enter name leaf) s) with
  | done node s' =>
      simp only [hrun] at hspec ⊢
      exact ⟨hspec.1, Nat.sub_eq_of_eq_add hspec.2⟩
  | declined s' =>
      simp only [hrun] at hspec
  | raised error s' =>
      simp only [hrun] at hspec

end Makes

section Single

/-- What the factory asks about a builder before it runs it. -/
structure Profile where
  name : String
  resultType : NodeClass
  required : List ConstraintType
  supported : List ConstraintType
  isLeaf : Bool
  deriving DecidableEq

def profile (builder : EquivalenceBuilder) : Profile :=
  ⟨builder.name, builder.resultType, builder.requiredConstraintTypes,
    builder.supportedConstraintTypes, builder.isLeaf⟩

/-- Whether a builder takes part in a dispatch that goes by some names. -/
def Profile.takesPart (names : List String) (requested : RequestType)
    (types : List ConstraintType) (leafOnly : Bool) (p : Profile) : Bool :=
  (types ⊆ p.supported && p.resultType.isSubclass requested && p.required ⊆ types &&
    (!leafOnly || p.isLeaf)) && p.name ∈ names

/-- A run that is limited in depth only. -/
def weightedContext (table : Table) (maxDepth : Nat) (weights rootWeights : Weights) :
    EquivalenceContext where
  config := ⟨maxDepth, 0, 0, weights, rootWeights, [⟨.first, 1⟩], [⟨.inner, 1⟩], [⟨.max, 1⟩],
    [⟨.none, 1⟩], [⟨2, 1⟩]⟩
  baseTable := table
  draws := fun _ => 0

def portableNames : List String :=
  (portableBuilders (weightedContext narrowTable 0 [] [])).map NodeBuilder.name

/-- Weights that leave the builders of the given names. -/
def weightsOf (names : List String) : Weights :=
  (portableNames.filter fun name => name ∉ names).map fun name => (name, 0)

/-- The root is built by builders of the one list, what is below it by those of the other. -/
def runContext (table : Table) (maxDepth : Nat) (rootNames names : List String) :
    EquivalenceContext :=
  weightedContext table maxDepth (weightsOf names) (weightsOf rootNames)

def runFactory (table : Table) (maxDepth : Nat) (rootNames names : List String) :
    EquivalenceBuilderFactory :=
  factoryOf (runContext table maxDepth rootNames names)
    (portableBuilders (runContext table maxDepth rootNames names))

variable {table : Table} {maxDepth : Nat} {rootNames names : List String} {depth fuel : Nat}
variable {requested : RequestType} {constraints : ConstraintSet} {builder : EquivalenceBuilder}

/-- What the factory asks about the builders does not depend on the run. -/
theorem map_profile_portableBuilders (context context' : EquivalenceContext) :
    (portableBuilders context).map profile = (portableBuilders context').map profile := by
  simp only [portableBuilders, createBuilders, selectBuilders, partitioningBuilders,
    rewriteBuilders, joinBuilders, expansionBuilders, List.map_append, List.map_cons, List.map_nil,
    profile, createBuilder, plainQueryBuilder, filteredQueryBuilder, partitionBuilder,
    rewriteBuilder, reduceBuilder, expansionBuilder, baseTableSourceBuilder]

theorem map_name_portableBuilders (context : EquivalenceContext) :
    (portableBuilders context).map NodeBuilder.name = portableNames := by
  have hprofiles := congrArg (List.map Profile.name)
    (map_profile_portableBuilders context (weightedContext narrowTable 0 [] []))
  rw [List.map_map, List.map_map] at hprofiles
  exact hprofiles

theorem name_mem_portableNames {context : EquivalenceContext}
    (h : builder ∈ portableBuilders context) : builder.name ∈ portableNames := by
  rw [← map_name_portableBuilders context]
  exact List.mem_map_of_mem h

theorem lookup_zeros (zeros : List String) (name : String) :
    List.lookup name (zeros.map fun zero => (zero, 0)) =
      if name ∈ zeros then some 0 else none := by
  induction zeros with
  | nil => rfl
  | cons zero rest ih =>
      rw [List.map_cons, List.lookup_cons, ih]
      by_cases hname : name = zero
      · simp [hname]
      · simp [hname, beq_false_of_ne hname]

theorem get_weightsOf_pos {name : String} (hname : name ∈ portableNames) :
    0 < (weightsOf names).get name ↔ name ∈ names := by
  rw [Weights.get, weightsOf, lookup_zeros]
  by_cases hmem : name ∈ names
  · simp [hmem]
  · simp [hmem, hname]

/-- The names that a dispatch at the depth goes by. -/
def namesAt (rootNames names : List String) (depth : Nat) : List String :=
  if depth = 0 then rootNames else names

theorem activeWeights_runFactory (hroot : "BaseTableSourceBuilder" ∉ rootNames) (depth : Nat) :
    (runFactory table maxDepth rootNames names).activeWeights depth =
      weightsOf (namesAt rootNames names depth) := by
  have hbase : "BaseTableSourceBuilder" ∈ portableNames := by
    apply @name_mem_portableNames (baseTableSourceBuilder (weightedContext narrowTable 0 [] []))
      (weightedContext narrowTable 0 [] [])
    unfold portableBuilders
    exact List.mem_append_right _ (List.mem_singleton_self _)
  have hsome : (weightsOf rootNames).isEmpty = false := by
    rw [weightsOf, List.isEmpty_map, List.isEmpty_eq_false_iff_exists_mem]
    exact ⟨_, List.mem_filter.mpr ⟨hbase, decide_eq_true hroot⟩⟩
  by_cases hdepth : depth = 0
  · simp [WeightedBuilderFactory.activeWeights, runFactory, factoryOf, runContext,
      weightedContext, hsome, hdepth, namesAt]
  · simp [WeightedBuilderFactory.activeWeights, runFactory, factoryOf, runContext,
      weightedContext, hdepth, namesAt]

theorem leafOnly_runFactory {counters : Counters} (hdepth : counters.depth = depth) :
    (runFactory table maxDepth rootNames names).leafOnly counters =
      decide (maxDepth - 1 ≤ depth) := by
  simp [WeightedBuilderFactory.leafOnly, runFactory, factoryOf, builderSettings, runContext,
    weightedContext, hdepth]

/-- One builder alone takes part in a dispatch. -/
def Alone (table : Table) (maxDepth : Nat) (rootNames names : List String) (depth : Nat)
    (requested : RequestType) (constraints : ConstraintSet) (builder : EquivalenceBuilder) : Prop :=
  (portableBuilders (runContext table maxDepth rootNames names)).filter
    (fun b => (profile b).takesPart (namesAt rootNames names depth) requested
      (constraintTypes constraints) (maxDepth - 1 ≤ depth)) = [builder]

/-- Which builders take part does not depend on the table. -/
theorem Alone.of_closed {types : List ConstraintType} {p : Profile}
    (hmem : builder ∈ portableBuilders (runContext table maxDepth rootNames names))
    (htypes : constraintTypes constraints = types)
    (hclosed : ((portableBuilders (weightedContext narrowTable 0 [] [])).map profile).filter
      (Profile.takesPart (namesAt rootNames names depth) requested types
        (maxDepth - 1 ≤ depth)) = [p])
    (hprofile : profile builder = p) :
    Alone table maxDepth rootNames names depth requested constraints builder := by
  rw [map_profile_portableBuilders _ (runContext table maxDepth rootNames names),
    List.filter_map] at hclosed
  obtain ⟨b, hb, hsame⟩ := List.map_eq_singleton_iff.mp hclosed
  unfold Alone
  rw [htypes]
  have hbuilder : builder ∈ [b] := by
    rw [← hb, List.mem_filter]
    have hb' : b ∈ [b] := List.mem_singleton_self b
    rw [← hb, List.mem_filter] at hb'
    refine ⟨hmem, ?_⟩
    simp only [Function.comp_apply] at hb' ⊢
    rw [hprofile, ← hsame]
    exact hb'.2
  rw [List.mem_singleton.mp hbuilder]
  exact hb

/-- The filter lets through builders of which the weights leave one. -/
theorem filterBuilders_runFactory {counters : Counters} (hdepth : depth < maxDepth)
    (halone : Alone table maxDepth rootNames names depth requested constraints builder)
    (hcounters : counters.depth = depth) :
    ∃ eligible, (runFactory table maxDepth rootNames names).filterBuilders requested constraints
        counters = some eligible ∧
      eligible.filter
        (fun b => decide (0 < (weightsOf (namesAt rootNames names depth)).get b.name)) =
          [builder] := by
  have hlt : ¬maxDepth ≤ counters.depth := by omega
  let supported := (portableBuilders (runContext table maxDepth rootNames names)).filter
    ((runFactory table maxDepth rootNames names).supports requested constraints
      (decide (maxDepth - 1 ≤ depth)))
  have hone : supported.filter
      (fun b => decide (0 < (weightsOf (namesAt rootNames names depth)).get b.name)) =
        [builder] := by
    rw [List.filter_filter, ← halone]
    apply List.filter_congr
    intro b hb
    rw [Bool.and_comm, decide_eq_decide.mpr (get_weightsOf_pos (name_mem_portableNames hb))]
    rfl
  have hsome : ¬supported.isEmpty = true := by
    intro hempty
    rw [List.isEmpty_iff.mp hempty] at hone
    exact absurd hone (by simp)
  refine ⟨supported, ?_, hone⟩
  unfold WeightedBuilderFactory.filterBuilders
  rw [leafOnly_runFactory hcounters]
  exact (if_neg hlt).trans (if_neg hsome)

theorem makes_weightedShuffle (hroot : "BaseTableSourceBuilder" ∉ rootNames)
    {eligible : List EquivalenceBuilder}
    (hone : eligible.filter (fun b =>
      decide (0 < (weightsOf (namesAt rootNames names depth)).get b.name)) = [builder]) :
    Makes depth (fun ordered => ordered = [builder])
      ((runFactory table maxDepth rootNames names).weightedShuffle depth eligible) := by
  intro s hs
  unfold WeightedBuilderFactory.weightedShuffle
  simp only [activeWeights_runFactory hroot, hone]
  exact ⟨rfl, hs⟩

/-- A dispatch in which one builder takes part returns what that builder makes. -/
theorem makes_buildSubtree {P : EqNode → Prop} (hroot : "BaseTableSourceBuilder" ∉ rootNames)
    (hdepth : depth < maxDepth)
    (halone : Alone table maxDepth rootNames names depth requested constraints builder)
    (hbuild : Makes (depth + 1) P (builder.build
      ((runFactory table maxDepth rootNames names).buildSubtree fuel) constraints))
    (hserves : builder.resultType.isSubclass requested = true)
    (hP : ∀ node, P node → nodeClass node = builder.resultType ∧
      meetsConstraints constraints node = true) :
    Makes depth P ((runFactory table maxDepth rootNames names).buildSubtree (fuel + 1)
      requested constraints) := by
  have hrun : Makes (depth + 1) P ((runFactory table maxDepth rootNames names).runBuilder
      ((runFactory table maxDepth rootNames names).buildSubtree fuel) constraints builder) := by
    apply Makes.bind hbuild
    intro node hnode
    apply Makes.bind (makes_require (decide_eq_true (hP node hnode).1))
    intro _ _
    apply Makes.bind (makes_require (hP node hnode).2)
    intro _ _
    exact Makes.pure hnode
  have hdispatch : Makes depth P ((runFactory table maxDepth rootNames names).dispatch
      ((runFactory table maxDepth rootNames names).buildSubtree fuel) requested
        constraints) := by
    have hcounters : Makes depth (fun counters => counters.depth = depth) readCounters :=
      fun s hs => ⟨hs, hs⟩
    apply Makes.bind hcounters
    intro counters hcounters
    obtain ⟨eligible, hfilter, hone⟩ := filterBuilders_runFactory hdepth halone hcounters
    rw [hfilter]
    apply Makes.bind makes_fromOption
    rintro _ rfl
    rw [hcounters]
    apply Makes.bind (makes_weightedShuffle hroot hone)
    rintro _ rfl
    intro s hs
    rw [List.map_singleton, spec_firstOf_cons]
    exact (makes_enterBuilder hrun s hs).mono (fun _ _ h => h) (fun _ h => h.elim)
      fun _ _ h => h
  have hdeadline : Makes depth (fun _ => True)
      (checkDeadline (runFactory table maxDepth rootNames names).late) :=
    fun s hs => ⟨trivial, hs⟩
  apply Makes.bind hdeadline
  intro _ _
  apply Makes.bind hdispatch
  intro node hnode
  have hclass : (runFactory table maxDepth rootNames names).vocabulary.serves node requested =
      true := by
    show (nodeClass node).isSubclass requested = true
    rw [(hP node hnode).1]
    exact hserves
  apply Makes.bind (makes_require hclass)
  intro _ _
  exact Makes.pure hnode

/-- The base table itself, where only leaves may run. -/
theorem makes_source (hroot : "BaseTableSourceBuilder" ∉ rootNames) (hdepth : depth < maxDepth)
    (hclosed : ((portableBuilders (weightedContext narrowTable 0 [] [])).map profile).filter
      (Profile.takesPart (namesAt rootNames names depth) .equivalentSource []
        (maxDepth - 1 ≤ depth)) =
          [⟨"BaseTableSourceBuilder", .baseTableSource, [], [.singleSource], true⟩]) :
    Makes depth (fun node => nodeClass node = .baseTableSource)
      ((runFactory table maxDepth rootNames names).buildSubtree (fuel + 1) .equivalentSource
        {}) := by
  have hmem : baseTableSourceBuilder (runContext table maxDepth rootNames names) ∈
      portableBuilders (runContext table maxDepth rootNames names) := by
    unfold portableBuilders
    exact List.mem_append_right _ (List.mem_singleton_self _)
  have halone : Alone table maxDepth rootNames names depth .equivalentSource {}
      (baseTableSourceBuilder (runContext table maxDepth rootNames names)) :=
    Alone.of_closed hmem rfl hclosed rfl
  have hbuild : Makes (depth + 1) (fun node => nodeClass node = .baseTableSource)
      (baseTableSource (runContext table maxDepth rootNames names)) := by
    intro s hs
    exact ⟨rfl, hs⟩
  exact makes_buildSubtree hroot hdepth halone hbuild rfl fun node hnode => ⟨hnode, rfl⟩

/-- What a run that makes trees of a kind returns. -/
theorem exists_generated {P : EqNode → Prop}
    (h : Makes 0 P ((runFactory table maxDepth rootNames names).buildSubtree maxDepth
      .equivalentRelation { exposedName := some "v" })) :
    ∃ root s, generate (runContext table maxDepth rootNames names)
      (portableBuilders (runContext table maxDepth rootNames names)) (some "v")
      (freshState fun _ => 0) = .done root s ∧ P root := by
  have hspec := h (freshState fun _ => 0) rfl
  unfold Spec at hspec
  cases hrun : (runFactory table maxDepth rootNames names).buildSubtree maxDepth
      .equivalentRelation { exposedName := some "v" } (freshState fun _ => 0) with
  | done root s =>
      rw [hrun] at hspec
      exact ⟨root, s, generate_done hrun, hspec.1⟩
  | declined s =>
      rw [hrun] at hspec
      exact hspec.elim
  | raised error s =>
      rw [hrun] at hspec
      exact hspec.elim

theorem mem_selectBuilders {context : EquivalenceContext} {i : Nat}
    (h : (selectBuilders context)[i]? = some builder) : builder ∈ portableBuilders context := by
  simp only [portableBuilders, List.mem_append]
  exact .inl (.inl (.inl (.inl (.inl (.inr (List.mem_of_getElem? h))))))

theorem mem_createBuilders {context : EquivalenceContext} {i : Nat}
    (h : (createBuilders context)[i]? = some builder) : builder ∈ portableBuilders context := by
  simp only [portableBuilders, List.mem_append]
  exact .inl (.inl (.inl (.inl (.inl (.inl (List.mem_of_getElem? h))))))

theorem mem_expansionBuilders {context : EquivalenceContext} {i : Nat}
    (h : (expansionBuilders context)[i]? = some builder) :
    builder ∈ portableBuilders context := by
  simp only [portableBuilders, List.mem_append]
  exact .inl (.inr (List.mem_of_getElem? h))

end Single

section Scan

variable {table : Table} {first : Column} {rest : List Column}

/-- The builders of a view of an ordered scan of the table. -/
def scanRoot : List String := ["CreateViewBuilder"]

def scanBelow : List String := ["OrderedScanQueryBuilder", "BaseTableSourceBuilder"]

/-- The scan orders by the first column, which cannot be ordered. -/
theorem makes_orderedScan (hcolumns : table.columns = first :: rest)
    (hfirst : orderable first.dataType = false) :
    Makes 1 (fun node => nodeClass node = .selectQuery ∧ ¬RespectsTypes node)
      ((runFactory table 3 scanRoot scanBelow).buildSubtree 2 .queryNode {}) := by
  have hmem : plainQueryBuilder "OrderedScanQueryBuilder" .selectQuery
      (fun buildSubtree => orderedScanQuery buildSubtree (runContext table 3 scanRoot scanBelow))
      (Disciplines.disciplined_selectOrdered _) ∈
        portableBuilders (runContext table 3 scanRoot scanBelow) :=
    mem_selectBuilders (i := 9) rfl
  have halone : Alone table 3 scanRoot scanBelow 1 .queryNode {} _ :=
    @Alone.of_closed _ _ _ _ _ _ _ _ _
      ⟨"OrderedScanQueryBuilder", .selectQuery, [], [], false⟩ hmem rfl (by decide) rfl
  have hitems : passthroughItems (runContext table 3 scanRoot scanBelow) =
      passthrough first.name first.dataType ::
        rest.map fun column => passthrough column.name column.dataType := by
    simp [passthroughItems, runContext, weightedContext, hcolumns]
  have hbuild : Makes 2 (fun node => nodeClass node = .selectQuery ∧ ¬RespectsTypes node)
      (orderedScanQuery ((runFactory table 3 scanRoot scanBelow).buildSubtree 1)
        (runContext table 3 scanRoot scanBelow)) := by
    unfold orderedScanQuery selectOrdered
    rw [hitems]
    apply Makes.bind (makes_source (by decide) (by decide) (by decide))
    intro source _
    apply (makes_newNode _ _).mono
    rintro node ⟨i, rfl⟩
    refine ⟨rfl, ?_⟩
    intro hrespects
    have hlabel := (respectsTypes_mk.mp hrespects).1
    simp [labelRespects, queryRespects, queryOver, selectRespects, mentionsAll, mentions, col,
      passthrough, hfirst] at hlabel
  exact makes_buildSubtree (by decide) (by decide) halone hbuild rfl
    fun node hnode => ⟨hnode.1, rfl⟩

/-- A table whose first column cannot be ordered has a tree that orders by it. -/
theorem disrespectful_scan (hcolumns : table.columns = first :: rest)
    (hfirst : orderable first.dataType = false) :
    ∃ root s, generate (runContext table 3 scanRoot scanBelow)
      (portableBuilders (runContext table 3 scanRoot scanBelow)) (some "v")
      (freshState fun _ => 0) = .done root s ∧ ¬RespectsTypes root := by
  have hmem : createBuilder "CreateViewBuilder" .createView readOnlySupported
      (createView (runContext table 3 scanRoot scanBelow))
      (fun _ _ => Disciplines.builds_createAsSelect) ∈
        portableBuilders (runContext table 3 scanRoot scanBelow) :=
    mem_createBuilders (i := 0) rfl
  have halone : Alone table 3 scanRoot scanBelow 0 .equivalentRelation
      { exposedName := some "v" } _ :=
    @Alone.of_closed _ _ _ _ _ _ _ _ _
      ⟨"CreateViewBuilder", .relation .createView, [], readOnlySupported, false⟩ hmem rfl
      (by decide) rfl
  have hbuild : Makes 1 (fun node => (nodeClass node = .relation .createView ∧
        meetsConstraints { exposedName := some "v" } node = true) ∧ ¬RespectsTypes node)
      (createFromQuery ((runFactory table 3 scanRoot scanBelow).buildSubtree 2)
        (createView (runContext table 3 scanRoot scanBelow)) { exposedName := some "v" }) := by
    apply Makes.bind (makes_orderedScan hcolumns hfirst)
    rintro query ⟨_, hquery⟩
    apply (makes_createAsSelect _ _ _ _ _ _).mono
    rintro node ⟨i, relation, rfl, hclass, _, hname⟩
    refine ⟨⟨congrArg NodeClass.relation hclass, ?_⟩, ?_⟩
    · simp [meetsConstraints, meetsColumnRewrite, meetsExposedName, hname]
    · intro hrespects
      exact hquery ((respectsTypes_mk.mp hrespects).2 query (List.mem_singleton_self _))
  have hroot := makes_buildSubtree (by decide) (by decide) halone hbuild rfl fun node h => h.1
  obtain ⟨root, s, hrun, hP⟩ := exists_generated hroot
  exact ⟨root, s, hrun, hP.2⟩

end Scan

section Window

variable {table : Table} {items : List ProjectionItem}

/-- The builders of a reduced explosion of a copy of the table. -/
def windowRoot : List String := ["KeyWindowAggregateReduceBuilder"]

def windowBelow : List String :=
  ["KeyExplodeExpansionBuilder", "CreateTableBuilder", "ProjectionQueryBuilder",
    "BaseTableSourceBuilder"]

theorem makes_projection :
    Makes 3 (fun node => nodeClass node = .selectQuery ∧
        (getSignature node).names = items.map ProjectionItem.name)
      ((runFactory table 5 windowRoot windowBelow).buildSubtree 2 .queryNode
        { columnRewrite := some items }) := by
  have halone : Alone table 5 windowRoot windowBelow 3 .queryNode
      { columnRewrite := some items } _ :=
    @Alone.of_closed _ _ _ _ _ _ _ _ [.columnRewrite]
      ⟨"ProjectionQueryBuilder", .selectQuery, [.columnRewrite],
        [.columnRewrite, .rowFilter, .singleSource], false⟩
      (mem_selectBuilders (i := 7) rfl) rfl (by decide) rfl
  have hbuild : Makes 4 (fun node => nodeClass node = .selectQuery ∧
        (getSignature node).names = items.map ProjectionItem.name)
      (projectionQuery ((runFactory table 5 windowRoot windowBelow).buildSubtree 1)
        { columnRewrite := some items }) := by
    apply Makes.bind (makes_source (by decide) (by decide) (by decide))
    intro source _
    apply (makes_newNode _ _).mono
    rintro node ⟨i, rfl⟩
    exact ⟨rfl, names_itemSignature items⟩
  apply makes_buildSubtree (by decide) (by decide) halone hbuild rfl
  rintro node ⟨hclass, hnames⟩
  exact ⟨hclass, by simp [meetsConstraints, meetsColumnRewrite, meetsExposedName, hnames]⟩

theorem makes_table :
    Makes 2 (fun node => nodeClass node = .relation .createTable ∧
        (getSignature node).names = items.map ProjectionItem.name)
      ((runFactory table 5 windowRoot windowBelow).buildSubtree 3 .equivalentRelation
        { columnRewrite := some items, acceptsDml := true }) := by
  have halone : Alone table 5 windowRoot windowBelow 2 .equivalentRelation
      { columnRewrite := some items, acceptsDml := true } _ :=
    @Alone.of_closed _ _ _ _ _ _ _ _ [.acceptsDml, .columnRewrite]
      ⟨"CreateTableBuilder", .relation .createTable, [], dmlSupported, false⟩
      (mem_createBuilders (i := 1) rfl) rfl (by decide) rfl
  have hbuild : Makes 3 (fun node => nodeClass node = .relation .createTable ∧
        (getSignature node).names = items.map ProjectionItem.name)
      (createFromQuery ((runFactory table 5 windowRoot windowBelow).buildSubtree 2)
        (createTable (runContext table 5 windowRoot windowBelow))
        { columnRewrite := some items, acceptsDml := true }) := by
    apply Makes.bind makes_projection
    rintro query ⟨_, hnames⟩
    apply (makes_createAsSelect _ _ _ _ _ _).mono
    rintro node ⟨i, relation, rfl, hclass, hsignature, _⟩
    refine ⟨congrArg NodeClass.relation hclass, ?_⟩
    rw [getSignature_relation, hsignature, hnames]
  apply makes_buildSubtree (by decide) (by decide) halone hbuild rfl
  rintro node ⟨hclass, hnames⟩
  have hexposed : meetsExposedName { columnRewrite := some items, acceptsDml := true } node =
      true := rfl
  exact ⟨hclass, by simp [meetsConstraints, meetsColumnRewrite, hnames, hexposed]⟩

theorem makes_explosion (hcolumns : table.columns ≠ []) (key : KeySpec) :
    Makes 1 (fun node => nodeClass node = .relation .createTable)
      ((runFactory table 5 windowRoot windowBelow).buildSubtree 4 .equivalentRelation
        { keyChannel := some key }) := by
  have halone : Alone table 5 windowRoot windowBelow 1 .equivalentRelation
      { keyChannel := some key } _ :=
    @Alone.of_closed _ _ _ _ _ _ _ _ [.keyChannel]
      ⟨"KeyExplodeExpansionBuilder", .relation .createTable, [.keyChannel],
        [.keyChannel, .acceptsDml], false⟩
      (mem_expansionBuilders (i := 4) rfl) rfl (by decide) rfl
  have hbuild : Makes 2 (fun node => nodeClass node = .relation .createTable)
      (keyExplodeExpansion ((runFactory table 5 windowRoot windowBelow).buildSubtree 3)
        (runContext table 5 windowRoot windowBelow) { keyChannel := some key }) := by
    have hcopies : Makes 2 (fun rowcount => rowcount = 2)
        (chooseOne (runContext table 5 windowRoot windowBelow)
          (runContext table 5 windowRoot windowBelow).config.bigTableRowcountWeights) :=
      fun s hs => ⟨rfl, hs⟩
    have hkeyed : Makes 2 (fun _ => True)
        (materializeRowKey ((runFactory table 5 windowRoot windowBelow).buildSubtree 3)
          (runContext table 5 windowRoot windowBelow) key.column) := by
      unfold materializeRowKey
      cases hitems : passthroughItems (runContext table 5 windowRoot windowBelow) with
      | nil => exact absurd (List.map_eq_nil_iff.mp hitems) hcolumns
      | cons first rest =>
          apply Makes.bind makes_table
          intro keyed _
          exact Makes.pure trivial
    apply Makes.bind makes_fromOption
    rintro channel rfl
    apply Makes.bind hkeyed
    intro keyed _
    apply Makes.bind hcopies
    rintro rowcount rfl
    have hunion : Makes 2 (fun _ => True) (unionAllQuery (List.replicate 2 keyed.relation)) := by
      apply Makes.bind (makes_require (by simp))
      intro _ _
      exact (makes_newNode _ _).mono fun _ _ => trivial
    apply Makes.bind hunion
    intro query _
    apply (makes_createAsSelect _ _ _ _ _ _).mono
    rintro node ⟨i, relation, rfl, hclass, _, _⟩
    exact congrArg NodeClass.relation hclass
  exact makes_buildSubtree (by decide) (by decide) halone hbuild rfl
    fun node hnode => ⟨hnode, rfl⟩

/-- What a collapsed view asks of the columns it is made of. -/
theorem makes_collapse {context : EquivalenceContext} {built : Expanded} {query : SelectQuery}
    (hquery : ∀ signature, selectRespects query signature = false) :
    Makes 1 (fun node => (nodeClass node = .relation .createView ∧
        meetsConstraints { exposedName := some "v" } node = true) ∧ ¬RespectsTypes node)
      (collapse context built query { exposedName := some "v" }) := by
  apply Makes.bind (makes_newNode _ _)
  rintro inner ⟨i, rfl⟩
  apply Makes.bind (makes_createAsSelect _ _ _ _ _ _)
  rintro collapsed ⟨j, relation, rfl, _⟩
  apply Makes.bind (makes_newNode _ _)
  rintro outer ⟨k, rfl⟩
  apply (makes_createAsSelect _ _ _ _ _ _).mono
  rintro node ⟨l, relation', rfl, hclass, _, hname⟩
  refine ⟨⟨congrArg NodeClass.relation hclass, ?_⟩, ?_⟩
  · simp [meetsConstraints, meetsColumnRewrite, meetsExposedName, hname]
  · intro hrespects
    have houter := (respectsTypes_mk.mp hrespects).2 _ (List.mem_singleton_self _)
    have hcollapsed := (respectsTypes_mk.mp houter).2 _ (List.mem_singleton_self _)
    have hinner := (respectsTypes_mk.mp hcollapsed).2 _ (List.mem_singleton_self _)
    have hlabel := (respectsTypes_mk.mp hinner).1
    exact absurd hlabel (Bool.not_eq_true _ ▸ hquery _)

/-- The maximum of a boolean column is asked for. -/
theorem selectRespects_windowed {keyCol : String} {item : ProjectionItem} (hitem : item ∈ items)
    (hboolean : item.dataType.isBooleanType = true) (signature : Signature) :
    selectRespects { projection := some (passthrough keyCol integerType ::
      items.map (windowedItem keyCol)), distinct := true } signature = false := by
  have hbad : respects (windowedItem keyCol item).expr = false := by
    simp [windowedItem, respects, windowArgument, mentionsOption, mentions, col, extremal,
      hboolean]
  have hitems : itemsRespect (items.map (windowedItem keyCol)) = false := by
    rw [itemsRespect, List.all_eq_false]
    exact ⟨_, List.mem_map_of_mem hitem, by simp [hbad]⟩
  simp [selectRespects, hitems]

/-- A table with a boolean column that has a maximum of every column has a tree that asks it. -/
theorem disrespectful_window {column : Column} (hcolumn : column ∈ table.columns)
    (hboolean : column.dataType.isBooleanType = true)
    (haggregatable : ∀ column ∈ table.columns,
      column.dataType.getProperties.aggregatable = true) :
    ∃ root s, generate (runContext table 5 windowRoot windowBelow)
      (portableBuilders (runContext table 5 windowRoot windowBelow)) (some "v")
      (freshState fun _ => 0) = .done root s ∧ ¬RespectsTypes root := by
  have hcolumns : table.columns ≠ [] := List.ne_nil_of_mem hcolumn
  have hitems : passthroughItems (runContext table 5 windowRoot windowBelow) =
      table.columns.map fun column => passthrough column.name column.dataType := rfl
  have hsome : passthroughItems (runContext table 5 windowRoot windowBelow) ≠ [] := by
    rw [hitems]
    exact fun h => hcolumns (List.map_eq_nil_iff.mp h)
  have hable : ∀ item ∈ passthroughItems (runContext table 5 windowRoot windowBelow),
      item.dataType.getProperties.aggregatable = true ∧
        item.dataType.getProperties.groupable = true := by
    intro item hitem
    obtain ⟨column, hcolumn, rfl⟩ := List.mem_map.mp hitem
    exact ⟨haggregatable column hcolumn, groupable_eq _⟩
  have halone : Alone table 5 windowRoot windowBelow 0 .equivalentRelation
      { exposedName := some "v" } _ :=
    @Alone.of_closed _ _ _ _ _ _ _ _ [.exposedName]
      ⟨"KeyWindowAggregateReduceBuilder", .relation .createView, [], [.exposedName], false⟩
      (mem_expansionBuilders (i := 2) rfl) rfl (by decide) rfl
  have hbuild : Makes 1 (fun node => (nodeClass node = .relation .createView ∧
        meetsConstraints { exposedName := some "v" } node = true) ∧ ¬RespectsTypes node)
      (keyWindowAggregateReduce ((runFactory table 5 windowRoot windowBelow).buildSubtree 4)
        (runContext table 5 windowRoot windowBelow) { exposedName := some "v" }) := by
    have hkeyed : Makes 1 (fun built => built.baseItems =
          passthroughItems (runContext table 5 windowRoot windowBelow))
        (buildKeyed ((runFactory table 5 windowRoot windowBelow).buildSubtree 4)
          (runContext table 5 windowRoot windowBelow)) := by
      apply Makes.bind (makes_guard hsome)
      intro _ _
      apply Makes.bind (makes_generateObjectName _)
      intro keyCol _
      apply Makes.bind (makes_explosion hcolumns _)
      intro child _
      exact Makes.pure rfl
    apply Makes.bind (makes_guard hsome)
    intro _ _
    apply Makes.bind (makes_guard hable)
    intro _ _
    apply Makes.bind hkeyed
    intro built hbuilt
    apply makes_collapse
    rw [hbuilt, hitems]
    exact selectRespects_windowed (List.mem_map_of_mem hcolumn) hboolean
  have hroot := makes_buildSubtree (by decide) (by decide) halone hbuild rfl fun node h => h.1
  obtain ⟨root, s, hrun, hP⟩ := exists_generated hroot
  exact ⟨root, s, hrun, hP.2⟩

end Window

section Tables

variable {table : Table}

/--
All the trees generated for a table respect the types of its columns exactly when its first
column can be ordered and it does not have a boolean column among columns that all have a
maximum.
-/
theorem respectsTypes_iff_typesAllow :
    (∀ (context : EquivalenceContext), context.baseTable = table →
      ∀ (exposedName : Option String) (objectCounters : String → Nat) (root : EqNode)
        (s : GenerationState),
      generate context (portableBuilders context) exposedName (freshState objectCounters) =
        .done root s → RespectsTypes root) ↔ TypesAllow table := by
  constructor
  · intro h
    constructor
    · intro first hfirst
      obtain ⟨rest, hcolumns⟩ := List.head?_eq_some_iff.mp hfirst
      by_contra hbad
      obtain ⟨root, s, hrun, hroot⟩ :=
        disrespectful_scan hcolumns (Bool.eq_false_iff.mpr hbad)
      exact hroot (h _ rfl _ _ root s hrun)
    · intro haggregatable column hcolumn
      by_contra hbad
      obtain ⟨root, s, hrun, hroot⟩ :=
        disrespectful_window hcolumn (Bool.not_eq_false _ ▸ hbad) haggregatable
      exact hroot (h _ rfl _ _ root s hrun)
  · rintro hallow context rfl exposedName objectCounters root s hrun
    have hyields := yields_generate hallow exposedName (freshState objectCounters)
    unfold Spec at hyields
    rw [hrun] at hyields
    exact hyields

/-- A table whose first column holds documents. -/
def documentTable : Table where
  name := "t"
  columns := [{ name := "c_json", dataType := ⟨.jsonb, none, none⟩ },
    { name := "c_pk", dataType := ⟨.integer, none, none⟩, name_nonempty := c_pk_ne_empty }]
  name_nonempty := t_ne_empty

theorem not_always_respectsTypes :
    ¬∀ (context : EquivalenceContext) (exposedName : Option String)
      (objectCounters : String → Nat) (root : EqNode) (s : GenerationState),
      generate context (portableBuilders context) exposedName (freshState objectCounters) =
        .done root s → RespectsTypes root := by
  intro h
  obtain ⟨root, s, hrun, hroot⟩ := @disrespectful_scan documentTable _ _ rfl (by decide)
  exact hroot (h _ _ _ root s hrun)

end Tables

end EqGen.Equivalence.TypeRuns
