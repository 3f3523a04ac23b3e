import EqGen.Equivalence.Disciplines

/-! The portable builders and their factory (`equivalence/factory.py`). -/

namespace EqGen.Equivalence.Factory

open EqGen.Builder.Discipline
open EqGen.Builder.Factory
open EqGen.Core.Catalog
open EqGen.Equivalence.Ast
open EqGen.Equivalence.Context
open EqGen.Equivalence.Disciplines
open EqGen.Equivalence.Builders.Base
open EqGen.Equivalence.Builders.Creates
open EqGen.Equivalence.Builders.DmlTables
open EqGen.Equivalence.Builders.Expansion
open EqGen.Equivalence.Builders.Joins
open EqGen.Equivalence.Builders.Partitioning
open EqGen.Equivalence.Builders.Rewrites
open EqGen.Equivalence.Builders.Selects
open EqGen.Lib.Dag

/-- The classes of the nodes. -/
inductive NodeClass where
  | baseTableSource
  | selectQuery | unionAllQuery | exceptAllQuery | intersectAllQuery
  | joinQuery | cteQuery | lateralReprojectQuery
  | relation (relationClass : RelationClass)
  deriving DecidableEq

def queryClass : QueryShape → NodeClass
  | .select _ => .selectQuery
  | .unionAll => .unionAllQuery
  | .exceptAll => .exceptAllQuery
  | .intersectAll => .intersectAllQuery
  | .join _ => .joinQuery
  | .cte _ _ _ => .cteQuery
  | .lateralReproject _ _ => .lateralReprojectQuery

def nodeClass (node : EqNode) : NodeClass :=
  match node.label with
  | .baseTableSource _ => .baseTableSource
  | .query query => queryClass query.shape
  | .relation relation => .relation relation.relationClass

/-- `issubclass`, for the classes that builders ask for. -/
def NodeClass.isSubclass : NodeClass → RequestType → Bool
  | .baseTableSource, requested => requested = .equivalentSource
  | .relation _, requested => requested = .equivalentSource || requested = .equivalentRelation
  | _, requested => requested = .queryNode

/-- The types of the constraints. -/
inductive ConstraintType where
  | rowFilter | acceptsDml | singleSource | columnRewrite | tagChannel | keyChannel | exposedName
  deriving DecidableEq

/-- `get_constraint_types` -/
def constraintTypes (constraints : ConstraintSet) : List ConstraintType :=
  (if constraints.rowFilter.isSome then [.rowFilter] else []) ++
    (if constraints.acceptsDml then [.acceptsDml] else []) ++
    (if constraints.singleSource then [.singleSource] else []) ++
    (if constraints.columnRewrite.isSome then [.columnRewrite] else []) ++
    (if constraints.tagChannel.isSome then [.tagChannel] else []) ++
    (if constraints.keyChannel.isSome then [.keyChannel] else []) ++
    (if constraints.exposedName.isSome then [.exposedName] else [])

/-- `ColumnRewriteConstraint.meets_constraint` -/
def meetsColumnRewrite (constraints : ConstraintSet) (node : EqNode) : Bool :=
  match constraints.columnRewrite with
  | none => true
  | some items => (getSignature node).names = items.map ProjectionItem.name

/-- `ExposedNameConstraint.meets_constraint` -/
def meetsExposedName (constraints : ConstraintSet) (node : EqNode) : Bool :=
  match constraints.exposedName, node.label with
  | some name, .relation relation => relation.exposed.name = name
  | _, _ => true

/-- `meets_constraint` of the constraints of a set; the others accept every node. -/
def meetsConstraints (constraints : ConstraintSet) (node : EqNode) : Bool :=
  meetsColumnRewrite constraints node && meetsExposedName constraints node

def vocabulary : Vocabulary Label NodeClass RequestType ConstraintType ConstraintSet where
  issubclass := NodeClass.isSubclass
  isinstance node resultType := nodeClass node = resultType
  serves node requested := (nodeClass node).isSubclass requested
  constraintTypes := constraintTypes
  meetsConstraints := meetsConstraints

abbrev EquivalenceBuilder :=
  NodeBuilder GenerationState Label NodeClass RequestType ConstraintType ConstraintSet

abbrev EquivalenceBuilderFactory :=
  WeightedBuilderFactory GenerationState Label NodeClass RequestType ConstraintType ConstraintSet

/-- `_READ_ONLY_SUPPORTED` -/
def readOnlySupported : List ConstraintType := [.rowFilter, .columnRewrite, .exposedName]

/-- `_DML_SUPPORTED` -/
def dmlSupported : List ConstraintType := [.rowFilter, .columnRewrite, .acceptsDml, .exposedName]

section Builders

variable (context : EquivalenceContext)

/-- A builder that wraps a query in an object. -/
def createBuilder (name : String) (relationClass : RelationClass) (supported : List ConstraintType)
    (wrap : EqNode → Option String → Gen EqNode)
    (hwrap : ∀ {allowed depth} query exposedName,
      Builds allowed depth [query] (wrap query exposedName) fun node => [node]) :
    EquivalenceBuilder where
  name := name
  resultType := .relation relationClass
  supportedConstraintTypes := supported
  build buildSubtree := createFromQuery buildSubtree wrap
  disciplined := disciplined_createFromQuery fun _ _ => hwrap

def createBuilders : List EquivalenceBuilder :=
  [createBuilder "CreateViewBuilder" .createView readOnlySupported (createView context)
      fun _ _ => builds_createAsSelect,
    createBuilder "CreateTableBuilder" .createTable dmlSupported (createTable context)
      fun _ _ => builds_createAsSelect,
    createBuilder "CreateTemporaryViewBuilder" .createTemporaryView readOnlySupported
      (createTemporaryView context) fun _ _ => builds_createAsSelect,
    createBuilder "CreateTemporaryTableBuilder" .createTemporaryTable dmlSupported
      (createTemporaryTable context) fun _ _ => builds_createAsSelect,
    createBuilder "CreateMaterializedViewBuilder" .createMaterializedView readOnlySupported
      (wrapMaterializedView context) builds_wrapMaterializedView,
    { name := "DeleteReinsertTableBuilder"
      resultType := .relation .deleteReinsertTable
      supportedConstraintTypes := [.acceptsDml, .exposedName]
      build buildSubtree := deleteReinsertTable buildSubtree context
      disciplined := disciplined_deleteReinsertTable },
    { name := "NoopUpdateTableBuilder"
      resultType := .relation .noopUpdateTable
      supportedConstraintTypes := [.acceptsDml, .exposedName]
      build buildSubtree := noopUpdateTable buildSubtree context
      disciplined := disciplined_noopUpdateTable }]

/-- A query builder that ignores its constraints and lists none. -/
def plainQueryBuilder (name : String) (resultType : NodeClass) (build : BuildSubtree → Gen EqNode)
    (hbuild : Disciplined fun buildSubtree (_ : ConstraintSet) => build buildSubtree) :
    EquivalenceBuilder where
  name := name
  resultType := resultType
  supportedConstraintTypes := []
  build buildSubtree _ := build buildSubtree
  disciplined := hbuild

/-- A query builder that puts a requested filter in its query and may read one source only. -/
def filteredQueryBuilder (name : String) (resultType : NodeClass)
    (build : BuildSubtree → ConstraintSet → Gen EqNode) (hbuild : Disciplined build) :
    EquivalenceBuilder where
  name := name
  resultType := resultType
  supportedConstraintTypes := [.rowFilter, .singleSource]
  build := build
  disciplined := hbuild

def selectBuilders : List EquivalenceBuilder :=
  [filteredQueryBuilder "SelectStarQueryBuilder" .selectQuery selectStarQuery
      disciplined_selectStarQuery,
    filteredQueryBuilder "ExplicitProjectionQueryBuilder" .selectQuery
      (fun buildSubtree => explicitProjectionQuery buildSubtree context)
      disciplined_explicitProjectionQuery,
    filteredQueryBuilder "CteQueryBuilder" .cteQuery
      (fun buildSubtree => cteQuery buildSubtree context) (disciplined_readThroughCte _ _),
    plainQueryBuilder "LateralReprojectQueryBuilder" .lateralReprojectQuery lateralReprojectQuery
      disciplined_lateralReprojectQuery,
    filteredQueryBuilder "MaterializedCteQueryBuilder" .cteQuery
      (fun buildSubtree => materializedCteQuery buildSubtree context)
      (disciplined_readThroughCte _ _),
    filteredQueryBuilder "NotMaterializedCteQueryBuilder" .cteQuery
      (fun buildSubtree => notMaterializedCteQuery buildSubtree context)
      (disciplined_readThroughCte _ _),
    plainQueryBuilder "AddDropColumnQueryBuilder" .selectQuery
      (fun buildSubtree => addDropColumnQuery buildSubtree context)
      disciplined_addDropColumnQuery,
    { name := "ProjectionQueryBuilder"
      resultType := .selectQuery
      requiredConstraintTypes := [.columnRewrite]
      supportedConstraintTypes := [.columnRewrite, .rowFilter, .singleSource]
      build := projectionQuery
      disciplined := disciplined_projectionQuery },
    plainQueryBuilder "QualifyQueryBuilder" .selectQuery
      (fun buildSubtree => qualifyQuery buildSubtree context) (disciplined_selectOrdered _),
    plainQueryBuilder "OrderedScanQueryBuilder" .selectQuery
      (fun buildSubtree => orderedScanQuery buildSubtree context) (disciplined_selectOrdered _)]

/-- A builder that splits the rows it was asked for. -/
def partitionBuilder (name : String) (build : BuildSubtree → ConstraintSet → Gen EqNode)
    (hbuild : Disciplined build) : EquivalenceBuilder where
  name := name
  resultType := .unionAllQuery
  supportedConstraintTypes := [.rowFilter]
  build := build
  disciplined := hbuild

def partitioningBuilders : List EquivalenceBuilder :=
  [partitionBuilder "PartitionUnionQueryBuilder"
      (fun buildSubtree => partitionUnionQuery buildSubtree context)
      disciplined_partitionUnionQuery,
    partitionBuilder "TlpPartitionUnionQueryBuilder"
      (fun buildSubtree => tlpPartitionUnionQuery buildSubtree context)
      disciplined_tlpPartitionUnionQuery,
    plainQueryBuilder "RankModUnionQueryBuilder" .unionAllQuery
      (fun buildSubtree => rankModUnionQuery buildSubtree context) disciplined_rankModUnionQuery,
    plainQueryBuilder "UnionEmptyRoundTripBuilder" .unionAllQuery unionEmptyRoundTrip
      disciplined_unionEmptyRoundTrip,
    plainQueryBuilder "ExceptEmptyRoundTripBuilder" .exceptAllQuery exceptEmptyRoundTrip
      disciplined_exceptEmptyRoundTrip,
    plainQueryBuilder "IntersectSelfRoundTripBuilder" .intersectAllQuery intersectSelfRoundTrip
      disciplined_intersectSelfRoundTrip]

/-- A builder of `ColumnRewriteQueryBuilder`'s kind. -/
def rewriteBuilder (name : String) (columnRewriter : Gen ColumnRewriter)
    (hrewriter : Silent SilentRewriter columnRewriter) : EquivalenceBuilder :=
  plainQueryBuilder name .selectQuery
    (fun buildSubtree => columnRewriteQuery buildSubtree context columnRewriter)
    (disciplined_columnRewriteQuery hrewriter)

def rewriteBuilders : List EquivalenceBuilder :=
  [rewriteBuilder context "HexCodecRoundTripBuilder"
      (codecRewriter (pure (uniformPlan context .hex))) (silent_codecRewriter (.pure trivial)),
    rewriteBuilder context "Base64CodecRoundTripBuilder"
      (codecRewriter (pure (uniformPlan context .base64))) (silent_codecRewriter (.pure trivial)),
    rewriteBuilder context "JsonPackCodecRoundTripBuilder"
      (codecRewriter (pure (uniformPlan context .jsonPack)))
      (silent_codecRewriter (.pure trivial)),
    rewriteBuilder context "MixedCodecRoundTripBuilder"
      (codecRewriter (perColumnPlan context [.hex, .jsonPack] context.baseTable.columns))
      (silent_codecRewriter (silent_perColumnPlan _ _)),
    rewriteBuilder context "EetCaseColumnQueryBuilder" (eetCaseRewriter context)
      silent_eetCaseRewriter,
    filteredQueryBuilder "EetDeterminedFilterQueryBuilder" .selectQuery
      (fun buildSubtree => eetDeterminedFilterQuery buildSubtree context)
      disciplined_eetDeterminedFilterQuery,
    rewriteBuilder context "WindowRewriteQueryBuilder" (windowRewriter context)
      silent_windowRewriter]

def joinBuilders : List EquivalenceBuilder :=
  [plainQueryBuilder "FlagTableJoinQueryBuilder" .joinQuery
      (fun buildSubtree => flagTableJoin buildSubtree context) disciplined_flagTableJoin,
    plainQueryBuilder "SequenceOuterJoinQueryBuilder" .joinQuery
      (fun buildSubtree => sequenceOuterJoin buildSubtree context) disciplined_sequenceOuterJoin,
    plainQueryBuilder "LeftJoinEmptyQueryBuilder" .joinQuery
      (fun buildSubtree => leftJoinEmpty buildSubtree context) disciplined_leftJoinEmpty,
    plainQueryBuilder "SemiJoinFlagRoundTripBuilder" .joinQuery
      (fun buildSubtree => semiJoinFlagRoundTrip buildSubtree context)
      disciplined_semiJoinFlagRoundTrip,
    plainQueryBuilder "CrossJoinFilterAsInnerBuilder" .joinQuery
      (fun buildSubtree => crossJoinFilterAsInner buildSubtree context)
      disciplined_crossJoinFilterAsInner,
    plainQueryBuilder "DistinctAsGroupByQueryBuilder" .selectQuery
      (fun buildSubtree => distinctAsGroupByQuery buildSubtree context)
      disciplined_distinctAsGroupByQuery,
    plainQueryBuilder "DistinctUnionDuplicateQueryBuilder" .selectQuery
      (fun buildSubtree => distinctUnionDuplicateQuery buildSubtree context)
      disciplined_distinctUnionDuplicateQuery]

/-- A reducer, which may stand at the root. -/
def reduceBuilder (name : String) (relationClass : RelationClass)
    (build : BuildSubtree → ConstraintSet → Gen EqNode) (hbuild : Disciplined build) :
    EquivalenceBuilder where
  name := name
  resultType := .relation relationClass
  supportedConstraintTypes := [.exposedName]
  build := build
  disciplined := hbuild

/-- An expander requires its channel. -/
def expansionBuilder (name : String) (relationClass : RelationClass) (channel : ConstraintType)
    (build : BuildSubtree → ConstraintSet → Gen EqNode) (hbuild : Disciplined build) :
    EquivalenceBuilder where
  name := name
  resultType := .relation relationClass
  requiredConstraintTypes := [channel]
  supportedConstraintTypes := [channel, .acceptsDml]
  build := build
  disciplined := hbuild

def expansionBuilders : List EquivalenceBuilder :=
  [reduceBuilder "KeyDistinctReduceBuilder" .createView
      (fun buildSubtree => keyDistinctReduce buildSubtree context) disciplined_keyDistinctReduce,
    reduceBuilder "KeyGroupAggregateReduceBuilder" .createView
      (fun buildSubtree => keyGroupAggregateReduce buildSubtree context)
      disciplined_keyGroupAggregateReduce,
    reduceBuilder "KeyWindowAggregateReduceBuilder" .createView
      (fun buildSubtree => keyWindowAggregateReduce buildSubtree context)
      disciplined_keyWindowAggregateReduce,
    reduceBuilder "KeyQualifyDedupReduceBuilder" .createView
      (fun buildSubtree => keyQualifyDedupReduce buildSubtree context)
      disciplined_keyQualifyDedupReduce,
    expansionBuilder "KeyExplodeExpansionBuilder" .createTable .keyChannel
      (fun buildSubtree => keyExplodeExpansion buildSubtree context)
      disciplined_keyExplodeExpansion,
    expansionBuilder "KeyInsertExtrasExpansionBuilder" .insertExtrasExpansion .keyChannel
      keyInsertExtrasExpansion disciplined_keyInsertExtrasExpansion,
    reduceBuilder "TagPruneDeleteReduceBuilder" .tagPruneDeleteTable
      (fun buildSubtree => tagPruneDeleteReduce buildSubtree context)
      disciplined_tagPruneDeleteReduce,
    reduceBuilder "TagPruneFilterReduceBuilder" .createView
      (fun buildSubtree => tagPruneFilterReduce buildSubtree context)
      disciplined_tagPruneFilterReduce,
    expansionBuilder "TagExplodeExpansionBuilder" .createTable .tagChannel
      (fun buildSubtree => tagExplodeExpansion buildSubtree context)
      disciplined_tagExplodeExpansion,
    expansionBuilder "TagInsertExtrasExpansionBuilder" .insertExtrasExpansion .tagChannel
      (fun buildSubtree => tagInsertExtrasExpansion buildSubtree context)
      disciplined_tagInsertExtrasExpansion]

/-- `BaseTableSourceBuilder`, the leaf. -/
def baseTableSourceBuilder : EquivalenceBuilder where
  name := "BaseTableSourceBuilder"
  resultType := .baseTableSource
  supportedConstraintTypes := [.singleSource]
  isLeaf := true
  build _ _ := baseTableSource context
  disciplined := disciplined_baseTableSource

/-- `PORTABLE_BUILDERS` -/
def portableBuilders : List EquivalenceBuilder :=
  createBuilders context ++ selectBuilders context ++ partitioningBuilders context ++
    rewriteBuilders context ++ joinBuilders context ++ expansionBuilders context ++
    [baseTableSourceBuilder context]

/-- The limits a factory takes from the configuration. -/
def builderSettings : BuilderSettings :=
  ⟨context.config.maxDepth, context.config.maxNodes, context.config.maxAttempts⟩

/-- `EquivalenceBuilderFactory.__init__` over a pool of builders. -/
def factoryOf (pool : List EquivalenceBuilder) : EquivalenceBuilderFactory where
  vocabulary := vocabulary
  builders := pool
  settings := builderSettings context
  weights := context.config.builderWeights
  rootWeights := context.config.rootBuilderWeights
  draws := context.draws
  late := context.late

end Builders

end EqGen.Equivalence.Factory
