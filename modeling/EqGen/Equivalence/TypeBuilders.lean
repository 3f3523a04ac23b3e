import EqGen.Equivalence.Disciplines
import EqGen.Equivalence.TypeUses

/-! The portable builders ask of a column what its type can do, with two exceptions. -/

namespace EqGen.Equivalence.TypeBuilders

open EqGen.Builder.Context
open EqGen.Builder.Discipline
open EqGen.Core.Types
open EqGen.Core.Catalog
open EqGen.Ir.Expr hiding ExpressionNode
open EqGen.Equivalence.Ast
open EqGen.Equivalence.Context
open EqGen.Equivalence.Disciplines
open EqGen.Equivalence.TypeUses
open EqGen.Equivalence.Builders.Base
open EqGen.Equivalence.Builders.Creates
open EqGen.Equivalence.Builders.DmlTables
open EqGen.Equivalence.Builders.Expansion
open EqGen.Equivalence.Builders.Joins
open EqGen.Equivalence.Builders.Partitioning
open EqGen.Equivalence.Builders.Rewrites
open EqGen.Equivalence.Builders.Selects
open EqGen.Lib.Backtrack
open EqGen.Lib.Backtrack.Attempt
open EqGen.Lib.Dag

/--
What the two exceptions need: the first column is one to order by, and when every column has a
maximum no column is a boolean.
-/
structure TypesAllow (table : Table) : Prop where
  ordered : ∀ column ∈ table.columns.head?, orderable column.dataType = true
  extremes : (∀ column ∈ table.columns, column.dataType.getProperties.aggregatable = true) →
    ∀ column ∈ table.columns, column.dataType.isBooleanType = false

/-- Requests that respect the types are answered with trees that do. -/
def Serves (buildSubtree : BuildSubtree) : Prop :=
  ∀ requested constraints, constraintsRespect constraints = true →
    Yields RespectsTypes (buildSubtree requested constraints)

/-- The body of a builder whose trees respect the types if those it asks for do. -/
def Careful (build : BuildSubtree → ConstraintSet → Gen EqNode) : Prop :=
  ∀ buildSubtree, Serves buildSubtree → ∀ constraints, constraintsRespect constraints = true →
    Yields RespectsTypes (build buildSubtree constraints)

section Nodes

variable {context : EquivalenceContext}

theorem yields_newNode {label : Label} {inputs : List EqNode}
    (hlabel : labelRespects label = true) (hinputs : ∀ input ∈ inputs, RespectsTypes input) :
    Yields RespectsTypes (newNode label inputs) :=
  fun _ => respectsTypes_mk.mpr ⟨hlabel, hinputs⟩

theorem yields_selectQuery {source : EqNode} {query : SelectQuery}
    (hsource : RespectsTypes source)
    (hquery : ∀ signature, selectRespects query signature = true) :
    Yields RespectsTypes (selectQuery source query) := by
  apply yields_newNode
  · exact hquery _
  · simpa using hsource

theorem yields_unionAllQuery {branches : List EqNode}
    (hbranches : ∀ branch ∈ branches, RespectsTypes branch) :
    Yields RespectsTypes (unionAllQuery branches) := by
  apply Yields.next
  intro _
  exact yields_newNode rfl hbranches

theorem yields_createAsSelect {relationClass : RelationClass} {kind : ObjectKind}
    {keyword label : String} {query : EqNode} {exposedName : Option String}
    (hquery : RespectsTypes query) :
    Yields RespectsTypes
      (createAsSelect context relationClass kind keyword label query exposedName) := by
  apply Yields.next
  intro name
  apply yields_newNode
  · simp [labelRespects, stepRespects, queryRespects_queryOf hquery]
  · simpa using hquery

/-- An object over a query over a tree. -/
theorem yields_over {β : Type} {P : β → Prop} {make : EqNode → Gen β} {source : EqNode}
    {query : SelectQuery} (hsource : RespectsTypes source)
    (hquery : ∀ signature, selectRespects query signature = true)
    (hmake : ∀ query, RespectsTypes query → Yields P (make query)) :
    Yields P (selectQuery source query >>= make) :=
  (yields_selectQuery hsource hquery).bind hmake

theorem yields_joinQuery {left right : EqNode} {condition predicate : Option ExpressionNode}
    {joinType : JoinType} {projection : List ProjectionItem} (hleft : RespectsTypes left)
    (hright : RespectsTypes right) (hcondition : respectsOption condition = true)
    (hprojection : itemsRespect projection = true) (hpredicate : respectsOption predicate = true) :
    Yields RespectsTypes (joinQuery left right condition joinType projection predicate) := by
  apply yields_newNode
  · simp [labelRespects, queryRespects, queryOver, hcondition, hprojection, hpredicate]
  · simpa using ⟨hleft, hright⟩

end Nodes

section Requests

variable {context : EquivalenceContext} {buildSubtree : BuildSubtree}

/-- A plain request. -/
theorem Serves.plain (h : Serves buildSubtree) (requested : RequestType) :
    Yields RespectsTypes (buildSubtree requested {}) :=
  h _ _ rfl

theorem Serves.source (h : Serves buildSubtree) (constraints : ConstraintSet) :
    Yields RespectsTypes (dispatchSource buildSubtree constraints) :=
  h _ _ rfl

theorem itemsRespect_keyedItems {keyName : String} {items : List ProjectionItem}
    {first : ProjectionItem} (hitems : itemsRespect items = true)
    (hfirst : orderable first.dataType = true) :
    itemsRespect (keyedItems keyName items first) = true := by
  simp [keyedItems, rowNumber, respects, hitems, windowArgument, respectsAll, respectsOption,
    mentionsAll, col, mentions, hfirst]

/-- The first item is of the type of the first column. -/
theorem TypesAllow.orderable_first (hallow : TypesAllow context.baseTable)
    {first : ProjectionItem} {rest : List ProjectionItem}
    (hitems : passthroughItems context = first :: rest) :
    TypeUses.orderable first.dataType = true := by
  unfold passthroughItems at hitems
  obtain ⟨column, columns, hcolumns, rfl, _⟩ := List.map_eq_cons_iff.mp hitems
  exact hallow.ordered column (by simp [hcolumns])

theorem yields_materializeRowKey (h : Serves buildSubtree)
    (hallow : TypesAllow context.baseTable) (keyName : String) :
    Yields (fun keyed => RespectsTypes keyed.relation ∧ itemsRespect keyed.baseItems = true)
      (materializeRowKey buildSubtree context keyName) := by
  have hbase := itemsRespect_passthroughItems context
  unfold materializeRowKey
  cases hitems : passthroughItems context with
  | nil => exact Yields.decline
  | cons first rest =>
      rw [hitems] at hbase
      have hkeyed : itemsRespect (keyedItems keyName (first :: rest) first) = true :=
        itemsRespect_keyedItems hbase (hallow.orderable_first hitems)
      apply Yields.bind (h _ _ (by simpa [constraintsRespect, respectsOption] using hkeyed))
      intro keyed hrelation
      exact Yields.pure ⟨hrelation, hbase⟩

theorem yields_bothSides (h : Serves buildSubtree) {right : ConstraintSet}
    (hright : constraintsRespect right = true) :
    Yields (fun sides => RespectsTypes sides.1 ∧ RespectsTypes sides.2)
      (bothSides buildSubtree right) := by
  apply Yields.bind (Yields.optional (h.plain _))
  intro left hleft
  apply Yields.bind (Yields.optional (h _ _ hright))
  intro right hright
  cases left with
  | none => exact Yields.decline
  | some left =>
      cases right with
      | none => exact Yields.decline
      | some right => exact Yields.pure ⟨hleft left rfl, hright right rfl⟩

theorem itemsRespect_qualified (relation : String) (items : List ProjectionItem) :
    itemsRespect (qualified relation items) = true := by
  simp [itemsRespect, qualified, qualifiedCol, respects]

end Requests

/-- A query of the given items and filter respects the types if these do. -/
theorem selectRespects_filtered {items : Option (List ProjectionItem)}
    {predicate : Option ExpressionNode} (hitems : itemsRespect (items.getD []) = true)
    (hpredicate : respectsOption predicate = true) (signature : Signature) :
    selectRespects { projection := items, predicate := predicate } signature = true := by
  simp [selectRespects, respectsOption, respectsAll, mentionsAll, hitems, hpredicate]

theorem selectRespects_items {items : List ProjectionItem} (hitems : itemsRespect items = true)
    (signature : Signature) : selectRespects { projection := some items } signature = true :=
  @selectRespects_filtered (some items) none hitems rfl signature

theorem selectRespects_star (signature : Signature) : selectRespects {} signature = true :=
  selectRespects_filtered rfl rfl signature

section Creates

variable {context : EquivalenceContext}

theorem careful_createFromQuery {wrap : EqNode → Option String → Gen EqNode}
    (hwrap : ∀ query exposedName, RespectsTypes query →
      Yields RespectsTypes (wrap query exposedName)) :
    Careful fun buildSubtree => createFromQuery buildSubtree wrap := by
  intro buildSubtree hserves constraints hconstraints
  have hrequest : constraintsRespect (queryConstraints constraints) = true := hconstraints
  apply Yields.bind (hserves _ _ hrequest)
  intro query hquery
  exact hwrap query constraints.exposedName hquery

theorem yields_wrapMaterializedView (query : EqNode) (exposedName : Option String)
    (hquery : RespectsTypes query) :
    Yields RespectsTypes (wrapMaterializedView context query exposedName) := by
  apply Yields.bind (yields_createAsSelect hquery)
  intro body hbody
  apply yields_over hbody selectRespects_star
  intro all hall
  exact yields_createAsSelect hall

theorem yields_mutatedTable {query : EqNode} {relationClass : RelationClass}
    {steps : String → List SetupStep} {exposedName : Option String}
    (hquery : RespectsTypes query) (hsteps : ∀ name, (steps name).all stepRespects = true) :
    Yields RespectsTypes (mutatedTable context relationClass steps query exposedName) := by
  apply Yields.next
  intro name
  apply yields_newNode
  · simp only [labelRespects, List.all_cons, stepRespects, queryRespects_queryOf hquery, hsteps,
      Bool.and_self]
  · simpa using hquery

/-- A predicate of the plugin says nothing about columns. -/
theorem yields_generatedPredicate :
    Yields (fun generated => respectsOption generated = true) (generatedPredicate context) := by
  apply silent_generatedPredicate.yields.mono
  intro generated hgenerated
  cases generated with
  | none => rfl
  | some predicate =>
      obtain ⟨text, rfl⟩ := hgenerated predicate rfl
      rfl

theorem yields_mutationPredicate :
    Yields (fun predicate => respectsOption predicate = true) (mutationPredicate context) := by
  apply Yields.bind yields_generatedPredicate
  intro generated hgenerated
  cases generated with
  | some predicate => exact Yields.pure hgenerated
  | none =>
      apply Yields.next
      intro picked
      apply Yields.pure
      cases picked with
      | none => rfl
      | some key => simp [respectsOption, respects]

theorem careful_deleteReinsertTable :
    Careful fun buildSubtree => deleteReinsertTable buildSubtree context := by
  intro buildSubtree hserves constraints _
  apply Yields.bind (hserves.plain _)
  intro query hquery
  apply Yields.bind yields_mutationPredicate
  intro predicate hpredicate
  apply yields_mutatedTable hquery
  intro name
  simp [deleteReinsertSteps, stepRespects, hpredicate]

theorem careful_noopUpdateTable :
    Careful fun buildSubtree => noopUpdateTable buildSubtree context := by
  intro buildSubtree hserves constraints _
  apply Yields.bind (hserves.plain _)
  intro query hquery
  apply Yields.next
  intro _
  apply Yields.bind yields_mutationPredicate
  intro predicate hpredicate
  apply yields_mutatedTable hquery
  intro name
  simp [stepRespects, identityAssignments, hpredicate]

end Creates

section Selects

variable {context : EquivalenceContext}

theorem careful_baseTableSource :
    Careful fun (_ : BuildSubtree) (_ : ConstraintSet) => baseTableSource context := by
  intro buildSubtree hserves constraints _
  exact yields_newNode rfl (by simp)

theorem rowFilter_respects {constraints : ConstraintSet}
    (h : constraintsRespect constraints = true) : respectsOption constraints.rowFilter = true := by
  rw [constraintsRespect, Bool.and_eq_true] at h
  exact h.1

theorem columnRewrite_respects {constraints : ConstraintSet}
    (h : constraintsRespect constraints = true) :
    itemsRespect (constraints.columnRewrite.getD []) = true := by
  rw [constraintsRespect, Bool.and_eq_true] at h
  exact h.2

theorem careful_selectStarQuery : Careful selectStarQuery := by
  intro buildSubtree hserves constraints hconstraints
  apply Yields.bind (hserves.source _)
  intro source hsource
  exact yields_selectQuery hsource
    (selectRespects_filtered rfl (rowFilter_respects hconstraints))

theorem careful_explicitProjectionQuery :
    Careful fun buildSubtree => explicitProjectionQuery buildSubtree context := by
  intro buildSubtree hserves constraints hconstraints
  apply Yields.next
  intro _
  apply Yields.bind (hserves.source _)
  intro source hsource
  exact yields_selectQuery hsource (selectRespects_filtered
    (itemsRespect_passthroughItems context) (rowFilter_respects hconstraints))

theorem careful_projectionQuery : Careful projectionQuery := by
  intro buildSubtree hserves constraints hconstraints
  have hitems := columnRewrite_respects hconstraints
  apply Yields.bind (hserves.source _)
  intro source hsource
  cases hrewrite : constraints.columnRewrite with
  | none => exact Yields.raise _
  | some items =>
      rw [hrewrite] at hitems
      exact yields_selectQuery hsource
        (selectRespects_filtered hitems (rowFilter_respects hconstraints))

theorem careful_readThroughCte (suffix : String) (materialize : Option Bool) :
    Careful fun buildSubtree => readThroughCte buildSubtree context suffix materialize := by
  intro buildSubtree hserves constraints hconstraints
  apply Yields.bind (hserves.source _)
  intro source hsource
  apply Yields.next
  intro name
  apply yields_newNode
  · exact rowFilter_respects hconstraints
  · simpa using hsource

theorem careful_lateralReprojectQuery :
    Careful fun buildSubtree _ => lateralReprojectQuery buildSubtree := by
  intro buildSubtree hserves constraints _
  apply Yields.bind (hserves.source _)
  intro source hsource
  apply Yields.next
  intro _
  apply yields_newNode
  · rfl
  · simpa using hsource

theorem careful_addDropColumnQuery :
    Careful fun buildSubtree _ => addDropColumnQuery buildSubtree context := by
  intro buildSubtree hserves constraints _
  have hbase := itemsRespect_passthroughItems context
  apply Yields.next
  intro _
  apply Yields.bind (hserves.source _)
  intro source hsource
  apply Yields.next
  intro extraName
  apply Yields.bind (yields_selectQuery hsource (selectRespects_filtered
    (by simp [hbase, respects]) rfl))
  intro query hquery
  apply Yields.bind (yields_createAsSelect hquery)
  intro wider hwider
  exact yields_selectQuery hwider (selectRespects_filtered hbase rfl)

/-- The first column is ordered by, whatever it is. -/
theorem careful_selectOrdered (hallow : TypesAllow context.baseTable)
    {query : List ProjectionItem → ExpressionNode → SelectQuery}
    (hquery : ∀ (first : ProjectionItem) items, orderable first.dataType = true → itemsRespect items = true →
      ∀ signature, selectRespects (query items (col first.name first.dataType)) signature = true) :
    Careful fun buildSubtree _ => selectOrdered buildSubtree context query := by
  intro buildSubtree hserves constraints _
  have hbase := itemsRespect_passthroughItems context
  simp only [selectOrdered]
  cases hitems : passthroughItems context with
  | nil => exact Yields.decline
  | cons first rest =>
      rw [hitems] at hbase
      apply Yields.bind (hserves.source _)
      intro source hsource
      exact yields_selectQuery hsource (hquery first _ (hallow.orderable_first hitems) hbase)

theorem careful_qualifyQuery (hallow : TypesAllow context.baseTable) :
    Careful fun buildSubtree _ => qualifyQuery buildSubtree context := by
  apply careful_selectOrdered hallow
  intro first items hfirst hitems signature
  simp [selectRespects, hitems, respectsOption, respectsAll, mentionsAll, ge, respects,
    comparisonSides, rowNumber, mentions, mentionsOption, windowArgument, intLit, col, hfirst]

theorem careful_orderedScanQuery (hallow : TypesAllow context.baseTable) :
    Careful fun buildSubtree _ => orderedScanQuery buildSubtree context := by
  apply careful_selectOrdered hallow
  intro first items hfirst hitems signature
  simp [selectRespects, hitems, respectsOption, respectsAll, mentionsAll, mentions, col, respects,
    hfirst]

end Selects

section Keyed

variable {context : EquivalenceContext}

/-- A query over a keyed relation. -/
theorem careful_keyed (hallow : TypesAllow context.baseTable) {stem : String}
    {make : String → KeyedRelation → Gen EqNode}
    (hmake : ∀ key keyed, RespectsTypes keyed.relation → itemsRespect keyed.baseItems = true →
      Yields RespectsTypes (make key keyed)) :
    Careful fun buildSubtree _ => (do
      let key ← generateColumnName stem
      let keyed ← materializeRowKey buildSubtree context key
      make key keyed) := by
  intro buildSubtree hserves constraints _
  apply Yields.next
  intro key
  apply Yields.bind (yields_materializeRowKey hserves hallow key)
  rintro keyed ⟨hrelation, hitems⟩
  exact hmake key keyed hrelation hitems

theorem careful_distinctAsGroupByQuery (hallow : TypesAllow context.baseTable) :
    Careful fun buildSubtree _ => distinctAsGroupByQuery buildSubtree context := by
  apply careful_keyed hallow
  intro key keyed hrelation hitems
  apply Yields.next
  intro _
  apply yields_selectQuery hrelation
  intro signature
  simp [selectRespects, hitems, respectsOption, respectsAll_eq, mentionsAll]

/-- A table or a view of some columns of a keyed relation. -/
theorem yields_projected {β : Type} {P : β → Prop} {make : EqNode → Gen β}
    {keyed : KeyedRelation} {items : List ProjectionItem} {predicate : Option ExpressionNode}
    (hrelation : RespectsTypes keyed.relation) (hitems : itemsRespect items = true)
    (hpredicate : respectsOption predicate = true)
    (hmake : ∀ query, RespectsTypes query → Yields P (make query)) :
    Yields P (selectQuery keyed.relation
      { projection := some items, predicate := predicate } >>= make) :=
  yields_over hrelation (selectRespects_filtered hitems hpredicate) hmake

/-- A join of a keyed relation with a table of its keys. -/
theorem yields_flagTable {keyed : KeyedRelation} {items : List ProjectionItem}
    {join : EqNode → Gen EqNode} (hrelation : RespectsTypes keyed.relation)
    (hitems : itemsRespect items = true)
    (hjoin : ∀ flagTable, RespectsTypes flagTable → Yields RespectsTypes (join flagTable)) :
    Yields RespectsTypes (do
      let flags ← selectQuery keyed.relation { projection := some items }
      let flagTable ← createTable context flags none
      join flagTable) := by
  apply yields_projected hrelation hitems rfl
  intro flags hflags
  exact (yields_createAsSelect hflags).bind hjoin

theorem careful_semiJoinFlagRoundTrip (hallow : TypesAllow context.baseTable) :
    Careful fun buildSubtree _ => semiJoinFlagRoundTrip buildSubtree context := by
  apply careful_keyed hallow
  intro uid keyed hrelation _
  apply Yields.next
  intro _
  apply yields_flagTable hrelation (by rfl)
  intro flagTable hflags
  exact yields_joinQuery hrelation hflags rfl (itemsRespect_qualified _ _) rfl

theorem careful_crossJoinFilterAsInner (hallow : TypesAllow context.baseTable) :
    Careful fun buildSubtree _ => crossJoinFilterAsInner buildSubtree context := by
  apply careful_keyed hallow
  intro uid keyed hrelation _
  apply Yields.next
  intro _
  apply yields_flagTable hrelation (by rfl)
  intro flagTable hflags
  exact yields_joinQuery hrelation hflags rfl (itemsRespect_qualified _ _) rfl

theorem careful_flagTableJoin (hallow : TypesAllow context.baseTable) :
    Careful fun buildSubtree _ => flagTableJoin buildSubtree context := by
  intro buildSubtree hserves constraints _
  apply Yields.next
  intro uid
  apply Yields.next
  intro flag
  apply Yields.bind (yields_materializeRowKey hserves hallow uid)
  rintro keyed ⟨hrelation, _⟩
  apply yields_flagTable hrelation (by rfl)
  intro flagTable hflags
  apply Yields.next
  intro joinType
  exact yields_joinQuery hrelation hflags rfl (itemsRespect_qualified _ _) rfl

theorem itemsRespect_of_subset {items items' : List ProjectionItem} (hsub : items' ⊆ items)
    (hitems : itemsRespect items = true) : itemsRespect items' = true := by
  rw [itemsRespect, List.all_eq_true] at hitems ⊢
  exact fun item hitem => hitems item (hsub hitem)

theorem careful_sequenceOuterJoin (hallow : TypesAllow context.baseTable) :
    Careful fun buildSubtree _ => sequenceOuterJoin buildSubtree context := by
  apply careful_keyed hallow
  intro key keyed hrelation hitems
  have hhalf (items : List ProjectionItem) (hsub : items ⊆ keyed.baseItems) :
      itemsRespect (items ++ [passthrough key integerType]) = true := by
    rw [itemsRespect_append, itemsRespect_of_subset hsub hitems]
    rfl
  apply Yields.next
  intro _
  apply yields_projected hrelation (hhalf _ (List.take_subset _ _)) rfl
  intro left hleft
  apply Yields.bind (yields_createAsSelect hleft)
  intro left hleft
  apply yields_projected hrelation (hhalf _ (List.drop_subset _ _)) rfl
  intro right hright
  apply Yields.bind (yields_createAsSelect hright)
  intro right hright
  apply yields_joinQuery hleft hright rfl _ rfl
  rw [itemsRespect_append, itemsRespect_qualified, itemsRespect_qualified]
  rfl

theorem careful_leftJoinEmpty :
    Careful fun buildSubtree _ => leftJoinEmpty buildSubtree context := by
  intro buildSubtree hserves constraints _
  apply Yields.next
  intro _
  apply Yields.bind (yields_bothSides hserves (by rfl))
  rintro sides ⟨hleft, hright⟩
  exact yields_joinQuery hleft hright rfl (itemsRespect_qualified _ _) rfl

end Keyed

section Partitioning

variable {context : EquivalenceContext} {buildSubtree : BuildSubtree}

theorem yields_filteredBranches (hserves : Serves buildSubtree) {current : Option ExpressionNode}
    (hcurrent : respectsOption current = true) (predicates : List ExpressionNode)
    (hpredicates : ∀ predicate ∈ predicates, respects predicate = true) :
    Yields (fun branches => ∀ branch ∈ branches, RespectsTypes branch)
      (filteredBranches buildSubtree current predicates) := by
  induction predicates with
  | nil => exact Yields.pure (by simp)
  | cons predicate rest ih =>
      rw [List.forall_mem_cons] at hpredicates
      have hfilter : constraintsRespect { rowFilter := some (conjoin current predicate) } = true := by
        simp [constraintsRespect, respectsOption, hcurrent, hpredicates.1]
      apply Yields.bind (hserves _ _ hfilter)
      intro branch hbranch
      apply Yields.bind (ih hpredicates.2)
      intro branches hbranches
      exact Yields.pure (List.forall_mem_cons.mpr ⟨hbranch, hbranches⟩)

theorem careful_partitionUnionQuery :
    Careful fun buildSubtree => partitionUnionQuery buildSubtree context := by
  intro buildSubtree hserves constraints hconstraints
  apply Yields.next
  intro picked
  apply Yields.next
  intro key
  apply Yields.bind (yields_filteredBranches hserves (rowFilter_respects hconstraints) _ _)
  · exact fun branches hbranches => yields_unionAllQuery hbranches
  · simp [respects]

theorem careful_tlpPartitionUnionQuery :
    Careful fun buildSubtree => tlpPartitionUnionQuery buildSubtree context := by
  intro buildSubtree hserves constraints hconstraints
  apply Yields.bind yields_generatedPredicate
  intro generated hgenerated
  apply Yields.bind (Yields.fromOption _)
  rintro predicate rfl
  have hpredicate : respects predicate = true := hgenerated
  apply Yields.bind (yields_filteredBranches hserves (rowFilter_respects hconstraints) _ _)
  · exact fun branches hbranches => yields_unionAllQuery hbranches
  · simp [respects, hpredicate]

theorem yields_residueViews {keyed : KeyedRelation} {rankName : String} {modulus : Nat}
    (hrelation : RespectsTypes keyed.relation) (hitems : itemsRespect keyed.baseItems = true)
    (residues : List Nat) :
    Yields (fun views => ∀ view ∈ views, RespectsTypes view)
      (residueViews context keyed rankName modulus residues) := by
  induction residues with
  | nil => exact Yields.pure (by simp)
  | cons residue rest ih =>
      have hresidue : respectsOption (some (eq (.mod (col rankName integerType) modulus)
          (intLit residue))) = true := by
        simp [respectsOption, respects]
      apply yields_projected hrelation hitems hresidue
      intro query hquery
      apply Yields.bind (yields_createAsSelect hquery)
      intro view hview
      apply Yields.bind ih
      intro views hviews
      exact Yields.pure (List.forall_mem_cons.mpr ⟨hview, hviews⟩)

theorem careful_rankModUnionQuery (hallow : TypesAllow context.baseTable) :
    Careful fun buildSubtree _ => rankModUnionQuery buildSubtree context := by
  intro buildSubtree hserves constraints hconstraints
  apply Yields.next
  intro modulus
  apply careful_keyed hallow _ buildSubtree hserves constraints hconstraints
  intro rankName keyed hrelation hitems
  apply Yields.next
  intro _
  apply Yields.bind (yields_residueViews hrelation hitems _)
  exact fun branches hbranches => yields_unionAllQuery hbranches

theorem careful_unionEmptyRoundTrip :
    Careful fun buildSubtree _ => unionEmptyRoundTrip buildSubtree := by
  intro buildSubtree hserves constraints _
  apply Yields.bind (yields_bothSides hserves (by rfl))
  rintro sides ⟨hleft, hright⟩
  apply yields_unionAllQuery
  simpa using ⟨hleft, hright⟩

theorem careful_exceptEmptyRoundTrip :
    Careful fun buildSubtree _ => exceptEmptyRoundTrip buildSubtree := by
  intro buildSubtree hserves constraints _
  apply Yields.bind (yields_bothSides hserves (by rfl))
  rintro sides ⟨hleft, hright⟩
  apply yields_newNode
  · rfl
  · simpa using ⟨hleft, hright⟩

theorem careful_intersectSelfRoundTrip :
    Careful fun buildSubtree _ => intersectSelfRoundTrip buildSubtree := by
  intro buildSubtree hserves constraints _
  apply Yields.bind (yields_bothSides hserves (by rfl))
  rintro sides ⟨hleft, hright⟩
  apply yields_newNode
  · rfl
  · simpa using ⟨hleft, hright⟩

theorem careful_distinctUnionDuplicateQuery (hallow : TypesAllow context.baseTable) :
    Careful fun buildSubtree _ => distinctUnionDuplicateQuery buildSubtree context := by
  intro buildSubtree hserves constraints hconstraints
  apply Yields.next
  intro _
  apply Yields.next
  intro _
  apply careful_keyed hallow _ buildSubtree hserves constraints hconstraints
  intro key keyed hrelation hitems
  apply Yields.next
  intro _
  apply Yields.bind (yields_unionAllQuery (by simpa using hrelation))
  intro twice htwice
  apply Yields.bind (yields_createAsSelect htwice)
  intro doubled hdoubled
  apply yields_over hdoubled
  · intro signature
    simp [selectRespects, respectsOption, respectsAll, mentionsAll]
  · intro once honce
    apply Yields.bind (yields_createAsSelect honce)
    intro deduped hdeduped
    exact yields_selectQuery hdeduped (selectRespects_filtered hitems rfl)

end Partitioning

section Rewrites

variable {context : EquivalenceContext}

/-- What replaces a column respects the types. -/
def RewritesWell (rewrite : ColumnRewriter) : Prop :=
  ∀ name dataType, Yields (fun rewritten => respectsOption rewritten = true)
    (rewrite name dataType)

theorem yields_rewriteItems {rewrite : ColumnRewriter} (hrewrite : RewritesWell rewrite)
    (columns : List Column) :
    Yields (fun items => itemsRespect items.1 = true) (rewriteItems rewrite columns) := by
  induction columns with
  | nil => exact Yields.pure rfl
  | cons column rest ih =>
      apply Yields.bind (hrewrite _ _)
      intro rewritten hrewritten
      apply Yields.bind ih
      intro items hitems
      cases rewritten with
      | none => exact Yields.pure hitems
      | some expr =>
          have hexpr : respects expr = true := hrewritten
          apply Yields.pure
          rw [itemsRespect_cons, hexpr, hitems]
          rfl

theorem careful_columnRewriteQuery {columnRewriter : Gen ColumnRewriter}
    (hrewriter : Yields RewritesWell columnRewriter) :
    Careful fun buildSubtree _ => columnRewriteQuery buildSubtree context columnRewriter := by
  intro buildSubtree hserves constraints _
  apply Yields.bind hrewriter
  intro rewrite hrewrite
  apply Yields.bind (yields_rewriteItems hrewrite _)
  intro items hitems
  apply Yields.next
  intro _
  apply Yields.bind (hserves.source _)
  intro source hsource
  exact yields_selectQuery hsource (selectRespects_filtered hitems rfl)

/-- A column is compared with itself only where it can be ordered. -/
theorem yields_freePredicate :
    Yields (fun predicate => respectsOption predicate = true) (freePredicate context) := by
  apply Yields.bind yields_generatedPredicate
  intro generated hgenerated
  cases generated with
  | some predicate => exact Yields.pure hgenerated
  | none =>
      simp only
      cases context.baseTable.columns with
      | nil => exact Yields.pure rfl
      | cons first rest =>
          apply Yields.next
          intro _
          apply Yields.next
          intro column
          split
          · next horderable =>
            apply Yields.pure
            have hcolumn : orderable column.dataType = true := horderable
            simp [respectsOption, ge, respects, comparisonSides, mentions, col, hcolumn]
          · exact Yields.pure rfl

theorem yields_eetCaseRewriter : Yields RewritesWell (eetCaseRewriter context) := by
  apply Yields.next
  intro tried
  cases tried with
  | none => exact Yields.pure fun _ _ => Yields.pure rfl
  | some _ =>
      apply Yields.pure
      intro name dataType
      apply Yields.bind yields_freePredicate
      intro predicate hpredicate
      apply Yields.pure
      cases predicate with
      | none => rfl
      | some predicate =>
          have hvalue : respects predicate = true := hpredicate
          simp [respectsOption, eetCase, respects, hvalue]

theorem careful_eetDeterminedFilterQuery :
    Careful fun buildSubtree => eetDeterminedFilterQuery buildSubtree context := by
  intro buildSubtree hserves constraints hconstraints
  apply Yields.bind yields_freePredicate
  intro free hfree
  apply Yields.bind (Yields.fromOption _)
  rintro predicate rfl
  have hpredicate : respects predicate = true := hfree
  apply Yields.bind (hserves.source _)
  intro source hsource
  apply yields_selectQuery hsource (selectRespects_filtered rfl _)
  simp [respectsOption, hpredicate, rowFilter_respects hconstraints]

theorem yields_codecRewriter (assignment : Gen (List (String × ValueCodec))) :
    Yields RewritesWell (codecRewriter assignment) := by
  apply Yields.next
  intro plan
  apply Yields.pure
  intro name dataType
  apply Yields.pure
  cases planned plan name with
  | none => rfl
  | some codec => rfl

/-- An extremum over a window is asked of the eligible columns only. -/
theorem respects_windowed {function : WindowFunction} {frame : Option WindowFrameKind}
    {ordered : Bool} {name : String} {dataType : SqlType}
    (h : eligible dataType function ordered = true) :
    respects (windowed function frame ordered name dataType) = true := by
  simp only [eligible, Bool.and_eq_true, Bool.or_eq_true, Bool.not_eq_true'] at h
  obtain ⟨⟨⟨⟨_, hordered⟩, haggregatable⟩, hboolean⟩, _⟩ := h
  have horder : mentionsAll orderable (if ordered then [col name dataType] else []) = true := by
    rcases hordered with hplain | hable
    · simp [hplain, mentionsAll]
    · cases ordered
      · rfl
      · simpa [mentionsAll, mentions, col, orderable] using hable
  have hlisted : respectsAll (if ordered then [col name dataType] else []) = true := by
    cases ordered <;> rfl
  have hargument : windowArgument function (some (col name dataType)) = true := by
    cases function <;> simp_all [windowArgument, mentionsOption, mentions, col, extremal]
  simp [windowed, respects, horder, hlisted, hargument, respectsOption, respectsAll]

theorem yields_windowRewriter : Yields RewritesWell (windowRewriter context) := by
  apply Yields.next
  intro choice
  apply Yields.next
  intro frameChoice
  apply Yields.pure
  intro name dataType
  apply Yields.pure
  split
  · next heligible => exact @respects_windowed _ (frameFor frameChoice) _ _ _ heligible
  · rfl

end Rewrites

section Expansion

variable {context : EquivalenceContext}

theorem itemsRespect_taggedItems {items : List ProjectionItem} (tagCol : String) (tag : Int)
    (hitems : itemsRespect items = true) : itemsRespect (taggedItems items tagCol tag) = true := by
  rw [taggedItems, itemsRespect_append, hitems]
  rfl

theorem itemsRespect_throwItems (items : List ProjectionItem) (tagCol : String) :
    itemsRespect (throwItems items tagCol) = true := by
  apply itemsRespect_taggedItems
  simp [itemsRespect, passthrough]

theorem queryRespects_exposedOf {child : EqNode} (h : RespectsTypes child) :
    queryRespects (exposedOf child).query = true := by
  obtain ⟨i, label, inputs⟩ := child
  have hlabel := (respectsTypes_mk.mp h).1
  cases label with
  | baseTableSource table => rfl
  | query query => rfl
  | relation relation =>
      rw [labelRespects, Bool.and_eq_true] at hlabel
      exact hlabel.1

theorem yields_insertExtrasExpansion {child : EqNode} {insert : SetupStep}
    (hchild : RespectsTypes child) (hinsert : stepRespects insert = true) :
    Yields RespectsTypes (insertExtrasExpansion child insert) := by
  apply yields_newNode
  · simp [labelRespects, queryRespects_exposedOf hchild, hinsert]
  · simpa using hchild

theorem careful_tagExplodeExpansion :
    Careful fun buildSubtree => tagExplodeExpansion buildSubtree context := by
  intro buildSubtree hserves constraints _
  have hbase := itemsRespect_passthroughItems context
  apply Yields.next
  intro channel
  apply Yields.next
  intro _
  have hrequest : constraintsRespect
      { columnRewrite := some (taggedItems (passthroughItems context) channel.tagCol
          channel.keepValue), acceptsDml := true } = true :=
    itemsRespect_taggedItems _ _ hbase
  apply Yields.bind (hserves _ _ hrequest)
  intro kept hkept
  apply yields_over hkept (selectRespects_items (itemsRespect_throwItems _ _))
  intro thrown hthrown
  apply Yields.bind (yields_createAsSelect hthrown)
  intro thrown hthrown
  apply Yields.next
  intro rowcount
  simp only
  split
  · exact yields_over hkept selectRespects_star
      fun query hquery => yields_createAsSelect hquery
  · have hbranches : ∀ branch ∈ kept :: List.replicate (rowcount - 1) thrown,
        RespectsTypes branch := by
      intro branch hbranch
      rcases List.mem_cons.mp hbranch with rfl | hcopy
      · exact hkept
      · rw [List.eq_of_mem_replicate hcopy]
        exact hthrown
    apply Yields.bind (yields_unionAllQuery hbranches)
    intro query hquery
    exact yields_createAsSelect hquery

theorem careful_tagInsertExtrasExpansion :
    Careful fun buildSubtree => tagInsertExtrasExpansion buildSubtree context := by
  intro buildSubtree hserves constraints _
  apply Yields.next
  intro channel
  apply Yields.next
  intro _
  apply Yields.bind (hserves _ _ (by rfl))
  intro child hchild
  apply yields_insertExtrasExpansion hchild
  exact @selectRespects_filtered (some _) (some _) (itemsRespect_throwItems _ _) rfl _

theorem careful_keyExplodeExpansion (hallow : TypesAllow context.baseTable) :
    Careful fun buildSubtree => keyExplodeExpansion buildSubtree context := by
  intro buildSubtree hserves constraints _
  apply Yields.next
  intro channel
  apply Yields.bind (yields_materializeRowKey hserves hallow _)
  rintro keyed ⟨hrelation, _⟩
  apply Yields.next
  intro rowcount
  have hbranches : ∀ branch ∈ List.replicate rowcount keyed.relation, RespectsTypes branch := by
    intro branch hbranch
    rw [List.eq_of_mem_replicate hbranch]
    exact hrelation
  apply Yields.bind (yields_unionAllQuery hbranches)
  intro query hquery
  exact yields_createAsSelect hquery

theorem careful_keyInsertExtrasExpansion : Careful keyInsertExtrasExpansion := by
  intro buildSubtree hserves constraints _
  apply Yields.next
  intro channel
  apply Yields.bind (hserves _ _ (by rfl))
  intro child hchild
  apply yields_insertExtrasExpansion hchild
  exact selectRespects_star (queryOver (.select {}) [child]).getSignature

/-- The child of a reducer and the columns of the base table. -/
def Reducible (context : EquivalenceContext) (built : Expanded) : Prop :=
  RespectsTypes built.child ∧ built.baseItems = passthroughItems context

theorem yields_buildReduced {buildSubtree : BuildSubtree} (hserves : Serves buildSubtree)
    (requiresDml : Bool) :
    Yields (Reducible context) (buildReduced buildSubtree context requiresDml) := by
  apply Yields.next
  intro _
  apply Yields.next
  intro tagCol
  apply Yields.bind (hserves _ _ (by rfl))
  intro child hchild
  exact Yields.pure ⟨hchild, rfl⟩

theorem yields_buildKeyed {buildSubtree : BuildSubtree} (hserves : Serves buildSubtree) :
    Yields (Reducible context) (buildKeyed buildSubtree context) := by
  apply Yields.next
  intro _
  apply Yields.next
  intro keyCol
  apply Yields.bind (hserves _ _ (by rfl))
  intro child hchild
  exact Yields.pure ⟨hchild, rfl⟩

theorem Reducible.items {built : Expanded} (h : Reducible context built) :
    itemsRespect built.baseItems = true := by
  rw [h.2]
  exact itemsRespect_passthroughItems context

theorem careful_tagPruneDeleteReduce :
    Careful fun buildSubtree => tagPruneDeleteReduce buildSubtree context := by
  intro buildSubtree hserves constraints _
  apply Yields.bind (yields_buildReduced hserves true)
  intro built hbuilt
  have hview := selectRespects_items hbuilt.items
  apply Yields.next
  intro name
  apply yields_newNode
  · simp [labelRespects, stepRespects, queryRespects, queryOver, hview, respectsOption]
  · simpa using hbuilt.1

theorem careful_tagPruneFilterReduce :
    Careful fun buildSubtree => tagPruneFilterReduce buildSubtree context := by
  intro buildSubtree hserves constraints _
  apply Yields.bind (yields_buildReduced hserves false)
  intro built hbuilt
  exact yields_over hbuilt.1 (@selectRespects_filtered (some _) (some _) hbuilt.items rfl)
    fun query hquery => yields_createAsSelect hquery

theorem yields_collapse {built : Expanded} (hbuilt : Reducible context built)
    {query : SelectQuery} (hquery : ∀ signature, selectRespects query signature = true)
    (constraints : ConstraintSet) :
    Yields RespectsTypes (collapse context built query constraints) := by
  apply yields_over hbuilt.1 hquery
  intro query hquery
  apply Yields.bind (yields_createAsSelect hquery)
  intro collapsed hcollapsed
  exact yields_over hcollapsed (selectRespects_items hbuilt.items)
    fun outer houter => yields_createAsSelect houter

theorem careful_keyDistinctReduce :
    Careful fun buildSubtree => keyDistinctReduce buildSubtree context := by
  intro buildSubtree hserves constraints _
  apply Yields.next
  intro _
  apply Yields.next
  intro _
  apply Yields.bind (yields_buildKeyed hserves)
  intro built hbuilt
  apply yields_collapse hbuilt
  intro signature
  simp [selectRespects, passthrough, hbuilt.items, respectsOption, respectsAll, mentionsAll]

theorem careful_keyGroupAggregateReduce :
    Careful fun buildSubtree => keyGroupAggregateReduce buildSubtree context := by
  intro buildSubtree hserves constraints _
  apply Yields.bind (yields_buildKeyed hserves)
  intro built hbuilt
  have haggregated : itemsRespect (built.baseItems.map anyValueItem) = true := by
    simp [itemsRespect, anyValueItem, respects, aggregateArgument]
  apply yields_over hbuilt.1
  · intro signature
    simp [selectRespects, haggregated, respectsOption, respectsAll, mentionsAll]
  · exact fun query hquery => yields_createAsSelect hquery

/-- The maximum of every column is asked for: no column may be a boolean. -/
theorem careful_keyWindowAggregateReduce (hallow : TypesAllow context.baseTable) :
    Careful fun buildSubtree => keyWindowAggregateReduce buildSubtree context := by
  intro buildSubtree hserves constraints _
  apply Yields.next
  intro _
  apply Yields.bind (Yields.guard _)
  intro _ haggregatable
  have hextremal : ∀ item ∈ passthroughItems context, extremal item.dataType = true := by
    intro item hitem
    have hable := (haggregatable item hitem).1
    obtain ⟨column, hcolumn, rfl⟩ := List.mem_map.mp hitem
    have hboolean := hallow.extremes (fun other hother =>
      (haggregatable _ (List.mem_map_of_mem hother)).1) column hcolumn
    simp only [extremal, Bool.and_eq_true, Bool.not_eq_true']
    exact ⟨hable, hboolean⟩
  apply Yields.bind (yields_buildKeyed hserves)
  intro built hbuilt
  have hwindowed : itemsRespect (built.baseItems.map (windowedItem built.column)) = true := by
    rw [hbuilt.2, itemsRespect, List.all_map, List.all_eq_true]
    intro item hitem
    simp [windowedItem, respects, windowArgument, mentionsOption, mentions, col, mentionsAll,
      respectsOption, respectsAll, hextremal item hitem]
  apply yields_collapse hbuilt
  intro signature
  simp [selectRespects, passthrough, hwindowed, respectsOption, respectsAll, mentionsAll]

theorem careful_keyQualifyDedupReduce :
    Careful fun buildSubtree => keyQualifyDedupReduce buildSubtree context := by
  intro buildSubtree hserves constraints _
  apply Yields.bind (yields_buildKeyed hserves)
  intro built hbuilt
  apply yields_collapse hbuilt
  intro signature
  have hkey : orderable integerType = true := rfl
  simp [selectRespects, passthrough, hbuilt.items, respectsOption, respectsAll, mentionsAll,
    copyNumber, respects, windowArgument, col, mentions, hkey]

end Expansion

end EqGen.Equivalence.TypeBuilders
