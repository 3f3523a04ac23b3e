import EqGen.Equivalence.ContractSteps
import EqGen.Equivalence.RowIdentities

/-! The builders that create objects and the ones that read one source keep the contract. -/

namespace EqGen.Equivalence.ContractQueries

open Classical
open EqGen.Builder.Context
open EqGen.Builder.Promises
open EqGen.Core.Catalog
open EqGen.Equivalence.Ast
open EqGen.Equivalence.Builders.Base
open EqGen.Equivalence.Builders.Creates
open EqGen.Equivalence.Builders.DmlTables
open EqGen.Equivalence.Builders.Selects
open EqGen.Equivalence.Context
open EqGen.Equivalence.ContractNodes
open EqGen.Equivalence.ContractSteps
open EqGen.Equivalence.Contracts
open EqGen.Equivalence.Copies
open EqGen.Equivalence.Denotations
open EqGen.Equivalence.Expansion
open EqGen.Equivalence.Factory
open EqGen.Equivalence.Names
open EqGen.Equivalence.Renamed
open EqGen.Equivalence.RowIdentities
open EqGen.Equivalence.Rows
open EqGen.Equivalence.Semantics
open EqGen.Lib.Ascent
open EqGen.Lib.Backtrack
open EqGen.Lib.Dag

variable {V : Type} {engine : Engine V} {context : EquivalenceContext}
variable {base : BaseRows V context.baseTable} {scope : Scope V}
variable {pool : List EquivalenceBuilder} {constraints : ConstraintSet} {s : GenerationState}

section Types

/-- Whether the set has a constraint of the type. -/
def asks (constraints : ConstraintSet) : ConstraintType → Bool
  | .rowFilter => constraints.rowFilter.isSome
  | .acceptsDml => constraints.acceptsDml
  | .singleSource => constraints.singleSource
  | .columnRewrite => constraints.columnRewrite.isSome
  | .tagChannel => constraints.tagChannel.isSome
  | .keyChannel => constraints.keyChannel.isSome
  | .exposedName => constraints.exposedName.isSome

theorem mem_constraintTypes (type : ConstraintType) :
    type ∈ constraintTypes constraints ↔ asks constraints type = true := by
  cases type <;> simp [constraintTypes, asks]

variable {supported : List ConstraintType} (h : constraintTypes constraints ⊆ supported)

include h

theorem asks_unsupported {type : ConstraintType} (htype : type ∉ supported) :
    asks constraints type = false := by
  rw [Bool.eq_false_iff]
  intro hasks
  exact htype (h ((mem_constraintTypes type).mpr hasks))

theorem rowFilter_eq_none (htype : .rowFilter ∉ supported) : constraints.rowFilter = none := by
  simpa [asks] using asks_unsupported h htype

theorem tagChannel_eq_none (htype : .tagChannel ∉ supported) : constraints.tagChannel = none := by
  simpa [asks] using asks_unsupported h htype

theorem keyChannel_eq_none (htype : .keyChannel ∉ supported) : constraints.keyChannel = none := by
  simpa [asks] using asks_unsupported h htype

theorem columnRewrite_eq_none (htype : .columnRewrite ∉ supported) :
    constraints.columnRewrite = none := by
  simpa [asks] using asks_unsupported h htype

theorem acceptsDml_eq_false (htype : .acceptsDml ∉ supported) : constraints.acceptsDml = false :=
  asks_unsupported h htype

theorem plain_of_unsupported (hrewrite : .columnRewrite ∉ supported)
    (htag : .tagChannel ∉ supported) (hkey : .keyChannel ∉ supported) : Plain constraints :=
  ⟨columnRewrite_eq_none h hrewrite, tagChannel_eq_none h htag, keyChannel_eq_none h hkey⟩

end Types

variable (engine base scope pool) in
/-- The builder keeps the contract as long as the factory over the pool does. -/
abbrev Keeps (b : EquivalenceBuilder) : Prop :=
  KeepsPromise (factoryOf context pool) (contract engine base scope) b

variable (engine base scope pool) in
/-- Every request is answered with what it asks for. -/
abbrev Answering (recurse : BuildSubtree) : Prop :=
  Answers (factoryOf context pool) (contract engine base scope) recurse

section Creates

/-- The relation a created object is asked for, from the query it is created of. -/
theorem fits_createdAs (htag : constraints.tagChannel = none) (hkey : constraints.keyChannel = none)
    {relation : Relation V} (h : Fits engine base (queryConstraints constraints) relation)
    {isStored : Bool} (hstored : constraints.acceptsDml = true → isStored = true)
    (site : Occasion) : Fits engine base constraints (createdAs isStored relation site) := by
  obtain ⟨hcolumns, hrows⟩ := h
  simp only [RowsAsked, queryConstraints] at hrows
  obtain ⟨read, hrows, -⟩ := hrows
  refine ⟨?_, ?_⟩
  · rw [columns_createdAs, hcolumns]
    simp only [columnsAsked, queryConstraints, htag, hkey]
  · simp only [RowsAsked, htag, hkey]
    cases isStored with
    | true => exact ⟨fun _ => read site, fun _ => hrows site, fun _ _ _ => rfl⟩
    | false => exact ⟨read, hrows, fun hdml => absurd (hstored hdml) Bool.false_ne_true⟩

/-- What wrapping a query in an object gives: a relation that is stored or not. -/
def Wraps (engine : Engine V) (base : BaseRows V context.baseTable) (scope : Scope V)
    (isStored : Bool) (wrap : EqNode → Option String → Gen EqNode) : Prop :=
  ∀ relation query exposedName s, QueryHolds engine base scope relation query →
    (∀ name ∈ exposedName, name ≠ context.baseTable.getSqlName true) →
      Leads s (wrap query exposedName) fun node s' =>
        (∃ site, Holds engine base scope (createdAs isStored relation site) node) ∧
          (exposedName = none → ¬Taken s (refSql node) ∧ Taken s' (refSql node))

theorem keeps_createBuilder {name : String} {relationClass : RelationClass}
    {supported : List ConstraintType} {wrap : EqNode → Option String → Gen EqNode} {isStored : Bool}
    (hwraps : Wraps engine base scope isStored wrap)
    (hsupported : supported ⊆ dmlSupported)
    (hstored : .acceptsDml ∈ supported → isStored = true) {hwrap} :
    Keeps engine base scope pool (createBuilder name relationClass supported wrap hwrap) := by
  intro recurse hrecurse constraints hproper htypes _ s
  have hasked := List.Subset.trans htypes hsupported
  have htag := tagChannel_eq_none hasked (by decide)
  have hkey := keyChannel_eq_none hasked (by decide)
  have hquery : Proper context.baseTable (queryConstraints constraints) :=
    ⟨by simp [queryConstraints], by simp [queryConstraints], by simp [queryConstraints]⟩
  refine (leads_query hrecurse hquery).bind ?_
  rintro query s₁ hle ⟨relation, hholds, hfits⟩
  apply (hwraps relation query constraints.exposedName s₁ hholds hproper.exposed).mono
  rintro node s₂ _ ⟨⟨site, hnode⟩, hfresh⟩
  refine ⟨⟨_, hnode, fits_createdAs htag hkey hfits ?_ site⟩, ?_⟩
  · intro hdml
    exact hstored (htypes ((mem_constraintTypes .acceptsDml).mpr hdml))
  · intro hnone
    obtain ⟨hnew, htaken⟩ := hfresh hnone
    exact ⟨fun hold => hnew (hold.mono hle), htaken⟩

theorem wraps_createView : Wraps engine base scope false (createView context) := by
  intro relation query exposedName s hquery hexposed
  apply (leads_createView hquery hexposed).mono
  rintro node s' _ ⟨hholds, hfresh⟩
  exact ⟨⟨.read 0, hholds⟩, hfresh⟩

theorem wraps_createTemporaryView :
    Wraps engine base scope false (createTemporaryView context) := by
  intro relation query exposedName s hquery hexposed
  apply (leads_createTemporaryView hquery hexposed).mono
  rintro node s' _ ⟨hholds, hfresh⟩
  exact ⟨⟨.read 0, hholds⟩, hfresh⟩

theorem wraps_createTable : Wraps engine base scope true (createTable context) :=
  fun _ _ _ _ hquery hexposed => leads_createTable hquery hexposed

theorem wraps_createTemporaryTable :
    Wraps engine base scope true (createTemporaryTable context) :=
  fun _ _ _ _ hquery hexposed => leads_createTemporaryTable hquery hexposed

/-- A materialized view copies a table of its own. -/
theorem wraps_wrapMaterializedView :
    Wraps engine base scope true (wrapMaterializedView context) := by
  intro relation query exposedName s hquery hexposed
  refine (leads_createTable hquery (by simp)).bind ?_
  rintro body s₁ hle ⟨⟨site, hbody⟩, -⟩
  refine (leads_selectQuery hbody {}).bind ?_
  intro all s₂ hle₂ hall
  have hstar : (⟨selectColumns {} (written relation site), fun occasion =>
      engine.select occasion ((written relation site).rows (.source 0 occasion)) {}⟩ :
        Relation V) = written relation site := by
    congr 1
    funext occasion
    rw [select_all]
    rfl
  rw [hstar] at hall
  apply (leads_createMaterializedView hall hexposed).mono
  rintro node s₃ _ ⟨⟨site', hnode⟩, hfresh⟩
  refine ⟨⟨site, hnode⟩, ?_⟩
  intro hnone
  obtain ⟨hnew, htaken⟩ := hfresh hnone
  exact ⟨fun hold => hnew (hold.mono (hle.trans hle₂)), htaken⟩

end Creates

section Queries

theorem kept_query {c : NodeClass} (hc : c.isSubclass .queryNode = true) {node : EqNode}
    {s' : GenerationState} (h : QueryAnswered engine base scope constraints node) :
    (contract engine base scope).kept c constraints s node s' := by
  cases c with
  | baseTableSource | relation _ => cases hc
  | _ => exact h

/-- A query builder without constraints returns the base rows. -/
theorem keeps_plainQueryBuilder {name : String} {resultType : NodeClass}
    {build : BuildSubtree → Gen EqNode} (hquery : resultType.isSubclass .queryNode = true)
    (h : ∀ recurse s, Answering engine base scope pool recurse →
      Leads s (build recurse) fun node _ => QueryHolds engine base scope (baseRelation base) node)
    {hbuild} : Keeps engine base scope pool (plainQueryBuilder name resultType build hbuild) := by
  intro recurse hrecurse constraints _ htypes _ s
  apply (h recurse s hrecurse).mono
  intro node s' _ hnode
  apply kept_query hquery
  have hasked : constraintTypes constraints ⊆ [] := htypes
  have hfits := @Plain.fits _ engine _ base _
    (plain_of_unsupported hasked (by decide) (by decide) (by decide))
  rw [rowFilter_eq_none hasked (by decide), passing_none] at hfits
  exact ⟨_, hnode, hfits⟩

/-- One with a filter returns the base rows that pass it. -/
theorem keeps_filtering {b : EquivalenceBuilder} (hquery : b.resultType.isSubclass .queryNode = true)
    (hsupported : b.supportedConstraintTypes ⊆ [.rowFilter, .singleSource])
    (h : ∀ recurse constraints s, Answering engine base scope pool recurse →
      Leads s (b.build recurse constraints) fun node _ => QueryHolds engine base scope
        ⟨context.baseTable.columnNames, fun _ => passing engine base constraints.rowFilter⟩ node) :
    Keeps engine base scope pool b := by
  intro recurse hrecurse constraints _ htypes _ s
  apply (h recurse constraints s hrecurse).mono
  intro node s' _ hnode
  apply kept_query hquery
  have hasked := List.Subset.trans htypes hsupported
  exact ⟨_, hnode, (plain_of_unsupported hasked (by decide) (by decide) (by decide)).fits⟩

variable {source : EqNode} {columns columns' : List String} {held rows : Bag V}

/-- A `SELECT` whose rows do not depend on when it is evaluated. -/
theorem leads_selectStill (h : Holds engine base scope ⟨columns, fun _ => held⟩ source)
    {query : SelectQuery}
    (hcolumns : selectColumns query (⟨columns, fun _ => held⟩ : Relation V) = columns')
    (hrows : ∀ occasion, engine.select occasion held query = rows) :
    Leads s (selectQuery source query) fun node _ =>
      QueryHolds engine base scope ⟨columns', fun _ => rows⟩ node := by
  apply (leads_selectQuery h query).mono
  intro node s' _ hnode
  simp only [hcolumns, hrows] at hnode
  exact hnode

/-- The same over the base rows, with their columns listed. -/
theorem leads_selectBase (h : Holds engine base scope (baseRelation base) source)
    {query : SelectQuery}
    (hprojection : query.projection = none ∨
      query.projection = some (passthroughs context.baseTable.columns))
    (hrows : ∀ occasion, engine.select occasion base.rows query = rows) :
    Leads s (selectQuery source query) fun node _ =>
      QueryHolds engine base scope ⟨context.baseTable.columnNames, fun _ => rows⟩ node := by
  apply leads_selectStill h _ hrows
  rcases hprojection with hprojection | hprojection
  · simp only [selectColumns, hprojection]
  · simp only [selectColumns, hprojection, names_passthroughs, Table.columnNames]

theorem supported_passthroughs (base : BaseRows V context.baseTable) :
    ∀ row ∈ base.rows, Supported
      ((passthroughs context.baseTable.columns).map ProjectionItem.name) row := by
  rw [names_passthroughs]
  exact base.supported

/-- A column of `NULL`s beside the base columns. -/
theorem select_extra (occasion : Occasion) {extraName : String}
    (hextra : extraName ∉ context.baseTable.columnNames) :
    engine.select occasion base.rows
      { projection := some (passthroughs context.baseTable.columns ++
          [⟨extraName, .typedNull integerType, integerType⟩]) } = base.rows := by
  have haggregate : itemsAggregate (passthroughs context.baseTable.columns ++
      [⟨extraName, .typedNull integerType, integerType⟩]) = false := by
    rw [itemsAggregate_append, itemsAggregate_passthroughs]
    rfl
  rw [select_items engine occasion base.rows none haggregate]
  · calc _ = base.rows.map id := by
          simp only [keeps_none, Multiset.filter_true]
          apply Multiset.map_congr rfl
          intro row hrow
          rw [project_snoc engine _ _ (base.supported row hrow) (fun _ _ => rfl) hextra]
          exact Function.update_eq_self_iff.mpr (base.supported row hrow _ hextra).symm
      _ = base.rows := Multiset.map_id _
  · intro row window item hitem
    rcases List.mem_append.mp hitem with hitem | hitem
    · rw [eval_passthroughs engine _ _ item hitem, eval_passthroughs engine _ _ item hitem]
      rfl
    · rw [List.mem_singleton.mp hitem]
      rfl

variable {recurse : BuildSubtree} (hrecurse : Answering engine base scope pool recurse)

include hrecurse

theorem leads_selectStarQuery : Leads s (selectStarQuery recurse constraints) fun node _ =>
    QueryHolds engine base scope
      ⟨context.baseTable.columnNames, fun _ => passing engine base constraints.rowFilter⟩ node := by
  refine (leads_dispatchSource hrecurse).bind ?_
  intro source s₁ _ hsource
  apply leads_selectBase hsource (.inl rfl)
  intro occasion
  exact select_star engine occasion base.rows _

theorem leads_explicitProjectionQuery :
    Leads s (explicitProjectionQuery recurse context constraints) fun node _ =>
      QueryHolds engine base scope ⟨context.baseTable.columnNames,
        fun _ => passing engine base constraints.rowFilter⟩ node := by
  refine Leads.bind (Q := fun _ _ => True) (Leads.guard fun _ => trivial) ?_
  intro _ s₁ _ _
  refine (leads_dispatchSource hrecurse).bind ?_
  intro source s₂ _ hsource
  apply leads_selectBase hsource (.inr rfl)
  intro occasion
  exact select_recomputed rfl rfl rfl (recomputes_passthroughs _) rfl
    (fun _ _ => keeps_none engine _) (supported_passthroughs base)

theorem leads_readThroughCte {suffix : String} {materialize : Option Bool} :
    Leads s (readThroughCte recurse context suffix materialize constraints) fun node _ =>
      QueryHolds engine base scope ⟨context.baseTable.columnNames,
        fun _ => passing engine base constraints.rowFilter⟩ node := by
  refine (leads_dispatchSource hrecurse).bind ?_
  intro source s₁ _ hsource
  refine Leads.bind (Q := fun _ _ => True) ?_ ?_
  · unfold Leads
    apply spec_generateObjectName
    intro name s' hgrows _ _ _ _
    exact ⟨hgrows, trivial⟩
  · intro name s₂ _ _
    exact leads_readThrough hsource
      (f := fun rows => rows.filter fun row => engine.keeps (rowSight row) constraints.rowFilter)
      (fun h => h) hsource.signature fun _ => rfl

theorem leads_lateralReprojectQuery :
    Leads s (lateralReprojectQuery recurse) fun node _ =>
      QueryHolds engine base scope (baseRelation base) node := by
  refine (leads_dispatchSource hrecurse).bind ?_
  intro source s₁ _ hsource
  refine Leads.bind (Q := fun _ _ => True) (Leads.guard fun _ => trivial) ?_
  intro _ s₂ _ _
  refine Leads.mono (leads_readThrough hsource
    (f := fun rows => rows.map fun row name =>
      if name ∈ (getSignature source).names then row name else .null)
    ?_ hsource.signature fun _ => rfl) ?_
  · exact fun _ => hsource.signature
  intro node s' _ hnode
  have hsame : (base.rows.map fun row name =>
      if name ∈ (getSignature source).names then row name else .null) = base.rows := by
    calc _ = base.rows.map id := by
          apply Multiset.map_congr rfl
          intro row hrow
          funext name
          rw [hsource.signature]
          split
          · rfl
          · next hname => exact (base.supported row hrow name hname).symm
      _ = base.rows := Multiset.map_id _
  simp only [baseRelation, hsame] at hnode
  exact hnode

/-- A query that lists the base columns, with the first of them at hand. -/
theorem leads_selectOrdered {query : List ProjectionItem → ExpressionNode → SelectQuery}
    (hprojection : ∀ items orderCol, (query items orderCol).projection = some items)
    (hrows : ∀ name dataType occasion, engine.select occasion base.rows
      (query (passthroughs context.baseTable.columns) (col name dataType)) = base.rows) :
    Leads s (selectOrdered recurse context query) fun node _ =>
      QueryHolds engine base scope (baseRelation base) node := by
  unfold selectOrdered
  rw [passthroughItems_eq]
  cases hitems : passthroughs context.baseTable.columns with
  | nil => exact Leads.decline
  | cons first rest =>
      refine (leads_dispatchSource hrecurse).bind ?_
      intro source s₁ _ hsource
      apply leads_selectBase hsource (.inr (by rw [hprojection, hitems]))
      intro occasion
      rw [← hitems]
      exact hrows _ _ occasion

theorem leads_qualifyQuery : Leads s (qualifyQuery recurse context) fun node _ =>
    QueryHolds engine base scope (baseRelation base) node := by
  apply leads_selectOrdered hrecurse (fun _ _ => rfl)
  intro name dataType occasion
  rw [select_recomputed rfl rfl rfl (recomputes_passthroughs _) rfl
    (fun entry _ => keeps_rowNumber entry [col name dataType]) (supported_passthroughs base)]
  simp

theorem leads_orderedScanQuery : Leads s (orderedScanQuery recurse context) fun node _ =>
    QueryHolds engine base scope (baseRelation base) node := by
  apply leads_selectOrdered hrecurse (fun _ _ => rfl)
  intro name dataType occasion
  rw [select_recomputed rfl rfl rfl (recomputes_passthroughs _) rfl
    (fun _ _ => keeps_none engine _) (supported_passthroughs base)]
  simp

variable (hsituated : Situated context base scope)

include hsituated

theorem leads_addDropColumnQuery : Leads s (addDropColumnQuery recurse context) fun node _ =>
    QueryHolds engine base scope (baseRelation base) node := by
  refine Leads.bind (Q := fun _ _ => True) (Leads.guard fun _ => trivial) ?_
  intro _ s₁ _ _
  refine (leads_dispatchSource hrecurse).bind ?_
  intro source s₂ _ hsource
  refine (leads_coinColumn hsituated (by simp [columnStems])).bind ?_
  intro extraName s₃ _ hextra
  show Leads s₃ (selectQuery source _ >>= fun query => createView context query none >>=
    fun wider => selectQuery wider _) _
  refine Leads.bind (Q := fun node _ => QueryHolds engine base scope
    ⟨context.baseTable.columnNames ++ [extraName], fun _ => base.rows⟩ node)
    (leads_selectStill hsource ?_ fun occasion => select_extra occasion hextra.column) ?_
  · simp [selectColumns, passthroughItems_eq, names_passthroughs, Table.columnNames]
  · intro query s₄ _ hquery
    refine (leads_createView hquery (by simp)).bind ?_
    rintro wider s₅ _ ⟨hwider, -⟩
    apply leads_selectStill hwider
    · simp only [selectColumns, passthroughItems_eq, names_passthroughs, Table.columnNames]
    · intro occasion
      rw [passthroughItems_eq, select_recomputed rfl rfl rfl (recomputes_passthroughs _) rfl
        (fun _ _ => keeps_none engine _) (supported_passthroughs base)]
      simp

theorem leads_distinctAsGroupByQuery :
    Leads s (distinctAsGroupByQuery recurse context) fun node _ =>
      QueryHolds engine base scope (baseRelation base) node := by
  refine (leads_coinColumn hsituated (by simp [columnStems])).bind ?_
  intro keyName s₁ _ hkey
  refine (leads_materializeRowKey hrecurse hkey.column).bind ?_
  rintro ⟨relation, baseItems⟩ s₂ _ ⟨rfl, ⟨numbered, hkeyed, hcopies, -⟩, -⟩
  refine Leads.bind (Q := fun _ _ => True) (Leads.guard fun _ => trivial) ?_
  intro _ s₃ _ _
  apply leads_selectStill hkeyed
  · simp only [selectColumns, names_passthroughs, Table.columnNames]
  · intro occasion
    exact select_grouped hcopies

end Queries

section Builders

variable (engine base scope) in
/-- A relation of the base rows, under the name it was asked for or one of its own. -/
structure Restores (constraints : ConstraintSet) (s : GenerationState) (node : EqNode)
    (s' : GenerationState) : Prop where
  holds : Holds engine base scope (baseRelation base) node
  fresh : Fresh constraints s (refSql node) s'

theorem Restores.before {s₀ s' : GenerationState} {node : EqNode} (hle : s₀ ≤ s)
    (h : Restores engine base scope constraints s node s') :
    Restores engine base scope constraints s₀ node s' :=
  ⟨h.holds, h.fresh.widen hle (le_refl s')⟩

theorem keeps_projectionQuery {b : EquivalenceBuilder} (hquery : b.resultType = .selectQuery)
    (hrequired : b.requiredConstraintTypes = [.columnRewrite])
    (hsupported : b.supportedConstraintTypes = [.columnRewrite, .rowFilter, .singleSource])
    (hbuild : b.build = projectionQuery) : Keeps engine base scope pool b := by
  intro recurse hrecurse constraints _ htypes hrequires s
  rw [hsupported] at htypes
  rw [hrequired] at hrequires
  have hasks := (mem_constraintTypes .columnRewrite).mp (hrequires List.mem_cons_self)
  obtain ⟨items, hitems⟩ := Option.isSome_iff_exists.mp hasks
  have hdml := acceptsDml_eq_false htypes (by decide)
  rw [hbuild, hquery]
  refine (leads_dispatchSource hrecurse).bind ?_
  intro source s₁ _ hsource
  rw [hitems]
  apply (leads_selectQuery hsource _).mono
  intro node s₂ _ hnode
  refine ⟨_, hnode, ?_, ?_⟩
  · simp only [columnsAsked, hitems, selectColumns]
  · simp only [RowsAsked, rowsAsked, hitems, tagChannel_eq_none htypes (by decide),
      keyChannel_eq_none htypes (by decide), hdml]
    exact ⟨id, fun _ => rfl, fun hdml => absurd hdml Bool.false_ne_true⟩

/-- What is deleted is inserted again from the base table. -/
theorem deleteReinsertSteps_holds {predicate : Option ExpressionNode} {name : String} (i : Nat)
    {sources : Scope V} (hsources : sources name = baseRelation base)
    (hbase : sources (context.baseTable.getSqlName true) = baseRelation base)
    (hname : name ≠ context.baseTable.getSqlName true) :
    (((deleteReinsertSteps context context.baseTable.columnNames predicate name).zipIdx 1).foldl
      (fun scope step => engine.step (.statement i step.2) scope step.1) sources) name =
        baseRelation base := by
  simp only [deleteReinsertSteps, List.zipIdx_cons, List.zipIdx_nil, List.foldl_cons,
    List.foldl_nil, Engine.step, Scope.insertInto, Scope.rewrite, Function.update_self,
    Function.update_of_ne hname.symm, hsources, hbase]
  refine congrArg (Relation.mk context.baseTable.columnNames) ?_
  funext occasion
  have hsame : (base.rows.filter fun row => engine.keeps (rowSight row) predicate).map
      (relabel context.baseTable.columnNames context.baseTable.columnNames) =
        base.rows.filter fun row => engine.keeps (rowSight row) predicate :=
    map_relabel_self fun row hrow => base.supported row (Multiset.mem_of_mem_filter hrow)
  calc (base.rows.filter fun row => ¬engine.keeps (rowSight row) predicate) +
        (base.rows.filter fun row => engine.keeps (rowSight row) predicate).map
          (relabel context.baseTable.columnNames context.baseTable.columnNames)
      = (base.rows.filter fun row => engine.keeps (rowSight row) predicate) +
          base.rows.filter fun row => ¬engine.keeps (rowSight row) predicate := by
        rw [hsame, add_comm]
    _ = base.rows := Multiset.filter_add_not _ _

/-- Every column is assigned itself. -/
theorem noopUpdate_holds {predicate : Option ExpressionNode} {signature : Signature}
    {name : String} (i : Nat) {sources : Scope V} (hsources : sources name = baseRelation base) :
    (([SetupStep.update name (identityAssignments signature) predicate].zipIdx 1).foldl
      (fun scope step => engine.step (.statement i step.2) scope step.1) sources) name =
        baseRelation base := by
  simp only [List.zipIdx_cons, List.zipIdx_nil, List.foldl_cons, List.foldl_nil, Engine.step,
    Scope.rewrite, Function.update_self, hsources]
  refine congrArg (Relation.mk context.baseTable.columnNames) ?_
  funext occasion
  calc _ = base.rows.map id := by
        apply Multiset.map_congr rfl
        intro row _
        split
        · funext column
          split
          · next assignment hfind =>
              have hmem := List.mem_of_find?_eq_some hfind
              obtain ⟨named, -, rfl⟩ := List.mem_map.mp hmem
              have hcolumn : named.name = column := by
                simpa using List.find?_some hfind
              rw [← hcolumn]
              rfl
          · rfl
        · rfl
    _ = base.rows := Multiset.map_id _

theorem leads_mutationPredicate : Leads s (mutationPredicate context) fun _ _ => True := by
  refine leads_generatedPredicate.bind ?_
  intro generated s₁ _ _
  cases generated with
  | some predicate => exact Leads.pure trivial
  | none => exact leads_pickIntegerKey.bind fun _ _ _ _ => Leads.pure trivial

/-- A relation of the base rows answers a request that asks for nothing else. -/
theorem keeps_restoring {b : EquivalenceBuilder} {relationClass : RelationClass}
    (hclass : b.resultType = .relation relationClass)
    (hsupported : b.supportedConstraintTypes ⊆ [.acceptsDml, .exposedName])
    (h : ∀ recurse constraints s, Answering engine base scope pool recurse →
      (∀ name ∈ constraints.exposedName, name ≠ context.baseTable.getSqlName true) →
        Leads s (b.build recurse constraints) (Restores engine base scope constraints s)) :
    Keeps engine base scope pool b := by
  intro recurse hrecurse constraints hproper htypes _ s
  have hasked := List.Subset.trans htypes hsupported
  rw [hclass]
  apply (h recurse constraints s hrecurse hproper.exposed).mono
  intro node s' _ hrestores
  have hfits := @Plain.fits _ engine _ base _
    (plain_of_unsupported hasked (by decide) (by decide) (by decide))
  rw [rowFilter_eq_none hasked (by decide), passing_none] at hfits
  exact ⟨⟨_, hrestores.holds, hfits⟩, hrestores.fresh⟩

variable (hsituated : Situated context base scope)

include hsituated

theorem keeps_baseTableSourceBuilder :
    Keeps engine base scope pool (baseTableSourceBuilder context) := by
  intro recurse _ constraints _ htypes _ s
  have hasked : constraintTypes constraints ⊆ [.singleSource] := htypes
  apply leads_newNode
  intro i s' _
  have hfits := @Plain.fits _ engine _ base _
    (plain_of_unsupported hasked (by decide) (by decide) (by decide))
  rw [rowFilter_eq_none hasked (by decide), passing_none] at hfits
  refine ⟨baseRelation base, ⟨?_, ?_, fun _ => rfl⟩, hfits⟩
  · exact holdsBase_baseTable i hsituated.reads
  · exact Table.names_getSignature context.baseTable

/-- A table of the base rows, and statements on it that leave them as they are. -/
theorem leads_mutatedTable {relationClass : RelationClass} {steps : String → List SetupStep}
    {query : EqNode} (hquery : QueryHolds engine base scope (baseRelation base) query)
    (hexposed : ∀ name ∈ constraints.exposedName, name ≠ context.baseTable.getSqlName true)
    (hsteps : ∀ name i (sources : Scope V), sources name = baseRelation base →
      sources (context.baseTable.getSqlName true) = baseRelation base →
        name ≠ context.baseTable.getSqlName true →
          (((steps name).zipIdx 1).foldl (fun scope step =>
            engine.step (.statement i step.2) scope step.1) sources) name = baseRelation base) :
    Leads s (mutatedTable context relationClass steps query constraints.exposedName)
      (Restores engine base scope constraints s) := by
  obtain ⟨⟨j, body, inputs, rfl⟩, hmeaning, hsignature, hreadable⟩ := hquery
  refine (leads_exposedOrMinted (.inr rfl) hexposed).bind ?_
  rintro name s₁ _ ⟨hname, hfresh⟩
  apply leads_newNode
  intro i s₂ hle
  refine ⟨⟨?_, hsignature, fun heq => absurd heq hname⟩, ?_⟩
  · have hbase : scopeFrom engine scope [.mk j (.query body) inputs]
        (context.baseTable.getSqlName true) = baseRelation base := by
      rw [← hsituated.reads]
      apply extend_same
      rw [hsituated.reads]
      intro entry hentry
      apply hreadable entry
      simpa [visibleFrom] using hentry
    have hcreated : engine.created (scopeFrom engine scope [.mk j (.query body) inputs])
        (.statement i 0) ⟨false, name, "TABLE", body⟩ = baseRelation base := by
      rw [relationOf_query] at hmeaning
      rw [scopeFrom_query]
      have hcolumns := congrArg Relation.columns hmeaning
      have hrows := congrArg Relation.rows hmeaning
      refine congrArg₂ Relation.mk hcolumns ?_
      funext occasion
      exact congrFun hrows (.statement i 0)
    rw [Denotes, meaning_relation]
    have hafter := hsteps name i (Function.update
      (scopeFrom engine scope [.mk j (.query body) inputs]) name (baseRelation base))
      (Function.update_self _ _ _) (by rw [Function.update_of_ne hname.symm, hbase]) hname
    rw [← hcreated] at hafter
    exact congrArg (fun relation => (⟨relation, [(name, relation)]⟩ : Meaning V))
      (hafter.trans hcreated)
  · intro hnone
    exact ⟨(hfresh hnone).1, (hfresh hnone).2.mono hle⟩

variable {recurse : BuildSubtree} (hrecurse : Answering engine base scope pool recurse)
variable (hexposed : ∀ name ∈ constraints.exposedName, name ≠ context.baseTable.getSqlName true)

include hrecurse hexposed

theorem leads_deleteReinsertTable :
    Leads s (deleteReinsertTable recurse context constraints)
      (Restores engine base scope constraints s) := by
  refine (leads_baseQuery hrecurse).bind ?_
  intro query s₁ hle₁ hquery
  refine leads_mutationPredicate.bind ?_
  intro predicate s₂ hle₂ _
  apply (leads_mutatedTable hsituated hquery hexposed ?_).mono
  · exact fun node s₃ _ hnode => hnode.before (hle₁.trans hle₂)
  · intro name i sources hsources hbase hname
    rw [hquery.signature]
    exact deleteReinsertSteps_holds i hsources hbase hname

theorem leads_noopUpdateTable :
    Leads s (noopUpdateTable recurse context constraints)
      (Restores engine base scope constraints s) := by
  refine (leads_baseQuery hrecurse).bind ?_
  intro query s₁ hle₁ hquery
  refine Leads.bind (Q := fun _ _ => True) (Leads.guard fun _ => trivial) ?_
  intro _ s₂ hle₂ _
  refine leads_mutationPredicate.bind ?_
  intro predicate s₃ hle₃ _
  apply (leads_mutatedTable hsituated hquery hexposed ?_).mono
  · exact fun node s₄ _ hnode => hnode.before ((hle₁.trans hle₂).trans hle₃)
  · intro name i sources hsources _ _
    exact noopUpdate_holds i hsources

omit hrecurse hexposed

theorem keeps_createBuilders :
    ∀ b ∈ createBuilders context, Keeps engine base scope pool b := by
  simp only [createBuilders, List.forall_mem_cons]
  refine ⟨?_, ?_, ?_, ?_, ?_, ?_, ?_, List.forall_mem_nil _⟩
  · exact keeps_createBuilder wraps_createView (by decide) (by decide)
  · exact keeps_createBuilder wraps_createTable (by decide) fun _ => rfl
  · exact keeps_createBuilder wraps_createTemporaryView (by decide) (by decide)
  · exact keeps_createBuilder wraps_createTemporaryTable (by decide) fun _ => rfl
  · exact keeps_createBuilder wraps_wrapMaterializedView (by decide) (by decide)
  · exact keeps_restoring rfl (List.Subset.refl _) fun recurse constraints s hrecurse hexposed =>
      leads_deleteReinsertTable hsituated hrecurse hexposed
  · exact keeps_restoring rfl (List.Subset.refl _) fun recurse constraints s hrecurse hexposed =>
      leads_noopUpdateTable hsituated hrecurse hexposed

theorem keeps_selectBuilders :
    ∀ b ∈ selectBuilders context, Keeps engine base scope pool b := by
  simp only [selectBuilders, List.forall_mem_cons]
  refine ⟨?_, ?_, ?_, ?_, ?_, ?_, ?_, ?_, ?_, ?_, List.forall_mem_nil _⟩
  · exact keeps_filtering rfl (List.Subset.refl _) fun _ _ _ h => leads_selectStarQuery h
  · exact keeps_filtering rfl (List.Subset.refl _) fun _ _ _ h => leads_explicitProjectionQuery h
  · exact keeps_filtering rfl (List.Subset.refl _) fun _ _ _ h => leads_readThroughCte h
  · exact keeps_plainQueryBuilder rfl fun _ _ h => leads_lateralReprojectQuery h
  · exact keeps_filtering rfl (List.Subset.refl _) fun _ _ _ h => leads_readThroughCte h
  · exact keeps_filtering rfl (List.Subset.refl _) fun _ _ _ h => leads_readThroughCte h
  · exact keeps_plainQueryBuilder rfl fun _ _ h => leads_addDropColumnQuery h hsituated
  · exact keeps_projectionQuery rfl rfl rfl rfl
  · exact keeps_plainQueryBuilder rfl fun _ _ h => leads_qualifyQuery h
  · exact keeps_plainQueryBuilder rfl fun _ _ h => leads_orderedScanQuery h

end Builders

end EqGen.Equivalence.ContractQueries
