import EqGen.Equivalence.ContractRewrites
import EqGen.Equivalence.Creations

/-! The portable builders mint the names of what they create, and never one for two objects. -/

namespace EqGen.Equivalence.ContractNames

open EqGen.Builder.Context
open EqGen.Builder.Promises
open EqGen.Core.Catalog
open EqGen.Equivalence.Ast
open EqGen.Equivalence.Builders.Base
open EqGen.Equivalence.Builders.Creates
open EqGen.Equivalence.Builders.DmlTables
open EqGen.Equivalence.Builders.Expansion
open EqGen.Equivalence.Builders.Joins
open EqGen.Equivalence.Builders.Partitioning
open EqGen.Equivalence.Builders.Rewrites
open EqGen.Equivalence.Builders.Selects
open EqGen.Equivalence.Context
open EqGen.Equivalence.ContractRewrites
open EqGen.Equivalence.ContractSteps
open EqGen.Equivalence.Creations
open EqGen.Equivalence.Factory
open EqGen.Equivalence.Forks
open EqGen.Equivalence.Names
open EqGen.Equivalence.Renamed
open EqGen.Equivalence.Renaming
open EqGen.Equivalence.Semantics
open EqGen.Ir.Expr hiding ExpressionNode
open EqGen.Lib.Ascent
open EqGen.Lib.Backtrack
open EqGen.Lib.Dag

variable {context : EquivalenceContext} {pool : List EquivalenceBuilder} {stems : List String}
variable {s : GenerationState} {exposed exposedName : Option String}
variable {held rest : List EqNode}

section Names

theorem leads_minted {stem : String} (hstem : stem ∈ stems) :
    Leads s (generateObjectName stem) fun name s' => Minted stems s s' name := by
  have hup : ∀ other, s.objectCounters other ≤
      Function.update s.objectCounters stem (s.objectCounters stem + 1) other := by
    intro other
    by_cases hother : other = stem
    · subst hother
      simp
    · simp [hother]
  refine Leads.step rfl hup ⟨stem, hstem, s.objectCounters stem + 1, Nat.lt_succ_self _, ?_, rfl⟩
  simp

theorem leads_generateColumnName (stem : String) :
    Leads s (generateColumnName stem) fun _ _ => True :=
  (leads_minted (List.mem_singleton_self stem)).mono fun _ _ _ _ => trivial

/-- The name that was asked for, or one of its own. -/
theorem leads_named (hstems : objectStems context.baseTable ⊆ stems)
    (hexposed : ∀ name ∈ exposedName, Unminted stems name) {kind : String}
    (hkind : kind = "view" ∨ kind = "table") :
    Leads s (exposedOrMinted context kind exposedName) fun name s' =>
      name ∈ exposedName ∧ Unminted stems name ∨ Minted stems s s' name := by
  have hminted : Leads s (mint context kind) fun name s' =>
      name ∈ exposedName ∧ Unminted stems name ∨ Minted stems s s' name := by
    exact (leads_minted (hstems (mem_objectStems hkind))).mono fun _ _ _ h => .inr h
  cases exposedName with
  | none => exact hminted
  | some name =>
      by_cases hempty : name = ""
      · simp only [exposedOrMinted, if_pos hempty]
        exact hminted
      · simp only [exposedOrMinted, if_neg hempty]
        exact Leads.pure (.inl ⟨rfl, hexposed name rfl⟩)

end Names

section Nodes

theorem makes_query {shape : QueryShape} {sources : List EqNode} (hsources : sources ⊆ held)
    (hrest : rest ⊆ held) :
    Makes stems exposed held (newQuery shape sources) fun node => node :: rest :=
  .newNode rfl hsources hrest

theorem makes_selectQuery {source : EqNode} {query : SelectQuery} (hsource : source ∈ held)
    (hrest : rest ⊆ held) :
    Makes stems exposed held (selectQuery source query) fun node => node :: rest :=
  makes_query (by simpa using hsource) hrest

theorem makes_unionAllQuery {branches : List EqNode} (hbranches : branches ⊆ held)
    (hrest : rest ⊆ held) :
    Makes stems exposed held (unionAllQuery branches) fun node => node :: rest :=
  .require (makes_query hbranches hrest)

/-- A relation of which one statement introduces the name it was given. -/
theorem makes_named (hstems : objectStems context.baseTable ⊆ stems)
    (hexposed : ∀ name ∈ exposedName, Unminted stems name) {kind : String}
    (hkind : kind = "view" ∨ kind = "table") {label : String → Label} {inputs : List EqNode}
    (hlabel : ∀ name, namesOf (label name) = [name]) (hinputs : inputs ⊆ held)
    (hrest : rest ⊆ held) :
    Makes stems exposedName held (do
      let name ← exposedOrMinted context kind exposedName
      newNode (label name) inputs) fun node => node :: rest := by
  intro s₀ s hle h
  refine (leads_named hstems hexposed hkind).bind ?_
  intro name s' hle' hname
  refine Leads.step rfl (le_refl s'.objectCounters) ?_
  refine Named.widen (le_refl s₀.objectCounters) (le_refl s'.objectCounters)
    (h.cons hle hle' hinputs hrest ?_ ?_)
  · rw [hlabel]
    exact List.nodup_singleton name
  · rw [hlabel]
    intro other hother
    rw [List.mem_singleton.mp hother]
    exact hname

theorem makes_createAsSelect (hstems : objectStems context.baseTable ⊆ stems)
    (hexposed : ∀ name ∈ exposedName, Unminted stems name) {relationClass : RelationClass}
    {kind : ObjectKind} {keyword label : String} (hlabel : label = "view" ∨ label = "table")
    {query : EqNode} (hquery : query ∈ held) (hrest : rest ⊆ held) :
    Makes stems exposedName held
      (createAsSelect context relationClass kind keyword label query exposedName)
      fun node => node :: rest :=
  makes_named hstems hexposed hlabel (fun _ => rfl) (by simpa using hquery) hrest

theorem makes_createView (hstems : objectStems context.baseTable ⊆ stems)
    (hexposed : ∀ name ∈ exposedName, Unminted stems name) {query : EqNode}
    (hquery : query ∈ held) (hrest : rest ⊆ held) :
    Makes stems exposedName held (createView context query exposedName)
      fun node => node :: rest :=
  makes_createAsSelect hstems hexposed (.inl rfl) hquery hrest

/-- A view of its own. -/
theorem makes_ownView (hstems : objectStems context.baseTable ⊆ stems) {query : EqNode}
    (hquery : query ∈ held) (hrest : rest ⊆ held) :
    Makes stems none held (createView context query none) fun node => node :: rest :=
  makes_createView hstems (by simp) hquery hrest

/-- A table of its own. -/
theorem makes_ownTable (hstems : objectStems context.baseTable ⊆ stems) {query : EqNode}
    (hquery : query ∈ held) (hrest : rest ⊆ held) :
    Makes stems none held (createTable context query none) fun node => node :: rest :=
  makes_createAsSelect hstems (by simp) (.inr rfl) hquery hrest

end Nodes

section Requests

variable {recurse : BuildSubtree} {constraints : ConstraintSet}
variable (hrecurse : Answers (factoryOf context pool) (naming stems) recurse)

include hrecurse

theorem leads_request {requested : RequestType} (hexposed : constraints.exposedName = none) :
    Leads s (recurse requested constraints) fun node s' => Named stems none s [node] s' := by
  have hproper : (naming stems).proper constraints := by
    intro name hname
    rw [hexposed] at hname
    cases hname
  apply (hrecurse requested constraints hproper s).mono
  rintro node s' - ⟨c, -, -, -, hkept⟩
  have hnamed : Named stems constraints.exposedName s [node] s' := hkept
  rwa [hexposed] at hnamed

theorem makes_request {requested : RequestType} (hexposed : constraints.exposedName = none) :
    Makes stems none held (recurse requested constraints) fun node => node :: held := by
  intro s₀ s hle h
  apply (leads_request hrecurse hexposed).mono
  intro node s' hle' hnode
  exact h.append hle hle' hnode

theorem makes_optional {requested : RequestType} (hexposed : constraints.exposedName = none) :
    Makes stems none held (Attempt.optional (recurse requested constraints))
      fun node => node.toList ++ held := by
  intro s₀ s hle h
  apply Leads.optional
  · exact makes_request hrecurse hexposed s₀ s hle h
  · exact fun s' hle' => h.widen (le_refl s₀.objectCounters) hle'

theorem makes_dispatchSource :
    Makes stems none held (dispatchSource recurse constraints) fun node => node :: held :=
  makes_request hrecurse rfl

theorem makes_materializeRowKey (key : String) :
    Makes stems none held (materializeRowKey recurse context key)
      fun keyed => keyed.relation :: held := by
  unfold materializeRowKey
  cases passthroughItems context with
  | nil => exact .decline
  | cons first rest =>
      refine (makes_request hrecurse rfl).bind ?_
      intro keyed
      exact .pure _ (List.Subset.refl _)

/-- What comes after the key column got its name and its table. -/
theorem makes_keyed {stem : String} {make : String → KeyedRelation → Gen EqNode}
    (hmake : ∀ key keyed, Makes stems exposed [keyed.relation] (make key keyed)
      fun node => [node]) :
    Makes stems exposed [] (do
      let key ← generateColumnName stem
      let keyed ← materializeRowKey recurse context key
      make key keyed) fun node => [node] := by
  refine .after (fun _ => leads_generateColumnName stem) ?_
  intro key _
  refine (makes_materializeRowKey hrecurse key).bind ?_
  intro keyed
  exact hmake key keyed

theorem makes_bothSides (hexposed : constraints.exposedName = none) :
    Makes stems none [] (bothSides recurse constraints) fun sides => [sides.2, sides.1] := by
  refine (makes_optional hrecurse rfl).bind ?_
  intro left
  refine (makes_optional hrecurse hexposed).bind ?_
  intro right
  cases left with
  | none => exact .decline
  | some left =>
      cases right with
      | none => exact .decline
      | some right => exact .pure _ (List.Subset.refl _)

/-- A query over both sides. -/
theorem makes_overBothSides (hexposed : constraints.exposedName = none)
    {make : EqNode × EqNode → Gen EqNode}
    (hmake : ∀ sides, Makes stems exposed [sides.2, sides.1] (make sides) fun node => [node]) :
    Makes stems exposed [] (bothSides recurse constraints >>= make) fun node => [node] :=
  (makes_bothSides hrecurse hexposed).bind hmake

end Requests

variable (stems context pool) in
/-- With its requests answered so, the body returns a node whose names are its own, and apart. -/
def Tidy (build : BuildSubtree → ConstraintSet → Gen EqNode) : Prop :=
  ∀ recurse, Answers (factoryOf context pool) (naming stems) recurse →
    ∀ constraints, (∀ name ∈ constraints.exposedName, Unminted stems name) →
      Makes stems constraints.exposedName [] (build recurse constraints) fun node => [node]

section Creates

theorem tidy_createFromQuery {wrap : EqNode → Option String → Gen EqNode}
    (hwrap : ∀ query exposedName, (∀ name ∈ exposedName, Unminted stems name) →
      Makes stems exposedName [query] (wrap query exposedName) fun node => [node]) :
    Tidy context pool stems fun recurse => createFromQuery recurse wrap := by
  intro recurse hrecurse constraints hexposed
  refine (makes_request hrecurse rfl).bind ?_
  intro query
  exact hwrap query constraints.exposedName hexposed

theorem leads_mutationPredicate : Leads s (mutationPredicate context) fun _ _ => True := by
  refine leads_generatedPredicate.bind ?_
  intro generated s₁ _ _
  cases generated with
  | some predicate => exact Leads.pure trivial
  | none => exact leads_pickIntegerKey.bind fun _ _ _ _ => Leads.pure trivial

variable (hstems : objectStems context.baseTable ⊆ stems)

include hstems

theorem makes_wrapMaterializedView {query : EqNode}
    (hexposed : ∀ name ∈ exposedName, Unminted stems name) :
    Makes stems exposedName [query] (wrapMaterializedView context query exposedName)
      fun node => [node] := by
  refine (makes_ownTable hstems List.mem_cons_self (List.nil_subset _)).bind ?_
  intro body
  refine (makes_selectQuery List.mem_cons_self (List.nil_subset _)).bind ?_
  intro all
  exact makes_createAsSelect hstems hexposed (.inl rfl) List.mem_cons_self (List.nil_subset _)

theorem makes_mutatedTable (hexposed : ∀ name ∈ exposedName, Unminted stems name)
    {relationClass : RelationClass} {steps : String → List SetupStep}
    (hsteps : ∀ name, (steps name).filterMap introduced = []) {query : EqNode} :
    Makes stems exposedName [query] (mutatedTable context relationClass steps query exposedName)
      fun node => [node] := by
  apply makes_named hstems hexposed (.inr rfl)
  · intro name
    show name :: (steps name).filterMap introduced = [name]
    rw [hsteps]
  · exact List.Subset.refl _
  · exact List.nil_subset _

theorem tidy_deleteReinsertTable :
    Tidy context pool stems fun recurse => deleteReinsertTable recurse context := by
  intro recurse hrecurse constraints hexposed
  refine (makes_request hrecurse rfl).bind ?_
  intro query
  refine .after (fun _ => leads_mutationPredicate) ?_
  intro predicate _
  exact makes_mutatedTable hstems hexposed fun _ => rfl

theorem tidy_noopUpdateTable :
    Tidy context pool stems fun recurse => noopUpdateTable recurse context := by
  intro recurse hrecurse constraints hexposed
  refine (makes_request hrecurse rfl).bind ?_
  intro query
  apply Makes.guard
  refine .after (fun _ => leads_mutationPredicate) ?_
  intro predicate _
  exact makes_mutatedTable hstems hexposed fun _ => rfl

end Creates

section Selects

theorem tidy_baseTableSource :
    Tidy context pool stems fun _ _ => baseTableSource context := by
  intro recurse hrecurse constraints hexposed
  exact .newNode rfl (List.Subset.refl _) (List.Subset.refl _)

theorem tidy_selectStarQuery : Tidy context pool stems selectStarQuery := by
  intro recurse hrecurse constraints hexposed
  refine (makes_dispatchSource hrecurse).bind ?_
  intro source
  exact makes_selectQuery List.mem_cons_self (List.nil_subset _)

theorem tidy_projectionQuery : Tidy context pool stems projectionQuery := by
  intro recurse hrecurse constraints hexposed
  refine (makes_dispatchSource hrecurse).bind ?_
  intro source
  cases constraints.columnRewrite with
  | none => exact .raise _
  | some items => exact makes_selectQuery List.mem_cons_self (List.nil_subset _)

theorem tidy_explicitProjectionQuery :
    Tidy context pool stems fun recurse => explicitProjectionQuery recurse context := by
  intro recurse hrecurse constraints hexposed
  apply Makes.guard
  refine (makes_dispatchSource hrecurse).bind ?_
  intro source
  exact makes_selectQuery List.mem_cons_self (List.nil_subset _)

theorem tidy_readThroughCte (suffix : String) (materialize : Option Bool) :
    Tidy context pool stems fun recurse =>
      readThroughCte recurse context suffix materialize := by
  intro recurse hrecurse constraints hexposed
  refine (makes_dispatchSource hrecurse).bind ?_
  intro source
  refine .after (fun _ => leads_generateColumnName _) ?_
  intro name _
  exact makes_query (List.Subset.refl _) (List.nil_subset _)

theorem tidy_lateralReprojectQuery :
    Tidy context pool stems fun recurse _ => lateralReprojectQuery recurse := by
  intro recurse hrecurse constraints hexposed
  refine (makes_dispatchSource hrecurse).bind ?_
  intro source
  apply Makes.guard
  exact makes_query (List.Subset.refl _) (List.nil_subset _)

theorem tidy_addDropColumnQuery (hstems : objectStems context.baseTable ⊆ stems) :
    Tidy context pool stems fun recurse _ => addDropColumnQuery recurse context := by
  intro recurse hrecurse constraints hexposed
  apply Makes.guard
  refine (makes_dispatchSource hrecurse).bind ?_
  intro source
  refine .after (fun _ => leads_generateColumnName _) ?_
  intro extraName _
  refine (makes_selectQuery List.mem_cons_self (List.nil_subset _)).bind ?_
  intro query
  refine (makes_ownView hstems List.mem_cons_self (List.nil_subset _)).bind ?_
  intro wider
  exact makes_selectQuery List.mem_cons_self (List.nil_subset _)

theorem tidy_selectOrdered (query : List ProjectionItem → ExpressionNode → SelectQuery) :
    Tidy context pool stems fun recurse _ => selectOrdered recurse context query := by
  intro recurse hrecurse constraints hexposed
  unfold selectOrdered
  cases passthroughItems context with
  | nil => exact .decline
  | cons first rest =>
      refine (makes_dispatchSource hrecurse).bind ?_
      intro source
      exact makes_selectQuery List.mem_cons_self (List.nil_subset _)

theorem tidy_qualifyQuery : Tidy context pool stems fun recurse _ => qualifyQuery recurse context :=
  tidy_selectOrdered _

theorem tidy_orderedScanQuery :
    Tidy context pool stems fun recurse _ => orderedScanQuery recurse context :=
  tidy_selectOrdered _

theorem tidy_distinctAsGroupByQuery :
    Tidy context pool stems fun recurse _ => distinctAsGroupByQuery recurse context := by
  intro recurse hrecurse constraints hexposed
  apply makes_keyed hrecurse
  intro key keyed
  apply Makes.guard
  exact makes_selectQuery List.mem_cons_self (List.nil_subset _)

end Selects

section Partitioning

variable {recurse : BuildSubtree}

/-- The branches come into hand in the other order. -/
theorem makes_filteredBranches
    (hrecurse : Answers (factoryOf context pool) (naming stems) recurse)
    (current : Option ExpressionNode) (predicates : List ExpressionNode) :
    Makes stems none held (filteredBranches recurse current predicates)
      fun branches => branches.reverse ++ held := by
  induction predicates generalizing held with
  | nil => exact .pure _ (List.Subset.refl _)
  | cons predicate rest ih =>
      refine (makes_request hrecurse rfl).bind ?_
      intro branch
      refine ih.bind ?_
      intro branches
      apply Makes.pure
      intro node hnode
      simpa using hnode

theorem makes_unionOfBranches (branches : List EqNode) :
    Makes stems exposed (branches.reverse ++ held) (unionAllQuery branches)
      fun node => [node] := by
  apply makes_unionAllQuery _ (List.nil_subset _)
  intro node hnode
  simp [hnode]

theorem tidy_partitionUnionQuery :
    Tidy context pool stems fun recurse => partitionUnionQuery recurse context := by
  intro recurse hrecurse constraints hexposed
  refine .after (fun _ => leads_pickIntegerKey) ?_
  intro picked _
  apply Makes.fromOption
  intro key _
  refine (makes_filteredBranches hrecurse _ _).bind ?_
  intro branches
  exact makes_unionOfBranches branches

theorem tidy_tlpPartitionUnionQuery :
    Tidy context pool stems fun recurse => tlpPartitionUnionQuery recurse context := by
  intro recurse hrecurse constraints hexposed
  refine .after (fun _ => leads_generatedPredicate) ?_
  intro generated _
  apply Makes.fromOption
  intro predicate _
  refine (makes_filteredBranches hrecurse _ _).bind ?_
  intro branches
  exact makes_unionOfBranches branches

theorem makes_residueViews (hstems : objectStems context.baseTable ⊆ stems)
    {keyed : KeyedRelation} {rankName : String} {modulus : Nat} (residues : List Nat)
    (hkeyed : keyed.relation ∈ held) :
    Makes stems none held (residueViews context keyed rankName modulus residues)
      fun views => views.reverse ++ held := by
  induction residues generalizing held with
  | nil => exact .pure _ (List.Subset.refl _)
  | cons residue rest ih =>
      refine (makes_selectQuery hkeyed (List.Subset.refl _)).bind ?_
      intro query
      refine (makes_ownView hstems List.mem_cons_self (List.subset_cons_self _ _)).bind ?_
      intro view
      refine (ih (List.mem_cons_of_mem view hkeyed)).bind ?_
      intro views
      apply Makes.pure
      intro node hnode
      simpa using hnode

theorem tidy_rankModUnionQuery (hstems : objectStems context.baseTable ⊆ stems) :
    Tidy context pool stems fun recurse _ => rankModUnionQuery recurse context := by
  intro recurse hrecurse constraints hexposed
  refine .after (fun _ => leads_randomChoice rankModuli) ?_
  intro modulus _
  apply makes_keyed hrecurse
  intro key keyed
  apply Makes.guard
  refine (makes_residueViews hstems _ (List.mem_singleton_self _)).bind ?_
  intro views
  exact makes_unionOfBranches views

/-- A query over both sides takes them in. -/
theorem makes_newQuery_both {shape : QueryShape} {left right : EqNode} :
    Makes stems exposed [right, left] (newQuery shape [left, right]) fun node => [node] :=
  makes_query (List.Perm.swap _ _ _).subset (List.nil_subset _)

theorem tidy_unionEmptyRoundTrip :
    Tidy context pool stems fun recurse _ => unionEmptyRoundTrip recurse := by
  intro recurse hrecurse constraints hexposed
  apply makes_overBothSides hrecurse rfl
  intro sides
  exact makes_unionAllQuery (List.Perm.swap _ _ _).subset (List.nil_subset _)

theorem tidy_exceptEmptyRoundTrip :
    Tidy context pool stems fun recurse _ => exceptEmptyRoundTrip recurse := by
  intro recurse hrecurse constraints hexposed
  apply makes_overBothSides hrecurse rfl
  intro sides
  exact makes_newQuery_both

theorem tidy_intersectSelfRoundTrip :
    Tidy context pool stems fun recurse _ => intersectSelfRoundTrip recurse := by
  intro recurse hrecurse constraints hexposed
  apply makes_overBothSides hrecurse rfl
  intro sides
  exact makes_newQuery_both

theorem tidy_distinctUnionDuplicateQuery (hstems : objectStems context.baseTable ⊆ stems) :
    Tidy context pool stems fun recurse _ => distinctUnionDuplicateQuery recurse context := by
  intro recurse hrecurse constraints hexposed
  apply Makes.guard
  apply Makes.guard
  apply makes_keyed hrecurse
  intro key keyed
  apply Makes.guard
  refine (makes_unionAllQuery (by simp) (List.nil_subset _)).bind ?_
  intro twice
  refine (makes_ownTable hstems List.mem_cons_self (List.nil_subset _)).bind ?_
  intro doubled
  refine (makes_selectQuery List.mem_cons_self (List.nil_subset _)).bind ?_
  intro once
  refine (makes_ownTable hstems List.mem_cons_self (List.nil_subset _)).bind ?_
  intro deduped
  exact makes_selectQuery List.mem_cons_self (List.nil_subset _)

end Partitioning

section Rewrites

variable {V : Type} (engine : Engine V)

theorem tidy_columnRewriteQuery {columnRewriter : Gen ColumnRewriter}
    (hrewriter : ∀ s, Leads s columnRewriter fun rewrite _ => Faithful engine rewrite) :
    Tidy context pool stems fun recurse _ => columnRewriteQuery recurse context columnRewriter := by
  intro recurse hrecurse constraints hexposed
  refine .after hrewriter ?_
  intro rewrite hrewrite
  refine .after (P := fun _ => True) (fun _ => ?_) ?_
  · exact (leads_rewriteItems hrewrite _).mono fun _ _ _ _ => trivial
  · intro items _
    apply Makes.guard
    refine (makes_dispatchSource hrecurse).bind ?_
    intro source
    exact makes_selectQuery List.mem_cons_self (List.nil_subset _)

include engine in
theorem tidy_eetDeterminedFilterQuery :
    Tidy context pool stems fun recurse => eetDeterminedFilterQuery recurse context := by
  intro recurse hrecurse constraints hexposed
  refine .after (fun _ => leads_freePredicate engine) ?_
  intro free _
  apply Makes.fromOption
  intro predicate _
  refine (makes_dispatchSource hrecurse).bind ?_
  intro source
  exact makes_selectQuery List.mem_cons_self (List.nil_subset _)

end Rewrites

section Joins

theorem tidy_leftJoinEmpty :
    Tidy context pool stems fun recurse _ => leftJoinEmpty recurse context := by
  intro recurse hrecurse constraints hexposed
  apply Makes.guard
  apply makes_overBothSides hrecurse rfl
  intro sides
  exact makes_newQuery_both

variable (hstems : objectStems context.baseTable ⊆ stems)

include hstems

/-- A table over the keyed relation, which stays in hand. -/
theorem makes_flagTable {keyed : KeyedRelation} {query : SelectQuery}
    {make : EqNode → Gen EqNode}
    (hmake : ∀ flagTable, Makes stems exposed [flagTable, keyed.relation] (make flagTable)
      fun node => [node]) :
    Makes stems exposed [keyed.relation] (do
      let flags ← selectQuery keyed.relation query
      let flagTable ← createTable context flags none
      make flagTable) fun node => [node] := by
  refine (makes_selectQuery List.mem_cons_self (List.Subset.refl _)).bind ?_
  intro flags
  refine (makes_ownTable hstems List.mem_cons_self (List.subset_cons_self _ _)).bind ?_
  intro flagTable
  exact hmake flagTable

theorem tidy_semiJoinFlagRoundTrip :
    Tidy context pool stems fun recurse _ => semiJoinFlagRoundTrip recurse context := by
  intro recurse hrecurse constraints hexposed
  apply makes_keyed hrecurse
  intro uid keyed
  apply Makes.guard
  apply makes_flagTable hstems
  intro flagTable
  exact makes_newQuery_both

theorem tidy_flagTableJoin :
    Tidy context pool stems fun recurse _ => flagTableJoin recurse context := by
  intro recurse hrecurse constraints hexposed
  refine .after (fun _ => leads_generateColumnName _) ?_
  intro uid _
  refine .after (fun _ => leads_generateColumnName _) ?_
  intro flag _
  refine (makes_materializeRowKey hrecurse uid).bind ?_
  intro keyed
  apply makes_flagTable hstems
  intro flagTable
  refine .after (fun _ => (leads_chooseOne _).mono fun _ _ _ _ => trivial)
    (P := fun _ => True) ?_
  intro joinType _
  exact makes_newQuery_both

theorem tidy_crossJoinFilterAsInner :
    Tidy context pool stems fun recurse _ => crossJoinFilterAsInner recurse context := by
  intro recurse hrecurse constraints hexposed
  apply makes_keyed hrecurse
  intro uid keyed
  apply Makes.guard
  apply makes_flagTable hstems
  intro flagTable
  exact makes_newQuery_both

theorem tidy_sequenceOuterJoin :
    Tidy context pool stems fun recurse _ => sequenceOuterJoin recurse context := by
  intro recurse hrecurse constraints hexposed
  apply makes_keyed hrecurse
  intro key keyed
  apply Makes.guard
  refine (makes_selectQuery List.mem_cons_self (List.Subset.refl _)).bind ?_
  intro left
  refine (makes_ownView hstems List.mem_cons_self (List.subset_cons_self _ _)).bind ?_
  intro left
  refine (makes_selectQuery (List.mem_cons_of_mem _ List.mem_cons_self)
    (List.Subset.refl _)).bind ?_
  intro right
  refine (makes_ownView hstems List.mem_cons_self (List.subset_cons_self _ _)).bind ?_
  intro right
  exact makes_query (by simp) (List.nil_subset _)

end Joins

section Expansions

/-- Writing to a table introduces nothing. -/
theorem makes_insertExtrasExpansion {child : EqNode} {insert : SetupStep}
    (hinsert : introduced insert = none) :
    Makes stems exposed [child] (insertExtrasExpansion child insert) fun node => [node] := by
  refine .newNode ?_ (List.Subset.refl _) (List.nil_subset _)
  simp [namesOf, stepsOf, hinsert]

theorem tidy_tagInsertExtrasExpansion :
    Tidy context pool stems fun recurse => tagInsertExtrasExpansion recurse context := by
  intro recurse hrecurse constraints hexposed
  apply Makes.fromOption
  intro channel _
  apply Makes.guard
  refine (makes_request hrecurse rfl).bind ?_
  intro child
  exact makes_insertExtrasExpansion rfl

theorem tidy_keyInsertExtrasExpansion : Tidy context pool stems keyInsertExtrasExpansion := by
  intro recurse hrecurse constraints hexposed
  apply Makes.fromOption
  intro channel _
  refine (makes_request hrecurse rfl).bind ?_
  intro child
  exact makes_insertExtrasExpansion rfl

section Children

variable {recurse : BuildSubtree}
variable (hrecurse : Answers (factoryOf context pool) (naming stems) recurse)

include hrecurse

theorem makes_buildReduced (requiresDml : Bool) :
    Makes stems none [] (buildReduced recurse context requiresDml)
      fun built => [built.child] := by
  apply Makes.guard
  refine .after (fun _ => leads_generateColumnName _) ?_
  intro tagCol _
  refine (makes_request hrecurse rfl).bind ?_
  intro child
  exact .pure _ (List.Subset.refl _)

theorem makes_buildKeyed :
    Makes stems none [] (buildKeyed recurse context) fun built => [built.child] := by
  apply Makes.guard
  refine .after (fun _ => leads_generateColumnName _) ?_
  intro keyCol _
  refine (makes_request hrecurse rfl).bind ?_
  intro child
  exact .pure _ (List.Subset.refl _)

end Children

variable (hstems : objectStems context.baseTable ⊆ stems)

include hstems

theorem tidy_tagExplodeExpansion :
    Tidy context pool stems fun recurse => tagExplodeExpansion recurse context := by
  intro recurse hrecurse constraints hexposed
  apply Makes.fromOption
  intro channel _
  apply Makes.guard
  refine (makes_request hrecurse rfl).bind ?_
  intro kept
  refine (makes_selectQuery List.mem_cons_self (List.Subset.refl _)).bind ?_
  intro thrown
  refine (makes_ownTable hstems List.mem_cons_self (List.subset_cons_self _ _)).bind ?_
  intro thrown
  refine .after (P := fun _ => True)
    (fun _ => (leads_chooseOne _).mono fun _ _ _ _ => trivial) ?_
  intro rowcount _
  by_cases hsingle : (kept :: List.replicate (rowcount - 1) thrown).length = 1
  · simp only [hsingle, if_true]
    refine (makes_selectQuery (by simp) (List.nil_subset _)).bind ?_
    intro query
    exact (makes_ownTable hstems List.mem_cons_self (List.nil_subset _)).of_none
  · simp only [hsingle, if_false]
    refine (makes_unionAllQuery ?_ (List.nil_subset _)).bind ?_
    · intro node hnode
      simp only [List.mem_cons, List.mem_replicate] at hnode ⊢
      rcases hnode with rfl | ⟨-, rfl⟩
      · simp
      · simp
    · intro query
      exact (makes_ownTable hstems List.mem_cons_self (List.nil_subset _)).of_none

theorem tidy_keyExplodeExpansion :
    Tidy context pool stems fun recurse => keyExplodeExpansion recurse context := by
  intro recurse hrecurse constraints hexposed
  apply Makes.fromOption
  intro channel _
  refine (makes_materializeRowKey hrecurse _).bind ?_
  intro keyed
  refine .after (P := fun _ => True)
    (fun _ => (leads_chooseOne _).mono fun _ _ _ _ => trivial) ?_
  intro rowcount _
  refine (makes_unionAllQuery ?_ (List.nil_subset _)).bind ?_
  · intro node hnode
    rw [(List.mem_replicate.mp hnode).2]
    exact List.mem_cons_self
  · intro query
    exact (makes_ownTable hstems List.mem_cons_self (List.nil_subset _)).of_none

theorem tidy_tagPruneDeleteReduce :
    Tidy context pool stems fun recurse => tagPruneDeleteReduce recurse context := by
  intro recurse hrecurse constraints hexposed
  refine (makes_buildReduced hrecurse true).bind ?_
  intro built
  exact makes_named hstems hexposed (.inl rfl) (fun _ => rfl) (List.Subset.refl _)
    (List.nil_subset _)

theorem tidy_tagPruneFilterReduce :
    Tidy context pool stems fun recurse => tagPruneFilterReduce recurse context := by
  intro recurse hrecurse constraints hexposed
  refine (makes_buildReduced hrecurse false).bind ?_
  intro built
  refine (makes_selectQuery List.mem_cons_self (List.nil_subset _)).bind ?_
  intro query
  exact makes_createView hstems hexposed List.mem_cons_self (List.nil_subset _)

theorem makes_collapse {built : Expanded} {query : SelectQuery} {constraints : ConstraintSet}
    (hexposed : ∀ name ∈ constraints.exposedName, Unminted stems name) :
    Makes stems constraints.exposedName [built.child] (collapse context built query constraints)
      fun node => [node] := by
  refine (makes_selectQuery List.mem_cons_self (List.nil_subset _)).bind ?_
  intro query
  refine (makes_ownView hstems List.mem_cons_self (List.nil_subset _)).bind ?_
  intro collapsed
  refine (makes_selectQuery List.mem_cons_self (List.nil_subset _)).bind ?_
  intro outer
  exact makes_createView hstems hexposed List.mem_cons_self (List.nil_subset _)

theorem tidy_keyDistinctReduce :
    Tidy context pool stems fun recurse => keyDistinctReduce recurse context := by
  intro recurse hrecurse constraints hexposed
  apply Makes.guard
  apply Makes.guard
  refine (makes_buildKeyed hrecurse).bind ?_
  intro built
  exact makes_collapse hstems hexposed

theorem tidy_keyGroupAggregateReduce :
    Tidy context pool stems fun recurse => keyGroupAggregateReduce recurse context := by
  intro recurse hrecurse constraints hexposed
  refine (makes_buildKeyed hrecurse).bind ?_
  intro built
  refine (makes_selectQuery List.mem_cons_self (List.nil_subset _)).bind ?_
  intro query
  exact makes_createView hstems hexposed List.mem_cons_self (List.nil_subset _)

theorem tidy_keyWindowAggregateReduce :
    Tidy context pool stems fun recurse => keyWindowAggregateReduce recurse context := by
  intro recurse hrecurse constraints hexposed
  apply Makes.guard
  apply Makes.guard
  refine (makes_buildKeyed hrecurse).bind ?_
  intro built
  exact makes_collapse hstems hexposed

theorem tidy_keyQualifyDedupReduce :
    Tidy context pool stems fun recurse => keyQualifyDedupReduce recurse context := by
  intro recurse hrecurse constraints hexposed
  refine (makes_buildKeyed hrecurse).bind ?_
  intro built
  exact makes_collapse hstems hexposed

end Expansions

section Builders

variable (context pool stems) in
/-- The builder mints the names of what it creates, as long as the others do. -/
def KeepsNames (b : EquivalenceBuilder) : Prop :=
  KeepsPromise (factoryOf context pool) (naming stems) b

theorem keepsNames_of_tidy {b : EquivalenceBuilder} (h : Tidy context pool stems b.build) :
    KeepsNames context pool stems b := by
  intro recurse hrecurse constraints hproper _ _ s
  exact h recurse hrecurse constraints hproper s s (le_refl s.objectCounters) (.nothing stems s s)

variable (hstems : objectStems context.baseTable ⊆ stems)

include hstems

theorem keepsNames_createBuilders :
    ∀ b ∈ createBuilders context, KeepsNames context pool stems b := by
  have hcreate : ∀ {name relationClass supported kind keyword label hwrap},
      label = "view" ∨ label = "table" → KeepsNames context pool stems (createBuilder name
        relationClass supported
          (fun query exposed =>
            createAsSelect context relationClass kind keyword label query exposed) hwrap) := by
    intro _ _ _ _ _ _ _ hlabel
    apply keepsNames_of_tidy
    apply tidy_createFromQuery
    intro query exposedName hexposed
    exact makes_createAsSelect hstems hexposed hlabel List.mem_cons_self (List.nil_subset _)
  simp only [createBuilders, List.forall_mem_cons]
  refine ⟨?_, ?_, ?_, ?_, ?_, ?_, ?_, List.forall_mem_nil _⟩
  · exact hcreate (.inl rfl)
  · exact hcreate (.inr rfl)
  · exact hcreate (.inl rfl)
  · exact hcreate (.inr rfl)
  · apply keepsNames_of_tidy
    exact tidy_createFromQuery fun _ _ hexposed => makes_wrapMaterializedView hstems hexposed
  · exact keepsNames_of_tidy (tidy_deleteReinsertTable hstems)
  · exact keepsNames_of_tidy (tidy_noopUpdateTable hstems)

theorem keepsNames_selectBuilders :
    ∀ b ∈ selectBuilders context, KeepsNames context pool stems b := by
  simp only [selectBuilders, List.forall_mem_cons]
  refine ⟨?_, ?_, ?_, ?_, ?_, ?_, ?_, ?_, ?_, ?_, List.forall_mem_nil _⟩
  · exact keepsNames_of_tidy tidy_selectStarQuery
  · exact keepsNames_of_tidy tidy_explicitProjectionQuery
  · exact keepsNames_of_tidy (tidy_readThroughCte _ _)
  · exact keepsNames_of_tidy tidy_lateralReprojectQuery
  · exact keepsNames_of_tidy (tidy_readThroughCte _ _)
  · exact keepsNames_of_tidy (tidy_readThroughCte _ _)
  · exact keepsNames_of_tidy (tidy_addDropColumnQuery hstems)
  · exact keepsNames_of_tidy tidy_projectionQuery
  · exact keepsNames_of_tidy tidy_qualifyQuery
  · exact keepsNames_of_tidy tidy_orderedScanQuery

theorem keepsNames_partitioningBuilders :
    ∀ b ∈ partitioningBuilders context, KeepsNames context pool stems b := by
  simp only [partitioningBuilders, List.forall_mem_cons]
  refine ⟨?_, ?_, ?_, ?_, ?_, ?_, List.forall_mem_nil _⟩
  · exact keepsNames_of_tidy tidy_partitionUnionQuery
  · exact keepsNames_of_tidy tidy_tlpPartitionUnionQuery
  · exact keepsNames_of_tidy (tidy_rankModUnionQuery hstems)
  · exact keepsNames_of_tidy tidy_unionEmptyRoundTrip
  · exact keepsNames_of_tidy tidy_exceptEmptyRoundTrip
  · exact keepsNames_of_tidy tidy_intersectSelfRoundTrip

omit hstems in
theorem keepsNames_rewriteBuilders {V : Type} (engine : Engine V) :
    ∀ b ∈ rewriteBuilders context, KeepsNames context pool stems b := by
  have hrewrite : ∀ {name columnRewriter hsilent},
      (∀ s, Leads s columnRewriter fun rewrite _ => Faithful engine rewrite) →
        KeepsNames context pool stems (rewriteBuilder context name columnRewriter hsilent) :=
    fun h => keepsNames_of_tidy (tidy_columnRewriteQuery engine h)
  simp only [rewriteBuilders, List.forall_mem_cons]
  refine ⟨?_, ?_, ?_, ?_, ?_, ?_, ?_, List.forall_mem_nil _⟩
  · exact hrewrite fun _ => leads_codecRewriter fun _ => Leads.pure trivial
  · exact hrewrite fun _ => leads_codecRewriter fun _ => Leads.pure trivial
  · exact hrewrite fun _ => leads_codecRewriter fun _ => Leads.pure trivial
  · exact hrewrite fun _ => leads_codecRewriter fun _ => leads_perColumnPlan _ _
  · exact hrewrite fun _ => leads_eetCaseRewriter
  · exact keepsNames_of_tidy (tidy_eetDeterminedFilterQuery engine)
  · exact hrewrite fun _ => leads_windowRewriter

theorem keepsNames_joinBuilders :
    ∀ b ∈ joinBuilders context, KeepsNames context pool stems b := by
  simp only [joinBuilders, List.forall_mem_cons]
  refine ⟨?_, ?_, ?_, ?_, ?_, ?_, ?_, List.forall_mem_nil _⟩
  · exact keepsNames_of_tidy (tidy_flagTableJoin hstems)
  · exact keepsNames_of_tidy (tidy_sequenceOuterJoin hstems)
  · exact keepsNames_of_tidy tidy_leftJoinEmpty
  · exact keepsNames_of_tidy (tidy_semiJoinFlagRoundTrip hstems)
  · exact keepsNames_of_tidy (tidy_crossJoinFilterAsInner hstems)
  · exact keepsNames_of_tidy tidy_distinctAsGroupByQuery
  · exact keepsNames_of_tidy (tidy_distinctUnionDuplicateQuery hstems)

theorem keepsNames_expansionBuilders :
    ∀ b ∈ expansionBuilders context, KeepsNames context pool stems b := by
  simp only [expansionBuilders, List.forall_mem_cons]
  refine ⟨?_, ?_, ?_, ?_, ?_, ?_, ?_, ?_, ?_, ?_, List.forall_mem_nil _⟩
  · exact keepsNames_of_tidy (tidy_keyDistinctReduce hstems)
  · exact keepsNames_of_tidy (tidy_keyGroupAggregateReduce hstems)
  · exact keepsNames_of_tidy (tidy_keyWindowAggregateReduce hstems)
  · exact keepsNames_of_tidy (tidy_keyQualifyDedupReduce hstems)
  · exact keepsNames_of_tidy (tidy_keyExplodeExpansion hstems)
  · exact keepsNames_of_tidy tidy_keyInsertExtrasExpansion
  · exact keepsNames_of_tidy (tidy_tagPruneDeleteReduce hstems)
  · exact keepsNames_of_tidy (tidy_tagPruneFilterReduce hstems)
  · exact keepsNames_of_tidy (tidy_tagExplodeExpansion hstems)
  · exact keepsNames_of_tidy tidy_tagInsertExtrasExpansion

theorem keepsNames_portableBuilders {V : Type} (engine : Engine V) :
    ∀ b ∈ portableBuilders context, KeepsNames context pool stems b := by
  intro b hb
  simp only [portableBuilders, List.mem_append, List.mem_singleton] at hb
  rcases hb with (((((h | h) | h) | h) | h) | h) | rfl
  · exact keepsNames_createBuilders hstems b h
  · exact keepsNames_selectBuilders hstems b h
  · exact keepsNames_partitioningBuilders hstems b h
  · exact keepsNames_rewriteBuilders engine b h
  · exact keepsNames_joinBuilders hstems b h
  · exact keepsNames_expansionBuilders hstems b h
  · exact keepsNames_of_tidy tidy_baseTableSource

end Builders

end EqGen.Equivalence.ContractNames
