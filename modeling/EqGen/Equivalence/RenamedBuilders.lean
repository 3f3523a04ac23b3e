import EqGen.Equivalence.Renamed

/-! Every portable builder runs alike under a renaming of the minted names. -/

namespace EqGen.Equivalence.RenamedBuilders

open EqGen.Builder.Lockstep
open EqGen.Core.Catalog
open EqGen.Core.Types
open EqGen.Equivalence.Ast
open EqGen.Equivalence.Builders.Base
open EqGen.Equivalence.Builders.Creates
open EqGen.Equivalence.Builders.DmlTables
open EqGen.Equivalence.Builders.Expansion
open EqGen.Equivalence.Builders.Joins
open EqGen.Equivalence.Builders.Partitioning
open EqGen.Equivalence.Builders.Rewrites
open EqGen.Equivalence.Builders.Selects
open EqGen.Equivalence.Context
open EqGen.Equivalence.Factory
open EqGen.Equivalence.Renamed
open EqGen.Equivalence.Renaming
open EqGen.Ir.Expr hiding ExpressionNode
open EqGen.Lib.Backtrack
open EqGen.Lib.Coupling
open EqGen.Lib.Dag

variable {ρ : String → String} {ahead : String → Nat} {stems : List String}
variable {context : EquivalenceContext} {recurse recurse' : BuildSubtree}

/-- The two runs are answered alike. -/
def Answers (ρ : String → String) (ahead : String → Nat) (stems : List String)
    (context : EquivalenceContext) (recurse recurse' : BuildSubtree) : Prop :=
  ∀ requested constraints constraints', Mapped (renameConstraints ρ) constraints constraints' →
    Couples (Ahead ahead stems) (Twins ρ context) (recurse requested constraints)
      (recurse' requested constraints')

/-- The keyed relations of the two runs. -/
def KeyedTwins (ρ : String → String) (context : EquivalenceContext)
    (keyed keyed' : KeyedRelation) : Prop :=
  Twins ρ context keyed.relation keyed'.relation ∧ keyed'.baseItems = keyed.baseItems ∧
    keyed.baseItems = passthroughItems context

/-- The items of a keyed relation are those of the base table in both runs. -/
theorem rename_baseItems (hρ : Shifts ρ ahead stems context) {keyed keyed' : KeyedRelation}
    (hkeyed : KeyedTwins ρ context keyed keyed') :
    keyed'.baseItems = renameItems ρ keyed.baseItems := by
  rw [hkeyed.2.1, hkeyed.2.2, rename_passthroughItems hρ.toKeeps]

section Shared

variable (hρ : Shifts ρ ahead stems context)
variable (h : Answers ρ ahead stems context recurse recurse')

include h

theorem couples_dispatchSource {constraints constraints' : ConstraintSet}
    (hsame : constraints'.singleSource = constraints.singleSource) :
    Couples (Ahead ahead stems) (Twins ρ context) (dispatchSource recurse constraints)
      (dispatchSource recurse' constraints') := by
  refine h _ _ _ ?_
  rw [Mapped, hsame]
  rfl

theorem couples_createFromQuery {wrap : EqNode → Option String → Gen EqNode}
    (hwrap : ∀ query query' exposedName, Twins ρ context query query' →
      Couples (Ahead ahead stems) (Twins ρ context) (wrap query exposedName)
        (wrap query' (exposedName.map ρ))) (constraints : ConstraintSet) :
    Couples (Ahead ahead stems) (Twins ρ context) (createFromQuery recurse wrap constraints)
      (createFromQuery recurse' wrap (renameConstraints ρ constraints)) := by
  refine (h _ _ _ rfl).bind fun query query' hquery => ?_
  exact hwrap query query' constraints.exposedName hquery

theorem couples_bothSides (right : ConstraintSet) :
    Couples (Ahead ahead stems)
      (fun sides sides' => Twins ρ context sides.1 sides'.1 ∧ Twins ρ context sides.2 sides'.2)
      (bothSides recurse right) (bothSides recurse' (renameConstraints ρ right)) := by
  refine (h .equivalentRelation {} {} rfl).optional.bind fun left left' hleft => ?_
  refine (h .equivalentRelation _ _ rfl).optional.bind fun right right' hright => ?_
  cases hleft with
  | none => exact .decline
  | some hleft =>
      cases hright with
      | none => exact .decline
      | some hright => exact .pure ⟨hleft, hright⟩

include hρ

theorem couples_materializeRowKey (keyName : String) :
    Couples (Ahead ahead stems) (KeyedTwins ρ context) (materializeRowKey recurse context keyName)
      (materializeRowKey recurse' context (ρ keyName)) := by
  have hitems := rename_passthroughItems hρ.toKeeps
  have hmem : ∀ item ∈ passthroughItems context, ρ item.name = item.name :=
    fun item => rename_mem_passthroughItems hρ.toKeeps
  unfold materializeRowKey
  cases heq : passthroughItems context with
  | nil => exact .decline
  | cons first rest =>
      rw [heq] at hitems hmem
      have hfirst : ρ first.name = first.name := hmem first List.mem_cons_self
      refine (h _ _ _ ?_).bind fun keyed keyed' hkeyed => .pure ⟨hkeyed, rfl, heq.symm⟩
      have hkeyed : renameItems ρ (keyedItems keyName (first :: rest) first) =
          keyedItems (ρ keyName) (first :: rest) first := by
        unfold keyedItems
        rw [renameItems, List.map_append, ← renameItems, hitems]
        simp [renameItem, rowNumber, renameExpr, renameOption, renameExprs, col, hfirst]
      rw [Mapped, renameConstraints, Option.map_some, hkeyed]
      rfl

end Shared

section Creates

variable (hρ : Shifts ρ ahead stems context)

include hρ

theorem couples_wrapMaterializedView {query query' : EqNode} (hquery : Twins ρ context query query')
    (exposedName : Option String) :
    Couples (Ahead ahead stems) (Twins ρ context) (wrapMaterializedView context query exposedName)
      (wrapMaterializedView context query' (exposedName.map ρ)) := by
  refine (couples_createTable hρ hquery none).bind fun body body' hbody => ?_
  refine (couples_selectQuery hρ hbody rfl).bind fun all all' hall => ?_
  exact couples_createAsSelect hρ _ _ _ (.inl rfl) hall exposedName

theorem couples_mutationPredicate :
    Couples (Ahead ahead stems) (Mapped (Option.map (renameExpr ρ))) (mutationPredicate context)
      (mutationPredicate context) := by
  refine (couples_generatedPredicate ρ).bind ?_
  rintro generated _ rfl
  cases generated with
  | some predicate => exact .pure rfl
  | none =>
      refine couples_pickIntegerKey.bind ?_
      rintro picked _ ⟨rfl, hpicked⟩
      refine .pure ?_
      cases picked with
      | none => rfl
      | some key =>
          have hkey : ρ key.name = key.name := hρ.column key (hpicked key rfl)
          simp [Mapped, eq, col, intLit, renameExpr, hkey]

theorem couples_mutatedTable (relationClass : RelationClass)
    {steps steps' : String → List SetupStep}
    (hsteps : ∀ name, steps' (ρ name) = (steps name).map (renameStep ρ)) {query query' : EqNode}
    (hquery : Twins ρ context query query') (exposedName : Option String) :
    Couples (Ahead ahead stems) (Twins ρ context)
      (mutatedTable context relationClass steps query exposedName)
      (mutatedTable context relationClass steps' query' (exposedName.map ρ)) := by
  refine (couples_exposedOrMinted hρ (.inr rfl) exposedName).bind ?_
  rintro name _ rfl
  obtain ⟨rfl, hown⟩ := hquery
  refine couples_newNode ?_ rfl nofun
  rw [queryOf_renameNode, getSignature_renameNode hρ.toKeeps hown, hsteps]
  rfl

variable (h : Answers ρ ahead stems context recurse recurse')

include h

theorem couples_deleteReinsertTable (constraints : ConstraintSet) :
    Couples (Ahead ahead stems) (Twins ρ context) (deleteReinsertTable recurse context constraints)
      (deleteReinsertTable recurse' context (renameConstraints ρ constraints)) := by
  refine (h .queryNode {} {} rfl).bind fun query query' hquery => ?_
  refine (couples_mutationPredicate hρ).bind ?_
  rintro predicate _ rfl
  refine couples_mutatedTable hρ _ (fun name => ?_) hquery constraints.exposedName
  rw [hquery.1, getSignature_renameNode hρ.toKeeps hquery.2, names_renameSignature]
  simp [deleteReinsertSteps, renameStep, hρ.table]

theorem couples_noopUpdateTable (constraints : ConstraintSet) :
    Couples (Ahead ahead stems) (Twins ρ context) (noopUpdateTable recurse context constraints)
      (noopUpdateTable recurse' context (renameConstraints ρ constraints)) := by
  refine (h .queryNode {} {} rfl).bind fun query query' hquery => ?_
  have hsignature : getSignature query' = renameSignature ρ (getSignature query) := by
    rw [hquery.1, getSignature_renameNode hρ.toKeeps hquery.2]
  rw [hsignature]
  refine (Couples.guard ?_).bind fun _ _ _ => ?_
  · simp [renameSignature]
  refine (couples_mutationPredicate hρ).bind ?_
  rintro predicate _ rfl
  refine couples_mutatedTable hρ _ (fun name => ?_) hquery constraints.exposedName
  simp [identityAssignments, renameSignature, renameStep, col, renameExpr, Function.comp_def]

end Creates

section Selects

variable (hρ : Shifts ρ ahead stems context)

theorem couples_baseTableSource :
    Couples (Ahead ahead stems) (Twins ρ context) (baseTableSource context)
      (baseTableSource context) := by
  refine couples_newNode rfl rfl ?_
  rintro table ⟨⟩
  rfl

variable (h : Answers ρ ahead stems context recurse recurse')

include hρ h

theorem couples_selectStarQuery (constraints : ConstraintSet) :
    Couples (Ahead ahead stems) (Twins ρ context) (selectStarQuery recurse constraints)
      (selectStarQuery recurse' (renameConstraints ρ constraints)) := by
  refine (couples_dispatchSource h rfl).bind fun source source' hsource => ?_
  exact couples_selectQuery hρ hsource rfl

theorem couples_explicitProjectionQuery (constraints : ConstraintSet) :
    Couples (Ahead ahead stems) (Twins ρ context)
      (explicitProjectionQuery recurse context constraints)
      (explicitProjectionQuery recurse' context (renameConstraints ρ constraints)) := by
  refine (Couples.guard Iff.rfl).bind fun _ _ _ => ?_
  refine (couples_dispatchSource h rfl).bind fun source source' hsource => ?_
  refine couples_selectQuery hρ hsource ?_
  simp [renameSelect, renameConstraints, rename_passthroughItems hρ.toKeeps]

theorem couples_readThroughCte {suffix : String}
    (hsuffix : context.baseTable.name ++ suffix ∈ portableStems context.baseTable) (materialize : Option Bool)
    (constraints : ConstraintSet) :
    Couples (Ahead ahead stems) (Twins ρ context)
      (readThroughCte recurse context suffix materialize constraints)
      (readThroughCte recurse' context suffix materialize (renameConstraints ρ constraints)) := by
  refine (couples_dispatchSource h rfl).bind fun source source' hsource => ?_
  refine (couples_generateObjectName hρ (hρ.minted _ hsuffix)).bind ?_
  rintro name _ rfl
  exact couples_newQuery hρ rfl (.cons hsource .nil)

theorem couples_lateralReprojectQuery :
    Couples (Ahead ahead stems) (Twins ρ context) (lateralReprojectQuery recurse)
      (lateralReprojectQuery recurse') := by
  refine (couples_dispatchSource h rfl).bind fun source source' hsource => ?_
  refine (Couples.guard ?_).bind fun _ _ _ => ?_
  · rw [hsource.1, getSignature_renameNode hρ.toKeeps hsource.2]
    simp [renameSignature]
  refine couples_newQuery hρ ?_ (.cons hsource .nil)
  rw [renameShape, hρ.short "s" (by simp), hρ.short "l" (by simp)]

theorem couples_addDropColumnQuery :
    Couples (Ahead ahead stems) (Twins ρ context) (addDropColumnQuery recurse context)
      (addDropColumnQuery recurse' context) := by
  have hitems := rename_passthroughItems hρ.toKeeps
  refine (Couples.guard Iff.rfl).bind fun _ _ _ => ?_
  refine (couples_dispatchSource h rfl).bind fun source source' hsource => ?_
  refine (couples_columnName hρ (by simp [portableStems, columnStems])).bind ?_
  rintro extraName _ rfl
  refine (couples_selectQuery hρ hsource ?_).bind fun query query' hquery => ?_
  · rw [renameSelect, Option.map_some, renameItems, List.map_append, ← renameItems, hitems]
    rfl
  refine (couples_createView hρ hquery none).bind fun wider wider' hwider => ?_
  refine couples_selectQuery hρ hwider ?_
  rw [renameSelect, Option.map_some, hitems]
  rfl

theorem couples_selectOrdered {query : List ProjectionItem → ExpressionNode → SelectQuery}
    (hquery : ∀ items orderCol, renameSelect ρ (query items orderCol) =
      query (renameItems ρ items) (renameExpr ρ orderCol)) :
    Couples (Ahead ahead stems) (Twins ρ context) (selectOrdered recurse context query)
      (selectOrdered recurse' context query) := by
  have hitems := rename_passthroughItems hρ.toKeeps
  have hmem : ∀ item ∈ passthroughItems context, ρ item.name = item.name :=
    fun item => rename_mem_passthroughItems hρ.toKeeps
  unfold selectOrdered
  cases heq : passthroughItems context with
  | nil => exact .decline
  | cons first rest =>
      rw [heq] at hitems hmem
      have hfirst : ρ first.name = first.name := hmem first List.mem_cons_self
      refine (couples_dispatchSource h rfl).bind fun source source' hsource => ?_
      refine couples_selectQuery hρ hsource ?_
      rw [hquery, hitems, col, renameExpr, hfirst]
      rfl

theorem couples_qualifyQuery :
    Couples (Ahead ahead stems) (Twins ρ context) (qualifyQuery recurse context)
      (qualifyQuery recurse' context) := by
  refine couples_selectOrdered hρ h fun items orderCol => ?_
  simp [renameSelect, ge, rowNumber, intLit, renameExpr, renameOption, renameExprs]

theorem couples_orderedScanQuery :
    Couples (Ahead ahead stems) (Twins ρ context) (orderedScanQuery recurse context)
      (orderedScanQuery recurse' context) :=
  couples_selectOrdered hρ h fun _ _ => rfl

theorem couples_projectionQuery (constraints : ConstraintSet) :
    Couples (Ahead ahead stems) (Twins ρ context) (projectionQuery recurse constraints)
      (projectionQuery recurse' (renameConstraints ρ constraints)) := by
  refine (couples_dispatchSource h rfl).bind fun source source' hsource => ?_
  obtain ⟨_, _, _, columnRewrite, _, _, _⟩ := constraints
  cases columnRewrite with
  | none => exact .raise _
  | some items => exact couples_selectQuery hρ hsource rfl

theorem couples_distinctAsGroupByQuery :
    Couples (Ahead ahead stems) (Twins ρ context) (distinctAsGroupByQuery recurse context)
      (distinctAsGroupByQuery recurse' context) := by
  refine (couples_columnName hρ (by simp [portableStems, columnStems])).bind ?_
  rintro keyName _ rfl
  refine (couples_materializeRowKey hρ h keyName).bind fun keyed keyed' hkeyed => ?_
  obtain ⟨hrelation, hbase, hitems⟩ := hkeyed
  rw [hbase]
  refine (Couples.guard Iff.rfl).bind fun _ _ _ => ?_
  refine couples_selectQuery hρ hrelation ?_
  have hcols : ∀ item ∈ keyed.baseItems,
      renameExpr ρ (col item.name item.dataType) = col item.name item.dataType := by
    intro item hitem
    rw [hitems] at hitem
    rw [col, renameExpr, rename_mem_passthroughItems hρ.toKeeps hitem]
    rfl
  have hkeys := List.map_congr_left hcols
  simp only [renameSelect, Option.map_some, Option.map_none, List.map_append, List.map_map,
    Function.comp_def, hkeys]
  rw [hitems, rename_passthroughItems hρ.toKeeps]
  rfl

end Selects

section Partitioning

variable (hρ : Shifts ρ ahead stems context)
variable (h : Answers ρ ahead stems context recurse recurse')

theorem renameExpr_conjoin (current : Option ExpressionNode) (extra : ExpressionNode) :
    renameExpr ρ (conjoin current extra) =
      conjoin (current.map (renameExpr ρ)) (renameExpr ρ extra) := by
  cases current <;> rfl

include h

theorem couples_filteredBranches (current : Option ExpressionNode)
    (predicates : List ExpressionNode) :
    Couples (Ahead ahead stems) (List.Forall₂ (Twins ρ context))
      (filteredBranches recurse current predicates)
      (filteredBranches recurse' (current.map (renameExpr ρ))
        (predicates.map (renameExpr ρ))) := by
  induction predicates with
  | nil => exact .pure .nil
  | cons predicate rest ih =>
      refine (h _ _ _ ?_).bind fun branch branch' hbranch => ?_
      · rw [Mapped, renameConstraints, Option.map_some, renameExpr_conjoin]
        rfl
      exact ih.bind fun branches branches' hbranches => .pure (.cons hbranch hbranches)

include hρ

theorem couples_partitionUnionQuery (constraints : ConstraintSet) :
    Couples (Ahead ahead stems) (Twins ρ context) (partitionUnionQuery recurse context constraints)
      (partitionUnionQuery recurse' context (renameConstraints ρ constraints)) := by
  refine couples_pickIntegerKey.bind ?_
  rintro picked _ ⟨rfl, hpicked⟩
  cases picked with
  | none => exact .decline
  | some key =>
      have hkey : ρ key.name = key.name := hρ.column key (hpicked key rfl)
      have hbranches := couples_filteredBranches h constraints.rowFilter
        [eq (.mod (col key.name key.dataType) 2) (intLit 0),
          .boolOp .or (ne (.mod (col key.name key.dataType) 2) (intLit 0))
            (.isNull (col key.name key.dataType) false)]
      simp only [List.map_cons, List.map_nil, eq, ne, col, intLit, renameExpr, Option.map_none,
        hkey] at hbranches
      exact hbranches.bind fun branches branches' h => couples_unionAllQuery hρ h

theorem couples_tlpPartitionUnionQuery (constraints : ConstraintSet) :
    Couples (Ahead ahead stems) (Twins ρ context)
      (tlpPartitionUnionQuery recurse context constraints)
      (tlpPartitionUnionQuery recurse' context (renameConstraints ρ constraints)) := by
  refine (couples_generatedPredicate ρ).bind ?_
  rintro generated _ rfl
  cases generated with
  | none => exact .decline
  | some predicate =>
      have hbranches := couples_filteredBranches h constraints.rowFilter
        [predicate, .not predicate, .isNull predicate false]
      simp only [List.map_cons, List.map_nil, renameExpr] at hbranches
      exact hbranches.bind fun branches branches' h => couples_unionAllQuery hρ h

omit h in
theorem couples_residueViews {keyed keyed' : KeyedRelation}
    (hkeyed : KeyedTwins ρ context keyed keyed') (rankName : String) (modulus : Nat) (residues : List Nat) :
    Couples (Ahead ahead stems) (List.Forall₂ (Twins ρ context))
      (residueViews context keyed rankName modulus residues)
      (residueViews context keyed' (ρ rankName) modulus residues) := by
  obtain ⟨hrelation, hbase, hitems⟩ := hkeyed
  induction residues with
  | nil => exact .pure .nil
  | cons residue rest ih =>
      refine (couples_selectQuery hρ hrelation ?_).bind fun query query' hquery => ?_
      · rw [hbase, renameSelect, Option.map_some, hitems, rename_passthroughItems hρ.toKeeps]
        simp [eq, col, intLit, renameExpr]
      refine (couples_createView hρ hquery none).bind fun view view' hview => ?_
      exact ih.bind fun views views' hviews => .pure (.cons hview hviews)

theorem couples_rankModUnionQuery :
    Couples (Ahead ahead stems) (Twins ρ context) (rankModUnionQuery recurse context)
      (rankModUnionQuery recurse' context) := by
  refine (couples_randomChoice rankModuli).bind ?_
  rintro modulus _ ⟨rfl, -⟩
  refine (couples_columnName hρ (by simp [portableStems, columnStems])).bind ?_
  rintro rankName _ rfl
  refine (couples_materializeRowKey hρ h rankName).bind fun keyed keyed' hkeyed => ?_
  rw [hkeyed.2.1]
  refine (Couples.guard Iff.rfl).bind fun _ _ _ => ?_
  exact (couples_residueViews hρ hkeyed rankName modulus _).bind
    fun branches branches' h => couples_unionAllQuery hρ h

theorem couples_unionEmptyRoundTrip :
    Couples (Ahead ahead stems) (Twins ρ context) (unionEmptyRoundTrip recurse)
      (unionEmptyRoundTrip recurse') :=
  (couples_bothSides h { rowFilter := some nothing }).bind
    fun _ _ hsides => couples_unionAllQuery hρ (.cons hsides.1 (.cons hsides.2 .nil))

theorem couples_exceptEmptyRoundTrip :
    Couples (Ahead ahead stems) (Twins ρ context) (exceptEmptyRoundTrip recurse)
      (exceptEmptyRoundTrip recurse') :=
  (couples_bothSides h { rowFilter := some nothing }).bind
    fun _ _ hsides => couples_newQuery hρ rfl (.cons hsides.1 (.cons hsides.2 .nil))

theorem couples_intersectSelfRoundTrip :
    Couples (Ahead ahead stems) (Twins ρ context) (intersectSelfRoundTrip recurse)
      (intersectSelfRoundTrip recurse') :=
  (couples_bothSides h {}).bind
    fun _ _ hsides => couples_newQuery hρ rfl (.cons hsides.1 (.cons hsides.2 .nil))

theorem couples_distinctUnionDuplicateQuery :
    Couples (Ahead ahead stems) (Twins ρ context) (distinctUnionDuplicateQuery recurse context)
      (distinctUnionDuplicateQuery recurse' context) := by
  refine (Couples.guard Iff.rfl).bind fun _ _ _ => ?_
  refine (Couples.guard Iff.rfl).bind fun _ _ _ => ?_
  refine (couples_columnName hρ (by simp [portableStems, columnStems])).bind ?_
  rintro keyName _ rfl
  refine (couples_materializeRowKey hρ h keyName).bind fun keyed keyed' hkeyed => ?_
  refine (Couples.guard (by rw [hkeyed.2.1])).bind fun _ _ _ => ?_
  refine (couples_unionAllQuery hρ (.cons hkeyed.1 (.cons hkeyed.1 .nil))).bind
    fun twice twice' htwice => ?_
  refine (couples_createTable hρ htwice none).bind fun doubled doubled' hdoubled => ?_
  refine (couples_selectQuery hρ hdoubled rfl).bind fun once once' honce => ?_
  refine (couples_createTable hρ honce none).bind fun deduped deduped' hdeduped => ?_
  refine couples_selectQuery hρ hdeduped ?_
  rw [rename_baseItems hρ hkeyed]
  rfl

end Partitioning

section Joins

variable (hρ : Shifts ρ ahead stems context)
variable (h : Answers ρ ahead stems context recurse recurse')

theorem rename_qualifiedCol {relation : String} (hrelation : ρ relation = relation) (name : String)
    (dataType : SqlType) : renameExpr ρ (qualifiedCol relation name dataType) =
      qualifiedCol relation (ρ name) dataType := by
  rw [qualifiedCol, renameExpr, Option.map_some, hrelation]
  rfl

include hρ

theorem rename_keysAgree (key : String) :
    renameExpr ρ (keysAgree key) = keysAgree (ρ key) := by
  rw [keysAgree, eq, renameExpr, rename_qualifiedCol hρ.left, rename_qualifiedCol hρ.right]
  rfl

omit hρ in
theorem rename_qualified {relation : String} (hrelation : ρ relation = relation)
    (items : List ProjectionItem) :
    renameItems ρ (qualified relation items) = qualified relation (renameItems ρ items) := by
  rw [qualified, qualified, renameItems, renameItems, List.map_map, List.map_map]
  refine List.map_congr_left fun item _ => ?_
  simp only [Function.comp_apply, renameItem, rename_qualifiedCol hrelation]

theorem couples_joinQuery {left left' right right' : EqNode} (hleft : Twins ρ context left left')
    (hright : Twins ρ context right right') {condition condition' : Option ExpressionNode}
    (hcondition : condition' = condition.map (renameExpr ρ)) (joinType : JoinType)
    {projection projection' : List ProjectionItem}
    (hprojection : projection' = renameItems ρ projection)
    {predicate predicate' : Option ExpressionNode}
    (hpredicate : predicate' = predicate.map (renameExpr ρ)) :
    Couples (Ahead ahead stems) (Twins ρ context)
      (joinQuery left right condition joinType projection predicate)
      (joinQuery left' right' condition' joinType projection' predicate') := by
  refine couples_newQuery hρ ?_ (.cons hleft (.cons hright .nil))
  rw [hcondition, hprojection, hpredicate, renameShape, renameJoin]
  show _ = QueryShape.join ⟨_, _, _, ρ leftAlias, ρ rightAlias, _⟩
  rw [hρ.left, hρ.right]

include h

theorem couples_leftJoinEmpty :
    Couples (Ahead ahead stems) (Twins ρ context) (leftJoinEmpty recurse context)
      (leftJoinEmpty recurse' context) := by
  refine (Couples.guard Iff.rfl).bind fun _ _ _ => ?_
  refine (couples_bothSides h { rowFilter := some nothing }).bind fun sides sides' hsides => ?_
  refine couples_joinQuery hρ hsides.1 hsides.2 rfl _ ?_ rfl
  rw [rename_qualified hρ.left, rename_passthroughItems hρ.toKeeps]

theorem couples_semiJoinFlagRoundTrip :
    Couples (Ahead ahead stems) (Twins ρ context) (semiJoinFlagRoundTrip recurse context)
      (semiJoinFlagRoundTrip recurse' context) := by
  refine (couples_columnName hρ (by simp [portableStems, columnStems])).bind ?_
  rintro uid _ rfl
  refine (couples_materializeRowKey hρ h uid).bind fun keyed keyed' hkeyed => ?_
  refine (Couples.guard (by rw [hkeyed.2.1])).bind fun _ _ _ => ?_
  refine (couples_selectQuery hρ hkeyed.1 rfl).bind fun flags flags' hflags => ?_
  refine (couples_createTable hρ hflags none).bind fun flagTable flagTable' hflagTable => ?_
  refine couples_joinQuery hρ hkeyed.1 hflagTable ?_ _ ?_ rfl
  · rw [Option.map_some, rename_keysAgree hρ]
  · rw [rename_qualified hρ.left, rename_baseItems hρ hkeyed]

theorem couples_flagTableJoin :
    Couples (Ahead ahead stems) (Twins ρ context) (flagTableJoin recurse context)
      (flagTableJoin recurse' context) := by
  refine (couples_columnName hρ (by simp [portableStems, columnStems])).bind ?_
  rintro uid _ rfl
  refine (couples_columnName hρ (by simp [portableStems, columnStems])).bind ?_
  rintro flag _ rfl
  refine (couples_materializeRowKey hρ h uid).bind fun keyed keyed' hkeyed => ?_
  refine (couples_selectQuery hρ hkeyed.1 rfl).bind fun flags flags' hflags => ?_
  refine (couples_createTable hρ hflags none).bind fun flagTable flagTable' hflagTable => ?_
  refine (couples_chooseOne _).bind ?_
  rintro joinType _ rfl
  refine couples_joinQuery hρ hkeyed.1 hflagTable ?_ _ ?_ ?_
  · rw [Option.map_some, rename_keysAgree hρ]
  · rw [rename_qualified hρ.left, rename_baseItems hρ hkeyed]
  · rw [Option.map_some, eq, eq, renameExpr, rename_qualifiedCol hρ.right]
    rfl

theorem couples_sequenceOuterJoin :
    Couples (Ahead ahead stems) (Twins ρ context) (sequenceOuterJoin recurse context)
      (sequenceOuterJoin recurse' context) := by
  refine (couples_columnName hρ (by simp [portableStems, columnStems])).bind ?_
  rintro key _ rfl
  refine (couples_materializeRowKey hρ h key).bind fun keyed keyed' hkeyed => ?_
  rw [rename_baseItems hρ hkeyed]
  refine (Couples.guard (by simp [renameItems])).bind fun _ _ _ => ?_
  have hlength : (renameItems ρ keyed.baseItems).length = keyed.baseItems.length := by
    simp [renameItems]
  rw [hlength]
  have hkeyItem : renameItem ρ (passthrough key integerType) = passthrough (ρ key) integerType :=
    renameItem_passthrough key integerType
  refine (couples_selectQuery hρ hkeyed.1 ?_).bind fun left left' hleft => ?_
  · rw [renameSelect, Option.map_some, renameItems_append, renameItems_take]
    simp [renameItems, hkeyItem]
  refine (couples_createView hρ hleft none).bind fun left left' hleft => ?_
  refine (couples_selectQuery hρ hkeyed.1 ?_).bind fun right right' hright => ?_
  · rw [renameSelect, Option.map_some, renameItems_append, renameItems_drop]
    simp [renameItems, hkeyItem]
  refine (couples_createView hρ hright none).bind fun right right' hright => ?_
  refine couples_joinQuery hρ hleft hright ?_ _ ?_ rfl
  · rw [Option.map_some, rename_keysAgree hρ]
  · rw [renameItems_append, rename_qualified hρ.left, rename_qualified hρ.right, renameItems_take,
      renameItems_drop]

theorem couples_crossJoinFilterAsInner :
    Couples (Ahead ahead stems) (Twins ρ context) (crossJoinFilterAsInner recurse context)
      (crossJoinFilterAsInner recurse' context) := by
  refine (couples_columnName hρ (by simp [portableStems, columnStems])).bind ?_
  rintro uid _ rfl
  refine (couples_materializeRowKey hρ h uid).bind fun keyed keyed' hkeyed => ?_
  refine (Couples.guard (by rw [hkeyed.2.1])).bind fun _ _ _ => ?_
  refine (couples_selectQuery hρ hkeyed.1 rfl).bind fun flags flags' hflags => ?_
  refine (couples_createTable hρ hflags none).bind fun flagTable flagTable' hflagTable => ?_
  refine couples_joinQuery hρ hkeyed.1 hflagTable rfl _ ?_ ?_
  · rw [rename_qualified hρ.left, rename_baseItems hρ hkeyed]
  · rw [Option.map_some, rename_keysAgree hρ]

end Joins

section Rewrites

variable (hρ : Shifts ρ ahead stems context)
variable (h : Answers ρ ahead stems context recurse recurse')

/-- The rewriters of the two runs, on the columns of the base table. -/
def RewriterTwins (ρ : String → String) (ahead : String → Nat) (stems : List String)
    (context : EquivalenceContext) (rewrite rewrite' : ColumnRewriter) : Prop :=
  ∀ column ∈ context.baseTable.columns, Couples (Ahead ahead stems)
    (Mapped (Option.map (renameExpr ρ))) (rewrite column.name column.dataType)
    (rewrite' column.name column.dataType)

theorem couples_perColumnPlan (codecs : List ValueCodec) (columns : List Column) :
    Couples (Ahead ahead stems) Eq (perColumnPlan context codecs columns)
      (perColumnPlan context codecs columns) := by
  induction columns with
  | nil => exact .pure rfl
  | cons column rest ih =>
      unfold perColumnPlan
      split
      · refine (couples_randomChoice codecs).bind ?_
        rintro codec _ ⟨rfl, -⟩
        refine ih.bind ?_
        rintro plan _ rfl
        exact .pure rfl
      · exact ih

include hρ

theorem couples_rewriteItems {rewrite rewrite' : ColumnRewriter}
    (hrewrite : RewriterTwins ρ ahead stems context rewrite rewrite') (columns : List Column)
    (hcolumns : ∀ column ∈ columns, column ∈ context.baseTable.columns) :
    Couples (Ahead ahead stems)
      (fun items items' => items'.1 = renameItems ρ items.1 ∧ items'.2 = items.2)
      (rewriteItems rewrite columns) (rewriteItems rewrite' columns) := by
  induction columns with
  | nil => exact .pure ⟨rfl, rfl⟩
  | cons column rest ih =>
      rw [List.forall_mem_cons] at hcolumns
      have hname : ρ column.name = column.name := hρ.column column hcolumns.1
      refine (hrewrite column hcolumns.1).bind ?_
      rintro rewritten _ rfl
      refine (ih hcolumns.2).bind fun items items' hitems => ?_
      obtain ⟨hitems, hany⟩ := hitems
      cases rewritten with
      | none =>
          refine .pure ⟨?_, hany⟩
          rw [renameItems, List.map_cons, renameItem_passthrough, hname, hitems]
          rfl
      | some expr =>
          refine .pure ⟨?_, rfl⟩
          rw [renameItems, List.map_cons, renameItem, hname, hitems]
          rfl

theorem couples_freePredicate :
    Couples (Ahead ahead stems) (Mapped (Option.map (renameExpr ρ))) (freePredicate context)
      (freePredicate context) := by
  refine (couples_generatedPredicate ρ).bind ?_
  rintro generated _ rfl
  cases generated with
  | some predicate => exact .pure rfl
  | none =>
      dsimp only [Option.map_none]
      cases hcolumns : context.baseTable.columns with
      | nil => exact .pure rfl
      | cons first rest =>
          refine (couples_noteOrigin _).bind fun _ _ _ => ?_
          refine (couples_selectKey _).bind ?_
          rintro column _ ⟨rfl, hmem⟩
          have hname : ρ column.name = column.name := hρ.column column (hcolumns ▸ hmem)
          split
          · exact .pure (by simp [Mapped, ge, col, renameExpr, hname])
          · exact .pure (by simp [Mapped, col, renameExpr, hname])

omit hρ in
theorem rename_eetCase (predicate : ExpressionNode) {name : String} (hname : ρ name = name)
    (dataType : SqlType) : renameExpr ρ (eetCase predicate name dataType) =
      eetCase (renameExpr ρ predicate) name dataType := by
  simp [eetCase, determinedTrue, col, renameExpr, hname]

theorem couples_eetCaseRewriter :
    Couples (Ahead ahead stems) (RewriterTwins ρ ahead stems context) (eetCaseRewriter context)
      (eetCaseRewriter context) := by
  refine (couples_freePredicate hρ).bind ?_
  rintro tried _ rfl
  cases tried with
  | none => exact .pure fun column hcolumn => .pure rfl
  | some _ =>
      refine .pure fun column hcolumn => ?_
      refine (couples_freePredicate hρ).bind ?_
      rintro predicate _ rfl
      refine .pure ?_
      cases predicate with
      | none => rfl
      | some predicate =>
          exact congrArg some (rename_eetCase predicate (hρ.column column hcolumn) _).symm

theorem couples_codecRewriter {assignment : Gen (List (String × ValueCodec))}
    (hassignment : Couples (Ahead ahead stems) Eq assignment assignment) :
    Couples (Ahead ahead stems) (RewriterTwins ρ ahead stems context) (codecRewriter assignment)
      (codecRewriter assignment) := by
  refine hassignment.bind ?_
  rintro plan _ rfl
  refine .pure fun column hcolumn => .pure ?_
  have hname : ρ column.name = column.name := hρ.column column hcolumn
  cases planned plan column.name with
  | none => rfl
  | some codec => simp [Mapped, codecRoundTrip, col, renameExpr, hname]

theorem couples_windowRewriter :
    Couples (Ahead ahead stems) (RewriterTwins ρ ahead stems context) (windowRewriter context)
      (windowRewriter context) := by
  refine (couples_chooseOne _).bind ?_
  rintro choice _ rfl
  refine (couples_chooseOne _).bind ?_
  rintro frameChoice _ rfl
  refine .pure fun column hcolumn => .pure ?_
  have hname : ρ column.name = column.name := hρ.column column hcolumn
  rw [Mapped]
  split
  · rw [Option.map_some, windowed, renameExpr, renameExprs_eq, renameExprs_eq]
    congr 2
    · simp [renameOption, col, renameExpr, hname]
    · simp [col, renameExpr, hname]
    · split <;> simp [col, renameExpr, hname]
  · rfl

include h

theorem couples_columnRewriteQuery {columnRewriter : Gen ColumnRewriter}
    (hrewriter : Couples (Ahead ahead stems) (RewriterTwins ρ ahead stems context) columnRewriter
      columnRewriter) :
    Couples (Ahead ahead stems) (Twins ρ context) (columnRewriteQuery recurse context columnRewriter)
      (columnRewriteQuery recurse' context columnRewriter) := by
  refine hrewriter.bind fun rewrite rewrite' hrewrite => ?_
  refine (couples_rewriteItems hρ hrewrite _ fun _ h => h).bind fun items items' hitems => ?_
  refine (Couples.guard (by rw [hitems.2])).bind fun _ _ _ => ?_
  refine (couples_dispatchSource h rfl).bind fun source source' hsource => ?_
  refine couples_selectQuery hρ hsource ?_
  rw [hitems.1]
  rfl

theorem couples_eetDeterminedFilterQuery (constraints : ConstraintSet) :
    Couples (Ahead ahead stems) (Twins ρ context)
      (eetDeterminedFilterQuery recurse context constraints)
      (eetDeterminedFilterQuery recurse' context (renameConstraints ρ constraints)) := by
  refine (couples_freePredicate hρ).bind ?_
  rintro free _ rfl
  cases free with
  | none => exact .decline
  | some predicate =>
      refine (couples_dispatchSource h rfl).bind fun source source' hsource => ?_
      refine couples_selectQuery hρ hsource ?_
      rw [renameSelect, Option.map_some, renameExpr_conjoin]
      simp [determinedTrue, renameExpr, renameConstraints]

end Rewrites

section Expansion

variable (hρ : Shifts ρ ahead stems context)
variable (h : Answers ρ ahead stems context recurse recurse')

/-- What a reducer has in hand in the two runs. -/
def ExpandedTwins (ρ : String → String) (context : EquivalenceContext)
    (built built' : Expanded) : Prop :=
  Twins ρ context built.child built'.child ∧ built'.baseItems = built.baseItems ∧
    built.baseItems = passthroughItems context ∧ built'.column = ρ built.column

theorem rename_tagIs (tagCol : String) (value : Int) :
    renameExpr ρ (tagIs tagCol value) = tagIs (ρ tagCol) value := by
  simp [tagIs, eq, col, intLit, renameExpr]

theorem rename_taggedItems (baseItems : List ProjectionItem) (tagCol : String) (tag : Int) :
    renameItems ρ (taggedItems baseItems tagCol tag) =
      taggedItems (renameItems ρ baseItems) (ρ tagCol) tag := by
  rw [taggedItems, renameItems_append]
  rfl

theorem exposedOf_renameNode (hkeeps : Keeps ρ context) {node : EqNode} (hown : Own context node) :
    exposedOf (renameNode ρ node) = renameObject ρ (exposedOf node) := by
  have href := refSql_renameNode hkeeps hown
  rw [exposedOf, exposedOf, label_renameNode]
  cases hlabel : node.label with
  | relation relation => rfl
  | baseTableSource table =>
      dsimp only [renameLabel]
      rw [href]
      rfl
  | query query =>
      dsimp only [renameLabel]
      rw [href]
      rfl

include hρ

theorem rename_throwItems (tagCol : String) :
    renameItems ρ (throwItems (passthroughItems context) tagCol) =
      throwItems (passthroughItems context) (ρ tagCol) := by
  rw [throwItems, rename_taggedItems, throwItems]
  congr 1
  rw [renameItems, List.map_map]
  refine List.map_congr_left fun item hitem => ?_
  show renameItem ρ (passthrough item.name item.dataType) = _
  rw [renameItem_passthrough, rename_mem_passthroughItems hρ.toKeeps hitem]

theorem couples_insertExtrasExpansion {child child' : EqNode} (hchild : Twins ρ context child child')
    {insert insert' : SetupStep} (hinsert : insert' = renameStep ρ insert) :
    Couples (Ahead ahead stems) (Twins ρ context) (insertExtrasExpansion child insert)
      (insertExtrasExpansion child' insert') := by
  obtain ⟨rfl, hown⟩ := hchild
  refine couples_newNode ?_ rfl nofun
  rw [hinsert, exposedOf_renameNode hρ.toKeeps hown, getSignature_renameNode hρ.toKeeps hown]
  rfl

/-- The statement that inserts a query over the child into the child. -/
theorem rename_insertQuery {child child' : EqNode} (hchild : Twins ρ context child child')
    {query query' : SelectQuery} (hquery : query' = renameSelect ρ query) :
    SetupStep.insertQuery (refSql child') (queryOver (.select query') [child']) =
      renameStep ρ (.insertQuery (refSql child) (queryOver (.select query) [child])) := by
  obtain ⟨rfl, hown⟩ := hchild
  have hover := queryOver_rename hρ.toKeeps (.select query)
    (List.forall_mem_singleton.mpr hown : ∀ node ∈ [child], Own context node)
  rw [renameStep, refSql_renameNode hρ.toKeeps hown, hquery, ← hover]
  rfl

theorem couples_tagPruneDeleteTable {built built' : Expanded}
    (hbuilt : ExpandedTwins ρ context built built') (keepValue : Int)
    (exposedName : Option String) :
    Couples (Ahead ahead stems) (Twins ρ context)
      (tagPruneDeleteTable context built.child built.baseItems built.column keepValue exposedName)
      (tagPruneDeleteTable context built'.child built'.baseItems built'.column keepValue
        (exposedName.map ρ)) := by
  obtain ⟨⟨hchild, hown⟩, hbase, hitems, hcolumn⟩ := hbuilt
  refine (couples_exposedOrMinted hρ (.inl rfl) exposedName).bind ?_
  rintro name _ rfl
  refine couples_newNode ?_ (by rw [hchild]; rfl) nofun
  have hover := queryOver_rename hρ.toKeeps
    (.select { projection := some (passthroughItems context) })
    (List.forall_mem_singleton.mpr hown : ∀ node ∈ [built.child], Own context node)
  have hfixed := rename_passthroughItems hρ.toKeeps
  have hsignature : renameSignature ρ (itemSignature (passthroughItems context)) =
      itemSignature (passthroughItems context) := by
    rw [← itemSignature_rename, hfixed]
  rw [renameShape, renameSelect, Option.map_some, hfixed] at hover
  rw [hbase, hitems, hcolumn, hchild, refSql_renameNode hρ.toKeeps hown]
  simp only [renameLabel, renameRelation, List.map_cons, List.map_nil, renameStep, renameObject,
    ← hover, hsignature, Option.map_some, ne, col, intLit, renameExpr]
  rfl

include h

theorem couples_tagExplodeExpansion (constraints : ConstraintSet) :
    Couples (Ahead ahead stems) (Twins ρ context) (tagExplodeExpansion recurse context constraints)
      (tagExplodeExpansion recurse' context (renameConstraints ρ constraints)) := by
  obtain ⟨_, _, _, _, tagChannel, _, _⟩ := constraints
  cases tagChannel with
  | none => exact .decline
  | some channel =>
      refine (Couples.guard Iff.rfl).bind fun _ _ _ => ?_
      refine (h _ _ _ ?_).bind fun kept kept' hkept => ?_
      · rw [Mapped, renameConstraints, Option.map_some, rename_taggedItems,
          rename_passthroughItems hρ.toKeeps]
        rfl
      refine (couples_selectQuery hρ hkept ?_).bind fun thrown thrown' hthrown => ?_
      · rw [renameSelect, Option.map_some, rename_throwItems hρ]
        rfl
      refine (couples_createTable hρ hthrown none).bind fun table table' htable => ?_
      refine (couples_chooseOne _).bind ?_
      rintro rowcount _ rfl
      have hbranches : List.Forall₂ (Twins ρ context) (kept :: List.replicate (rowcount - 1) table)
          (kept' :: List.replicate (rowcount - 1) table') := by
        refine .cons hkept ?_
        generalize rowcount - 1 = n
        induction n with
        | zero => exact .nil
        | succ n ih => exact .cons htable ih
      dsimp only
      rw [hbranches.length_eq]
      split
      · refine (couples_selectQuery hρ hkept rfl).bind fun query query' hquery => ?_
        exact couples_createTable hρ hquery none
      · refine (couples_unionAllQuery hρ hbranches).bind fun query query' hquery => ?_
        exact couples_createTable hρ hquery none

theorem couples_tagInsertExtrasExpansion (constraints : ConstraintSet) :
    Couples (Ahead ahead stems) (Twins ρ context)
      (tagInsertExtrasExpansion recurse context constraints)
      (tagInsertExtrasExpansion recurse' context (renameConstraints ρ constraints)) := by
  obtain ⟨_, _, _, _, tagChannel, _, _⟩ := constraints
  cases tagChannel with
  | none => exact .decline
  | some channel =>
      refine (Couples.guard Iff.rfl).bind fun _ _ _ => ?_
      refine (h _ _ _ rfl).bind fun child child' hchild => ?_
      refine couples_insertExtrasExpansion hρ hchild (rename_insertQuery hρ hchild ?_)
      rw [renameSelect, Option.map_some, Option.map_some, rename_throwItems hρ, rename_tagIs]
      rfl

theorem couples_keyExplodeExpansion (constraints : ConstraintSet) :
    Couples (Ahead ahead stems) (Twins ρ context) (keyExplodeExpansion recurse context constraints)
      (keyExplodeExpansion recurse' context (renameConstraints ρ constraints)) := by
  obtain ⟨_, _, _, _, _, keyChannel, _⟩ := constraints
  cases keyChannel with
  | none => exact .decline
  | some channel =>
      refine (couples_materializeRowKey hρ h channel.column).bind fun keyed keyed' hkeyed => ?_
      refine (couples_chooseOne _).bind ?_
      rintro rowcount _ rfl
      have hbranches : List.Forall₂ (Twins ρ context) (List.replicate rowcount keyed.relation)
          (List.replicate rowcount keyed'.relation) := by
        induction rowcount with
        | zero => exact .nil
        | succ n ih => exact .cons hkeyed.1 ih
      refine (couples_unionAllQuery hρ hbranches).bind fun query query' hquery => ?_
      exact couples_createTable hρ hquery none

theorem couples_keyInsertExtrasExpansion (constraints : ConstraintSet) :
    Couples (Ahead ahead stems) (Twins ρ context) (keyInsertExtrasExpansion recurse constraints)
      (keyInsertExtrasExpansion recurse' (renameConstraints ρ constraints)) := by
  obtain ⟨_, _, _, _, _, keyChannel, _⟩ := constraints
  cases keyChannel with
  | none => exact .decline
  | some channel =>
      refine (h _ _ _ rfl).bind fun child child' hchild => ?_
      exact couples_insertExtrasExpansion hρ hchild (rename_insertQuery hρ hchild rfl)

theorem couples_buildReduced (requiresDml : Bool) :
    Couples (Ahead ahead stems) (ExpandedTwins ρ context) (buildReduced recurse context requiresDml)
      (buildReduced recurse' context requiresDml) := by
  refine (Couples.guard Iff.rfl).bind fun _ _ _ => ?_
  refine (couples_columnName hρ (by simp [portableStems, columnStems])).bind ?_
  rintro tagCol _ rfl
  refine (h _ _ _ rfl).bind fun child child' hchild => ?_
  exact .pure ⟨hchild, rfl, rfl, rfl⟩

theorem couples_buildKeyed :
    Couples (Ahead ahead stems) (ExpandedTwins ρ context) (buildKeyed recurse context)
      (buildKeyed recurse' context) := by
  refine (Couples.guard Iff.rfl).bind fun _ _ _ => ?_
  refine (couples_columnName hρ (by simp [portableStems, columnStems])).bind ?_
  rintro keyCol _ rfl
  refine (h _ _ _ rfl).bind fun child child' hchild => ?_
  exact .pure ⟨hchild, rfl, rfl, rfl⟩

theorem couples_tagPruneDeleteReduce (constraints : ConstraintSet) :
    Couples (Ahead ahead stems) (Twins ρ context) (tagPruneDeleteReduce recurse context constraints)
      (tagPruneDeleteReduce recurse' context (renameConstraints ρ constraints)) :=
  (couples_buildReduced hρ h true).bind fun _ _ hbuilt =>
    couples_tagPruneDeleteTable hρ hbuilt keep constraints.exposedName

theorem couples_tagPruneFilterReduce (constraints : ConstraintSet) :
    Couples (Ahead ahead stems) (Twins ρ context) (tagPruneFilterReduce recurse context constraints)
      (tagPruneFilterReduce recurse' context (renameConstraints ρ constraints)) := by
  refine (couples_buildReduced hρ h false).bind fun built built' hbuilt => ?_
  obtain ⟨hchild, hbase, hitems, hcolumn⟩ := hbuilt
  refine (couples_selectQuery hρ hchild ?_).bind fun query query' hquery => ?_
  · rw [renameSelect, Option.map_some, Option.map_some, rename_tagIs, hbase, hitems, hcolumn,
      rename_passthroughItems hρ.toKeeps]
    rfl
  exact couples_createView hρ hquery constraints.exposedName

omit h in
theorem couples_collapse {built built' : Expanded} (hbuilt : ExpandedTwins ρ context built built')
    {query query' : SelectQuery} (hquery : query' = renameSelect ρ query)
    (constraints : ConstraintSet) :
    Couples (Ahead ahead stems) (Twins ρ context) (collapse context built query constraints)
      (collapse context built' query' (renameConstraints ρ constraints)) := by
  obtain ⟨hchild, hbase, hitems, -⟩ := hbuilt
  refine (couples_selectQuery hρ hchild hquery).bind fun inner inner' hinner => ?_
  refine (couples_createView hρ hinner none).bind fun collapsed collapsed' hcollapsed => ?_
  refine (couples_selectQuery hρ hcollapsed ?_).bind fun outer outer' houter => ?_
  · rw [renameSelect, Option.map_some, hbase, hitems, rename_passthroughItems hρ.toKeeps]
    rfl
  exact couples_createView hρ houter constraints.exposedName

omit h in
/-- Items that are made of the base items and the key are renamed in the key only. -/
theorem rename_mappedItems (make : String → ProjectionItem → ProjectionItem)
    (hmake : ∀ column item, ρ item.name = item.name →
      renameItem ρ (make column item) = make (ρ column) item) (column : String) :
    renameItems ρ ((passthroughItems context).map (make column)) =
      (passthroughItems context).map (make (ρ column)) := by
  rw [renameItems, List.map_map]
  refine List.map_congr_left fun item hitem => ?_
  exact hmake column item (rename_mem_passthroughItems hρ.toKeeps hitem)

theorem couples_keyDistinctReduce (constraints : ConstraintSet) :
    Couples (Ahead ahead stems) (Twins ρ context) (keyDistinctReduce recurse context constraints)
      (keyDistinctReduce recurse' context (renameConstraints ρ constraints)) := by
  refine (Couples.guard Iff.rfl).bind fun _ _ _ => ?_
  refine (Couples.guard Iff.rfl).bind fun _ _ _ => ?_
  refine (couples_buildKeyed hρ h).bind fun built built' hbuilt => ?_
  refine couples_collapse hρ hbuilt ?_ constraints
  obtain ⟨-, hbase, hitems, hcolumn⟩ := hbuilt
  rw [hbase, hitems, hcolumn, renameSelect, Option.map_some, renameItems, List.map_cons,
    ← renameItems, rename_passthroughItems hρ.toKeeps, renameItem_passthrough]
  rfl

theorem couples_keyGroupAggregateReduce (constraints : ConstraintSet) :
    Couples (Ahead ahead stems) (Twins ρ context)
      (keyGroupAggregateReduce recurse context constraints)
      (keyGroupAggregateReduce recurse' context (renameConstraints ρ constraints)) := by
  refine (couples_buildKeyed hρ h).bind fun built built' hbuilt => ?_
  obtain ⟨hchild, hbase, hitems, hcolumn⟩ := hbuilt
  refine (couples_selectQuery hρ hchild ?_).bind fun query query' hquery => ?_
  · have hvalues : renameItems ρ ((passthroughItems context).map anyValueItem) =
        (passthroughItems context).map anyValueItem := by
      refine rename_mappedItems hρ (fun _ => anyValueItem) (fun _ item hname => ?_) ""
      simp [renameItem, anyValueItem, col, renameExpr, hname]
    rw [hbase, hitems, hcolumn, renameSelect, Option.map_some, hvalues]
    simp [col, renameExpr]
  exact couples_createView hρ hquery constraints.exposedName

theorem couples_keyWindowAggregateReduce (constraints : ConstraintSet) :
    Couples (Ahead ahead stems) (Twins ρ context)
      (keyWindowAggregateReduce recurse context constraints)
      (keyWindowAggregateReduce recurse' context (renameConstraints ρ constraints)) := by
  refine (Couples.guard Iff.rfl).bind fun _ _ _ => ?_
  refine (Couples.guard Iff.rfl).bind fun _ _ _ => ?_
  refine (couples_buildKeyed hρ h).bind fun built built' hbuilt => ?_
  refine couples_collapse hρ hbuilt ?_ constraints
  obtain ⟨-, hbase, hitems, hcolumn⟩ := hbuilt
  have hwindows : renameItems ρ ((passthroughItems context).map (windowedItem built.column)) =
      (passthroughItems context).map (windowedItem (ρ built.column)) := by
    refine rename_mappedItems hρ windowedItem (fun column item hname => ?_) built.column
    simp [renameItem, windowedItem, col, renameExpr, renameOption, renameExprs, hname]
  rw [hbase, hitems, hcolumn, renameSelect, Option.map_some, renameItems, List.map_cons,
    ← renameItems, hwindows, renameItem_passthrough]
  rfl

theorem couples_keyQualifyDedupReduce (constraints : ConstraintSet) :
    Couples (Ahead ahead stems) (Twins ρ context)
      (keyQualifyDedupReduce recurse context constraints)
      (keyQualifyDedupReduce recurse' context (renameConstraints ρ constraints)) := by
  refine (couples_buildKeyed hρ h).bind fun built built' hbuilt => ?_
  refine couples_collapse hρ hbuilt ?_ constraints
  obtain ⟨-, hbase, hitems, hcolumn⟩ := hbuilt
  rw [hbase, hitems, hcolumn, renameSelect, Option.map_some, renameItems, List.map_cons,
    ← renameItems, rename_passthroughItems hρ.toKeeps, renameItem_passthrough]
  simp [copyNumber, eq, col, intLit, renameExpr, renameOption, renameExprs]

end Expansion

section Factory

/-- The builder runs alike where it is answered alike. -/
def Renames (ρ : String → String) (ahead : String → Nat) (stems : List String)
    (context : EquivalenceContext) (b : EquivalenceBuilder) : Prop :=
  Respects (Ahead ahead stems) (Twins ρ context) (Mapped (renameConstraints ρ)) b.build

theorem blind_vocabulary (hρ : Keeps ρ context) :
    Blind vocabulary (Twins ρ context) (Mapped (renameConstraints ρ)) where
  id := by
    rintro n _ ⟨rfl, -⟩
    exact (Node.id_map _ n).symm
  isinstance := by
    rintro n _ c ⟨rfl, -⟩
    simp only [vocabulary, nodeClass_renameNode]
  serves := by
    rintro n _ r ⟨rfl, -⟩
    simp only [vocabulary, nodeClass_renameNode]
  constraintTypes := by
    rintro constraints _ rfl
    exact (constraintTypes_rename constraints).symm
  meetsConstraints := by
    rintro constraints _ n _ rfl ⟨rfl, hown⟩
    exact (meetsConstraints_rename hρ hown constraints).symm

variable (hρ : Shifts ρ ahead stems context)

include hρ

theorem renames_createBuilders : ∀ b ∈ createBuilders context, Renames ρ ahead stems context b := by
  simp only [createBuilders, List.forall_mem_cons, List.not_mem_nil, false_implies, implies_true,
    and_true]
  refine ⟨?_, ?_, ?_, ?_, ?_, ?_, ?_⟩ <;> rintro recurse recurse' h constraints _ rfl
  · exact couples_createFromQuery h (fun _ _ exposedName hquery =>
      couples_createView hρ hquery exposedName) constraints
  · exact couples_createFromQuery h (fun _ _ exposedName hquery =>
      couples_createTable hρ hquery exposedName) constraints
  · exact couples_createFromQuery h (fun _ _ exposedName hquery =>
      couples_createAsSelect hρ _ _ _ (.inl rfl) hquery exposedName) constraints
  · exact couples_createFromQuery h (fun _ _ exposedName hquery =>
      couples_createAsSelect hρ _ _ _ (.inr rfl) hquery exposedName) constraints
  · exact couples_createFromQuery h (fun _ _ exposedName hquery =>
      couples_wrapMaterializedView hρ hquery exposedName) constraints
  · exact couples_deleteReinsertTable hρ h constraints
  · exact couples_noopUpdateTable hρ h constraints

theorem renames_selectBuilders : ∀ b ∈ selectBuilders context, Renames ρ ahead stems context b := by
  simp only [selectBuilders, List.forall_mem_cons, List.not_mem_nil, false_implies, implies_true,
    and_true]
  refine ⟨?_, ?_, ?_, ?_, ?_, ?_, ?_, ?_, ?_, ?_⟩ <;> rintro recurse recurse' h constraints _ rfl
  · exact couples_selectStarQuery hρ h constraints
  · exact couples_explicitProjectionQuery hρ h constraints
  · exact couples_readThroughCte hρ h (by simp [portableStems, objectStems]) _ constraints
  · exact couples_lateralReprojectQuery hρ h
  · exact couples_readThroughCte hρ h (by simp [portableStems, objectStems]) _ constraints
  · exact couples_readThroughCte hρ h (by simp [portableStems, objectStems]) _ constraints
  · exact couples_addDropColumnQuery hρ h
  · exact couples_projectionQuery hρ h constraints
  · exact couples_qualifyQuery hρ h
  · exact couples_orderedScanQuery hρ h

theorem renames_partitioningBuilders :
    ∀ b ∈ partitioningBuilders context, Renames ρ ahead stems context b := by
  simp only [partitioningBuilders, List.forall_mem_cons, List.not_mem_nil, false_implies,
    implies_true, and_true]
  refine ⟨?_, ?_, ?_, ?_, ?_, ?_⟩ <;> rintro recurse recurse' h constraints _ rfl
  · exact couples_partitionUnionQuery hρ h constraints
  · exact couples_tlpPartitionUnionQuery hρ h constraints
  · exact couples_rankModUnionQuery hρ h
  · exact couples_unionEmptyRoundTrip hρ h
  · exact couples_exceptEmptyRoundTrip hρ h
  · exact couples_intersectSelfRoundTrip hρ h

theorem renames_rewriteBuilders :
    ∀ b ∈ rewriteBuilders context, Renames ρ ahead stems context b := by
  simp only [rewriteBuilders, List.forall_mem_cons, List.not_mem_nil, false_implies,
    implies_true, and_true]
  refine ⟨?_, ?_, ?_, ?_, ?_, ?_, ?_⟩ <;> rintro recurse recurse' h constraints _ rfl
  · exact couples_columnRewriteQuery hρ h (couples_codecRewriter hρ (.pure rfl))
  · exact couples_columnRewriteQuery hρ h (couples_codecRewriter hρ (.pure rfl))
  · exact couples_columnRewriteQuery hρ h (couples_codecRewriter hρ (.pure rfl))
  · exact couples_columnRewriteQuery hρ h (couples_codecRewriter hρ (couples_perColumnPlan _ _))
  · exact couples_columnRewriteQuery hρ h (couples_eetCaseRewriter hρ)
  · exact couples_eetDeterminedFilterQuery hρ h constraints
  · exact couples_columnRewriteQuery hρ h (couples_windowRewriter hρ)

theorem renames_joinBuilders : ∀ b ∈ joinBuilders context, Renames ρ ahead stems context b := by
  simp only [joinBuilders, List.forall_mem_cons, List.not_mem_nil, false_implies, implies_true,
    and_true]
  refine ⟨?_, ?_, ?_, ?_, ?_, ?_, ?_⟩ <;> rintro recurse recurse' h constraints _ rfl
  · exact couples_flagTableJoin hρ h
  · exact couples_sequenceOuterJoin hρ h
  · exact couples_leftJoinEmpty hρ h
  · exact couples_semiJoinFlagRoundTrip hρ h
  · exact couples_crossJoinFilterAsInner hρ h
  · exact couples_distinctAsGroupByQuery hρ h
  · exact couples_distinctUnionDuplicateQuery hρ h

theorem renames_expansionBuilders :
    ∀ b ∈ expansionBuilders context, Renames ρ ahead stems context b := by
  simp only [expansionBuilders, List.forall_mem_cons, List.not_mem_nil, false_implies,
    implies_true, and_true]
  refine ⟨?_, ?_, ?_, ?_, ?_, ?_, ?_, ?_, ?_, ?_⟩ <;> rintro recurse recurse' h constraints _ rfl
  · exact couples_keyDistinctReduce hρ h constraints
  · exact couples_keyGroupAggregateReduce hρ h constraints
  · exact couples_keyWindowAggregateReduce hρ h constraints
  · exact couples_keyQualifyDedupReduce hρ h constraints
  · exact couples_keyExplodeExpansion hρ h constraints
  · exact couples_keyInsertExtrasExpansion hρ h constraints
  · exact couples_tagPruneDeleteReduce hρ h constraints
  · exact couples_tagPruneFilterReduce hρ h constraints
  · exact couples_tagExplodeExpansion hρ h constraints
  · exact couples_tagInsertExtrasExpansion hρ h constraints

theorem renames_portableBuilders :
    ∀ b ∈ portableBuilders context, Renames ρ ahead stems context b := by
  intro b hb
  simp only [portableBuilders, List.mem_append, List.mem_singleton] at hb
  rcases hb with (((((hb | hb) | hb) | hb) | hb) | hb) | rfl
  · exact renames_createBuilders hρ b hb
  · exact renames_selectBuilders hρ b hb
  · exact renames_partitioningBuilders hρ b hb
  · exact renames_rewriteBuilders hρ b hb
  · exact renames_joinBuilders hρ b hb
  · exact renames_expansionBuilders hρ b hb
  · rintro recurse recurse' - constraints _ rfl
    exact couples_baseTableSource

end Factory

end EqGen.Equivalence.RenamedBuilders
