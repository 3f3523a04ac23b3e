import EqGen.Equivalence.Builders.DmlTables
import EqGen.Equivalence.Builders.Expansion
import EqGen.Equivalence.Builders.Joins
import EqGen.Equivalence.Builders.Partitioning
import EqGen.Equivalence.Builders.Rewrites
import EqGen.Equivalence.Builders.Selects

/-! The portable builders count through their requests only and drop no node they asked for. -/

namespace EqGen.Equivalence.Disciplines

open EqGen.Builder.Context
open EqGen.Builder.Accounts
open EqGen.Builder.Discipline
open EqGen.Core.Types
open EqGen.Core.Catalog
open EqGen.Ir.Expr hiding ExpressionNode
open EqGen.Equivalence.Ast
open EqGen.Equivalence.Context
open EqGen.Equivalence.Builders.Base
open EqGen.Equivalence.Builders.Creates
open EqGen.Equivalence.Builders.DmlTables
open EqGen.Equivalence.Builders.Expansion
open EqGen.Equivalence.Builders.Joins
open EqGen.Equivalence.Builders.Partitioning
open EqGen.Equivalence.Builders.Rewrites
open EqGen.Equivalence.Builders.Selects
open EqGen.Lib.Backtrack
open EqGen.Lib.Dag

section Steps

variable {context : EquivalenceContext}

theorem silent_draw : Silent (fun _ => True) (draw context) :=
  .step fun _ => ⟨_, _, rfl, trivial, rfl, rfl, rfl, rfl⟩

theorem silent_chooseOne {β : Type} (choices : Choices β) :
    Silent (fun _ => True) (chooseOne context choices) := by
  apply Silent.bind (.require _ (by simp))
  intro _ _
  apply Silent.bind (.require _ (by simp))
  intro _ _
  apply Silent.bind silent_draw
  intro drawn _
  cases choices.pick drawn with
  | none => exact .raise (by simp)
  | some value => exact .pure trivial

theorem silent_randomChoice {β : Type} (items : List β) :
    Silent (fun item => item ∈ items) (randomChoice context items) := by
  apply Silent.bind silent_draw
  intro drawn _
  cases hitem : items[drawn % items.length]? with
  | none => exact .raise (by simp)
  | some item => exact .pure (List.mem_of_getElem? hitem)

theorem silent_noteOrigin (origin : String) : Silent (fun _ => True) (noteOrigin origin) :=
  .step fun _ => ⟨_, _, rfl, trivial, rfl, rfl, rfl, rfl⟩

theorem silent_askPredicate (source : PredicateSource) :
    Silent (fun _ => True) (askPredicate context source) :=
  .step fun _ => ⟨_, _, rfl, trivial, rfl, rfl, rfl, rfl⟩

theorem silent_generateObjectName (stem : String) :
    Silent (fun _ => True) (generateObjectName stem) :=
  .step fun _ => ⟨_, _, rfl, trivial, rfl, rfl, rfl, rfl⟩

theorem silent_generateColumnName (stem : String) :
    Silent (fun _ => True) (generateColumnName stem) :=
  silent_generateObjectName stem

theorem silent_exposedOrMinted (kind : String) (exposedName : Option String) :
    Silent (fun _ => True) (exposedOrMinted context kind exposedName) := by
  cases exposedName with
  | none => exact silent_generateObjectName _
  | some name =>
      unfold exposedOrMinted
      simp only
      split
      · exact silent_generateObjectName _
      · exact .pure trivial

theorem silent_selectKey {β : Type} (candidates : List β) :
    Silent (fun key => key ∈ candidates) (selectKey context candidates) := by
  apply Silent.bind (silent_chooseOne _)
  intro strategy _
  split
  · exact silent_randomChoice candidates
  · cases candidates with
    | nil => exact .raise (by simp)
    | cons first rest => exact .pure List.mem_cons_self

theorem silent_pickIntegerKey :
    Silent (fun picked => ∀ key ∈ picked, key ∈ integerColumns context)
      (pickIntegerKey context) := by
  unfold pickIntegerKey
  cases integerColumns context with
  | nil => exact .pure (by simp)
  | cons first rest =>
      apply Silent.bind (silent_selectKey _)
      intro column hcolumn
      apply Silent.pure
      rintro key ⟨⟩
      exact hcolumn

theorem silent_generatedPredicateOf (text : String) :
    Silent (fun predicate => predicate = .generatedPredicate text)
      (generatedPredicateOf text) := by
  apply Silent.bind (.require _ (by simp))
  intro _ _
  exact .pure rfl

/-- A predicate of the plugin is a text. -/
theorem silent_generatedPredicate :
    Silent (fun generated => ∀ predicate ∈ generated, ∃ text, predicate = .generatedPredicate text)
      (generatedPredicate context) := by
  have hnone (origin : String) :
      Silent (fun generated => ∀ predicate ∈ generated, ∃ text, predicate = .generatedPredicate text)
        (noteOrigin origin >>= fun _ => pure none : Gen (Option ExpressionNode)) := by
    apply Silent.bind (silent_noteOrigin _)
    intro _ _
    exact .pure (by simp)
  unfold generatedPredicate
  cases context.predicateSource with
  | none => exact hnone _
  | some source =>
      apply Silent.bind (silent_askPredicate source)
      intro text _
      cases text with
      | none => exact hnone _
      | some text =>
          simp only
          split
          · exact hnone _
          · apply Silent.bind (silent_noteOrigin _)
            intro _ _
            apply Silent.bind (silent_generatedPredicateOf text)
            intro predicate hpredicate
            apply Silent.pure
            rintro _ ⟨⟩
            exact ⟨text, hpredicate⟩

end Steps

section Nodes

variable {context : EquivalenceContext} {allowed : Event → Prop} {depth : Nat}
variable {held rest : List EqNode}

theorem builds_newNode {label : Label} {inputs : List EqNode} (hinputs : inputs ⊆ held)
    (hrest : rest ⊆ held) (hkeep : held ⊆ inputs ++ rest) :
    Builds allowed depth held (newNode label inputs) fun node => node :: rest :=
  Builds.make (fun _ => ⟨_, rfl, rfl⟩) hinputs hrest hkeep

/-- A query over a node in hand, which stays in hand. -/
theorem builds_selectQuery {source : EqNode} {query : SelectQuery} (hsource : source ∈ held) :
    Builds allowed depth held (selectQuery source query) fun node => node :: held :=
  builds_newNode (by simpa using hsource) (List.Subset.refl _) (List.subset_append_right _ _)

/-- A query over the only node in hand. -/
theorem builds_selectQuery_last {source : EqNode} {query : SelectQuery} :
    Builds allowed depth [source] (selectQuery source query) fun node => [node] :=
  builds_newNode (List.Subset.refl _) (List.nil_subset _) (List.subset_append_left _ _)

theorem builds_unionAllQuery {branches : List EqNode} (hinputs : branches ⊆ held)
    (hrest : rest ⊆ held) (hkeep : held ⊆ branches ++ rest) :
    Builds allowed depth held (unionAllQuery branches) fun node => node :: rest := by
  apply Builds.silently (.require _ (by simp))
  intro _ _
  exact builds_newNode hinputs hrest hkeep

/-- An object over a query in hand takes its place. -/
theorem builds_createAsSelect {relationClass : RelationClass} {kind : ObjectKind}
    {keyword label : String} {query : EqNode} {exposedName : Option String} :
    Builds allowed depth (query :: rest)
      (createAsSelect context relationClass kind keyword label query exposedName)
      fun node => node :: rest := by
  apply Builds.silently (silent_exposedOrMinted _ _)
  intro name _
  exact builds_newNode (by simp) (List.subset_cons_self _ _) (by simp)

/-- An object over a query over a node that stays in hand. -/
theorem builds_over {make : EqNode → Gen EqNode} {source : EqNode} {query : SelectQuery}
    (hmake : ∀ query, Builds allowed depth (query :: held) (make query) fun node => node :: held)
    (hsource : source ∈ held) :
    Builds allowed depth held (selectQuery source query >>= make) fun node => node :: held := by
  apply Builds.bind (builds_selectQuery hsource)
  intro query
  exact hmake query

end Nodes

section Requests

variable {context : EquivalenceContext} {allowed : Event → Prop} {depth : Nat}
variable {held : List EqNode} {buildSubtree : BuildSubtree}
variable (hasks : ∀ requested constraints, Asks allowed depth (buildSubtree requested constraints))

include hasks

theorem builds_dispatchSource (constraints : ConstraintSet) :
    Builds allowed depth held (dispatchSource buildSubtree constraints)
      fun node => node :: held :=
  (hasks _ _).builds

theorem builds_materializeRowKey (keyName : String) :
    Builds allowed depth held (materializeRowKey buildSubtree context keyName)
      fun keyed => keyed.relation :: held := by
  unfold materializeRowKey
  cases passthroughItems context with
  | nil => exact Builds.decline
  | cons first rest =>
      apply Builds.bind (hasks _ _).builds
      intro keyed
      exact Builds.pure _ (List.Subset.refl _) (List.Subset.refl _)

/-- The key column is named first. -/
theorem builds_keyed {stem : String} {make : String → KeyedRelation → Gen EqNode}
    (hmake : ∀ key keyed, Builds allowed depth [keyed.relation] (make key keyed)
      fun node => [node]) :
    Builds allowed depth [] (do
      let key ← generateColumnName stem
      let keyed ← materializeRowKey buildSubtree context key
      make key keyed) fun node => [node] := by
  apply Builds.silently (silent_generateColumnName stem)
  intro key _
  apply Builds.bind (builds_materializeRowKey hasks key)
  intro keyed
  exact hmake key keyed

theorem builds_bothSides (right : ConstraintSet) :
    Builds allowed depth [] (bothSides buildSubtree right)
      fun sides => [sides.2, sides.1] := by
  apply Builds.bind (hasks _ _).optional
  intro left
  apply Builds.bind (hasks _ _).optional
  intro right
  cases left with
  | none => exact Builds.decline
  | some left =>
      cases right with
      | none => exact Builds.decline
      | some right => exact Builds.pure _ (List.Subset.refl _) (List.Subset.refl _)

/-- A query over both sides. -/
theorem builds_overBothSides {right : ConstraintSet} {make : EqNode × EqNode → Gen EqNode}
    (hmake : ∀ sides, Builds allowed depth [sides.2, sides.1] (make sides) fun node => [node]) :
    Builds allowed depth [] (bothSides buildSubtree right >>= make) fun node => [node] := by
  apply Builds.bind (builds_bothSides hasks right)
  intro sides
  exact hmake sides

end Requests

section Creates

variable {context : EquivalenceContext}

theorem disciplined_createFromQuery {wrap : EqNode → Option String → Gen EqNode}
    (hwrap : ∀ (allowed : Event → Prop) depth query exposedName,
      Builds allowed depth [query] (wrap query exposedName) fun node => [node]) :
    Disciplined fun buildSubtree => createFromQuery buildSubtree wrap := by
  intro allowed depth buildSubtree hasks constraints
  apply Builds.bind (hasks _ _).builds
  intro query
  exact hwrap allowed depth query constraints.exposedName

theorem builds_wrapMaterializedView {allowed : Event → Prop} {depth : Nat} (query : EqNode)
    (exposedName : Option String) :
    Builds allowed depth [query] (wrapMaterializedView context query exposedName)
      fun node => [node] := by
  apply Builds.bind builds_createAsSelect
  intro body
  apply Builds.bind builds_selectQuery_last
  intro all
  exact builds_createAsSelect

theorem builds_mutatedTable {allowed : Event → Prop} {depth : Nat} {query : EqNode}
    {relationClass : RelationClass} {steps : String → List SetupStep}
    {exposedName : Option String} :
    Builds allowed depth [query] (mutatedTable context relationClass steps query exposedName)
      fun node => [node] := by
  apply Builds.silently (silent_exposedOrMinted _ _)
  intro name _
  exact builds_newNode (List.Subset.refl _) (List.nil_subset _) (List.subset_append_left _ _)

theorem silent_mutationPredicate : Silent (fun _ => True) (mutationPredicate context) := by
  apply Silent.bind silent_generatedPredicate
  intro generated _
  cases generated with
  | some predicate => exact .pure trivial
  | none =>
      apply Silent.bind silent_pickIntegerKey
      intro picked _
      exact .pure trivial

theorem disciplined_deleteReinsertTable :
    Disciplined fun buildSubtree => deleteReinsertTable buildSubtree context := by
  intro allowed depth buildSubtree hasks constraints
  apply Builds.bind (hasks _ _).builds
  intro query
  apply Builds.silently silent_mutationPredicate
  intro predicate _
  exact builds_mutatedTable

theorem disciplined_noopUpdateTable :
    Disciplined fun buildSubtree => noopUpdateTable buildSubtree context := by
  intro allowed depth buildSubtree hasks constraints
  apply Builds.bind (hasks _ _).builds
  intro query
  apply Builds.silently (.guard _)
  intro _ _
  apply Builds.silently silent_mutationPredicate
  intro predicate _
  exact builds_mutatedTable

end Creates

section Selects

variable {context : EquivalenceContext}

theorem disciplined_baseTableSource :
    Disciplined fun (_ : BuildSubtree) (_ : ConstraintSet) => baseTableSource context := by
  intro allowed depth buildSubtree hasks constraints
  exact builds_newNode (List.nil_subset _) (List.nil_subset _) (List.nil_subset _)

theorem disciplined_selectStarQuery : Disciplined selectStarQuery := by
  intro allowed depth buildSubtree hasks constraints
  apply Builds.bind (builds_dispatchSource hasks constraints)
  intro source
  exact builds_selectQuery_last

theorem disciplined_projectionQuery : Disciplined projectionQuery := by
  intro allowed depth buildSubtree hasks constraints
  apply Builds.bind (builds_dispatchSource hasks constraints)
  intro source
  cases constraints.columnRewrite with
  | none => exact Builds.raise (by simp)
  | some items => exact builds_selectQuery_last

theorem disciplined_explicitProjectionQuery :
    Disciplined fun buildSubtree => explicitProjectionQuery buildSubtree context := by
  intro allowed depth buildSubtree hasks constraints
  apply Builds.silently (.guard _)
  intro _ _
  apply Builds.bind (builds_dispatchSource hasks constraints)
  intro source
  exact builds_selectQuery_last

theorem disciplined_readThroughCte (suffix : String) (materialize : Option Bool) :
    Disciplined fun buildSubtree => readThroughCte buildSubtree context suffix materialize := by
  intro allowed depth buildSubtree hasks constraints
  apply Builds.bind (builds_dispatchSource hasks constraints)
  intro source
  apply Builds.silently (silent_generateObjectName _)
  intro name _
  exact builds_newNode (List.Subset.refl _) (List.nil_subset _) (List.subset_append_left _ _)

theorem disciplined_lateralReprojectQuery :
    Disciplined fun buildSubtree (_ : ConstraintSet) => lateralReprojectQuery buildSubtree := by
  intro allowed depth buildSubtree hasks constraints
  apply Builds.bind (builds_dispatchSource hasks {})
  intro source
  apply Builds.silently (.guard _)
  intro _ _
  exact builds_newNode (List.Subset.refl _) (List.nil_subset _) (List.subset_append_left _ _)

theorem disciplined_addDropColumnQuery :
    Disciplined fun buildSubtree (_ : ConstraintSet) =>
      addDropColumnQuery buildSubtree context := by
  intro allowed depth buildSubtree hasks constraints
  apply Builds.silently (.guard _)
  intro _ _
  apply Builds.bind (builds_dispatchSource hasks {})
  intro source
  apply Builds.silently (silent_generateColumnName _)
  intro extraName _
  apply Builds.bind builds_selectQuery_last
  intro query
  apply Builds.bind builds_createAsSelect
  intro wider
  exact builds_selectQuery_last

theorem disciplined_selectOrdered
    (query : List ProjectionItem → ExpressionNode → SelectQuery) :
    Disciplined fun buildSubtree (_ : ConstraintSet) =>
      selectOrdered buildSubtree context query := by
  intro allowed depth buildSubtree hasks constraints
  unfold selectOrdered
  cases passthroughItems context with
  | nil => exact Builds.decline
  | cons first rest =>
      apply Builds.bind (builds_dispatchSource hasks {})
      intro source
      exact builds_selectQuery_last

theorem disciplined_distinctAsGroupByQuery :
    Disciplined fun buildSubtree (_ : ConstraintSet) =>
      distinctAsGroupByQuery buildSubtree context := by
  intro allowed depth buildSubtree hasks constraints
  apply builds_keyed hasks
  intro key keyed
  apply Builds.silently (.guard _)
  intro _ _
  exact builds_selectQuery_last

end Selects

section Partitioning

variable {context : EquivalenceContext}

/-- The branches come into hand in the other order. -/
theorem builds_filteredBranches {allowed : Event → Prop} {depth : Nat} {held : List EqNode}
    {buildSubtree : BuildSubtree}
    (hasks : ∀ requested constraints, Asks allowed depth (buildSubtree requested constraints))
    (current : Option ExpressionNode) (predicates : List ExpressionNode) :
    Builds allowed depth held (filteredBranches buildSubtree current predicates)
      fun branches => branches.reverse ++ held := by
  induction predicates generalizing held with
  | nil => exact Builds.pure _ (List.Subset.refl _) (List.Subset.refl _)
  | cons predicate rest ih =>
      apply Builds.bind (hasks _ _).builds
      intro branch
      apply Builds.bind ih
      intro branches
      apply Builds.pure
      · intro node hnode
        simpa using hnode
      · intro node hnode
        simpa using hnode

theorem builds_unionOfBranches {allowed : Event → Prop} {depth : Nat} (branches : List EqNode) :
    Builds allowed depth (branches.reverse ++ []) (unionAllQuery branches)
      fun node => [node] := by
  apply builds_unionAllQuery
  · intro node hnode
    simpa using hnode
  · exact List.nil_subset _
  · intro node hnode
    simpa using hnode

theorem disciplined_partitionUnionQuery :
    Disciplined fun buildSubtree => partitionUnionQuery buildSubtree context := by
  intro allowed depth buildSubtree hasks constraints
  apply Builds.silently silent_pickIntegerKey
  intro picked _
  apply Builds.silently (.fromOption picked)
  intro key _
  apply Builds.bind (builds_filteredBranches hasks _ _)
  intro branches
  exact builds_unionOfBranches branches

theorem disciplined_tlpPartitionUnionQuery :
    Disciplined fun buildSubtree => tlpPartitionUnionQuery buildSubtree context := by
  intro allowed depth buildSubtree hasks constraints
  apply Builds.silently silent_generatedPredicate
  intro generated _
  apply Builds.silently (.fromOption generated)
  intro predicate _
  apply Builds.bind (builds_filteredBranches hasks _ _)
  intro branches
  exact builds_unionOfBranches branches

/-- The views come into hand in the other order; the last of them takes in the keyed relation. -/
theorem builds_residueViews {allowed : Event → Prop} {depth : Nat} {held : List EqNode}
    {keyed : KeyedRelation} {rankName : String} {modulus : Nat} (residue : Nat)
    (rest : List Nat) :
    Builds allowed depth (keyed.relation :: held)
      (residueViews context keyed rankName modulus (residue :: rest))
      fun views => views.reverse ++ held := by
  induction rest generalizing residue held with
  | nil =>
      have hquery (query : SelectQuery) : Builds allowed depth (keyed.relation :: held)
          (selectQuery keyed.relation query) fun node => node :: held :=
        builds_newNode (by simp) (List.subset_cons_self _ _) (by simp)
      apply Builds.bind (hquery _)
      intro query
      apply Builds.bind builds_createAsSelect
      intro view
      exact Builds.pure _ (List.Subset.refl _) (List.Subset.refl _)
  | cons next rest ih =>
      apply Builds.bind (builds_selectQuery List.mem_cons_self)
      intro query
      apply Builds.bind builds_createAsSelect
      intro view
      have hrest := @ih (view :: held) next
      apply Builds.bind (hrest.reorder (List.Perm.swap _ _ _).subset (List.Perm.swap _ _ _).subset)
      intro views
      apply Builds.pure
      · intro node hnode
        simpa using hnode
      · intro node hnode
        simpa using hnode

theorem builds_unionAllQuery_nil {allowed : Event → Prop} {depth : Nat} {held : List EqNode}
    {out : EqNode → List EqNode} : Builds allowed depth held (unionAllQuery []) out := by
  intro s _
  exact ⟨by simp, [], Progress.refl allowed _⟩

theorem builds_residues {allowed : Event → Prop} {depth : Nat} {keyed : KeyedRelation}
    {rankName : String} {modulus : Nat} (residues : List Nat) :
    Builds allowed depth [keyed.relation] (do
      let branches ← residueViews context keyed rankName modulus residues
      unionAllQuery branches) fun node => [node] := by
  cases residues with
  | nil => exact builds_unionAllQuery_nil
  | cons residue rest =>
      apply Builds.bind (builds_residueViews residue rest)
      intro branches
      exact builds_unionOfBranches branches

theorem disciplined_rankModUnionQuery :
    Disciplined fun buildSubtree (_ : ConstraintSet) =>
      rankModUnionQuery buildSubtree context := by
  intro allowed depth buildSubtree hasks constraints
  apply Builds.silently (silent_randomChoice _)
  intro modulus _
  apply builds_keyed hasks
  intro key keyed
  apply Builds.silently (.guard _)
  intro _ _
  exact builds_residues (List.range modulus)

theorem disciplined_unionEmptyRoundTrip :
    Disciplined fun buildSubtree (_ : ConstraintSet) => unionEmptyRoundTrip buildSubtree := by
  intro allowed depth buildSubtree hasks constraints
  apply builds_overBothSides hasks
  intro sides
  exact builds_unionOfBranches [sides.1, sides.2]

/-- A query node over both sides. -/
theorem builds_newQuery_both {allowed : Event → Prop} {depth : Nat} {shape : QueryShape}
    {left right : EqNode} :
    Builds allowed depth [right, left] (newQuery shape [left, right]) fun node => [node] :=
  builds_newNode (List.Perm.swap _ _ _).subset (List.nil_subset _) (List.Perm.swap _ _ _).subset

theorem disciplined_exceptEmptyRoundTrip :
    Disciplined fun buildSubtree (_ : ConstraintSet) => exceptEmptyRoundTrip buildSubtree := by
  intro allowed depth buildSubtree hasks constraints
  apply builds_overBothSides hasks
  intro sides
  exact builds_newQuery_both

theorem disciplined_intersectSelfRoundTrip :
    Disciplined fun buildSubtree (_ : ConstraintSet) => intersectSelfRoundTrip buildSubtree := by
  intro allowed depth buildSubtree hasks constraints
  apply builds_overBothSides hasks
  intro sides
  exact builds_newQuery_both

theorem disciplined_distinctUnionDuplicateQuery :
    Disciplined fun buildSubtree (_ : ConstraintSet) =>
      distinctUnionDuplicateQuery buildSubtree context := by
  intro allowed depth buildSubtree hasks constraints
  apply Builds.silently (.guard _)
  intro _ _
  apply Builds.silently (.guard _)
  intro _ _
  apply builds_keyed hasks
  intro key keyed
  apply Builds.silently (.guard _)
  intro _ _
  have htwice : Builds allowed depth [keyed.relation]
      (unionAllQuery [keyed.relation, keyed.relation]) fun node => [node] :=
    builds_unionAllQuery (by simp) (List.nil_subset _) (by simp)
  apply Builds.bind htwice
  intro twice
  apply Builds.bind builds_createAsSelect
  intro doubled
  apply Builds.bind builds_selectQuery_last
  intro once
  apply Builds.bind builds_createAsSelect
  intro deduped
  exact builds_selectQuery_last

end Partitioning

section Rewrites

variable {context : EquivalenceContext}

/-- A rewriter that makes no node. -/
def SilentRewriter (rewrite : ColumnRewriter) : Prop :=
  ∀ name dataType, Silent (fun _ => True) (rewrite name dataType)

theorem silent_rewriteItems {rewrite : ColumnRewriter} (hrewrite : SilentRewriter rewrite)
    (columns : List Column) : Silent (fun _ => True) (rewriteItems rewrite columns) := by
  induction columns with
  | nil => exact .pure trivial
  | cons column rest ih =>
      apply Silent.bind (hrewrite _ _)
      intro rewritten _
      apply Silent.bind ih
      intro items _
      cases rewritten with
      | none => exact .pure trivial
      | some expr => exact .pure trivial

theorem disciplined_columnRewriteQuery {columnRewriter : Gen ColumnRewriter}
    (hrewriter : Silent SilentRewriter columnRewriter) :
    Disciplined fun buildSubtree (_ : ConstraintSet) =>
      columnRewriteQuery buildSubtree context columnRewriter := by
  intro allowed depth buildSubtree hasks constraints
  apply Builds.silently hrewriter
  intro rewrite hrewrite
  apply Builds.silently (silent_rewriteItems hrewrite _)
  intro items _
  apply Builds.silently (.guard _)
  intro _ _
  apply Builds.bind (builds_dispatchSource hasks {})
  intro source
  exact builds_selectQuery_last

theorem silent_freePredicate : Silent (fun _ => True) (freePredicate context) := by
  apply Silent.bind silent_generatedPredicate
  intro generated _
  cases generated with
  | some predicate => exact .pure trivial
  | none =>
      simp only
      cases context.baseTable.columns with
      | nil => exact .pure trivial
      | cons first rest =>
          apply Silent.bind (silent_noteOrigin _)
          intro _ _
          apply Silent.bind (silent_selectKey _)
          intro column _
          split
          · exact .pure trivial
          · exact .pure trivial

theorem silent_eetCaseRewriter : Silent SilentRewriter (eetCaseRewriter context) := by
  apply Silent.bind silent_freePredicate
  intro tried _
  cases tried with
  | none => exact .pure fun _ _ => .pure trivial
  | some _ =>
      apply Silent.pure
      intro name dataType
      apply Silent.bind silent_freePredicate
      intro predicate _
      exact .pure trivial

theorem disciplined_eetDeterminedFilterQuery :
    Disciplined fun buildSubtree => eetDeterminedFilterQuery buildSubtree context := by
  intro allowed depth buildSubtree hasks constraints
  apply Builds.silently silent_freePredicate
  intro free _
  apply Builds.silently (.fromOption free)
  intro predicate _
  apply Builds.bind (builds_dispatchSource hasks constraints)
  intro source
  exact builds_selectQuery_last

theorem silent_codecRewriter {assignment : Gen (List (String × ValueCodec))}
    (hassignment : Silent (fun _ => True) assignment) :
    Silent SilentRewriter (codecRewriter assignment) := by
  apply Silent.bind hassignment
  intro plan _
  exact .pure fun _ _ => .pure trivial

theorem silent_perColumnPlan (codecs : List ValueCodec) (columns : List Column) :
    Silent (fun _ => True) (perColumnPlan context codecs columns) := by
  induction columns with
  | nil => exact .pure trivial
  | cons column rest ih =>
      unfold perColumnPlan
      split
      · apply Silent.bind (silent_randomChoice codecs)
        intro codec _
        apply Silent.bind ih
        intro plan _
        exact .pure trivial
      · exact ih

theorem silent_windowRewriter : Silent SilentRewriter (windowRewriter context) := by
  apply Silent.bind (silent_chooseOne _)
  intro choice _
  apply Silent.bind (silent_chooseOne _)
  intro frameChoice _
  exact .pure fun _ _ => .pure trivial

end Rewrites

section Joins

variable {context : EquivalenceContext} {allowed : Event → Prop} {depth : Nat}

theorem disciplined_leftJoinEmpty :
    Disciplined fun buildSubtree (_ : ConstraintSet) => leftJoinEmpty buildSubtree context := by
  intro allowed depth buildSubtree hasks constraints
  apply Builds.silently (.guard _)
  intro _ _
  apply builds_overBothSides hasks
  intro sides
  exact builds_newQuery_both

/-- A table of flags over the keyed relation, which stays in hand. -/
theorem builds_flagTable {keyed : KeyedRelation} {query : SelectQuery}
    {make : EqNode → Gen EqNode}
    (hmake : ∀ flagTable, Builds allowed depth [flagTable, keyed.relation] (make flagTable)
      fun node => [node]) :
    Builds allowed depth [keyed.relation] (do
      let flags ← selectQuery keyed.relation query
      let flagTable ← createTable context flags none
      make flagTable) fun node => [node] := by
  apply Builds.bind (builds_selectQuery (List.mem_singleton_self _))
  intro flags
  apply Builds.bind builds_createAsSelect
  intro flagTable
  exact hmake flagTable

theorem disciplined_semiJoinFlagRoundTrip :
    Disciplined fun buildSubtree (_ : ConstraintSet) =>
      semiJoinFlagRoundTrip buildSubtree context := by
  intro allowed depth buildSubtree hasks constraints
  apply builds_keyed hasks
  intro uid keyed
  apply Builds.silently (.guard _)
  intro _ _
  apply builds_flagTable
  intro flagTable
  exact builds_newQuery_both

theorem disciplined_flagTableJoin :
    Disciplined fun buildSubtree (_ : ConstraintSet) => flagTableJoin buildSubtree context := by
  intro allowed depth buildSubtree hasks constraints
  apply Builds.silently (silent_generateColumnName _)
  intro uid _
  apply Builds.silently (silent_generateColumnName _)
  intro flag _
  apply Builds.bind (builds_materializeRowKey hasks uid)
  intro keyed
  apply builds_flagTable
  intro flagTable
  apply Builds.silently (silent_chooseOne _)
  intro joinType _
  exact builds_newQuery_both

theorem disciplined_crossJoinFilterAsInner :
    Disciplined fun buildSubtree (_ : ConstraintSet) =>
      crossJoinFilterAsInner buildSubtree context := by
  intro allowed depth buildSubtree hasks constraints
  apply builds_keyed hasks
  intro uid keyed
  apply Builds.silently (.guard _)
  intro _ _
  apply builds_flagTable
  intro flagTable
  exact builds_newQuery_both

theorem disciplined_sequenceOuterJoin :
    Disciplined fun buildSubtree (_ : ConstraintSet) =>
      sequenceOuterJoin buildSubtree context := by
  intro allowed depth buildSubtree hasks constraints
  apply builds_keyed hasks
  intro key keyed
  apply Builds.silently (.guard _)
  intro _ _
  apply Builds.bind (builds_selectQuery (List.mem_singleton_self _))
  intro left
  apply Builds.bind builds_createAsSelect
  intro left
  -- the second half takes in the keyed relation, which the first still reads
  have hright (query : SelectQuery) : Builds allowed depth [left, keyed.relation]
      (selectQuery keyed.relation query) fun node => [node, left] :=
    builds_newNode (by simp) (by simp) (by simp)
  apply Builds.bind (hright _)
  intro right
  apply Builds.bind builds_createAsSelect
  intro right
  exact builds_newQuery_both

end Joins

section Expansion

variable {context : EquivalenceContext} {allowed : Event → Prop} {depth : Nat}
variable {buildSubtree : BuildSubtree}

/-- The node over an expansion takes in the child. -/
theorem builds_overChild {label : Label} {child : EqNode} :
    Builds allowed depth [child] (newNode label [child]) fun node => [node] :=
  builds_newNode (List.Subset.refl _) (List.nil_subset _) (List.subset_append_left _ _)

/-- The union of a node and of copies of one that reads it. -/
theorem builds_copies {kept thrown : EqNode} (copies : Nat) :
    Builds allowed depth [thrown, kept]
      (unionAllQuery (kept :: List.replicate copies thrown)) fun node => [node] := by
  cases copies with
  | zero =>
      intro s _
      exact ⟨by simp, [], Progress.refl allowed _⟩
  | succ n =>
      apply builds_unionAllQuery
      · intro node hnode
        simp only [List.mem_cons, List.mem_replicate] at hnode ⊢
        rcases hnode with rfl | ⟨-, rfl⟩
        · simp
        · simp
      · exact List.nil_subset _
      · simp

/-- A table that what comes next may leave out. -/
theorem builds_spareTable {kept : EqNode} {query : SelectQuery} {β : Type}
    {choice : Gen β} (hchoice : Silent (fun _ => True) choice)
    {make : EqNode → β → Gen EqNode}
    (hmake : ∀ table b, Builds allowed depth [table, kept] (make table b) (fun node => [node]) ∨
      Builds allowed depth [kept] (make table b) fun node => [node]) :
    Builds allowed depth [kept] (do
      let read ← selectQuery kept query
      let table ← createTable context read none
      let b ← choice
      make table b) fun node => [node] := by
  let table := selectQuery kept query >>= fun read => createTable context read none
  let both := table >>= fun table => choice >>= fun b => pure (table, b)
  have hassoc : (selectQuery kept query >>= fun read => createTable context read none >>=
      fun table => choice >>= make table) = both >>= fun pair => make pair.1 pair.2 := by
    simp only [both, table, Attempt.bind_assoc]
    rfl
  rw [hassoc]
  apply @Builds.bindEither _ _ _ _ _ _ _ _ _ (fun pair => [pair.1, kept]) _ fun _ => [kept]
  · apply Builds.bind (builds_over (fun _ => builds_createAsSelect) (List.mem_singleton_self _))
    intro table
    apply Builds.silently hchoice
    intro b _
    exact Builds.pure _ (List.Subset.refl _) (List.Subset.refl _)
  · have htable : Builds allowed depth [kept] table fun _ => [kept] := by
      apply Builds.bind (Builds.discard fun _ => ⟨_, rfl, rfl⟩)
      intro read
      apply Builds.silently (silent_exposedOrMinted _ _)
      intro name _
      exact Builds.discard fun _ => ⟨_, rfl, rfl⟩
    apply Builds.bind htable
    intro table
    apply Builds.silently hchoice
    intro b _
    exact Builds.pure _ (List.Subset.refl _) (List.Subset.refl _)
  · intro pair
    exact hmake pair.1 pair.2

theorem disciplined_tagExplodeExpansion :
    Disciplined fun buildSubtree => tagExplodeExpansion buildSubtree context := by
  intro allowed depth buildSubtree hasks constraints
  apply Builds.silently (.fromOption _)
  intro channel _
  apply Builds.silently (.guard _)
  intro _ _
  apply Builds.bind (hasks _ _).builds
  intro kept
  apply builds_spareTable (silent_chooseOne _)
  intro thrown rowcount
  by_cases hsingle : (kept :: List.replicate (rowcount - 1) thrown).length = 1
  · right
    simp only [hsingle, if_true]
    apply Builds.bind builds_selectQuery_last
    intro query
    exact builds_createAsSelect
  · left
    simp only [hsingle, if_false]
    apply Builds.bind (builds_copies _)
    intro query
    exact builds_createAsSelect

theorem disciplined_tagInsertExtrasExpansion :
    Disciplined fun buildSubtree => tagInsertExtrasExpansion buildSubtree context := by
  intro allowed depth buildSubtree hasks constraints
  apply Builds.silently (.fromOption _)
  intro channel _
  apply Builds.silently (.guard _)
  intro _ _
  apply Builds.bind (hasks _ _).builds
  intro child
  exact builds_overChild

theorem disciplined_keyExplodeExpansion :
    Disciplined fun buildSubtree => keyExplodeExpansion buildSubtree context := by
  intro allowed depth buildSubtree hasks constraints
  apply Builds.silently (.fromOption _)
  intro channel _
  apply Builds.bind (builds_materializeRowKey hasks _)
  intro keyed
  apply Builds.silently (silent_chooseOne _)
  intro rowcount _
  apply @Builds.bind _ _ _ _ _ _ _ _ _ fun node => [node]
  · cases rowcount with
    | zero => exact builds_unionAllQuery_nil
    | succ n =>
        apply builds_unionAllQuery
        · intro node hnode
          rw [(List.mem_replicate.mp hnode).2]
          exact List.mem_singleton_self _
        · exact List.nil_subset _
        · simp
  · intro query
    exact builds_createAsSelect

theorem disciplined_keyInsertExtrasExpansion :
    Disciplined keyInsertExtrasExpansion := by
  intro allowed depth buildSubtree hasks constraints
  apply Builds.silently (.fromOption _)
  intro channel _
  apply Builds.bind (hasks _ _).builds
  intro child
  exact builds_overChild

theorem builds_buildReduced
    (hasks : ∀ requested constraints, Asks allowed depth (buildSubtree requested constraints))
    (requiresDml : Bool) :
    Builds allowed depth [] (buildReduced buildSubtree context requiresDml)
      fun built => [built.child] := by
  apply Builds.silently (.guard _)
  intro _ _
  apply Builds.silently (silent_generateColumnName _)
  intro tagCol _
  apply Builds.bind (hasks _ _).builds
  intro child
  exact Builds.pure _ (List.Subset.refl _) (List.Subset.refl _)

theorem builds_buildKeyed
    (hasks : ∀ requested constraints, Asks allowed depth (buildSubtree requested constraints)) :
    Builds allowed depth [] (buildKeyed buildSubtree context) fun built => [built.child] := by
  apply Builds.silently (.guard _)
  intro _ _
  apply Builds.silently (silent_generateColumnName _)
  intro keyCol _
  apply Builds.bind (hasks _ _).builds
  intro child
  exact Builds.pure _ (List.Subset.refl _) (List.Subset.refl _)

theorem disciplined_tagPruneDeleteReduce :
    Disciplined fun buildSubtree => tagPruneDeleteReduce buildSubtree context := by
  intro allowed depth buildSubtree hasks constraints
  apply Builds.bind (builds_buildReduced hasks true)
  intro built
  apply Builds.silently (silent_exposedOrMinted _ _)
  intro name _
  exact builds_overChild

theorem disciplined_tagPruneFilterReduce :
    Disciplined fun buildSubtree => tagPruneFilterReduce buildSubtree context := by
  intro allowed depth buildSubtree hasks constraints
  apply Builds.bind (builds_buildReduced hasks false)
  intro built
  apply Builds.bind builds_selectQuery_last
  intro query
  exact builds_createAsSelect

theorem builds_collapse {built : Expanded} {query : SelectQuery} {constraints : ConstraintSet} :
    Builds allowed depth [built.child] (collapse context built query constraints)
      fun node => [node] := by
  apply Builds.bind builds_selectQuery_last
  intro query
  apply Builds.bind builds_createAsSelect
  intro collapsed
  apply Builds.bind builds_selectQuery_last
  intro outer
  exact builds_createAsSelect

theorem disciplined_keyDistinctReduce :
    Disciplined fun buildSubtree => keyDistinctReduce buildSubtree context := by
  intro allowed depth buildSubtree hasks constraints
  apply Builds.silently (.guard _)
  intro _ _
  apply Builds.silently (.guard _)
  intro _ _
  apply Builds.bind (builds_buildKeyed hasks)
  intro built
  exact builds_collapse

theorem disciplined_keyGroupAggregateReduce :
    Disciplined fun buildSubtree => keyGroupAggregateReduce buildSubtree context := by
  intro allowed depth buildSubtree hasks constraints
  apply Builds.bind (builds_buildKeyed hasks)
  intro built
  apply Builds.bind builds_selectQuery_last
  intro query
  exact builds_createAsSelect

theorem disciplined_keyWindowAggregateReduce :
    Disciplined fun buildSubtree => keyWindowAggregateReduce buildSubtree context := by
  intro allowed depth buildSubtree hasks constraints
  apply Builds.silently (.guard _)
  intro _ _
  apply Builds.silently (.guard _)
  intro _ _
  apply Builds.bind (builds_buildKeyed hasks)
  intro built
  exact builds_collapse

theorem disciplined_keyQualifyDedupReduce :
    Disciplined fun buildSubtree => keyQualifyDedupReduce buildSubtree context := by
  intro allowed depth buildSubtree hasks constraints
  apply Builds.bind (builds_buildKeyed hasks)
  intro built
  exact builds_collapse

end Expansion

end EqGen.Equivalence.Disciplines
