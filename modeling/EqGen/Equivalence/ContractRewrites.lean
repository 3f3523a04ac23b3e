import EqGen.Equivalence.Builders.Rewrites
import EqGen.Equivalence.ContractQueries

/-! The builders that replace columns by expressions of the same value keep the contract. -/

namespace EqGen.Equivalence.ContractRewrites

open Classical
open EqGen.Builder.Promises
open EqGen.Core.Catalog
open EqGen.Core.Types
open EqGen.Equivalence.Ast
open EqGen.Equivalence.Builders.Base
open EqGen.Equivalence.Builders.Rewrites
open EqGen.Equivalence.Context
open EqGen.Equivalence.ContractQueries
open EqGen.Equivalence.ContractSteps
open EqGen.Equivalence.Contracts
open EqGen.Equivalence.Copies
open EqGen.Equivalence.Expansion
open EqGen.Equivalence.Factory
open EqGen.Equivalence.RowIdentities
open EqGen.Equivalence.Rows hiding windowed
open EqGen.Equivalence.Semantics
open EqGen.Ir.Expr hiding ExpressionNode
open EqGen.Lib.Ascent
open EqGen.Lib.Backtrack

variable {V : Type} {engine : Engine V} {context : EquivalenceContext}
variable {base : BaseRows V context.baseTable} {scope : Scope V}
variable {pool : List EquivalenceBuilder} {constraints : ConstraintSet} {s : GenerationState}

section Truths

/-- The expression is true, false or unknown, and calls no aggregate. -/
structure Condition (engine : Engine V) (predicate : ExpressionNode) : Prop where
  plain : aggregates predicate = false
  truth : ∀ sight : Sight V, ∃ t, engine.eval sight predicate = .ofTruth t

theorem condition_generatedPredicate (text : String) :
    Condition engine (.generatedPredicate text) :=
  ⟨rfl, fun _ => ⟨_, rfl⟩⟩

theorem condition_ge (name : String) (dataType : SqlType) :
    Condition engine (ge (col name dataType) (col name dataType)) :=
  ⟨rfl, fun _ => ⟨_, rfl⟩⟩

theorem condition_isNull (name : String) (dataType : SqlType) :
    Condition engine (.isNull (col name dataType) false) :=
  ⟨rfl, fun _ => ⟨some _, rfl⟩⟩

/-- A condition, its negation or that it is unknown. -/
theorem Condition.determinedTrue {predicate : ExpressionNode} (h : Condition engine predicate)
    (sight : Sight V) : (engine.eval sight (determinedTrue predicate)).truth = some true := by
  obtain ⟨t, ht⟩ := h.truth sight
  simp only [Ir.Expr.determinedTrue, Engine.eval, ht, Value.truth_ofTruth]
  cases t with
  | none => rfl
  | some value => cases value <;> rfl

variable (engine) in
theorem leads_freePredicate : Leads s (freePredicate context) fun tried _ =>
    ∀ predicate ∈ tried, Condition engine predicate := by
  refine leads_generatedPredicate.bind ?_
  intro generated s₁ _ hgenerated
  cases generated with
  | some predicate =>
      refine Leads.pure ?_
      rintro _ ⟨rfl⟩
      obtain ⟨text, rfl⟩ := hgenerated predicate rfl
      exact condition_generatedPredicate text
  | none =>
      cases hcolumns : context.baseTable.columns with
      | nil => exact Leads.pure (by simp)
      | cons first rest =>
          refine (leads_noteOrigin _).bind ?_
          intro _ s₂ _ _
          refine (leads_selectKey (first :: rest)).bind ?_
          intro column s₃ _ _
          show Leads s₃ (if column.dataType.getProperties.orderable then _ else _) _
          split
          · refine Leads.pure ?_
            rintro _ ⟨rfl⟩
            exact condition_ge _ _
          · refine Leads.pure ?_
            rintro _ ⟨rfl⟩
            exact condition_isNull _ _

end Truths

section Rewriters

/-- The rewriter replaces a column by an expression of its value. -/
def Faithful (engine : Engine V) (rewrite : ColumnRewriter) : Prop :=
  ∀ name dataType s, Leads s (rewrite name dataType) fun rewritten _ =>
    ∀ expr ∈ rewritten, Recomputes engine ⟨name, expr, dataType⟩

theorem leads_rewriteItems {rewrite : ColumnRewriter} (h : Faithful engine rewrite)
    (columns : List Column) : Leads s (rewriteItems rewrite columns) fun items _ =>
      items.1.map ProjectionItem.name = columns.map Column.name ∧
        ∀ item ∈ items.1, Recomputes engine item := by
  induction columns generalizing s with
  | nil => exact Leads.pure ⟨rfl, by simp⟩
  | cons column rest ih =>
      refine (h column.name column.dataType s).bind ?_
      intro rewritten s₁ _ hrewritten
      refine ih.bind ?_
      rintro items s₂ _ ⟨hnames, hitems⟩
      cases rewritten with
      | none =>
          refine Leads.pure ⟨?_, ?_⟩
          · rw [List.map_cons, List.map_cons, hnames]
            rfl
          · rw [List.forall_mem_cons]
            exact ⟨recomputes_passthrough _ _, hitems⟩
      | some expr =>
          refine Leads.pure ⟨?_, ?_⟩
          · rw [List.map_cons, List.map_cons, hnames]
          · rw [List.forall_mem_cons]
            exact ⟨hrewritten expr rfl, hitems⟩

/-- Columns rewritten faithfully are the columns of the base rows. -/
theorem leads_columnRewriteQuery {columnRewriter : Gen ColumnRewriter}
    (hrewriter : ∀ s, Leads s columnRewriter fun rewrite _ => Faithful engine rewrite)
    {recurse : BuildSubtree} (hrecurse : Answering engine base scope pool recurse) :
    Leads s (columnRewriteQuery recurse context columnRewriter) fun node _ =>
      QueryHolds engine base scope (baseRelation base) node := by
  refine (hrewriter s).bind ?_
  intro rewrite s₁ _ hrewrite
  refine (leads_rewriteItems hrewrite context.baseTable.columns).bind ?_
  rintro items s₂ _ ⟨hnames, hitems⟩
  refine Leads.bind (Q := fun _ _ => True) (Leads.guard fun _ => trivial) ?_
  intro _ s₃ _ _
  refine (leads_dispatchSource hrecurse).bind ?_
  intro source s₄ _ hsource
  apply leads_selectStill hsource
  · exact hnames
  intro occasion
  rw [select_recomputed rfl rfl rfl hitems rfl (fun _ _ => keeps_none engine _)]
  · simp
  · rw [hnames]
    exact base.supported

theorem recomputes_eetCase {predicate : ExpressionNode} (h : Condition engine predicate)
    (name : String) (dataType : SqlType) :
    Recomputes engine ⟨name, eetCase predicate name dataType, dataType⟩ := by
  apply recomputes_of_sight
  · simp [eetCase, aggregates, determinedTrue, h.plain, col]
  · intro sight
    show (if (engine.eval sight (determinedTrue predicate)).truth = some true then
      engine.eval sight (col name dataType) else _) = _
    rw [if_pos (h.determinedTrue sight)]
    rfl

theorem eq_null_of_isNull {value : Value V} (h : value.isNull = true) : value = .null := by
  cases value with
  | null => rfl
  | int _ | bool _ | other _ => cases h

theorem recomputes_codecRoundTrip (codec : ValueCodec) (name : String) (dataType : SqlType) :
    Recomputes engine ⟨name, codecRoundTrip codec name dataType, dataType⟩ := by
  apply recomputes_of_sight rfl
  intro sight
  show (if (Value.bool ((sight.row name).isNull != false) : Value V).truth = some true then
    Value.null else sight.row name) = sight.row name
  by_cases hnull : (sight.row name).isNull = true
  · rw [if_pos (by rw [hnull]; rfl)]
    exact (eq_null_of_isNull hnull).symm
  · rw [if_neg (by rw [Bool.not_eq_true] at hnull; rw [hnull]; exact nofun)]

/-- A function over the rows that agree on a column gives what they agree on. -/
theorem recomputes_windowed {function : WindowFunction} (hfunction : function ≠ .rowNumber)
    (frame : Option WindowFrameKind) (ordered : Bool) (name : String) (dataType : SqlType) :
    Recomputes engine ⟨name, windowed function frame ordered name dataType, dataType⟩ where
  plain := by
    cases ordered <;> rfl
  eval_eq := by
    intro occasion rows query entry hentry
    have hchoose : ∀ skipNulls call, engine.choose occasion call entry.2
        (engine.candidates skipNulls ((engine.partition
          ((kept engine occasion rows query).map rowSight) [col name dataType]
            (rowSight entry.1)).map Prod.fst) (col name dataType)) = entry.1 name := by
      intro skipNulls call
      apply choose_candidates engine occasion
      · apply List.ne_nil_of_mem (a := rowSight entry.1)
        exact List.mem_map_of_mem (mem_partition engine hentry _)
      · intro sight hsight
        obtain ⟨other, hother, rfl⟩ := List.mem_map.mp hsight
        rw [Engine.partition, List.mem_filter] at hother
        have hsame := of_decide_eq_true hother.2
        exact (List.cons.inj hsame).1
    cases function with
    | rowNumber => exact absurd rfl hfunction
    | min | max | firstValue | lastValue => exact hchoose _ _

theorem faithful_windowed {function : WindowFunction} (hfunction : function ≠ .rowNumber)
    (frame : Option WindowFrameKind) (ordered : Bool) :
    Faithful engine fun name dataType => pure (if eligible dataType function ordered then
      some (windowed function frame ordered name dataType) else none) := by
  intro name dataType s
  refine Leads.pure ?_
  intro expr hexpr
  split at hexpr
  · obtain rfl := Option.some.inj hexpr
    exact recomputes_windowed hfunction frame ordered name dataType
  · cases hexpr

theorem leads_windowRewriter : Leads s (windowRewriter context) fun rewrite _ =>
    Faithful engine rewrite := by
  refine (leads_chooseOne _).bind ?_
  intro choice s₁ _ _
  refine (leads_chooseOne _).bind ?_
  intro frameChoice s₂ _ _
  have hfunction : windowFunction choice ≠ .rowNumber := by
    cases choice <;> exact nofun
  exact Leads.pure (faithful_windowed hfunction _ _)

theorem leads_eetCaseRewriter : Leads s (eetCaseRewriter context) fun rewrite _ =>
    Faithful engine rewrite := by
  refine (leads_freePredicate engine).bind ?_
  intro tried s₁ _ _
  cases tried with
  | none => exact Leads.pure fun _ _ _ => Leads.pure (by simp)
  | some _ =>
      refine Leads.pure ?_
      intro name dataType s
      refine (leads_freePredicate engine).bind ?_
      intro predicate s₂ _ hpredicate
      refine Leads.pure ?_
      intro expr hexpr
      obtain ⟨condition, hcondition, rfl⟩ := Option.map_eq_some_iff.mp hexpr
      exact recomputes_eetCase (hpredicate condition hcondition) name dataType

theorem leads_codecRewriter {assignment : Gen (List (String × ValueCodec))}
    (h : ∀ s, Leads s assignment fun _ _ => True) :
    Leads s (codecRewriter assignment) fun rewrite _ => Faithful engine rewrite := by
  refine (h s).bind ?_
  intro plan s₁ _ _
  refine Leads.pure ?_
  intro name dataType s
  refine Leads.pure ?_
  intro expr hexpr
  obtain ⟨codec, -, rfl⟩ := Option.map_eq_some_iff.mp hexpr
  exact recomputes_codecRoundTrip codec name dataType

theorem leads_perColumnPlan (codecs : List ValueCodec) (columns : List Column) :
    Leads s (perColumnPlan context codecs columns) fun _ _ => True := by
  induction columns generalizing s with
  | nil => exact Leads.pure trivial
  | cons column rest ih =>
      unfold perColumnPlan
      split
      · refine (leads_randomChoice codecs).bind ?_
        intro codec s₁ _ _
        exact ih.bind fun _ _ _ _ => Leads.pure trivial
      · exact ih

end Rewriters

section Builders

/-- A filter on top of one that every row passes. -/
theorem passing_determinedTrue {predicate : ExpressionNode} (h : Condition engine predicate)
    (current : Option ExpressionNode) :
    passing engine base (some (conjoin current (determinedTrue predicate))) =
      passing engine base current := by
  apply Multiset.filter_congr
  intro row _
  rw [keeps_conjoin, keeps_some, h.determinedTrue]
  simp

theorem leads_eetDeterminedFilterQuery {recurse : BuildSubtree}
    (hrecurse : Answering engine base scope pool recurse) :
    Leads s (eetDeterminedFilterQuery recurse context constraints) fun node _ =>
      QueryHolds engine base scope ⟨context.baseTable.columnNames,
        fun _ => passing engine base constraints.rowFilter⟩ node := by
  refine (leads_freePredicate engine).bind ?_
  intro free s₁ _ hfree
  refine Leads.bind (Q := fun predicate _ => Condition engine predicate)
    (Leads.fromOption fun predicate hpredicate => hfree predicate hpredicate) ?_
  intro predicate s₂ _ hpredicate
  refine (leads_dispatchSource hrecurse).bind ?_
  intro source s₃ _ hsource
  apply leads_selectBase hsource (.inl rfl)
  intro occasion
  rw [select_star]
  exact passing_determinedTrue hpredicate constraints.rowFilter

theorem keeps_rewriteBuilder {name : String} {columnRewriter : Gen ColumnRewriter}
    (h : ∀ s, Leads s columnRewriter fun rewrite _ => Faithful engine rewrite) {hsilent} :
    Keeps engine base scope pool (rewriteBuilder context name columnRewriter hsilent) :=
  keeps_plainQueryBuilder rfl fun _ _ hrecurse => leads_columnRewriteQuery h hrecurse

theorem keeps_rewriteBuilders :
    ∀ b ∈ rewriteBuilders context, Keeps engine base scope pool b := by
  simp only [rewriteBuilders, List.forall_mem_cons]
  refine ⟨?_, ?_, ?_, ?_, ?_, ?_, ?_, List.forall_mem_nil _⟩
  · exact keeps_rewriteBuilder fun _ => leads_codecRewriter fun _ => Leads.pure trivial
  · exact keeps_rewriteBuilder fun _ => leads_codecRewriter fun _ => Leads.pure trivial
  · exact keeps_rewriteBuilder fun _ => leads_codecRewriter fun _ => Leads.pure trivial
  · exact keeps_rewriteBuilder fun _ => leads_codecRewriter fun _ => leads_perColumnPlan _ _
  · exact keeps_rewriteBuilder fun _ => leads_eetCaseRewriter
  · exact keeps_filtering rfl (List.Subset.refl _) fun _ _ _ h => leads_eetDeterminedFilterQuery h
  · exact keeps_rewriteBuilder fun _ => leads_windowRewriter

end Builders

end EqGen.Equivalence.ContractRewrites
