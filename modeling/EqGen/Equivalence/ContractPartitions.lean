import EqGen.Equivalence.ContractQueries
import EqGen.Lib.Bag

/-! The builders that take the rows apart and put them together again keep the contract. -/

namespace EqGen.Equivalence.ContractPartitions

open Classical
open EqGen.Builder.Context
open EqGen.Builder.Promises
open EqGen.Core.Catalog
open EqGen.Core.Types
open EqGen.Equivalence.Ast
open EqGen.Equivalence.Builders.Base
open EqGen.Equivalence.Builders.Partitioning
open EqGen.Equivalence.Context
open EqGen.Equivalence.ContractNodes
open EqGen.Equivalence.ContractQueries
open EqGen.Equivalence.ContractSteps
open EqGen.Equivalence.Contracts
open EqGen.Equivalence.Copies
open EqGen.Equivalence.Denotations
open EqGen.Equivalence.Expansion
open EqGen.Equivalence.Factory
open EqGen.Equivalence.Names
open EqGen.Equivalence.Renamed
open EqGen.Equivalence.RowIdentities
open EqGen.Equivalence.Rows
open EqGen.Equivalence.Semantics
open EqGen.Ir.Expr hiding ExpressionNode
open EqGen.Lib.Ascent
open EqGen.Lib.Backtrack
open EqGen.Lib.Bag
open EqGen.Lib.Dag

variable {V : Type} {engine : Engine V} {context : EquivalenceContext}
variable {base : BaseRows V context.baseTable} {scope : Scope V}
variable {pool : List EquivalenceBuilder} {constraints : ConstraintSet} {s : GenerationState}

section Branches

variable {columns : List String} {branches : List EqNode} {parts : List (Bag V)}

/-- The branches hold the parts, in order. -/
def HoldParts (engine : Engine V) {table : Table} (base : BaseRows V table) (scope : Scope V)
    (columns : List String) (branches : List EqNode) (parts : List (Bag V)) : Prop :=
  List.Forall₂ (fun branch rows => Holds engine base scope ⟨columns, fun _ => rows⟩ branch ∧
    ∀ row ∈ rows, Supported columns row) branches parts

theorem HoldParts.exists_held (h : HoldParts engine base scope columns branches parts)
    (hsame : ∀ node ∈ branches, ∀ node' ∈ branches, refSql node = refSql node' → node = node') :
    ∃ held, Branches engine base scope branches columns held ∧ branches.map held = parts := by
  set held : EqNode → Bag V := fun node => (relationOf engine scope node).rows (.read 0)
    with hheld
  have heq : ∀ {node rows}, Holds engine base scope ⟨columns, fun _ => rows⟩ node →
      held node = rows := by
    intro node rows hnode
    simp only [hheld, hnode.relationOf_eq]
  have hall : ∀ node ∈ branches, Holds engine base scope ⟨columns, fun _ => held node⟩ node ∧
      ∀ row ∈ held node, Supported columns row := by
    clear hsame
    induction h with
    | nil => simp
    | cons hfirst _ ih =>
        rw [List.forall_mem_cons]
        refine ⟨?_, ih⟩
        rw [heq hfirst.1]
        exact hfirst
  refine ⟨held, ⟨⟨fun node hnode => (hall node hnode).1, ?_⟩,
    fun node hnode => (hall node hnode).2⟩, ?_⟩
  · intro node hnode node' hnode' hname
    rw [hsame node hnode node' hnode' hname]
  · clear hsame hall
    induction h with
    | nil => rfl
    | cons hfirst _ ih => rw [List.map_cons, ih, heq hfirst.1]

theorem holdParts_replicate {branch : EqNode} {rows : Bag V}
    (hbranch : Holds engine base scope ⟨columns, fun _ => rows⟩ branch)
    (hsupported : ∀ row ∈ rows, Supported columns row) (n : Nat) :
    HoldParts engine base scope columns (List.replicate n branch) (List.replicate n rows) := by
  induction n with
  | zero => exact .nil
  | succ n ih => exact .cons ⟨hbranch, hsupported⟩ ih

theorem leads_unionParts (h : HoldParts engine base scope columns branches parts)
    (hsame : ∀ node ∈ branches, ∀ node' ∈ branches, refSql node = refSql node' → node = node') :
    Leads s (unionAllQuery branches) fun node _ =>
      QueryHolds engine base scope ⟨columns, fun _ => parts.sum⟩ node := by
  obtain ⟨held, hbranches, rfl⟩ := h.exists_held hsame
  exact leads_unionAllQuery hbranches

/-- The names of the branches were not taken before, and are taken now. -/
structure Apart (s : GenerationState) (branches : List EqNode) (s' : GenerationState) : Prop where
  nodup : (branches.map refSql).Nodup
  new : ∀ branch ∈ branches, ¬Taken s (refSql branch)
  taken : ∀ branch ∈ branches, Taken s' (refSql branch)

theorem Apart.cons {s₁ s₂ : GenerationState} {branch : EqNode} (h : Apart s₁ branches s₂)
    (hle : s ≤ s₁) (hle' : s₁ ≤ s₂) (hnew : ¬Taken s (refSql branch))
    (htaken : Taken s₁ (refSql branch)) : Apart s (branch :: branches) s₂ where
  nodup := by
    rw [List.map_cons, List.nodup_cons]
    refine ⟨?_, h.nodup⟩
    intro hmem
    obtain ⟨other, hother, heq⟩ := List.mem_map.mp hmem
    exact h.new other hother (heq ▸ htaken)
  new := by
    rw [List.forall_mem_cons]
    exact ⟨hnew, fun other hother hold => h.new other hother (hold.mono hle)⟩
  taken := by
    rw [List.forall_mem_cons]
    exact ⟨htaken.mono hle', h.taken⟩

theorem Apart.same {s' : GenerationState} (h : Apart s branches s') :
    ∀ node ∈ branches, ∀ node' ∈ branches, refSql node = refSql node' → node = node' :=
  fun _ hnode _ hnode' heq => List.inj_on_of_nodup_map h.nodup hnode hnode' heq

end Branches

section Splits

/-- Exactly one of the predicates is true of every row. -/
def Splits (engine : Engine V) (rows : Bag V) (predicates : List ExpressionNode) : Prop :=
  ∀ row ∈ rows, (predicates.filter fun predicate =>
    engine.keeps (rowSight row) (some predicate)).length = 1

theorem Splits.sum_passing {predicates : List ExpressionNode}
    (h : Splits engine base.rows predicates) (current : Option ExpressionNode) :
    (predicates.map fun predicate =>
      passing engine base (some (conjoin current predicate))).sum =
        passing engine base current := by
  have hparts : ∀ predicate, passing engine base (some (conjoin current predicate)) =
      (passing engine base current).filter fun row =>
        engine.keeps (rowSight row) (some predicate) := by
    intro predicate
    simp only [passing, Multiset.filter_filter, keeps_conjoin]
    exact Multiset.filter_congr fun _ _ => and_comm
  simp only [hparts]
  exact sum_parts predicates _ fun row hrow => h row (Multiset.mem_of_mem_filter hrow)

/-- Even, or odd or `NULL`: the remainder of anything else is a whole number. -/
theorem splits_parity (rows : Bag V) (name : String) (dataType : SqlType) :
    Splits engine rows [eq (.mod (col name dataType) 2) (intLit 0),
      .boolOp .or (ne (.mod (col name dataType) 2) (intLit 0))
        (.isNull (col name dataType) false)] := by
  intro row _
  have hmod : (row name).isNull = true ∧ engine.modValue (row name) 2 = .null ∨
      (row name).isNull = false ∧ ∃ n : Int, engine.modValue (row name) 2 = .int n := by
    cases row name with
    | null => exact .inl ⟨rfl, rfl⟩
    | _ => exact .inr ⟨rfl, _, rfl⟩
  rcases hmod with ⟨hnull, hmod⟩ | ⟨hnull, n, hmod⟩
  · simp [eq, ne, col, intLit, Engine.eval, hnull, hmod, Engine.compareValues,
      Value.truth, Value.ofTruth, or3, not3, and3]
  · by_cases hzero : n = 0
    · simp [eq, ne, col, intLit, Engine.eval, hnull, hmod, Engine.compareValues,
        Value.truth, Value.ofTruth, or3, not3, and3, hzero]
    · simp [eq, ne, col, intLit, Engine.eval, hnull, hmod, Engine.compareValues,
        Value.truth, Value.ofTruth, or3, not3, and3, hzero]

/-- True, false or unknown. -/
theorem splits_truth (rows : Bag V) (text : String) :
    Splits engine rows [.generatedPredicate text, .not (.generatedPredicate text),
      .isNull (.generatedPredicate text) false] := by
  intro row _
  cases htruth : engine.predicate text row with
  | none =>
      simp [Engine.eval, htruth, Value.truth, Value.ofTruth, Value.isNull, not3]
  | some value =>
      cases value <;>
        simp [Engine.eval, htruth, Value.truth, Value.ofTruth, Value.isNull, not3]

/-- A number that is not negative leaves exactly one of the residues. -/
theorem length_residues {n : Int} (hn : 0 ≤ n) {modulus : Nat} (hpos : 0 < modulus) :
    ((List.range modulus).filter fun residue : Nat => n.tmod modulus = residue).length = 1 := by
  obtain ⟨m, rfl⟩ := Int.eq_ofNat_of_zero_le hn
  have hmod : ∀ residue : Nat, ((m : Int).tmod modulus = residue) ↔ m % modulus = residue := by
    intro residue
    rw [Int.tmod_eq_emod_of_nonneg (Int.natCast_nonneg m)]
    omega
  simp only [hmod]
  rw [← List.countP_eq_length_filter]
  have hcount := List.count_eq_one_of_mem (List.nodup_range (n := modulus))
    (List.mem_range.mpr (Nat.mod_lt m hpos))
  rw [← hcount]
  apply List.countP_congr
  intro residue _
  rw [decide_eq_true_eq, beq_iff_eq]
  exact eq_comm

end Splits

section Builders

variable {recurse : BuildSubtree} (hrecurse : Answering engine base scope pool recurse)

theorem supported_passing (base : BaseRows V context.baseTable)
    (predicate : Option ExpressionNode) : ∀ row ∈ passing engine base predicate,
      Supported context.baseTable.columnNames row :=
  fun row hrow => base.supported row (Multiset.mem_of_mem_filter hrow)

include hrecurse

theorem leads_filteredBranches (current : Option ExpressionNode)
    (predicates : List ExpressionNode) :
    Leads s (filteredBranches recurse current predicates) fun branches s' =>
      HoldParts engine base scope context.baseTable.columnNames branches
        (predicates.map fun predicate =>
          passing engine base (some (conjoin current predicate))) ∧ Apart s branches s' := by
  induction predicates generalizing s with
  | nil => exact Leads.pure ⟨.nil, ⟨List.nodup_nil, by simp, by simp⟩⟩
  | cons predicate rest ih =>
      have hplain : Plain { rowFilter := some (conjoin current predicate) } := ⟨rfl, rfl, rfl⟩
      refine (leads_passing hrecurse hplain rfl).bind ?_
      rintro branch s₁ hle ⟨hholds, hnew, htaken⟩
      refine ih.bind ?_
      rintro branches s₂ hle' ⟨hparts, hapart⟩
      exact Leads.pure ⟨.cons ⟨hholds, supported_passing base _⟩ hparts,
        hapart.cons hle hle' hnew htaken⟩

/-- The union of the filtered relations is what was asked for. -/
theorem leads_splitUnion {current : Option ExpressionNode} {predicates : List ExpressionNode}
    (hsplits : Splits engine base.rows predicates) :
    Leads s (filteredBranches recurse current predicates >>= unionAllQuery) fun node _ =>
      QueryHolds engine base scope
        ⟨context.baseTable.columnNames, fun _ => passing engine base current⟩ node := by
  refine (leads_filteredBranches hrecurse current predicates).bind ?_
  rintro branches s₁ _ ⟨hparts, hapart⟩
  rw [← hsplits.sum_passing current]
  exact leads_unionParts hparts hapart.same

theorem leads_partitionUnionQuery :
    Leads s (partitionUnionQuery recurse context constraints) fun node _ =>
      QueryHolds engine base scope ⟨context.baseTable.columnNames,
        fun _ => passing engine base constraints.rowFilter⟩ node := by
  refine leads_pickIntegerKey.bind ?_
  intro picked s₁ _ _
  refine Leads.bind (Q := fun _ _ => True) (Leads.fromOption fun _ _ => trivial) ?_
  intro key s₂ _ _
  exact leads_splitUnion hrecurse (splits_parity base.rows key.name key.dataType)

theorem leads_tlpPartitionUnionQuery :
    Leads s (tlpPartitionUnionQuery recurse context constraints) fun node _ =>
      QueryHolds engine base scope ⟨context.baseTable.columnNames,
        fun _ => passing engine base constraints.rowFilter⟩ node := by
  refine leads_generatedPredicate.bind ?_
  intro generated s₁ _ hgenerated
  refine Leads.bind (Q := fun predicate _ => ∃ text, predicate = .generatedPredicate text)
    (Leads.fromOption fun predicate hpredicate => hgenerated predicate hpredicate) ?_
  rintro _ s₂ _ ⟨text, rfl⟩
  exact leads_splitUnion hrecurse (splits_truth base.rows text)

/-- Both sides, as the branches of a query. -/
theorem leads_sides {predicate : Option ExpressionNode} :
    Leads s (bothSides recurse { rowFilter := predicate }) fun sides _ =>
      ∃ held, Branches engine base scope [sides.1, sides.2] context.baseTable.columnNames held ∧
        held sides.1 = base.rows ∧ held sides.2 = passing engine base predicate := by
  have hplain : Plain { rowFilter := predicate } := ⟨rfl, rfl, rfl⟩
  apply (leads_bothSides hrecurse hplain rfl).mono
  rintro ⟨left, right⟩ s₁ _ ⟨hleft, hright, hne⟩
  have hparts : HoldParts engine base scope context.baseTable.columnNames [left, right]
      [base.rows, passing engine base predicate] :=
    .cons ⟨hleft, base.supported⟩ (.cons ⟨hright, supported_passing base _⟩ .nil)
  obtain ⟨held, hbranches, hmap⟩ := hparts.exists_held (by
    intro node hnode node' hnode' heq
    rcases List.mem_pair.mp hnode with rfl | rfl <;> rcases List.mem_pair.mp hnode' with rfl | rfl
    · rfl
    · exact absurd heq hne
    · exact absurd heq.symm hne
    · rfl)
  obtain ⟨hheldLeft, hrest⟩ := List.cons.inj hmap
  exact ⟨held, hbranches, hheldLeft, (List.cons.inj hrest).1⟩

theorem leads_unionEmptyRoundTrip :
    Leads s (unionEmptyRoundTrip recurse) fun node _ =>
      QueryHolds engine base scope (baseRelation base) node := by
  refine (leads_sides hrecurse).bind ?_
  rintro sides s₁ _ ⟨held, hbranches, hleft, hright⟩
  apply (leads_unionAllQuery hbranches).mono
  intro node s₂ _ hnode
  simp only [List.map_cons, List.map_nil, List.sum_cons, List.sum_nil, hleft, hright,
    passing_nothing, add_zero] at hnode
  exact hnode

theorem leads_exceptEmptyRoundTrip :
    Leads s (exceptEmptyRoundTrip recurse) fun node _ =>
      QueryHolds engine base scope (baseRelation base) node := by
  refine (leads_sides hrecurse).bind ?_
  rintro sides s₁ _ ⟨held, hbranches, hleft, hright⟩
  apply leads_newNode
  intro i s₂ _
  have hnode := hbranches.exceptAll i
  rw [hleft, hright, passing_nothing, tsub_zero] at hnode
  exact hnode

theorem leads_intersectSelfRoundTrip :
    Leads s (intersectSelfRoundTrip recurse) fun node _ =>
      QueryHolds engine base scope (baseRelation base) node := by
  refine (leads_sides hrecurse).bind ?_
  rintro sides s₁ _ ⟨held, hbranches, hleft, hright⟩
  apply leads_newNode
  intro i s₂ _
  have hnode := hbranches.intersectAll i
  have hself : base.rows ∩ base.rows = base.rows :=
    le_antisymm Multiset.inter_le_left (Multiset.le_inter (le_refl _) (le_refl _))
  rw [hleft, hright, passing_none, hself] at hnode
  exact hnode

end Builders

section Ranks

variable {key : String} {rows held : Bag V} {numbered : List (Row V × Int)}
variable {columns : List Column}

/-- The rank leaves the residue. -/
def residueIs (key : String) (modulus residue : Nat) : ExpressionNode :=
  eq (.mod (col key integerType) modulus) (intLit residue)

/-- The rows of a keyed table whose key leaves a residue, without the key. -/
noncomputable def residueRows (engine : Engine V) (columns : List Column) (key : String)
    (numbered : List (Row V × Int)) (modulus residue : Nat) : Bag V :=
  ((keyedRows key numbered : Bag V).filter fun row =>
    engine.keeps (rowSight row) (some (residueIs key modulus residue))).map fun row =>
      engine.project (rowSight row) (passthroughs columns)

theorem select_residue (occasion : Occasion) (modulus residue : Nat) :
    engine.select occasion (keyedRows key numbered : Bag V)
      { projection := some (passthroughs columns),
        predicate := some (residueIs key modulus residue) } =
      residueRows engine columns key numbered modulus residue := by
  apply select_items engine occasion _ _ (itemsAggregate_passthroughs columns)
  intro row window item hitem
  rw [eval_passthroughs engine _ columns item hitem, eval_passthroughs engine _ columns item hitem]
  rfl

/-- The residues are those of all keyed rows, each in one of them. -/
theorem sum_residueRows (h : KeyCopies columns key rows held numbered)
    (hcount : ∀ entry ∈ numbered, 0 ≤ entry.2) {modulus : Nat} (hpos : 0 < modulus) :
    ((List.range modulus).map (residueRows engine columns key numbered modulus)).sum = rows := by
  have hparts : ((List.range modulus).map fun residue =>
      (keyedRows key numbered : Bag V).filter fun row =>
        engine.keeps (rowSight row) (some (residueIs key modulus residue))).sum =
      (keyedRows key numbered : Bag V) := by
    apply sum_parts (List.range modulus) fun residue row =>
      engine.keeps (rowSight row) (some (residueIs key modulus residue))
    intro row hrow
    obtain ⟨entry, hentry, rfl⟩ := List.mem_map.mp (Multiset.mem_coe.mp hrow)
    rw [← length_residues (hcount entry hentry) hpos]
    congr 1
    apply List.filter_congr
    intro residue _
    simp only [keeps_some, residueIs, eq, Engine.eval, eval_col, row_rowSight,
      Function.update_self, Engine.modValue, intLit, Engine.compareValues, Value.truth_ofTruth,
      Option.some.injEq, decide_eq_true_eq]
  rw [← map_drop_keyedRows engine h, ← hparts]
  generalize List.range modulus = residues
  induction residues with
  | nil => rfl
  | cons residue residues ih =>
      rw [List.map_cons, List.sum_cons, List.map_cons, List.sum_cons, Multiset.map_add, ih]
      rfl

theorem supported_residueRows (modulus residue : Nat) :
    ∀ row ∈ residueRows engine columns key numbered modulus residue,
      Supported (columns.map Column.name) row := by
  intro row hrow
  obtain ⟨original, -, rfl⟩ := Multiset.mem_map.mp hrow
  have hsupported := supported_project engine (rowSight original) (passthroughs columns)
  rwa [names_passthroughs] at hsupported

theorem filters_partitionBuilder :
    [ConstraintType.rowFilter] ⊆ [ConstraintType.rowFilter, .singleSource] := by
  decide

theorem leads_residueViews {keyed : EqNode} {modulus : Nat}
    (hkeyed : Holds engine base scope ⟨context.baseTable.columnNames ++ [key],
      fun _ => (keyedRows key numbered : Bag V)⟩ keyed) (residues : List Nat) :
    Leads s (residueViews context ⟨keyed, passthroughs context.baseTable.columns⟩ key modulus
      residues) fun views s' =>
        HoldParts engine base scope context.baseTable.columnNames views
          (residues.map (residueRows engine context.baseTable.columns key numbered modulus)) ∧
          Apart s views s' := by
  induction residues generalizing s with
  | nil => exact Leads.pure ⟨.nil, ⟨List.nodup_nil, by simp, by simp⟩⟩
  | cons residue rest ih =>
      refine Leads.bind (Q := fun node _ => QueryHolds engine base scope
        ⟨context.baseTable.columnNames, fun _ => residueRows engine context.baseTable.columns key
          numbered modulus residue⟩ node) (leads_selectStill hkeyed ?_ ?_) ?_
      · simp only [selectColumns, names_passthroughs, Table.columnNames]
      · intro occasion
        exact select_residue occasion modulus residue
      · intro query s₁ hle₁ hquery
        refine (leads_createView hquery (by simp)).bind ?_
        rintro view s₂ hle₂ ⟨hview, hfresh⟩
        obtain ⟨hnew, htaken⟩ := hfresh rfl
        refine ih.bind ?_
        rintro views s₃ hle₃ ⟨hparts, hapart⟩
        refine Leads.pure ⟨.cons ⟨hview, supported_residueRows modulus residue⟩ hparts, ?_⟩
        exact hapart.cons (hle₁.trans hle₂) hle₃ (fun hold => hnew (hold.mono hle₁)) htaken

variable (hsituated : Situated context base scope)
variable {recurse : BuildSubtree} (hrecurse : Answering engine base scope pool recurse)

include hsituated hrecurse

theorem leads_rankModUnionQuery :
    Leads s (rankModUnionQuery recurse context) fun node _ =>
      QueryHolds engine base scope (baseRelation base) node := by
  refine (leads_randomChoice rankModuli).bind ?_
  intro modulus s₁ _ hmodulus
  have hpos : 0 < modulus := by
    have hall : ∀ modulus ∈ rankModuli, 0 < modulus := by decide
    exact hall modulus hmodulus
  refine (leads_coinColumn hsituated (by simp [columnStems])).bind ?_
  intro rankName s₂ _ hrank
  refine (leads_materializeRowKey hrecurse hrank.column).bind ?_
  rintro ⟨keyed, baseItems⟩ s₃ _ ⟨rfl, ⟨numbered, hkeyed, hcopies, hcount⟩, -⟩
  refine Leads.bind (Q := fun _ _ => True) (Leads.guard fun _ => trivial) ?_
  intro _ s₄ _ _
  refine (leads_residueViews hkeyed (List.range modulus)).bind ?_
  rintro views s₅ _ ⟨hparts, hapart⟩
  have hunion := leads_unionParts (s := s₅) hparts hapart.same
  rw [sum_residueRows hcopies hcount hpos] at hunion
  exact hunion

theorem leads_distinctUnionDuplicateQuery :
    Leads s (distinctUnionDuplicateQuery recurse context) fun node _ =>
      QueryHolds engine base scope (baseRelation base) node := by
  refine Leads.bind (Q := fun _ _ => True) (Leads.guard fun _ => trivial) ?_
  intro _ s₁ _ _
  refine Leads.bind (Q := fun _ _ => True) (Leads.guard fun _ => trivial) ?_
  intro _ s₂ _ _
  refine (leads_coinColumn hsituated (by simp [columnStems])).bind ?_
  intro keyName s₃ _ hkey
  refine (leads_materializeRowKey hrecurse hkey.column).bind ?_
  rintro ⟨keyed, baseItems⟩ s₄ _ ⟨rfl, ⟨numbered, hkeyed, hcopies, -⟩, -⟩
  refine Leads.bind (Q := fun _ _ => True) (Leads.guard fun _ => trivial) ?_
  intro _ s₅ _ _
  have hsupported : ∀ row ∈ (keyedRows keyName numbered : Bag V),
      Supported (context.baseTable.columnNames ++ [keyName]) row :=
    fun row hrow => hcopies.supported_held hrow
  have hparts : HoldParts engine base scope (context.baseTable.columnNames ++ [keyName])
      [keyed, keyed] [(keyedRows keyName numbered : Bag V), (keyedRows keyName numbered : Bag V)] :=
    .cons ⟨hkeyed, hsupported⟩ (.cons ⟨hkeyed, hsupported⟩ .nil)
  refine (leads_unionParts hparts (by simp)).bind ?_
  intro twice s₆ _ htwice
  refine (leads_stillTable htwice).bind ?_
  rintro doubled s₇ _ ⟨hdoubled, -⟩
  have hdistinct : ∀ occasion, engine.select occasion
      [(keyedRows keyName numbered : Bag V), (keyedRows keyName numbered : Bag V)].sum
        { distinct := true } = (keyedRows keyName numbered : Bag V) := by
    intro occasion
    rw [select_distinct_star]
    apply (hcopies.of_mem_iff _).dedup_eq
    intro row
    simp
  refine Leads.bind (leads_selectStill hdoubled rfl hdistinct) ?_
  intro once s₈ _ honce
  refine (leads_stillTable honce).bind ?_
  rintro deduped s₉ _ ⟨hdeduped, -⟩
  apply leads_selectStill hdeduped
  · simp only [selectColumns, names_passthroughs, Table.columnNames]
  · intro occasion
    exact hcopies.select_keyedRows engine occasion

omit hrecurse

theorem keeps_partitioningBuilders :
    ∀ b ∈ partitioningBuilders context, Keeps engine base scope pool b := by
  simp only [partitioningBuilders, List.forall_mem_cons]
  refine ⟨?_, ?_, ?_, ?_, ?_, ?_, List.forall_mem_nil _⟩
  · exact keeps_filtering rfl filters_partitionBuilder fun _ _ _ h =>
      leads_partitionUnionQuery h
  · exact keeps_filtering rfl filters_partitionBuilder fun _ _ _ h =>
      leads_tlpPartitionUnionQuery h
  · exact keeps_plainQueryBuilder rfl fun _ _ h => leads_rankModUnionQuery hsituated h
  · exact keeps_plainQueryBuilder rfl fun _ _ h => leads_unionEmptyRoundTrip h
  · exact keeps_plainQueryBuilder rfl fun _ _ h => leads_exceptEmptyRoundTrip h
  · exact keeps_plainQueryBuilder rfl fun _ _ h => leads_intersectSelfRoundTrip h

end Ranks

end EqGen.Equivalence.ContractPartitions
