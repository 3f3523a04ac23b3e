import EqGen.Equivalence.Emitted
import EqGen.Equivalence.Expansion

/-!
`ORDER BY` in an emitted `SELECT`: the sorted form writes the select list a second time around
the statement, and is neutral where the list leaves its own rows as they are.
-/

namespace EqGen.Equivalence.Ordered

open Classical
open EqGen.Core.Catalog
open EqGen.Core.Types
open EqGen.Dialects.Emitters
open EqGen.Equivalence.Ast
open EqGen.Equivalence.Emitter
open EqGen.Equivalence.Emitted
open EqGen.Equivalence.Expansion (sampleEngine)
open EqGen.Equivalence.Rows
open EqGen.Equivalence.Semantics
open EqGen.Ir.Expr hiding ExpressionNode

variable {V : Type} (engine : Engine V) (binder : Binder V) (occasion : Occasion)

section Units

variable {query : SelectQuery} {rows : Bag V}

theorem mem_kept {row : Row V} :
    row ∈ kept engine occasion rows query ↔
      row ∈ rows ∧ engine.keeps (rowSight row) query.predicate := by
  rw [← Multiset.mem_coe, coe_kept, Multiset.mem_filter]

/-- A group reads plain columns from one of its rows. -/
theorem column_of_mem_groups {list : List (Row V)} {keys : List ExpressionNode} {sight : Sight V}
    (h : sight ∈ engine.groups occasion list keys) :
    ∃ row ∈ list, sight.column = (rowSight row).column := by
  obtain ⟨group, hgroup, rfl⟩ := List.mem_map.mp h
  have hkey := List.mem_dedup.mp (List.fst_mem_of_mem_zipIdx hgroup)
  obtain ⟨row, hrow, heq⟩ := List.mem_map.mp hkey
  cases hmembers : list.filter fun row =>
      keys.map (engine.eval (rowSight row)) = group.1 with
  | nil =>
      rw [List.filter_eq_nil_iff] at hmembers
      exact absurd (by simpa using heq) (hmembers row hrow)
  | cons first rest =>
      have hfirst : first ∈ list := by
        apply List.mem_of_mem_filter (p := fun row =>
          decide (keys.map (engine.eval (rowSight row)) = group.1))
        rw [hmembers]
        exact List.mem_cons_self
      exact ⟨first, hfirst, rfl⟩

theorem column_of_mem_units (hplain : aggregated query = false) {sight : Sight V}
    (h : sight ∈ engine.units occasion rows query) :
    ∃ row ∈ rows, engine.keeps (rowSight row) query.predicate ∧
      sight.column = (rowSight row).column := by
  have hlist : ∃ row ∈ kept engine occasion rows query, sight.column = (rowSight row).column := by
    unfold Engine.units at h
    split at h
    · rw [if_neg (by simp [hplain])] at h
      obtain ⟨row, hrow, rfl⟩ := List.mem_map.mp h
      exact ⟨row, hrow, rfl⟩
    · exact column_of_mem_groups engine occasion h
  obtain ⟨row, hrow, hcolumn⟩ := hlist
  obtain ⟨hmem, hkeeps⟩ := (mem_kept engine occasion).mp hrow
  exact ⟨row, hmem, hkeeps, hcolumn⟩

theorem kept_singleton {row : Row V} (hkeeps : engine.keeps (rowSight row) query.predicate) :
    kept engine occasion {row} query = [row] := by
  have hcoe := coe_kept engine occasion {row} query
  rw [Multiset.filter_singleton, if_pos hkeeps] at hcoe
  exact Multiset.coe_eq_singleton.mp hcoe

theorem units_singleton (hplain : aggregated query = false) {row : Row V}
    (hkeeps : engine.keeps (rowSight row) query.predicate) :
    ∃ sight, engine.units occasion {row} query = [sight] := by
  have hkept := kept_singleton engine occasion hkeeps
  unfold Engine.units
  rw [kept] at hkept
  simp only [hkept]
  cases query.groupBy with
  | none => exact ⟨rowSight row, by rw [if_neg (by simp [hplain])]; rfl⟩
  | some keys => exact List.length_eq_one_iff.mp (by simp [Engine.groups])

end Units

section Lists

variable {body : Body} {list : List ListItem} {rows : Bag V}

/-- The sights of a body without `QUALIFY` are its units with their windows. -/
theorem column_of_mem_qualified {query : SelectQuery} {sight : Sight V}
    (h : sight ∈ engine.qualified occasion rows query) :
    ∃ unit ∈ engine.units occasion rows query, sight.column = unit.column := by
  obtain ⟨entry, hentry, rfl⟩ := List.mem_map.mp (List.mem_of_mem_filter h)
  exact ⟨entry.1, List.fst_mem_of_mem_zipIdx hentry, rfl⟩

theorem length_qualified {query : SelectQuery} (hqualify : query.qualify = none) :
    (engine.qualified occasion rows query).length = (engine.units occasion rows query).length := by
  simp [Engine.qualified, hqualify]

theorem aggregated_of_rowwise (hlist : body.list = some list) (hrowwise : rowwiseList list = true)
    (hqualify : body.qualify = none) : aggregated (queryOf body) = false := by
  rw [aggregated_queryOf hqualify, hlist]
  exact listAggregates_of_rowwise hrowwise

/-- Every row of a rowwise list is the list of one row of the source. -/
theorem exists_of_mem_bodyRows (hlist : body.list = some list)
    (hrowwise : rowwiseList list = true) (hqualify : body.qualify = none) {listed : Row V}
    (h : listed ∈ bodyRows engine binder occasion rows body) :
    ∃ row ∈ rows, engine.keeps (rowSight row) body.predicate ∧
      listed = listRow engine binder list (rowSight row) := by
  have hmem : listed ∈ (engine.qualified occasion rows (queryOf body)).map
      (outputRow engine binder body) := by
    unfold bodyRows at h
    split at h
    · exact Multiset.mem_coe.mp (Multiset.mem_dedup.mp h)
    · exact Multiset.mem_coe.mp h
  obtain ⟨sight, hsight, rfl⟩ := List.mem_map.mp hmem
  obtain ⟨unit, hunit, hcolumn⟩ := column_of_mem_qualified engine occasion hsight
  obtain ⟨row, hrow, hkeeps, hsame⟩ := column_of_mem_units engine occasion
    (aggregated_of_rowwise hlist hrowwise hqualify) hunit
  refine ⟨row, hrow, hkeeps, ?_⟩
  simp only [outputRow, hlist]
  exact listRow_rowwise engine binder hrowwise (hcolumn.trans hsame)

/-- A body whose groups are one sight returns one row. -/
theorem bodyRows_of_qualified {sight : Sight V}
    (h : engine.qualified occasion rows (queryOf body) = [sight]) :
    bodyRows engine binder occasion rows body = {outputRow engine binder body sight} := by
  unfold bodyRows
  rw [h]
  split
  · exact Multiset.dedup_singleton
  · rfl

theorem bodyRows_singleton (hlist : body.list = some list) (hrowwise : rowwiseList list = true)
    (hqualify : body.qualify = none) {row : Row V}
    (hkeeps : engine.keeps (rowSight row) body.predicate) :
    bodyRows engine binder occasion {row} body = {listRow engine binder list (rowSight row)} := by
  have hplain := aggregated_of_rowwise hlist hrowwise hqualify
  obtain ⟨unit, hunit⟩ := @units_singleton _ engine occasion (queryOf body) hplain row hkeeps
  have hlength := @length_qualified _ engine occasion {row} (queryOf body) hqualify
  rw [hunit] at hlength
  obtain ⟨sight, hsight⟩ := List.length_eq_one_iff.mp hlength
  rw [bodyRows_of_qualified engine binder occasion hsight]
  have hmem : outputRow engine binder body sight ∈
      bodyRows engine binder occasion {row} body := by
    rw [bodyRows_of_qualified engine binder occasion hsight]
    exact Multiset.mem_singleton_self _
  obtain ⟨other, hother, -, heq⟩ :=
    exists_of_mem_bodyRows engine binder occasion hlist hrowwise hqualify hmem
  rw [heq, Multiset.mem_singleton.mp hother]

/-- There are no groups without rows. -/
theorem bodyRows_groups_zero {keys : List ExpressionNode} (hkeys : body.groupBy = some keys) :
    bodyRows engine binder occasion 0 body = 0 := by
  have hkept : kept engine occasion 0 (queryOf body) = [] := by
    rw [← Multiset.coe_eq_zero, coe_kept, Multiset.filter_zero]
  have hunits : engine.units occasion 0 (queryOf body) = [] := by
    have hgroup : (queryOf body).groupBy = some keys := hkeys
    simp only [Engine.units, hgroup]
    change engine.groups occasion (kept engine occasion 0 (queryOf body)) keys = []
    rw [hkept]
    rfl
  have hqualified : engine.qualified occasion 0 (queryOf body) = [] := by
    rw [Engine.qualified, hunits]
    rfl
  unfold bodyRows
  rw [hqualified]
  simp

/-- The outer list of a sorted statement, over the rows it sorts. -/
def relist (list : Option (List ListItem)) : Body :=
  { list := list }

theorem bodyRows_star : bodyRows engine binder occasion rows (relist none) = rows :=
  (select_star engine occasion rows none).trans (by simp)

theorem coe_kept_relist : (kept engine occasion rows (queryOf (relist (some list))) : Bag V) =
    rows := by
  rw [coe_kept]
  simp [queryOf, relist]

/-- Without an aggregate in it the outer list has a row for every row. -/
theorem bodyRows_relist (hplain : listAggregates list = false) :
    bodyRows engine binder occasion rows (relist (some list)) =
      ((kept engine occasion rows (queryOf (relist (some list)))).zipIdx.map fun entry =>
        listRow engine binder list
          (windowed engine occasion rows (queryOf (relist (some list))) entry) : List (Row V)) := by
  have hbody : bodyRows engine binder occasion rows (relist (some list)) =
      ((engine.qualified occasion rows (queryOf (relist (some list)))).map
        (listRow engine binder list) : List (Row V)) := rfl
  have haggregated : aggregated (queryOf (relist (some list))) = false := by
    rw [aggregated_queryOf rfl]
    exact hplain
  rw [hbody, qualified_ungrouped engine occasion rows rfl haggregated]
  simp [queryOf, relist, Function.comp_def]

theorem bodyRows_relist_of_forall (hplain : listAggregates list = false)
    (h : ∀ entry ∈ (kept engine occasion rows (queryOf (relist (some list)))).zipIdx,
      listRow engine binder list
        (windowed engine occasion rows (queryOf (relist (some list))) entry) = entry.1) :
    bodyRows engine binder occasion rows (relist (some list)) = rows := by
  rw [bodyRows_relist engine binder occasion hplain, List.map_congr_left h,
    List.zipIdx_map_fst, coe_kept_relist]

/-- Aggregates without groups make one row of any rows. -/
theorem exists_units_wholeGroup {query : SelectQuery} (haggregated : aggregated query = true)
    (hgroup : query.groupBy = none) :
    engine.units occasion rows query =
      [engine.wholeGroup occasion (kept engine occasion rows query)] := by
  simp only [Engine.units, hgroup, haggregated, if_true]
  rfl

theorem exists_qualified_of_aggregated {query : SelectQuery}
    (haggregated : aggregated query = true) (hgroup : query.groupBy = none)
    (hqualify : query.qualify = none) :
    ∃ sight, engine.qualified occasion rows query = [sight] ∧
      sight.column = (engine.wholeGroup occasion (kept engine occasion rows query)).column := by
  have hunits := @exists_units_wholeGroup _ engine occasion rows _ haggregated hgroup
  have hlength := @length_qualified _ engine occasion rows query hqualify
  rw [hunits] at hlength
  obtain ⟨sight, hsight⟩ := List.length_eq_one_iff.mp hlength
  refine ⟨sight, hsight, ?_⟩
  have hmem : sight ∈ engine.qualified occasion rows query := by
    rw [hsight]
    exact List.mem_singleton_self sight
  obtain ⟨unit, hunit, hcolumn⟩ := column_of_mem_qualified engine occasion hmem
  rw [hunits, List.mem_singleton] at hunit
  rw [hcolumn, hunit]

/-- Around a single row an aggregate sees that row. -/
theorem exists_qualified_relist (haggregates : listAggregates list = true) (row : Row V) :
    ∃ sight, engine.qualified occasion {row} (queryOf (relist (some list))) = [sight] ∧
      sight.row = row := by
  have haggregated : aggregated (queryOf (relist (some list))) = true := by
    rw [aggregated_queryOf rfl]
    exact haggregates
  obtain ⟨sight, hsight, hcolumn⟩ :=
    @exists_qualified_of_aggregated _ engine occasion {row} _ haggregated rfl rfl
  refine ⟨sight, hsight, ?_⟩
  have hkept : kept engine occasion {row} (queryOf (relist (some list))) = [row] :=
    kept_singleton engine occasion (keeps_none engine _)
  rw [hkept] at hcolumn
  rw [Sight.row, hcolumn]
  rfl

end Lists

section Neutral

/-- Listing the rows again, with aggregates and windows over them, leaves each as it is. -/
def Relists (rows : Bag V) (list : List ListItem) : Prop :=
  ∀ sight ∈ engine.qualified occasion rows (queryOf (relist (some list))),
    listRow engine binder list sight = sight.row

/--
The list gives its own rows back. Where the row alone decides it, that is about the rows that
pass the filter, one by one; an aggregate must not have groups to start from.
-/
def Stable (body : Body) (list : List ListItem) : Prop :=
  if rowwiseList list then
    ∀ row, engine.keeps (rowSight row) body.predicate →
      listRow engine binder list (rowSight (listRow engine binder list (rowSight row))) =
        listRow engine binder list (rowSight row)
  else (listAggregates list → body.groupBy = none) ∧ ∀ inner outer rows,
    Relists engine binder outer (bodyRows engine binder inner rows body) list

/--
Unless the engine refuses the statement without its order: it takes the sort keys, and the list
resolves over its own names and is stable.
-/
def Reapplies (columns : List String) (body : Body) (refSql : String)
    (keys : List ExpressionNode) : Prop :=
  Resolves columns (mentionedIn binder.mentions body) →
    binder.sorts (.over body refSql) keys ∧ ∀ list, body.list = some list →
      Resolves (list.map ListItem.name) (mentionedBy binder.mentions list) ∧
        Stable engine binder body list

/-- The sorted form returns what the form without the order does. -/
def Neutral (columns : List String) (plain ordered : Rendered) : Prop :=
  ∀ occasion rows, result engine binder occasion ⟨columns, rows⟩ ordered =
    result engine binder occasion ⟨columns, rows⟩ plain

variable {engine binder} {body : Body} {list : List ListItem} {columns : List String}
variable {refSql : String} {keys : List ExpressionNode}

theorem mentionedIn_relist (mentions : String → List String) (list : Option (List ListItem)) :
    mentionedIn mentions (relist list) = mentionedBy mentions (list.getD []) := by
  simp [mentionedIn, relist, columnsOfArg, columnsOfAll]

/-- The sorted form lists the rows of the other a second time. -/
theorem result_sorted (occasion : Nat → Occasion) (rows : Bag V)
    (hnames : Resolves columns (mentionedIn binder.mentions body)) :
    result engine binder occasion ⟨columns, rows⟩ (sorted body body.list refSql (some keys)) =
      if binder.sorts (.over body refSql) keys ∧
          Resolves (outputColumns body columns)
            (mentionedBy binder.mentions (body.list.getD [])) then
        some ⟨outputColumns (relist body.list) (outputColumns body columns),
          bodyRows engine binder (occasion 1) (bodyRows engine binder (occasion 0) rows body)
            (relist body.list)⟩
      else none := by
  have hinner : result engine binder occasion ⟨columns, rows⟩ (.over body refSql) = _ :=
    result_over occasion hnames
  rw [sorted, result, hinner]
  simp only [Option.some.injEq, forall_eq', depth, bodyResult]
  by_cases hsorts : binder.sorts (.over body refSql) keys
  · rw [if_pos hsorts]
    change (if Resolves (outputColumns body columns)
      (mentionedIn binder.mentions (relist body.list)) then _ else _) = _
    rw [mentionedIn_relist]
    simp only [hsorts, true_and]
    rfl
  · simp [hsorts]

theorem bodyRows_relist_eq (hstable : Stable engine binder body list)
    (hlist : body.list = some list) (hqualify : body.qualify = none) (inner outer : Occasion)
    (rows : Bag V) :
    bodyRows engine binder outer (bodyRows engine binder inner rows body)
      (relist (some list)) = bodyRows engine binder inner rows body := by
  unfold Stable at hstable
  split at hstable
  · next hrowwise =>
      apply bodyRows_relist_of_forall engine binder outer (listAggregates_of_rowwise hrowwise)
      rintro ⟨listed, place⟩ hentry
      have hmem : listed ∈ bodyRows engine binder inner rows body := by
        have hcoe := @coe_kept_relist _ engine outer list (bodyRows engine binder inner rows body)
        rw [← hcoe, Multiset.mem_coe]
        exact List.fst_mem_of_mem_zipIdx hentry
      obtain ⟨row, -, hkeeps, rfl⟩ :=
        exists_of_mem_bodyRows engine binder inner hlist hrowwise hqualify hmem
      refine Eq.trans (listRow_rowwise engine binder hrowwise ?_) (hstable row hkeeps)
      rfl
  · next hrowwise =>
      obtain ⟨hgroup, hrelists⟩ := hstable
      have hrelists := hrelists inner outer rows
      cases haggregates : listAggregates list with
      | true =>
          have haggregated : aggregated (queryOf body) = true := by
            rw [aggregated_queryOf hqualify, hlist]
            exact haggregates
          obtain ⟨sight, hsight, -⟩ := @exists_qualified_of_aggregated _ engine inner rows
            (queryOf body) haggregated (hgroup haggregates) hqualify
          have hone := bodyRows_of_qualified engine binder inner hsight
          set listed := outputRow engine binder body sight
          rw [hone] at hrelists ⊢
          obtain ⟨again, hagain, hrow⟩ := exists_qualified_relist engine outer haggregates listed
          rw [bodyRows_of_qualified engine binder outer hagain]
          have hsame := hrelists again (by rw [hagain]; exact List.mem_singleton_self again)
          rw [← hrow, ← hsame]
          rfl
      | false =>
          apply bodyRows_relist_of_forall engine binder outer haggregates
          intro entry hentry
          apply hrelists
          have haggregated : aggregated (queryOf (relist (some list))) = false := by
            rw [aggregated_queryOf rfl]
            exact haggregates
          rw [qualified_ungrouped engine outer _ rfl haggregated, List.mem_filter]
          exact ⟨List.mem_map_of_mem hentry, by simp [queryOf, relist]⟩

/-- The list gives its rows back if the sorted form always returns the same rows. -/
theorem stable_of_bodyRows (hlist : body.list = some list) (hqualify : body.qualify = none)
    (hdecided : rowwiseList list = true ∨ listAggregates list = true)
    (h : ∀ inner outer rows, bodyRows engine binder outer
      (bodyRows engine binder inner rows body) (relist (some list)) =
        bodyRows engine binder inner rows body) : Stable engine binder body list := by
  unfold Stable
  split
  · next hrowwise =>
      intro row hkeeps
      have hfixed := h (.read 0) (.read 0) {row}
      rw [bodyRows_singleton engine binder _ hlist hrowwise hqualify hkeeps,
        bodyRows_singleton engine binder _ rfl hrowwise rfl (keeps_none engine _)] at hfixed
      exact Multiset.singleton_inj.mp hfixed
  · next hrowwise =>
      have haggregates : listAggregates list = true :=
        hdecided.resolve_left hrowwise
      have haggregated : aggregated (queryOf (relist (some list))) = true := by
        rw [aggregated_queryOf rfl]
        exact haggregates
      have hgroup : body.groupBy = none := by
        by_contra hsome
        obtain ⟨keys, hkeys⟩ := Option.ne_none_iff_exists'.mp hsome
        have hnone : bodyRows engine binder (.read 0) 0 body = 0 :=
          bodyRows_groups_zero engine binder _ hkeys
        have hfixed := h (.read 0) (.read 0) 0
        obtain ⟨sight, hsight, -⟩ :=
          @exists_qualified_of_aggregated _ engine (.read 0) 0 _ haggregated rfl rfl
        rw [hnone, bodyRows_of_qualified engine binder _ hsight] at hfixed
        exact Multiset.singleton_ne_zero _ hfixed
      refine ⟨fun _ => hgroup, ?_⟩
      intro inner outer rows sight hsight
      have hinner : aggregated (queryOf body) = true := by
        rw [aggregated_queryOf hqualify, hlist]
        exact haggregates
      obtain ⟨first, hfirst, -⟩ := @exists_qualified_of_aggregated _ engine inner rows
        (queryOf body) hinner hgroup hqualify
      have hfixed := h inner outer rows
      rw [bodyRows_of_qualified engine binder inner hfirst] at hfixed hsight
      obtain ⟨again, hagain, hrow⟩ := exists_qualified_relist engine outer haggregates
        (outputRow engine binder body first)
      rw [bodyRows_of_qualified engine binder outer hagain] at hfixed
      rw [hagain, List.mem_singleton] at hsight
      rw [hsight, hrow]
      exact Multiset.singleton_inj.mp hfixed

/-- A list that reapplies makes the order neutral. -/
theorem neutral_of_reapplies (hqualify : body.qualify = none)
    (h : Reapplies engine binder columns body refSql keys) :
    Neutral engine binder columns (.over body refSql)
      (sorted body body.list refSql (some keys)) := by
  intro occasion rows
  by_cases hnames : Resolves columns (mentionedIn binder.mentions body)
  · obtain ⟨hsorts, hlists⟩ := h hnames
    rw [result_over occasion hnames, result_sorted occasion rows hnames]
    cases hlist : body.list with
    | none =>
        have hempty : Resolves (outputColumns body columns)
            (mentionedBy binder.mentions (Option.getD none [])) := by
          intro name hname
          simp [mentionedBy] at hname
        rw [if_pos ⟨hsorts, hempty⟩, bodyRows_star]
        rfl
    | some list =>
        obtain ⟨hresolves, hstable⟩ := hlists list hlist
        have houter : Resolves (outputColumns body columns)
            (mentionedBy binder.mentions ((some list).getD [])) := by
          simpa [outputColumns, hlist] using hresolves
        rw [if_pos ⟨hsorts, houter⟩, bodyRows_relist_eq hstable hlist hqualify]
        simp [outputColumns, relist, hlist]
  · rw [result_over_refused occasion hnames]
    simp only [sorted, result, bodyResult, if_neg hnames]

theorem reapplies_of_neutral (hqualify : body.qualify = none)
    (hdecided : ∀ list, body.list = some list →
      rowwiseList list = true ∨ listAggregates list = true)
    (h : Neutral engine binder columns (.over body refSql)
      (sorted body body.list refSql (some keys))) :
    Reapplies engine binder columns body refSql keys := by
  intro hnames
  have hresult : ∀ occasion rows, _ = _ := h
  simp only [result_sorted _ _ hnames] at hresult
  have hplain : ∀ (occasion : Nat → Occasion) (rows : Bag V), result engine binder occasion
      ⟨columns, rows⟩ (.over body refSql) = _ := fun occasion _ => result_over occasion hnames
  simp only [hplain] at hresult
  have hsome := hresult (fun _ => .read 0) 0
  split at hsome
  · next haccepted =>
      refine ⟨haccepted.1, ?_⟩
      intro list hlist
      refine ⟨by simpa [outputColumns, hlist] using haccepted.2, ?_⟩
      apply stable_of_bodyRows hlist hqualify (hdecided list hlist)
      intro inner outer rows
      have hrows := hresult (fun n => if n = 0 then inner else outer) rows
      rw [if_pos haccepted, hlist] at hrows
      simpa using (Result.mk.inj (Option.some.inj hrows)).2
  · exact absurd hsome (by simp)

/-- The renderers that write an `ORDER BY` around a query without `QUALIFY`. -/
inductive Renderer where
  | portable | sqlite
  deriving DecidableEq, Repr

def Renderer.visitSelectQuery (renderer : Renderer) (source : Signature) (query : SelectQuery)
    (refSql : String) : Rendered :=
  match renderer with
  | .portable => QueryRenderer.visitSelectQuery query refSql
  | .sqlite => Sqlite.selectWithAffinity source query refSql

def Renderer.written (renderer : Renderer) (source : Signature) (query : SelectQuery) :
    Option (List ListItem) :=
  match renderer with
  | .portable => plainList query
  | .sqlite => some (Sqlite.selectItems source query)

/-- A query with any clause but a `QUALIFY`, and in no order. -/
structure Unordered where
  projection : Option (List ProjectionItem)
  predicate : Option ExpressionNode
  distinct : Bool
  groupBy : Option (List ExpressionNode)

def Unordered.query (unordered : Unordered) (orderBy : Option (List ExpressionNode)) :
    SelectQuery where
  projection := unordered.projection
  predicate := unordered.predicate
  distinct := unordered.distinct
  groupBy := unordered.groupBy
  orderBy := orderBy

variable (engine binder)

end Neutral

section Sample

def integer : SqlType := ⟨.integer, none, none⟩

/-- `SELECT MAX(a) AS a FROM t GROUP BY a` -/
def largest : Unordered where
  projection := some
    [⟨"a", .aggregateCall .max (.columnRef "a" integer none) integer, integer⟩]
  predicate := none
  distinct := false
  groupBy := some [.columnRef "a" integer none]

end Sample

end EqGen.Equivalence.Ordered
