import EqGen.Equivalence.Copies

/-! Queries that return the rows they read. -/

namespace EqGen.Equivalence.RowIdentities

open Classical
open EqGen.Core.Catalog
open EqGen.Core.Types
open EqGen.Equivalence.Ast
open EqGen.Equivalence.Builders.Base
open EqGen.Equivalence.Copies
open EqGen.Equivalence.Rows
open EqGen.Equivalence.Semantics
open EqGen.Ir.Expr hiding ExpressionNode
open EqGen.Lib

variable {V : Type} (engine : Engine V)

section Recomputed

/-- On every row of every query the item is the column it is named after. -/
structure Recomputes (item : ProjectionItem) : Prop where
  plain : aggregates item.expr = false
  eval_eq : ∀ occasion rows query, ∀ entry ∈ (kept engine occasion rows query).zipIdx,
    engine.eval (windowed engine occasion rows query entry) item.expr = entry.1 item.name

variable {engine}

theorem recomputes_of_sight {item : ProjectionItem} (hplain : aggregates item.expr = false)
    (h : ∀ sight : Sight V, engine.eval sight item.expr = sight.row item.name) :
    Recomputes engine item where
  plain := hplain
  eval_eq _ _ _ _ _ := h _

theorem recomputes_passthrough (name : String) (dataType : SqlType) :
    Recomputes engine (passthrough name dataType) :=
  recomputes_of_sight rfl fun _ => rfl

theorem recomputes_passthroughs (columns : List Column) :
    ∀ item ∈ passthroughs columns, Recomputes engine item := by
  intro item hitem
  obtain ⟨column, -, rfl⟩ := List.mem_map.mp hitem
  exact recomputes_passthrough _ _

variable {occasion : Occasion} {rows : Bag V} {query : SelectQuery}

/-- Listing the columns of a row by items that recompute them filters the rows and no more. -/
theorem select_recomputed {items : List ProjectionItem} (hprojection : query.projection = some items)
    (hgroup : query.groupBy = none) (hdistinct : query.distinct = false)
    (hitems : ∀ item ∈ items, Recomputes engine item)
    (hqualify : aggregatesArg query.qualify = false)
    (hkeeps : ∀ entry ∈ (kept engine occasion rows query).zipIdx,
      engine.keeps (windowed engine occasion rows query entry) query.qualify)
    (hrows : ∀ row ∈ rows, Supported (items.map ProjectionItem.name) row) :
    engine.select occasion rows query =
      rows.filter fun row => engine.keeps (rowSight row) query.predicate := by
  have hplain : aggregated query = false := by
    have hnone := itemsAggregate_eq_false fun item hitem => (hitems item hitem).plain
    simp [aggregated, hprojection, hnone, hqualify]
  have hall : ((kept engine occasion rows query).zipIdx.map
      (windowed engine occasion rows query)).filter
        (fun sight => engine.keeps sight query.qualify) =
      (kept engine occasion rows query).zipIdx.map (windowed engine occasion rows query) := by
    rw [List.filter_eq_self]
    intro sight hsight
    obtain ⟨entry, hentry, rfl⟩ := List.mem_map.mp hsight
    exact decide_eq_true (hkeeps entry hentry)
  rw [select_eq_listed engine occasion rows hdistinct,
    qualified_ungrouped engine occasion rows hgroup hplain, hall, List.map_map,
    ← coe_kept engine occasion]
  congr 1
  calc _ = (kept engine occasion rows query).zipIdx.map Prod.fst := by
        apply List.map_congr_left
        intro entry hentry
        have hmem : entry.1 ∈ rows := by
          have hkept : entry.1 ∈ (kept engine occasion rows query : Bag V) :=
            List.fst_mem_of_mem_zipIdx hentry
          rw [coe_kept] at hkept
          exact Multiset.mem_of_mem_filter hkept
        simp only [Function.comp_apply, Engine.selectList, hprojection]
        exact project_eq_self engine _
          (fun item hitem => (hitems item hitem).eval_eq occasion rows query entry hentry)
          (hrows entry.1 hmem)
    _ = kept engine occasion rows query := List.zipIdx_map_fst 0 _

/-- The number of a row is never less than one. -/
theorem keeps_rowNumber (entry : Row V × Nat) (orderBy : List ExpressionNode) :
    engine.keeps (windowed engine occasion rows query entry)
      (some (ge (rowNumber orderBy) (intLit 1))) := by
  rw [keeps_some]
  simp only [ge, rowNumber, Engine.eval, windowed, Engine.windowValue, intLit,
    Engine.compareValues, Value.truth_ofTruth, Option.some.injEq, decide_eq_true_eq]
  unfold Places.place
  omega

theorem keeps_conjoin (sight : Sight V) (current : Option ExpressionNode)
    (predicate : ExpressionNode) : engine.keeps sight (some (conjoin current predicate)) ↔
      engine.keeps sight current ∧ engine.keeps sight (some predicate) := by
  cases current with
  | none => simp [conjoin]
  | some current =>
      simp only [conjoin, keeps_some, Engine.eval, Value.truth_ofTruth]
      cases (engine.eval sight current).truth with
      | none => cases (engine.eval sight predicate).truth with
        | none => simp [and3]
        | some q => cases q <;> simp [and3]
      | some p => cases p <;> cases (engine.eval sight predicate).truth with
        | none => simp [and3]
        | some q => cases q <;> simp [and3]

/-- `SELECT DISTINCT *` -/
theorem select_distinct_star :
    engine.select occasion rows { distinct := true } = rows.dedup := by
  rw [Rows.select_distinct engine occasion rows rfl,
    listed_plain engine occasion rows (f := id) rfl rfl rfl fun _ _ => rfl]
  simp

end Recomputed

section Grouped

variable {engine} {occasion : Occasion}

/-- Where no two rows agree on all keys, every row is a group of its own. -/
theorem groups_eq {list : List (Row V)} {keys : List ExpressionNode}
    (hnodup : (list.map fun row => keys.map (engine.eval (rowSight row))).Nodup) :
    (engine.groups occasion list keys).map Sight.row = list := by
  set keyOf : Row V → List (Value V) := fun row => keys.map (engine.eval (rowSight row))
    with hkeyOf
  have hhead : ∀ row ∈ list, (((list.filter fun other => keyOf other = keyOf row).map
      rowSight).headD (rowSight fun _ => .null)).row = row := by
    intro row hrow
    have hmem : row ∈ list.filter fun other => keyOf other = keyOf row := by
      simp [hrow]
    obtain ⟨first, rest, hcons⟩ := List.exists_cons_of_ne_nil (List.ne_nil_of_mem hmem)
    have hfirst : first ∈ list.filter fun other => keyOf other = keyOf row := by
      rw [hcons]
      exact List.mem_cons_self
    rw [List.mem_filter, decide_eq_true_eq] at hfirst
    rw [hcons, List.map_cons, List.headD_cons, row_rowSight]
    exact List.inj_on_of_nodup_map hnodup hfirst.1 hrow hfirst.2
  unfold Engine.groups
  simp only [← hkeyOf]
  rw [List.Nodup.dedup hnodup, List.zipIdx_map, List.map_map, List.map_map]
  calc _ = list.zipIdx.map Prod.fst := by
        apply List.map_congr_left
        intro entry hentry
        exact hhead entry.1 (List.fst_mem_of_mem_zipIdx hentry)
    _ = list := List.zipIdx_map_fst 0 _

variable {columns : List Column} {key : String} {rows held : Bag V}
variable {numbered : List (Row V × Int)}

/-- Dropping the key from the keyed rows gives the rows back. -/
theorem map_drop_keyedRows (engine : Engine V)
    (h : KeyCopies columns key rows held numbered) :
    (keyedRows key numbered : Bag V).map
      (fun row => engine.project (rowSight row) (passthroughs columns)) = rows := by
  rw [← h.rows_eq, Multiset.map_coe, keyedRows, List.map_map]
  congr 1
  apply List.map_congr_left
  intro entry hentry
  exact project_update engine _ (h.supported entry hentry) rfl h.fresh

/-- `GROUP BY` every column and the key. -/
theorem select_grouped (h : KeyCopies columns key rows held numbered) :
    engine.select occasion (keyedRows key numbered : Bag V)
      { projection := some (passthroughs columns),
        groupBy := some ((passthroughs columns).map (fun item => col item.name item.dataType) ++
          [col key integerType]) } = rows := by
  set query : SelectQuery :=
    { projection := some (passthroughs columns),
      groupBy := some ((passthroughs columns).map (fun item => col item.name item.dataType) ++
        [col key integerType]) } with hquery
  set list := kept engine occasion (keyedRows key numbered : Bag V) query with hlist
  have hcoe : (list : Bag V) = (keyedRows key numbered : Bag V) := by
    rw [hlist, coe_kept]
    simp [hquery]
  have hmem : ∀ row ∈ list, row ∈ held := by
    intro row hrow
    rw [h.mem_iff, ← Multiset.mem_coe, ← hcoe]
    exact hrow
  have hnodup : (list.map fun row => ((passthroughs columns).map
      (fun item => col item.name item.dataType) ++ [col key integerType]).map
        (engine.eval (rowSight row))).Nodup := by
    apply List.Nodup.map_on
    · intro row hrow other hother heq
      rw [List.map_append, List.map_append] at heq
      have hkey := (List.append_inj' heq rfl).2
      exact h.eq_of_key (hmem row hrow) (hmem other hother) (List.cons.inj hkey).1
    · rw [← Multiset.coe_nodup, hcoe, Multiset.coe_nodup]
      exact h.nodup_keyedRows
  have hunits : engine.units occasion (keyedRows key numbered : Bag V) query =
      engine.groups occasion list ((passthroughs columns).map
        (fun item => col item.name item.dataType) ++ [col key integerType]) := rfl
  have hlisted : (engine.qualified occasion (keyedRows key numbered : Bag V) query).map
      (engine.selectList query) =
        list.map fun row => engine.project (rowSight row) (passthroughs columns) := by
    rw [Engine.qualified, hunits]
    simp only [hquery, keeps_none, decide_true, List.filter_true, List.map_map]
    calc _ = (engine.groups occasion list _).zipIdx.map
            ((fun row => engine.project (rowSight row) (passthroughs columns)) ∘ Sight.row ∘
              Prod.fst) := by
          apply List.map_congr_left
          intro unit _
          funext name
          simp only [Function.comp_apply, Engine.selectList]
          by_cases hname : name ∈ (passthroughs columns).map ProjectionItem.name
          · rw [project_eq_of_forall engine _ (eval_passthroughs engine _ columns) hname,
              project_eq_of_forall engine _ (eval_passthroughs engine _ columns) hname]
            rfl
          · rw [project_of_notMem engine _ hname, project_of_notMem engine _ hname]
      _ = _ := by
          rw [← List.map_map, ← List.map_map, List.zipIdx_map_fst, groups_eq hnodup]
  rw [select_eq_listed engine occasion _ rfl, hlisted, ← Multiset.map_coe, hcoe]
  exact map_drop_keyedRows engine h

end Grouped

end EqGen.Equivalence.RowIdentities
