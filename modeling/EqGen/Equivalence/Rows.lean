import EqGen.Equivalence.Semantics
import EqGen.Equivalence.Builders.Base

/-! How the select lists the builders write evaluate, row by row. -/

namespace EqGen.Equivalence.Rows

open Classical
open EqGen.Core.Types
open EqGen.Core.Catalog
open EqGen.Ir.Expr hiding ExpressionNode
open EqGen.Equivalence.Ast
open EqGen.Equivalence.Semantics
open EqGen.Equivalence.Builders.Base
open EqGen.Lib

variable {V : Type}

/-- The row has values in these columns only. -/
def Supported (columns : List String) (row : Row V) : Prop :=
  ∀ name, name ∉ columns → row name = .null

theorem Supported.update {columns : List String} {row : Row V} (h : Supported columns row)
    (column : String) (value : Value V) :
    Supported (columns ++ [column]) (Function.update row column value) := by
  intro name hname
  rw [List.mem_append, List.mem_singleton, not_or] at hname
  rw [Function.update_of_ne hname.2]
  exact h name hname.1

theorem relabel_self {columns : List String} {row : Row V} (h : Supported columns row) :
    relabel columns columns row = row := by
  funext name
  unfold relabel
  cases hi : columns.idxOf? name with
  | none => exact (h name (List.idxOf?_eq_none_iff.mp hi)).symm
  | some i =>
      obtain ⟨hlt, hname, -⟩ := List.idxOf?_eq_some_iff.mp hi
      simp only [List.getElem?_eq_getElem hlt]
      rw [show columns[i] = name by simpa using hname]

theorem map_relabel_self {columns : List String} {rows : Bag V}
    (h : ∀ row ∈ rows, Supported columns row) : rows.map (relabel columns columns) = rows := by
  rw [Multiset.map_congr rfl fun row hrow => relabel_self (h row hrow), Multiset.map_id']

/-- The passthrough items of the columns. -/
def passthroughs (columns : List Column) : List ProjectionItem :=
  columns.map fun column => passthrough column.name column.dataType

section Project

variable (engine : Engine V) (sight : Sight V)

@[simp]
theorem eval_col (name : String) (dataType : SqlType) :
    engine.eval sight (col name dataType) = sight.row name := rfl

@[simp]
theorem eval_intLit (value : Int) : engine.eval sight (intLit value) = .int value := rfl

@[simp]
theorem names_passthroughs (columns : List Column) :
    (passthroughs columns).map ProjectionItem.name = columns.map Column.name := by
  simp [passthroughs, passthrough, Function.comp_def]

@[simp]
theorem itemsAggregate_append (items others : List ProjectionItem) :
    itemsAggregate (items ++ others) = (itemsAggregate items || itemsAggregate others) := by
  simp [itemsAggregate]

theorem itemsAggregate_cons (item : ProjectionItem) (items : List ProjectionItem) :
    itemsAggregate (item :: items) = (aggregates item.expr || itemsAggregate items) := rfl

@[simp]
theorem aggregates_passthrough (name : String) (dataType : SqlType) :
    aggregates (passthrough name dataType).expr = false := rfl

theorem itemsAggregate_eq_false {items : List ProjectionItem}
    (h : ∀ item ∈ items, aggregates item.expr = false) : itemsAggregate items = false := by
  simpa [itemsAggregate] using h

@[simp]
theorem itemsAggregate_passthroughs (columns : List Column) :
    itemsAggregate (passthroughs columns) = false := by
  apply itemsAggregate_eq_false
  intro item hitem
  obtain ⟨column, -, rfl⟩ := List.mem_map.mp hitem
  rfl

@[simp]
theorem itemsAggregate_keyedItems (key : String) (columns : List Column)
    (first : ProjectionItem) :
    itemsAggregate (keyedItems key (passthroughs columns) first) = false := by
  rw [keyedItems, itemsAggregate_append, itemsAggregate_passthroughs]
  rfl

theorem project_of_notMem {items : List ProjectionItem} {name : String}
    (h : name ∉ items.map ProjectionItem.name) : engine.project sight items name = .null := by
  have hfind : (items.find? fun item => item.name = name) = none := by
    rw [List.find?_eq_none]
    intro item hitem
    simpa using fun heq => h (List.mem_map.mpr ⟨item, hitem, heq⟩)
  simp only [Engine.project, hfind]

theorem supported_project (items : List ProjectionItem) :
    Supported (items.map ProjectionItem.name) (engine.project sight items) :=
  fun _ hname => project_of_notMem engine sight hname

theorem project_cons (item : ProjectionItem) (items : List ProjectionItem) (name : String) :
    engine.project sight (item :: items) name =
      if item.name = name then engine.eval sight item.expr
      else engine.project sight items name := by
  by_cases h : item.name = name
  · simp [Engine.project, h]
  · simp [Engine.project, h]

/-- Items that recompute columns of the row leave them as they are. -/
theorem project_eq_of_forall {items : List ProjectionItem} {row : Row V}
    (h : ∀ item ∈ items, engine.eval sight item.expr = row item.name) {name : String}
    (hname : name ∈ items.map ProjectionItem.name) :
    engine.project sight items name = row name := by
  induction items with
  | nil => simp at hname
  | cons item items ih =>
      rw [project_cons]
      split
      · next heq => rw [h item List.mem_cons_self, heq]
      · next hne =>
          apply ih (fun other hother => h other (List.mem_cons_of_mem _ hother))
          rw [List.map_cons, List.mem_cons] at hname
          exact hname.resolve_left fun heq => hne heq.symm

theorem project_eq_self {items : List ProjectionItem} {row : Row V}
    (h : ∀ item ∈ items, engine.eval sight item.expr = row item.name)
    (hrow : Supported (items.map ProjectionItem.name) row) :
    engine.project sight items = row := by
  funext name
  by_cases hname : name ∈ items.map ProjectionItem.name
  · exact project_eq_of_forall engine sight h hname
  · rw [project_of_notMem engine sight hname, hrow name hname]

theorem eval_passthroughs (columns : List Column) :
    ∀ item ∈ passthroughs columns, engine.eval sight item.expr = sight.row item.name := by
  intro item hitem
  obtain ⟨column, -, rfl⟩ := List.mem_map.mp hitem
  rfl

/-- The base columns, and one more computed from the row. -/
theorem project_snoc {columns : List Column} (item : ProjectionItem) {row : Row V}
    (hrow : Supported (columns.map Column.name) row)
    (hsight : ∀ name, name ≠ item.name → sight.row name = row name)
    (hfresh : item.name ∉ columns.map Column.name) :
    engine.project sight (passthroughs columns ++ [item]) =
      Function.update row item.name (engine.eval sight item.expr) := by
  apply project_eq_self
  · intro other hother
    rcases List.mem_append.mp hother with hother | hother
    · have hne : other.name ≠ item.name := by
        intro heq
        apply hfresh
        rw [← heq, ← names_passthroughs]
        exact List.mem_map_of_mem hother
      rw [eval_passthroughs engine sight columns other hother, hsight _ hne,
        Function.update_of_ne hne]
    · obtain rfl := List.mem_singleton.mp hother
      rw [Function.update_self]
  · simpa using hrow.update item.name _

/-- Dropping an added column gives the row back. -/
theorem project_update {columns : List Column} {row : Row V} {column : String} {value : Value V}
    (hrow : Supported (columns.map Column.name) row)
    (hsight : sight.row = Function.update row column value)
    (hfresh : column ∉ columns.map Column.name) :
    engine.project sight (passthroughs columns) = row := by
  apply project_eq_self
  · intro item hitem
    rw [eval_passthroughs engine sight columns item hitem, hsight, Function.update_of_ne]
    intro heq
    apply hfresh
    rw [← heq, ← names_passthroughs]
    exact List.mem_map_of_mem hitem
  · simpa using hrow

end Project

section Select

variable (engine : Engine V) (occasion : Occasion) (rows : Bag V)

@[simp]
theorem keeps_none (sight : Sight V) : engine.keeps sight none := by
  intro expr h
  cases h

@[simp]
theorem keeps_some (sight : Sight V) (expr : ExpressionNode) :
    engine.keeps sight (some expr) ↔ (engine.eval sight expr).truth = some true := by
  constructor
  · intro h
    exact h expr rfl
  · rintro h other heq
    cases heq
    exact h

/-- The rows that pass the `WHERE`, in the order the engine takes them. -/
noncomputable def kept (query : SelectQuery) : List (Row V) :=
  engine.arrange occasion (rows.filter fun row => engine.keeps (rowSight row) query.predicate)

theorem coe_kept (query : SelectQuery) :
    (kept engine occasion rows query : Bag V) =
      rows.filter fun row => engine.keeps (rowSight row) query.predicate :=
  engine.arrange_coe _ _

/-- A row with the windows of a query without groups. -/
noncomputable def windowed (query : SelectQuery) (entry : Row V × Nat) : Sight V :=
  { rowSight entry.1 with
    window := engine.windowValue occasion ((kept engine occasion rows query).map rowSight)
      (rowSight entry.1) entry.2 }

theorem qualified_ungrouped {query : SelectQuery} (hgroup : query.groupBy = none)
    (hplain : aggregated query = false) :
    engine.qualified occasion rows query =
      ((kept engine occasion rows query).zipIdx.map
        (windowed engine occasion rows query)).filter fun sight =>
          engine.keeps sight query.qualify := by
  simp only [Engine.qualified, Engine.units, hgroup, hplain, Bool.false_eq_true, if_false,
    List.zipIdx_map, List.map_map]
  rfl

/-- A query without windows lists one row for each row it keeps. -/
theorem listed_plain {query : SelectQuery} (hgroup : query.groupBy = none)
    (hplain : aggregated query = false) (hqualify : query.qualify = none) {f : Row V → Row V}
    (h : ∀ row window, engine.selectList query { rowSight row with window := window } = f row) :
    (((engine.qualified occasion rows query).map (engine.selectList query) : List (Row V)) :
        Bag V) =
      (rows.filter fun row => engine.keeps (rowSight row) query.predicate).map f := by
  rw [qualified_ungrouped engine occasion rows hgroup hplain, hqualify,
    ← coe_kept engine occasion, Multiset.map_coe]
  simp only [keeps_none, decide_true, List.filter_true, List.map_map]
  congr 1
  calc (kept engine occasion rows query).zipIdx.map
          (engine.selectList query ∘ windowed engine occasion rows query)
      = (kept engine occasion rows query).zipIdx.map (f ∘ Prod.fst) := by
        apply List.map_congr_left
        intro entry _
        exact h entry.1 _
    _ = (kept engine occasion rows query).map f := by
        rw [← List.map_map, List.zipIdx_map_fst]

theorem select_eq_listed {query : SelectQuery} (hdistinct : query.distinct = false) :
    engine.select occasion rows query =
      ((engine.qualified occasion rows query).map (engine.selectList query) : List (Row V)) := by
  simp [Engine.select, hdistinct]

theorem select_distinct {query : SelectQuery} (hdistinct : query.distinct = true) :
    engine.select occasion rows query =
      (((engine.qualified occasion rows query).map (engine.selectList query) : List (Row V)) :
        Bag V).dedup := by
  simp [Engine.select, hdistinct]

/-- `SELECT * FROM source WHERE predicate` -/
theorem select_star (predicate : Option ExpressionNode) :
    engine.select occasion rows { predicate := predicate } =
      rows.filter fun row => engine.keeps (rowSight row) predicate := by
  rw [select_eq_listed engine occasion rows rfl,
    listed_plain engine occasion rows (f := id) rfl rfl rfl (fun _ _ => rfl), Multiset.map_id]

/-- `SELECT * FROM source` -/
theorem select_all : engine.select occasion rows {} = rows := by
  rw [select_star, Multiset.filter_eq_self.mpr fun row _ => keeps_none engine _]

/-- A select list of columns and constants. -/
theorem select_items {items : List ProjectionItem} (predicate : Option ExpressionNode)
    (hplain : itemsAggregate items = false)
    (h : ∀ (row : Row V) window, ∀ item ∈ items,
      engine.eval { rowSight row with window := window } item.expr =
        engine.eval (rowSight row) item.expr) :
    engine.select occasion rows { projection := some items, predicate := predicate } =
      (rows.filter fun row => engine.keeps (rowSight row) predicate).map fun row =>
        engine.project (rowSight row) items := by
  rw [select_eq_listed engine occasion rows rfl]
  apply listed_plain engine occasion rows rfl (by simpa [aggregated, aggregatesArg]) rfl
  intro row window
  funext name
  simp only [Engine.selectList, Engine.project]
  cases hfind : items.find? fun item => item.name = name with
  | none => rfl
  | some item => exact h row window item (List.mem_of_find?_eq_some hfind)

theorem listed_ungrouped {query : SelectQuery} (hgroup : query.groupBy = none)
    (hplain : aggregated query = false) (hqualify : query.qualify = none) :
    (engine.qualified occasion rows query).map (engine.selectList query) =
      (kept engine occasion rows query).zipIdx.map
        (engine.selectList query ∘ windowed engine occasion rows query) := by
  rw [qualified_ungrouped engine occasion rows hgroup hplain, hqualify]
  simp

theorem mem_zipIdx_map {entry : Row V × Nat} {list : List (Row V)} (h : entry ∈ list.zipIdx) :
    (rowSight entry.1, entry.2) ∈ (list.map rowSight).zipIdx := by
  rw [List.zipIdx_map]
  exact List.mem_map_of_mem h

theorem zipIdx_nodup {α : Type} (list : List α) : list.zipIdx.Nodup :=
  List.Nodup.of_map Prod.snd (by rw [List.zipIdx_map_snd]; exact List.nodup_range')

theorem eq_of_mem_zipIdx {α : Type} {list : List α} {a b : α} {i : Nat}
    (ha : (a, i) ∈ list.zipIdx) (hb : (b, i) ∈ list.zipIdx) : a = b := by
  rw [List.mem_zipIdx_iff_getElem?] at ha hb
  exact Option.some.inj (ha.symm.trans hb)

theorem exists_mem_zipIdx {α : Type} {list : List α} {a : α} (h : a ∈ list) :
    ∃ i, (a, i) ∈ list.zipIdx := by
  obtain ⟨i, hi⟩ := List.mem_iff_getElem?.mp h
  exact ⟨i, List.mem_zipIdx_iff_getElem?.mpr hi⟩

/-- Numbering rows gives every row a number of its own, which is not negative. -/
theorem select_counted {columns : List Column} {keyName : String} {first : ProjectionItem}
    (hrows : ∀ row ∈ rows, Supported (columns.map Column.name) row)
    (hfresh : keyName ∉ columns.map Column.name) :
    ∃ numbered : List (Row V × Int), (numbered.map Prod.fst : Bag V) = rows ∧
      (numbered.map Prod.snd).Nodup ∧ (∀ entry ∈ numbered, 0 ≤ entry.2) ∧
      engine.select occasion rows
          { projection := some (keyedItems keyName (passthroughs columns) first) } =
        ((numbered.map fun entry => Function.update entry.1 keyName (.int entry.2)) :
          List (Row V)) := by
  set query : SelectQuery :=
    { projection := some (keyedItems keyName (passthroughs columns) first) } with hquery
  set list := kept engine occasion rows query with hlist
  have hcoe : (list : Bag V) = rows := by
    rw [hlist, coe_kept]
    simp [hquery]
  set call := rowNumber [col first.name first.dataType] with hcall
  set entries := (list.map rowSight).zipIdx with hentries
  set number : Row V × Nat → Int := fun entry =>
    (Places.place (engine.rank occasion call) entries entry.2 : Nat) with hnumber
  have hwindow : ∀ entry, engine.eval (windowed engine occasion rows query entry) call =
      .int (number entry) := by
    intro entry
    have hall : engine.partition (list.map rowSight) [] (rowSight entry.1) = entries := by
      simp [Engine.partition, hentries]
    simp only [hcall, rowNumber, Engine.eval, windowed, Engine.windowValue, ← hlist, hall,
      hnumber]
  refine ⟨list.zipIdx.map fun entry => (entry.1, number entry), ?_, ?_, ?_, ?_⟩
  · rw [← hcoe, List.map_map]
    exact congrArg _ (List.zipIdx_map_fst 0 list)
  · rw [List.map_map]
    apply List.Nodup.map_on _ (zipIdx_nodup list)
    intro entry hentry other hother heq
    have hplace : entry.2 = other.2 := by
      apply Places.place_injective (engine.rank_injective occasion call)
        (mem_zipIdx_map hentry) (mem_zipIdx_map hother)
      exact Int.ofNat_inj.mp heq
    have hrow : entry.1 = other.1 := by
      apply eq_of_mem_zipIdx hentry
      rw [hplace]
      exact hother
    exact Prod.ext hrow hplace
  · intro entry hentry
    obtain ⟨original, -, rfl⟩ := List.mem_map.mp hentry
    exact Int.natCast_nonneg _
  · have hplain : aggregated query = false := by
      simp [aggregated, hquery, aggregatesArg]
    rw [select_eq_listed engine occasion rows rfl,
      listed_ungrouped engine occasion rows rfl hplain rfl, List.map_map]
    congr 1
    apply List.map_congr_left
    intro entry hentry
    have hmem : entry.1 ∈ rows := by
      rw [← hcoe]
      exact List.fst_mem_of_mem_zipIdx hentry
    have hsnoc := project_snoc engine (windowed engine occasion rows query entry)
      ⟨keyName, call, integerType⟩ (hrows _ hmem) (fun _ _ => rfl) hfresh
    rw [hwindow] at hsnoc
    exact hsnoc

theorem select_numbered {columns : List Column} {keyName : String} {first : ProjectionItem}
    (hrows : ∀ row ∈ rows, Supported (columns.map Column.name) row)
    (hfresh : keyName ∉ columns.map Column.name) :
    ∃ numbered : List (Row V × Int), (numbered.map Prod.fst : Bag V) = rows ∧
      (numbered.map Prod.snd).Nodup ∧
      engine.select occasion rows
          { projection := some (keyedItems keyName (passthroughs columns) first) } =
        ((numbered.map fun entry => Function.update entry.1 keyName (.int entry.2)) :
          List (Row V)) := by
  obtain ⟨numbered, hcoe, hnodup, -, hselect⟩ :=
    @select_counted _ engine occasion rows columns keyName first hrows hfresh
  exact ⟨numbered, hcoe, hnodup, hselect⟩

end Select

end EqGen.Equivalence.Rows
