import EqGen.Equivalence.Rows
import EqGen.Equivalence.Builders.Expansion

/-!
Tables that hold every row of a base table several times over, and the queries that bring
each row back once.
-/

namespace EqGen.Equivalence.Copies

open Classical
open EqGen.Core.Types
open EqGen.Core.Catalog
open EqGen.Ir.Expr hiding ExpressionNode
open EqGen.Equivalence.Ast
open EqGen.Equivalence.Semantics
open EqGen.Equivalence.Rows
open EqGen.Equivalence.Builders.Base
open EqGen.Equivalence.Builders.Expansion
open EqGen.Lib

variable {V : Type}

section Keyed

/-- The rows with their keys written into a column. -/
def keyedRows (key : String) (numbered : List (Row V × Int)) : List (Row V) :=
  numbered.map fun entry => Function.update entry.1 key (.int entry.2)

/-- Every row of the table occurs, under one key and as often as it likes. -/
structure KeyCopies (columns : List Column) (key : String) (rows held : Bag V)
    (numbered : List (Row V × Int)) : Prop where
  fresh : key ∉ columns.map Column.name
  supported : ∀ entry ∈ numbered, Supported (columns.map Column.name) entry.1
  rows_eq : (numbered.map Prod.fst : Bag V) = rows
  nodup : (numbered.map Prod.snd).Nodup
  mem_iff : ∀ row, row ∈ held ↔ row ∈ keyedRows key numbered

variable {columns : List Column} {key : String} {rows held : Bag V}
variable {numbered : List (Row V × Int)}

theorem KeyCopies.eq_of_key (h : KeyCopies columns key rows held numbered) {row other : Row V}
    (hrow : row ∈ held) (hother : other ∈ held) (heq : row key = other key) : row = other := by
  obtain ⟨entry, hentry, rfl⟩ := List.mem_map.mp ((h.mem_iff row).mp hrow)
  obtain ⟨entry', hentry', rfl⟩ := List.mem_map.mp ((h.mem_iff other).mp hother)
  simp only [Function.update_self, Value.int.injEq] at heq
  rw [List.inj_on_of_nodup_map h.nodup hentry hentry' heq]

theorem KeyCopies.nodup_keyedRows (h : KeyCopies columns key rows held numbered) :
    (keyedRows key numbered).Nodup := by
  apply List.Nodup.map_on _ (List.Nodup.of_map Prod.snd h.nodup)
  intro entry hentry other hother heq
  have hkey := congrFun heq key
  simp only [Function.update_self, Value.int.injEq] at hkey
  exact List.inj_on_of_nodup_map h.nodup hentry hother hkey

/-- A bag with the same rows, each once, is the keyed table. -/
theorem KeyCopies.eq_keyedRows (h : KeyCopies columns key rows held numbered) {bag : Bag V}
    (hnodup : bag.Nodup) (hmem : ∀ row, row ∈ bag ↔ row ∈ held) :
    bag = (keyedRows key numbered : Bag V) := by
  apply (Multiset.Nodup.ext hnodup (Multiset.coe_nodup.mpr h.nodup_keyedRows)).mpr
  intro row
  rw [hmem row, h.mem_iff row, Multiset.mem_coe]

theorem KeyCopies.dedup_eq (h : KeyCopies columns key rows held numbered) :
    held.dedup = (keyedRows key numbered : Bag V) :=
  h.eq_keyedRows (Multiset.nodup_dedup held) (fun _ => Multiset.mem_dedup)

theorem KeyCopies.supported_held (h : KeyCopies columns key rows held numbered) {row : Row V}
    (hrow : row ∈ held) : Supported (columns.map Column.name ++ [key]) row := by
  obtain ⟨entry, hentry, rfl⟩ := List.mem_map.mp ((h.mem_iff row).mp hrow)
  exact (h.supported entry hentry).update key _

/-- Copies stay copies when the rows of a bag are repeated. -/
theorem KeyCopies.of_mem_iff (h : KeyCopies columns key rows held numbered) {more : Bag V}
    (hmem : ∀ row, row ∈ more ↔ row ∈ held) : KeyCopies columns key rows more numbered :=
  { h with mem_iff := fun row => (hmem row).trans (h.mem_iff row) }

/-- Any number of copies of the table but none at all. -/
theorem KeyCopies.repeated (h : KeyCopies columns key rows held numbered) {n : Nat} (hn : n ≠ 0) :
    KeyCopies columns key rows (List.replicate n held).sum numbered := by
  apply h.of_mem_iff
  intro row
  rw [List.sum_replicate]
  exact Multiset.mem_nsmul_of_ne_zero hn

/-- The numbered rows, each held once. -/
theorem KeyCopies.of_numbered (hfresh : key ∉ columns.map Column.name)
    (hrows : ∀ row ∈ rows, Supported (columns.map Column.name) row)
    (hcoe : (numbered.map Prod.fst : Bag V) = rows) (hnodup : (numbered.map Prod.snd).Nodup) :
    KeyCopies columns key rows (keyedRows key numbered : Bag V) numbered where
  fresh := hfresh
  supported := by
    intro entry hentry
    apply hrows
    rw [← hcoe]
    exact List.mem_map_of_mem hentry
  rows_eq := hcoe
  nodup := hnodup
  mem_iff := fun _ => Iff.rfl

variable (engine : Engine V) (occasion : Occasion)

/-- The view that drops the key returns the base rows. -/
theorem KeyCopies.select_keyedRows (h : KeyCopies columns key rows held numbered) :
    engine.select occasion (keyedRows key numbered : Bag V)
      { projection := some (passthroughs columns) } = rows := by
  rw [select_items engine occasion _ none (itemsAggregate_passthroughs columns)
    (fun row window item hitem => by
    rw [eval_passthroughs engine _ columns item hitem,
      eval_passthroughs engine _ columns item hitem]
    rfl)]
  simp only [keeps_none, Multiset.filter_true, Multiset.map_coe, keyedRows, List.map_map]
  rw [← h.rows_eq]
  congr 1
  apply List.map_congr_left
  intro entry hentry
  exact project_update engine _ (h.supported entry hentry) rfl h.fresh

/-- The key and the base columns of a sight recompute its row. -/
theorem KeyCopies.project_eq (h : KeyCopies columns key rows held numbered) {row : Row V}
    (hrow : row ∈ held) {sight : Sight V} (hsight : sight.row = row)
    {items : List ProjectionItem} (hnames : items.map ProjectionItem.name = columns.map Column.name)
    (hitems : ∀ item ∈ items, engine.eval sight item.expr = row item.name) :
    engine.project sight (passthrough key integerType :: items) = row := by
  apply project_eq_self
  · intro item hitem
    rcases List.mem_cons.mp hitem with rfl | hitem
    · rw [← hsight]
      rfl
    · exact hitems item hitem
  · intro name hname
    apply h.supported_held hrow
    rw [List.map_cons, hnames, List.mem_cons, not_or] at hname
    simpa [passthrough] using And.symm hname

/-- A query over the copies that filters nothing and lists every row as it is. -/
structure ListsRows (columns : List Column) (key : String) (held : Bag V) (query : SelectQuery)
    (items : List ProjectionItem) : Prop where
  projection : query.projection = some (passthrough key integerType :: items)
  predicate : query.predicate = none
  groupBy : query.groupBy = none
  plain : aggregated query = false
  names : items.map ProjectionItem.name = columns.map Column.name
  items_eq : ∀ entry ∈ (kept engine occasion held query).zipIdx, ∀ item ∈ items,
    engine.eval (windowed engine occasion held query entry) item.expr = entry.1 item.name

variable {query : SelectQuery} {items : List ProjectionItem}

theorem ListsRows.coe_kept
    (hlists : ListsRows engine occasion columns key held query items) :
    (kept engine occasion held query : Bag V) = held := by
  rw [Rows.coe_kept, hlists.predicate]
  simp

theorem ListsRows.mem_held
    (hlists : ListsRows engine occasion columns key held query items)
    {entry : Row V × Nat} (hentry : entry ∈ (kept engine occasion held query).zipIdx) :
    entry.1 ∈ held := by
  rw [← hlists.coe_kept engine occasion]
  exact List.fst_mem_of_mem_zipIdx hentry

theorem KeyCopies.selectList_eq (h : KeyCopies columns key rows held numbered)
    (hlists : ListsRows engine occasion columns key held query items)
    {entry : Row V × Nat} (hentry : entry ∈ (kept engine occasion held query).zipIdx) :
    engine.selectList query (windowed engine occasion held query entry) = entry.1 := by
  simp only [Engine.selectList, hlists.projection]
  exact h.project_eq engine (hlists.mem_held engine occasion hentry) rfl hlists.names
    (hlists.items_eq entry hentry)

/-- `SELECT DISTINCT` over the copies leaves one of each. -/
theorem KeyCopies.select_distinct (h : KeyCopies columns key rows held numbered)
    (hlists : ListsRows engine occasion columns key held query items)
    (hqualify : query.qualify = none) (hdistinct : query.distinct = true) :
    engine.select occasion held query = (keyedRows key numbered : Bag V) := by
  have hlist : (kept engine occasion held query).zipIdx.map
        (engine.selectList query ∘ windowed engine occasion held query) =
      kept engine occasion held query := by
    calc _ = (kept engine occasion held query).zipIdx.map Prod.fst := by
          apply List.map_congr_left
          intro entry hentry
          exact h.selectList_eq engine occasion hlists hentry
      _ = kept engine occasion held query := List.zipIdx_map_fst 0 _
  rw [Rows.select_distinct engine occasion held hdistinct,
    listed_ungrouped engine occasion held hlists.groupBy hlists.plain hqualify, hlist,
    hlists.coe_kept engine occasion, h.dedup_eq]

/-- The rows that share the key of a copy are copies of the same row. -/
theorem KeyCopies.fst_eq_of_mem_partition (h : KeyCopies columns key rows held numbered)
    {list : List (Row V)} (hlist : (list : Bag V) = held) {row : Row V} (hrow : row ∈ held)
    {other : Sight V × Nat}
    (hother : other ∈ engine.partition (list.map rowSight) [col key integerType] (rowSight row)) :
    other.1 = rowSight row ∧ other ∈ (list.map rowSight).zipIdx := by
  rw [Engine.partition, List.mem_filter] at hother
  refine ⟨?_, hother.1⟩
  obtain ⟨row', hrow', heq⟩ := List.mem_map.mp (List.fst_mem_of_mem_zipIdx hother.1)
  have hkey : row' key = row key := by
    have := of_decide_eq_true hother.2
    rw [← heq] at this
    simpa using this
  rw [← heq, h.eq_of_key (by rw [← hlist]; exact hrow') hrow hkey]

theorem mem_partition {list : List (Row V)} {entry : Row V × Nat} (hentry : entry ∈ list.zipIdx)
    (partitionBy : List ExpressionNode) :
    (rowSight entry.1, entry.2) ∈
      engine.partition (list.map rowSight) partitionBy (rowSight entry.1) := by
  rw [Engine.partition, List.mem_filter]
  exact ⟨mem_zipIdx_map hentry, by simp⟩

@[simp]
theorem choose_nil (call : ExpressionNode) (place : Nat) :
    engine.choose occasion call place [] = .null := rfl

theorem choose_of_forall {call : ExpressionNode} {place : Nat} {values : List (Value V)}
    {value : Value V} (hne : values ≠ []) (h : ∀ other ∈ values, other = value) :
    engine.choose occasion call place values = value := by
  have hlt : engine.pick occasion call place % values.length < values.length :=
    Nat.mod_lt _ (List.length_pos_iff.mpr hne)
  rw [Engine.choose, List.getElem?_eq_getElem hlt, Option.getD_some]
  exact h _ (List.getElem_mem hlt)

/-- Over members that agree, an aggregate returns what they agree on. -/
theorem choose_candidates {call arg : ExpressionNode} {place : Nat} {skipNulls : Bool}
    {members : List (Sight V)} {value : Value V} (hne : members ≠ [])
    (h : ∀ sight ∈ members, engine.eval sight arg = value) :
    engine.choose occasion call place (engine.candidates skipNulls members arg) = value := by
  have hvalues : ∀ other ∈ members.map fun sight => engine.eval sight arg, other = value := by
    intro other hother
    obtain ⟨sight, hsight, rfl⟩ := List.mem_map.mp hother
    exact h sight hsight
  have hmap : (members.map fun sight => engine.eval sight arg) ≠ [] := by
    simpa using hne
  by_cases hskip : skipNulls = true ∧ value = .null
  · have hnil : engine.candidates skipNulls members arg = [] := by
      rw [Engine.candidates, if_pos hskip.1, List.filter_eq_nil_iff]
      intro other hother
      rw [hvalues other hother, hskip.2]
      simp [Value.isNull]
    rw [hnil, choose_nil, hskip.2]
  · apply choose_of_forall engine occasion
    · unfold Engine.candidates
      split
      · next hskip' =>
          obtain ⟨first, hfirst⟩ := List.exists_mem_of_ne_nil _ hmap
          apply List.ne_nil_of_mem (a := first)
          rw [List.mem_filter]
          refine ⟨hfirst, ?_⟩
          have hnull : value ≠ .null := fun heq => hskip ⟨hskip', heq⟩
          rw [hvalues first hfirst]
          cases value <;> simp_all [Value.isNull]
      · exact hmap
    · intro other hother
      unfold Engine.candidates at hother
      split at hother
      · exact hvalues other (List.mem_of_mem_filter hother)
      · exact hvalues other hother

/-- `MAX` over the copies of a row is the value of the row. -/
theorem KeyCopies.eval_windowedItem (h : KeyCopies columns key rows held numbered)
    (hcoe : (kept engine occasion held query : Bag V) = held) {entry : Row V × Nat}
    (hentry : entry ∈ (kept engine occasion held query).zipIdx) (item : ProjectionItem) :
    engine.eval (windowed engine occasion held query entry) (windowedItem key item).expr =
      entry.1 item.name := by
  have hrow : entry.1 ∈ held := by
    rw [← hcoe]
    exact List.fst_mem_of_mem_zipIdx hentry
  simp only [windowedItem, Engine.eval, windowed, Engine.windowValue]
  apply choose_candidates engine occasion
  · apply List.ne_nil_of_mem (a := rowSight entry.1)
    exact List.mem_map_of_mem (mem_partition engine hentry _)
  · intro sight hsight
    obtain ⟨other, hother, rfl⟩ := List.mem_map.mp hsight
    rw [(h.fst_eq_of_mem_partition engine hcoe hrow hother).1]
    rfl

/-- Numbering the copies of every key from one keeps exactly one of each. -/
theorem KeyCopies.select_qualify (h : KeyCopies columns key rows held numbered)
    (hlists : ListsRows engine occasion columns key held query items)
    (hqualify : query.qualify = some (eq (copyNumber key) (intLit 1)))
    (hdistinct : query.distinct = false) :
    engine.select occasion held query = (keyedRows key numbered : Bag V) := by
  set list := kept engine occasion held query with hlist
  have hcoe : (list : Bag V) = held := hlists.coe_kept engine occasion
  set members : Row V → List (Sight V × Nat) := fun row =>
    engine.partition (list.map rowSight) [col key integerType] (rowSight row) with hmembers
  set number : Row V × Nat → Nat := fun entry =>
    Places.place (engine.rank occasion (copyNumber key)) (members entry.1) entry.2 with hnumber
  have hkeeps : ∀ entry, engine.keeps (windowed engine occasion held query entry) query.qualify ↔
      number entry = 1 := by
    intro entry
    rw [hqualify, keeps_some]
    simp only [eq, copyNumber, Engine.eval, windowed, Engine.windowValue, ← hlist, intLit,
      Engine.compareValues, Value.truth_ofTruth, Option.some.injEq, decide_eq_true_eq]
    exact Int.ofNat_inj
  have hselect : engine.select occasion held query =
      ((list.zipIdx.filter fun entry => number entry = 1).map Prod.fst : List (Row V)) := by
    rw [select_eq_listed engine occasion held hdistinct,
      qualified_ungrouped engine occasion held hlists.groupBy hlists.plain, List.filter_map,
      List.map_map]
    congr 1
    have hfilter : (list.zipIdx.filter ((fun sight => decide (engine.keeps sight query.qualify)) ∘
        windowed engine occasion held query)) =
        list.zipIdx.filter fun entry => number entry = 1 := by
      apply List.filter_congr
      intro entry _
      simp only [Function.comp_apply, hkeeps]
    rw [hfilter]
    apply List.map_congr_left
    intro entry hentry
    exact h.selectList_eq engine occasion hlists (List.mem_of_mem_filter hentry)
  rw [hselect]
  apply h.eq_keyedRows
  · rw [Multiset.coe_nodup]
    apply List.Nodup.map_on _ ((zipIdx_nodup list).filter _)
    intro entry hentry other hother heq
    rw [List.mem_filter, decide_eq_true_eq] at hentry hother
    refine Prod.ext heq ?_
    have hsame : number entry = number other := hentry.2.trans hother.2.symm
    simp only [hnumber, heq] at hsame
    have hmem := mem_partition engine hentry.1 [col key integerType]
    rw [heq] at hmem
    exact Places.place_injective (engine.rank_injective occasion _) hmem
      (mem_partition engine hother.1 _) hsame
  · intro row
    rw [Multiset.mem_coe, List.mem_map]
    constructor
    · rintro ⟨entry, hentry, rfl⟩
      rw [← hcoe]
      exact List.fst_mem_of_mem_zipIdx (List.mem_of_mem_filter hentry)
    · intro hrow
      have hmem : row ∈ list := by
        rw [← Multiset.mem_coe, hcoe]
        exact hrow
      obtain ⟨i, hi⟩ := exists_mem_zipIdx hmem
      obtain ⟨sight, j, hj, hone⟩ :=
        @Places.exists_place_eq_one _ (engine.rank occasion (copyNumber key)) _
          (List.ne_nil_of_mem (mem_partition engine hi [col key integerType]))
      obtain ⟨hsight, hplace⟩ := h.fst_eq_of_mem_partition engine hcoe hrow hj
      refine ⟨(row, j), ?_, rfl⟩
      rw [List.mem_filter, decide_eq_true_eq]
      refine ⟨?_, hone⟩
      rw [List.zipIdx_map] at hplace
      obtain ⟨entry, hentry, heq⟩ := List.mem_map.mp hplace
      have hentryRow : entry.1 = row := by
        have hfst : rowSight entry.1 = rowSight row := (congrArg Prod.fst heq).trans hsight
        exact congrArg Sight.row hfst
      have hentryPlace : entry.2 = j := congrArg Prod.snd heq
      rw [← hentryRow, ← hentryPlace]
      exact hentry

/-- The key and the base columns are listed as they are. -/
theorem listsRows_passthroughs {query : SelectQuery}
    (hprojection : query.projection = some (passthrough key integerType :: passthroughs columns))
    (hpredicate : query.predicate = none) (hgroup : query.groupBy = none)
    (hqualify : aggregatesArg query.qualify = false) :
    ListsRows engine occasion columns key held query (passthroughs columns) where
  projection := hprojection
  predicate := hpredicate
  groupBy := hgroup
  plain := by
    simp [aggregated, hprojection, hqualify, itemsAggregate_cons]
  names := names_passthroughs columns
  items_eq := fun _ _ item hitem => eval_passthroughs engine _ columns item hitem

/-- So are the key and the maxima of the base columns over the copies. -/
theorem KeyCopies.listsRows_windowed (h : KeyCopies columns key rows held numbered)
    {query : SelectQuery}
    (hprojection : query.projection = some
      (passthrough key integerType :: (passthroughs columns).map (windowedItem key)))
    (hpredicate : query.predicate = none) (hgroup : query.groupBy = none)
    (hqualify : aggregatesArg query.qualify = false) :
    ListsRows engine occasion columns key held query
      ((passthroughs columns).map (windowedItem key)) where
  projection := hprojection
  predicate := hpredicate
  groupBy := hgroup
  plain := by
    have hwindowed : itemsAggregate ((passthroughs columns).map (windowedItem key)) = false := by
      apply itemsAggregate_eq_false
      intro item hitem
      obtain ⟨original, -, rfl⟩ := List.mem_map.mp hitem
      rfl
    simp [aggregated, hprojection, hqualify, itemsAggregate_cons, hwindowed]
  names := by
    rw [← names_passthroughs, List.map_map]
    rfl
  items_eq := by
    intro entry hentry item hitem
    obtain ⟨original, -, rfl⟩ := List.mem_map.mp hitem
    apply h.eval_windowedItem engine occasion _ hentry
    rw [Rows.coe_kept, hpredicate]
    simp

/-- The row a key stands for. -/
noncomputable def rowOf (numbered : List (Row V × Int)) (group : List (Value V)) : Row V :=
  match numbered.find? fun entry => group = [.int entry.2] with
  | some entry => entry.1
  | none => nullRow

theorem KeyCopies.rowOf_key (h : KeyCopies columns key rows held numbered) {entry : Row V × Int}
    (hentry : entry ∈ numbered) : rowOf numbered [.int entry.2] = entry.1 := by
  unfold rowOf
  split
  · next other hother =>
      have heq := List.find?_some hother
      simp only [List.cons.injEq, Value.int.injEq, and_true, decide_eq_true_eq] at heq
      rw [List.inj_on_of_nodup_map h.nodup hentry (List.mem_of_find?_eq_some hother) heq]
  · next hnone =>
      rw [List.find?_eq_none] at hnone
      simpa using hnone entry hentry

/-- The keys that occur are the keys of the numbered rows. -/
theorem KeyCopies.keys_perm (h : KeyCopies columns key rows held numbered) {list : List (Row V)}
    (hlist : (list : Bag V) = held) :
    (list.map fun row => [row key]).dedup.Perm (numbered.map fun entry => [.int entry.2]) := by
  rw [List.perm_ext_iff_of_nodup (List.nodup_dedup _)]
  · intro group
    rw [List.mem_dedup, List.mem_map, List.mem_map]
    constructor
    · rintro ⟨row, hrow, rfl⟩
      rw [← Multiset.mem_coe, hlist, h.mem_iff] at hrow
      obtain ⟨entry, hentry, rfl⟩ := List.mem_map.mp hrow
      exact ⟨entry, hentry, by rw [Function.update_self]⟩
    · rintro ⟨entry, hentry, rfl⟩
      refine ⟨Function.update entry.1 key (.int entry.2), ?_, by rw [Function.update_self]⟩
      rw [← Multiset.mem_coe, hlist, h.mem_iff]
      exact List.mem_map_of_mem hentry
  · apply List.Nodup.map_on _ (List.Nodup.of_map Prod.snd h.nodup)
    intro entry hentry other hother heq
    simp only [List.cons.injEq, Value.int.injEq, and_true] at heq
    exact List.inj_on_of_nodup_map h.nodup hentry hother heq

theorem names_anyValueItems (columns : List Column) :
    ((passthroughs columns).map anyValueItem).map ProjectionItem.name =
      columns.map Column.name := by
  rw [← names_passthroughs, List.map_map]
  rfl

/-- `ANY_VALUE` over a group of copies recovers the columns of the row. -/
theorem KeyCopies.project_group (h : KeyCopies columns key rows held numbered)
    {list : List (Row V)} (hlist : (list : Bag V) = held) {entry : Row V × Int}
    (hentry : entry ∈ numbered) {sight : Sight V} (place : Nat)
    (hsight : sight.aggregate = engine.aggregateValue occasion
      ((list.filter fun row => [row key] = [.int entry.2]).map rowSight) place) :
    engine.project sight ((passthroughs columns).map anyValueItem) = entry.1 := by
  set copy := Function.update entry.1 key (.int entry.2) with hcopy
  have hheld : copy ∈ held := (h.mem_iff copy).mpr (List.mem_map_of_mem hentry)
  apply project_eq_self
  · intro item hitem
    obtain ⟨original, horiginal, rfl⟩ := List.mem_map.mp hitem
    have hname : original.name ≠ key := by
      intro heq
      apply h.fresh
      rw [← heq, ← names_passthroughs]
      exact List.mem_map_of_mem horiginal
    simp only [anyValueItem, Engine.eval, hsight, Engine.aggregateValue]
    apply choose_candidates engine occasion
    · apply List.ne_nil_of_mem (a := rowSight copy)
      apply List.mem_map_of_mem
      rw [List.mem_filter]
      refine ⟨?_, by simp [hcopy]⟩
      rw [← Multiset.mem_coe, hlist]
      exact hheld
    · intro member hmember
      obtain ⟨row, hrow, rfl⟩ := List.mem_map.mp hmember
      rw [List.mem_filter, decide_eq_true_eq, List.cons.injEq] at hrow
      have hrowHeld : row ∈ held := by
        rw [← hlist]
        exact hrow.1
      have hkey : row key = copy key := by
        rw [hrow.2.1, hcopy, Function.update_self]
      rw [h.eq_of_key hrowHeld hheld hkey]
      exact Function.update_of_ne hname _ _
  · rw [names_anyValueItems]
    exact h.supported entry hentry

/-- `GROUP BY` the key, with `ANY_VALUE` of every column. -/
theorem KeyCopies.select_groupBy (h : KeyCopies columns key rows held numbered) :
    engine.select occasion held
        { projection := some ((passthroughs columns).map anyValueItem),
          groupBy := some [col key integerType] } = rows := by
  set query : SelectQuery :=
    { projection := some ((passthroughs columns).map anyValueItem),
      groupBy := some [col key integerType] } with hquery
  set list := kept engine occasion held query with hlist
  have hcoe : (list : Bag V) = held := by
    rw [hlist, Rows.coe_kept]
    simp [hquery]
  set keys := (list.map fun row => [row key]).dedup with hkeys
  have hlisted : (engine.qualified occasion held query).map (engine.selectList query) =
      keys.map (rowOf numbered) := by
    have hunits : engine.units occasion held query =
        engine.groups occasion list [col key integerType] := rfl
    rw [Engine.qualified, hunits]
    simp only [hquery, keeps_none, decide_true, List.filter_true, Engine.groups, List.map_map,
      List.zipIdx_map]
    calc _ = keys.zipIdx.zipIdx.map (rowOf numbered ∘ Prod.fst ∘ Prod.fst) := by
          apply List.map_congr_left
          intro group hgroup
          have hkey := List.fst_mem_of_mem_zipIdx (List.fst_mem_of_mem_zipIdx hgroup)
          obtain ⟨entry, hentry, heq⟩ := List.mem_map.mp ((h.keys_perm hcoe).mem_iff.mp hkey)
          simp only [Function.comp_apply, ← heq, h.rowOf_key hentry]
          apply h.project_group engine occasion hcoe hentry group.1.2
          simp only [Prod.map_fst, ← heq]
          rfl
      _ = keys.map (rowOf numbered) := by
          rw [← List.map_map, ← List.map_map, List.zipIdx_map_fst, List.zipIdx_map_fst]
  rw [select_eq_listed engine occasion held rfl, hlisted, ← h.rows_eq, Multiset.coe_eq_coe]
  refine ((h.keys_perm hcoe).map (rowOf numbered)).trans (List.Perm.of_eq ?_)
  rw [List.map_map]
  apply List.map_congr_left
  intro entry hentry
  exact h.rowOf_key hentry

end Keyed

section Tagged

/-- The rows with their tag written into a column. -/
noncomputable def taggedRows (tag : String) (value : Int) (rows : Bag V) : Bag V :=
  rows.map fun row => Function.update row tag (.int value)

/-- Every row of the table occurs once with the tag of a row to keep. -/
structure TagCopies (columns : List Column) (tag : String) (rows held : Bag V) : Prop where
  fresh : tag ∉ columns.map Column.name
  supported : ∀ row ∈ rows, Supported (columns.map Column.name) row
  supported_held : ∀ row ∈ held, Supported (columns.map Column.name ++ [tag]) row
  tagged : ∀ row ∈ held, ∃ value, row tag = .int value
  kept_eq : (held.filter fun row => row tag = .int keep) = taggedRows tag keep rows

variable {columns : List Column} {tag : String} {rows held : Bag V}
variable (engine : Engine V) (occasion : Occasion)

theorem throwItems_passthroughs (columns : List Column) (tag : String) :
    throwItems (passthroughs columns) tag = taggedItems (passthroughs columns) tag throwaway := by
  simp [throwItems, passthroughs, Function.comp_def, passthrough]

theorem names_taggedItems (columns : List Column) (tag : String) (value : Int) :
    (taggedItems (passthroughs columns) tag value).map ProjectionItem.name =
      columns.map Column.name ++ [tag] := by
  simp [taggedItems, names_passthroughs]

/-- A row that keeps the base columns and gets a new tag. -/
theorem project_taggedItems {row : Row V} {sight : Sight V} {value : Int}
    (hrow : Supported (columns.map Column.name) row)
    (hsight : ∀ name, name ≠ tag → sight.row name = row name)
    (hfresh : tag ∉ columns.map Column.name) :
    engine.project sight (taggedItems (passthroughs columns) tag value) =
      Function.update row tag (.int value) :=
  project_snoc engine sight ⟨tag, intLit value, integerType⟩ hrow hsight hfresh

theorem eval_taggedItems (row : Row V) (window : ExpressionNode → Value V) (value : Int) :
    ∀ item ∈ taggedItems (passthroughs columns) tag value,
      engine.eval { rowSight row with window := window } item.expr =
        engine.eval (rowSight row) item.expr := by
  intro item hitem
  rcases List.mem_append.mp hitem with hitem | hitem
  · rw [eval_passthroughs engine _ columns item hitem, eval_passthroughs engine _ columns item hitem]
    rfl
  · obtain rfl := List.mem_singleton.mp hitem
    rfl

theorem itemsAggregate_taggedItems (value : Int) :
    itemsAggregate (taggedItems (passthroughs columns) tag value) = false := by
  rw [taggedItems, itemsAggregate_append, itemsAggregate_passthroughs]
  rfl

/-- Tagging rows that may carry another tag already. -/
theorem select_taggedItems (hfresh : tag ∉ columns.map Column.name)
    (hrows : ∀ row ∈ rows, Supported (columns.map Column.name) row) {source : Bag V}
    {predicate : Option ExpressionNode} {value : Int} {tagOf : Row V → Row V}
    (hsource : (source.filter fun row => engine.keeps (rowSight row) predicate) = rows.map tagOf)
    (htag : ∀ row name, name ≠ tag → tagOf row name = row name) :
    engine.select occasion source
        { projection := some (taggedItems (passthroughs columns) tag value),
          predicate := predicate } = taggedRows tag value rows := by
  rw [select_items engine occasion source predicate (itemsAggregate_taggedItems value)
    fun row window => eval_taggedItems engine row window value, hsource, Multiset.map_map]
  apply Multiset.map_congr rfl
  intro row hrow
  exact project_taggedItems engine (hrows row hrow) (fun name hne => htag row name hne) hfresh

/-- Rows tagged for the first time. -/
theorem select_tagged (hfresh : tag ∉ columns.map Column.name)
    (hrows : ∀ row ∈ rows, Supported (columns.map Column.name) row) (value : Int) :
    engine.select occasion rows
        { projection := some (taggedItems (passthroughs columns) tag value) } =
      taggedRows tag value rows := by
  have hall : (rows.filter fun row => engine.keeps (rowSight row) none) = rows.map id := by
    simp
  exact select_taggedItems engine occasion hfresh hrows hall fun _ _ _ => rfl

/-- Tagged rows that get another tag. -/
theorem select_retagged (hfresh : tag ∉ columns.map Column.name)
    (hrows : ∀ row ∈ rows, Supported (columns.map Column.name) row) (value value' : Int) :
    engine.select occasion (taggedRows tag value rows)
        { projection := some (taggedItems (passthroughs columns) tag value') } =
      taggedRows tag value' rows := by
  have hall : ((taggedRows tag value rows).filter fun row => engine.keeps (rowSight row) none) =
      rows.map fun row => Function.update row tag (.int value) := by
    simp [taggedRows]
  apply select_taggedItems engine occasion hfresh hrows hall
  intro row name hne
  exact Function.update_of_ne hne _ _

theorem supported_taggedRows (hrows : ∀ row ∈ rows, Supported (columns.map Column.name) row)
    (value : Int) : ∀ row ∈ taggedRows tag value rows,
      Supported (columns.map Column.name ++ [tag]) row := by
  intro row hrow
  obtain ⟨original, horiginal, rfl⟩ := Multiset.mem_map.mp hrow
  exact (hrows original horiginal).update tag _

theorem tagged_taggedRows (value : Int) :
    ∀ row ∈ taggedRows tag value rows, row tag = .int value := by
  intro row hrow
  obtain ⟨original, -, rfl⟩ := Multiset.mem_map.mp hrow
  exact Function.update_self tag _ original

/-- The table of the rows to keep. -/
theorem TagCopies.kept_rows (hfresh : tag ∉ columns.map Column.name)
    (hrows : ∀ row ∈ rows, Supported (columns.map Column.name) row) :
    TagCopies columns tag rows (taggedRows tag keep rows) where
  fresh := hfresh
  supported := hrows
  supported_held := supported_taggedRows hrows keep
  tagged := fun row hrow => ⟨keep, tagged_taggedRows keep row hrow⟩
  kept_eq := Multiset.filter_eq_self.mpr (tagged_taggedRows keep)

/-- Throwaway copies leave the rows to keep as they are. -/
theorem TagCopies.add_thrown (h : TagCopies columns tag rows held) {thrown : Bag V}
    (hthrown : ∀ row ∈ thrown, row ∈ taggedRows tag throwaway rows) :
    TagCopies columns tag rows (held + thrown) where
  fresh := h.fresh
  supported := h.supported
  supported_held := by
    intro row hrow
    rcases Multiset.mem_add.mp hrow with hrow | hrow
    · exact h.supported_held row hrow
    · exact supported_taggedRows h.supported throwaway row (hthrown row hrow)
  tagged := by
    intro row hrow
    rcases Multiset.mem_add.mp hrow with hrow | hrow
    · exact h.tagged row hrow
    · exact ⟨throwaway, tagged_taggedRows throwaway row (hthrown row hrow)⟩
  kept_eq := by
    have hnone : (thrown.filter fun row => row tag = .int keep) = 0 := by
      rw [Multiset.filter_eq_nil]
      intro row hrow heq
      rw [tagged_taggedRows throwaway row (hthrown row hrow), Value.int.injEq] at heq
      exact absurd heq (by decide)
    rw [Multiset.filter_add, hnone, add_zero, h.kept_eq]

/-- One table of rows to keep, and any number of throwaway copies of it. -/
theorem TagCopies.among (hfresh : tag ∉ columns.map Column.name)
    (hrows : ∀ row ∈ rows, Supported (columns.map Column.name) row) (n : Nat) :
    TagCopies columns tag rows
      (taggedRows tag keep rows + (List.replicate n (taggedRows tag throwaway rows)).sum) := by
  apply (TagCopies.kept_rows hfresh hrows).add_thrown
  intro row hrow
  rw [List.sum_replicate] at hrow
  exact Multiset.mem_of_mem_nsmul hrow

theorem TagCopies.keeps_tagIs (h : TagCopies columns tag rows held) {row : Row V}
    (hrow : row ∈ held) :
    engine.keeps (rowSight row) (some (tagIs tag keep)) ↔ row tag = .int keep := by
  obtain ⟨value, hvalue⟩ := h.tagged row hrow
  rw [keeps_some]
  simp only [tagIs, eq, Engine.eval, eval_col, row_rowSight, hvalue, intLit, Engine.compareValues,
    Value.truth_ofTruth, Option.some.injEq, decide_eq_true_eq, Value.int.injEq]

theorem TagCopies.filter_tagIs (h : TagCopies columns tag rows held) :
    (held.filter fun row => engine.keeps (rowSight row) (some (tagIs tag keep))) =
      taggedRows tag keep rows := by
  rw [← h.kept_eq]
  exact Multiset.filter_congr fun row hrow => h.keeps_tagIs engine hrow

/-- `DELETE` of the rows whose tag is another leaves the rows to keep. -/
theorem TagCopies.filter_delete (h : TagCopies columns tag rows held) :
    (held.filter fun row => ¬engine.keeps (rowSight row)
        (some (ne (col tag integerType) (intLit keep)))) = taggedRows tag keep rows := by
  rw [← h.kept_eq]
  apply Multiset.filter_congr
  intro row hrow
  obtain ⟨value, hvalue⟩ := h.tagged row hrow
  rw [keeps_some]
  simp only [ne, Engine.eval, eval_col, row_rowSight, hvalue, intLit, Engine.compareValues,
    Value.truth_ofTruth, Option.some.injEq, decide_eq_true_eq, Value.int.injEq, not_not]

/-- The base columns of the tagged rows are the base rows. -/
theorem select_taggedRows (hfresh : tag ∉ columns.map Column.name)
    (hrows : ∀ row ∈ rows, Supported (columns.map Column.name) row) {source : Bag V}
    {predicate : Option ExpressionNode} {value : Int}
    (hsource : (source.filter fun row => engine.keeps (rowSight row) predicate) =
      taggedRows tag value rows) :
    engine.select occasion source
      { projection := some (passthroughs columns), predicate := predicate } = rows := by
  rw [select_items engine occasion source predicate (itemsAggregate_passthroughs columns)
    fun row window item hitem => by
      rw [eval_passthroughs engine _ columns item hitem,
        eval_passthroughs engine _ columns item hitem]
      rfl, hsource, taggedRows, Multiset.map_map]
  calc _ = rows.map id := by
        apply Multiset.map_congr rfl
        intro row hrow
        exact project_update engine _ (hrows row hrow) rfl hfresh
    _ = rows := Multiset.map_id rows

/-- The rows to keep, under the tag of rows to throw away. -/
theorem TagCopies.select_thrown (h : TagCopies columns tag rows held) :
    engine.select occasion held
        { projection := some (taggedItems (passthroughs columns) tag throwaway),
          predicate := some (tagIs tag keep) } = taggedRows tag throwaway rows := by
  apply select_taggedItems engine occasion h.fresh h.supported (h.filter_tagIs engine)
  intro row name hne
  exact Function.update_of_ne hne _ _

/-- A filter on the tag gives the base rows back. -/
theorem TagCopies.select_kept (h : TagCopies columns tag rows held) :
    engine.select occasion held
      { projection := some (passthroughs columns), predicate := some (tagIs tag keep) } = rows :=
  select_taggedRows engine occasion h.fresh h.supported (h.filter_tagIs engine)

/-- So does the table a `DELETE` left. -/
theorem TagCopies.select_left (h : TagCopies columns tag rows held) :
    engine.select occasion
      (held.filter fun row => ¬engine.keeps (rowSight row)
        (some (ne (col tag integerType) (intLit keep))))
      { projection := some (passthroughs columns) } = rows := by
  rw [h.filter_delete]
  refine @select_taggedRows _ _ _ _ engine occasion h.fresh h.supported _ _ keep ?_
  simp

end Tagged

end EqGen.Equivalence.Copies
