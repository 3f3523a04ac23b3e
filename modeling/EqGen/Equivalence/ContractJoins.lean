import EqGen.Equivalence.ContractPartitions
import EqGen.Equivalence.Joins

/-! The builders that join two sides of one keyed table keep the contract. -/

namespace EqGen.Equivalence.ContractJoins

open Classical
open EqGen.Builder.Promises
open EqGen.Core.Catalog
open EqGen.Core.Types
open EqGen.Equivalence.Ast
open EqGen.Equivalence.Builders.Base
open EqGen.Equivalence.Builders.Joins
open EqGen.Equivalence.Context
open EqGen.Equivalence.ContractPartitions
open EqGen.Equivalence.ContractQueries
open EqGen.Equivalence.ContractSteps
open EqGen.Equivalence.Contracts
open EqGen.Equivalence.Copies
open EqGen.Equivalence.Expansion
open EqGen.Equivalence.Factory
open EqGen.Equivalence.Joins
open EqGen.Equivalence.Names
open EqGen.Equivalence.Renamed
open EqGen.Equivalence.RowIdentities
open EqGen.Equivalence.Rows
open EqGen.Equivalence.Semantics
open EqGen.Ir.Expr hiding ExpressionNode
open EqGen.Lib.Ascent
open EqGen.Lib.Backtrack

variable {V : Type} {engine : Engine V}

section Pairs

variable {columns : List Column} {key : String} {rows held : Bag V}
variable {numbered : List (Row V × Int)} {f g : Row V → Row V}

theorem key_keyedRows {row : Row V} (hrow : row ∈ keyedRows key numbered) :
    ∃ n, row key = .int n := by
  obtain ⟨entry, -, rfl⟩ := List.mem_map.mp hrow
  exact ⟨entry.2, Function.update_self _ _ _⟩

theorem nodup_map_keyedRows (h : KeyCopies columns key rows held numbered)
    (hf : ∀ row, f row key = row key) : ((keyedRows key numbered : Bag V).map f).Nodup := by
  apply Multiset.Nodup.map_on _ (Multiset.coe_nodup.mpr h.nodup_keyedRows)
  intro row hrow other hother heq
  have hkey : row key = other key := by
    rw [← hf row, ← hf other, heq]
  exact h.eq_of_key ((h.mem_iff row).mpr hrow) ((h.mem_iff other).mpr hother) hkey

/-- Of all pairs of rows of two lists of a keyed table, those with one key are the row with itself. -/
theorem filter_pairs (h : KeyCopies columns key rows held numbered)
    (hf : ∀ row, f row key = row key) (hg : ∀ row, g row key = row key)
    {p : Row V × Row V → Prop}
    (hp : ∀ row ∈ keyedRows key numbered, ∀ other ∈ keyedRows key numbered,
      p (f row, g other) ↔ row key = other key) :
    (((keyedRows key numbered : Bag V).map f) ×ˢ ((keyedRows key numbered : Bag V).map g)).filter
      p = (keyedRows key numbered : Bag V).map fun row => (f row, g row) := by
  have hnodup := (Multiset.Nodup.product (nodup_map_keyedRows h hf)
    (nodup_map_keyedRows h hg)).filter p
  have hpairs : ((keyedRows key numbered : Bag V).map fun row => (f row, g row)).Nodup := by
    apply Multiset.Nodup.of_map Prod.fst
    rw [Multiset.map_map]
    exact nodup_map_keyedRows h hf
  apply (Multiset.Nodup.ext hnodup hpairs).mpr
  rintro ⟨l, r⟩
  rw [Multiset.mem_filter, Multiset.mem_product, Multiset.mem_map, Multiset.mem_map,
    Multiset.mem_map]
  constructor
  · rintro ⟨⟨⟨row, hrow, rfl⟩, ⟨other, hother, rfl⟩⟩, hpair⟩
    have hkey := (hp row hrow other hother).mp hpair
    have hsame := h.eq_of_key ((h.mem_iff row).mpr hrow) ((h.mem_iff other).mpr hother) hkey
    exact ⟨row, hrow, by rw [hsame]⟩
  · rintro ⟨row, hrow, heq⟩
    obtain ⟨rfl, rfl⟩ := Prod.mk.inj heq
    exact ⟨⟨⟨row, hrow, rfl⟩, ⟨row, hrow, rfl⟩⟩, (hp row hrow row hrow).mpr rfl⟩

variable {join : JoinQuery}

/-- The rows of the two sides join where they have one key. -/
def JoinsOnKey (engine : Engine V) (join : JoinQuery) (key : String)
    (numbered : List (Row V × Int)) (f g : Row V → Row V) : Prop :=
  ∀ row ∈ keyedRows key numbered, ∀ other ∈ keyedRows key numbered,
    engine.joins join (f row) (g other) ↔ row key = other key

theorem joinsOnKey (hcondition : join.condition = some (keysAgree key))
    (hleft : join.leftAlias = leftAlias) (hright : join.rightAlias = rightAlias)
    (hf : ∀ row, f row key = row key) (hg : ∀ row, g row key = row key) :
    JoinsOnKey engine join key numbered f g := by
  intro row hrow other hother
  obtain ⟨m, hm⟩ := key_keyedRows hrow
  obtain ⟨n, hn⟩ := key_keyedRows hother
  rw [joins_keysAgree engine hcondition hleft hright ((hf row).trans hm) ((hg other).trans hn),
    hf, hg]

/-- No row of either side is without a partner. -/
theorem joinPairs_eq (h : KeyCopies columns key rows held numbered)
    (hf : ∀ row, f row key = row key) (hg : ∀ row, g row key = row key)
    (hjoins : JoinsOnKey engine join key numbered f g)
    (htype : join.joinType ∈ joinTypeChoices) :
    engine.joinPairs join ((keyedRows key numbered : Bag V).map f)
      ((keyedRows key numbered : Bag V).map g) =
        (keyedRows key numbered : Bag V).map fun row => (f row, g row) := by
  have hmatched := filter_pairs h hf hg (p := fun pair => engine.joins join pair.1 pair.2) hjoins
  have hlonelyLeft : ((keyedRows key numbered : Bag V).map f).filter (fun l =>
      ∀ r ∈ (keyedRows key numbered : Bag V).map g, ¬engine.joins join l r) = 0 := by
    rw [Multiset.filter_eq_nil]
    intro l hl hall
    obtain ⟨row, hrow, rfl⟩ := Multiset.mem_map.mp hl
    exact hall (g row) (Multiset.mem_map_of_mem g hrow) ((hjoins row hrow row hrow).mpr rfl)
  have hlonelyRight : ((keyedRows key numbered : Bag V).map g).filter (fun r =>
      ∀ l ∈ (keyedRows key numbered : Bag V).map f, ¬engine.joins join l r) = 0 := by
    rw [Multiset.filter_eq_nil]
    intro r hr hall
    obtain ⟨row, hrow, rfl⟩ := Multiset.mem_map.mp hr
    exact hall (f row) (Multiset.mem_map_of_mem f hrow) ((hjoins row hrow row hrow).mpr rfl)
  unfold Engine.joinPairs
  simp only [hmatched, hlonelyLeft, hlonelyRight, Multiset.map_zero, add_zero]
  simp only [joinTypeChoices, List.mem_cons, List.not_mem_nil, or_false] at htype
  rcases htype with htype | htype | htype | htype <;> rw [htype]

/-- What a join returns whose pairs are those of a row with itself. -/
theorem join_eq (h : KeyCopies columns key rows held numbered) {left right : Bag V}
    (hpairs : ((engine.joinPairs join left right).filter fun pair =>
      engine.keeps (joinSight join pair.1 pair.2) join.predicate) =
        (keyedRows key numbered : Bag V).map fun row => (f row, g row))
    (hproject : ∀ entry ∈ numbered,
      engine.project (joinSight join (f (Function.update entry.1 key (.int entry.2)))
        (g (Function.update entry.1 key (.int entry.2)))) join.projection = entry.1) :
    engine.join join left right = rows := by
  rw [Engine.join, hpairs, Multiset.map_map, ← h.rows_eq, keyedRows, Multiset.map_coe,
    List.map_map]
  congr 1
  apply List.map_congr_left
  intro entry hentry
  exact hproject entry hentry

/-- A predicate that holds of every pair drops none. -/
theorem filter_self {pairs : Multiset (Row V × Row V)}
    (hpairs : pairs = (keyedRows key numbered : Bag V).map fun row => (f row, g row))
    (hkeeps : ∀ row ∈ keyedRows key numbered,
      engine.keeps (joinSight join (f row) (g row)) join.predicate) :
    (pairs.filter fun pair => engine.keeps (joinSight join pair.1 pair.2) join.predicate) =
      (keyedRows key numbered : Bag V).map fun row => (f row, g row) := by
  rw [hpairs, Multiset.filter_eq_self]
  intro pair hpair
  obtain ⟨row, hrow, rfl⟩ := Multiset.mem_map.mp hpair
  exact hkeeps row hrow

end Pairs

section Lists

variable {columns : List Column} {key : String} {join : JoinQuery}

theorem names_qualified (relation : String) (items : List ProjectionItem) :
    (qualified relation items).map ProjectionItem.name = items.map ProjectionItem.name := by
  simp [qualified]

/-- The columns of a row, some from the left side and the others from the right. -/
theorem project_sides (hleft : join.leftAlias = leftAlias) (hright : join.rightAlias = rightAlias)
    {leftItems rightItems : List ProjectionItem} (hitems : leftItems ++ rightItems =
      passthroughs columns) {l r row : Row V} (hrow : Supported (columns.map Column.name) row)
    (hl : ∀ item ∈ leftItems, l item.name = row item.name)
    (hr : ∀ item ∈ rightItems, r item.name = row item.name) :
    engine.project (joinSight join l r)
      (qualified leftAlias leftItems ++ qualified rightAlias rightItems) = row := by
  have halias : ¬some rightAlias = some leftAlias := by
    decide
  apply project_eq_self
  · intro item hitem
    rcases List.mem_append.mp hitem with hitem | hitem
    · obtain ⟨original, horiginal, rfl⟩ := List.mem_map.mp hitem
      simp only [qualifiedCol, Engine.eval, joinSight, hleft, if_pos]
      exact hl original horiginal
    · obtain ⟨original, horiginal, rfl⟩ := List.mem_map.mp hitem
      simp only [qualifiedCol, Engine.eval, joinSight, hleft, hright, halias, if_false, if_pos]
      exact hr original horiginal
  · rw [List.map_append, names_qualified, names_qualified, ← List.map_append, hitems,
      names_passthroughs]
    exact hrow

theorem name_ne_key (hkey : key ∉ columns.map Column.name) {item : ProjectionItem}
    (hitem : item ∈ passthroughs columns) : item.name ≠ key := by
  intro heq
  apply hkey
  rw [← heq, ← names_passthroughs]
  exact List.mem_map_of_mem hitem

variable {rows held : Bag V} {numbered : List (Row V × Int)}

/-- The base columns from the left side, which is the keyed row. -/
theorem project_left (h : KeyCopies columns key rows held numbered)
    (hleft : join.leftAlias = leftAlias) (hright : join.rightAlias = rightAlias)
    {entry : Row V × Int} (hentry : entry ∈ numbered) (r : Row V) :
    engine.project (joinSight join (Function.update entry.1 key (.int entry.2)) r)
      (qualified leftAlias (passthroughs columns)) = entry.1 := by
  have hsides := @project_sides _ engine columns join hleft hright (passthroughs columns) []
    (List.append_nil _) (Function.update entry.1 key (.int entry.2)) r entry.1
    (h.supported entry hentry) (fun item hitem =>
      Function.update_of_ne (name_ne_key h.fresh hitem) _ _) (by simp)
  rwa [show qualified rightAlias [] = [] from rfl, List.append_nil] at hsides

/-- A semi join keeps every row that has a partner, and each has one. -/
theorem pairs_semi {g : Row V → Row V} (hjoins : JoinsOnKey engine join key numbered id g)
    (htype : join.joinType = .semi) :
    engine.joinPairs join (keyedRows key numbered : Bag V)
      ((keyedRows key numbered : Bag V).map g) =
        (keyedRows key numbered : Bag V).map fun row => (id row, nullRow) := by
  have hall : ((keyedRows key numbered : Bag V).filter fun l =>
      ∃ r ∈ (keyedRows key numbered : Bag V).map g, engine.joins join l r) =
        (keyedRows key numbered : Bag V) := by
    rw [Multiset.filter_eq_self]
    intro row hrow
    exact ⟨g row, Multiset.mem_map_of_mem g hrow, (hjoins row hrow row hrow).mpr rfl⟩
  unfold Engine.joinPairs
  simp only [htype, hall]
  rfl

/-- A cross join leaves it to its predicate to pair the rows. -/
theorem pairs_cross (h : KeyCopies columns key rows held numbered) {g : Row V → Row V}
    (hg : ∀ row, g row key = row key) (htype : join.joinType = .cross)
    (hcondition : join.condition = none) (hpredicate : join.predicate = some (keysAgree key))
    (hleft : join.leftAlias = leftAlias) (hright : join.rightAlias = rightAlias) :
    ((engine.joinPairs join (keyedRows key numbered : Bag V)
      ((keyedRows key numbered : Bag V).map g)).filter fun pair =>
        engine.keeps (joinSight join pair.1 pair.2) join.predicate) =
      (keyedRows key numbered : Bag V).map fun row => (id row, g row) := by
  have hpairs := @filter_pairs _ _ key rows held numbered id g h (fun _ => rfl) hg
    (fun pair => engine.keeps (joinSight join pair.1 pair.2) join.predicate) (by
      have hon := @joinsOnKey _ engine key numbered id g
        { join with condition := some (keysAgree key) } rfl hleft hright (fun _ => rfl) hg
      rw [hpredicate]
      exact hon)
  rw [Multiset.map_id] at hpairs
  have hall : ∀ l r, engine.joins join l r := by
    intro l r
    rw [Engine.joins, hcondition]
    exact keeps_none engine _
  unfold Engine.joinPairs
  simp only [htype, hall, Multiset.filter_true]
  exact hpairs

/-- Some of the base columns and the key are listed as they are. -/
theorem project_listed {items : List ProjectionItem}
    (hitems : ∀ item ∈ items, item ∈ passthroughs columns) (row : Row V) {name : String}
    (hname : name ∈ (items ++ [passthrough key integerType]).map ProjectionItem.name) :
    engine.project (rowSight row) (items ++ [passthrough key integerType]) name = row name := by
  apply project_eq_of_forall engine _ _ hname
  intro item hitem
  rcases List.mem_append.mp hitem with hitem | hitem
  · exact eval_passthroughs engine _ columns item (hitems item hitem)
  · rw [List.mem_singleton.mp hitem]
    rfl

end Lists

section Builders

variable {context : EquivalenceContext} {base : BaseRows V context.baseTable} {scope : Scope V}
variable {pool : List EquivalenceBuilder} {s : GenerationState} {recurse : BuildSubtree}

/-- A join whose rows do not depend on when it is evaluated. -/
theorem leads_joinStill {left right : EqNode} {leftColumns rightColumns columns : List String}
    {leftRows rightRows rows : Bag V}
    (hleft : Holds engine base scope ⟨leftColumns, fun _ => leftRows⟩ left)
    (hright : Holds engine base scope ⟨rightColumns, fun _ => rightRows⟩ right)
    (hne : refSql left ≠ refSql right) {join : JoinQuery}
    (hcolumns : join.projection.map ProjectionItem.name = columns)
    (hrows : engine.join join leftRows rightRows = rows) :
    Leads s (newQuery (.join join) [left, right]) fun node _ =>
      QueryHolds engine base scope ⟨columns, fun _ => rows⟩ node := by
  apply (leads_joinQuery hleft hright hne join).mono
  intro node s' _ hnode
  rw [hcolumns] at hnode
  simp only [hrows] at hnode
  exact hnode

theorem names_qualified_base (relation : String) :
    (qualified relation (passthroughs context.baseTable.columns)).map ProjectionItem.name =
      context.baseTable.columnNames := by
  rw [names_qualified, names_passthroughs, Table.columnNames]

/-- A `LEFT JOIN` with nothing, whatever its condition. -/
theorem join_nothing {join : JoinQuery} (htype : join.joinType = .leftOuter)
    (hleft : join.leftAlias = leftAlias) (hright : join.rightAlias = rightAlias)
    (hprojection : join.projection = qualified leftAlias (passthroughs context.baseTable.columns))
    (hpredicate : join.predicate = none) : engine.join join base.rows 0 = base.rows := by
  have hlonely : (base.rows.filter fun l => ∀ r ∈ (0 : Bag V), ¬engine.joins join l r) =
      base.rows :=
    Multiset.filter_eq_self.mpr fun _ _ r hr => absurd hr (Multiset.notMem_zero r)
  simp only [Engine.join, Engine.joinPairs, htype, hpredicate, Multiset.product_zero,
    Multiset.filter_zero, zero_add, hlonely, keeps_none, Multiset.filter_true, Multiset.map_map,
    Function.comp_apply]
  calc _ = base.rows.map id := by
        apply Multiset.map_congr rfl
        intro row hrow
        have hsides := @project_sides _ engine context.baseTable.columns join hleft hright
          (passthroughs context.baseTable.columns) [] (List.append_nil _) row nullRow row
          (base.supported row hrow) (fun _ _ => rfl) (by simp)
        rwa [show qualified rightAlias [] = [] from rfl, List.append_nil, ← hprojection] at hsides
    _ = base.rows := Multiset.map_id _

/-- The flag of every row is set. -/
theorem keeps_flag {uid flag : String} (hne : flag ≠ uid) {join : JoinQuery}
    (hleft : join.leftAlias = leftAlias) (hright : join.rightAlias = rightAlias) (l row : Row V) :
    engine.keeps (joinSight join l (engine.project (rowSight row) (flagItems uid flag)))
      (some (eq (qualifiedCol rightAlias flag integerType) (intLit 1))) := by
  have halias : ¬some rightAlias = some leftAlias := by
    decide
  have hflag : engine.project (rowSight row) (flagItems uid flag) flag = .int 1 := by
    simp [flagItems, project_cons, passthrough, hne.symm]
  rw [keeps_some]
  simp only [eq, qualifiedCol, intLit, Engine.eval, joinSight, hleft, hright, halias, if_false,
    if_pos, hflag, Engine.compareValues, Value.truth_ofTruth, decide_true]

variable (hrecurse : Answering engine base scope pool recurse)

include hrecurse

theorem leads_leftJoinEmpty : Leads s (leftJoinEmpty recurse context) fun node _ =>
    QueryHolds engine base scope (baseRelation base) node := by
  refine Leads.bind (Q := fun _ _ => True) (Leads.guard fun _ => trivial) ?_
  intro _ s₁ _ _
  have hplain : Plain { rowFilter := some nothing } := ⟨rfl, rfl, rfl⟩
  refine (leads_bothSides hrecurse hplain rfl).bind ?_
  rintro sides s₂ _ ⟨hleft, hright, hne⟩
  rw [passing_nothing] at hright
  exact leads_joinStill hleft hright hne (names_qualified_base _)
    (join_nothing rfl rfl rfl rfl rfl)

variable (hsituated : Situated context base scope)

include hsituated

theorem leads_semiJoinFlagRoundTrip :
    Leads s (semiJoinFlagRoundTrip recurse context) fun node _ =>
      QueryHolds engine base scope (baseRelation base) node := by
  refine (leads_coinColumn hsituated (by simp [columnStems])).bind ?_
  intro uid s₁ _ huid
  refine (leads_materializeRowKey hrecurse huid.column).bind ?_
  rintro ⟨keyed, baseItems⟩ s₂ _ ⟨rfl, ⟨numbered, hkeyed, hcopies, -⟩, -, htaken⟩
  refine Leads.bind (Q := fun _ s' => s₂ ≤ s') (Leads.guard fun _ => le_refl s₂) ?_
  intro _ s₃ _ hle₃
  have hlists : ListsKey uid [passthrough uid integerType] :=
    @listsKey_snoc context.baseTable.columns uid [] (by simp) huid.column
  refine (leads_selectStill hkeyed rfl fun occasion => hlists.select_eq engine occasion _).bind ?_
  intro flags s₄ hle₄ hflags
  refine (leads_stillTable hflags).bind ?_
  rintro flagTable s₅ _ ⟨hflagTable, hnew, -⟩
  have hne : refSql keyed ≠ refSql flagTable :=
    fun heq => hnew (heq ▸ htaken.mono (hle₃.trans hle₄))
  refine leads_joinStill hkeyed hflagTable hne (names_qualified_base _) ?_
  have hjoins := @joinsOnKey _ engine uid numbered id
    (fun row => engine.project (rowSight row) [passthrough uid integerType])
  refine join_eq hcopies (filter_self (pairs_semi (hjoins rfl rfl rfl (fun _ => rfl)
    fun row => project_key engine row hlists.named hlists.mem) rfl)
      fun _ _ => keeps_none engine _) ?_
  exact fun entry hentry => project_left hcopies rfl rfl hentry _

theorem leads_crossJoinFilterAsInner :
    Leads s (crossJoinFilterAsInner recurse context) fun node _ =>
      QueryHolds engine base scope (baseRelation base) node := by
  refine (leads_coinColumn hsituated (by simp [columnStems])).bind ?_
  intro uid s₁ _ huid
  refine (leads_materializeRowKey hrecurse huid.column).bind ?_
  rintro ⟨keyed, baseItems⟩ s₂ _ ⟨rfl, ⟨numbered, hkeyed, hcopies, -⟩, -, htaken⟩
  refine Leads.bind (Q := fun _ s' => s₂ ≤ s') (Leads.guard fun _ => le_refl s₂) ?_
  intro _ s₃ _ hle₃
  have hlists : ListsKey uid [passthrough uid integerType] :=
    @listsKey_snoc context.baseTable.columns uid [] (by simp) huid.column
  refine (leads_selectStill hkeyed rfl fun occasion => hlists.select_eq engine occasion _).bind ?_
  intro flags s₄ hle₄ hflags
  refine (leads_stillTable hflags).bind ?_
  rintro flagTable s₅ _ ⟨hflagTable, hnew, -⟩
  have hne : refSql keyed ≠ refSql flagTable :=
    fun heq => hnew (heq ▸ htaken.mono (hle₃.trans hle₄))
  refine leads_joinStill hkeyed hflagTable hne (names_qualified_base _) ?_
  refine join_eq hcopies (pairs_cross hcopies
    (fun row => project_key engine row hlists.named hlists.mem) rfl rfl rfl rfl rfl) ?_
  exact fun entry hentry => project_left hcopies rfl rfl hentry _

theorem leads_flagTableJoin :
    Leads s (flagTableJoin recurse context) fun node _ =>
      QueryHolds engine base scope (baseRelation base) node := by
  refine (leads_coinColumn hsituated (by simp [columnStems])).bind ?_
  intro uid s₁ _ huid
  refine (leads_coinColumn hsituated (by simp [columnStems])).bind ?_
  intro flag s₂ _ hflag
  have hne : flag ≠ uid := by
    rintro rfl
    exact hflag.new huid.taken
  refine (leads_materializeRowKey hrecurse huid.column).bind ?_
  rintro ⟨keyed, baseItems⟩ s₃ _ ⟨rfl, ⟨numbered, hkeyed, hcopies, -⟩, -, htaken⟩
  have hlists : ListsKey uid (flagItems uid flag) := listsKey_flagItems hne
  refine (leads_selectStill hkeyed rfl fun occasion => hlists.select_eq engine occasion _).bind ?_
  intro flags s₄ hle₄ hflags
  refine (leads_stillTable hflags).bind ?_
  rintro flagTable s₅ _ ⟨hflagTable, hnew, -⟩
  refine (leads_chooseOne _).bind ?_
  rintro joinType s₆ _ ⟨option, hoption, rfl⟩
  have hkeyedFlags : refSql keyed ≠ refSql flagTable :=
    fun heq => hnew (heq ▸ htaken.mono hle₄)
  refine leads_joinStill hkeyed hflagTable hkeyedFlags (names_qualified_base _) ?_
  have hkey : ∀ row : Row V, engine.project (rowSight row) (flagItems uid flag) uid = row uid :=
    fun row => project_key engine row hlists.named hlists.mem
  have hjoins := @joinsOnKey _ engine uid numbered id
    (fun row => engine.project (rowSight row) (flagItems uid flag))
  have hpairs := @joinPairs_eq _ engine context.baseTable.columns uid _ _ numbered id
    (fun row => engine.project (rowSight row) (flagItems uid flag))
    ⟨some (keysAgree uid), option.value, qualified leftAlias
      (passthroughs context.baseTable.columns), leftAlias, rightAlias,
      some (eq (qualifiedCol rightAlias flag integerType) (intLit 1))⟩ hcopies (fun _ => rfl) hkey
    (hjoins rfl rfl rfl (fun _ => rfl) hkey) (hsituated.joins option hoption)
  rw [Multiset.map_id] at hpairs
  refine join_eq hcopies (filter_self hpairs
    fun row _ => keeps_flag hne rfl rfl _ row) ?_
  exact fun entry hentry => project_left hcopies rfl rfl hentry _

theorem leads_sequenceOuterJoin :
    Leads s (sequenceOuterJoin recurse context) fun node _ =>
      QueryHolds engine base scope (baseRelation base) node := by
  refine (leads_coinColumn hsituated (by simp [columnStems])).bind ?_
  intro key s₁ _ hkey
  refine (leads_materializeRowKey hrecurse hkey.column).bind ?_
  rintro ⟨keyed, baseItems⟩ s₂ _ ⟨rfl, ⟨numbered, hkeyed, hcopies, -⟩, -, -⟩
  refine Leads.bind (Q := fun _ _ => True) (Leads.guard fun _ => trivial) ?_
  intro _ s₃ _ _
  set items := passthroughs context.baseTable.columns with hitems
  set leftCols := items.take (items.length / 2) with hleftCols
  set rightCols := items.drop (items.length / 2) with hrightCols
  have hleftMem : ∀ item ∈ leftCols, item ∈ items := fun _ h => List.mem_of_mem_take h
  have hrightMem : ∀ item ∈ rightCols, item ∈ items := fun _ h => List.mem_of_mem_drop h
  have hleftLists : ListsKey key (leftCols ++ [passthrough key integerType]) :=
    listsKey_snoc hleftMem hkey.column
  have hrightLists : ListsKey key (rightCols ++ [passthrough key integerType]) :=
    listsKey_snoc hrightMem hkey.column
  refine (leads_selectStill hkeyed rfl fun occasion =>
    hleftLists.select_eq engine occasion _).bind ?_
  intro leftQuery s₄ _ hleftQuery
  refine (leads_createView hleftQuery (by simp)).bind ?_
  rintro left s₅ _ ⟨hleft, hleftFresh⟩
  refine (leads_selectStill hkeyed rfl fun occasion =>
    hrightLists.select_eq engine occasion _).bind ?_
  intro rightQuery s₆ hle₆ hrightQuery
  refine (leads_createView hrightQuery (by simp)).bind ?_
  rintro right s₇ _ ⟨hright, hrightFresh⟩
  have hne : refSql left ≠ refSql right :=
    fun heq => (hrightFresh rfl).1 (heq ▸ (hleftFresh rfl).2.mono hle₆)
  have hnames : (qualified leftAlias leftCols ++ qualified rightAlias rightCols).map
      ProjectionItem.name = context.baseTable.columnNames := by
    rw [List.map_append, names_qualified, names_qualified, ← List.map_append,
      List.take_append_drop, hitems, names_passthroughs, Table.columnNames]
  refine leads_joinStill hleft hright hne hnames ?_
  have hleftKey : ∀ row : Row V, engine.project (rowSight row)
      (leftCols ++ [passthrough key integerType]) key = row key :=
    fun row => project_key engine row hleftLists.named hleftLists.mem
  have hrightKey : ∀ row : Row V, engine.project (rowSight row)
      (rightCols ++ [passthrough key integerType]) key = row key :=
    fun row => project_key engine row hrightLists.named hrightLists.mem
  have hjoins := @joinsOnKey _ engine key numbered _ _
    ⟨some (keysAgree key), .fullOuter, qualified leftAlias leftCols ++
      qualified rightAlias rightCols, leftAlias, rightAlias, none⟩ rfl rfl rfl hleftKey hrightKey
  refine join_eq hcopies (filter_self
    (joinPairs_eq hcopies hleftKey hrightKey hjoins (show .fullOuter ∈ joinTypeChoices by decide))
      fun _ _ => keeps_none engine _) ?_
  intro entry hentry
  have hname : ∀ item ∈ items, (Function.update entry.1 key (.int entry.2)) item.name =
      entry.1 item.name := fun item hitem =>
    Function.update_of_ne (name_ne_key hkey.column hitem) _ _
  apply project_sides rfl rfl (List.take_append_drop _ _) (hcopies.supported entry hentry)
  · intro item hitem
    rw [project_listed hleftMem _ (by
      rw [List.map_append]
      exact List.mem_append_left _ (List.mem_map_of_mem hitem))]
    exact hname item (hleftMem item hitem)
  · intro item hitem
    rw [project_listed hrightMem _ (by
      rw [List.map_append]
      exact List.mem_append_left _ (List.mem_map_of_mem hitem))]
    exact hname item (hrightMem item hitem)

omit hrecurse

theorem keeps_joinBuilders : ∀ b ∈ joinBuilders context, Keeps engine base scope pool b := by
  simp only [joinBuilders, List.forall_mem_cons]
  refine ⟨?_, ?_, ?_, ?_, ?_, ?_, ?_, List.forall_mem_nil _⟩
  · exact keeps_plainQueryBuilder rfl fun _ _ h => leads_flagTableJoin h hsituated
  · exact keeps_plainQueryBuilder rfl fun _ _ h => leads_sequenceOuterJoin h hsituated
  · exact keeps_plainQueryBuilder rfl fun _ _ h => leads_leftJoinEmpty h
  · exact keeps_plainQueryBuilder rfl fun _ _ h => leads_semiJoinFlagRoundTrip h hsituated
  · exact keeps_plainQueryBuilder rfl fun _ _ h => leads_crossJoinFilterAsInner h hsituated
  · exact keeps_plainQueryBuilder rfl fun _ _ h => leads_distinctAsGroupByQuery h hsituated
  · exact keeps_plainQueryBuilder rfl fun _ _ h => leads_distinctUnionDuplicateQuery hsituated h

end Builders

end EqGen.Equivalence.ContractJoins
