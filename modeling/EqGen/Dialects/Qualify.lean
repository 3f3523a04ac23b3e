import EqGen.Equivalence.Emitted
import EqGen.Equivalence.Expansion

/-!
`QUALIFY` without `QUALIFY`: the condition as one more column of a subquery, and a filter on it
around the subquery, return what the clause itself does.
-/

namespace EqGen.Dialects.Qualify

open Classical
open EqGen.Core.Catalog
open EqGen.Core.Types
open EqGen.Dialects.Emitters
open EqGen.Equivalence.Ast
open EqGen.Equivalence.Emitter
open EqGen.Equivalence.Emitted
open EqGen.Equivalence.Expansion (sampleEngine)
open EqGen.Equivalence.Rows
open EqGen.Equivalence.Semantics
open EqGen.Ir.Expr hiding ExpressionNode

section Bags

variable {α β : Type} {s : Multiset α} {f : α → β}

/-- Duplicates that a map keeps apart can be removed before it or after it. -/
theorem dedup_map_of_injOn (h : ∀ x ∈ s, ∀ y ∈ s, f x = f y → x = y) :
    (s.map f).dedup = s.dedup.map f := by
  have hnodup : (s.dedup.map f).Nodup := by
    apply Multiset.Nodup.map_on _ (Multiset.nodup_dedup s)
    intro x hx y hy heq
    exact h x (Multiset.mem_dedup.mp hx) y (Multiset.mem_dedup.mp hy) heq
  rw [← Multiset.dedup_map_dedup_eq, hnodup.dedup]

theorem dedup_filter (p : α → Prop) : s.dedup.filter p = (s.filter p).dedup := by
  apply (Multiset.Nodup.ext ((Multiset.nodup_dedup s).filter p) (Multiset.nodup_dedup _)).mpr
  intro x
  simp only [Multiset.mem_filter, Multiset.mem_dedup]

end Bags

variable {V : Type} (engine : Engine V) (binder : Binder V) (occasion : Occasion)

section Bodies

variable {items : List ProjectionItem} {condition : ExpressionNode} {query : SelectQuery}
variable {rows : Bag V}

/-- The list of the subquery: the items and the condition. -/
def probed (items : List ProjectionItem) (condition : ExpressionNode) : List ListItem :=
  items.map .plain ++ [.probe condition]

def innerBody (items : List ProjectionItem) (condition : ExpressionNode) (query : SelectQuery) :
    Body :=
  { bodyOf (some (probed items condition)) query with qualify := none }

/-- The sights of a query before its `QUALIFY`. -/
noncomputable def sights (rows : Bag V) (query : SelectQuery) : List (Sight V) :=
  let units := engine.units occasion rows query
  units.zipIdx.map fun unit =>
    { unit.1 with window := engine.windowValue occasion units unit.1 unit.2 }

theorem qualified_eq (rows : Bag V) (query : SelectQuery) :
    engine.qualified occasion rows query =
      (sights engine occasion rows query).filter fun sight => engine.keeps sight query.qualify :=
  rfl

/-- Moving the condition into the list changes neither the groups nor the windows. -/
theorem sights_innerBody (hprojection : query.projection = some items)
    (hqualify : query.qualify = some condition) :
    sights engine occasion rows (queryOf (innerBody items condition query)) =
      sights engine occasion rows (queryOf (bodyOf (plainList query) query)) := by
  have haggregated : aggregated (queryOf (innerBody items condition query)) =
      aggregated (queryOf (bodyOf (plainList query) query)) := by
    simp [aggregated, queryOf, innerBody, bodyOf, probed, plainList, hprojection, hqualify,
      itemsAggregate, aggregatesArg, ListItem.expr, Function.comp_def]
  have hunits : engine.units occasion rows (queryOf (innerBody items condition query)) =
      engine.units occasion rows (queryOf (bodyOf (plainList query) query)) := by
    unfold Engine.units
    rw [haggregated]
    rfl
  unfold sights
  rw [hunits]

variable {outer : ProjectionItem → ListItem} {sight : Sight V}

theorem name_plain (item : ProjectionItem) : (ListItem.plain item).name = item.name := rfl

/-- The row of the subquery, under the names of the items. -/
theorem listRow_probed_item {item : ProjectionItem} {name : String}
    (hfind : items.find? (fun item => item.name = name) = some item) :
    listRow engine binder (probed items condition) sight name = engine.eval sight item.expr := by
  have hplain : (items.map ListItem.plain).find? (fun item => item.name = name) =
      some (.plain item) := by
    rw [List.find?_map]
    change (items.find? fun item => item.name = name).map ListItem.plain = _
    rw [hfind, Option.map_some]
  unfold listRow probed
  rw [List.find?_append, hplain]
  rfl

theorem listRow_probed_none {name : String}
    (hfind : items.find? (fun item => item.name = name) = none) :
    listRow engine binder (probed items condition) sight name =
      if name = probeName then engine.eval sight condition else .null := by
  have hplain : (items.map ListItem.plain).find? (fun item => item.name = name) = none := by
    rw [List.find?_map]
    change (items.find? fun item => item.name = name).map ListItem.plain = _
    rw [hfind, Option.map_none]
  unfold listRow probed
  rw [List.find?_append, hplain, Option.none_or]
  by_cases hname : name = probeName
  · simp [hname, ListItem.name, itemValue]
  · simp [hname, ListItem.name, Ne.symm hname]

theorem find_probeName (hprobe : probeName ∉ items.map ProjectionItem.name) :
    items.find? (fun item => item.name = probeName) = none := by
  rw [List.find?_eq_none]
  intro item hitem hname
  apply hprobe
  rw [← of_decide_eq_true hname]
  exact List.mem_map_of_mem hitem

/-- Of the sights, the outer list reads every item back, from under its name. -/
structure ReadsBack (seen : List (Sight V)) (items : List ProjectionItem)
    (outer : ProjectionItem → ListItem) : Prop where
  name : ∀ item, (outer item).name = item.name
  expr : ∀ item, (outer item).expr = .columnRef item.name item.dataType none
  value : ∀ item ∈ items, ∀ sight ∈ seen, ∀ other : Sight V,
    other.row item.name = engine.eval sight item.expr →
      itemValue engine binder other (outer item) = engine.eval sight item.expr

variable {seen : List (Sight V)}

/-- Over rows that have the items of a sight under their names, it reads the items of the sight. -/
theorem listRow_outer (houter : ReadsBack engine binder seen items outer) (hsight : sight ∈ seen)
    {row : Row V} (hrow : ∀ item, items.find? (fun other => other.name = item.name) = some item →
      row item.name = engine.eval sight item.expr) :
    listRow engine binder (items.map outer) (rowSight row) =
      listRow engine binder (items.map .plain) sight := by
  funext name
  rw [listRow_map engine binder houter.name, listRow_map engine binder name_plain]
  cases hfind : items.find? fun item => item.name = name with
  | none => rfl
  | some item =>
      have hname : item.name = name := by
        simpa using List.find?_some hfind
      apply houter.value item (List.mem_of_find?_eq_some hfind) sight hsight
      rw [row_rowSight]
      apply hrow
      rw [hname]
      exact hfind

theorem listRow_outer_probed (houter : ReadsBack engine binder seen items outer)
    (hsight : sight ∈ seen) :
    listRow engine binder (items.map outer)
        (rowSight (listRow engine binder (probed items condition) sight)) =
      listRow engine binder (items.map .plain) sight :=
  listRow_outer engine binder houter hsight fun _ hfind =>
    listRow_probed_item engine binder hfind

theorem listRow_outer_plain (houter : ReadsBack engine binder seen items outer)
    (hsight : sight ∈ seen) :
    listRow engine binder (items.map outer)
        (rowSight (listRow engine binder (items.map .plain) sight)) =
      listRow engine binder (items.map .plain) sight := by
  apply listRow_outer engine binder houter hsight
  intro item hfind
  rw [listRow_map engine binder name_plain, hfind]
  rfl

/-- The filter around the subquery. -/
def probeTrue : ExpressionNode :=
  .columnRef probeName booleanType none

theorem keeps_probeTrue (hprobe : probeName ∉ items.map ProjectionItem.name) :
    engine.keeps (rowSight (listRow engine binder (probed items condition) sight))
        (some probeTrue) ↔ engine.keeps sight (some condition) := by
  have hvalue := @listRow_probed_none _ engine binder items condition sight _
    (find_probeName hprobe)
  rw [if_pos rfl] at hvalue
  rw [keeps_some, keeps_some, ← hvalue]
  rfl

/-- Rows that pass the filter are told apart by their items. -/
theorem eq_of_listRow_plain {other : Sight V} (hsight : engine.keeps sight (some condition))
    (hother : engine.keeps other (some condition))
    (heq : listRow engine binder (items.map .plain) sight =
      listRow engine binder (items.map .plain) other) :
    listRow engine binder (probed items condition) sight =
      listRow engine binder (probed items condition) other := by
  funext name
  cases hfind : items.find? fun item => item.name = name with
  | some item =>
      have hvalue := congrFun heq name
      rw [listRow_map engine binder name_plain, listRow_map engine binder name_plain, hfind]
        at hvalue
      rw [listRow_probed_item engine binder hfind, listRow_probed_item engine binder hfind]
      exact hvalue
  | none =>
      rw [listRow_probed_none engine binder hfind, listRow_probed_none engine binder hfind]
      split
      · rw [keeps_some] at hsight hother
        have htrue : ∀ value : Value V, value.truth = some true → value = .bool true := by
          intro value h
          cases value <;> simp_all [Value.truth]
        rw [htrue _ hsight, htrue _ hother]
      · rfl

end Bodies

section Results

variable {items : List ProjectionItem} {condition : ExpressionNode} {query : SelectQuery}
variable {outer : ProjectionItem → ListItem} {engine binder}

/-- The body around the subquery. -/
def outerBody (items : List ProjectionItem) (outer : ProjectionItem → ListItem) : Body :=
  { list := some (items.map outer), predicate := some probeTrue }

variable {seen : List (Sight V)}

theorem rowwise_outer (houter : ReadsBack engine binder seen items outer) :
    rowwiseList (items.map outer) = true := by
  rw [rowwiseList, List.all_eq_true]
  intro item hitem
  obtain ⟨original, -, rfl⟩ := List.mem_map.mp hitem
  rw [houter.expr]
  rfl

/-- The sights that the clause keeps. -/
noncomputable abbrev keptSights (engine : Engine V) (occasion : Occasion) (rows : Bag V)
    (query : SelectQuery) : List (Sight V) :=
  engine.qualified occasion rows (queryOf (bodyOf (plainList query) query))

/-- The rows of the list, before duplicates are removed. -/
noncomputable def itemRows (engine : Engine V) (binder : Binder V) (occasion : Occasion)
    (rows : Bag V) (query : SelectQuery) (items : List ProjectionItem) : Bag V :=
  Multiset.ofList ((keptSights engine occasion rows query).map
    (listRow engine binder (items.map .plain)))

theorem bodyRows_native (hprojection : query.projection = some items) (occasion : Occasion)
    (rows : Bag V) :
    bodyRows engine binder occasion rows (bodyOf (plainList query) query) =
      if query.distinct then (itemRows engine binder occasion rows query items).dedup
      else itemRows engine binder occasion rows query items := by
  have hlist : outputRow engine binder (bodyOf (plainList query) query) =
      listRow engine binder (items.map .plain) := by
    funext sight
    simp only [outputRow, bodyOf, plainList, hprojection, Option.map_some]
  rw [bodyRows, hlist]
  rfl

/-- The rows of the lowered form are the rows of the native one. -/
theorem bodyRows_lowered (hprojection : query.projection = some items)
    (hqualify : query.qualify = some condition)
    (hprobe : probeName ∉ items.map ProjectionItem.name) (inner around : Occasion) (rows : Bag V)
    (houter : ReadsBack engine binder (keptSights engine inner rows query) items outer) :
    bodyRows engine binder around
        (bodyRows engine binder inner rows (innerBody items condition query))
        (outerBody items outer) =
      bodyRows engine binder inner rows (bodyOf (plainList query) query) := by
  set seen := sights engine inner rows (queryOf (bodyOf (plainList query) query)) with hseen
  set innerRow := listRow engine binder (probed items condition) with hinnerRow
  set outerRow : Row V → Row V := fun row =>
    listRow engine binder (items.map outer) (rowSight row) with houterRow
  set passes : Row V → Prop := fun row => engine.keeps (rowSight row) (some probeTrue)
    with hpasses
  set listed : Bag V := Multiset.ofList (seen.map innerRow) with hlisted
  have hkept : keptSights engine inner rows query =
      seen.filter fun sight => engine.keeps sight (some condition) := by
    have hcondition : (queryOf (bodyOf (plainList query) query)).qualify = some condition :=
      hqualify
    rw [keptSights, qualified_eq, hcondition]
  have hinner : bodyRows engine binder inner rows (innerBody items condition query) =
      if query.distinct then listed.dedup else listed := by
    have hall : engine.qualified inner rows (queryOf (innerBody items condition query)) = seen := by
      rw [qualified_eq, sights_innerBody engine inner hprojection hqualify]
      simp [queryOf, innerBody, hseen]
    rw [bodyRows, hall]
    rfl
  -- What passes the filter is what the clause keeps.
  have hpassed : listed.filter passes =
      Multiset.ofList ((keptSights engine inner rows query).map innerRow) := by
    rw [hlisted, Multiset.filter_coe, List.filter_map, hkept]
    have hfilter : seen.filter ((fun row => decide (passes row)) ∘ innerRow) =
        seen.filter fun sight => decide (engine.keeps sight (some condition)) := by
      apply List.filter_congr
      intro sight _
      simp only [Function.comp_apply, hpasses, hinnerRow, keeps_probeTrue engine binder hprobe]
    rw [hfilter]
  have hnative : (listed.filter passes).map outerRow =
      itemRows engine binder inner rows query items := by
    rw [hpassed, Multiset.map_coe, List.map_map]
    exact congrArg _ (List.map_congr_left fun sight hsight =>
      listRow_outer_probed engine binder houter hsight)
  have houterRows : ∀ bag : Bag V, bodyRows engine binder around bag (outerBody items outer) =
      (bag.filter passes).map outerRow := by
    intro bag
    exact bodyRows_rowwise engine binder rfl (rowwise_outer houter) rfl rfl rfl around bag
  rw [houterRows, hinner, bodyRows_native hprojection, ← hnative]
  split
  · rw [dedup_filter, dedup_map_of_injOn]
    intro row hrow other hother heq
    rw [hpassed, Multiset.mem_coe, List.mem_map] at hrow hother
    obtain ⟨sight, hsight, rfl⟩ := hrow
    obtain ⟨sight', hsight', rfl⟩ := hother
    simp only [houterRow, hinnerRow, listRow_outer_probed engine binder houter hsight,
      listRow_outer_probed engine binder houter hsight'] at heq
    rw [hkept, List.mem_filter, decide_eq_true_eq] at hsight hsight'
    exact eq_of_listRow_plain engine binder hsight.2 hsight'.2 heq
  · rfl

/-- Reading the items back once more changes nothing. -/
theorem bodyRows_readBack (hprojection : query.projection = some items) (inner around : Occasion)
    (rows : Bag V)
    (houter : ReadsBack engine binder (keptSights engine inner rows query) items outer) :
    bodyRows engine binder around
        (bodyRows engine binder inner rows (bodyOf (plainList query) query))
        { list := some (items.map outer) } =
      bodyRows engine binder inner rows (bodyOf (plainList query) query) := by
  have hrow : ∀ row ∈ itemRows engine binder inner rows query items,
      listRow engine binder (items.map outer) (rowSight row) = row := by
    intro row hrow
    rw [itemRows, Multiset.mem_coe, List.mem_map] at hrow
    obtain ⟨sight, hsight, rfl⟩ := hrow
    exact listRow_outer_plain engine binder houter hsight
  rw [bodyRows_rowwise engine binder rfl (rowwise_outer houter) rfl rfl rfl around,
    bodyRows_native hprojection]
  simp only [keeps_none, Multiset.filter_true]
  conv_rhs => rw [← Multiset.map_id (if query.distinct then _ else _)]
  apply Multiset.map_congr rfl
  intro row hmem
  apply hrow
  split at hmem
  · exact Multiset.mem_dedup.mp hmem
  · exact hmem

/-- The subquery and the native form mention the same columns. -/
theorem resolves_innerBody (mentions : String → List String)
    (hprojection : query.projection = some items) (hqualify : query.qualify = some condition)
    (columns : List String) :
    Resolves columns (mentionedIn mentions (innerBody items condition query)) ↔
      Resolves columns (mentionedIn mentions (bodyOf (plainList query) query)) := by
  have hmem : ∀ name, name ∈ mentionedIn mentions (innerBody items condition query) ↔
      name ∈ mentionedIn mentions (bodyOf (plainList query) query) := by
    intro name
    simp only [mentionedIn, innerBody, bodyOf, probed, plainList, hprojection, hqualify,
      Option.map_some, Option.getD_some, mentionedBy, List.flatMap_append, List.flatMap_cons,
      List.flatMap_nil, List.append_nil, columnsOfArg, ListItem.expr, List.mem_append]
    tauto
  exact forall_congr' fun name => imp_congr (hmem name) Iff.rfl

theorem mentionedBy_outer (mentions : String → List String)
    (houter : ReadsBack engine binder seen items outer) :
    mentionedBy mentions (items.map outer) = items.map ProjectionItem.name := by
  rw [mentionedBy, List.flatMap_map, List.map_eq_flatMap]
  simp only [houter.expr, columnsOf]

/-- The outer list and its filter read columns of the subquery, each of which it has once. -/
theorem resolves_outerBody (mentions : String → List String)
    (houter : ReadsBack engine binder seen items outer)
    (hnodup : (items.map ProjectionItem.name).Nodup)
    (hprobe : probeName ∉ items.map ProjectionItem.name) (columns : List String) :
    Resolves (outputColumns (innerBody items condition query) columns)
      (mentionedIn mentions (outerBody items outer)) := by
  have hcolumns : outputColumns (innerBody items condition query) columns =
      items.map ProjectionItem.name ++ [probeName] := by
    simp [outputColumns, innerBody, bodyOf, probed, ListItem.name, Function.comp_def]
  have hmentioned : mentionedIn mentions (outerBody items outer) =
      items.map ProjectionItem.name ++ [probeName] := by
    simp [mentionedIn, outerBody, mentionedBy_outer mentions houter, columnsOf, columnsOfArg, columnsOfAll, probeTrue]
  rw [hcolumns, hmentioned]
  have hall : (items.map ProjectionItem.name ++ [probeName]).Nodup := by
    rw [List.nodup_append]
    refine ⟨hnodup, List.nodup_singleton _, ?_⟩
    intro name hname other hother heq
    exact hprobe (by rw [← List.mem_singleton.mp hother, ← heq]; exact hname)
  intro name hname
  exact List.count_eq_one_of_mem hall hname

/-- A list with the name of the condition in it makes the filter around it ambiguous. -/
theorem result_captured (hprobe : probeName ∈ items.map ProjectionItem.name) (refSql : String)
    (occasion : Nat → Occasion) (source : Result V) :
    result engine binder occasion source
        (lowerQualify (items.map outer) items condition query refSql) = none := by
  change result engine binder occasion source
    (.nested (outerBody items outer) (.over (innerBody items condition query) refSql) none
      "eq_qsrc") = none
  have hcolumns : outputColumns (innerBody items condition query) source.columns =
      items.map ProjectionItem.name ++ [probeName] := by
    simp [outputColumns, innerBody, bodyOf, probed, ListItem.name, Function.comp_def]
  have hambiguous : ¬Resolves (items.map ProjectionItem.name ++ [probeName])
      (mentionedIn binder.mentions (outerBody items outer)) := by
    intro hresolves
    have hmem : probeName ∈ mentionedIn binder.mentions (outerBody items outer) := by
      simp [mentionedIn, outerBody, probeTrue, columnsOfArg, columnsOf]
    have hcount := hresolves probeName hmem
    rw [List.count_append, List.count_singleton_self] at hcount
    have hpos := List.count_pos_iff.mpr hprobe
    omega
  by_cases hinner : Resolves source.columns
      (mentionedIn binder.mentions (innerBody items condition query))
  · simp only [result, bodyResult, if_pos hinner, reduceCtorEq, false_implies, implies_true,
      if_true, hcolumns, if_neg hambiguous]
  · simp only [result, bodyResult, if_neg hinner]

theorem outputColumns_outer (houter : ReadsBack engine binder seen items outer)
    (hprojection : query.projection = some items) (columns columns' : List String) (body : Body)
    (hbody : body.list = some (items.map outer)) :
    outputColumns body columns = outputColumns (bodyOf (plainList query) query) columns' := by
  simp [outputColumns, hbody, bodyOf, plainList, hprojection, Function.comp_def, houter.name,
    name_plain]

theorem result_lowered (hprojection : query.projection = some items)
    (hqualify : query.qualify = some condition)
    (hnodup : (items.map ProjectionItem.name).Nodup)
    (hprobe : probeName ∉ items.map ProjectionItem.name) (refSql : String)
    (occasion : Nat → Occasion) (source : Result V)
    (houter : ReadsBack engine binder (keptSights engine (occasion 0) source.rows query) items
      outer) :
    result engine binder occasion source
        (lowerQualify (items.map outer) items condition query refSql) =
      result engine binder occasion source (.over (bodyOf (plainList query) query) refSql) := by
  change result engine binder occasion source
    (.nested (outerBody items outer) (.over (innerBody items condition query) refSql) none
      "eq_qsrc") = _
  by_cases hnames : Resolves source.columns
      (mentionedIn binder.mentions (bodyOf (plainList query) query))
  · have hinner := (resolves_innerBody binder.mentions hprojection hqualify source.columns).mpr
      hnames
    simp only [result, bodyResult, if_pos hnames, if_pos hinner, reduceCtorEq, false_implies,
      implies_true, if_true, if_pos (resolves_outerBody binder.mentions houter hnodup hprobe
        source.columns), bodyRows_lowered hprojection hqualify hprobe _ _ _ houter,
      outputColumns_outer houter hprojection _ source.columns (outerBody items outer) rfl]
  · have hinner : ¬Resolves source.columns
        (mentionedIn binder.mentions (innerBody items condition query)) := fun h =>
      hnames ((resolves_innerBody binder.mentions hprojection hqualify source.columns).mp h)
    simp only [result, bodyResult, if_neg hnames, if_neg hinner]

/-- Where the engine sorts by the keys, the list around the sorted rows leaves them as they are. -/
theorem result_lowered_sorted (hprojection : query.projection = some items)
    (hqualify : query.qualify = some condition)
    (hnodup : (items.map ProjectionItem.name).Nodup)
    (hprobe : probeName ∉ items.map ProjectionItem.name) (refSql : String)
    (keys : List ExpressionNode) (occasion : Nat → Occasion) (source : Result V)
    (houter : ReadsBack engine binder (keptSights engine (occasion 0) source.rows query) items
      outer)
    (hsorts : binder.sorts (lowerQualify (items.map outer) items condition query refSql) keys) :
    result engine binder occasion source (.nested { list := some (items.map outer) }
        (lowerQualify (items.map outer) items condition query refSql) (some keys) "eq_ord") =
      result engine binder occasion source (.over (bodyOf (plainList query) query) refSql) := by
  have hbody := result_lowered hprojection hqualify hnodup hprobe refSql occasion source houter
  have hkeys : ∀ other, some keys = some other → binder.sorts
      (lowerQualify (items.map outer) items condition query refSql) other := fun other hother =>
    Option.some.inj hother ▸ hsorts
  by_cases hnames : Resolves source.columns
      (mentionedIn binder.mentions (bodyOf (plainList query) query))
  · have hcolumns : outputColumns (bodyOf (plainList query) query) source.columns =
        items.map ProjectionItem.name := by
      simp [outputColumns, bodyOf, plainList, hprojection, Function.comp_def, name_plain]
    have hresolves : Resolves (items.map ProjectionItem.name)
        (mentionedIn binder.mentions { list := some (items.map outer) }) := by
      intro name hname
      simp only [mentionedIn, Option.getD_some, mentionedBy_outer binder.mentions houter,
        columnsOfArg, columnsOfAll, Option.getD_none, List.append_nil] at hname
      exact List.count_eq_one_of_mem hnodup hname
    rw [result_over occasion hnames] at hbody ⊢
    simp only [result, hbody, if_pos hkeys, bodyResult, hcolumns, if_pos hresolves,
      bodyRows_readBack hprojection _ _ _ houter]
    rw [outputColumns_outer houter hprojection _ source.columns { list := some (items.map outer) }
      rfl, hcolumns]
  · rw [result_over_refused occasion hnames] at hbody ⊢
    simp only [result, hbody]

end Results

/-- The renderers that lower a `QUALIFY`. -/
inductive Renderer where
  | postgres | mySql | clickHouse | crate | sqlite
  deriving DecidableEq, Repr

def Renderer.visitSelectQuery (renderer : Renderer) (source : Signature) :
    SelectQuery → String → Except String Rendered :=
  match renderer with
  | .postgres => Postgres.visitSelectQuery
  | .mySql => MySql.visitSelectQuery
  | .clickHouse => ClickHouse.visitSelectQuery
  | .crate => Crate.visitSelectQuery
  | .sqlite => Sqlite.visitSelectQuery source

/--
Where the outer list casts, the values that the items have over these rows, where the clause
keeps them, are already of their types.
-/
def Renderer.CastsOwnType (renderer : Renderer) (engine : Engine V) (binder : Binder V)
    (occasion : Occasion) (rows : Bag V) (query : SelectQuery) (items : List ProjectionItem) :
    Prop :=
  renderer = .sqlite → ∀ item ∈ items, ∀ sight ∈ engine.qualified occasion rows query,
    binder.castTo item.dataType (engine.eval sight item.expr) = engine.eval sight item.expr

/-- The engine sorts by the keys that the statement has around its subquery. -/
def TakesKeys (binder : Binder V) : Rendered → Prop
  | .nested _ body (some keys) _ => binder.sorts body keys
  | _ => True

variable {engine binder}

theorem readsBack_plain {seen : List (Sight V)} (items : List ProjectionItem) :
    ReadsBack engine binder seen items fun item => .plain (aliasItem item) where
  name := fun _ => rfl
  expr := fun _ => rfl
  value := fun _ _ _ _ _ h => h

theorem readsBack_cast {seen : List (Sight V)} {items : List ProjectionItem}
    (hcasts : ∀ item ∈ items, ∀ sight ∈ seen,
      binder.castTo item.dataType (engine.eval sight item.expr) = engine.eval sight item.expr) :
    ReadsBack engine binder seen items fun item => .cast (aliasItem item) where
  name := fun _ => rfl
  expr := fun _ => rfl
  value := by
    intro item hitem sight hsight other h
    change binder.castTo item.dataType (other.row item.name) = _
    rw [h]
    exact hcasts item hitem sight hsight

/-- The list is written out as it is. -/
theorem keptSights_eq {query : SelectQuery} {items : List ProjectionItem}
    (hprojection : query.projection = some items) (occasion : Occasion) (rows : Bag V) :
    keptSights engine occasion rows query = engine.qualified occasion rows query := by
  have haggregated : aggregated (queryOf (bodyOf (plainList query) query)) = aggregated query := by
    simp [aggregated, queryOf, bodyOf, plainList, hprojection, itemsAggregate, ListItem.expr,
      Function.comp_def]
  have hunits : engine.units occasion rows (queryOf (bodyOf (plainList query) query)) =
      engine.units occasion rows query := by
    unfold Engine.units
    rw [haggregated]
    rfl
  rw [keptSights, qualified_eq, qualified_eq, sights, sights, hunits]
  rfl

/--
Every renderer that lowers a `QUALIFY` writes a statement that returns what the clause itself
does, unless an item has the name the lowering gives the condition. A sort around it, where the
engine takes its keys, changes nothing.
-/
theorem qualify_lowered (renderer : Renderer) (signature : Signature) {query : SelectQuery}
    {items : List ProjectionItem} {condition : ExpressionNode}
    (hprojection : query.projection = some items) (hqualify : query.qualify = some condition)
    (hnodup : (items.map ProjectionItem.name).Nodup)
    (hprobe : probeName ∉ items.map ProjectionItem.name) (refSql : String) :
    ∃ rendered, renderer.visitSelectQuery signature query refSql = .ok rendered ∧
      ∀ occasion source,
        renderer.CastsOwnType engine binder (occasion 0) source.rows query items →
        TakesKeys binder rendered →
        result engine binder occasion source rendered =
          result engine binder occasion source
            (QueryRenderer.visitSelectQuery { query with orderBy := none } refSql) := by
  have hvisit : ∀ dialect outer visit, visitQualified dialect outer visit query refSql =
      .ok (lowered (items.map outer) items condition query refSql) := by
    intro dialect outer visit
    simp only [visitQualified, hqualify, hprojection]
    rfl
  have hlowered : ∀ {outer : ProjectionItem → ListItem} {occasion : Nat → Occasion}
      {source : Result V},
      ReadsBack engine binder (keptSights engine (occasion 0) source.rows query) items outer →
      TakesKeys binder (lowered (items.map outer) items condition query refSql) →
      result engine binder occasion source
          (lowered (items.map outer) items condition query refSql) =
        result engine binder occasion source (.over (bodyOf (plainList query) query) refSql) := by
    intro outer occasion source houter hsorts
    unfold lowered at hsorts ⊢
    cases horder : query.orderBy with
    | none => exact result_lowered hprojection hqualify hnodup hprobe refSql occasion source houter
    | some keys =>
        rw [horder] at hsorts
        exact result_lowered_sorted hprojection hqualify hnodup hprobe refSql keys occasion source
          houter hsorts
  have hplain (dialect : String) :
      ∃ rendered, visitQualified dialect (fun item => .plain (aliasItem item))
          QueryRenderer.visitSelectQuery query refSql = .ok rendered ∧
        ∀ occasion (source : Result V),
          TakesKeys binder rendered →
          result engine binder occasion source rendered =
            result engine binder occasion source (.over (bodyOf (plainList query) query) refSql) :=
    ⟨_, hvisit _ _ _, fun _ _ hsorts => hlowered (readsBack_plain items) hsorts⟩
  cases renderer with
  | postgres => exact (hplain "PostgreSQL").imp fun _ h => ⟨h.1, fun _ _ _ hs => h.2 _ _ hs⟩
  | mySql => exact (hplain "MySQL").imp fun _ h => ⟨h.1, fun _ _ _ hs => h.2 _ _ hs⟩
  | clickHouse => exact (hplain "ClickHouse").imp fun _ h => ⟨h.1, fun _ _ _ hs => h.2 _ _ hs⟩
  | crate => exact (hplain "CrateDB").imp fun _ h => ⟨h.1, fun _ _ _ hs => h.2 _ _ hs⟩
  | sqlite =>
      refine ⟨_, hvisit _ _ _, fun occasion source hcasts hsorts => ?_⟩
      have hcasts := hcasts rfl
      rw [← keptSights_eq hprojection] at hcasts
      exact hlowered (readsBack_cast hcasts) hsorts

section Sample

def integer : SqlType := ⟨.integer, none, none⟩

/-- `SELECT DISTINCT a FROM t QUALIFY ROW_NUMBER() OVER () = 1`, under some name for `a`. -/
def firstRow (name : String) : SelectQuery where
  projection := some [⟨name, .columnRef "a" integer none, integer⟩]
  distinct := true
  qualify := some (.comparison .eq (.windowCall .rowNumber none [] [] none integer) (.intLiteral 1))

/-- SQLite's casts, as far as they go to integers: a text without a number in it becomes 0. -/
def affinity : Binder Unit :=
  { lenient Unit with
    castTo := fun type value =>
      match type.kind, value with
      | .integer, .other () => .int 0
      | _, value => value }

theorem row_mem_of_qualified {query : SelectQuery} (hgroup : query.groupBy = none)
    (hplain : aggregated query = false) {engine : Engine V} {occasion : Occasion} {rows : Bag V}
    {sight : Sight V} (h : sight ∈ engine.qualified occasion rows query) : sight.row ∈ rows := by
  rw [qualified_ungrouped engine occasion rows hgroup hplain, List.mem_filter, List.mem_map] at h
  obtain ⟨⟨entry, hentry, rfl⟩, -⟩ := h
  have hkept : entry.1 ∈ (kept engine occasion rows query : Bag V) := by
    rw [Multiset.mem_coe]
    exact List.fst_mem_of_mem_zipIdx hentry
  rw [coe_kept, Multiset.mem_filter] at hkept
  exact hkept.1

theorem firstRow_lowered :
    let query := { firstRow "a" with orderBy := some [.columnRef "a" integer none] }
    let source : Result Unit := ⟨["a"], {fun _ => .int 1, fun _ => .int 1, fun _ => .null}⟩
    ∃ rendered, Renderer.sqlite.visitSelectQuery [⟨"a", integer⟩] query "t" = .ok rendered ∧
      ∀ occasion, result sampleEngine affinity occasion source rendered =
        result sampleEngine affinity occasion source
          (QueryRenderer.visitSelectQuery (firstRow "a") "t") := by
  intro query source
  obtain ⟨rendered, hvisit, hsame⟩ := @qualify_lowered _ sampleEngine affinity .sqlite
    [⟨"a", integer⟩] query _ _ rfl rfl (by simp) (by simp [probeName]) "t"
  refine ⟨rendered, hvisit, fun occasion => hsame occasion source (fun _ => ?_) ?_⟩
  · intro item hitem sight hsight
    rw [List.mem_singleton.mp hitem]
    have hrow := row_mem_of_qualified rfl rfl hsight
    have hvalue : sight.row "a" = .int 1 ∨ sight.row "a" = .null := by
      simp only [source, Multiset.insert_eq_cons, Multiset.mem_cons, Multiset.mem_singleton] at hrow
      rcases hrow with h | h | h <;> simp [h]
    change affinity.castTo integer (sight.row "a") = sight.row "a"
    rcases hvalue with h | h <;> rw [h] <;> rfl
  · -- The sample engine sorts by any keys.
    rcases rendered with _ | ⟨outer, body, orderBy, subquery⟩
    · trivial
    · cases orderBy <;> trivial

def itemA : ProjectionItem := ⟨"a", .columnRef "a" integer none, integer⟩

/-- `SELECT a FROM t QUALIFY TRUE` -/
def everyRow : SelectQuery where
  projection := some [itemA]
  qualify := some (.booleanLiteral true)

def textRow : Row Unit := fun _ => .other ()

/-- The lowered form returns the text as the outer list reads it. -/
theorem result_lowered_text {outer : ProjectionItem → ListItem}
    (houter : ReadsBack sampleEngine affinity [] [itemA] outer) (occasion : Nat → Occasion) :
    result sampleEngine affinity occasion ⟨["a"], {textRow}⟩
        (lowerQualify ([itemA].map outer) [itemA] (.booleanLiteral true) everyRow "t") =
      some ⟨["a"], {listRow sampleEngine affinity ([itemA].map outer)
        (rowSight (listRow sampleEngine affinity (probed [itemA] (.booleanLiteral true))
          (rowSight textRow)))}⟩ := by
  change result sampleEngine affinity occasion ⟨["a"], {textRow}⟩ (.nested (outerBody [itemA] outer)
    (.over (innerBody [itemA] (.booleanLiteral true) everyRow) "t") none "eq_qsrc") = _
  have hprobe : probeName ∉ [itemA].map ProjectionItem.name := by simp [probeName, itemA]
  have hinner : Resolves ["a"] (mentionedIn affinity.mentions
      (innerBody [itemA] (.booleanLiteral true) everyRow)) := by
    intro name hname
    have hname : name ∈ ["a"] := hname
    rw [List.mem_singleton.mp hname]
    rfl
  have hnames : Resolves
      (outputColumns (innerBody [itemA] (.booleanLiteral true) everyRow) ["a"])
      (mentionedIn affinity.mentions (outerBody [itemA] outer)) :=
    resolves_outerBody affinity.mentions houter (List.nodup_singleton _) hprobe ["a"]
  have hcolumns : outputColumns (outerBody [itemA] outer)
      (outputColumns (innerBody [itemA] (.booleanLiteral true) everyRow) ["a"]) = ["a"] := by
    simp [outputColumns, outerBody, houter.name, itemA]
  -- The row passes both filters, and both lists are read row by row.
  have hrows : bodyRows sampleEngine affinity (occasion 0) {textRow}
      (innerBody [itemA] (.booleanLiteral true) everyRow) =
        {listRow sampleEngine affinity (probed [itemA] (.booleanLiteral true))
          (rowSight textRow)} := by
    rw [bodyRows_rowwise sampleEngine affinity rfl rfl rfl rfl rfl]
    have hall : ({textRow} : Bag Unit).filter (fun row => sampleEngine.keeps (rowSight row)
        (innerBody [itemA] (.booleanLiteral true) everyRow).predicate) = {textRow} :=
      Multiset.filter_eq_self.mpr fun row _ => keeps_none sampleEngine (rowSight row)
    rw [hall, Multiset.map_singleton]
  have hpasses := (@keeps_probeTrue Unit sampleEngine affinity [itemA] (.booleanLiteral true)
    (rowSight textRow) hprobe).mpr ((keeps_some sampleEngine (rowSight textRow) _).mpr rfl)
  simp only [result, bodyResult, if_pos hinner, hrows, reduceCtorEq, false_implies, implies_true,
    if_true, if_pos hnames, hcolumns]
  rw [bodyRows_rowwise sampleEngine affinity rfl (rowwise_outer houter) rfl rfl rfl]
  have hall : ({listRow sampleEngine affinity (probed [itemA] (.booleanLiteral true))
      (rowSight textRow)} : Bag Unit).filter (fun row => sampleEngine.keeps (rowSight row)
        (some probeTrue)) = {listRow sampleEngine affinity (probed [itemA] (.booleanLiteral true))
      (rowSight textRow)} :=
    Multiset.filter_eq_self.mpr fun row hrow => Multiset.mem_singleton.mp hrow ▸ hpasses
  change some (Result.mk ["a"] (Multiset.map _ (Multiset.filter (fun row =>
    sampleEngine.keeps (rowSight row) (some probeTrue)) _))) = _
  rw [hall, Multiset.map_singleton]

/-- The cast around the subquery turns a text that an integer column holds into a number. -/
theorem cast_changes_text :
    ¬∃ rendered, Renderer.sqlite.visitSelectQuery [⟨"a", integer⟩] everyRow "t" = .ok rendered ∧
      ∀ occasion source, result sampleEngine affinity occasion source rendered =
        result sampleEngine affinity occasion source
          (QueryRenderer.visitSelectQuery everyRow "t") := by
  rintro ⟨rendered, hvisit, hsame⟩
  obtain rfl := (Except.ok.inj hvisit).symm
  have hprobe : probeName ∉ [itemA].map ProjectionItem.name := by simp [probeName, itemA]
  have hnodup : ([itemA].map ProjectionItem.name).Nodup := List.nodup_singleton _
  have hnative : result sampleEngine affinity (fun _ => .read 0) ⟨["a"], {textRow}⟩
      (lowerQualify ([itemA].map fun item => .plain (aliasItem item)) [itemA]
        (.booleanLiteral true) everyRow "t") =
      result sampleEngine affinity (fun _ => .read 0) ⟨["a"], {textRow}⟩
        (QueryRenderer.visitSelectQuery everyRow "t") :=
    result_lowered rfl rfl hnodup hprobe "t" _ _ (readsBack_plain [itemA])
  have hcast : ReadsBack sampleEngine affinity [] [itemA] fun item => .cast (aliasItem item) :=
    readsBack_cast fun _ _ _ h => absurd h List.not_mem_nil
  have hresult := (hsame (fun _ => .read 0) ⟨["a"], {textRow}⟩).trans hnative.symm
  change result _ _ _ _ (lowerQualify ([itemA].map fun item => .cast (aliasItem item)) [itemA]
    (.booleanLiteral true) everyRow "t") = _ at hresult
  rw [result_lowered_text hcast, result_lowered_text (readsBack_plain [itemA]), Option.some.injEq,
    Result.mk.injEq, Multiset.singleton_inj] at hresult
  cases congrFun hresult.2 "a"

/-- Under the name of the condition, the column around the subquery is ambiguous. -/
theorem probe_captures_alias :
    ¬∃ rendered, Renderer.postgres.visitSelectQuery [⟨"a", integer⟩] (firstRow probeName) "t" =
        .ok rendered ∧
      ∀ occasion relation, result sampleEngine (lenient Unit) occasion relation rendered =
        result sampleEngine (lenient Unit) occasion relation
          (QueryRenderer.visitSelectQuery (firstRow probeName) "t") := by
  rintro ⟨rendered, hvisit, hsame⟩
  have hrendered := (Except.ok.inj hvisit).symm
  have hresult := hsame (fun _ => .read 0) ⟨["a"], 0⟩
  have hcaptured := @result_captured _ sampleEngine (lenient Unit)
    [⟨probeName, .columnRef "a" integer none, integer⟩]
    (.comparison .eq (.windowCall .rowNumber none [] [] none integer) (.intLiteral 1))
    (firstRow probeName) (fun item => .plain (aliasItem item)) (by simp) "t" (fun _ => .read 0) ⟨["a"], 0⟩
  have hresolves : Resolves ["a"] (mentionedIn (lenient Unit).mentions
      (bodyOf (plainList (firstRow probeName)) (firstRow probeName))) := by
    intro name hname
    have hmem : name ∈ ["a"] := hname
    rw [List.mem_singleton.mp hmem]
    rfl
  have hnative := @result_over _ sampleEngine (lenient Unit) _ "t" ⟨["a"], 0⟩
    (fun _ => .read 0) hresolves
  rw [hrendered] at hresult
  exact absurd (hcaptured.symm.trans (hresult.trans hnative)) (by simp)

end Sample

end EqGen.Dialects.Qualify
