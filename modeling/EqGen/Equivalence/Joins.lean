import EqGen.Dialects.Emitters
import EqGen.Equivalence.Builders.Joins
import EqGen.Equivalence.Expansion

/-!
Joins on a materialised key: both sides hold the same keys, so every row finds exactly one
partner, and a `FULL OUTER JOIN` pads nothing that a `LEFT OUTER JOIN` would not.
-/

namespace EqGen.Equivalence.Joins

open Classical
open EqGen.Core.Catalog
open EqGen.Core.Types
open EqGen.Dialects.Emitters
open EqGen.Equivalence.Ast
open EqGen.Equivalence.Builders.Base
open EqGen.Equivalence.Builders.Joins
open EqGen.Builder.Context
open EqGen.Equivalence.Context
open EqGen.Equivalence.Copies
open EqGen.Equivalence.Denotations
open EqGen.Equivalence.Expansion
open EqGen.Equivalence.Names
open EqGen.Equivalence.Rows
open EqGen.Equivalence.Semantics
open EqGen.Lib.Backtrack
open EqGen.Lib.Backtrack.Attempt

variable {V : Type} (engine : Engine V)

section Matching

variable {join : JoinQuery} {left right : Bag V} {key : String}

/-- No right row is left over, and every left row has exactly one partner. -/
structure OneToOne (join : JoinQuery) (left right : Bag V) : Prop where
  matched : ∀ r ∈ right, ∃ l ∈ left, engine.joins join l r
  unique : ∀ l ∈ left, (right.filter fun r => engine.joins join l r).card = 1

theorem OneToOne.join_lowered (h : OneToOne engine join left right) :
    engine.join (lowerFullOuter join) left right = engine.join join left right := by
  unfold lowerFullOuter
  split
  · next hfull =>
      have hlonely : (right.filter fun r => ∀ l ∈ left, ¬engine.joins join l r) = 0 := by
        rw [Multiset.filter_eq_nil]
        intro r hr hall
        obtain ⟨l, hl, hjoins⟩ := h.matched r hr
        exact hall l hl hjoins
      have hpairs : engine.joinPairs { join with joinType := .leftOuter } left right =
          engine.joinPairs join left right := by
        simp only [Engine.joinPairs, hfull]
        rw [hlonely, Multiset.map_zero, add_zero]
        rfl
      rw [Engine.join, Engine.join, hpairs]
      rfl
  · rfl

/-- Both sides hold the same keys, each of them once. -/
structure SameKeys (key : String) (left right : Bag V) : Prop where
  same : left.map (fun row => row key) = right.map fun row => row key
  nodup : (left.map fun row => row key).Nodup
  numbers : ∀ row ∈ left, ∃ n, row key = .int n

theorem joins_keysAgree (hcondition : join.condition = some (keysAgree key))
    (hleft : join.leftAlias = leftAlias) (hright : join.rightAlias = rightAlias) {l r : Row V}
    {m n : Int} (hl : l key = .int m) (hr : r key = .int n) :
    engine.joins join l r ↔ l key = r key := by
  have halias : ¬some rightAlias = some leftAlias := by
    decide
  rw [Engine.joins, hcondition, keeps_some]
  simp only [keysAgree, eq, qualifiedCol, Engine.eval, joinSight, hleft, hright, if_pos, halias,
    if_false, hl, hr, Engine.compareValues, Value.truth_ofTruth, Option.some.injEq,
    decide_eq_true_eq, Value.int.injEq]

theorem SameKeys.symm (h : SameKeys key left right) : SameKeys key right left where
  same := h.same.symm
  nodup := h.same ▸ h.nodup
  numbers := by
    intro r hr
    have hkey : r key ∈ left.map fun row => row key := by
      rw [h.same]
      exact Multiset.mem_map_of_mem _ hr
    obtain ⟨l, hl, heq⟩ := Multiset.mem_map.mp hkey
    obtain ⟨n, hn⟩ := h.numbers l hl
    exact ⟨n, heq ▸ hn⟩

theorem SameKeys.oneToOne (h : SameKeys key left right)
    (hcondition : join.condition = some (keysAgree key))
    (hleft : join.leftAlias = leftAlias) (hright : join.rightAlias = rightAlias) :
    OneToOne engine join left right := by
  have hjoins : ∀ l ∈ left, ∀ r ∈ right, engine.joins join l r ↔ l key = r key := by
    intro l hl r hr
    obtain ⟨m, hm⟩ := h.numbers l hl
    obtain ⟨n, hn⟩ := h.symm.numbers r hr
    exact joins_keysAgree engine hcondition hleft hright hm hn
  constructor
  · intro r hr
    have hkey : r key ∈ left.map fun row => row key := by
      rw [h.same]
      exact Multiset.mem_map_of_mem _ hr
    obtain ⟨l, hl, heq⟩ := Multiset.mem_map.mp hkey
    exact ⟨l, hl, (hjoins l hl r hr).mpr heq⟩
  · intro l hl
    have hkey : l key ∈ right.map fun row => row key := by
      rw [← h.same]
      exact Multiset.mem_map_of_mem _ hl
    have hcount := Multiset.count_eq_one_of_mem h.symm.nodup hkey
    rw [Multiset.count_map] at hcount
    rw [Multiset.filter_congr fun r hr => hjoins l hl r hr]
    convert hcount

end Matching

section Nodes

/-- A join node, with the two relations it reads. -/
structure JoinNode where
  id : Nat
  join : JoinQuery
  left : EqNode
  right : EqNode

def JoinNode.node (built : JoinNode) : EqNode :=
  .mk built.id (.query (queryOver (.join built.join) [built.left, built.right]))
    [built.left, built.right]

def JoinNode.lowered (built : JoinNode) : JoinNode :=
  { built with join := lowerFullOuter built.join }

variable (scope : Scope V)

/--
Every row of either side has exactly one partner, whenever the join is read, and the join that
is written for it returns the same rows.
-/
def LowersSoundly (node : EqNode) : Prop :=
  ∃ built : JoinNode, node = built.node ∧ ∀ occasion,
    OneToOne engine built.join (engine.rows scope built.left (.source 0 occasion))
        (engine.rows scope built.right (.source 1 occasion)) ∧
      engine.rows scope built.lowered.node occasion = engine.rows scope built.node occasion

/-- Two relations with different names that hold the same keys whenever they are read. -/
def JoinSides (key : String) (left right : EqNode) : Prop :=
  refSql left ≠ refSql right ∧ ∃ leftRelation rightRelation,
    Denotes engine scope left leftRelation ∧ Denotes engine scope right rightRelation ∧
      ∀ occasion, SameKeys key (leftRelation.rows (.source 0 occasion))
        (rightRelation.rows (.source 1 occasion))

variable {engine scope} {left right : EqNode}
variable {key : String} {s : GenerationState} {Q : EqNode → GenerationState → Prop}
variable {N : GenerationState → Prop} {E : GenerationError → GenerationState → Prop}

theorem spec_joinQuery (hsides : JoinSides engine scope key left right) {joinType : JoinType}
    {projection : List ProjectionItem} {predicate : Option ExpressionNode}
    (hQ : ∀ node s', LowersSoundly engine scope node → Q node s') :
    Spec (joinQuery left right (some (keysAgree key)) joinType projection predicate) s Q N E := by
  obtain ⟨hne, leftRelation, rightRelation, hleft, hright, hkeys⟩ := hsides
  apply spec_newNode
  intro i s' _ _
  apply hQ
  set join : JoinQuery :=
    ⟨some (keysAgree key), joinType, projection, leftAlias, rightAlias, predicate⟩ with hjoin
  refine ⟨⟨i, join, left, right⟩, rfl, ?_⟩
  intro occasion
  have hone := @SameKeys.oneToOne _ engine join _ _ key (hkeys occasion) rfl rfl rfl
  have hleftRows : engine.rows scope left (.source 0 occasion) =
      leftRelation.rows (.source 0 occasion) := by
    rw [Engine.rows, hleft]
  have hrightRows : engine.rows scope right (.source 1 occasion) =
      rightRelation.rows (.source 1 occasion) := by
    rw [Engine.rows, hright]
  refine ⟨by rw [hleftRows, hrightRows]; exact hone, ?_⟩
  have hrows : ∀ join, engine.rows scope (JoinNode.node ⟨i, join, left, right⟩) occasion =
      engine.join join (leftRelation.rows (.source 0 occasion))
        (rightRelation.rows (.source 1 occasion)) := by
    intro join
    rw [Engine.rows, JoinNode.node, relation_join engine scope hleft hright hne]
  calc engine.rows scope (JoinNode.node ⟨i, lowerFullOuter join, left, right⟩) occasion
      = engine.join (lowerFullOuter join) (leftRelation.rows (.source 0 occasion))
          (rightRelation.rows (.source 1 occasion)) := hrows _
    _ = engine.join join (leftRelation.rows (.source 0 occasion))
          (rightRelation.rows (.source 1 occasion)) := hone.join_lowered
    _ = engine.rows scope (JoinNode.node ⟨i, join, left, right⟩) occasion := (hrows _).symm

end Nodes

section Builders

variable {engine} {scope : Scope V} {context : EquivalenceContext}
variable {base : BaseRows V context.baseTable} {source : EqNode} {s : GenerationState}

/-- The keys of a keyed table, as its numbers. -/
theorem map_key_keyedRows (key : String) (numbered : List (Row V × Int)) :
    ((keyedRows key numbered : Bag V).map fun row => row key) =
      ((numbered.map Prod.snd).map Value.int : List (Value V)) := by
  simp [keyedRows, Function.comp_def]

/-- Lists that keep the key of every keyed row hold the keys of the table. -/
theorem sameKeys_of_map {key : String} {numbered : List (Row V × Int)}
    (hnodup : (numbered.map Prod.snd).Nodup) {f g : Row V → Row V}
    (hf : ∀ row, f row key = row key) (hg : ∀ row, g row key = row key) :
    SameKeys key ((keyedRows key numbered : Bag V).map f)
      ((keyedRows key numbered : Bag V).map g) where
  same := by
    simp only [Multiset.map_map, Function.comp_apply, hf, hg]
  nodup := by
    rw [Multiset.map_map]
    simp only [Function.comp_apply, hf]
    rw [map_key_keyedRows, Multiset.coe_nodup]
    exact hnodup.map fun m n h => Value.int.inj h
  numbers := by
    intro row hrow
    obtain ⟨keyed, hkeyed, rfl⟩ := Multiset.mem_map.mp hrow
    obtain ⟨entry, -, rfl⟩ := List.mem_map.mp (Multiset.mem_coe.mp hkeyed)
    exact ⟨entry.2, by rw [hf, Function.update_self]⟩

/-- A select list with the key in it keeps the key. -/
theorem project_key (engine : Engine V) (row : Row V) {key : String} {items : List ProjectionItem}
    (h : ∀ item ∈ items, item.name = key → item = passthrough key integerType)
    (hmem : passthrough key integerType ∈ items) :
    engine.project (rowSight row) items key = row key := by
  unfold Engine.project
  cases hfind : items.find? fun item => item.name = key with
  | none =>
      rw [List.find?_eq_none] at hfind
      have hne := hfind _ hmem
      simp [passthrough] at hne
  | some item =>
      have hname : item.name = key := by
        simpa using List.find?_some hfind
      rw [h item (List.mem_of_find?_eq_some hfind) hname]
      rfl

/-- Lists of columns and constants, with the key in them once. -/
structure ListsKey (key : String) (items : List ProjectionItem) : Prop where
  mem : passthrough key integerType ∈ items
  named : ∀ item ∈ items, item.name = key → item = passthrough key integerType
  plain : ∀ item ∈ items, item.expr = col item.name item.dataType ∨ ∃ n, item.expr = intLit n

theorem ListsKey.select_eq {key : String} {items : List ProjectionItem} (h : ListsKey key items)
    (engine : Engine V) (occasion : Occasion) (rows : Bag V) :
    engine.select occasion rows { projection := some items } =
      rows.map fun row => engine.project (rowSight row) items := by
  have haggregate : itemsAggregate items = false := by
    apply itemsAggregate_eq_false
    intro item hitem
    rcases h.plain item hitem with hexpr | ⟨n, hexpr⟩
    · rw [hexpr]
      rfl
    · rw [hexpr]
      rfl
  rw [select_items engine occasion rows none haggregate]
  · simp
  · intro row window item hitem
    rcases h.plain item hitem with hexpr | ⟨n, hexpr⟩
    · rw [hexpr]
      rfl
    · rw [hexpr]
      rfl

/-- Some of the base columns, and the key. -/
theorem listsKey_snoc {columns : List Column} {key : String} {items : List ProjectionItem}
    (hitems : ∀ item ∈ items, item ∈ passthroughs columns)
    (hfresh : key ∉ columns.map Column.name) :
    ListsKey key (items ++ [passthrough key integerType]) where
  mem := by
    simp
  named := by
    intro item hitem hname
    rcases List.mem_append.mp hitem with hitem | hitem
    · refine absurd ?_ hfresh
      rw [← hname, ← names_passthroughs]
      exact List.mem_map_of_mem (hitems item hitem)
    · exact List.mem_singleton.mp hitem
  plain := by
    intro item hitem
    rcases List.mem_append.mp hitem with hitem | hitem
    · obtain ⟨column, -, rfl⟩ := List.mem_map.mp (hitems item hitem)
      exact .inl rfl
    · rw [List.mem_singleton.mp hitem]
      exact .inl rfl

theorem listsKey_flagItems {uid flag : String} (hne : flag ≠ uid) :
    ListsKey uid (flagItems uid flag) where
  mem := by
    simp [flagItems]
  named := by
    intro item hitem hname
    rcases List.mem_pair.mp hitem with rfl | rfl
    · rfl
    · exact absurd hname hne
  plain := by
    intro item hitem
    rcases List.mem_pair.mp hitem with rfl | rfl
    · exact .inl rfl
    · exact .inr ⟨1, rfl⟩

/-- The builders that join two sides of one keyed table. -/
inductive JoinBuilder where
  | semiFlag | flagTable | sequence
  deriving DecidableEq, Repr

def JoinBuilder.build (builder : JoinBuilder) (buildSubtree : BuildSubtree)
    (context : EquivalenceContext) : Gen EqNode :=
  match builder with
  | .semiFlag => semiJoinFlagRoundTrip buildSubtree context
  | .flagTable => flagTableJoin buildSubtree context
  | .sequence => sequenceOuterJoin buildSubtree context

def JoinBuilder.stem : JoinBuilder → String
  | .semiFlag => "eq_sj"
  | .flagTable => "eq_uid"
  | .sequence => "eq_seq"

/-- The key the builder mints when it is run in a state. -/
def JoinBuilder.key (builder : JoinBuilder) (s : GenerationState) : String :=
  builder.stem ++ "_" ++ toString (s.objectCounters builder.stem + 1)

variable {Q : EqNode → GenerationState → Prop} {N : GenerationState → Prop}
variable {E : GenerationError → GenerationState → Prop}

/-- The keyed table, unless there is no column to number the rows by. -/
theorem spec_keyed (hsource : HoldsBase engine scope base source) (kind : WritableKind)
    {key : String} (hfresh : key ∉ context.baseTable.columnNames)
    {Q : KeyedRelation → GenerationState → Prop} (hN : ∀ s', N s')
    (hQ : ∀ node s', Taken s' (refSql node) → KeyedOnce engine scope base key node →
      Q ⟨node, passthroughItems context⟩ s') :
    Spec (materializeRowKey (rewritten context source kind) context key) s Q N E := by
  by_cases hcolumns : context.baseTable.columns = []
  · have hitems : passthroughItems context = [] := by
      simpa [passthroughItems] using hcolumns
    rw [materializeRowKey, hitems]
    exact hN s
  · apply spec_materializeRowKey hsource kind hfresh hcolumns
    intro node s' _ _ htaken hnode
    exact hQ node s' htaken hnode

/-- A table over a keyed table that lists its keys. -/
theorem spec_flagTable {keyed : EqNode} {key : String} {items : List ProjectionItem}
    (hkeyed : KeyedOnce engine scope base key keyed) (htaken : Taken s (refSql keyed))
    (hitems : ListsKey key items)
    (hQ : ∀ flags s', JoinSides engine scope key keyed flags → Q flags s') :
    Spec (selectQuery keyed { projection := some items } >>= fun flags =>
      createTable context flags none) s Q N E := by
  obtain ⟨numbered, hdenotes, hcopies⟩ := hkeyed
  apply spec_tableOver hdenotes (.inl rfl)
  intro flags s' site _ _ hnew _ hflags
  apply hQ
  refine ⟨fun heq => hnew (heq ▸ htaken), _, _, hdenotes, hflags, ?_⟩
  intro occasion
  simp only [hitems.select_eq engine site]
  have hkeys := @sameKeys_of_map _ key numbered hcopies.nodup id
    (fun row => engine.project (rowSight row) items) (fun _ => rfl)
    fun row => project_key engine row hitems.named hitems.mem
  rw [Multiset.map_id] at hkeys
  exact hkeys

/-- Two views over a keyed table that both list its keys. -/
theorem spec_halves {keyed : EqNode} {key : String} {leftItems rightItems : List ProjectionItem}
    (hkeyed : KeyedOnce engine scope base key keyed) (hleft : ListsKey key leftItems)
    (hright : ListsKey key rightItems) {rest : EqNode → EqNode → Gen EqNode}
    (hrest : ∀ left right s', JoinSides engine scope key left right →
      Spec (rest left right) s' Q N E) :
    Spec (do
      let left ← selectQuery keyed { projection := some leftItems }
      let left ← createView context left none
      let right ← selectQuery keyed { projection := some rightItems }
      let right ← createView context right none
      rest left right) s Q N E := by
  obtain ⟨numbered, hdenotes, hcopies⟩ := hkeyed
  simp only [spec_bind]
  rw [← spec_bind]
  apply spec_viewOver hdenotes
  intro left s₁ _ _ hleftName hleftView
  rw [← spec_bind]
  apply spec_viewOver hdenotes
  intro right s₂ _ _ hrightName hrightView
  apply hrest
  refine ⟨fun heq => (hrightName rfl).1 (heq ▸ (hleftName rfl).2), _, _, hleftView, hrightView, ?_⟩
  intro occasion
  simp only [hleft.select_eq engine, hright.select_eq engine]
  exact sameKeys_of_map hcopies.nodup
    (fun row => project_key engine row hleft.named hleft.mem)
    fun row => project_key engine row hright.named hright.mem

theorem spec_chooseAny {α : Type} {choices : Choices α} {Q : α → GenerationState → Prop}
    (hE : ∀ e s', E e s') (hQ : ∀ a s', Q a s') : Spec (chooseOne context choices) s Q N E := by
  simp only [chooseOne, spec_bind, spec_require]
  refine ⟨fun _ => ⟨fun _ => ?_, fun _ => hE _ _⟩, fun _ => hE _ _⟩
  rw [spec_draw]
  cases choices.pick (context.draws s.drawn) with
  | some value => exact hQ value _
  | none => exact hE _ _

/--
Every join the builders construct over one keyed table pairs each row with exactly one partner,
and returns the same rows when its `FULL OUTER` is written as `LEFT OUTER`.
-/
theorem build_lowersSoundly (hsource : HoldsBase engine scope base source) (kind : WritableKind)
    (builder : JoinBuilder) (hfresh : builder.key s ∉ context.baseTable.columnNames) :
    Spec (builder.build (rewritten context source kind) context) s
      (fun node _ => LowersSoundly engine scope node) (fun _ => True) (fun _ _ => True) := by
  cases builder with
  | semiFlag =>
      simp only [JoinBuilder.build, semiJoinFlagRoundTrip, spec_bind, spec_guard]
      apply spec_generateObjectName
      rintro uid s₁ - - - - rfl
      apply spec_keyed hsource kind hfresh (fun _ => trivial)
      intro keyed s₂ htaken hkeyed
      refine ⟨fun _ => ?_, fun _ => trivial⟩
      rw [← spec_bind]
      apply spec_flagTable hkeyed htaken
        (@listsKey_snoc context.baseTable.columns _ [] (by simp) hfresh)
      intro flags s₃ hsides
      exact spec_joinQuery hsides fun _ _ hnode => hnode
  | flagTable =>
      simp only [JoinBuilder.build, flagTableJoin, spec_bind]
      apply spec_generateObjectName
      rintro uid s₁ - - - htakenUid rfl
      apply spec_generateObjectName
      rintro flag s₂ - - hnewFlag - -
      have hne : flag ≠ JoinBuilder.flagTable.key s := by
        rintro rfl
        exact hnewFlag htakenUid
      apply spec_keyed hsource kind hfresh (fun _ => trivial)
      intro keyed s₃ htaken hkeyed
      rw [← spec_bind]
      apply spec_flagTable hkeyed htaken (listsKey_flagItems hne)
      intro flags s₄ hsides
      apply spec_chooseAny (fun _ _ => trivial)
      intro joinType s₅
      exact spec_joinQuery hsides fun _ _ hnode => hnode
  | sequence =>
      simp only [JoinBuilder.build, sequenceOuterJoin]
      rw [spec_bind]
      apply spec_generateObjectName
      rintro key s₁ - - - - rfl
      rw [spec_bind]
      apply spec_keyed hsource kind hfresh (fun _ => trivial)
      intro keyed s₂ _ hkeyed
      rw [spec_bind, spec_guard]
      refine ⟨fun _ => ?_, fun _ => trivial⟩
      apply spec_halves hkeyed
      · apply listsKey_snoc _ hfresh
        intro item hitem
        exact List.mem_of_mem_take hitem
      · apply listsKey_snoc _ hfresh
        intro item hitem
        exact List.mem_of_mem_drop hitem
      · intro left right s₃ hsides
        exact spec_joinQuery hsides fun _ _ hnode => hnode

end Builders

section Sample

/-- A configuration whose joins are `FULL OUTER` joins. -/
def outerContext : EquivalenceContext :=
  { sampleContext 2 with
    config := { (sampleContext 2).config with joinTypeWeights := [⟨.fullOuter, 1⟩] } }

/-- A flag table join over two rows that agree is built, and lowers soundly. -/
theorem flagTableJoin_lowersSoundly :
    ∃ node s', JoinBuilder.flagTable.build (rewritten outerContext sampleSource .table)
        outerContext sampleState = .done node s' ∧
      LowersSoundly sampleEngine sampleScope node := by
  have hsource : @HoldsBase _ sampleEngine sampleScope outerContext.baseTable sampleRows
      sampleSource := @holdsBase_baseTable _ _ _ outerContext sampleRows 0 rfl
  have hbuild := @build_lowersSoundly _ sampleEngine sampleScope outerContext sampleRows
    sampleSource sampleState hsource .table .flagTable (by decide)
  exact ⟨_, _, rfl, hbuild⟩

end Sample

end EqGen.Equivalence.Joins
