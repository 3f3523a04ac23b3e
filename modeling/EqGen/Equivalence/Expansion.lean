import EqGen.Equivalence.Builders.Creates
import EqGen.Equivalence.Copies
import EqGen.Equivalence.Denotations

/-!
Expansion and reduction: a reducer over any stack of expanders gives the base rows back,
unless the key channel is asked for a single copy of each row.
-/

namespace EqGen.Equivalence.Expansion

open Classical
open EqGen.Core.Catalog
open EqGen.Core.Types
open EqGen.Equivalence.Ast
open EqGen.Equivalence.Builders.Base
open EqGen.Equivalence.Builders.Creates
open EqGen.Equivalence.Builders.Expansion
open EqGen.Builder.Context
open EqGen.Equivalence.Context
open EqGen.Equivalence.Copies
open EqGen.Equivalence.Denotations
open EqGen.Equivalence.Names
open EqGen.Equivalence.Rows
open EqGen.Equivalence.Semantics
open EqGen.Lib.Backtrack
open EqGen.Lib.Backtrack.Attempt

/-- The writable objects the pool serves a request for particular columns with. -/
inductive WritableKind where
  | table | temporaryTable
  deriving DecidableEq, Repr

/-- One explode at the bottom, and any number of expanders that insert more copies. -/
inductive Stack where
  | explode (keyed : WritableKind)
  | insertExtras (below : Stack)
  deriving DecidableEq, Repr

inductive Channel where
  | tag | key
  deriving DecidableEq, Repr

inductive Reducer where
  | tagPruneDelete | tagPruneFilter
  | keyDistinct | keyGroupAggregate | keyWindowAggregate | keyQualifyDedup
  deriving DecidableEq, Repr

def Reducer.channel : Reducer → Channel
  | tagPruneDelete | tagPruneFilter => .tag
  | _ => .key

section Stacks

variable (context : EquivalenceContext) (source : EqNode)

/-- A writable relation with exactly the columns asked for, over the source. -/
def rewritten (kind : WritableKind) : BuildSubtree := fun _ constraints =>
  let query : BuildSubtree := fun _ constraints =>
    projectionQuery (fun _ _ => pure source) constraints
  match kind with
  | .table => createTableBuilder query context constraints
  | .temporaryTable => createTemporaryTableBuilder query context constraints

/-- What the expanders of a stack answer a request for a channel with. -/
def expand : Stack → BuildSubtree
  | .explode keyed, _, constraints =>
    if constraints.tagChannel.isSome then
      tagExplodeExpansion (rewritten context source keyed) context constraints
    else keyExplodeExpansion (rewritten context source keyed) context constraints
  | .insertExtras below, _, constraints =>
    if constraints.tagChannel.isSome then
      tagInsertExtrasExpansion (expand below) context constraints
    else keyInsertExtrasExpansion (expand below) constraints

/-- A reducer over a stack of expanders of its channel. -/
def Reducer.build (reducer : Reducer) (stack : Stack) (constraints : ConstraintSet) : Gen EqNode :=
  let child := expand context source stack
  match reducer with
  | .tagPruneDelete => tagPruneDeleteReduce child context constraints
  | .tagPruneFilter => tagPruneFilterReduce child context constraints
  | .keyDistinct => keyDistinctReduce child context constraints
  | .keyGroupAggregate => keyGroupAggregateReduce child context constraints
  | .keyWindowAggregate => keyWindowAggregateReduce child context constraints
  | .keyQualifyDedup => keyQualifyDedupReduce child context constraints

end Stacks

variable {V : Type}

/-- The rows a base table holds. -/
structure BaseRows (V : Type) (table : Table) where
  rows : Bag V
  supported : ∀ row ∈ rows, Supported table.columnNames row

section Channels

variable (engine : Engine V) (scope : Scope V) {table : Table} (base : BaseRows V table)

/-- The node is a source that holds the base rows. -/
def HoldsBase (node : EqNode) : Prop :=
  Denotes engine scope node ⟨table.columnNames, fun _ => base.rows⟩

/-- The node is a table that holds every base row once, under a key of its own. -/
def KeyedOnce (key : String) (node : EqNode) : Prop :=
  ∃ numbered, Denotes engine scope node
      ⟨table.columnNames ++ [key], fun _ => (keyedRows key numbered : Bag V)⟩ ∧
    KeyCopies table.columns key base.rows (keyedRows key numbered : Bag V) numbered

/-- The node is a table of the base rows and their copies, told apart by a key. -/
def KeyExpansion (key : String) (node : EqNode) : Prop :=
  ∃ held numbered, Denotes engine scope node ⟨table.columnNames ++ [key], fun _ => held⟩ ∧
    KeyCopies table.columns key base.rows held numbered

/-- The node is a table of the base rows, tagged to be kept, among throwaway copies. -/
def TagExpansion (tag : String) (node : EqNode) : Prop :=
  ∃ held, Denotes engine scope node ⟨table.columnNames ++ [tag], fun _ => held⟩ ∧
    TagCopies table.columns tag base.rows held

end Channels

section Tables

variable {engine : Engine V} {scope : Scope V} {table : Table} {base : BaseRows V table}
variable {child : EqNode} {column : String} {held : Bag V}

/-- The relation has the base columns and one more, and holds these rows. -/
abbrev widened (table : Table) (column : String) (held : Bag V) : Relation V :=
  ⟨table.columnNames ++ [column], fun _ => held⟩

/-- Rows inserted into the child's own table. -/
theorem denotes_inserted (hchild : Denotes engine scope child (widened table column held))
    (i : Nat) {query : SelectQuery} {more : Bag V}
    (hcolumns : selectColumns query (widened table column held) = table.columnNames ++ [column])
    (hrows : ∀ occasion, engine.select occasion held query = more)
    (hmore : ∀ row ∈ more, Supported (table.columnNames ++ [column]) row) :
    Denotes engine scope
      (.mk i (.relation ⟨.insertExtrasExpansion, .table,
        [.insertQuery (refSql child) (queryOver (.select query) [child])],
        exposedOf child, getSignature child⟩) [child])
      (widened table column (held + more)) := by
  have hinsert := denotes_insertExtras engine scope hchild i (queryOver (.select query) [child])
    .table (getSignature child)
  simp only [columns_select, query_select, scopeFrom_source engine scope hchild, hcolumns, hrows,
    map_relabel_self hmore] at hinsert
  exact hinsert

/-- The view over the rows to keep, once the others were deleted. -/
theorem denotes_pruned (hchild : Denotes engine scope child (widened table column held))
    (hcopies : TagCopies table.columns column base.rows held) (i : Nat) (name : String) :
    Denotes engine scope
      (.mk i (.relation ⟨.tagPruneDeleteTable, .view,
        [.delete (refSql child) (some (ne (col column integerType) (intLit keep))),
          .object ⟨true, name, "VIEW",
            queryOver (.select { projection := some (passthroughs table.columns) }) [child]⟩],
        ⟨true, name, "VIEW",
          queryOver (.select { projection := some (passthroughs table.columns) }) [child]⟩,
        itemSignature (passthroughs table.columns)⟩) [child])
      ⟨table.columnNames, fun _ => base.rows⟩ := by
  have hnode := denotes_tagPruneDelete engine scope hchild i
    (some (ne (col column integerType) (intLit keep))) name
    { projection := some (passthroughs table.columns) } (itemSignature (passthroughs table.columns))
  simp only [hcopies.select_left, selectColumns, names_passthroughs] at hnode
  exact hnode

end Tables

section Specs

variable {engine : Engine V} {scope : Scope V} {context : EquivalenceContext}
variable {base : BaseRows V context.baseTable} {source : EqNode}
variable {N : GenerationState → Prop} {E : GenerationError → GenerationState → Prop}
variable {s : GenerationState}

theorem passthroughItems_eq (context : EquivalenceContext) :
    passthroughItems context = passthroughs context.baseTable.columns := rfl

/-- A request for particular columns is served by a table that evaluates them once. -/
theorem spec_rewritten (hsource : HoldsBase engine scope base source) (kind : WritableKind)
    {items : List ProjectionItem} {Q : EqNode → GenerationState → Prop}
    (hQ : ∀ node s' site, Grows s s' → s'.drawn = s.drawn → Taken s' (refSql node) →
      Denotes engine scope node ⟨items.map ProjectionItem.name,
        fun _ => engine.select site base.rows { projection := some items }⟩ → Q node s') :
    Spec (rewritten context source kind .equivalentRelation
      { columnRewrite := some items, acceptsDml := true }) s Q N E := by
  cases kind with
  | table =>
      apply spec_tableOver hsource (.inl rfl)
      intro node s' site hgrows hdrawn _ htaken hnode
      exact hQ node s' site hgrows hdrawn htaken hnode
  | temporaryTable =>
      apply spec_tableOver hsource (.inr rfl)
      intro node s' site hgrows hdrawn _ htaken hnode
      exact hQ node s' site hgrows hdrawn htaken hnode

theorem spec_draw {Q : Nat → GenerationState → Prop} :
    Spec (draw context) s Q N E ↔ Q (context.draws s.drawn) { s with drawn := s.drawn + 1 } :=
  Iff.rfl

theorem spec_chooseOne {α : Type} {choices : Choices α} {a : α} {Q : α → GenerationState → Prop}
    (hpick : choices.pick (context.draws s.drawn) = some a)
    (hQ : Q a { s with drawn := s.drawn + 1 }) : Spec (chooseOne context choices) s Q N E := by
  have heligible : choices.eligible ≠ [] := by
    intro hnil
    simp [Choices.pick, hnil] at hpick
  have hne : choices ≠ [] := by
    rintro rfl
    exact heligible rfl
  simp only [chooseOne, spec_bind, spec_require, hne, heligible, not_true_eq_false, ne_eq,
    not_false_eq_true, true_implies, false_implies, and_true]
  rw [spec_draw, hpick]
  exact hQ

/-- The keyed table, written once. -/
theorem spec_materializeRowKey (hsource : HoldsBase engine scope base source) (kind : WritableKind)
    {key : String} (hfresh : key ∉ context.baseTable.columnNames)
    (hcolumns : context.baseTable.columns ≠ []) {Q : KeyedRelation → GenerationState → Prop}
    (hQ : ∀ node s', Grows s s' → s'.drawn = s.drawn → Taken s' (refSql node) →
      KeyedOnce engine scope base key node → Q ⟨node, passthroughItems context⟩ s') :
    Spec (materializeRowKey (rewritten context source kind) context key) s Q N E := by
  rw [materializeRowKey, passthroughItems_eq]
  obtain ⟨column, columns, hcons⟩ := List.exists_cons_of_ne_nil hcolumns
  have hitems : passthroughs context.baseTable.columns =
      passthrough column.name column.dataType :: passthroughs columns := by
    rw [hcons]
    rfl
  rw [hitems, spec_bind, ← hitems]
  apply spec_rewritten hsource
  intro node s' site hgrows hdrawn htaken hnode
  obtain ⟨numbered, hrows, hnodup, hselect⟩ :=
    @select_numbered _ engine site base.rows context.baseTable.columns key
      (passthrough column.name column.dataType) base.supported hfresh
  apply hQ node s' hgrows hdrawn htaken
  refine ⟨numbered, ?_, ?_⟩
  · rw [hselect] at hnode
    simpa [keyedItems, names_passthroughs, Table.columnNames, keyedRows] using hnode
  · exact .of_numbered hfresh base.supported hrows hnodup

/-- The N-fold `UNION ALL` over the keyed table, or the assertion it starts with. -/
theorem spec_keyExplode (hsource : HoldsBase engine scope base source) (kind : WritableKind)
    {channel : KeySpec} {constraints : ConstraintSet} {n : Nat}
    (hchannel : constraints.keyChannel = some channel)
    (hfresh : channel.column ∉ context.baseTable.columnNames)
    (hcolumns : context.baseTable.columns ≠ [])
    (hpick : context.config.bigTableRowcountWeights.pick (context.draws s.drawn) = some n)
    {Q : EqNode → GenerationState → Prop}
    (hQ : 2 ≤ n → ∀ node s', Grows s s' →
      KeyExpansion engine scope base channel.column node → Q node s')
    (hE : n < 2 → ∀ s', E (.assertion "UNION ALL requires at least two branches") s') :
    Spec (keyExplodeExpansion (rewritten context source kind) context constraints) s Q N E := by
  rw [keyExplodeExpansion, hchannel, spec_bind, spec_fromOption]
  refine ⟨?_, by simp⟩
  rintro _ ⟨rfl⟩
  rw [spec_bind]
  apply spec_materializeRowKey hsource kind hfresh hcolumns
  rintro keyed s₁ hgrows hdrawn - ⟨numbered, hkeyed, hcopies⟩
  rw [spec_bind]
  apply spec_chooseOne (hdrawn ▸ hpick)
  have hmem : ∀ branch ∈ List.replicate n keyed, branch = keyed := by
    intro branch hbranch
    exact List.eq_of_mem_replicate hbranch
  apply @spec_unionTable _ engine scope context _ Q N E (List.replicate n keyed)
    (context.baseTable.columnNames ++ [channel.column])
    fun _ => (keyedRows channel.column numbered : Bag V)
  · intro branch hbranch
    rw [hmem branch hbranch]
    exact hkeyed
  · intro branch _ row hrow
    exact hcopies.supported_held hrow
  · intro htwo node s₂ hgrows₂ _ hnode
    rw [List.length_replicate] at htwo
    apply hQ htwo node s₂ (hgrows.trans hgrows₂)
    rw [List.map_replicate] at hnode
    exact ⟨_, numbered, hnode, hcopies.repeated (by omega)⟩
  · intro hshort
    rw [List.length_replicate] at hshort
    exact hE hshort _

/-- `INSERT` of a table into itself repeats its rows. -/
theorem spec_keyInsertExtras {below : BuildSubtree} {channel : KeySpec}
    {constraints : ConstraintSet} (hchannel : constraints.keyChannel = some channel)
    {Q : EqNode → GenerationState → Prop}
    (hbelow : Spec (below .equivalentRelation { keyChannel := some channel }) s
      (fun child s' => KeyExpansion engine scope base channel.column child ∧
        ∀ node s'', Grows s' s'' →
          KeyExpansion engine scope base channel.column node → Q node s'') N E) :
    Spec (keyInsertExtrasExpansion below constraints) s Q N E := by
  rw [keyInsertExtrasExpansion, hchannel, spec_bind, spec_fromOption]
  refine ⟨?_, by simp⟩
  rintro _ ⟨rfl⟩
  rw [spec_bind]
  apply hbelow.mono _ (fun _ h => h) (fun _ _ h => h)
  rintro child s₁ ⟨⟨held, numbered, hchild, hcopies⟩, hQ⟩
  apply spec_newNode
  intro i s₂ hgrows _
  apply hQ _ _ hgrows
  refine ⟨held + held, numbered, ?_, hcopies.of_mem_iff (by simp)⟩
  apply denotes_inserted hchild i rfl fun occasion => select_all engine occasion held
  intro row hrow
  exact hcopies.supported_held hrow

/-- The keep table and the throwaway copies of it. -/
theorem spec_tagExplode (hsource : HoldsBase engine scope base source) (kind : WritableKind)
    {channel : TagChannel} {constraints : ConstraintSet} {n : Nat}
    (hchannel : constraints.tagChannel = some channel) (hkeep : channel.keepValue = keep)
    (hfresh : channel.tagCol ∉ context.baseTable.columnNames)
    (hcolumns : context.baseTable.columns ≠ [])
    (hpick : context.config.bigTableRowcountWeights.pick (context.draws s.drawn) = some n)
    {Q : EqNode → GenerationState → Prop}
    (hQ : ∀ node s', Grows s s' → TagExpansion engine scope base channel.tagCol node → Q node s') :
    Spec (tagExplodeExpansion (rewritten context source kind) context constraints) s Q N E := by
  rw [tagExplodeExpansion, hchannel, spec_bind, spec_fromOption]
  refine ⟨?_, by simp⟩
  rintro _ ⟨rfl⟩
  simp only [spec_bind, spec_guard]
  refine ⟨?_, fun hnil => absurd (by simpa [passthroughItems] using hnil) hcolumns⟩
  intro _
  rw [passthroughItems_eq, hkeep, throwItems_passthroughs]
  apply spec_rewritten hsource
  intro kept s₁ site hgrows₁ hdrawn₁ htaken₁ hkept
  rw [names_taggedItems, select_tagged engine site hfresh base.supported] at hkept
  set keptRows := taggedRows channel.tagCol keep base.rows with hkeptRows
  set thrownRows := taggedRows channel.tagCol throwaway base.rows with hthrownRows
  rw [← spec_bind]
  apply spec_tableOver hkept (.inl rfl)
  intro thrown s₂ site₂ hgrows₂ hdrawn₂ hnew₂ htaken₂ hthrown
  simp only [selectColumns, names_taggedItems, hkeptRows,
    select_retagged engine site₂ hfresh base.supported] at hthrown
  have hne : refSql thrown ≠ refSql kept := by
    intro heq
    rw [heq] at hnew₂
    exact hnew₂ htaken₁
  apply spec_chooseOne (by rw [hdrawn₂, hdrawn₁]; exact hpick)
  split
  · apply spec_tableOver hkept (.inl rfl)
    intro node s₃ site₃ hgrows₃ _ _ _ hnode
    apply hQ node s₃ ((hgrows₁.trans hgrows₂).trans hgrows₃)
    refine ⟨keptRows, ?_, TagCopies.kept_rows hfresh base.supported⟩
    simp only [selectColumns, select_all] at hnode
    exact hnode
  · next hlength =>
      set held : String → Bag V := fun name =>
        if name = refSql kept then keptRows else thrownRows with hheld
      have hbranch : ∀ branch ∈ kept :: List.replicate (n - 1) thrown,
          branch = kept ∨ branch = thrown := by
        intro branch hbranch
        rcases List.mem_cons.mp hbranch with rfl | hbranch
        · exact .inl rfl
        · exact .inr (List.eq_of_mem_replicate hbranch)
      have hkeptHeld : held (refSql kept) = keptRows := if_pos rfl
      have hthrownHeld : held (refSql thrown) = thrownRows := if_neg hne
      apply @spec_unionTable _ engine scope context _ Q N E (kept :: List.replicate (n - 1) thrown)
        (context.baseTable.columnNames ++ [channel.tagCol]) held
      · intro branch hmem
        rcases hbranch branch hmem with rfl | rfl
        · rw [hkeptHeld]
          exact hkept
        · rw [hthrownHeld]
          exact hthrown
      · intro branch hmem
        rcases hbranch branch hmem with rfl | rfl
        · rw [hkeptHeld]
          exact supported_taggedRows base.supported keep
        · rw [hthrownHeld]
          exact supported_taggedRows base.supported throwaway
      · intro _ node s₃ hgrows₃ _ hnode
        apply hQ node s₃ ((hgrows₁.trans hgrows₂).trans hgrows₃)
        rw [List.map_cons, List.sum_cons, hkeptHeld, List.map_replicate, hthrownHeld] at hnode
        exact ⟨_, hnode, TagCopies.among hfresh base.supported _⟩
      · intro hshort
        rw [List.length_cons] at hshort hlength
        omega

/-- `INSERT` of throwaway copies of the rows to keep. -/
theorem spec_tagInsertExtras {below : BuildSubtree} {channel : TagChannel}
    {constraints : ConstraintSet} (hchannel : constraints.tagChannel = some channel)
    (hkeep : channel.keepValue = keep) (hcolumns : context.baseTable.columns ≠ [])
    {Q : EqNode → GenerationState → Prop}
    (hbelow : Spec (below .equivalentRelation { tagChannel := some channel, acceptsDml := true }) s
      (fun child s' => TagExpansion engine scope base channel.tagCol child ∧
        ∀ node s'', Grows s' s'' →
          TagExpansion engine scope base channel.tagCol node → Q node s'') N E) :
    Spec (tagInsertExtrasExpansion below context constraints) s Q N E := by
  rw [tagInsertExtrasExpansion, hchannel, spec_bind, spec_fromOption]
  refine ⟨?_, by simp⟩
  rintro _ ⟨rfl⟩
  simp only [spec_bind, spec_guard]
  refine ⟨?_, fun hnil => absurd (by simpa [passthroughItems] using hnil) hcolumns⟩
  intro _
  apply hbelow.mono _ (fun _ h => h) (fun _ _ h => h)
  rintro child s₁ ⟨⟨held, hchild, hcopies⟩, hQ⟩
  rw [passthroughItems_eq, throwItems_passthroughs, hkeep]
  apply spec_newNode
  intro i s₂ hgrows _
  apply hQ _ _ hgrows
  refine ⟨held + taggedRows channel.tagCol throwaway base.rows, ?_,
    hcopies.add_thrown fun row hrow => hrow⟩
  apply denotes_inserted hchild i
  · exact names_taggedItems _ channel.tagCol throwaway
  · exact fun occasion => hcopies.select_thrown engine occasion
  · exact supported_taggedRows base.supported throwaway

/-- Every stack of key expanders starts from one explode. -/
theorem spec_expandKey (hsource : HoldsBase engine scope base source) (stack : Stack)
    {channel : KeySpec} {n : Nat} (hfresh : channel.column ∉ context.baseTable.columnNames)
    (hcolumns : context.baseTable.columns ≠ [])
    (hpick : context.config.bigTableRowcountWeights.pick (context.draws s.drawn) = some n)
    {Q : EqNode → GenerationState → Prop}
    (hQ : 2 ≤ n → ∀ node s', Grows s s' →
      KeyExpansion engine scope base channel.column node → Q node s')
    (hE : n < 2 → ∀ s', E (.assertion "UNION ALL requires at least two branches") s') :
    Spec (expand context source stack .equivalentRelation { keyChannel := some channel }) s
      Q N E := by
  induction stack generalizing Q with
  | explode keyed =>
      exact spec_keyExplode hsource keyed rfl hfresh hcolumns hpick hQ hE
  | insertExtras below ih =>
      apply @spec_keyInsertExtras _ engine scope context base N E s _ channel _ rfl
      apply ih
      intro htwo child s' hgrows hchild
      refine ⟨hchild, ?_⟩
      intro node s'' hgrows' hnode
      exact hQ htwo node s'' (hgrows.trans hgrows') hnode

theorem spec_expandTag (hsource : HoldsBase engine scope base source) (stack : Stack)
    {channel : TagChannel} {dml : Bool} {n : Nat} (hkeep : channel.keepValue = keep)
    (hfresh : channel.tagCol ∉ context.baseTable.columnNames)
    (hcolumns : context.baseTable.columns ≠ [])
    (hpick : context.config.bigTableRowcountWeights.pick (context.draws s.drawn) = some n)
    {Q : EqNode → GenerationState → Prop}
    (hQ : ∀ node s', Grows s s' → TagExpansion engine scope base channel.tagCol node → Q node s') :
    Spec (expand context source stack .equivalentRelation
      { tagChannel := some channel, acceptsDml := dml }) s Q N E := by
  induction stack generalizing Q dml with
  | explode keyed =>
      exact spec_tagExplode hsource keyed rfl hkeep hfresh hcolumns hpick hQ
  | insertExtras below ih =>
      apply @spec_tagInsertExtras _ engine scope context base N E s _ channel _ rfl hkeep hcolumns
      apply ih
      intro child s' hgrows hchild
      refine ⟨hchild, ?_⟩
      intro node s'' hgrows' hnode
      exact hQ node s'' (hgrows.trans hgrows') hnode

end Specs

section Reducers

/-- The column a reducer names, before it asks for an expansion. -/
def Channel.stem : Channel → String
  | tag => "eq_tag"
  | key => "eq_key"

def Channel.column (channel : Channel) (s : GenerationState) : String :=
  channel.stem ++ "_" ++ toString (s.objectCounters channel.stem + 1)

/-- The tables a reducer does not decline. -/
def Reducer.Accepts (reducer : Reducer) (table : Table) : Prop :=
  table.columns ≠ [] ∧
    match reducer with
    | .keyDistinct => ∀ column ∈ table.columns, column.dataType.getProperties.groupable
    | .keyWindowAggregate => ∀ column ∈ table.columns,
        column.dataType.getProperties.aggregatable ∧ column.dataType.getProperties.groupable
    | _ => True

variable {engine : Engine V} {scope : Scope V} {context : EquivalenceContext}
variable {base : BaseRows V context.baseTable} {source : EqNode} {stack : Stack}
variable {constraints : ConstraintSet} {s : GenerationState} {n : Nat}
variable {N : GenerationState → Prop} {E : GenerationError → GenerationState → Prop}

theorem spec_buildKeyed (hsource : HoldsBase engine scope base source)
    (hfresh : Channel.key.column s ∉ context.baseTable.columnNames)
    (hcolumns : context.baseTable.columns ≠ [])
    (hpick : context.config.bigTableRowcountWeights.pick (context.draws s.drawn) = some n)
    {Q : Expanded → GenerationState → Prop}
    (hQ : 2 ≤ n → ∀ child column s', KeyExpansion engine scope base column child →
      Q ⟨child, passthroughs context.baseTable.columns, column⟩ s')
    (hE : n < 2 → ∀ s', E (.assertion "UNION ALL requires at least two branches") s') :
    Spec (buildKeyed (expand context source stack) context) s Q N E := by
  simp only [buildKeyed, spec_bind, spec_guard]
  refine ⟨?_, fun hnil => absurd (by simpa [passthroughItems] using hnil) hcolumns⟩
  intro _
  apply spec_generateObjectName
  intro name s' _ hdrawn _ _ hname
  rw [← hdrawn] at hpick
  have hnew : name ∉ context.baseTable.columnNames := by
    rw [hname]
    exact hfresh
  apply @spec_expandKey _ _ _ _ _ _ _ _ _ hsource stack ⟨name, .identity, false⟩ _ hnew hcolumns
    hpick _ _ hE
  intro htwo child s'' _ hchild
  exact hQ htwo child name s'' hchild

theorem spec_buildReduced (hsource : HoldsBase engine scope base source) {dml : Bool}
    (hfresh : Channel.tag.column s ∉ context.baseTable.columnNames)
    (hcolumns : context.baseTable.columns ≠ [])
    (hpick : context.config.bigTableRowcountWeights.pick (context.draws s.drawn) = some n)
    {Q : Expanded → GenerationState → Prop}
    (hQ : ∀ child column s', TagExpansion engine scope base column child →
      Q ⟨child, passthroughs context.baseTable.columns, column⟩ s') :
    Spec (buildReduced (expand context source stack) context dml) s Q N E := by
  simp only [buildReduced, spec_bind, spec_guard]
  refine ⟨?_, fun hnil => absurd (by simpa [passthroughItems] using hnil) hcolumns⟩
  intro _
  apply spec_generateObjectName
  intro name s' _ hdrawn _ _ hname
  rw [← hdrawn] at hpick
  have hnew : name ∉ context.baseTable.columnNames := by
    rw [hname]
    exact hfresh
  apply @spec_expandTag _ _ _ _ _ _ _ _ _ hsource stack ⟨name, keep⟩ _ _ rfl hnew hcolumns hpick
  intro child s'' _ hchild
  exact hQ child name s'' hchild

/-- A view that leaves one of each copy, and the view that drops the key. -/
theorem spec_collapse {child : EqNode} {key : String} {query : SelectQuery} {held : Bag V}
    {numbered : List (Row V × Int)}
    (hchild : Denotes engine scope child
      ⟨context.baseTable.columnNames ++ [key], fun _ => held⟩)
    (hcopies : KeyCopies context.baseTable.columns key base.rows held numbered)
    (hquery : ∀ occasion,
      engine.select occasion held query = (keyedRows key numbered : Bag V))
    {Q : EqNode → GenerationState → Prop}
    (hQ : ∀ node s', HoldsBase engine scope base node → Q node s') :
    Spec (collapse context ⟨child, passthroughs context.baseTable.columns, key⟩ query constraints)
      s Q N E := by
  simp only [collapse, spec_bind]
  rw [← spec_bind]
  apply spec_viewOver hchild
  intro collapsed s₁ _ _ _ hcollapsed
  simp only [hquery] at hcollapsed
  rw [← spec_bind]
  apply spec_viewOver hcollapsed
  intro node s₂ _ _ _ hnode
  apply hQ
  simp only [hcopies.select_keyedRows, selectColumns, names_passthroughs] at hnode
  exact hnode

theorem spec_reduceKey (hsource : HoldsBase engine scope base source) {reducer : Reducer}
    (hchannel : reducer.channel = .key) (haccepts : reducer.Accepts context.baseTable)
    (hfresh : Channel.key.column s ∉ context.baseTable.columnNames)
    (hpick : context.config.bigTableRowcountWeights.pick (context.draws s.drawn) = some n)
    {Q : EqNode → GenerationState → Prop}
    (hQ : 2 ≤ n → ∀ node s', HoldsBase engine scope base node → Q node s')
    (hE : n < 2 → ∀ s', E (.assertion "UNION ALL requires at least two branches") s') :
    Spec (reducer.build context source stack constraints) s Q N E := by
  obtain ⟨hcolumns, hproperties⟩ := haccepts
  have hitems : passthroughItems context ≠ [] := by
    simpa [passthroughItems] using hcolumns
  cases reducer with
  | tagPruneDelete => cases hchannel
  | tagPruneFilter => cases hchannel
  | keyDistinct =>
      have hgroupable : ∀ item ∈ passthroughItems context, item.dataType.getProperties.groupable :=
        List.forall_mem_map.mpr hproperties
      simp only [Reducer.build, keyDistinctReduce, spec_bind, spec_guard]
      refine ⟨fun _ => ⟨fun _ => ?_, fun hnot => absurd hgroupable hnot⟩,
        fun hnil => absurd hitems hnil⟩
      apply spec_buildKeyed hsource hfresh hcolumns hpick _ hE
      rintro htwo child key s₁ ⟨held, numbered, hchild, hcopies⟩
      apply spec_collapse hchild hcopies _ fun node s' hnode => hQ htwo node s' hnode
      intro occasion
      exact hcopies.select_distinct engine occasion
        (listsRows_passthroughs engine occasion rfl rfl rfl rfl) rfl rfl
  | keyGroupAggregate =>
      simp only [Reducer.build, keyGroupAggregateReduce, spec_bind]
      apply spec_buildKeyed hsource hfresh hcolumns hpick _ hE
      rintro htwo child key s₁ ⟨held, numbered, hchild, hcopies⟩
      rw [← spec_bind]
      apply spec_viewOver hchild
      intro node s₂ _ _ _ hnode
      apply hQ htwo
      simp only [hcopies.select_groupBy, selectColumns, names_anyValueItems] at hnode
      exact hnode
  | keyWindowAggregate =>
      have hcapable : ∀ item ∈ passthroughItems context,
          item.dataType.getProperties.aggregatable ∧ item.dataType.getProperties.groupable :=
        List.forall_mem_map.mpr hproperties
      simp only [Reducer.build, keyWindowAggregateReduce, spec_bind, spec_guard]
      refine ⟨fun _ => ⟨fun _ => ?_, fun hnot => absurd hcapable hnot⟩,
        fun hnil => absurd hitems hnil⟩
      apply spec_buildKeyed hsource hfresh hcolumns hpick _ hE
      rintro htwo child key s₁ ⟨held, numbered, hchild, hcopies⟩
      apply spec_collapse hchild hcopies _ fun node s' hnode => hQ htwo node s' hnode
      intro occasion
      exact hcopies.select_distinct engine occasion
        (hcopies.listsRows_windowed engine occasion rfl rfl rfl rfl) rfl rfl
  | keyQualifyDedup =>
      simp only [Reducer.build, keyQualifyDedupReduce, spec_bind]
      apply spec_buildKeyed hsource hfresh hcolumns hpick _ hE
      rintro htwo child key s₁ ⟨held, numbered, hchild, hcopies⟩
      apply spec_collapse hchild hcopies _ fun node s' hnode => hQ htwo node s' hnode
      intro occasion
      exact hcopies.select_qualify engine occasion
        (listsRows_passthroughs engine occasion rfl rfl rfl rfl) rfl rfl

theorem spec_reduceTag (hsource : HoldsBase engine scope base source) {reducer : Reducer}
    (hchannel : reducer.channel = .tag) (haccepts : reducer.Accepts context.baseTable)
    (hfresh : Channel.tag.column s ∉ context.baseTable.columnNames)
    (hpick : context.config.bigTableRowcountWeights.pick (context.draws s.drawn) = some n)
    {Q : EqNode → GenerationState → Prop}
    (hQ : ∀ node s', HoldsBase engine scope base node → Q node s') :
    Spec (reducer.build context source stack constraints) s Q N E := by
  cases reducer with
  | tagPruneDelete =>
      simp only [Reducer.build, tagPruneDeleteReduce, spec_bind]
      apply spec_buildReduced hsource hfresh haccepts.1 hpick
      rintro child tag s₁ ⟨held, hchild, hcopies⟩
      simp only [tagPruneDeleteTable, spec_bind]
      apply spec_exposedOrMinted
      intro name s₂ _ _ _
      apply spec_newNode
      intro i s₃ _ _
      apply hQ
      exact denotes_pruned hchild hcopies i name
  | tagPruneFilter =>
      simp only [Reducer.build, tagPruneFilterReduce, spec_bind]
      apply spec_buildReduced hsource hfresh haccepts.1 hpick
      rintro child tag s₁ ⟨held, hchild, hcopies⟩
      rw [← spec_bind]
      apply spec_viewOver hchild
      intro node s₂ _ _ _ hnode
      apply hQ
      simp only [hcopies.select_kept, selectColumns, names_passthroughs] at hnode
      exact hnode
  | keyDistinct => cases hchannel
  | keyGroupAggregate => cases hchannel
  | keyWindowAggregate => cases hchannel
  | keyQualifyDedup => cases hchannel

/-- A table the reducer does not accept is declined before anything is built. -/
theorem spec_declined {reducer : Reducer} (haccepts : ¬reducer.Accepts context.baseTable)
    {Q : EqNode → GenerationState → Prop} (hN : N s) :
    Spec (reducer.build context source stack constraints) s Q N E := by
  by_cases hcolumns : context.baseTable.columns = []
  · have hitems : passthroughItems context = [] := by
      simpa [passthroughItems] using hcolumns
    cases reducer <;>
      simp only [Reducer.build, tagPruneDeleteReduce, tagPruneFilterReduce, keyDistinctReduce,
        keyGroupAggregateReduce, keyWindowAggregateReduce, keyQualifyDedupReduce, buildReduced,
        buildKeyed, spec_bind, spec_guard, hitems, ne_eq, not_true_eq_false, not_false_eq_true,
        false_implies, true_implies, true_and] <;>
      exact hN
  · have hitems : passthroughItems context ≠ [] := by
      simpa [passthroughItems] using hcolumns
    cases reducer with
    | keyDistinct =>
        have hgroupable : ¬∀ item ∈ passthroughItems context,
            item.dataType.getProperties.groupable := by
          intro hall
          exact haccepts ⟨hcolumns, List.forall_mem_map.mp hall⟩
        simp only [Reducer.build, keyDistinctReduce, spec_bind, spec_guard]
        exact ⟨fun _ => ⟨fun hall => absurd hall hgroupable, fun _ => hN⟩,
          fun hnil => absurd hitems hnil⟩
    | keyWindowAggregate =>
        have hcapable : ¬∀ item ∈ passthroughItems context,
            item.dataType.getProperties.aggregatable ∧ item.dataType.getProperties.groupable := by
          intro hall
          exact haccepts ⟨hcolumns, List.forall_mem_map.mp hall⟩
        simp only [Reducer.build, keyWindowAggregateReduce, spec_bind, spec_guard]
        exact ⟨fun _ => ⟨fun hall => absurd hall hcapable, fun _ => hN⟩,
          fun hnil => absurd hitems hnil⟩
    | tagPruneDelete => exact absurd ⟨hcolumns, trivial⟩ haccepts
    | tagPruneFilter => exact absurd ⟨hcolumns, trivial⟩ haccepts
    | keyGroupAggregate => exact absurd ⟨hcolumns, trivial⟩ haccepts
    | keyQualifyDedup => exact absurd ⟨hcolumns, trivial⟩ haccepts

variable (engine scope base source stack constraints s)

/--
The reducer builds over the stack without raising, declines only tables it does not accept,
and what it builds holds the base rows.
-/
def Neutral (reducer : Reducer) : Prop :=
  Spec (reducer.build context source stack constraints) s
    (fun node _ => HoldsBase engine scope base node)
    (fun _ => ¬reducer.Accepts context.baseTable) (fun _ _ => False)

variable {engine scope base source stack constraints s}

/-- A key reducer raises where the explode draws fewer than two copies. -/
theorem not_neutral_of_single {reducer : Reducer} (hsource : HoldsBase engine scope base source)
    (hchannel : reducer.channel = .key) (haccepts : reducer.Accepts context.baseTable)
    (hfresh : Channel.key.column s ∉ context.baseTable.columnNames)
    (hpick : context.config.bigTableRowcountWeights.pick (context.draws s.drawn) = some n)
    (hcount : n < 2) : ¬Neutral engine scope base source stack constraints s reducer := by
  intro hneutral
  have hraises : Spec (reducer.build context source stack constraints) s (fun _ _ => False)
      (fun _ => False) (fun _ _ => True) := by
    apply spec_reduceKey hsource hchannel haccepts hfresh hpick
    · intro htwo
      omega
    · intro _ _
      trivial
  exact hneutral.false_of_raises hraises

/-- A source of the base table holds the rows the scope has under its name. -/
theorem holdsBase_baseTable (i : Nat) (hscope : scope (context.baseTable.getSqlName true) =
    ⟨context.baseTable.columnNames, fun _ => base.rows⟩) :
    HoldsBase engine scope base (.mk i (.baseTableSource context.baseTable) []) := by
  rw [HoldsBase, Denotes, Engine.meaning_mk, ← hscope]
  rfl

/-- Expansion is neutral but for a key reducer whose explode draws fewer than two copies. -/
theorem neutral_iff {reducer : Reducer} (hsource : HoldsBase engine scope base source)
    (hfresh : reducer.channel.column s ∉ context.baseTable.columnNames)
    (hpick : context.config.bigTableRowcountWeights.pick (context.draws s.drawn) = some n) :
    Neutral engine scope base source stack constraints s reducer ↔
      ¬reducer.Accepts context.baseTable ∨ reducer.channel = .tag ∨ 2 ≤ n := by
  constructor
  · intro hneutral
    by_contra hnot
    simp only [not_or, not_not, Nat.not_le] at hnot
    obtain ⟨haccepts, hchannel, hcount⟩ := hnot
    have hkey : reducer.channel = .key := by
      cases hcase : reducer.channel with
      | tag => exact absurd hcase hchannel
      | key => rfl
    rw [hkey] at hfresh
    exact not_neutral_of_single hsource hkey haccepts hfresh hpick hcount hneutral
  · rintro hholds
    by_cases haccepts : reducer.Accepts context.baseTable
    · cases hcase : reducer.channel with
      | tag =>
          rw [hcase] at hfresh
          exact spec_reduceTag hsource hcase haccepts hfresh hpick fun _ _ hnode => hnode
      | key =>
          rw [hcase] at hfresh hholds
          have htwo : 2 ≤ n := by
            simpa [haccepts] using hholds
          apply spec_reduceKey hsource hcase haccepts hfresh hpick
          · exact fun _ _ _ hnode => hnode
          · intro hone
            omega
    · exact spec_declined haccepts haccepts

end Reducers

section Sample

/-- An engine that takes rows and numbers them as they come. -/
noncomputable def sampleEngine : Engine Unit where
  predicate := fun _ _ => none
  raw := fun _ _ => .null
  compare := fun _ _ _ => false
  mod := fun _ modulus => modulus
  arrange := fun _ rows => rows.toList
  arrange_coe := fun _ rows => rows.coe_toList
  rank := fun _ _ place => place
  rank_injective := fun _ _ _ _ h => h
  pick := fun _ _ _ => 0

def sampleTable : Table where
  name := "t"
  columns := [{ name := "a", dataType := ⟨.integer, none, none⟩, name_nonempty := a_ne_empty }]
  name_nonempty := t_ne_empty

/-- A configuration that writes `n` copies. -/
def sampleContext (n : Nat) : EquivalenceContext where
  config := ⟨8, 0, 0, [], [], [⟨.first, 1⟩], [⟨.inner, 1⟩], [⟨.max, 1⟩], [⟨.none, 1⟩], [⟨n, 1⟩]⟩
  baseTable := sampleTable
  draws := fun _ => 0

/-- Two rows that agree. -/
def sampleRow : Row Unit := fun name => if name = "a" then .int 7 else .null

def sampleRows : BaseRows Unit sampleTable where
  rows := ([sampleRow, sampleRow] : List (Row Unit))
  supported := by
    intro row hrow name hname
    have hsame : row = sampleRow := by
      simpa using hrow
    rw [hsame]
    exact if_neg (by simpa [sampleTable, Table.columnNames] using hname)

def sampleScope : Scope Unit := fun _ => ⟨sampleTable.columnNames, fun _ => sampleRows.rows⟩

def sampleSource : EqNode := .mk 0 (.baseTableSource sampleTable) []

def sampleState : GenerationState := { created := 1, objectCounters := fun _ => 0 }

theorem column_sampleState (channel : Channel) :
    channel.column sampleState ∉ sampleTable.columnNames := by
  cases channel <;> decide

theorem neutral_iff_two_copies :
    @Neutral Unit sampleEngine sampleScope (sampleContext 2) sampleRows sampleSource
      (.insertExtras (.explode .table)) {} sampleState .keyDistinct :=
  (neutral_iff (holdsBase_baseTable 0 rfl) (column_sampleState .key) rfl).mpr
    (.inr (.inr (Nat.le_refl 2)))

theorem neutral_fails_single_copy :
    ¬@Neutral Unit sampleEngine sampleScope (sampleContext 1) sampleRows sampleSource
      (.explode .table) {} sampleState .keyDistinct := by
  apply not_neutral_of_single (holdsBase_baseTable 0 rfl) rfl _ (column_sampleState .key) rfl
    (by decide : 1 < 2)
  exact ⟨List.cons_ne_nil _ _, by decide⟩

end Sample

end EqGen.Equivalence.Expansion
