import EqGen.Equivalence.ContractPartitions

/-! The expanders hold copies of the base rows, and the reducers give the rows back. -/

namespace EqGen.Equivalence.ContractExpansions

open Classical
open EqGen.Builder.Promises
open EqGen.Core.Catalog
open EqGen.Core.Types
open EqGen.Equivalence.Ast
open EqGen.Equivalence.Builders.Base
open EqGen.Equivalence.Builders.Expansion
open EqGen.Equivalence.Context
open EqGen.Equivalence.ContractPartitions
open EqGen.Equivalence.ContractQueries
open EqGen.Equivalence.ContractSteps
open EqGen.Equivalence.Contracts
open EqGen.Equivalence.Copies
open EqGen.Equivalence.Denotations
open EqGen.Equivalence.Expansion
open EqGen.Equivalence.Factory
open EqGen.Equivalence.Names
open EqGen.Equivalence.Renamed
open EqGen.Equivalence.RowIdentities
open EqGen.Equivalence.Rows
open EqGen.Equivalence.Semantics
open EqGen.Ir.Expr hiding ExpressionNode
open EqGen.Lib.Ascent
open EqGen.Lib.Backtrack
open EqGen.Lib.Dag

variable {V : Type} {engine : Engine V} {context : EquivalenceContext}
variable {base : BaseRows V context.baseTable} {scope : Scope V}
variable {pool : List EquivalenceBuilder} {constraints : ConstraintSet} {s : GenerationState}

section Channels

variable (engine base scope) in
/-- A table of the base rows and their copies, told apart by a key. -/
def KeyCopied (key : String) (node : EqNode) : Prop :=
  ∃ held numbered, Holds engine base scope (widened context.baseTable key held) node ∧
    KeyCopies context.baseTable.columns key base.rows held numbered

variable (engine base scope) in
/-- A table of the base rows, tagged to be kept, among throwaway copies. -/
def TagCopied (tag : String) (node : EqNode) : Prop :=
  ∃ held, Holds engine base scope (widened context.baseTable tag held) node ∧
    TagCopies context.baseTable.columns tag base.rows held

variable {channel : KeySpec} {tags : TagChannel} {node : EqNode}

theorem KeyCopied.answers (h : KeyCopied engine base scope channel.column node)
    (hrewrite : constraints.columnRewrite = none) (htag : constraints.tagChannel = none)
    (hkey : constraints.keyChannel = some channel) :
    SourceAnswered engine base scope constraints node := by
  obtain ⟨held, numbered, hholds, hcopies⟩ := h
  refine ⟨_, hholds, ?_, ?_⟩
  · simp [columnsAsked, hrewrite, htag, hkey]
  · simp only [RowsAsked, htag, hkey]
    exact ⟨held, numbered, hcopies, fun _ => rfl⟩

theorem TagCopied.answers (h : TagCopied engine base scope tags.tagCol node)
    (hrewrite : constraints.columnRewrite = none) (htag : constraints.tagChannel = some tags)
    (hkey : constraints.keyChannel = none) : SourceAnswered engine base scope constraints node := by
  obtain ⟨held, hholds, hcopies⟩ := h
  refine ⟨_, hholds, ?_, ?_⟩
  · simp [columnsAsked, hrewrite, htag, hkey]
  · simp only [RowsAsked, htag]
    exact ⟨held, hcopies, fun _ => rfl⟩

theorem keyCopied_of_answered (h : SourceAnswered engine base scope constraints node)
    (hrewrite : constraints.columnRewrite = none) (htag : constraints.tagChannel = none)
    (hkey : constraints.keyChannel = some channel) :
    KeyCopied engine base scope channel.column node := by
  obtain ⟨⟨columns, rows⟩, hholds, hcolumns, hrows⟩ := h
  simp only [RowsAsked, htag, hkey] at hrows
  obtain ⟨held, numbered, hcopies, hrows⟩ := hrows
  refine ⟨held, numbered, ?_, hcopies⟩
  have hnames : columns = context.baseTable.columnNames ++ [channel.column] := by
    simpa [columnsAsked, hrewrite, htag, hkey] using hcolumns
  rwa [hnames, show rows = fun _ => held from funext hrows] at hholds

theorem tagCopied_of_answered (h : SourceAnswered engine base scope constraints node)
    (hrewrite : constraints.columnRewrite = none) (htag : constraints.tagChannel = some tags)
    (hkey : constraints.keyChannel = none) : TagCopied engine base scope tags.tagCol node := by
  obtain ⟨⟨columns, rows⟩, hholds, hcolumns, hrows⟩ := h
  simp only [RowsAsked, htag] at hrows
  obtain ⟨held, hcopies, hrows⟩ := hrows
  refine ⟨held, ?_, hcopies⟩
  have hnames : columns = context.baseTable.columnNames ++ [tags.tagCol] := by
    simpa [columnsAsked, hrewrite, htag, hkey] using hcolumns
  rwa [hnames, show rows = fun _ => held from funext hrows] at hholds

variable {recurse : BuildSubtree} (hrecurse : Answering engine base scope pool recurse)

include hrecurse

theorem leads_keyExpansion (hfresh : channel.column ∉ context.baseTable.columnNames) :
    Leads s (recurse .equivalentRelation { keyChannel := some channel }) fun child s' =>
      KeyCopied engine base scope channel.column child ∧
        ¬Taken s (refSql child) ∧ Taken s' (refSql child) := by
  have hproper : Proper context.baseTable { keyChannel := some channel } :=
    ⟨by simp, by simpa using hfresh, by simp⟩
  apply (leads_relation hrecurse hproper rfl).mono
  rintro child s' _ ⟨hanswered, hnames⟩
  exact ⟨keyCopied_of_answered hanswered rfl rfl rfl, hnames⟩

theorem leads_tagExpansion (hkeep : tags.keepValue = keep)
    (hfresh : tags.tagCol ∉ context.baseTable.columnNames) (dml : Bool) :
    Leads s (recurse .equivalentRelation { tagChannel := some tags, acceptsDml := dml })
      fun child s' => TagCopied engine base scope tags.tagCol child ∧
        ¬Taken s (refSql child) ∧ Taken s' (refSql child) := by
  have hproper : Proper context.baseTable { tagChannel := some tags, acceptsDml := dml } :=
    ⟨by simp [hkeep, hfresh], by simp, by simp⟩
  apply (leads_relation hrecurse hproper rfl).mono
  rintro child s' _ ⟨hanswered, hnames⟩
  exact ⟨tagCopied_of_answered hanswered rfl rfl rfl, hnames⟩

end Channels

section Expanders

variable {child : EqNode} {column : String} {held : Bag V}

/-- Rows inserted into the child's own table. -/
theorem leads_insertExtras (hchild : Holds engine base scope
      (widened context.baseTable column held) child)
    {query : SelectQuery} {more : Bag V}
    (hcolumns : selectColumns query (widened context.baseTable column held) =
      context.baseTable.columnNames ++ [column])
    (hrows : ∀ occasion, engine.select occasion held query = more)
    (hmore : ∀ row ∈ more, Supported (context.baseTable.columnNames ++ [column]) row) :
    Leads s (insertExtrasExpansion child (.insertQuery (refSql child)
      (queryOver (.select query) [child]))) fun node _ =>
        Holds engine base scope (widened context.baseTable column (held + more)) node ∧
          refSql node = refSql child := by
  apply leads_newNode
  intro i s' _
  refine ⟨⟨?_, hchild.signature, ?_⟩, name_exposedOf child⟩
  · exact denotes_inserted hchild.denotes i hcolumns hrows hmore
  · intro hname
    have hbase := hchild.readable ((name_exposedOf child).symm.trans hname)
    have hlength := congrArg (fun relation => relation.columns.length) hbase
    simp [baseRelation] at hlength

variable {recurse : BuildSubtree} (hrecurse : Answering engine base scope pool recurse)
variable {channel : KeySpec} {tags : TagChannel}

include hrecurse

theorem leads_keyInsertExtras (hchannel : constraints.keyChannel = some channel)
    (hfresh : channel.column ∉ context.baseTable.columnNames) :
    Leads s (keyInsertExtrasExpansion recurse constraints) fun node s' =>
      KeyCopied engine base scope channel.column node ∧
        ¬Taken s (refSql node) ∧ Taken s' (refSql node) := by
  refine Leads.bind (Q := fun asked _ => asked = channel)
    (Leads.fromOption fun asked hasked => Option.some.inj (hasked.symm.trans hchannel)) ?_
  rintro _ s₁ hle₁ rfl
  refine (leads_keyExpansion hrecurse hfresh).bind ?_
  rintro child s₂ _ ⟨⟨held, numbered, hchild, hcopies⟩, hnew, htaken⟩
  apply (leads_insertExtras hchild rfl (fun occasion => select_all engine occasion held)
    fun row hrow => hcopies.supported_held hrow).mono
  rintro node s₃ hle₃ ⟨hnode, hname⟩
  rw [hname]
  refine ⟨⟨held + held, numbered, hnode, hcopies.of_mem_iff (by simp)⟩, ?_, htaken.mono hle₃⟩
  exact fun hold => hnew (hold.mono hle₁)

theorem leads_keyExplode (hchannel : constraints.keyChannel = some channel)
    (hfresh : channel.column ∉ context.baseTable.columnNames) :
    Leads s (keyExplodeExpansion recurse context constraints) fun node s' =>
      KeyCopied engine base scope channel.column node ∧
        ¬Taken s (refSql node) ∧ Taken s' (refSql node) := by
  refine Leads.bind (Q := fun asked _ => asked = channel)
    (Leads.fromOption fun asked hasked => Option.some.inj (hasked.symm.trans hchannel)) ?_
  rintro asked s₁ hle₁ rfl
  refine (leads_materializeRowKey hrecurse hfresh).bind ?_
  rintro ⟨keyed, baseItems⟩ s₂ hle₂ ⟨-, ⟨numbered, hkeyed, hcopies, -⟩, -⟩
  refine (leads_chooseOne _).bind ?_
  intro rowcount s₃ hle₃ _
  have hparts : HoldParts engine base scope (context.baseTable.columnNames ++ [asked.column])
      (List.replicate rowcount keyed)
      (List.replicate rowcount (keyedRows asked.column numbered : Bag V)) :=
    holdParts_replicate hkeyed (fun row hrow => hcopies.supported_held hrow) rowcount
  have hsame : ∀ node ∈ List.replicate rowcount keyed, ∀ node' ∈ List.replicate rowcount keyed,
      refSql node = refSql node' → node = node' := by
    intro node hnode node' hnode' _
    rw [List.eq_of_mem_replicate hnode, List.eq_of_mem_replicate hnode']
  refine ((leads_unionParts hparts hsame).and (leads_atLeastTwo _)).bind ?_
  rintro query s₄ hle₄ ⟨hquery, htwo⟩
  apply (leads_stillTable hquery).mono
  rintro node s₅ _ ⟨hnode, hnew, htaken⟩
  rw [List.length_replicate] at htwo
  refine ⟨⟨_, numbered, hnode, hcopies.repeated (by omega)⟩, ?_, htaken⟩
  exact fun hold => hnew (hold.mono (((hle₁.trans hle₂).trans hle₃).trans hle₄))

theorem leads_tagInsertExtras (hchannel : constraints.tagChannel = some tags)
    (hkeep : tags.keepValue = keep) (hfresh : tags.tagCol ∉ context.baseTable.columnNames) :
    Leads s (tagInsertExtrasExpansion recurse context constraints) fun node s' =>
      TagCopied engine base scope tags.tagCol node ∧
        ¬Taken s (refSql node) ∧ Taken s' (refSql node) := by
  refine Leads.bind (Q := fun asked _ => asked = tags)
    (Leads.fromOption fun asked hasked => Option.some.inj (hasked.symm.trans hchannel)) ?_
  rintro asked s₁ hle₁ rfl
  refine Leads.bind (Q := fun _ s' => s₁ ≤ s') (Leads.guard fun _ => le_refl s₁) ?_
  intro _ s₂ _ hle₂
  refine (leads_tagExpansion hrecurse hkeep hfresh true).bind ?_
  rintro child s₃ _ ⟨⟨held, hchild, hcopies⟩, hnew, htaken⟩
  rw [passthroughItems_eq, throwItems_passthroughs, hkeep]
  refine Leads.mono (leads_insertExtras hchild (names_taggedItems _ asked.tagCol throwaway)
    (fun occasion => hcopies.select_thrown engine occasion)
      (supported_taggedRows base.supported throwaway)) ?_
  rintro node s₄ hle₄ ⟨hnode, hname⟩
  rw [hname]
  refine ⟨⟨_, hnode, hcopies.add_thrown fun row hrow => hrow⟩, ?_, htaken.mono hle₄⟩
  exact fun hold => hnew (hold.mono (hle₁.trans hle₂))

/-- The rows to keep, as the request for them is answered. -/
theorem leads_keptRows (hfresh : column ∉ context.baseTable.columnNames) :
    Leads s (recurse .equivalentRelation
      { columnRewrite := some (taggedItems (passthroughs context.baseTable.columns) column keep),
        acceptsDml := true }) fun kept s' =>
      Holds engine base scope
        (widened context.baseTable column (taggedRows column keep base.rows)) kept ∧
          Taken s' (refSql kept) := by
  have hproper : Proper context.baseTable
      { columnRewrite := some (taggedItems (passthroughs context.baseTable.columns) column keep),
        acceptsDml := true } := ⟨by simp, by simp, by simp⟩
  apply (leads_relation hrecurse hproper rfl).mono
  rintro kept s' _ ⟨⟨⟨columns, rows⟩, hholds, hcolumns, site, hrows, hsite⟩, -, htaken⟩
  refine ⟨?_, htaken⟩
  have hnames : columns = context.baseTable.columnNames ++ [column] :=
    hcolumns.trans (names_taggedItems _ column keep)
  have hheld : rows = fun _ => taggedRows column keep base.rows := by
    funext occasion
    exact (hrows occasion).trans (select_tagged engine _ hfresh base.supported keep)
  rwa [hnames, hheld] at hholds

theorem leads_tagExplode (hchannel : constraints.tagChannel = some tags)
    (hkeep : tags.keepValue = keep) (hfresh : tags.tagCol ∉ context.baseTable.columnNames) :
    Leads s (tagExplodeExpansion recurse context constraints) fun node s' =>
      TagCopied engine base scope tags.tagCol node ∧
        ¬Taken s (refSql node) ∧ Taken s' (refSql node) := by
  refine Leads.bind (Q := fun asked _ => asked = tags)
    (Leads.fromOption fun asked hasked => Option.some.inj (hasked.symm.trans hchannel)) ?_
  rintro asked s₁ hle₁ rfl
  refine Leads.bind (Q := fun _ s' => s₁ ≤ s') (Leads.guard fun _ => le_refl s₁) ?_
  intro _ s₂ _ hle₂
  rw [passthroughItems_eq, throwItems_passthroughs, hkeep]
  refine (leads_keptRows hrecurse hfresh).bind ?_
  rintro kept s₃ hle₃ ⟨hkept, hkeptName⟩
  set keptRows := taggedRows asked.tagCol keep base.rows with hkeptRows
  set thrownRows := taggedRows asked.tagCol throwaway base.rows with hthrownRows
  refine Leads.bind (Q := fun query _ => QueryHolds engine base scope
    (widened context.baseTable asked.tagCol thrownRows) query) (leads_selectStill hkept
      (names_taggedItems _ asked.tagCol throwaway) fun occasion =>
        select_retagged engine occasion hfresh base.supported keep throwaway) ?_
  intro query s₄ hle₄ hquery
  refine (leads_stillTable hquery).bind ?_
  rintro thrown s₅ hle₅ ⟨hthrown, hthrownName, -⟩
  refine (leads_chooseOne _).bind ?_
  intro rowcount s₆ hle₆ _
  have hle : s ≤ s₆ := ((((hle₁.trans hle₂).trans hle₃).trans hle₄).trans hle₅).trans hle₆
  show Leads s₆ (if (kept :: List.replicate (rowcount - 1) thrown).length = 1 then _ else _) _
  split
  · refine (leads_selectStill hkept rfl fun occasion =>
      select_all engine occasion keptRows).bind ?_
    intro all s₇ hle₇ hall
    apply (leads_stillTable hall).mono
    rintro node s₈ _ ⟨hnode, hnew, htaken⟩
    exact ⟨⟨_, hnode, TagCopies.kept_rows hfresh base.supported⟩,
      fun hold => hnew (hold.mono (hle.trans hle₇)), htaken⟩
  · have hne : refSql kept ≠ refSql thrown :=
      fun heq => hthrownName (heq ▸ hkeptName.mono hle₄)
    have hparts : HoldParts engine base scope (context.baseTable.columnNames ++ [asked.tagCol])
        (kept :: List.replicate (rowcount - 1) thrown)
        (keptRows :: List.replicate (rowcount - 1) thrownRows) :=
      .cons ⟨hkept, supported_taggedRows base.supported keep⟩
        (holdParts_replicate hthrown (supported_taggedRows base.supported throwaway) _)
    have hmem : ∀ node ∈ kept :: List.replicate (rowcount - 1) thrown,
        node = kept ∨ node = thrown := by
      intro node hnode
      rcases List.mem_cons.mp hnode with rfl | hnode
      · exact .inl rfl
      · exact .inr (List.eq_of_mem_replicate hnode)
    refine (leads_unionParts hparts ?_).bind ?_
    · intro node hnode node' hnode' heq
      rcases hmem node hnode with rfl | rfl <;> rcases hmem node' hnode' with rfl | rfl
      · rfl
      · exact absurd heq hne
      · exact absurd heq.symm hne
      · rfl
    · intro union s₇ hle₇ hunion
      apply (leads_stillTable hunion).mono
      rintro node s₈ _ ⟨hnode, hnew, htaken⟩
      exact ⟨⟨_, hnode, TagCopies.among hfresh base.supported _⟩,
        fun hold => hnew (hold.mono (hle.trans hle₇)), htaken⟩

end Expanders

section Reducers

variable {recurse : BuildSubtree} (hrecurse : Answering engine base scope pool recurse)
variable (hsituated : Situated context base scope)

include hrecurse hsituated

theorem leads_buildReduced (dml : Bool) :
    Leads s (buildReduced recurse context dml) fun built _ =>
      built.baseItems = passthroughs context.baseTable.columns ∧
        TagCopied engine base scope built.column built.child := by
  refine Leads.bind (Q := fun _ _ => True) (Leads.guard fun _ => trivial) ?_
  intro _ s₁ _ _
  refine (leads_coinColumn hsituated (by simp [columnStems])).bind ?_
  intro tagCol s₂ _ htag
  refine Leads.bind (leads_tagExpansion hrecurse
    (show (⟨tagCol, keep⟩ : TagChannel).keepValue = keep from rfl) htag.column dml) ?_
  rintro child s₃ _ ⟨hchild, -⟩
  exact Leads.pure ⟨rfl, hchild⟩

theorem leads_buildKeyed :
    Leads s (buildKeyed recurse context) fun built _ =>
      built.baseItems = passthroughs context.baseTable.columns ∧
        KeyCopied engine base scope built.column built.child := by
  refine Leads.bind (Q := fun _ _ => True) (Leads.guard fun _ => trivial) ?_
  intro _ s₁ _ _
  refine (leads_coinColumn hsituated (by simp [columnStems])).bind ?_
  intro keyCol s₂ _ hkey
  refine Leads.bind (leads_keyExpansion hrecurse
    (show (⟨keyCol, .identity, false⟩ : KeySpec).column ∉ _ from hkey.column)) ?_
  rintro child s₃ _ ⟨hchild, -⟩
  exact Leads.pure ⟨rfl, hchild⟩

variable (hexposed : ∀ name ∈ constraints.exposedName, name ≠ context.baseTable.getSqlName true)

include hexposed

theorem leads_tagPruneDeleteReduce :
    Leads s (tagPruneDeleteReduce recurse context constraints)
      (Restores engine base scope constraints s) := by
  refine (leads_buildReduced hrecurse hsituated true).bind ?_
  rintro ⟨child, baseItems, tagCol⟩ s₁ hle₁ ⟨rfl, held, hchild, hcopies⟩
  refine (leads_exposedOrMinted (.inl rfl) hexposed).bind ?_
  rintro name s₂ _ ⟨hname, hfresh⟩
  apply leads_newNode
  intro i s₃ hle₃
  refine ⟨⟨?_, ?_, fun heq => absurd heq hname⟩, ?_⟩
  · exact denotes_pruned hchild.denotes hcopies i name
  · exact (names_itemSignature _).trans (names_passthroughs _)
  · intro hnone
    obtain ⟨hnew, htaken⟩ := hfresh hnone
    exact ⟨fun hold => hnew (hold.mono hle₁), htaken.mono hle₃⟩

omit hrecurse hsituated in
/-- A view over a relation that is the same whenever it is read. -/
theorem leads_restoringView {source : EqNode} {columns : List String} {held : Bag V}
    {query : SelectQuery}
    (hsource : Holds engine base scope ⟨columns, fun _ => held⟩ source)
    (hcolumns : selectColumns query (⟨columns, fun _ => held⟩ : Relation V) =
      context.baseTable.columnNames)
    (hrows : ∀ occasion, engine.select occasion held query = base.rows) :
    Leads s (selectQuery source query >>= fun body =>
      createView context body constraints.exposedName)
        (Restores engine base scope constraints s) := by
  refine (leads_selectStill hsource hcolumns hrows).bind ?_
  intro body s₁ hle₁ hbody
  apply (leads_createView hbody hexposed).mono
  rintro node s₂ _ ⟨hholds, hfresh⟩
  have hnode : Restores engine base scope constraints s₁ node s₂ := ⟨hholds, hfresh⟩
  exact hnode.before hle₁

theorem leads_tagPruneFilterReduce :
    Leads s (tagPruneFilterReduce recurse context constraints)
      (Restores engine base scope constraints s) := by
  refine (leads_buildReduced hrecurse hsituated false).bind ?_
  rintro ⟨child, baseItems, tagCol⟩ s₁ hle₁ ⟨rfl, held, hchild, hcopies⟩
  apply (leads_restoringView hexposed hchild _ _).mono
  · exact fun node s₂ _ hnode => hnode.before hle₁
  · exact names_passthroughs _
  · exact fun occasion => hcopies.select_kept engine occasion

omit hrecurse hsituated in
/-- A view that leaves one of each copy, and the view that drops the key from it. -/
theorem leads_collapse {child : EqNode} {key : String} {query : SelectQuery} {held : Bag V}
    {numbered : List (Row V × Int)}
    (hchild : Holds engine base scope (widened context.baseTable key held) child)
    (hcopies : KeyCopies context.baseTable.columns key base.rows held numbered)
    {columns : List String}
    (hcolumns : selectColumns query (widened context.baseTable key held) = columns)
    (hquery : ∀ occasion,
      engine.select occasion held query = (keyedRows key numbered : Bag V)) :
    Leads s (collapse context ⟨child, passthroughs context.baseTable.columns, key⟩ query
      constraints) (Restores engine base scope constraints s) := by
  refine (leads_selectStill hchild hcolumns hquery).bind ?_
  intro body s₁ hle₁ hbody
  refine (leads_createView hbody (by simp)).bind ?_
  rintro collapsed s₂ hle₂ ⟨hcollapsed, -⟩
  apply (leads_restoringView hexposed hcollapsed _ _).mono
  · exact fun node s₃ _ hnode => hnode.before (hle₁.trans hle₂)
  · exact names_passthroughs _
  · intro occasion
    exact hcopies.select_keyedRows engine occasion

theorem leads_keyDistinctReduce :
    Leads s (keyDistinctReduce recurse context constraints)
      (Restores engine base scope constraints s) := by
  refine Leads.bind (Q := fun _ s' => s ≤ s') (Leads.guard fun _ => le_refl s) ?_
  intro _ s₁ _ hle₁
  refine Leads.bind (Q := fun _ s' => s ≤ s') (Leads.guard fun _ => hle₁) ?_
  intro _ s₂ _ hle₂
  refine (leads_buildKeyed hrecurse hsituated).bind ?_
  rintro ⟨child, baseItems, key⟩ s₃ hle₃ ⟨rfl, held, numbered, hchild, hcopies⟩
  apply (leads_collapse hexposed hchild hcopies rfl _).mono
  · exact fun node s₄ _ hnode => hnode.before (hle₂.trans hle₃)
  · intro occasion
    exact hcopies.select_distinct engine occasion
      (listsRows_passthroughs engine occasion rfl rfl rfl rfl) rfl rfl

theorem leads_keyGroupAggregateReduce :
    Leads s (keyGroupAggregateReduce recurse context constraints)
      (Restores engine base scope constraints s) := by
  refine (leads_buildKeyed hrecurse hsituated).bind ?_
  rintro ⟨child, baseItems, key⟩ s₁ hle₁ ⟨rfl, held, numbered, hchild, hcopies⟩
  apply (leads_restoringView hexposed hchild _ _).mono
  · exact fun node s₂ _ hnode => hnode.before hle₁
  · exact names_anyValueItems context.baseTable.columns
  · intro occasion
    exact hcopies.select_groupBy engine occasion

theorem leads_keyWindowAggregateReduce :
    Leads s (keyWindowAggregateReduce recurse context constraints)
      (Restores engine base scope constraints s) := by
  refine Leads.bind (Q := fun _ s' => s ≤ s') (Leads.guard fun _ => le_refl s) ?_
  intro _ s₁ _ hle₁
  refine Leads.bind (Q := fun _ s' => s ≤ s') (Leads.guard fun _ => hle₁) ?_
  intro _ s₂ _ hle₂
  refine (leads_buildKeyed hrecurse hsituated).bind ?_
  rintro ⟨child, baseItems, key⟩ s₃ hle₃ ⟨rfl, held, numbered, hchild, hcopies⟩
  apply (leads_collapse hexposed hchild hcopies rfl _).mono
  · exact fun node s₄ _ hnode => hnode.before (hle₂.trans hle₃)
  · intro occasion
    exact hcopies.select_distinct engine occasion
      (hcopies.listsRows_windowed engine occasion rfl rfl rfl rfl) rfl rfl

theorem leads_keyQualifyDedupReduce :
    Leads s (keyQualifyDedupReduce recurse context constraints)
      (Restores engine base scope constraints s) := by
  refine (leads_buildKeyed hrecurse hsituated).bind ?_
  rintro ⟨child, baseItems, key⟩ s₁ hle₁ ⟨rfl, held, numbered, hchild, hcopies⟩
  apply (leads_collapse hexposed hchild hcopies rfl _).mono
  · exact fun node s₂ _ hnode => hnode.before hle₁
  · intro occasion
    exact hcopies.select_qualify engine occasion
      (listsRows_passthroughs engine occasion rfl rfl rfl rfl) rfl rfl

end Reducers

section Builders

theorem keeps_keyExpansionBuilder {name : String} {relationClass : RelationClass}
    {build : BuildSubtree → ConstraintSet → Gen EqNode}
    (h : ∀ recurse constraints channel s, Answering engine base scope pool recurse →
      constraints.keyChannel = some channel → channel.column ∉ context.baseTable.columnNames →
        Leads s (build recurse constraints) fun node s' =>
          KeyCopied engine base scope channel.column node ∧
            ¬Taken s (refSql node) ∧ Taken s' (refSql node)) {hbuild} :
    Keeps engine base scope pool (expansionBuilder name relationClass .keyChannel build hbuild) := by
  intro recurse hrecurse constraints hproper htypes hrequires s
  have hasked : constraintTypes constraints ⊆ [.keyChannel, .acceptsDml] := htypes
  have hasks := (mem_constraintTypes .keyChannel).mp (hrequires List.mem_cons_self)
  obtain ⟨channel, hchannel⟩ := Option.isSome_iff_exists.mp hasks
  apply (h recurse constraints channel s hrecurse hchannel (hproper.key channel hchannel)).mono
  rintro node s' _ ⟨hcopied, hnames⟩
  exact ⟨hcopied.answers (columnRewrite_eq_none hasked (by decide))
    (tagChannel_eq_none hasked (by decide)) hchannel, fun _ => hnames⟩

theorem keeps_tagExpansionBuilder {name : String} {relationClass : RelationClass}
    {build : BuildSubtree → ConstraintSet → Gen EqNode}
    (h : ∀ recurse constraints tags s, Answering engine base scope pool recurse →
      constraints.tagChannel = some tags → tags.keepValue = keep →
        tags.tagCol ∉ context.baseTable.columnNames →
          Leads s (build recurse constraints) fun node s' =>
            TagCopied engine base scope tags.tagCol node ∧
              ¬Taken s (refSql node) ∧ Taken s' (refSql node)) {hbuild} :
    Keeps engine base scope pool (expansionBuilder name relationClass .tagChannel build hbuild) := by
  intro recurse hrecurse constraints hproper htypes hrequires s
  have hasked : constraintTypes constraints ⊆ [.tagChannel, .acceptsDml] := htypes
  have hasks := (mem_constraintTypes .tagChannel).mp (hrequires List.mem_cons_self)
  obtain ⟨tags, htags⟩ := Option.isSome_iff_exists.mp hasks
  obtain ⟨hkeep, hfresh⟩ := hproper.tag tags htags
  apply (h recurse constraints tags s hrecurse htags hkeep hfresh).mono
  rintro node s' _ ⟨hcopied, hnames⟩
  exact ⟨hcopied.answers (columnRewrite_eq_none hasked (by decide)) htags
    (keyChannel_eq_none hasked (by decide)), fun _ => hnames⟩

theorem keeps_reduceBuilder {name : String} {relationClass : RelationClass}
    {build : BuildSubtree → ConstraintSet → Gen EqNode}
    (h : ∀ recurse constraints s, Answering engine base scope pool recurse →
      (∀ name ∈ constraints.exposedName, name ≠ context.baseTable.getSqlName true) →
        Leads s (build recurse constraints) (Restores engine base scope constraints s)) {hbuild} :
    Keeps engine base scope pool (reduceBuilder name relationClass build hbuild) :=
  keeps_restoring rfl
    (show [ConstraintType.exposedName] ⊆ [ConstraintType.acceptsDml, .exposedName] by decide) h

theorem keeps_expansionBuilders (hsituated : Situated context base scope) :
    ∀ b ∈ expansionBuilders context, Keeps engine base scope pool b := by
  simp only [expansionBuilders, List.forall_mem_cons]
  refine ⟨?_, ?_, ?_, ?_, ?_, ?_, ?_, ?_, ?_, ?_, List.forall_mem_nil _⟩
  · exact keeps_reduceBuilder fun _ _ _ h => leads_keyDistinctReduce h hsituated
  · exact keeps_reduceBuilder fun _ _ _ h => leads_keyGroupAggregateReduce h hsituated
  · exact keeps_reduceBuilder fun _ _ _ h => leads_keyWindowAggregateReduce h hsituated
  · exact keeps_reduceBuilder fun _ _ _ h => leads_keyQualifyDedupReduce h hsituated
  · exact keeps_keyExpansionBuilder fun _ _ _ _ h => leads_keyExplode h
  · exact keeps_keyExpansionBuilder fun _ _ _ _ h => leads_keyInsertExtras h
  · exact keeps_reduceBuilder fun _ _ _ h => leads_tagPruneDeleteReduce h hsituated
  · exact keeps_reduceBuilder fun _ _ _ h => leads_tagPruneFilterReduce h hsituated
  · exact keeps_tagExpansionBuilder fun _ _ _ _ h => leads_tagExplode h
  · exact keeps_tagExpansionBuilder fun _ _ _ _ h => leads_tagInsertExtras h

end Builders

end EqGen.Equivalence.ContractExpansions
