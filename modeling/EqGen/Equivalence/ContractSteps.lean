import EqGen.Equivalence.ContractNodes

/-! The steps of a builder: what comes of them where the requests are answered as promised. -/

namespace EqGen.Equivalence.ContractSteps

open Classical
open EqGen.Builder.Context
open EqGen.Builder.Promises
open EqGen.Core.Catalog
open EqGen.Equivalence.Ast
open EqGen.Equivalence.Builders.Base
open EqGen.Equivalence.Builders.Creates
open EqGen.Equivalence.Context
open EqGen.Equivalence.ContractNodes
open EqGen.Equivalence.Contracts
open EqGen.Equivalence.Copies
open EqGen.Equivalence.Denotations
open EqGen.Equivalence.Expansion
open EqGen.Equivalence.Factory
open EqGen.Equivalence.Forks
open EqGen.Equivalence.Names
open EqGen.Equivalence.Renamed
open EqGen.Equivalence.Rows
open EqGen.Equivalence.Semantics
open EqGen.Ir.Expr hiding ExpressionNode
open EqGen.Lib.Ascent
open EqGen.Lib.Backtrack
open EqGen.Lib.Dag

variable {V : Type} {engine : Engine V} {context : EquivalenceContext}
variable {base : BaseRows V context.baseTable} {scope : Scope V}
variable {s : GenerationState}

/-- `JoinTypeChoice` -/
def joinTypeChoices : List JoinType := [.inner, .leftOuter, .rightOuter, .fullOuter]

variable (context base scope) in
/--
The base table is in scope, none of its columns has a name the portable builders mint, and the
settings offer no join but those of `JoinTypeChoice`.
-/
structure Situated : Prop where
  reads : scope (context.baseTable.getSqlName true) = baseRelation base
  columns : ∀ column ∈ context.baseTable.columns, Unminted columnStems column.name
  joins : ∀ option ∈ context.config.joinTypeWeights, option.value ∈ joinTypeChoices

section Names

/-- A name of this generation that nothing had before. -/
structure Coined (s : GenerationState) (name : String) (s' : GenerationState) : Prop where
  new : ¬Taken s name
  taken : Taken s' name

/-- A column that nothing had before, also not the base table. -/
structure CoinedColumn (context : EquivalenceContext) (s : GenerationState) (name : String)
    (s' : GenerationState) : Prop extends Coined s name s' where
  column : name ∉ context.baseTable.columnNames

theorem leads_generateObjectName (stem : String) :
    Leads s (generateObjectName stem) fun name s' =>
      Coined s name s' ∧ ∃ n, name = numbered stem n := by
  unfold Leads
  apply spec_generateObjectName
  rintro name s' hgrows - hnew htaken rfl
  exact ⟨hgrows, ⟨hnew, htaken⟩, _, rfl⟩

theorem leads_coinColumn (hsituated : Situated context base scope) {stem : String}
    (hstem : stem ∈ columnStems) :
    Leads s (generateObjectName stem) fun name s' => CoinedColumn context s name s' := by
  apply (leads_generateObjectName stem).mono
  rintro _ s' _ ⟨hcoined, n, rfl⟩
  refine ⟨hcoined, ?_⟩
  intro hcolumn
  obtain ⟨column, hcolumn, heq⟩ := List.mem_map.mp hcolumn
  exact hsituated.columns column hcolumn stem hstem n heq

/-- An object of its own is not the base table. -/
theorem leads_mint {kind : String} (hkind : kind = "view" ∨ kind = "table") :
    Leads s (mint context kind) fun name s' =>
      Coined s name s' ∧ name ≠ context.baseTable.getSqlName true := by
  apply (leads_generateObjectName _).mono
  rintro _ s' _ ⟨hcoined, n, rfl⟩
  refine ⟨hcoined, fun heq => unminted_getSqlName context.baseTable _ ?_ n heq.symm⟩
  exact mem_objectStems hkind

theorem leads_exposedOrMinted {kind : String} (hkind : kind = "view" ∨ kind = "table")
    {exposedName : Option String}
    (hexposed : ∀ name ∈ exposedName, name ≠ context.baseTable.getSqlName true) :
    Leads s (exposedOrMinted context kind exposedName) fun name s' =>
      name ≠ context.baseTable.getSqlName true ∧
        (exposedName = none → ¬Taken s name ∧ Taken s' name) := by
  cases exposedName with
  | none => exact (leads_mint hkind).mono fun name s' _ h => ⟨h.2, fun _ => ⟨h.1.new, h.1.taken⟩⟩
  | some exposed =>
      by_cases hempty : exposed = ""
      · simp only [exposedOrMinted, if_pos hempty]
        exact (leads_mint hkind).mono fun name s' _ h => ⟨h.2, fun hnone => by cases hnone⟩
      · simp only [exposedOrMinted, if_neg hempty]
        exact Leads.pure ⟨hexposed exposed rfl, fun hnone => by cases hnone⟩

end Names

section Choices

variable {α : Type}

theorem leads_draw : Leads s (draw context) fun _ _ => True :=
  Leads.step rfl (le_refl s.objectCounters) trivial

theorem leads_noteOrigin (origin : String) : Leads s (noteOrigin origin) fun _ _ => True :=
  Leads.step rfl (le_refl s.objectCounters) trivial

theorem leads_askPredicate (source : PredicateSource) :
    Leads s (askPredicate context source) fun _ _ => True :=
  Leads.step rfl (le_refl s.objectCounters) trivial

theorem leads_chooseOne (choices : Choices α) :
    Leads s (chooseOne context choices) fun value _ => ∃ option ∈ choices, option.value = value := by
  refine Leads.bind (Q := fun _ _ => True) (Leads.require fun _ => trivial) ?_
  intro _ s₁ _ _
  refine Leads.bind (Q := fun _ _ => True) (Leads.require fun _ => trivial) ?_
  intro _ s₂ _ _
  refine leads_draw.bind ?_
  intro drawn s₃ _ _
  cases hpick : choices.pick drawn with
  | none => exact Leads.raise _
  | some value =>
      obtain ⟨option, hoption, rfl⟩ := Option.map_eq_some_iff.mp hpick
      have hmem := List.mem_of_getElem? hoption
      exact Leads.pure ⟨option, (List.mem_filter.mp hmem).1, rfl⟩

theorem leads_randomChoice (items : List α) :
    Leads s (randomChoice context items) fun item _ => item ∈ items := by
  refine leads_draw.bind ?_
  intro drawn s₁ _ _
  cases hitem : items[drawn % items.length]? with
  | none => exact Leads.raise _
  | some item => exact Leads.pure (List.mem_of_getElem? hitem)

theorem leads_selectKey (candidates : List α) :
    Leads s (selectKey context candidates) fun key _ => key ∈ candidates := by
  refine (leads_chooseOne _).bind ?_
  intro strategy s₁ _ _
  split
  · exact leads_randomChoice candidates
  · cases candidates with
    | nil => exact Leads.raise _
    | cons first rest => exact Leads.pure List.mem_cons_self

theorem leads_pickIntegerKey : Leads s (pickIntegerKey context) fun _ _ => True := by
  unfold pickIntegerKey
  cases integerColumns context with
  | nil => exact Leads.pure trivial
  | cons first rest =>
      refine (leads_selectKey (first :: rest)).bind ?_
      intro column s₁ _ _
      exact Leads.pure trivial

theorem leads_generatedPredicate : Leads s (generatedPredicate context) fun generated _ =>
    ∀ predicate ∈ generated, ∃ text, predicate = .generatedPredicate text := by
  unfold generatedPredicate
  cases context.predicateSource with
  | none => exact (leads_noteOrigin _).bind fun _ _ _ _ => Leads.pure (by simp)
  | some source =>
      refine (leads_askPredicate source).bind ?_
      intro answer s₁ _ _
      cases answer with
      | none => exact (leads_noteOrigin _).bind fun _ _ _ _ => Leads.pure (by simp)
      | some text =>
          show Leads s₁ (if text = "" then _ else _) _
          split
          · exact (leads_noteOrigin _).bind fun _ _ _ _ => Leads.pure (by simp)
          · refine (leads_noteOrigin _).bind ?_
            intro _ s₂ _ _
            refine Leads.bind (Q := fun predicate _ => predicate = .generatedPredicate text) ?_ ?_
            · exact Leads.bind (Q := fun _ _ => True) (Leads.require fun _ => trivial)
                fun _ _ _ _ => Leads.pure rfl
            · rintro _ s₃ _ rfl
              refine Leads.pure ?_
              rintro _ ⟨rfl⟩
              exact ⟨text, rfl⟩

end Choices

section Nodes

theorem leads_newNode {label : Label} {inputs : List EqNode} {Q : EqNode → GenerationState → Prop}
    (h : ∀ i s', s ≤ s' → Q (.mk i label inputs) s') : Leads s (newNode label inputs) Q := by
  unfold Leads
  apply spec_newNode
  intro i s' hgrows _
  exact ⟨hgrows, h i s' hgrows⟩

variable {source query left right : EqNode} {relation leftRelation rightRelation : Relation V}

theorem leads_selectQuery (h : Holds engine base scope relation source) (select : SelectQuery) :
    Leads s (selectQuery source select) fun node _ => QueryHolds engine base scope
      ⟨selectColumns select relation,
        fun occasion => engine.select occasion (relation.rows (.source 0 occasion)) select⟩
      node := by
  apply leads_newNode
  intro i s' _
  apply (sources_singleton h).queryHolds i
  · exact relation_select engine scope h.denotes i select
  · show (queryOver (.select select) [source]).getSignature.names = selectColumns select relation
    unfold selectColumns
    cases hprojection : select.projection with
    | none =>
        simp only [Query.getSignature, queryOver, hprojection]
        exact h.signature
    | some items =>
        simp only [Query.getSignature, queryOver, hprojection]
        exact names_itemSignature items

/-- A query that reads one source row by row, with its columns. -/
theorem leads_readThrough (h : Holds engine base scope relation source) {shape : QueryShape}
    {f : Bag V → Bag V}
    (hcolumns : ∀ {sources : Scope V}, (sources (refSql source)).columns = relation.columns →
      sources.columns (queryOver shape [source]) = relation.columns)
    (hsignature : (queryOver shape [source]).getSignature.names = relation.columns)
    (hrows : ∀ {sources : Scope V} occasion, engine.query sources (queryOver shape [source])
      occasion = f (sources.readSource occasion (sourceRef source, 0))) :
    Leads s (newQuery shape [source]) fun node _ => QueryHolds engine base scope
      ⟨relation.columns, fun occasion => f (relation.rows (.source 0 occasion))⟩ node := by
  have hsources := sources_singleton h
  apply leads_newNode
  intro i s' _
  apply hsources.queryHolds i
  · rw [relationOf_query, hcolumns (by rw [hsources.scopeFrom_eq List.mem_cons_self])]
    congr 1
    funext occasion
    rw [hrows, hsources.readSource List.mem_cons_self]
  · exact hsignature

theorem leads_joinQuery (hleft : Holds engine base scope leftRelation left)
    (hright : Holds engine base scope rightRelation right) (hne : refSql left ≠ refSql right)
    (join : JoinQuery) :
    Leads s (newQuery (.join join) [left, right]) fun node _ => QueryHolds engine base scope
      ⟨join.projection.map ProjectionItem.name, fun occasion =>
        engine.join join (leftRelation.rows (.source 0 occasion))
          (rightRelation.rows (.source 1 occasion))⟩ node := by
  have hpair : Sources engine base scope [left, right] (relationOf engine scope) := by
    apply sources_pair _ _ hne
    · rwa [hleft.relationOf_eq]
    · rwa [hright.relationOf_eq]
  apply leads_newNode
  intro i s' _
  apply hpair.queryHolds i
  · exact relation_join engine scope hleft.denotes hright.denotes hne i join
  · exact names_itemSignature join.projection

/-- What an object is once it is created: a stored one is read as it was then. -/
def createdAs (isStored : Bool) (relation : Relation V) (site : Occasion) : Relation V :=
  if isStored then written relation site else relation

theorem columns_createdAs (isStored : Bool) (relation : Relation V) (site : Occasion) :
    (createdAs isStored relation site).columns = relation.columns := by
  cases isStored <;> rfl

theorem leads_createAsSelect (h : QueryHolds engine base scope relation query)
    {relationClass : RelationClass} {kind : ObjectKind} {keyword label : String}
    (hlabel : label = "view" ∨ label = "table") {exposedName : Option String}
    (hexposed : ∀ name ∈ exposedName, name ≠ context.baseTable.getSqlName true) :
    Leads s (createAsSelect context relationClass kind keyword label query exposedName)
      fun node s' =>
        (∃ site, Holds engine base scope
          (createdAs (!(kind = .view || kind = .temporaryView || kind = .materializedView) ||
            keyword = "MATERIALIZED VIEW") relation site) node) ∧
        (exposedName = none → ¬Taken s (refSql node) ∧ Taken s' (refSql node)) := by
  obtain ⟨⟨j, body, inputs, rfl⟩, rfl, hsignature, hreadable⟩ := h
  refine (leads_exposedOrMinted hlabel hexposed).bind ?_
  rintro name s₁ _ ⟨hname, hfresh⟩
  apply leads_newNode
  intro i s₂ hle
  refine ⟨⟨.statement i 0, ?_⟩, ?_⟩
  · refine ⟨?_, ?_, fun heq => absurd heq hname⟩
    · refine (denotes_createNode engine scope i j relationClass kind
        ⟨kind = .view || kind = .temporaryView || kind = .materializedView, name, keyword, body⟩
        inputs).trans ?_
      rw [relationOf_query]
      unfold createdAs Engine.created stored
      split <;> rfl
    · rw [columns_createdAs]
      exact hsignature
  · intro hnone
    exact ⟨(hfresh hnone).1, (hfresh hnone).2.mono hle⟩

variable {exposedName : Option String}

/-- A view is the relation of its query. -/
theorem leads_createView (h : QueryHolds engine base scope relation query)
    (hexposed : ∀ name ∈ exposedName, name ≠ context.baseTable.getSqlName true) :
    Leads s (createView context query exposedName) fun node s' =>
      Holds engine base scope relation node ∧
        (exposedName = none → ¬Taken s (refSql node) ∧ Taken s' (refSql node)) := by
  apply (leads_createAsSelect h (.inl rfl) hexposed).mono
  rintro node s' _ ⟨⟨site, hholds⟩, hfresh⟩
  exact ⟨hholds, hfresh⟩

theorem leads_createTemporaryView (h : QueryHolds engine base scope relation query)
    (hexposed : ∀ name ∈ exposedName, name ≠ context.baseTable.getSqlName true) :
    Leads s (createTemporaryView context query exposedName) fun node s' =>
      Holds engine base scope relation node ∧
        (exposedName = none → ¬Taken s (refSql node) ∧ Taken s' (refSql node)) := by
  apply (leads_createAsSelect h (.inl rfl) hexposed).mono
  rintro node s' _ ⟨⟨site, hholds⟩, hfresh⟩
  exact ⟨hholds, hfresh⟩

/-- A table holds what its query returned once. -/
theorem leads_createTable (h : QueryHolds engine base scope relation query)
    (hexposed : ∀ name ∈ exposedName, name ≠ context.baseTable.getSqlName true) :
    Leads s (createTable context query exposedName) fun node s' =>
      (∃ site, Holds engine base scope (written relation site) node) ∧
        (exposedName = none → ¬Taken s (refSql node) ∧ Taken s' (refSql node)) :=
  leads_createAsSelect h (.inr rfl) hexposed

theorem leads_createTemporaryTable (h : QueryHolds engine base scope relation query)
    (hexposed : ∀ name ∈ exposedName, name ≠ context.baseTable.getSqlName true) :
    Leads s (createTemporaryTable context query exposedName) fun node s' =>
      (∃ site, Holds engine base scope (written relation site) node) ∧
        (exposedName = none → ¬Taken s (refSql node) ∧ Taken s' (refSql node)) :=
  leads_createAsSelect h (.inr rfl) hexposed

theorem leads_createMaterializedView (h : QueryHolds engine base scope relation query)
    (hexposed : ∀ name ∈ exposedName, name ≠ context.baseTable.getSqlName true) :
    Leads s (createMaterializedView context query exposedName) fun node s' =>
      (∃ site, Holds engine base scope (written relation site) node) ∧
        (exposedName = none → ¬Taken s (refSql node) ∧ Taken s' (refSql node)) :=
  leads_createAsSelect h (.inl rfl) hexposed

/-- A table of rows that are the same whenever they are read. -/
theorem leads_stillTable {columns : List String} {rows : Bag V}
    (h : QueryHolds engine base scope ⟨columns, fun _ => rows⟩ query) :
    Leads s (createTable context query none) fun node s' =>
      Holds engine base scope ⟨columns, fun _ => rows⟩ node ∧
        ¬Taken s (refSql node) ∧ Taken s' (refSql node) := by
  apply (leads_createTable h (by simp)).mono
  rintro node s' _ ⟨⟨site, hholds⟩, hfresh⟩
  exact ⟨hholds, hfresh rfl⟩

/-- `UNION ALL` of relations with the same columns. -/
theorem leads_unionAllQuery {branches : List EqNode} {columns : List String}
    {held : EqNode → Bag V} (h : Branches engine base scope branches columns held) :
    Leads s (unionAllQuery branches) fun node _ =>
      QueryHolds engine base scope ⟨columns, fun _ => (branches.map held).sum⟩ node := by
  refine Leads.bind (Q := fun _ _ => 2 ≤ branches.length) (Leads.require fun htwo => htwo) ?_
  intro _ s₁ _ htwo
  apply leads_newNode
  intro i s₂ _
  exact h.unionAll (List.ne_nil_of_length_pos (by omega)) i

theorem leads_atLeastTwo (branches : List EqNode) :
    Leads s (unionAllQuery branches) fun _ _ => 2 ≤ branches.length :=
  Leads.bind (Leads.require fun htwo => htwo) fun _ _ _ htwo => leads_newNode fun _ _ _ => htwo

end Nodes

section Requests

variable {pool : List EquivalenceBuilder} {recurse : BuildSubtree} {constraints : ConstraintSet}

/-- The base rows that pass a filter. -/
noncomputable def passing (engine : Engine V) {table : Table} (base : BaseRows V table)
    (predicate : Option ExpressionNode) : Bag V :=
  base.rows.filter fun row => engine.keeps (rowSight row) predicate

@[simp]
theorem passing_none : passing engine base none = base.rows := by
  simp [passing]

theorem passing_nothing : passing engine base (some nothing) = 0 := by
  unfold passing
  rw [Multiset.filter_eq_nil]
  intro row _
  simp [nothing, eq, intLit, Engine.eval, Engine.compareValues]

/-- The constraints change no columns. -/
structure Plain (constraints : ConstraintSet) : Prop where
  rewrite : constraints.columnRewrite = none
  tag : constraints.tagChannel = none
  key : constraints.keyChannel = none

theorem Plain.fits (hplain : Plain constraints) : Fits engine base constraints
    ⟨context.baseTable.columnNames, fun _ => passing engine base constraints.rowFilter⟩ where
  columns := by
    simp [columnsAsked, hplain.rewrite, hplain.tag, hplain.key]
  rows := by
    simp only [RowsAsked, rowsAsked, hplain.rewrite, hplain.tag, hplain.key]
    exact ⟨fun _ => .read 0, fun _ => rfl, fun _ _ _ => rfl⟩

theorem Plain.eq_of_fits (hplain : Plain constraints) {relation : Relation V}
    (h : Fits engine base constraints relation) : relation =
      ⟨context.baseTable.columnNames, fun _ => passing engine base constraints.rowFilter⟩ := by
  obtain ⟨hcolumns, hrows⟩ := h
  simp only [columnsAsked, hplain.rewrite, hplain.tag, hplain.key, Option.map_none,
    Option.toList_none, List.append_nil] at hcolumns
  simp only [RowsAsked, rowsAsked, hplain.rewrite, hplain.tag, hplain.key] at hrows
  obtain ⟨site, hrows, -⟩ := hrows
  cases relation with
  | mk columns rows =>
      obtain rfl : columns = context.baseTable.columnNames := hcolumns
      congr 1
      funext occasion
      exact hrows occasion

theorem Plain.proper (hplain : Plain constraints) (hexposed : constraints.exposedName = none) :
    Proper context.baseTable constraints where
  tag := by
    simp [hplain.tag]
  key := by
    simp [hplain.key]
  exposed := by
    simp [hexposed]

variable (hrecurse : Answers (factoryOf context pool) (contract engine base scope) recurse)

include hrecurse

theorem leads_query (hproper : Proper context.baseTable constraints) :
    Leads s (recurse .queryNode constraints) fun node _ =>
      QueryAnswered engine base scope constraints node :=
  (hrecurse .queryNode constraints hproper s).mono fun _ _ _ h => served_query h

theorem leads_relation (hproper : Proper context.baseTable constraints)
    (hexposed : constraints.exposedName = none) :
    Leads s (recurse .equivalentRelation constraints) fun node s' =>
      SourceAnswered engine base scope constraints node ∧
        ¬Taken s (refSql node) ∧ Taken s' (refSql node) := by
  apply (hrecurse .equivalentRelation constraints hproper s).mono
  intro node s' _ h
  obtain ⟨hsource, hfresh⟩ := served_relation h
  exact ⟨hsource, hfresh hexposed⟩

/-- The base rows that pass a filter, under the name of a relation of their own. -/
theorem leads_passing (hplain : Plain constraints) (hexposed : constraints.exposedName = none) :
    Leads s (recurse .equivalentRelation constraints) fun node s' =>
      Holds engine base scope
        ⟨context.baseTable.columnNames, fun _ => passing engine base constraints.rowFilter⟩ node ∧
        ¬Taken s (refSql node) ∧ Taken s' (refSql node) := by
  apply (leads_relation hrecurse (hplain.proper hexposed) hexposed).mono
  rintro node s' _ ⟨⟨relation, hholds, hfits⟩, hfresh⟩
  rw [hplain.eq_of_fits hfits] at hholds
  exact ⟨hholds, hfresh⟩

/-- Any source of the base rows. -/
theorem leads_dispatchSource : Leads s (dispatchSource recurse constraints) fun node _ =>
    Holds engine base scope (baseRelation base) node := by
  have hplain : Plain { singleSource := constraints.singleSource } := ⟨rfl, rfl, rfl⟩
  apply (hrecurse .equivalentSource { singleSource := constraints.singleSource }
    (hplain.proper rfl) s).mono
  intro node s' _ h
  obtain ⟨relation, hholds, hfits⟩ := served_source h
  rw [hplain.eq_of_fits hfits, passing_none] at hholds
  exact hholds

/-- The base rows as a query. -/
theorem leads_baseQuery : Leads s (recurse .queryNode {}) fun node _ =>
    QueryHolds engine base scope (baseRelation base) node := by
  have hplain : Plain {} := ⟨rfl, rfl, rfl⟩
  apply (leads_query hrecurse (hplain.proper rfl)).mono
  rintro node s' _ ⟨relation, hholds, hfits⟩
  rw [hplain.eq_of_fits hfits, passing_none] at hholds
  exact hholds

/-- All base rows and those that pass a filter, under two names. -/
theorem leads_bothSides (hplain : Plain constraints) (hexposed : constraints.exposedName = none) :
    Leads s (bothSides recurse constraints) fun sides _ =>
      Holds engine base scope (baseRelation base) sides.1 ∧
        Holds engine base scope ⟨context.baseTable.columnNames,
          fun _ => passing engine base constraints.rowFilter⟩ sides.2 ∧
        refSql sides.1 ≠ refSql sides.2 := by
  refine Leads.bind (Q := fun left s' => ∀ node ∈ left,
    Holds engine base scope (baseRelation base) node ∧ Taken s' (refSql node))
    (Leads.optional ?_ (by simp)) ?_
  · have hall : Plain {} := ⟨rfl, rfl, rfl⟩
    apply (leads_passing hrecurse hall rfl).mono
    rintro node s' _ ⟨hholds, _, htaken⟩ _ ⟨rfl⟩
    rw [passing_none] at hholds
    exact ⟨hholds, htaken⟩
  · intro left s₁ _ hleft
    refine Leads.bind (Q := fun right _ => ∀ node ∈ right,
      Holds engine base scope ⟨context.baseTable.columnNames,
        fun _ => passing engine base constraints.rowFilter⟩ node ∧ ¬Taken s₁ (refSql node))
      (Leads.optional ?_ (by simp)) ?_
    · apply (leads_passing hrecurse hplain hexposed).mono
      rintro node s' _ ⟨hholds, hnew, _⟩ _ ⟨rfl⟩
      exact ⟨hholds, hnew⟩
    · intro right s₂ _ hright
      cases left with
      | none => exact Leads.decline
      | some left =>
          cases right with
          | none => exact Leads.decline
          | some right =>
              obtain ⟨hleft, htaken⟩ := hleft left rfl
              obtain ⟨hright, hnew⟩ := hright right rfl
              exact Leads.pure ⟨hleft, hright, fun heq => hnew (heq ▸ htaken)⟩

variable (engine base scope) in
/-- A table of the base rows, each under a number of its own. -/
def Numbered (key : String) (node : EqNode) : Prop :=
  ∃ numbered, Holds engine base scope ⟨context.baseTable.columnNames ++ [key],
      fun _ => (keyedRows key numbered : Bag V)⟩ node ∧
    KeyCopies context.baseTable.columns key base.rows (keyedRows key numbered : Bag V) numbered ∧
    ∀ entry ∈ numbered, 0 ≤ entry.2

theorem leads_materializeRowKey {key : String} (hkey : key ∉ context.baseTable.columnNames) :
    Leads s (materializeRowKey recurse context key) fun keyed s' =>
      keyed.baseItems = passthroughs context.baseTable.columns ∧
        Numbered engine base scope key keyed.relation ∧
        ¬Taken s (refSql keyed.relation) ∧ Taken s' (refSql keyed.relation) := by
  unfold materializeRowKey
  rw [passthroughItems_eq]
  cases hitems : passthroughs context.baseTable.columns with
  | nil => exact Leads.decline
  | cons first rest =>
      have hproper : Proper context.baseTable
          { columnRewrite := some (keyedItems key (first :: rest) first), acceptsDml := true } :=
        ⟨by simp, by simp, by simp⟩
      refine (leads_relation hrecurse hproper rfl).bind ?_
      rintro node s₁ _ ⟨⟨relation, hholds, hcolumns, site, hrows, hsite⟩, hfresh⟩
      refine Leads.pure ⟨rfl, ?_, hfresh⟩
      obtain ⟨numbered, hcoe, hnodup, hcount, hselect⟩ :=
        @select_counted _ engine (site (.read 0)) base.rows context.baseTable.columns key first
          base.supported hkey
      refine ⟨numbered, ?_, .of_numbered hkey base.supported hcoe hnodup, hcount⟩
      · have hrelation : relation = ⟨context.baseTable.columnNames ++ [key],
            fun _ => (keyedRows key numbered : Bag V)⟩ := by
          cases relation with
          | mk columns rows =>
              congr 1
              · refine Eq.trans hcolumns ?_
                simp only [columnsAsked, keyedItems, ← hitems, List.map_append, names_passthroughs]
                rfl
              · funext occasion
                refine (hrows occasion).trans ?_
                rw [hsite rfl occasion (.read 0)]
                rw [hitems] at hselect
                exact hselect
        rw [hrelation] at hholds
        exact hholds

end Requests

end EqGen.Equivalence.ContractSteps
