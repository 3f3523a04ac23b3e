import EqGen.Equivalence.Names
import EqGen.Equivalence.Rows
import EqGen.Equivalence.Builders.Expansion

/-! What a parent reads from the relations the builders make. -/

namespace EqGen.Equivalence.Denotations

open Classical
open EqGen.Core.Catalog
open EqGen.Equivalence.Ast
open EqGen.Builder.Context
open EqGen.Equivalence.Context
open EqGen.Equivalence.Semantics
open EqGen.Equivalence.Names
open EqGen.Equivalence.Rows
open EqGen.Equivalence.Builders.Expansion
open EqGen.Lib.Backtrack
open EqGen.Lib.Backtrack.Attempt
open EqGen.Lib.Dag

variable {V : Type}

/-- The node is a source, and reading it under its name is reading the relation. -/
def Denotes (engine : Engine V) (scope : Scope V) (node : EqNode) (relation : Relation V) :
    Prop :=
  engine.meaning scope node = ⟨relation, [(refSql node, relation)]⟩

section Scopes

variable {scope : Scope V} {visible : List (String × Relation V)} {name : String}
variable {relation : Relation V}

theorem extend_named (h : ∀ entry ∈ visible, entry.1 = name → entry.2 = relation)
    (hname : ∃ entry ∈ visible, entry.1 = name) : scope.extend visible name = relation := by
  induction visible with
  | nil => simp at hname
  | cons first rest ih =>
      obtain ⟨hfirst, hrest⟩ := List.forall_mem_cons.mp h
      show Function.update (scope.extend rest) first.1 first.2 name = relation
      by_cases heq : first.1 = name
      · subst heq
        rw [Function.update_self]
        exact hfirst rfl
      · rw [Function.update_of_ne (Ne.symm heq)]
        apply ih hrest
        obtain ⟨entry, hentry, hentryName⟩ := hname
        rcases List.mem_cons.mp hentry with rfl | hentry
        · exact absurd hentryName heq
        · exact ⟨entry, hentry, hentryName⟩

/-- A name that is only ever given its own meaning keeps it. -/
theorem extend_same (h : ∀ entry ∈ visible, entry.1 = name → entry.2 = scope name) :
    scope.extend visible name = scope name := by
  by_cases hname : ∃ entry ∈ visible, entry.1 = name
  · exact extend_named h hname
  · induction visible with
    | nil => rfl
    | cons first rest ih =>
        show Function.update (scope.extend rest) first.1 first.2 name = scope name
        have heq : name ≠ first.1 := fun heq => hname ⟨first, List.mem_cons_self, heq.symm⟩
        rw [Function.update_of_ne heq]
        apply ih fun entry hentry => h entry (List.mem_cons_of_mem _ hentry)
        rintro ⟨entry, hentry, hentryName⟩
        exact hname ⟨entry, List.mem_cons_of_mem _ hentry, hentryName⟩

end Scopes

/-- The relation without the reader: the rows of a table are written when it is created. -/
def written (relation : Relation V) (site : Occasion) : Relation V :=
  ⟨relation.columns, fun _ => relation.rows site⟩

section Nodes

variable (engine : Engine V) (scope : Scope V) {node child source : EqNode}
variable {relation : Relation V}

/-- The names a statement over these inputs can read. -/
noncomputable def visibleFrom (inputs : List EqNode) : List (String × Relation V) :=
  (inputs.map (engine.meaning scope)).flatMap Meaning.visible

noncomputable def scopeFrom (inputs : List EqNode) : Scope V :=
  scope.extend (visibleFrom engine scope inputs)

theorem meaning_query (i : Nat) (query : Query) (inputs : List EqNode) :
    engine.meaning scope (.mk i (.query query) inputs) =
      ⟨⟨(scopeFrom engine scope inputs).columns query,
        engine.query (scopeFrom engine scope inputs) query⟩, visibleFrom engine scope inputs⟩ := by
  rw [Engine.meaning_mk]
  rfl

/-- A relation reads the names its query reads. -/
theorem scopeFrom_query (j : Nat) (query : Query) (inputs : List EqNode) :
    scopeFrom engine scope [.mk j (.query query) inputs] = scopeFrom engine scope inputs := by
  simp [scopeFrom, visibleFrom, meaning_query]

theorem meaning_relation (i : Nat) (relation : EquivalentRelation) (inputs : List EqNode) :
    engine.meaning scope (.mk i (.relation relation) inputs) =
      (let name := relation.exposed.name
       let after := engine.steps i (scopeFrom engine scope inputs) relation.steps
       ⟨after name, [(name, after name)]⟩) := by
  rw [Engine.meaning_mk]
  rfl

theorem denotes_createNode (i j : Nat) (relationClass : RelationClass) (kind : ObjectKind)
    (object : Object) (inputs : List EqNode) :
    Denotes engine scope (createNode i relationClass kind object (.mk j (.query object.query) inputs))
      (engine.created (scopeFrom engine scope inputs) (.statement i 0) object) := by
  rw [Denotes, createNode, meaning_relation, scopeFrom_query]
  simp [Engine.steps, Engine.step]

/-- A view is the relation of its query. -/
theorem denotes_view {i j : Nat} {relationClass : RelationClass} {kind : ObjectKind}
    {name keyword : String} {query : Query} {inputs : List EqNode}
    (hkeyword : keyword ≠ "MATERIALIZED VIEW") :
    Denotes engine scope
      (createNode i relationClass kind ⟨true, name, keyword, query⟩ (.mk j (.query query) inputs))
      (engine.meaning scope (.mk j (.query query) inputs)).relation := by
  have h := denotes_createNode engine scope i j relationClass kind ⟨true, name, keyword, query⟩
    inputs
  simpa [meaning_query, Engine.created, stored, hkeyword] using h

/-- A table holds what its query returned when it was created. -/
theorem denotes_table {i j : Nat} {relationClass : RelationClass} {kind : ObjectKind}
    {name keyword : String} {query : Query} {inputs : List EqNode} :
    Denotes engine scope
      (createNode i relationClass kind ⟨false, name, keyword, query⟩ (.mk j (.query query) inputs))
      (written (engine.meaning scope (.mk j (.query query) inputs)).relation (.statement i 0)) := by
  have h := denotes_createNode engine scope i j relationClass kind ⟨false, name, keyword, query⟩
    inputs
  simpa [meaning_query, Engine.created, stored, written] using h

/-- The columns of a `SELECT` over a relation. -/
def selectColumns (query : SelectQuery) (relation : Relation V) : List String :=
  match query.projection with
  | none => relation.columns
  | some items => items.map ProjectionItem.name

/-- A statement over one source reads it under its name. -/
theorem scopeFrom_source (h : Denotes engine scope source relation) :
    scopeFrom engine scope [source] (refSql source) = relation := by
  unfold Denotes at h
  simp [scopeFrom, visibleFrom, h, Scope.extend]

theorem query_select {sources : Scope V} (query : SelectQuery) (source : EqNode)
    (occasion : Occasion) :
    engine.query sources (queryOver (.select query) [source]) occasion =
      engine.select occasion ((sources (refSql source)).rows (.source 0 occasion)) query := rfl

theorem columns_select {sources : Scope V} (query : SelectQuery) (source : EqNode) :
    sources.columns (queryOver (.select query) [source]) =
      selectColumns query (sources (refSql source)) := by
  unfold selectColumns
  cases hprojection : query.projection with
  | none => simp only [Scope.columns, queryOver, hprojection]; rfl
  | some items => simp only [Scope.columns, queryOver, hprojection]

theorem relation_select (h : Denotes engine scope source relation) (i : Nat)
    (query : SelectQuery) :
    (engine.meaning scope
        (.mk i (.query (queryOver (.select query) [source])) [source])).relation =
      ⟨selectColumns query relation,
        fun occasion => engine.select occasion (relation.rows (.source 0 occasion)) query⟩ := by
  rw [meaning_query]
  simp only [columns_select, scopeFrom_source engine scope h]
  congr 1
  funext occasion
  rw [query_select, scopeFrom_source engine scope h]

/-- A join of two relations with different names. -/
theorem relation_join {left right : EqNode} {leftRelation rightRelation : Relation V}
    (hleft : Denotes engine scope left leftRelation)
    (hright : Denotes engine scope right rightRelation) (hne : refSql left ≠ refSql right)
    (i : Nat) (join : JoinQuery) :
    (engine.meaning scope
        (.mk i (.query (queryOver (.join join) [left, right])) [left, right])).relation =
      ⟨join.projection.map ProjectionItem.name, fun occasion =>
        engine.join join (leftRelation.rows (.source 0 occasion))
          (rightRelation.rows (.source 1 occasion))⟩ := by
  unfold Denotes at hleft hright
  have hvisible : visibleFrom engine scope [left, right] =
      [(refSql left, leftRelation), (refSql right, rightRelation)] := by
    simp [visibleFrom, hleft, hright]
  have hscopeLeft : scopeFrom engine scope [left, right] (refSql left) = leftRelation := by
    simp [scopeFrom, hvisible, Scope.extend]
  have hscopeRight : scopeFrom engine scope [left, right] (refSql right) = rightRelation := by
    simp [scopeFrom, hvisible, Scope.extend, Function.update_of_ne hne.symm]
  rw [meaning_query]
  refine congrArg₂ Relation.mk rfl ?_
  funext occasion
  change engine.join join
      ((scopeFrom engine scope [left, right] (refSql left)).rows (.source 0 occasion))
      ((scopeFrom engine scope [left, right] (refSql right)).rows (.source 1 occasion)) = _
  rw [hscopeLeft, hscopeRight]

section Sources

variable {inputs : List EqNode} {relations : EqNode → Relation V}

theorem visibleFrom_sources (h : ∀ node ∈ inputs, Denotes engine scope node (relations node)) :
    visibleFrom engine scope inputs = inputs.map fun node => (refSql node, relations node) := by
  induction inputs with
  | nil => rfl
  | cons first rest ih =>
      obtain ⟨hfirst, hrest⟩ := List.forall_mem_cons.mp h
      have hvisible := ih hrest
      unfold visibleFrom at hvisible ⊢
      unfold Denotes at hfirst
      rw [List.map_cons, List.flatMap_cons, List.map_cons, hvisible, hfirst]
      rfl

variable (hsame : ∀ node ∈ inputs, ∀ node' ∈ inputs, refSql node = refSql node' →
  relations node = relations node')

include hsame

/-- A statement over sources that are the same where they have the same name reads each of them. -/
theorem scopeFrom_sources (h : ∀ node ∈ inputs, Denotes engine scope node (relations node))
    (hnode : node ∈ inputs) : scopeFrom engine scope inputs (refSql node) = relations node := by
  rw [scopeFrom, visibleFrom_sources engine scope h]
  apply extend_named
  · intro entry hentry hname
    obtain ⟨node', hnode', rfl⟩ := List.mem_map.mp hentry
    exact hsame node' hnode' node hnode hname
  · exact ⟨_, List.mem_map_of_mem hnode, rfl⟩

omit hsame

variable {columns : List String} {held : EqNode → Bag V}
variable (hheld : ∀ node ∈ inputs, ∀ node' ∈ inputs, refSql node = refSql node' →
  held node = held node')
variable (h : ∀ node ∈ inputs, Denotes engine scope node ⟨columns, fun _ => held node⟩)
variable (hsupported : ∀ node ∈ inputs, ∀ row ∈ held node, Supported columns row)

include hheld h

theorem scopeFrom_branches (hnode : node ∈ inputs) :
    scopeFrom engine scope inputs (refSql node) = ⟨columns, fun _ => held node⟩ :=
  @scopeFrom_sources V engine scope node inputs (fun node => ⟨columns, fun _ => held node⟩)
    (fun node hnode node' hnode' heq => by rw [hheld node hnode node' hnode' heq]) h hnode

include hsupported

/-- A branch with the columns of the first is read as it is. -/
theorem branch_source (hnode : node ∈ inputs) (i : Nat) (occasion : Occasion) :
    (scopeFrom engine scope inputs).branch occasion columns (sourceRef node, i) = held node := by
  have hscope := scopeFrom_branches engine scope hheld h hnode
  show Multiset.map (relabel (scopeFrom engine scope inputs (refSql node)).columns columns)
    ((scopeFrom engine scope inputs (refSql node)).rows (.source i occasion)) = held node
  rw [hscope]
  exact map_relabel_self (hsupported node hnode)

/-- `UNION ALL` of tables with the same columns. -/
theorem relation_unionAll (hne : inputs ≠ []) (i : Nat) :
    (engine.meaning scope (.mk i (.query (queryOver .unionAll inputs)) inputs)).relation =
      ⟨columns, fun _ => (inputs.map held).sum⟩ := by
  have hfirst : (scopeFrom engine scope inputs).firstColumns (inputs.map sourceRef) = columns := by
    obtain ⟨first, rest, rfl⟩ := List.exists_cons_of_ne_nil hne
    show (scopeFrom engine scope (first :: rest) (refSql first)).columns = columns
    rw [scopeFrom_branches engine scope hheld h List.mem_cons_self]
  rw [meaning_query]
  refine congrArg₂ Relation.mk hfirst ?_
  funext occasion
  show ((inputs.map sourceRef).zipIdx.map ((scopeFrom engine scope inputs).branch occasion
    ((scopeFrom engine scope inputs).firstColumns (inputs.map sourceRef)))).sum = _
  rw [hfirst, List.zipIdx_map, List.map_map]
  congr 1
  calc inputs.zipIdx.map _
      = inputs.zipIdx.map (held ∘ Prod.fst) := by
        apply List.map_congr_left
        intro entry hentry
        exact branch_source engine scope hheld h hsupported (List.fst_mem_of_mem_zipIdx hentry) _ _
    _ = inputs.map held := by rw [← List.map_map, List.zipIdx_map_fst]

end Sources

theorem name_exposedOf (node : EqNode) : (exposedOf node).name = refSql node := by
  unfold exposedOf refSql
  cases node.label <;> rfl

/-- The table of the child with the inserted rows in it. -/
theorem denotes_insertExtras (h : Denotes engine scope child relation) (i : Nat) (query : Query)
    (kind : ObjectKind) (signature : Signature) :
    Denotes engine scope
      (.mk i (.relation ⟨.insertExtrasExpansion, kind, [.insertQuery (refSql child) query],
        exposedOf child, signature⟩) [child])
      ⟨relation.columns, fun occasion => relation.rows occasion +
        (engine.query (scopeFrom engine scope [child]) query (.statement i 0)).map
          (relabel ((scopeFrom engine scope [child]).columns query) relation.columns)⟩ := by
  rw [Denotes, meaning_relation]
  simp only [refSql_relation, name_exposedOf]
  simp [Engine.steps, Engine.step, Scope.insertInto, Scope.rewrite,
    scopeFrom_source engine scope h]

/-- A view over what a `DELETE` leaves of the child's table. -/
theorem denotes_tagPruneDelete (h : Denotes engine scope child relation) (i : Nat)
    (predicate : Option ExpressionNode) (name : String) (query : SelectQuery)
    (signature : Signature) :
    Denotes engine scope
      (.mk i (.relation ⟨.tagPruneDeleteTable, .view, [.delete (refSql child) predicate,
        .object ⟨true, name, "VIEW", queryOver (.select query) [child]⟩],
        ⟨true, name, "VIEW", queryOver (.select query) [child]⟩, signature⟩) [child])
      ⟨selectColumns query relation, fun occasion => engine.select occasion
        ((relation.rows (.source 0 occasion)).filter fun row =>
          ¬engine.keeps (rowSight row) predicate) query⟩ := by
  rw [Denotes, meaning_relation]
  have hview : stored ⟨true, name, "VIEW", queryOver (.select query) [child]⟩ = false := by
    simp [stored]
  have hafter : ((scopeFrom engine scope [child]).rewrite (refSql child) fun rows =>
      rows.filter fun row => ¬engine.keeps (rowSight row) predicate) (refSql child) =
      ⟨relation.columns, fun occasion => (relation.rows occasion).filter fun row =>
        ¬engine.keeps (rowSight row) predicate⟩ := by
    rw [Scope.rewrite, Function.update_self, scopeFrom_source engine scope h]
  simp only [Engine.steps, List.zipIdx_cons, List.zipIdx_nil, List.foldl_cons, List.foldl_nil,
    Engine.step, refSql_relation, Function.update_self, Engine.created, hview, columns_select,
    query_select, hafter]
  rfl

end Nodes

section Builds

variable {engine : Engine V} {scope : Scope V} {source : EqNode} {relation : Relation V}
variable {context : EquivalenceContext} {relationClass : RelationClass} {kind : ObjectKind}
variable {keyword label : String} {query : SelectQuery} {s : GenerationState}
variable {Q : EqNode → GenerationState → Prop} {N : GenerationState → Prop}
variable {E : GenerationError → GenerationState → Prop}

/-- A table over a source gets a name of its own and holds one evaluation of its query. -/
theorem spec_tableOver (h : Denotes engine scope source relation)
    (hkind : kind = .table ∨ kind = .temporaryTable)
    (hQ : ∀ node s' site, Grows s s' → s'.drawn = s.drawn → ¬Taken s (refSql node) →
      Taken s' (refSql node) →
      Denotes engine scope node ⟨selectColumns query relation,
        fun _ => engine.select site (relation.rows (.source 0 site)) query⟩ → Q node s') :
    Spec (selectQuery source query >>= fun body =>
      createAsSelect context relationClass kind keyword label body none) s Q N E := by
  rw [spec_bind]
  apply spec_selectQuery
  intro j s' hgrows hdrawn
  apply spec_createAsSelect
  intro i name s'' hgrows' hdrawn' hname
  obtain ⟨hnew, htaken⟩ := hname rfl
  have hview : (kind = .view || kind = .temporaryView || kind = .materializedView) = false := by
    rcases hkind with rfl | rfl <;> rfl
  rw [hview]
  refine hQ _ s'' (.statement i 0) (hgrows.trans hgrows') (hdrawn'.trans hdrawn) ?_ htaken ?_
  · intro htakenBefore
    exact hnew (htakenBefore.mono hgrows)
  have htable := @denotes_table _ engine scope i j relationClass kind name keyword
    (queryOver (.select query) [source]) [source]
  rw [relation_select engine scope h] at htable
  exact htable

/-- A view over a source. -/
theorem spec_viewOver (h : Denotes engine scope source relation) {exposedName : Option String}
    (hQ : ∀ node s', Grows s s' → s'.drawn = s.drawn →
      (exposedName = none → ¬Taken s (refSql node) ∧ Taken s' (refSql node)) →
      Denotes engine scope node ⟨selectColumns query relation,
        fun occasion => engine.select occasion (relation.rows (.source 0 occasion)) query⟩ →
      Q node s') :
    Spec (selectQuery source query >>= fun body => createView context body exposedName) s
      Q N E := by
  rw [spec_bind]
  apply spec_selectQuery
  intro j s' hgrows hdrawn
  apply spec_createAsSelect
  intro i name s'' hgrows' hdrawn' hname
  apply hQ _ s'' (hgrows.trans hgrows') (hdrawn'.trans hdrawn)
  · intro hnone
    obtain ⟨hnew, htaken⟩ := hname hnone
    exact ⟨fun htakenBefore => hnew (htakenBefore.mono hgrows), htaken⟩
  have hview := @denotes_view _ engine scope i j .createView .view name "VIEW"
    (queryOver (.select query) [source]) [source] (by decide)
  rw [relation_select engine scope h] at hview
  exact hview

/-- A table of several tables, which `UNION ALL` wants at least two of. -/
theorem spec_unionTable {branches : List EqNode} {columns : List String} {held : String → Bag V}
    (hbranches : ∀ branch ∈ branches,
      Denotes engine scope branch ⟨columns, fun _ => held (refSql branch)⟩)
    (hsupported : ∀ branch ∈ branches, ∀ row ∈ held (refSql branch), Supported columns row)
    (hQ : 2 ≤ branches.length → ∀ node s', Grows s s' → s'.drawn = s.drawn →
      Denotes engine scope node
        ⟨columns, fun _ => (branches.map fun branch => held (refSql branch)).sum⟩ → Q node s')
    (hE : branches.length < 2 →
      E (.assertion "UNION ALL requires at least two branches") s) :
    Spec (unionAllQuery branches >>= fun body => createTable context body none) s Q N E := by
  simp only [unionAllQuery, spec_bind, spec_require]
  refine ⟨?_, fun hshort => hE (by omega)⟩
  intro htwo
  apply spec_newNode
  intro j s' hgrows hdrawn
  apply spec_createAsSelect
  intro i name s'' hgrows' hdrawn' _
  have htable := @denotes_table _ engine scope i j .createTable .table name "TABLE"
    (queryOver .unionAll branches) branches
  rw [relation_unionAll engine scope (fun _ _ _ _ heq => congrArg held heq) hbranches hsupported
    (List.ne_nil_of_length_pos (by omega))] at htable
  exact hQ htwo _ s'' (hgrows.trans hgrows') (hdrawn'.trans hdrawn) htable

end Builds

end EqGen.Equivalence.Denotations
