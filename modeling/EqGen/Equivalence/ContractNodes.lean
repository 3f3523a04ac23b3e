import EqGen.Equivalence.Contracts

/-! What the steps of the builders make of sources that answer their constraints. -/

namespace EqGen.Equivalence.ContractNodes

open Classical
open EqGen.Builder.Context
open EqGen.Core.Catalog
open EqGen.Equivalence.Ast
open EqGen.Equivalence.Builders.Base
open EqGen.Equivalence.Context
open EqGen.Equivalence.Contracts
open EqGen.Equivalence.Copies
open EqGen.Equivalence.Denotations
open EqGen.Equivalence.Expansion
open EqGen.Equivalence.Forks
open EqGen.Equivalence.Names
open EqGen.Equivalence.Renamed
open EqGen.Equivalence.Rows
open EqGen.Equivalence.Semantics
open EqGen.Lib.Ascent
open EqGen.Lib.Backtrack
open EqGen.Lib.Dag

variable {V : Type}

section Sources

variable {engine : Engine V} {table : Table} {base : BaseRows V table} {scope : Scope V}
variable {inputs : List EqNode} {node left right : EqNode} {relation : Relation V}

variable (engine base scope) in
/-- Sources that hold relations, the same where they have the same name. -/
structure Sources (inputs : List EqNode) (relations : EqNode → Relation V) : Prop where
  holds : ∀ node ∈ inputs, Holds engine base scope (relations node) node
  same : ∀ node ∈ inputs, ∀ node' ∈ inputs, refSql node = refSql node' →
    relations node = relations node'

variable {relations : EqNode → Relation V}

theorem sources_singleton (h : Holds engine base scope relation node) :
    Sources engine base scope [node] fun _ => relation where
  holds := by
    simpa using h
  same _ _ _ _ _ := rfl

theorem sources_pair (hleft : Holds engine base scope (relations left) left)
    (hright : Holds engine base scope (relations right) right)
    (hne : refSql left ≠ refSql right) : Sources engine base scope [left, right] relations where
  holds := by
    simp [hleft, hright]
  same := by
    intro node hnode node' hnode' heq
    rcases List.mem_pair.mp hnode with rfl | rfl <;> rcases List.mem_pair.mp hnode' with rfl | rfl
    · rfl
    · exact absurd heq hne
    · exact absurd heq.symm hne
    · rfl

theorem Sources.visible (h : Sources engine base scope inputs relations) :
    visibleFrom engine scope inputs =
      inputs.map fun node => (refSql node, relations node) :=
  visibleFrom_sources engine scope fun node hnode => (h.holds node hnode).denotes

/-- A statement over the sources reads each of them under its name. -/
theorem Sources.scopeFrom_eq (h : Sources engine base scope inputs relations)
    (hnode : node ∈ inputs) : scopeFrom engine scope inputs (refSql node) = relations node :=
  scopeFrom_sources engine scope h.same (fun node hnode => (h.holds node hnode).denotes) hnode

theorem relationOf_query (i : Nat) (query : Query) (inputs : List EqNode) :
    relationOf engine scope (.mk i (.query query) inputs) =
      ⟨(scopeFrom engine scope inputs).columns query,
        engine.query (scopeFrom engine scope inputs) query⟩ := by
  rw [relationOf, meaning_query]

theorem Sources.firstColumns (h : Sources engine base scope (node :: inputs) relations) :
    (scopeFrom engine scope (node :: inputs)).firstColumns ((node :: inputs).map sourceRef) =
      (relations node).columns := by
  show (scopeFrom engine scope (node :: inputs) (refSql node)).columns = _
  rw [h.scopeFrom_eq List.mem_cons_self]

theorem Sources.readSource (h : Sources engine base scope inputs relations)
    (hnode : node ∈ inputs) (i : Nat) (occasion : Occasion) :
    (scopeFrom engine scope inputs).readSource occasion (sourceRef node, i) =
      (relations node).rows (.source i occasion) := by
  show (scopeFrom engine scope inputs (refSql node)).rows (.source i occasion) = _
  rw [h.scopeFrom_eq hnode]

/-- Over sources the base table is read as it is. -/
theorem Sources.readable (h : Sources engine base scope inputs relations) :
    ∀ entry ∈ visibleFrom engine scope inputs,
      entry.1 = table.getSqlName true → entry.2 = baseRelation base := by
  rw [h.visible]
  intro entry hentry hname
  obtain ⟨node, hnode, rfl⟩ := List.mem_map.mp hentry
  exact (h.holds node hnode).readable hname

/-- A query over sources holds what it means. -/
theorem Sources.queryHolds (h : Sources engine base scope inputs relations) {query : Query}
    (i : Nat)
    (hmeaning : relationOf engine scope (.mk i (.query query) inputs) = relation)
    (hsignature : query.getSignature.names = relation.columns) :
    QueryHolds engine base scope relation (.mk i (.query query) inputs) where
  shape := ⟨i, query, inputs, rfl⟩
  meaning := hmeaning
  signature := hsignature
  readable := by
    rw [meaning_query]
    exact h.readable

variable (engine base scope) in
/-- Relations with the same columns, each with its rows whenever it is read. -/
structure Branches (inputs : List EqNode) (columns : List String) (held : EqNode → Bag V) : Prop
    extends Sources engine base scope inputs fun node => ⟨columns, fun _ => held node⟩ where
  supported : ∀ node ∈ inputs, ∀ row ∈ held node, Supported columns row

variable {columns : List String} {held : EqNode → Bag V}

theorem Branches.denotes (h : Branches engine base scope inputs columns held) :
    ∀ node ∈ inputs, Denotes engine scope node ⟨columns, fun _ => held node⟩ :=
  fun node hnode => (h.holds node hnode).denotes

theorem Branches.held_eq (h : Branches engine base scope inputs columns held) :
    ∀ node ∈ inputs, ∀ node' ∈ inputs, refSql node = refSql node' → held node = held node' := by
  intro node hnode node' hnode' heq
  have hrows := congrArg Relation.rows (h.same node hnode node' hnode' heq)
  exact congrFun hrows (.read 0)

theorem Branches.branch (h : Branches engine base scope inputs columns held)
    (hnode : node ∈ inputs) (i : Nat) (occasion : Occasion) :
    (scopeFrom engine scope inputs).branch occasion columns (sourceRef node, i) = held node :=
  branch_source engine scope h.held_eq h.denotes h.supported hnode i occasion

theorem Branches.queryHolds (h : Branches engine base scope (node :: inputs) columns held)
    {shape : QueryShape} (hshape : shape = .exceptAll ∨ shape = .intersectAll)
    {rows : Bag V} (i : Nat)
    (hrows : ∀ occasion, engine.query (scopeFrom engine scope (node :: inputs))
      (queryOver shape (node :: inputs)) occasion = rows) :
    QueryHolds engine base scope ⟨columns, fun _ => rows⟩
      (.mk i (.query (queryOver shape (node :: inputs))) (node :: inputs)) := by
  have hcolumns : (scopeFrom engine scope (node :: inputs)).columns
      (queryOver shape (node :: inputs)) = columns := by
    rcases hshape with rfl | rfl <;> exact h.toSources.firstColumns
  have hsignature : (queryOver shape (node :: inputs)).getSignature.names = columns := by
    rcases hshape with rfl | rfl <;> exact (h.holds node List.mem_cons_self).signature
  apply h.toSources.queryHolds i _ hsignature
  rw [relationOf_query, hcolumns]
  exact congrArg _ (funext hrows)

theorem Branches.unionAll (h : Branches engine base scope inputs columns held)
    (hne : inputs ≠ []) (i : Nat) :
    QueryHolds engine base scope ⟨columns, fun _ => (inputs.map held).sum⟩
      (.mk i (.query (queryOver .unionAll inputs)) inputs) := by
  apply h.toSources.queryHolds i
  · exact relation_unionAll engine scope h.held_eq h.denotes h.supported hne i
  · obtain ⟨first, rest, rfl⟩ := List.exists_cons_of_ne_nil hne
    exact (h.holds first List.mem_cons_self).signature

theorem Branches.exceptAll (h : Branches engine base scope [left, right] columns held) (i : Nat) :
    QueryHolds engine base scope ⟨columns, fun _ => held left - held right⟩
      (.mk i (.query (queryOver .exceptAll [left, right])) [left, right]) := by
  apply h.queryHolds (.inl rfl) i
  intro occasion
  have hmem : left ∈ [left, right] ∧ right ∈ [left, right] := by simp
  have hleft := h.branch hmem.1 0 occasion
  have hright := h.branch hmem.2 1 occasion
  show (scopeFrom engine scope [left, right]).branch occasion
      ((scopeFrom engine scope [left, right]).firstColumns ([left, right].map sourceRef))
        (sourceRef left, 0) -
    (scopeFrom engine scope [left, right]).branch occasion
      ((scopeFrom engine scope [left, right]).firstColumns ([left, right].map sourceRef))
        (sourceRef right, 1) = _
  rw [h.toSources.firstColumns, hleft, hright]

theorem Branches.intersectAll (h : Branches engine base scope [left, right] columns held)
    (i : Nat) :
    QueryHolds engine base scope ⟨columns, fun _ => held left ∩ held right⟩
      (.mk i (.query (queryOver .intersectAll [left, right])) [left, right]) := by
  apply h.queryHolds (.inr rfl) i
  intro occasion
  have hmem : left ∈ [left, right] ∧ right ∈ [left, right] := by simp
  have hleft := h.branch hmem.1 0 occasion
  have hright := h.branch hmem.2 1 occasion
  show (scopeFrom engine scope [left, right]).branch occasion
      ((scopeFrom engine scope [left, right]).firstColumns ([left, right].map sourceRef))
        (sourceRef left, 0) ∩
    (scopeFrom engine scope [left, right]).branch occasion
      ((scopeFrom engine scope [left, right]).firstColumns ([left, right].map sourceRef))
        (sourceRef right, 1) = _
  rw [h.toSources.firstColumns, hleft, hright]

end Sources

end EqGen.Equivalence.ContractNodes
