import EqGen.Builder.Promises
import EqGen.Equivalence.Expansion
import EqGen.Equivalence.Factory
import EqGen.Equivalence.Forks

/-!
What a builder promises of the node it returns: its columns and its rows are those it was asked
for, whenever it is read, and the base table can still be read over it.
-/

namespace EqGen.Equivalence.Contracts

open Classical
open EqGen.Builder.Context
open EqGen.Builder.Promises
open EqGen.Core.Catalog
open EqGen.Equivalence.Ast
open EqGen.Equivalence.Builders.Base
open EqGen.Equivalence.Builders.Expansion
open EqGen.Equivalence.Context
open EqGen.Equivalence.Copies
open EqGen.Equivalence.Denotations
open EqGen.Equivalence.Expansion
open EqGen.Equivalence.Factory
open EqGen.Equivalence.Forks
open EqGen.Equivalence.Names
open EqGen.Equivalence.Renamed
open EqGen.Equivalence.Rows
open EqGen.Equivalence.Semantics
open EqGen.Lib.Ascent
open EqGen.Lib.Dag

variable {V : Type}

/-- A state is above another if no name was forgotten on the way. -/
instance : Preorder GenerationState := Preorder.lift GenerationState.objectCounters

instance : BuildUnseen GenerationState where
  le_set _ s := le_refl s.objectCounters
  set_le _ s := le_refl s.objectCounters

section Asked

variable (engine : Engine V) {table : Table} (base : BaseRows V table)

/-- The base table, as everything reads it. -/
def baseRelation : Relation V :=
  ⟨table.columnNames, fun _ => base.rows⟩

/-- The columns of what the constraints ask for. -/
def columnsAsked (table : Table) (constraints : ConstraintSet) : List String :=
  match constraints.columnRewrite with
  | some items => items.map ProjectionItem.name
  | none => table.columnNames ++ (constraints.tagChannel.map TagChannel.tagCol).toList ++
      (constraints.keyChannel.map KeySpec.column).toList

/-- The base rows that pass the filter, or what the items are on them. -/
noncomputable def rowsAsked (constraints : ConstraintSet) (occasion : Occasion) : Bag V :=
  match constraints.columnRewrite with
  | none => base.rows.filter fun row => engine.keeps (rowSight row) constraints.rowFilter
  | some items =>
    engine.select occasion base.rows
      { projection := some items, predicate := constraints.rowFilter }

/-- The rows that may be read: all there ever are, where the reader is going to write to them. -/
def RowsAsked (constraints : ConstraintSet) (rows : Occasion → Bag V) : Prop :=
  match constraints.tagChannel, constraints.keyChannel with
  | some channel, _ => ∃ held, TagCopies table.columns channel.tagCol base.rows held ∧
      ∀ occasion, rows occasion = held
  | none, some channel => ∃ held numbered,
      KeyCopies table.columns channel.column base.rows held numbered ∧
        ∀ occasion, rows occasion = held
  | none, none => ∃ site : Occasion → Occasion,
      (∀ occasion, rows occasion = rowsAsked engine base constraints (site occasion)) ∧
        (constraints.acceptsDml = true → ∀ occasion occasion', site occasion = site occasion')

/-- The relation is what the constraints ask for. -/
structure Fits (constraints : ConstraintSet) (relation : Relation V) : Prop where
  columns : relation.columns = columnsAsked table constraints
  rows : RowsAsked engine base constraints relation.rows

variable (scope : Scope V)

/-- What a read of the node returns, and its columns. -/
noncomputable def relationOf (node : EqNode) : Relation V :=
  (engine.meaning scope node).relation

/-- A query that returns the relation, as its signature says, and over which the base table is read. -/
structure QueryHolds (relation : Relation V) (node : EqNode) : Prop where
  shape : ∃ i query inputs, node = .mk i (.query query) inputs
  meaning : relationOf engine scope node = relation
  signature : (getSignature node).names = relation.columns
  readable : ∀ entry ∈ (engine.meaning scope node).visible,
    entry.1 = table.getSqlName true → entry.2 = baseRelation base

/-- A source that is the relation, read under a name that is not the base table's. -/
structure Holds (relation : Relation V) (node : EqNode) : Prop where
  denotes : Denotes engine scope node relation
  signature : (getSignature node).names = relation.columns
  readable : refSql node = table.getSqlName true → relation = baseRelation base

variable {engine base scope} in
theorem Holds.relationOf_eq {relation : Relation V} {node : EqNode}
    (h : Holds engine base scope relation node) :
    relationOf engine scope node = relation := by
  have hdenotes := h.denotes
  unfold Denotes at hdenotes
  rw [relationOf, hdenotes]

def QueryAnswered (constraints : ConstraintSet) (node : EqNode) : Prop :=
  ∃ relation, QueryHolds engine base scope relation node ∧ Fits engine base constraints relation

def SourceAnswered (constraints : ConstraintSet) (node : EqNode) : Prop :=
  ∃ relation, Holds engine base scope relation node ∧ Fits engine base constraints relation

/-- What the portable builders ask of each other. -/
structure Proper (table : Table) (constraints : ConstraintSet) : Prop where
  tag : ∀ channel ∈ constraints.tagChannel,
    channel.keepValue = keep ∧ channel.tagCol ∉ table.columnNames
  key : ∀ channel ∈ constraints.keyChannel, channel.column ∉ table.columnNames
  exposed : ∀ name ∈ constraints.exposedName, name ≠ table.getSqlName true

/-- The name of a relation that may choose it was not taken before. -/
def Fresh (constraints : ConstraintSet) (s : GenerationState) (name : String)
    (s' : GenerationState) : Prop :=
  constraints.exposedName = none → ¬Taken s name ∧ Taken s' name

theorem Fresh.widen {constraints : ConstraintSet} {s₀ s s' s₁ : GenerationState} {name : String}
    (hle : s₀ ≤ s) (hle' : s' ≤ s₁) (h : Fresh constraints s name s') :
    Fresh constraints s₀ name s₁ := by
  intro hnone
  obtain ⟨hnew, htaken⟩ := h hnone
  exact ⟨fun hold => hnew (hold.mono hle), htaken.mono hle'⟩

/-- What the builders of each class promise. -/
def contract : Promise GenerationState Label NodeClass ConstraintSet where
  proper := Proper table
  kept c constraints s node s' :=
    match c with
    | .baseTableSource => SourceAnswered engine base scope constraints node
    | .relation _ => SourceAnswered engine base scope constraints node ∧
        Fresh constraints s (refSql node) s'
    | _ => QueryAnswered engine base scope constraints node
  widen := by
    intro c constraints s₀ s node s' s₁ hle hle' h
    cases c with
    | relation relationClass => exact ⟨h.1, h.2.widen hle hle'⟩
    | _ => exact h

end Asked

section Requests

variable {engine : Engine V} {context : EquivalenceContext}
variable {base : BaseRows V context.baseTable} {scope : Scope V} {pool : List EquivalenceBuilder}
variable {constraints : ConstraintSet} {s s' : GenerationState} {node : EqNode}

theorem served_query (h : Served (factoryOf context pool) (contract engine base scope)
    .queryNode constraints s node s') : QueryAnswered engine base scope constraints node := by
  obtain ⟨c, hc, -, -, hkept⟩ := h
  cases c with
  | baseTableSource | relation _ => cases hc
  | _ => exact hkept

theorem served_relation (h : Served (factoryOf context pool) (contract engine base scope)
    .equivalentRelation constraints s node s') :
    SourceAnswered engine base scope constraints node ∧
      Fresh constraints s (refSql node) s' := by
  obtain ⟨c, hc, -, -, hkept⟩ := h
  cases c with
  | relation _ => exact hkept
  | _ => cases hc

theorem served_source (h : Served (factoryOf context pool) (contract engine base scope)
    .equivalentSource constraints s node s') :
    SourceAnswered engine base scope constraints node := by
  obtain ⟨c, hc, -, -, hkept⟩ := h
  cases c with
  | relation _ => exact hkept.1
  | baseTableSource => exact hkept
  | _ => cases hc

end Requests

end EqGen.Equivalence.Contracts
