import EqGen.Equivalence.RowContract

/-!
The row contract of the portable builders on their own. The names they ask each other for are
theirs, so only two can be in the way: that of a base column, and the one `generate` is asked for.
-/

namespace EqGen.Equivalence.PortableContract

open EqGen.Builder.Context
open EqGen.Core.Catalog
open EqGen.Equivalence.Ast
open EqGen.Equivalence.Builders.Base
open EqGen.Equivalence.Context
open EqGen.Equivalence.ContractNames
open EqGen.Equivalence.ContractSteps
open EqGen.Equivalence.Contracts
open EqGen.Equivalence.Creations
open EqGen.Equivalence.Expansion (BaseRows sampleEngine)
open EqGen.Equivalence.Factory
open EqGen.Equivalence.Forks hiding generate
open EqGen.Equivalence.Generator
open EqGen.Equivalence.Renamed (columnStems objectStems)
open EqGen.Equivalence.RowContract
open EqGen.Equivalence.Semantics
open EqGen.Lib.Ascent
open EqGen.Lib.Backtrack

variable {V : Type} {engine : Engine V} {context : EquivalenceContext}
variable {base : BaseRows V context.baseTable} {scope : Scope V}
variable {exposedName : Option String} {s s' : GenerationState} {root : EqNode}

theorem equivalent_generate (hsituated : Situated context base scope)
    (hrun : generate context (portableBuilders context) exposedName s = .done root s')
    (hname : exposedName.getD context.baseTable.name ≠ context.baseTable.getSqlName true) :
    Equivalent engine scope base (exposedName.getD context.baseTable.name) root := by
  have hroot := @leads_generate V engine context base scope (portableBuilders context)
    (keeps_portableBuilders hsituated) exposedName hname s
  unfold Leads Attempt.Spec at hroot
  rw [hrun] at hroot
  exact hroot.2

theorem createsApart_generate (engine : Engine V)
    (hrun : generate context (portableBuilders context) exposedName s = .done root s')
    (hname : exposedName.getD context.baseTable.name ≠ context.baseTable.getSqlName true)
    (hunminted : Unminted (objectStems context.baseTable)
      (exposedName.getD context.baseTable.name)) :
    CreatesApart context.baseTable [root] := by
  have hroot := leads_generate_named
    (keepsNames_portableBuilders (List.Subset.refl (objectStems context.baseTable)) engine)
    hunminted s
  unfold Leads Attempt.Spec at hroot
  rw [hrun] at hroot
  refine RowContract.Named.createsApart hroot.2 (unminted_getSqlName context.baseTable) ?_
  rintro name ⟨rfl⟩
  exact hname

section Sample

/-- The names that the statements of a generation introduce. -/
def namesMade : Outcome GenerationError GenerationState EqNode → Option (List String)
  | .done root _ => some (createdNames root)
  | _ => none

theorem returns_of_namesMade {outcome : Outcome GenerationError GenerationState EqNode}
    {names : List String} (h : namesMade outcome = some names) :
    ∃ root s, outcome = .done root s ∧ createdNames root = names := by
  cases outcome with
  | done root s => exact ⟨root, s, rfl, Option.some.inj h⟩
  | declined s => cases h
  | raised error s => cases h

/-- A generation of a view over a table of the base rows. -/
def viewing : EquivalenceContext := contextFor viewsOfTables narrowTable 0

end Sample

end EqGen.Equivalence.PortableContract
