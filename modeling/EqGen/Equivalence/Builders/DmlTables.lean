import EqGen.Equivalence.Builders.Base

/-! The builders of `builders/dml_tables.py`, which write to the table they create. -/

namespace EqGen.Equivalence.Builders.DmlTables

open EqGen.Core.Catalog
open EqGen.Ir.Expr hiding ExpressionNode
open EqGen.Equivalence.Ast
open EqGen.Equivalence.Context
open EqGen.Equivalence.Builders.Base
open EqGen.Lib.Backtrack

variable (buildSubtree : BuildSubtree) (context : EquivalenceContext)

/-- `_mutation_predicate` -/
def mutationPredicate : Gen (Option ExpressionNode) := do
  let generated ← generatedPredicate context
  match generated with
  | some predicate => pure (some predicate)
  | none => do
    let picked ← pickIntegerKey context
    pure (picked.map fun key => eq (.mod (col key.name key.dataType) 2) (intLit 1))

/-- A table of a query and the steps that follow its creation. -/
def mutatedTable (relationClass : RelationClass) (steps : String → List SetupStep)
    (query : EqNode) (exposedName : Option String) : Gen EqNode := do
  let name ← exposedOrMinted context "table" exposedName
  let created : Object := ⟨false, name, "TABLE", queryOf query⟩
  newNode (.relation ⟨relationClass, .table, .object created :: steps name, created,
    getSignature query⟩) [query]

/-- The steps of `DeleteReinsertTable` after the table. -/
def deleteReinsertSteps (columns : List String) (predicate : Option ExpressionNode)
    (name : String) : List SetupStep :=
  [.delete name predicate, .insert name columns (context.baseTable.getSqlName true) predicate]

/-- `DeleteReinsertTableBuilder._build` -/
def deleteReinsertTable (constraints : ConstraintSet) : Gen EqNode := do
  let query ← buildSubtree .queryNode {}
  let predicate ← mutationPredicate context
  mutatedTable context .deleteReinsertTable
    (deleteReinsertSteps context (getSignature query).names predicate) query
    constraints.exposedName

/-- Each column assigned to itself. -/
def identityAssignments (signature : Signature) : List (String × ExpressionNode) :=
  signature.map fun named => (named.name, col named.name named.target)

/-- `NoopUpdateTableBuilder._build` -/
def noopUpdateTable (constraints : ConstraintSet) : Gen EqNode := do
  let query ← buildSubtree .queryNode {}
  let signature := getSignature query
  Attempt.guard (signature ≠ [])
  let predicate ← mutationPredicate context
  mutatedTable context .noopUpdateTable
    (fun name => [.update name (identityAssignments signature) predicate]) query
    constraints.exposedName

end EqGen.Equivalence.Builders.DmlTables
