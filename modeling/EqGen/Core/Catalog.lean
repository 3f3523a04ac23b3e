import EqGen.Core.Types

/-! What the input table looks like: `Named`, `Column` and `Table`. -/

namespace EqGen.Core.Catalog

open EqGen.Core.Types

/-- An output name paired with what it holds. -/
structure Named (α : Type) where
  name : String
  target : α
  deriving DecidableEq, Repr

/-- A relation's output columns, in order. -/
abbrev Signature := List (Named SqlType)

/-- The column names of a signature. -/
def Signature.names (sig : Signature) : List String :=
  sig.map Named.name

/-- One column of a table; its name is never empty. -/
structure Column where
  name : String
  dataType : SqlType
  position : Nat := 0
  nullable : Bool := true
  name_nonempty : name ≠ "" := by decide
  deriving DecidableEq, Repr

/-- A base table: a name, an ordered list of columns, and optionally a schema. -/
structure Table where
  name : String
  columns : List Column
  schema : Option String := none
  name_nonempty : name ≠ "" := by decide
  deriving DecidableEq, Repr

-- The names more than one table below is built with.
theorem t_ne_empty : "t" ≠ "" := by
  decide

theorem a_ne_empty : "a" ≠ "" := by
  decide

theorem c_pk_ne_empty : "c_pk" ≠ "" := by
  decide

/-- How a statement refers to the table. -/
def Table.getSqlName (table : Table) (useSchemaName : Bool) : String :=
  match table.schema with
  | some schema => if useSchemaName then s!"{schema}.{table.name}" else table.name
  | none => table.name

@[simp]
theorem Table.getSqlName_false (table : Table) : table.getSqlName false = table.name := by
  unfold Table.getSqlName
  cases table.schema <;> rfl

def Table.getSignature (table : Table) : Signature :=
  table.columns.map fun c => ⟨c.name, c.dataType⟩

/-- The column names in declaration order. -/
def Table.columnNames (table : Table) : List String :=
  table.columns.map Column.name

@[simp]
theorem Table.names_getSignature (table : Table) :
    table.getSignature.names = table.columnNames := by
  simp [Table.getSignature, Signature.names, Table.columnNames, Function.comp_def]

end EqGen.Core.Catalog
