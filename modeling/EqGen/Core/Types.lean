import Mathlib.Data.Nat.Basic

/-! The type vocabulary of `core/types.py`: data only, no spelling. -/

namespace EqGen.Core.Types

/-- The kinds a `SqlType` can be. -/
inductive TypeKind where
  | integer | numeric | double | varchar | char | text | boolean
  | date | timestamp | jsonb | uuid | int4range
  deriving DecidableEq, Repr

/-- `str(kind)`: the kinds are named as PostgreSQL names them. -/
def TypeKind.str : TypeKind → String
  | integer => "INTEGER"
  | numeric => "NUMERIC"
  | double => "DOUBLE"
  | varchar => "VARCHAR"
  | char => "CHAR"
  | text => "TEXT"
  | boolean => "BOOLEAN"
  | date => "DATE"
  | timestamp => "TIMESTAMP"
  | jsonb => "JSONB"
  | uuid => "UUID"
  | int4range => "INT4RANGE"

/-- The flags of `TypeProperty`. -/
structure TypeProperty where
  orderable : Bool
  groupable : Bool
  aggregatable : Bool
  deriving DecidableEq, Repr

/-- A column type: kind plus optional precision and scale. -/
structure SqlType where
  kind : TypeKind
  precision : Option Nat := none
  scale : Option Nat := none
  deriving DecidableEq, Repr

/-- `IntegerType` overrides the accessor: an integer has scale 0 whatever was stored. -/
def SqlType.getScale (t : SqlType) : Option Nat :=
  match t.kind with
  | .integer => some 0
  | _ => t.scale

/-- `jsonb` and the integer range group but neither order nor aggregate. -/
def SqlType.getProperties (t : SqlType) : TypeProperty :=
  match t.kind with
  | .jsonb | .int4range => ⟨false, true, false⟩
  | _ => ⟨true, true, true⟩

/-- `str(type)`. -/
def SqlType.str (t : SqlType) : String :=
  match t.precision, t.scale with
  | none, _ => t.kind.str
  | some p, none => s!"{t.kind.str}({p})"
  | some p, some s => s!"{t.kind.str}({p}, {s})"

/-- `isinstance(t, NumericType)`: integers are numeric. -/
def SqlType.isNumericType (t : SqlType) : Bool :=
  t.kind = .numeric || t.kind = .integer

/-- `isinstance(t, VarcharType)`: the string family. -/
def SqlType.isVarcharType (t : SqlType) : Bool :=
  t.kind = .varchar || t.kind = .char || t.kind = .text

def SqlType.isBooleanType (t : SqlType) : Bool :=
  t.kind = .boolean

end EqGen.Core.Types
