import EqGen.Core.Types

/-! `func_spec.py` and the function catalogs of the dialects. -/

namespace EqGen.Generators.TypedPredicate.Functions

open EqGen.Core.Types

/-- The classes of `core/types.py` that the generator asks for. -/
inductive TypeClass where
  | integerType | numericType | doubleType | varcharType | booleanType
  | dateType | timestampType | jsonbType | uuidType | int4RangeType
  deriving DecidableEq, Repr

/-- `isinstance(t, cls)` -/
def isInstance (t : SqlType) : TypeClass → Bool
  | .integerType => t.kind = .integer
  | .numericType => t.isNumericType
  | .doubleType => t.kind = .double
  | .varcharType => t.isVarcharType
  | .booleanType => t.isBooleanType
  | .dateType => t.kind = .date
  | .timestampType => t.kind = .timestamp
  | .jsonbType => t.kind = .jsonb
  | .uuidType => t.kind = .uuid
  | .int4RangeType => t.kind = .int4range

/-- `"arg0"`, or a class that an instance is built of. -/
inductive Result where
  | arg0
  | ofClass (cls : TypeClass)
  deriving DecidableEq, Repr

/-- One call shape: name, classes of the arguments, result. -/
structure FuncSpec where
  sqlName : String
  argFamilies : List TypeClass
  result : Result
  deriving DecidableEq, Repr

def FuncSpec.arity (spec : FuncSpec) : ℕ :=
  spec.argFamilies.length

/-- `FuncSpec.matches` -/
def FuncSpec.matches (spec : FuncSpec) (argTypes : List SqlType) : Bool :=
  argTypes.length = spec.argFamilies.length &&
    (argTypes.zip spec.argFamilies).all fun entry => isInstance entry.1 entry.2

/-- `result_type_for`; the source raises where the class is not supported. -/
def FuncSpec.resultTypeFor (spec : FuncSpec) (argTypes : List SqlType) : Option SqlType :=
  match spec.result with
  | .arg0 => argTypes.head?
  | .ofClass .integerType => some { kind := .integer }
  | .ofClass .booleanType => some { kind := .boolean }
  | .ofClass .varcharType => some { kind := .varchar }
  | .ofClass .doubleType => some { kind := .double }
  | .ofClass .numericType => some (argTypes.head?.getD { kind := .numeric })
  | .ofClass _ => none

def pgFuncs : List FuncSpec :=
  [⟨"ABS", [.numericType], .arg0⟩, ⟨"ABS", [.doubleType], .arg0⟩, ⟨"CEIL", [.numericType], .arg0⟩,
    ⟨"CEIL", [.doubleType], .ofClass .doubleType⟩, ⟨"FLOOR", [.numericType], .arg0⟩,
    ⟨"FLOOR", [.doubleType], .ofClass .doubleType⟩, ⟨"SIGN", [.numericType], .arg0⟩,
    ⟨"SIGN", [.doubleType], .arg0⟩, ⟨"CHAR_LENGTH", [.varcharType], .ofClass .integerType⟩,
    ⟨"UPPER", [.varcharType], .ofClass .varcharType⟩,
    ⟨"LOWER", [.varcharType], .ofClass .varcharType⟩,
    ⟨"INITCAP", [.varcharType], .ofClass .varcharType⟩,
    ⟨"ASCII", [.varcharType], .ofClass .integerType⟩,
    ⟨"GREATEST", [.numericType, .numericType], .arg0⟩,
    ⟨"GREATEST", [.doubleType, .doubleType], .arg0⟩,
    ⟨"GREATEST", [.varcharType, .varcharType], .ofClass .varcharType⟩,
    ⟨"LEAST", [.numericType, .numericType], .arg0⟩, ⟨"LEAST", [.doubleType, .doubleType], .arg0⟩,
    ⟨"LEAST", [.varcharType, .varcharType], .ofClass .varcharType⟩]

def duckdbFuncs : List FuncSpec :=
  [⟨"ABS", [.numericType], .arg0⟩, ⟨"ABS", [.doubleType], .arg0⟩, ⟨"CEIL", [.numericType], .arg0⟩,
    ⟨"CEIL", [.doubleType], .ofClass .doubleType⟩, ⟨"FLOOR", [.numericType], .arg0⟩,
    ⟨"FLOOR", [.doubleType], .ofClass .doubleType⟩, ⟨"SIGN", [.numericType], .arg0⟩,
    ⟨"SIGN", [.doubleType], .arg0⟩, ⟨"LENGTH", [.varcharType], .ofClass .integerType⟩,
    ⟨"UPPER", [.varcharType], .ofClass .varcharType⟩,
    ⟨"LOWER", [.varcharType], .ofClass .varcharType⟩,
    ⟨"ends_with", [.varcharType, .varcharType], .ofClass .booleanType⟩,
    ⟨"starts_with", [.varcharType, .varcharType], .ofClass .booleanType⟩,
    ⟨"GREATEST", [.numericType, .numericType], .arg0⟩,
    ⟨"GREATEST", [.doubleType, .doubleType], .arg0⟩,
    ⟨"GREATEST", [.varcharType, .varcharType], .ofClass .varcharType⟩,
    ⟨"GREATEST", [.booleanType, .booleanType], .ofClass .booleanType⟩,
    ⟨"LEAST", [.numericType, .numericType], .arg0⟩, ⟨"LEAST", [.doubleType, .doubleType], .arg0⟩,
    ⟨"LEAST", [.varcharType, .varcharType], .ofClass .varcharType⟩,
    ⟨"LEAST", [.booleanType, .booleanType], .ofClass .booleanType⟩]

def sqliteFuncs : List FuncSpec :=
  [⟨"ABS", [.numericType], .arg0⟩, ⟨"ABS", [.doubleType], .arg0⟩,
    ⟨"LENGTH", [.varcharType], .ofClass .integerType⟩,
    ⟨"UPPER", [.varcharType], .ofClass .varcharType⟩,
    ⟨"LOWER", [.varcharType], .ofClass .varcharType⟩,
    ⟨"TRIM", [.varcharType], .ofClass .varcharType⟩,
    ⟨"LTRIM", [.varcharType], .ofClass .varcharType⟩,
    ⟨"RTRIM", [.varcharType], .ofClass .varcharType⟩,
    ⟨"REPLACE", [.varcharType, .varcharType, .varcharType], .ofClass .varcharType⟩,
    ⟨"SUBSTR", [.varcharType, .integerType], .ofClass .varcharType⟩,
    ⟨"SUBSTR", [.varcharType, .integerType, .integerType], .ofClass .varcharType⟩,
    ⟨"INSTR", [.varcharType, .varcharType], .ofClass .integerType⟩,
    ⟨"HEX", [.varcharType], .ofClass .varcharType⟩,
    ⟨"QUOTE", [.varcharType], .ofClass .varcharType⟩,
    ⟨"IFNULL", [.integerType, .integerType], .arg0⟩,
    ⟨"IFNULL", [.varcharType, .varcharType], .ofClass .varcharType⟩,
    ⟨"NULLIF", [.integerType, .integerType], .arg0⟩,
    ⟨"NULLIF", [.varcharType, .varcharType], .ofClass .varcharType⟩,
    ⟨"COALESCE", [.integerType, .integerType], .arg0⟩,
    ⟨"COALESCE", [.varcharType, .varcharType], .ofClass .varcharType⟩,
    ⟨"max", [.numericType, .numericType], .arg0⟩, ⟨"max", [.doubleType, .doubleType], .arg0⟩,
    ⟨"max", [.varcharType, .varcharType], .ofClass .varcharType⟩,
    ⟨"min", [.numericType, .numericType], .arg0⟩, ⟨"min", [.doubleType, .doubleType], .arg0⟩,
    ⟨"min", [.varcharType, .varcharType], .ofClass .varcharType⟩]

def clickhouseFuncs : List FuncSpec :=
  [⟨"ABS", [.integerType], .arg0⟩, ⟨"ABS", [.doubleType], .arg0⟩,
    ⟨"CEIL", [.doubleType], .ofClass .doubleType⟩, ⟨"FLOOR", [.doubleType], .ofClass .doubleType⟩,
    ⟨"SIGN", [.integerType], .arg0⟩, ⟨"SIGN", [.doubleType], .arg0⟩,
    ⟨"LENGTH", [.varcharType], .ofClass .integerType⟩,
    ⟨"UPPER", [.varcharType], .ofClass .varcharType⟩,
    ⟨"LOWER", [.varcharType], .ofClass .varcharType⟩,
    ⟨"endsWith", [.varcharType, .varcharType], .ofClass .integerType⟩,
    ⟨"startsWith", [.varcharType, .varcharType], .ofClass .integerType⟩,
    ⟨"position", [.varcharType, .varcharType], .ofClass .integerType⟩,
    ⟨"substring", [.varcharType, .integerType], .ofClass .varcharType⟩,
    ⟨"GREATEST", [.integerType, .integerType], .arg0⟩,
    ⟨"GREATEST", [.doubleType, .doubleType], .arg0⟩,
    ⟨"GREATEST", [.varcharType, .varcharType], .ofClass .varcharType⟩,
    ⟨"LEAST", [.integerType, .integerType], .arg0⟩, ⟨"LEAST", [.doubleType, .doubleType], .arg0⟩,
    ⟨"LEAST", [.varcharType, .varcharType], .ofClass .varcharType⟩,
    ⟨"ifNull", [.integerType, .integerType], .arg0⟩, ⟨"ifNull", [.doubleType, .doubleType], .arg0⟩,
    ⟨"ifNull", [.varcharType, .varcharType], .ofClass .varcharType⟩,
    ⟨"nullIf", [.integerType, .integerType], .arg0⟩,
    ⟨"nullIf", [.varcharType, .varcharType], .ofClass .varcharType⟩,
    ⟨"coalesce", [.integerType, .integerType], .arg0⟩,
    ⟨"coalesce", [.varcharType, .varcharType], .ofClass .varcharType⟩,
    ⟨"trim", [.varcharType], .ofClass .varcharType⟩,
    ⟨"reverse", [.varcharType], .ofClass .varcharType⟩,
    ⟨"toString", [.integerType], .ofClass .varcharType⟩]

def mysqlFuncs : List FuncSpec :=
  [⟨"ABS", [.numericType], .arg0⟩, ⟨"ABS", [.doubleType], .arg0⟩, ⟨"CEIL", [.numericType], .arg0⟩,
    ⟨"CEIL", [.doubleType], .ofClass .doubleType⟩, ⟨"FLOOR", [.numericType], .arg0⟩,
    ⟨"FLOOR", [.doubleType], .ofClass .doubleType⟩, ⟨"SIGN", [.numericType], .ofClass .integerType⟩,
    ⟨"SIGN", [.doubleType], .ofClass .integerType⟩,
    ⟨"CHAR_LENGTH", [.varcharType], .ofClass .integerType⟩,
    ⟨"UPPER", [.varcharType], .ofClass .varcharType⟩,
    ⟨"LOWER", [.varcharType], .ofClass .varcharType⟩,
    ⟨"ASCII", [.varcharType], .ofClass .integerType⟩,
    ⟨"GREATEST", [.numericType, .numericType], .arg0⟩,
    ⟨"GREATEST", [.doubleType, .doubleType], .arg0⟩,
    ⟨"GREATEST", [.varcharType, .varcharType], .ofClass .varcharType⟩,
    ⟨"LEAST", [.numericType, .numericType], .arg0⟩, ⟨"LEAST", [.doubleType, .doubleType], .arg0⟩,
    ⟨"LEAST", [.varcharType, .varcharType], .ofClass .varcharType⟩]

/-- `catalog_for` -/
def catalogFor (dialect : String) : Option (List FuncSpec) :=
  if dialect = "postgres" ∨ dialect = "cratedb" then some pgFuncs
  else if dialect = "duckdb" then some duckdbFuncs
  else if dialect = "sqlite" then some sqliteFuncs
  else if dialect = "clickhouse" then some clickhouseFuncs
  else if dialect ∈ ["mysql", "mariadb", "tidb", "dolt"] then some mysqlFuncs
  else none

end EqGen.Generators.TypedPredicate.Functions
