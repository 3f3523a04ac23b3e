import Mathlib.Data.List.Nodup
import EqGen.Core.Catalog

/-!
What the harness needs to know about one engine, and the statements that build the two
databases of a round.
-/

namespace EqGen.Fuzz.Databases

open EqGen.Core.Catalog

/-- The members of `DialectAdapter` that spell the physical databases. -/
structure DialectAdapter (Value : Type) where
  baseTableDdl : Table → String
  literal : Value → String
  engineBanner : String
  renameAsideSql : String → String → String :=
    fun name hidden => s!"ALTER TABLE {name} RENAME TO {hidden}"
  forkCopySql : String → String → List String :=
    fun seedName exposedName => [s!"CREATE TABLE {exposedName} AS SELECT * FROM {seedName}"]

/-- Suffix the base table is renamed to in the equivalent's database. -/
def baseSuffix : String := "__base"

/-- The name the base table hides under so that the equivalent can take its own. -/
def hiddenBaseName (table : Table) : String :=
  table.getSqlName false ++ baseSuffix

/-- Visible relation names of a round: the seed name alone, or one numbered name a fork. -/
def exposedForkNames (forks : Nat) (seedName : String) : Except String (List String) :=
  if forks < 1 then .error s!"forks must be >= 1, got {forks}"
  else if forks = 1 then .ok [seedName]
  else .ok ((List.range forks).map fun i => s!"{seedName}{i}")

/-- The forks of a round are visible under names of their own. -/
theorem nodup_exposedForkNames {forks : Nat} {seedName : String} {names : List String}
    (h : exposedForkNames forks seedName = .ok names) : names.Nodup := by
  unfold exposedForkNames at h
  split_ifs at h
  · cases h
    exact List.nodup_singleton seedName
  · cases h
    apply List.Nodup.map _ List.nodup_range
    intro i j heq
    have hdigits : Nat.toDigits 10 i = Nat.toDigits 10 j := by
      simpa using congrArg String.toList heq
    rw [← @Nat.ofDigitChars_ten_toDigits i, hdigits, Nat.ofDigitChars_ten_toDigits]

variable {Value : Type}

/-- Copy the seed table to every other exposed name. -/
def forkCopyStatements (adapter : DialectAdapter Value) (seedName : String) :
    List String → List String
  | [] => []
  | name :: names =>
      if name = seedName then forkCopyStatements adapter seedName names
      else adapter.forkCopySql seedName name ++ forkCopyStatements adapter seedName names

/-- `CREATE TABLE` plus one `INSERT` per row. -/
def baseSetupStatements (adapter : DialectAdapter Value) (table : Table)
    (rows : List (List Value)) : List String :=
  adapter.baseTableDdl table :: rows.map fun row =>
    let values := ", ".intercalate (row.map adapter.literal)
    s!"INSERT INTO {table.getSqlName false} VALUES ({values})"

/-- A database, by the statements its connection has been given. -/
structure Database where
  executed : List String
  deriving DecidableEq, Repr

/-- A fresh connection. -/
def Database.connect : Database := ⟨[]⟩

/-- Execute statements in order. -/
def Database.run (database : Database) (statements : List String) : Database :=
  statements.foldl (fun db statement => ⟨db.executed ++ [statement]⟩) database

@[simp]
theorem Database.executed_run (database : Database) (statements : List String) :
    (database.run statements).executed = database.executed ++ statements := by
  induction statements generalizing database with
  | nil => simp [Database.run]
  | cons statement statements ih =>
      have h := ih ⟨database.executed ++ [statement]⟩
      simp only [Database.run, List.foldl_cons] at h ⊢
      simpa using h

/-- A database holding the populated base table and its copies under the exposed names. -/
def Database.buildBase (adapter : DialectAdapter Value) (table : Table)
    (rows : List (List Value)) (exposedNames : List String) : Database :=
  let database := Database.connect.run (baseSetupStatements adapter table rows)
  let names := if exposedNames = [] then [table.getSqlName false] else exposedNames
  database.run (forkCopyStatements adapter (table.getSqlName false) names)

/-- A database holding the base table renamed aside and the equivalence. -/
def Database.buildEquivalent (adapter : DialectAdapter Value) (table : Table)
    (rows : List (List Value)) (statements : List String) : Database :=
  let database := Database.connect.run (baseSetupStatements adapter table rows)
  let database :=
    database.run [adapter.renameAsideSql (table.getSqlName false) (hiddenBaseName table)]
  database.run statements

end EqGen.Fuzz.Databases
