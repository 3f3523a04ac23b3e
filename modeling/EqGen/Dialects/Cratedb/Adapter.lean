import EqGen.Dialects.Cratedb.Engine
import EqGen.Lib.Machine

/-! The connection: `_CrateConnection._run_fence` and `_CrateConnection.execute`. -/

namespace EqGen.Dialects.Cratedb.Adapter

open EqGen.Dialects.Cratedb.Refresh
open EqGen.Dialects.Cratedb.Statement
open EqGen.Dialects.Cratedb.Engine

/-- A connection, its engine, and the statements sent so far, each with the catalog it met. -/
structure Session where
  fence : FenceState
  catalog : Catalog
  sent : List (Action × Catalog)

def Session.empty : Session := ⟨{}, .empty, []⟩

/-- A statement to execute, and what the engine makes of it and of the refreshes before it. -/
structure Call (tables : UnicodeTables) where
  stmt : Stmt tables
  refreshFails : Text → Bool
  fails : Bool
  rows : Bool

section Execute

variable (defaultSchema : Text)

/-- Send refreshes until one raises; a missing table is passed over. -/
def sendRefreshes (fails : Text → Bool) : Catalog → List Text → Bool × Catalog
  | catalog, [] => (true, catalog)
  | catalog, statement :: statements =>
      match refresh catalog defaultSchema (fails statement) statement with
      | (.error, catalog) => (false, catalog)
      | (_, catalog) => sendRefreshes fails catalog statements

variable {tables : UnicodeTables}

/-- The refreshes before a statement. -/
def refreshes (fence : FenceState) (sql : Text) : List Text :=
  if (classify tables sql).mayRead then
    if fence.paranoidBefore = [] then fence.before tables sql else fence.paranoidBefore
  else fence.before tables sql

def execute (session : Session) (call : Call tables) : Session :=
  let sql := call.stmt.text
  let action := call.stmt.action defaultSchema
  let statements := @refreshes tables session.fence sql
  match sendRefreshes defaultSchema call.refreshFails session.catalog statements with
  | (false, catalog) => { session with catalog := catalog }
  | (true, catalog) =>
      let fence := if statements = [] then session.fence else session.fence.flushed
      let sent := session.sent ++ [(action, catalog)]
      match (if call.fails then none else applyAction catalog call.rows action) with
      | none => ⟨fence, failAction catalog call.rows action, sent⟩
      | some catalog => ⟨fence.after tables sql, catalog, sent⟩

end Execute

/-- No statement other than an `INSERT` of values was sent while rows of an existing table were
not refreshed. -/
def Session.ReadsOwnWrites (session : Session) : Prop :=
  ∀ entry ∈ session.sent, (∃ obj, entry.1 = .insertValues obj) ∨ entry.2.pending = ∅

end EqGen.Dialects.Cratedb.Adapter
