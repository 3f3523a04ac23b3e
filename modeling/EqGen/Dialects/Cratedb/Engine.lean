import Mathlib.Data.Finset.SDiff
import Mathlib.Data.Finset.Disjoint
import EqGen.Dialects.Cratedb.Statement

/-!
The engine behind a connection: a catalog of tables and views with disjoint names, where the
rows written to a table stay invisible until the table is refreshed.
-/

namespace EqGen.Dialects.Cratedb.Engine

open EqGen.Lib.Lines
open EqGen.Dialects.Cratedb.Refresh
open EqGen.Dialects.Cratedb.Statement

section Reading

/-- The identifier at the front of a text, and what follows it. -/
def readIdent : Text → Option (Text × Text)
  | [] => none
  | c :: cs =>
      if c = '"' then
        match cs.dropWhile notQuote with
        | [] => none
        | _ :: rest => some (cs.takeWhile notQuote, rest)
      else
        some (((c :: cs).takeWhile identPart).map Char.toLower, (c :: cs).dropWhile identPart)

def readName (defaultSchema text : Text) : Option Obj :=
  match readIdent text with
  | none => none
  | some (first, rest) =>
      match rest.dropWhile isSpace with
      | [] => some ⟨defaultSchema, first⟩
      | c :: more =>
          if c = '.' then
            match readIdent (more.dropWhile isSpace) with
            | some (second, []) => some ⟨first, second⟩
            | _ => none
          else none

/-- The table a `REFRESH TABLE` statement names. -/
def readRefresh (defaultSchema text : Text) : Option Obj :=
  readName defaultSchema (text.drop (refreshTable []).length)

end Reading

structure Catalog where
  tables : Finset Obj
  views : Finset Obj
  pending : Finset Obj
  disjoint : Disjoint tables views
  pending_subset : pending ⊆ tables

namespace Catalog

def empty : Catalog where
  tables := ∅
  views := ∅
  pending := ∅
  disjoint := Finset.disjoint_empty_left _
  pending_subset := Finset.Subset.refl _

def addTable (catalog : Catalog) (obj : Obj) (rows : Bool) (h : obj ∉ catalog.views) :
    Catalog where
  tables := insert obj catalog.tables
  views := catalog.views
  pending := if rows then insert obj catalog.pending else catalog.pending
  disjoint := Finset.disjoint_insert_left.mpr ⟨h, catalog.disjoint⟩
  pending_subset := by
    have hpending := catalog.pending_subset
    split
    · exact Finset.insert_subset_insert obj hpending
    · exact hpending.trans (Finset.subset_insert obj _)

def addView (catalog : Catalog) (obj : Obj) (h : obj ∉ catalog.tables) : Catalog where
  tables := catalog.tables
  views := insert obj catalog.views
  pending := catalog.pending
  disjoint := Finset.disjoint_insert_right.mpr ⟨h, catalog.disjoint⟩
  pending_subset := catalog.pending_subset

/-- Rows written to some of the existing tables. -/
def write (catalog : Catalog) (objs : Finset Obj) : Catalog where
  tables := catalog.tables
  views := catalog.views
  pending := catalog.pending ∪ objs ∩ catalog.tables
  disjoint := catalog.disjoint
  pending_subset := Finset.union_subset catalog.pending_subset Finset.inter_subset_right

def dropTables (catalog : Catalog) (objs : Finset Obj) : Catalog where
  tables := catalog.tables \ objs
  views := catalog.views
  pending := catalog.pending \ objs
  disjoint := catalog.disjoint.mono_left Finset.sdiff_subset
  pending_subset := Finset.sdiff_subset_sdiff catalog.pending_subset (Finset.Subset.refl objs)

def dropViews (catalog : Catalog) (objs : Finset Obj) : Catalog where
  tables := catalog.tables
  views := catalog.views \ objs
  pending := catalog.pending
  disjoint := catalog.disjoint.mono_right Finset.sdiff_subset
  pending_subset := catalog.pending_subset

def refreshed (catalog : Catalog) (obj : Obj) : Catalog where
  tables := catalog.tables
  views := catalog.views
  pending := catalog.pending.erase obj
  disjoint := catalog.disjoint
  pending_subset := (Finset.erase_subset obj _).trans catalog.pending_subset

end Catalog

/-- The tables an action writes rows to. -/
def Action.written : Action → Finset Obj
  | .insertValues obj | .write obj => {obj}
  | .other objs => objs
  | _ => ∅

variable (catalog : Catalog)

/-- The catalog after an action that succeeds, or nothing where the engine must reject it.
`rows` tells whether it writes any rows. -/
def applyAction (rows : Bool) : Action → Option Catalog
  | .createTable ifNotExists obj =>
      if obj ∈ catalog.tables ∪ catalog.views then
        if ifNotExists then some catalog else none
      else if h : obj ∈ catalog.views then none
      else some (catalog.addTable obj false h)
  | .createTableAs ifNotExists obj =>
      if obj ∈ catalog.tables ∪ catalog.views then
        if ifNotExists then some catalog else none
      else if h : obj ∈ catalog.views then none
      else some (catalog.addTable obj rows h)
  | .createView orReplace obj =>
      if h : obj ∈ catalog.tables then none
      else if obj ∈ catalog.views ∧ orReplace = false then none
      else some (catalog.addView obj h)
  | .insertValues obj | .write obj =>
      if obj ∈ catalog.tables then
        some (if rows then catalog.write {obj} else catalog)
      else none
  | .rename obj name =>
      let target : Obj := ⟨obj.schema, name⟩
      if target ∈ catalog.tables ∪ catalog.views then none
      else if obj ∈ catalog.tables then
        if h : target ∈ (catalog.dropTables {obj}).views then none
        else some ((catalog.dropTables {obj}).addTable target (decide (obj ∈ catalog.pending)) h)
      else if obj ∈ catalog.views then
        if h : target ∈ (catalog.dropViews {obj}).tables then none
        else some ((catalog.dropViews {obj}).addView target h)
      else none
  | .drop .table ifExists objs =>
      if ifExists = false ∧ ∃ obj ∈ objs, obj ∉ catalog.tables then none
      else some (catalog.dropTables objs.toFinset)
  | .drop .view ifExists objs =>
      if ifExists = false ∧ ∃ obj ∈ objs, obj ∉ catalog.views then none
      else some (catalog.dropViews objs.toFinset)
  | .query => some catalog
  | .other objs => some (if rows then catalog.write objs else catalog)

example (obj : Obj) : applyAction .empty true (.insertValues obj) = none := by
  simp [applyAction, Catalog.empty]

/-- A failed write may have written rows; nothing else has happened. -/
def failAction (rows : Bool) (action : Action) : Catalog :=
  if rows then catalog.write (Action.written action) else catalog

inductive Reply where
  | done
  | undefinedTable
  | error
  deriving DecidableEq

/-- A refresh fails with SQLSTATE 42P01 for a missing table, and perhaps with another error. -/
def refresh (defaultSchema : Text) (fails : Bool) (statement : Text) : Reply × Catalog :=
  if fails then (.error, catalog)
  else
    match readRefresh defaultSchema statement with
    | some obj => if obj ∈ catalog.tables then (.done, catalog.refreshed obj)
        else (.undefinedTable, catalog)
    | none => (.undefinedTable, catalog)

end EqGen.Dialects.Cratedb.Engine
