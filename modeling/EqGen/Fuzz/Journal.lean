import Mathlib.Data.List.Basic

/-!
The per-round log file, by the calls that write it. A query is written before it runs, its
verdict after; everything else is a remark.
-/

namespace EqGen.Fuzz.Journal

/-- A call that writes no query: `QueryJournal.note` or `QueryJournal.record`. -/
inductive Remark where
  | note (message : String)
  | record (title : String) (lines : List String)
  deriving DecidableEq, Repr

/-- One call on a `QueryJournal`; `verdict` is its method `end`. -/
inductive JournalWrite where
  | begin (sql : String)
  | verdict (text : String)
  | annotate (remark : Remark)
  deriving DecidableEq, Repr

/-- The queries a journal says were begun, in order. -/
def begun : List JournalWrite → List String
  | [] => []
  | .begin sql :: writes => sql :: begun writes
  | _ :: writes => begun writes

@[simp]
theorem begun_append (writes more : List JournalWrite) :
    begun (writes ++ more) = begun writes ++ begun more := by
  induction writes with
  | nil => rfl
  | cons write writes ih => cases write <;> simp [begun, ih]

@[simp]
theorem begun_map_annotate (remarks : List Remark) :
    begun (remarks.map JournalWrite.annotate) = [] := by
  induction remarks with
  | nil => rfl
  | cons remark remarks ih => simpa [begun] using ih

end EqGen.Fuzz.Journal
