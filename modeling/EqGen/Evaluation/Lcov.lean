import Mathlib.Algebra.BigOperators.Group.List.Basic
import Mathlib.Algebra.Order.BigOperators.Group.List
import EqGen.Lib.Lines
import EqGen.Lib.Numerals

/-!
`_parse_lcov_info` of `gcov.py`: the text of an `lcov.info` becomes aggregates and one row for
each file. The percentages and the two constant fields of the report are left out.
-/

namespace EqGen.Evaluation.Lcov

open EqGen.Lib.Lines
open EqGen.Lib.Numerals

/-- One `DA` record. -/
structure Line where
  lineNumber : Int
  count : Int
  deriving DecidableEq, Repr

/-- The row of a file. -/
structure FileRow where
  filename : String
  lineCovered : Nat := 0
  lineTotal : Nat := 0
  branchCovered : Nat := 0
  branchTotal : Nat := 0
  functionCovered : Nat := 0
  functionTotal : Nat := 0
  lines : List Line := []
  deriving DecidableEq, Repr

structure Report where
  lineCovered : Nat := 0
  lineTotal : Nat := 0
  branchCovered : Nat := 0
  branchTotal : Nat := 0
  functionCovered : Nat := 0
  functionTotal : Nat := 0
  files : List FileRow := []
  deriving DecidableEq, Repr

/-- Where the reader stands: what is flushed, and the row of the open file if there is one. -/
structure ParseState where
  report : Report := {}
  current : Option FileRow := none

/-- `flush()` -/
def flush (state : ParseState) : ParseState :=
  match state.current with
  | none => state
  | some row =>
    { report :=
        { lineCovered := state.report.lineCovered + row.lineCovered
          lineTotal := state.report.lineTotal + row.lineTotal
          branchCovered := state.report.branchCovered + row.branchCovered
          branchTotal := state.report.branchTotal + row.branchTotal
          functionCovered := state.report.functionCovered + row.functionCovered
          functionTotal := state.report.functionTotal + row.functionTotal
          files := state.report.files ++ [row] }
      current := none }

/-- What follows a tag at the start of a line. -/
def afterTag (tag : String) (raw : List Char) : Option (List Char) :=
  if tag.toList.isPrefixOf raw then some (raw.drop tag.toList.length) else none

/-- `DA:<line>,<hits>` -/
def readLine (rest : List Char) : Option Line :=
  match rest.dropWhile (· ≠ ',') with
  | [] => none
  | _ :: hits => do
    let lineNumber ← int (rest.takeWhile (· ≠ ','))
    let count ← int (hits.takeWhile (· ≠ ','))
    return ⟨lineNumber, count⟩

def addLine (line : Line) (row : FileRow) : FileRow :=
  { row with
    lines := row.lines ++ [line]
    lineTotal := row.lineTotal + 1
    lineCovered := if 0 < line.count then row.lineCovered + 1 else row.lineCovered }

/-- `BRDA:<line>,<block>,<branch>,<taken>`: a branch that was never evaluated is not counted. -/
def addBranch (rest : List Char) (row : FileRow) : FileRow :=
  match (rest.splitOn ',')[3]? with
  | none => row
  | some taken =>
    if taken = ['-'] then row
    else
      { row with
        branchTotal := row.branchTotal + 1
        branchCovered := if taken ≠ ['0'] then row.branchCovered + 1 else row.branchCovered }

/-- `FNDA:<hits>,<name>` -/
def addFunction (rest : List Char) (row : FileRow) : FileRow :=
  match int (rest.takeWhile (· ≠ ',')) with
  | none => row
  | some hits =>
    { row with
      functionTotal := row.functionTotal + 1
      functionCovered := if 0 < hits then row.functionCovered + 1 else row.functionCovered }

/-- What a record of an open file adds to its row. -/
def addRecord (raw : List Char) (row : FileRow) : FileRow :=
  match afterTag "DA:" raw with
  | some rest => (readLine rest).elim row fun line => addLine line row
  | none =>
  match afterTag "BRDA:" raw with
  | some rest => addBranch rest row
  | none =>
  match afterTag "FNDA:" raw with
  | some rest => addFunction rest row
  | none => row

/-- One line of the text. -/
def step (state : ParseState) (raw : List Char) : ParseState :=
  match afterTag "SF:" raw with
  | some name => { flush state with current := some { filename := String.ofList name } }
  | none =>
    if raw = "end_of_record".toList then flush state
    else { state with current := state.current.map (addRecord raw) }

/-- `_parse_lcov_info` -/
def parseLcovInfo (text : String) : Report :=
  (flush ((splitlines (universalNewlines text.toList)).foldl step {})).report

section Rows

/-- The row counts its lines, and covers no more than it has. -/
structure FileRow.Counted (row : FileRow) : Prop where
  lineTotal : row.lineTotal = row.lines.length
  lineCovered : row.lineCovered = row.lines.countP fun line => 0 < line.count
  branch : row.branchCovered ≤ row.branchTotal
  function : row.functionCovered ≤ row.functionTotal

/-- The aggregates are the sums over the files. -/
structure Report.Summed (report : Report) : Prop where
  lineCovered : report.lineCovered = (report.files.map FileRow.lineCovered).sum
  lineTotal : report.lineTotal = (report.files.map FileRow.lineTotal).sum
  branchCovered : report.branchCovered = (report.files.map FileRow.branchCovered).sum
  branchTotal : report.branchTotal = (report.files.map FileRow.branchTotal).sum
  functionCovered : report.functionCovered = (report.files.map FileRow.functionCovered).sum
  functionTotal : report.functionTotal = (report.files.map FileRow.functionTotal).sum

theorem FileRow.Counted.start (name : String) : FileRow.Counted { filename := name } :=
  ⟨rfl, rfl, Nat.le_refl _, Nat.le_refl _⟩

theorem FileRow.Counted.addLine {row : FileRow} (h : row.Counted) (line : Line) :
    (addLine line row).Counted where
  lineTotal := by
    rw [Lcov.addLine, List.length_append, ← h.lineTotal]
    rfl
  lineCovered := by
    rw [Lcov.addLine, List.countP_append, ← h.lineCovered, List.countP_singleton]
    by_cases hcount : 0 < line.count <;> simp [hcount]
  branch := h.branch
  function := h.function

theorem FileRow.Counted.addBranch {row : FileRow} (h : row.Counted) (rest : List Char) :
    (addBranch rest row).Counted := by
  unfold Lcov.addBranch
  split
  · exact h
  · split
    · exact h
    · refine ⟨h.lineTotal, h.lineCovered, ?_, h.function⟩
      show (if _ then _ else _) ≤ row.branchTotal + 1
      split
      · exact Nat.succ_le_succ h.branch
      · exact Nat.le_succ_of_le h.branch

theorem FileRow.Counted.addFunction {row : FileRow} (h : row.Counted) (rest : List Char) :
    (addFunction rest row).Counted := by
  unfold Lcov.addFunction
  split
  · exact h
  · refine ⟨h.lineTotal, h.lineCovered, h.branch, ?_⟩
    show (if _ then _ else _) ≤ row.functionTotal + 1
    split
    · exact Nat.succ_le_succ h.function
    · exact Nat.le_succ_of_le h.function

theorem FileRow.Counted.addRecord {row : FileRow} (h : row.Counted) (raw : List Char) :
    (addRecord raw row).Counted := by
  unfold Lcov.addRecord
  split
  · cases readLine _ with
    | none => exact h
    | some line => exact h.addLine line
  · split
    · exact h.addBranch _
    · split
      · exact h.addFunction _
      · exact h

/-- What holds of the reader after every line. -/
structure ParseState.Sound (state : ParseState) : Prop where
  summed : state.report.Summed
  files : ∀ row ∈ state.report.files, row.Counted
  current : ∀ row ∈ state.current, row.Counted

theorem ParseState.Sound.flush {state : ParseState} (h : state.Sound) :
    (flush state).Sound ∧ (Lcov.flush state).current = none := by
  unfold Lcov.flush
  split
  · next hcurrent => exact ⟨h, hcurrent⟩
  · next row hcurrent =>
      refine ⟨⟨?_, ?_, by simp⟩, rfl⟩
      · constructor <;> simp [h.summed.lineCovered, h.summed.lineTotal, h.summed.branchCovered,
          h.summed.branchTotal, h.summed.functionCovered, h.summed.functionTotal]
      · intro row' hrow'
        rcases List.mem_append.mp hrow' with hrow' | hrow'
        · exact h.files row' hrow'
        · rw [List.mem_singleton.mp hrow']
          exact h.current row hcurrent

theorem ParseState.Sound.step {state : ParseState} (h : state.Sound) (raw : List Char) :
    (step state raw).Sound := by
  unfold Lcov.step
  split
  · refine ⟨h.flush.1.summed, h.flush.1.files, fun row hrow => ?_⟩
    rw [← Option.some.inj hrow]
    exact .start _
  · split
    · exact h.flush.1
    · refine ⟨h.summed, h.files, fun row hrow => ?_⟩
      obtain ⟨row', hrow', rfl⟩ := Option.map_eq_some_iff.mp hrow
      exact (h.current row' hrow').addRecord raw

theorem ParseState.Sound.run {state : ParseState} (h : state.Sound) (lines : List (List Char)) :
    (lines.foldl Lcov.step state).Sound := by
  induction lines generalizing state with
  | nil => exact h
  | cons raw lines ih => exact ih (h.step raw)

theorem sound_start : ParseState.Sound {} :=
  ⟨⟨rfl, rfl, rfl, rfl, rfl, rfl⟩, by simp, by simp⟩

/-- Whatever the text, the aggregates are the sums over the files. -/
theorem summed_parseLcovInfo (text : String) : (parseLcovInfo text).Summed :=
  (sound_start.run _).flush.1.summed

/-- Whatever the text, every row counts its lines and covers no more than it has. -/
theorem counted_parseLcovInfo (text : String) : ∀ row ∈ (parseLcovInfo text).files, row.Counted :=
  (sound_start.run _).flush.1.files

theorem FileRow.Counted.line {row : FileRow} (h : row.Counted) :
    row.lineCovered ≤ row.lineTotal := by
  rw [h.lineCovered, h.lineTotal]
  exact List.countP_le_length

end Rows

section Records

/-- A file of the text with the lines of its `DA` records. -/
structure Source where
  filename : String
  lines : List Line
  deriving DecidableEq, Repr

/-- The name that a line opens a file with. -/
def sourceFile (raw : List Char) : Option String :=
  (afterTag "SF:" raw).map String.ofList

/-- The records of a file go on up to the next file, or an end. -/
def isOpen (raw : List Char) : Bool :=
  (sourceFile raw).isNone && raw ≠ "end_of_record".toList

/-- The line of a well-formed `DA` record. -/
def lineRecord (raw : List Char) : Option Line :=
  (afterTag "DA:" raw).bind readLine

/-- The files of a text, in the order of their `SF` lines. -/
def sources : List (List Char) → List Source
  | [] => []
  | raw :: rest =>
    (sourceFile raw).toList.map (fun name => ⟨name, (rest.takeWhile isOpen).filterMap lineRecord⟩) ++
      sources rest

def sourcesOf (text : String) : List Source :=
  sources (splitlines (universalNewlines text.toList))

def FileRow.source (row : FileRow) : Source := ⟨row.filename, row.lines⟩

/-- The files that a state has read once the rest is read: the open one goes on into the rest. -/
def ParseState.sources (state : ParseState) (rest : List (List Char)) : List Source :=
  state.report.files.map FileRow.source ++
    (state.current.map fun row =>
      ⟨row.filename, row.lines ++ (rest.takeWhile isOpen).filterMap lineRecord⟩).toList ++
    Lcov.sources rest

theorem sources_flush (state : ParseState) :
    (flush state).report.files.map FileRow.source = state.sources [] := by
  unfold flush
  split
  · next hcurrent => simp [ParseState.sources, sources, hcurrent]
  · next row hcurrent => simp [ParseState.sources, sources, hcurrent, FileRow.source]

theorem source_addRecord (raw : List Char) (row : FileRow) :
    (addRecord raw row).source = ⟨row.filename, row.lines ++ (lineRecord raw).toList⟩ := by
  unfold addRecord lineRecord
  split
  · next rest hrest =>
      rw [hrest, Option.bind_some]
      cases readLine rest <;> simp [addLine, FileRow.source]
  · next hrest =>
      rw [hrest, Option.bind_none, Option.toList_none, List.append_nil]
      split
      · unfold addBranch
        split
        · rfl
        · split <;> rfl
      · split
        · unfold addFunction
          split <;> rfl
        · rfl

theorem current_flush (state : ParseState) : (flush state).current = none := by
  unfold flush
  split
  · assumption
  · rfl

/-- A line that closes the open file leaves it without further lines. -/
theorem sources_of_closed {state : ParseState} {raw : List Char} (hopen : isOpen raw = false)
    (rest : List (List Char)) : state.sources (raw :: rest) =
      (flush state).report.files.map FileRow.source ++ sources (raw :: rest) := by
  rw [sources_flush, ParseState.sources, ParseState.sources, List.takeWhile_cons, hopen,
    List.takeWhile_nil, sources, sources, List.append_nil]
  rfl

theorem sources_step (state : ParseState) (raw : List Char) (rest : List (List Char)) :
    (step state raw).sources rest = state.sources (raw :: rest) := by
  unfold step
  split
  · next name hname =>
      have hfile : sourceFile raw = some (String.ofList name) := by rw [sourceFile, hname]; rfl
      have hopen : isOpen raw = false := by rw [isOpen, hfile]; rfl
      rw [sources_of_closed hopen, ParseState.sources, sources, hfile, List.append_assoc]
      rfl
  · next hname =>
      have hfile : sourceFile raw = none := by rw [sourceFile, hname]; rfl
      have hrest : sources (raw :: rest) = sources rest := by rw [sources, hfile]; rfl
      split
      · next hend =>
          have hopen : isOpen raw = false := by rw [isOpen, hfile, hend]; rfl
          rw [sources_of_closed hopen, hrest, ParseState.sources, current_flush, Option.map_none,
            Option.toList_none, List.append_nil]
      · next hend =>
          have hopen : isOpen raw = true := by rw [isOpen, hfile, decide_eq_true hend]; rfl
          rw [ParseState.sources, ParseState.sources, hrest, Option.map_map, List.takeWhile_cons,
            hopen, if_pos rfl, List.filterMap_cons]
          congr 4
          funext row
          have hsource := source_addRecord raw row
          simp only [FileRow.source, Source.mk.injEq] at hsource
          rw [Function.comp_apply, hsource.1, hsource.2, List.append_assoc]
          cases lineRecord raw <;> rfl

theorem sources_run (state : ParseState) (rest : List (List Char)) :
    (flush (rest.foldl step state)).report.files.map FileRow.source = state.sources rest := by
  induction rest generalizing state with
  | nil => exact sources_flush state
  | cons raw rest ih => rw [List.foldl_cons, ih, sources_step]

/-- The report has a row for each file of the text, with the lines of its records. -/
theorem sources_parseLcovInfo (text : String) :
    (parseLcovInfo text).files.map FileRow.source = sourcesOf text :=
  sources_run {} _

end Records

end EqGen.Evaluation.Lcov
