import EqGen.Fuzz.Freeze
import EqGen.Lib.Lines

/-!
`DuckDbCliConnection._run` of `dialects/duckdb/cli.py`: one statement's block of output, read
up to the token line.
-/

namespace EqGen.Dialects.Duckdb.Cli

open EqGen.Fuzz.Freeze
open EqGen.Fuzz.Frozen
open EqGen.Fuzz.JsonValues
open EqGen.Fuzz.Printed
open EqGen.Lib.Lines
open EqGen.Lib.Trees

/-- The process at the other end: its token, and what `json.loads` makes of a line of it. -/
structure Process where
  hex : String
  loads : String → Option Members

def Process.token (process : Process) : String :=
  "__EQGEN_" ++ process.hex ++ "__"

theorem token_brace (process : Process) : process.token.toList.head? ≠ some '\x7b' := by
  simp [Process.token, String.toList_append]

mutual

/-- `object_pairs_hook`, which is called on every object, the innermost first. -/
def hooked : Json → Json
  | .list items => .list (hookedAll items)
  | .object members => .list (pairValues members)
  | value => value

def hookedAll : List Json → List Json
  | [] => []
  | item :: items => hooked item :: hookedAll items

/-- `[v for _, v in pairs]` -/
def pairValues : Members → List Json
  | [] => []
  | (_, value) :: members => hooked value :: pairValues members

end

/-- The errors of the driver: the process died, or the text of a failed statement. -/
inductive DuckdbError where
  | exited
  | statement (text : String)
  deriving DecidableEq

/-- What a line of the block adds. -/
inductive Reading where
  | row (cells : List Json)
  | error (line : String)
  | blank

variable (process : Process)

def readLine (line : String) : Reading :=
  if line.toList.head? = some '\x7b' then
    match process.loads line with
    | some members => .row (pairValues members)
    | none => .error line
  else if isBlank line.toList then .blank
  else .error line

/-- `_run`, from the lines the process prints; the end of the lines is the end of the file. -/
def run : List String → List (List Json) → List String → Except DuckdbError (List (List Json))
  | [], _, _ => .error .exited
  | line :: lines, rows, errors =>
    if line = process.token then
      if errors = [] then .ok rows else .error (.statement ("\n".intercalate errors))
    else
      match readLine process line with
      | .row cells => run lines (rows ++ [cells]) errors
      | .error line => run lines rows (errors ++ [line])
      | .blank => run lines rows errors

example (rows : List (List Json)) : run process [process.token] rows [] = .ok rows := by
  rw [run, if_pos rfl, if_pos rfl]

/--
One thing the process prints for a statement: a row as one JSON object, or a line of error
text, which is not the token.
-/
inductive Output where
  | row (text : String) (members : Members) (brace : text.toList.head? = some '\x7b')
    (decodes : process.loads text = some members)
  | error (line : String) (other : line ≠ process.token)

variable {process}

def Output.text : Output process → String
  | .row text _ _ _ => text
  | .error line _ => line

def Output.members : Output process → Option Members
  | .row _ members _ _ => some members
  | .error _ _ => none

/-- The rows a statement prints. -/
def printed (outputs : List (Output process)) : List Members :=
  outputs.filterMap Output.members

/-- The error text a statement prints: its lines that are not blank. -/
def errorText (outputs : List (Output process)) : List String :=
  outputs.filterMap fun output =>
    match output with
    | .row _ _ _ _ => none
    | .error line _ => if isBlank line.toList then none else some line

variable (process)

/-- The lines of a statement: rows and error lines as they come, and the token. -/
def block (outputs : List (Output process)) : List String :=
  outputs.map Output.text ++ [process.token]

/-- An error line that reads like a row. -/
def RowLike (line : String) : Prop :=
  line.toList.head? = some '\x7b' ∧ (process.loads line).isSome

/-- Rows come back only from a statement without error text, one cell for each column. -/
def Decodes (outputs : List (Output process)) : Prop :=
  if errorText outputs = [] then
    run process (block process outputs) [] [] =
      .ok ((printed outputs).map fun members => members.map fun member => hooked member.2)
  else ∃ e, run process (block process outputs) [] [] = .error e

theorem pairValues_eq (members : Members) :
    pairValues members = members.map fun member => hooked member.2 := by
  induction members with
  | nil => rfl
  | cons member members ih => rw [pairValues, List.map_cons, ih]

theorem readLine_row {text : String} {members : Members} (brace : text.toList.head? = some '\x7b')
    (decodes : process.loads text = some members) :
    readLine process text = .row (pairValues members) := by
  rw [readLine, if_pos brace, decodes]

theorem readLine_error {line : String} (hblank : isBlank line.toList = false)
    (hrow : ¬RowLike process line) : readLine process line = .error line := by
  unfold readLine
  split
  · next hbrace =>
      cases hloads : process.loads line with
      | none => rfl
      | some members => exact absurd ⟨hbrace, by rw [hloads]; rfl⟩ hrow
  · rw [if_neg (by simp [hblank])]

theorem readLine_rowLike {line : String} (hrow : RowLike process line) :
    ∃ cells, readLine process line = .row cells := by
  obtain ⟨hbrace, hloads⟩ := hrow
  obtain ⟨members, hmembers⟩ := Option.isSome_iff_exists.mp hloads
  exact ⟨pairValues members, by rw [readLine, if_pos hbrace, hmembers]⟩

theorem readLine_blank {line : String} (hblank : isBlank line.toList = true) :
    readLine process line = .blank := by
  have hbrace : line.toList.head? ≠ some '\x7b' := by
    intro hhead
    obtain ⟨rest, hrest⟩ := List.head?_eq_some_iff.mp hhead
    rw [hrest] at hblank
    simp only [isBlank, List.all_cons, Bool.and_eq_true] at hblank
    exact absurd hblank.1 (by decide)
  rw [readLine, if_neg hbrace, if_pos hblank]

theorem text_ne_token (output : Output process) : output.text ≠ process.token := by
  cases output with
  | row text members brace decodes =>
      rintro heq
      exact token_brace process (heq ▸ brace)
  | error line other => exact other

/-- A block is read in the order of its lines. -/
theorem run_cons {output : Output process} {outputs : List (Output process)}
    {rows : List (List Json)} {errors : List String} :
    run process (block process (output :: outputs)) rows errors =
      match readLine process output.text with
      | .row cells => run process (block process outputs) (rows ++ [cells]) errors
      | .error line => run process (block process outputs) rows (errors ++ [line])
      | .blank => run process (block process outputs) rows errors := by
  change run process (output.text :: block process outputs) rows errors = _
  rw [run, if_neg (text_ne_token process output)]

/-- Once a line is an error, no rows come back. -/
theorem run_error {outputs : List (Output process)} {rows : List (List Json)}
    {errors : List String} (herrors : errors ≠ []) :
    ∃ e, run process (block process outputs) rows errors = .error e := by
  induction outputs generalizing rows errors with
  | nil =>
      refine ⟨.statement ("\n".intercalate errors), ?_⟩
      simp [block, run, herrors]
  | cons output outputs ih =>
      rw [run_cons]
      cases readLine process output.text with
      | row cells => exact ih herrors
      | error line => exact ih (by simp)
      | blank => exact ih herrors

/-- Without error text the rows come back in the order they are printed. -/
theorem run_rows {outputs : List (Output process)} {rows : List (List Json)}
    (htext : errorText outputs = []) :
    run process (block process outputs) rows [] =
      .ok (rows ++ (printed outputs).map pairValues) := by
  induction outputs generalizing rows with
  | nil => simp [block, run, printed]
  | cons output outputs ih =>
      rw [run_cons]
      cases output with
      | row text members brace decodes =>
          have htext : errorText outputs = [] := htext
          rw [Output.text, readLine_row process brace decodes]
          simp [ih htext, printed, Output.members]
      | error line other =>
          by_cases hblank : isBlank line.toList = true
          · have htext : errorText outputs = [] := by simpa [errorText, hblank] using htext
            rw [Output.text, readLine_blank process hblank]
            have hprinted : printed (.error line other :: outputs) = printed outputs := rfl
            rw [hprinted]
            exact ih htext
          · simp [errorText, hblank] at htext

/-- A statement fails for an error line that does not read like a row, and for no other. -/
theorem run_fails_iff {outputs : List (Output process)} {rows : List (List Json)} :
    (∃ e, run process (block process outputs) rows [] = .error e) ↔
      ∃ line ∈ errorText outputs, ¬RowLike process line := by
  induction outputs generalizing rows with
  | nil => simp [block, run, errorText]
  | cons output outputs ih =>
      rw [run_cons]
      cases output with
      | row text members brace decodes =>
          rw [Output.text, readLine_row process brace decodes]
          exact ih
      | error line other =>
          rw [Output.text]
          by_cases hblank : isBlank line.toList = true
          · rw [readLine_blank process hblank]
            simpa [errorText, hblank] using ih
          · have htext : errorText (.error line other :: outputs) = line :: errorText outputs := by
              simp [errorText, hblank]
            rw [htext]
            by_cases hrow : RowLike process line
            · obtain ⟨cells, hcells⟩ := readLine_rowLike process hrow
              rw [hcells]
              simpa [hrow] using ih
            · rw [readLine_error process (by simpa using hblank) hrow]
              exact iff_of_true (run_error process (List.cons_ne_nil line []))
                ⟨line, List.mem_cons_self, hrow⟩

theorem decodes_iff {outputs : List (Output process)} :
    Decodes process outputs ↔
      (errorText outputs ≠ [] → ∃ line ∈ errorText outputs, ¬RowLike process line) := by
  unfold Decodes
  split
  · next htext =>
      have hpairs : (fun members : Members => members.map fun member => hooked member.2) =
          pairValues := funext fun members => (pairValues_eq members).symm
      simp [run_rows process htext, hpairs, htext]
  · next htext =>
      rw [run_fails_iff process]
      exact ⟨fun h _ => h, fun h => h htext⟩

section Results

/-- The same cells in the same places, whatever the columns are called. -/
def SameRows : List Members → List Members → Prop :=
  List.Forall₂ fun row other => List.Forall₂ (Same id) (row.map Prod.snd) (other.map Prod.snd)

/-- The cells of a result, a list for each row. -/
def resultCells (rows : List Members) : Json :=
  .list (rows.map fun members => .list (members.map Prod.snd))

theorem sameRows_iff {rows others : List Members} :
    SameRows rows others ↔ Same id (resultCells rows) (resultCells others) := by
  rw [resultCells, resultCells, same_list_iff, List.forall₂_map_left_iff,
    List.forall₂_map_right_iff]
  simp only [same_list_iff]
  rfl

theorem hookedAll_eq (items : List Json) : hookedAll items = items.map hooked := by
  induction items with
  | nil => rfl
  | cons item items ih => rw [hookedAll, ih, List.map_cons]

variable [Printing]

def canonicalRows (rows : List Members) : List (List (RoseTree Key)) :=
  rows.map fun members => rowKey (canonicalRow (pairValues members))

/-- Results with a different cell anywhere give different canonical rows. -/
def Distinguishes (rows others : List Members) : Prop :=
  canonicalRows rows = canonicalRows others → SameRows rows others

/-- With the hook, freezing keeps of an object only its values, in their order. -/
theorem tuples_hooked : Tuples id false fun v => key (freeze (hooked v)) where
  atom := by
    intro v k hv
    cases v <;> cases hv <;> simp [hooked, freeze, key, Atom.key]
  tuple := by
    intro v items hv
    cases v <;> cases hv
    case nan => simp [hooked, freeze, key, nanSentinel, Atom.key]
    case infinite positive => simp [hooked, freeze, key, infSentinel, Atom.key]
    case list => simp [hooked, hookedAll_eq, freeze, freezeAll_eq, key]
    case object members =>
      have hspell : spell false = Prod.snd := rfl
      simp [hooked, pairValues_eq, freeze, freezeAll_eq, key, hspell]

theorem canonicalRows_iff {rows others : List Members} :
    canonicalRows rows = canonicalRows others ↔
      ∃ c, Alike id false c (resultCells rows) (resultCells others) := by
  have hcells (rows : List Members) : key (freeze (hooked (resultCells rows))) =
      .branch ((canonicalRows rows).map .branch) := by
    have hrow (members : Members) : key (freeze (hooked (.list (members.map Prod.snd)))) =
        .branch (rowKey (canonicalRow (pairValues members))) := by
      rw [hooked, hookedAll_eq, List.map_map, pairValues_eq, freeze, freezeAll_eq, key,
        RoseTree.map_branch]
      rfl
    rw [resultCells, hooked, hookedAll_eq, freeze, freezeAll_eq, key, RoseTree.map_branch,
      canonicalRows]
    simp only [List.map_map]
    exact congrArg RoseTree.branch (List.map_congr_left fun members _ => hrow members)
  rw [← tuples_hooked.key_eq_iff, hcells, hcells, RoseTree.branch.injEq,
    (List.map_injective_iff.mpr fun _ _ => RoseTree.branch.inj).eq_iff]

omit [Printing] in
/-- Objects in the order of their text are compared member by member. -/
theorem aligned_id {members members' : Members} : Aligned id id false members members' := by
  intro places hv hw _
  rw [id_eq] at hv hw
  rw [Same, normal, normal, Json.object.injEq, id_eq, id_eq, normalMembers_eq, normalMembers_eq,
    hv, hw, List.map_map, List.map_map, List.map_inj_left]
  refine forall₂_congr fun p hp => ?_
  simp [Same]

/-- Two results are kept apart unless they read alike with, somewhere, other kinds or names. -/
theorem distinguishes_iff {rows others : List Members} :
    Distinguishes rows others ↔ ¬Alike id false true (resultCells rows) (resultCells others) := by
  have hsame {c : Bool} (h : Alike id false c (resultCells rows) (resultCells others)) :
      Same id (resultCells rows) (resultCells others) ↔ c = false :=
    h.same_iff List.Perm.refl (fun _ _ _ _ => aligned_id)
      (everywhere_of_forall (fun _ => trivial) _) (everywhere_of_forall (fun _ => trivial) _)
  rw [Distinguishes, canonicalRows_iff, sameRows_iff]
  constructor
  · intro h halike
    cases (hsame halike).mp (h ⟨true, halike⟩)
  · rintro h ⟨c, halike⟩
    rw [hsame halike]
    cases c with
    | false => rfl
    | true => exact absurd halike h

/-- The cells of the rows are over these kinds. -/
def RowsOver (kinds : Kind → Prop) (rows : List Members) : Prop :=
  ∀ members ∈ rows, ∀ member ∈ members, Over kinds member.2

theorem distinguishes_of_apart {kinds : Kind → Prop} (h : Apart kinds) (hobject : ¬kinds .object)
    {rows others : List Members} (hrows : RowsOver kinds rows) (hothers : RowsOver kinds others) :
    Distinguishes rows others := by
  rw [distinguishes_iff]
  intro halike
  have hover {rows : List Members} (hrows : RowsOver kinds rows) :
      ∀ row ∈ rows.map fun members => Json.list (members.map Prod.snd),
        ∃ cells, row = .list cells ∧ ∀ cell ∈ cells, Over kinds cell :=
    List.forall_mem_map.mpr fun members hmembers =>
      ⟨_, rfl, List.forall_mem_map.mpr (hrows members hmembers)⟩
  have hflag := halike.flag_list (hover hrows) (hover hothers) (by
    rintro c v w halike ⟨cells, rfl, hcells⟩ ⟨cells', rfl, hcells'⟩
    exact halike.flag_list hcells hcells' fun hvalues hv hw =>
      h.flag (.inr hobject) hvalues List.Perm.refl hv hw)
  exact Bool.false_ne_true hflag.symm

/-- If results over some kinds are kept apart, no two of them freeze alike, nor two objects. -/
theorem apart_of_distinguishes {kinds : Kind → Prop}
    (h : ∀ rows others : List Members, RowsOver kinds rows → RowsOver kinds others →
      Distinguishes rows others) : Apart kinds ∧ ¬kinds .object := by
  have hcell {v w : Json} (hv : Over kinds v) (hw : Over kinds w)
      (hkey : key (freeze (hooked v)) = key (freeze (hooked w))) : Same id v w := by
    have hrows := h [[("c", v)]] [[("c", w)]] (by simpa [RowsOver] using hv)
      (by simpa [RowsOver] using hw) (by simp [canonicalRows, pairValues, canonicalRow, rowKey, hkey])
    simpa [SameRows] using hrows
  constructor
  · apply @Tuples.apart _ _ _ _ tuples_hooked (fun _ => True) rfl trivial
    exact fun v w _ _ hv hw hkey => (hcell hv hw hkey).kind
  · intro hobject
    have hempty (name : String) : Over kinds (.object [(name, .object [])]) :=
      .object hobject (by simpa using Over.object hobject (List.forall_mem_nil _))
    have hsame := hcell (hempty "a") (hempty "b") rfl
    simp [Same, normal, normalMembers] at hsame

/-- A column `s` that holds a struct with one field of this name. -/
def structRow (field : String) : Members :=
  [("s", .object [(field, .int 1)])]

/-- A process whose lines are the rows of a struct with the field `a` or the field `b`. -/
def structProcess : Process where
  hex := "0a1b2c"
  loads := fun line =>
    if line = "\x7b\"s\":\x7b\"a\":1\x7d\x7d" then some (structRow "a")
    else if line = "\x7b\"s\":\x7b\"b\":1\x7d\x7d" then some (structRow "b")
    else none

def structOutput (field text : String) (brace : text.toList.head? = some '\x7b')
    (decodes : structProcess.loads text = some (structRow field)) :
    List (Output structProcess) :=
  [.row text (structRow field) brace decodes]

end Results

end EqGen.Dialects.Duckdb.Cli
