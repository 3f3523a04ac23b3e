import EqGen.Lib.Lines
import EqGen.Fuzz.Round

/-! The script written for a finding: both databases rebuilt from nothing, then the query. -/

namespace EqGen.Fuzz.Report

open EqGen.Core.Catalog
open EqGen.Lib.Lines
open EqGen.Fuzz.Compare
open EqGen.Fuzz.Databases
open EqGen.Fuzz.Round

variable {Row Value : Type} [CanonicalRow Row]

/-- Cap on the distinct differing rows written into a script. -/
def mismatchRowLogLimit : Nat := 32

/-- One side of the multiset diff: its counts, then its rows up to the limit. -/
def mismatchBlock (limit : Nat) (start label : String) (entries : List (Row × Nat)) :
    List String :=
  let distinct := entries.length
  let total := (entries.map Prod.snd).sum
  let title := s!"{start}{label} ({distinct} distinct row(s), " ++
    s!"{total} row(s) counting multiplicity):"
  if entries = [] then [title, s!"{start}  (none)"]
  else
    let shown := entries.take limit
    let omitted := distinct - shown.length
    title :: shown.map (fun entry =>
        let text := CanonicalRow.repr entry.1
        s!"{start}  ×{entry.2} {text}") ++
      if omitted ≠ 0 then [s!"{start}  … {omitted} more distinct row(s) omitted"] else []

/-- Lines describing the multiset diff that made a mismatch reportable. -/
def formatMismatchResults (onlyInBase onlyInEquivalent : List (Row × Nat)) (limit : Nat)
    (start : String) : List String :=
  [s!"{start}============ mismatch results ============"] ++
    mismatchBlock limit start "only in base" onlyInBase ++
    mismatchBlock limit start "only in equivalent" onlyInEquivalent

/-- The arguments of `repro_script`. -/
structure ReproInput (Row Value : Type) where
  adapter : DialectAdapter Value
  table : Table
  rows : List (List Value)
  outcome : RoundOutcome Row
  query : String
  kind : String
  session : List (String × String) := []
  baseError : Option String := none
  equivalentError : Option String := none
  onlyInBase : List (Row × Nat) := []
  onlyInEquivalent : List (Row × Nat) := []

/-- A statement or query as the script writes it. -/
def terminated (statement : String) : String := statement ++ ";"

/-- The query without its trailing blanks and semicolons. -/
def strippedQuery (input : ReproInput Row Value) : String :=
  rstripChar ';' (rstrip input.query)

/-- The comment that carries one diagnostic. -/
def diagnostic (label text : String) : String := "-- " ++ label ++ text

/-- The lines above the two databases. An empty crash note is left out, as an absent one. -/
def header (input : ReproInput Row Value) : List String :=
  [diagnostic "" input.kind, diagnostic "engine: " input.adapter.engineBanner,
      diagnostic "seed: " (toString input.outcome.seed)] ++
    input.session.map (fun entry => diagnostic "" (entry.1 ++ ": " ++ entry.2)) ++
    (input.outcome.crashNote.filter (· ≠ "")).toList.map (diagnostic "crash: ") ++
    input.baseError.toList.map (diagnostic "BASE error: ") ++
    input.equivalentError.toList.map (diagnostic "EQUIVALENT error: ") ++
    if input.onlyInBase ≠ [] ∨ input.onlyInEquivalent ≠ [] then
      [diagnostic "mismatch: " (s!"{input.onlyInBase.length} distinct only in base, " ++
        s!"{input.onlyInEquivalent.length} distinct only in equivalent")]
    else []

/-- The names of the base-side copies. -/
def forkNames (input : ReproInput Row Value) : List String :=
  if input.outcome.exposedNames = [] then [input.table.getSqlName false]
  else input.outcome.exposedNames

def baseSide (input : ReproInput Row Value) : List String :=
  ["", "-- ============ database 1: the base table ============"] ++
    (baseSetupStatements input.adapter input.table input.rows).map terminated ++
    (forkCopyStatements input.adapter (input.table.getSqlName false)
      (forkNames input)).map terminated

def equivalentSide (input : ReproInput Row Value) : List String :=
  ["", "-- ============ database 2: the equivalent ============"] ++
    (baseSetupStatements input.adapter input.table input.rows).map terminated ++
    [terminated (input.adapter.renameAsideSql (input.table.getSqlName false)
      (hiddenBaseName input.table))] ++
    input.outcome.equivalentStatements.map terminated

def querySection (input : ReproInput Row Value) : List String :=
  ["", "-- ============ the query, run against each ============",
    terminated (strippedQuery input)]

def resultsSection (input : ReproInput Row Value) : List String :=
  if input.onlyInBase ≠ [] ∨ input.onlyInEquivalent ≠ [] then
    "" :: formatMismatchResults input.onlyInBase input.onlyInEquivalent
      mismatchRowLogLimit "-- "
  else []

/-- A self-contained script that rebuilds both sides and runs the query. -/
def reproScript (input : ReproInput Row Value) : String :=
  "\n".intercalate (header input ++ baseSide input ++ equivalentSide input ++
    querySection input ++ resultsSection input) ++ "\n"

/-- The statements the two databases of the round were given, and then the query. -/
def executed (input : ReproInput Row Value) : List String :=
  (Database.buildBase input.adapter input.table input.rows
      input.outcome.exposedNames).executed ++
    (Database.buildEquivalent input.adapter input.table input.rows
      input.outcome.equivalentStatements).executed ++
    [strippedQuery input]

/-- The texts the script embeds that come from the engine, the session or the harness. -/
def diagnosticTexts (input : ReproInput Row Value) : List String :=
  [input.kind, input.adapter.engineBanner] ++
    input.session.map (fun entry => entry.1 ++ ": " ++ entry.2) ++
    (input.outcome.crashNote.filter (· ≠ "")).toList ++ input.baseError.toList ++
    input.equivalentError.toList

/-- The entries of the script that only describe: its header and its multiset diff. -/
def description (input : ReproInput Row Value) : List String :=
  header input ++ resultsSection input

/-- A line that a reader of SQL skips. -/
def skipped (line : List Char) : Bool := isBlank line || isComment line

/-- Every character of the entry stands in a comment line. -/
def Commented (entry : String) : Prop :=
  ∀ line ∈ lines entry, line = [] ∨ isComment line = true

/-- After its first line, every character of the text stands in a comment line. -/
def ContinuesCommented (text : String) : Prop :=
  ∀ line ∈ continuation text, line = [] ∨ isComment line = true

/-- The script replays the round: what is left without its blank and comment lines is every
executed statement with its semicolon, and every described text stays in its comment. -/
def Replays (input : ReproInput Row Value) : Prop :=
  (lines (reproScript input)).filter (fun line => !skipped line) =
      (executed input).flatMap (fun statement => lines (terminated statement)) ∧
    ∀ entry ∈ description input, Commented entry

/-- Every diagnostic continues only in comment or empty lines, and no statement has a blank or a
comment line. -/
def Contained (input : ReproInput Row Value) : Prop :=
  (∀ text ∈ diagnosticTexts input, ContinuesCommented text) ∧
    ∀ statement ∈ executed input, ∀ line ∈ lines (terminated statement), skipped line = false

section Comments

theorem isComment_hyphens (rest : List Char) : isComment ('-' :: '-' :: rest) = true := by
  have hspace : isSpace '-' = false := by decide
  simp [isComment, hspace]

@[simp]
theorem toString_string (text : String) : toString text = text := rfl

theorem newline_notMem_toString_int (n : Int) : '\n' ∉ (toString n).toList := by
  rw [Int.toString_eq_repr, Int.repr_eq_if]
  split <;> simp

/-- A diagnostic is one comment line and what its text continues with. -/
theorem commented_diagnostic {label : String} (hlabel : '\n' ∉ label.toList)
    (text : String) : Commented (diagnostic label text) ↔ ContinuesCommented text := by
  have hstart : '\n' ∉ ("-- " ++ label).toList := by
    simp [String.toList_append, hlabel]
  rw [Commented, diagnostic, lines_append_of_notMem hstart, List.forall_mem_cons]
  constructor
  · exact And.right
  · intro h
    refine ⟨.inr ?_, h⟩
    simp [String.toList_append, isComment_hyphens]

/-- An entry that is one comment line. -/
def CommentLine (entry : String) : Prop :=
  '\n' ∉ entry.toList ∧ ['-', '-'] <+: entry.toList

theorem CommentLine.commented {entry : String} (h : CommentLine entry) : Commented entry := by
  obtain ⟨hline, rest, hrest⟩ := h
  rw [Commented, lines, List.splitOn_eq_singleton hline, ← hrest]
  simp [isComment_hyphens]

theorem commentLine_mismatchBlock {limit : Nat} {label : String}
    (hlabel : '\n' ∉ label.toList) (entries : List (Row × Nat)) :
    ∀ entry ∈ mismatchBlock limit "-- " label entries, CommentLine entry := by
  intro entry hentry
  unfold mismatchBlock at hentry
  split at hentry
  · simp only [List.mem_cons, List.not_mem_nil, or_false] at hentry
    rcases hentry with rfl | rfl <;> simp [CommentLine, hlabel]
  · simp only [List.cons_append, List.mem_cons, List.mem_append, List.mem_map] at hentry
    rcases hentry with rfl | ⟨shown, _, rfl⟩ | homitted
    · simp [CommentLine, hlabel]
    · simp [CommentLine, CanonicalRow.repr_line]
    · split at homitted
      · simp only [List.mem_singleton] at homitted
        subst homitted
        simp [CommentLine]
      · cases homitted

/-- The results section is a blank line and comment lines. -/
theorem commented_resultsSection (input : ReproInput Row Value) :
    ∀ entry ∈ resultsSection input, Commented entry := by
  intro entry hentry
  unfold resultsSection at hentry
  split at hentry
  · simp only [formatMismatchResults, List.mem_cons, List.mem_append, List.not_mem_nil,
      or_false] at hentry
    rcases hentry with rfl | (rfl | hbase) | hequivalent
    · exact fun line hline => .inl (by simpa [lines] using hline)
    · exact CommentLine.commented (by simp [CommentLine])
    · exact (commentLine_mismatchBlock (by decide) _ _ hbase).commented
    · exact (commentLine_mismatchBlock (by decide) _ _ hequivalent).commented
  · cases hentry

omit [CanonicalRow Row] in
/-- The header stays in its comments exactly when its diagnostics continue in comments. -/
theorem commented_header (input : ReproInput Row Value) :
    (∀ entry ∈ header input, Commented entry) ↔
      ∀ text ∈ diagnosticTexts input, ContinuesCommented text := by
  have hseed : Commented (diagnostic "seed: " (toString input.outcome.seed)) :=
    CommentLine.commented (by
      simpa [CommentLine, diagnostic] using newline_notMem_toString_int _)
  have hdiagnostic : ∀ label : String, '\n' ∉ label.toList → ∀ text,
      (Commented (diagnostic label text) ↔ ContinuesCommented text) :=
    fun _ hlabel => commented_diagnostic hlabel
  have hplain := hdiagnostic "" (by decide)
  have hengine := hdiagnostic "engine: " (by decide)
  have hcrash := hdiagnostic "crash: " (by decide)
  have hbase := hdiagnostic "BASE error: " (by decide)
  have hequivalent := hdiagnostic "EQUIVALENT error: " (by decide)
  unfold header diagnosticTexts
  split
  · have hcounts : Commented (diagnostic "mismatch: "
        (s!"{input.onlyInBase.length} distinct only in base, " ++
          s!"{input.onlyInEquivalent.length} distinct only in equivalent")) :=
      CommentLine.commented (by simp [CommentLine, diagnostic])
    simp only [List.forall_mem_append, List.forall_mem_cons, List.forall_mem_map, hplain,
      hengine, hseed, hcrash, hbase, hequivalent, hcounts]
    simp
  · simp only [List.forall_mem_append, List.forall_mem_cons, List.forall_mem_map, hplain,
      hengine, hseed, hcrash, hbase, hequivalent]
    simp

end Comments

section Replay

/-- The lines of an entry that a reader of SQL does not skip. -/
def kept (entry : String) : List (List Char) :=
  (lines entry).filter fun line => !skipped line

theorem kept_flatMap_of_commented {entries : List String}
    (h : ∀ entry ∈ entries, Commented entry) : entries.flatMap kept = [] := by
  rw [List.flatMap_eq_nil_iff]
  intro entry hentry
  rw [kept, List.filter_eq_nil_iff]
  intro line hline
  rcases h entry hentry line hline with rfl | hcomment
  · simp [skipped, isBlank]
  · simp [skipped, hcomment]

omit [CanonicalRow Row] in
theorem executed_eq (input : ReproInput Row Value) :
    executed input =
      baseSetupStatements input.adapter input.table input.rows ++
        forkCopyStatements input.adapter (input.table.getSqlName false) (forkNames input) ++
        baseSetupStatements input.adapter input.table input.rows ++
        [input.adapter.renameAsideSql (input.table.getSqlName false)
          (hiddenBaseName input.table)] ++
        input.outcome.equivalentStatements ++ [strippedQuery input] := by
  simp [executed, Database.buildBase, Database.buildEquivalent, Database.connect, forkNames]

/-- What a reader of SQL keeps of the script: what spills out of the header, the executed
statements, and what spills out of the multiset diff. -/
theorem kept_reproScript (input : ReproInput Row Value) :
    kept (reproScript input) =
      (header input).flatMap kept ++ ((executed input).map terminated).flatMap kept ++
        (resultsSection input).flatMap kept := by
  have hblank : kept "" = [] := rfl
  have hbase : kept "-- ============ database 1: the base table ============" = [] := by
    decide
  have hequivalent : kept "-- ============ database 2: the equivalent ============" = [] := by
    decide
  have hquery : kept "-- ============ the query, run against each ============" = [] := by
    decide
  have hlast : ([[]] : List (List Char)).filter (fun line => !skipped line) = [] := rfl
  have hnonempty : header input ++ baseSide input ++ equivalentSide input ++
      querySection input ++ resultsSection input ≠ [] := by
    simp [header]
  rw [kept, reproScript, lines_append_newline, lines_intercalate hnonempty, List.filter_append,
    hlast, List.append_nil, List.filter_flatMap, executed_eq]
  change List.flatMap kept _ = _
  simp [List.flatMap_append, baseSide, equivalentSide, querySection, hblank, hbase,
    hequivalent, hquery]

end Replay

/-- A script replays its round exactly when no diagnostic spills out of its comment and no
statement has a line that reads as a comment. -/
theorem reproScript_replays_iff (input : ReproInput Row Value) :
    Replays input ↔ Contained input := by
  have hresults := commented_resultsSection input
  constructor
  · rintro ⟨hkept, hdescription⟩
    have hheader := (List.forall_mem_append.mp hdescription).1
    refine ⟨(commented_header input).mp hheader, ?_⟩
    intro statement hstatement line hline
    have hmem : line ∈ (executed input).flatMap fun statement => lines (terminated statement) :=
      List.mem_flatMap.mpr ⟨statement, hstatement, hline⟩
    rw [← hkept, List.mem_filter] at hmem
    simpa using hmem.2
  · rintro ⟨hdiagnostics, hstatements⟩
    have hheader := (commented_header input).mpr hdiagnostics
    refine ⟨?_, List.forall_mem_append.mpr ⟨hheader, hresults⟩⟩
    have hscript := kept_reproScript input
    rw [kept_flatMap_of_commented hheader, kept_flatMap_of_commented hresults,
      List.nil_append, List.append_nil, List.flatMap_map] at hscript
    rw [← kept, hscript]
    refine List.flatMap_congr fun statement hstatement => ?_
    rw [kept, List.filter_eq_self]
    intro line hline
    simp [hstatements statement hstatement line hline]

/-- A finding whose base error is two lines long, as an engine writes them. -/
def twoLineError : ReproInput Unit Unit where
  adapter :=
    { baseTableDdl := fun _ => "CREATE TABLE t (c_int BIGINT)"
      literal := fun _ => "1"
      engineBanner := "postgres" }
  table := { name := "t", columns := [{ name := "c_int", dataType := { kind := .integer } }] }
  rows := [[()]]
  outcome :=
    { seed := 7
      exposedNames := ["t"]
      equivalentStatements := ["CREATE VIEW t AS SELECT * FROM t__base"] }
  query := "SELECT c FROM t"
  kind := "ERROR"
  equivalentError := some "column c does not exist\nLINE 1: SELECT c FROM t"

/-- The second line of the error spills out of its comment and would be run. -/
theorem reproScript_spills_error :
    "LINE 1: SELECT c FROM t".toList ∈ kept (reproScript twoLineError) ∧
      ¬ Replays twoLineError := by
  have hentry : "-- EQUIVALENT error: column c does not exist\nLINE 1: SELECT c FROM t" ∈
      header twoLineError := by decide +kernel
  constructor
  · rw [kept_reproScript, List.append_assoc]
    refine List.mem_append_left _ (List.mem_flatMap.mpr ⟨_, hentry, ?_⟩)
    decide +kernel
  · rintro ⟨-, hdescription⟩
    have hspilled := hdescription _ (List.mem_append_left _ hentry)
      "LINE 1: SELECT c FROM t".toList (by decide +kernel)
    exact absurd hspilled (by decide +kernel)

end EqGen.Fuzz.Report
