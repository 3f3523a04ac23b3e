import Mathlib.Data.List.Infix
import Mathlib.Tactic.Abel
import EqGen.Lib.Bag
import EqGen.Fuzz.Tally
import EqGen.Fuzz.Round

/-!
The running totals of a session. Each round is folded into one report; every result of a
round that is not discarded has one class and is counted under it.
-/

namespace EqGen.Fuzz.Session

open EqGen.Fuzz.Compare
open EqGen.Fuzz.Round
open EqGen.Lib.Bag

variable {Row Rows : Type}

/-- What a finding is about. -/
inductive FindingKind where
  | mismatch
  | error
  | crash
  deriving DecidableEq

/-- One reportable outcome. -/
structure Finding (Row : Type) where
  kind : FindingKind
  roundNumber : Int
  seed : Int
  query : String
  onlyInBase : List (Row × Nat) := []
  onlyInEquivalent : List (Row × Nat) := []
  baseError : Option String := none
  equivalentError : Option String := none
  note : Option String := none

def Finding.isCrash (finding : Finding Row) : Bool := finding.kind = .crash

/-- Running totals of a session. -/
structure FuzzReport (Row : Type) where
  rounds : Nat := 0
  queriesRun : Nat := 0
  passed : Nat := 0
  skipped : Nat := 0
  discardedUnbuildable : Nat := 0
  discardedNotEquivalent : Nat := 0
  findings : List (Finding Row) := []
  skippedKnownIssues : Counter String := ⟨[], List.nodup_nil⟩
  toleratedQueries : Nat := 0
  toleratedRows : Nat := 0

/-- `str.lower` as far as it gives ASCII letters; the Kelvin sign is the only other capital
that does. -/
def lowered (c : Char) : Char :=
  if c.toNat = 0x212a then 'k' else c.toLower

/-- Worker kills by the clock or for memory. -/
def isWorkerTimeoutNoise (note : Option String) : Bool :=
  let lower := (note.getD "").toList.map lowered
  "did not respond within".toList <:+: lower || "sigkill".toList <:+: lower

/-- `first or second`: an empty text counts as none. -/
def orElse (first second : Option String) : Option String :=
  if first.getD "" = "" then second else first

/-- The equivalence was not equivalent. -/
def objectDiverged (outcome : RoundOutcome Row) : Bool :=
  match outcome.objectComparison with
  | some comparison => !comparison.equal
  | none => false

/-- The results a round reports. -/
def findings (outcome : RoundOutcome Row) : List (QueryComparison Row) :=
  outcome.results.filter (·.isReportable)

/-- The finding one reportable result becomes. -/
def findingOf (outcome : RoundOutcome Row) (roundNumber : Int) (result : QueryComparison Row) :
    Finding Row :=
  { kind := if result.isMismatch then .mismatch else .error
    roundNumber := roundNumber
    seed := outcome.seed
    query := result.query
    onlyInBase := result.onlyInBase
    onlyInEquivalent := result.onlyInEquivalent
    baseError := result.baseError
    equivalentError := result.equivalentError }

/-- One worker timeout among the skips. -/
def FuzzReport.skipTimeout (report : FuzzReport Row) : FuzzReport Row :=
  { report with
    skipped := report.skipped + 1
    skippedKnownIssues := report.skippedKnownIssues.tally "worker-timeout" }

/-- A crash while the object was built, with no query to blame. -/
def recordSetupCrash (report : FuzzReport Row) (outcome : RoundOutcome Row) (roundNumber : Int) :
    FuzzReport Row × List (Finding Row) :=
  match outcome.setupCrash with
  | none => (report, [])
  | some crash =>
      if isWorkerTimeoutNoise (orElse outcome.crashNote (some crash)) then
        (report.skipTimeout, [])
      else
        (report, [{
          kind := .crash
          roundNumber := roundNumber
          seed := outcome.seed
          query := "-- no query ran: the engine died while building the equivalence " ++
            "in this file"
          note := outcome.crashNote }])

/-- A crash during a query. -/
def recordCrashedQuery (report : FuzzReport Row) (outcome : RoundOutcome Row) (roundNumber : Int) :
    FuzzReport Row × List (Finding Row) :=
  match outcome.crashedQuery with
  | none => (report, [])
  | some query =>
      if isWorkerTimeoutNoise outcome.crashNote then (report.skipTimeout, [])
      else
        (report, [{
          kind := .crash
          roundNumber := roundNumber
          seed := outcome.seed
          query := query
          note := outcome.crashNote }])

/-- The label a known issue is tallied under. -/
def issueLabel (result : QueryComparison Row) : String :=
  if result.equivalentKnownIssue.getD "" = "" then "unlabelled"
  else result.equivalentKnownIssue.getD ""

/-- The counters of the results of one round. -/
def recordResults (report : FuzzReport Row) (results : List (QueryComparison Row)) :
    FuzzReport Row :=
  let tolerated := results.filter fun result => result.isPass && result.reconciled ≠ 0
  let known := results.filter (·.isKnownIssue)
  { report with
    rounds := report.rounds + 1
    queriesRun := report.queriesRun + results.length
    passed := report.passed + results.countP (·.isPass)
    toleratedQueries := report.toleratedQueries + tolerated.length
    toleratedRows := report.toleratedRows + (tolerated.map (·.reconciled)).sum
    skipped := report.skipped + (results.countP (·.isUncomparable) + known.length)
    skippedKnownIssues := (known.map issueLabel).foldl Counter.tally report.skippedKnownIssues }

/-- Fold one round into the report; also the findings it produced. -/
def recordRound (report : FuzzReport Row) (outcome : RoundOutcome Row) (roundNumber : Int) :
    FuzzReport Row × List (Finding Row) :=
  if outcome.setupError.isSome then
    ({ report with discardedUnbuildable := report.discardedUnbuildable + 1 }, [])
  else if objectDiverged outcome then
    ({ report with discardedNotEquivalent := report.discardedNotEquivalent + 1 }, [])
  else
    let setup := recordSetupCrash report outcome roundNumber
    let crash := recordCrashedQuery setup.1 outcome roundNumber
    let report := recordResults crash.1 outcome.results
    let found := setup.2 ++ crash.2 ++ (findings outcome).map (findingOf outcome roundNumber)
    ({ report with findings := report.findings ++ found }, found)

/-- A session: its rounds with their numbers, folded into one report. -/
def recordRounds (rounds : List (RoundOutcome Row × Int)) : FuzzReport Row :=
  rounds.foldl (fun report round => (recordRound report round.1 round.2).1) {}

section Classes

/-- A result that `compare_one` gave for what the two connections did. -/
def Compared (compareMultisets : Rows → Rows → MultisetDiff Row) (result : QueryComparison Row) :
    Prop :=
  ∃ base equivalent sql, result = compareOne compareMultisets (query base) (query equivalent) sql

/-- The four classes of a result. -/
def classes (result : QueryComparison Row) : List Bool :=
  [result.isPass, result.isKnownIssue, result.isUncomparable, result.isReportable]

/-- A side gives rows or an error, never both; only an error can be a known issue. -/
theorem query_rows (reaction : Reaction Rows) :
    ((query reaction).rows.isSome = true ∧ (query reaction).error = none ∧
        (query reaction).knownIssue = none) ∨
      ((query reaction).rows = none ∧ (query reaction).error.isSome = true) := by
  cases reaction <;> simp [query]

/-- A result is in exactly one class. -/
theorem Compared.count_classes {compareMultisets : Rows → Rows → MultisetDiff Row}
    {result : QueryComparison Row} (h : Compared compareMultisets result) :
    (classes result).count true = 1 := by
  obtain ⟨base, equivalent, sql, rfl⟩ := h
  unfold compareOne classes
  split
  · next baseRows equivalentRows hbase hequivalent =>
      cases hequal : (compareMultisets baseRows equivalentRows).equal <;>
        simp [QueryComparison.isPass, QueryComparison.isKnownIssue, QueryComparison.isUncomparable,
          QueryComparison.isReportable, QueryComparison.isError, QueryComparison.isMismatch, hequal]
  · next hfailed =>
      simp only [QueryComparison.isPass, QueryComparison.isKnownIssue,
        QueryComparison.isUncomparable, QueryComparison.isReportable, QueryComparison.isError,
        QueryComparison.isMismatch]
      rcases query_rows base with ⟨hrows, hbase, -⟩ | ⟨-, hbase⟩
      · rcases query_rows equivalent with ⟨hrows', -, -⟩ | ⟨-, hequivalent⟩
        · obtain ⟨rows, hrows⟩ := Option.isSome_iff_exists.mp hrows
          obtain ⟨rows', hrows'⟩ := Option.isSome_iff_exists.mp hrows'
          exact absurd hrows' (hfailed rows rows' hrows)
        · cases hknown : (query equivalent).knownIssue <;>
            simp [hbase, Option.ne_none_iff_isSome.mpr hequivalent, hequivalent]
      · cases hknown : (query equivalent).knownIssue <;>
          simp [Option.ne_none_iff_isSome.mpr hbase, hbase]

/-- A reportable result is not of a query whose base side failed. -/
theorem baseError_of_isReportable {result : QueryComparison Row}
    (h : result.isReportable = true) : result.baseError = none := by
  simp only [QueryComparison.isReportable, QueryComparison.isError, QueryComparison.isMismatch,
    Bool.or_eq_true, Bool.and_eq_true, Option.isNone_iff_eq_none] at h
  rcases h with h | h
  · exact h.1.1
  · exact h.1.1

/-- The classes partition the results, so their numbers add up. -/
theorem length_eq_classes {compareMultisets : Rows → Rows → MultisetDiff Row}
    {results : List (QueryComparison Row)}
    (h : ∀ result ∈ results, Compared compareMultisets result) :
    results.length = results.countP (·.isPass) + results.countP (·.isKnownIssue) +
      results.countP (·.isUncomparable) + results.countP (·.isReportable) := by
  induction results with
  | nil => rfl
  | cons result results ih =>
      have hone := (h result List.mem_cons_self).count_classes
      have hrest := ih fun r hr => h r (List.mem_cons_of_mem _ hr)
      simp only [classes, List.count_cons, List.count_nil, beq_iff_eq] at hone
      simp only [List.length_cons, List.countP_cons, hrest]
      omega

end Classes

section Totals

/-- A round whose results are not trusted. -/
def discarded (outcome : RoundOutcome Row) : Bool :=
  outcome.setupError.isSome || objectDiverged outcome

/-- The rounds whose results are counted. -/
def kept (rounds : List (RoundOutcome Row × Int)) : List (RoundOutcome Row × Int) :=
  rounds.filter fun round => !discarded round.1

/-- The results that are counted. -/
def resultsOf (rounds : List (RoundOutcome Row × Int)) : List (QueryComparison Row) :=
  (kept rounds).flatMap fun round => round.1.results

/-- How often the worker died or went silent in a round. -/
def deaths (outcome : RoundOutcome Row) : Nat :=
  outcome.setupCrash.toList.length + outcome.crashedQuery.toList.length

/-- How many of these are put down to the worker's limits. -/
def timeouts (outcome : RoundOutcome Row) : Nat :=
  outcome.setupCrash.toList.countP (fun crash =>
      isWorkerTimeoutNoise (orElse outcome.crashNote (some crash))) +
    outcome.crashedQuery.toList.countP fun _ => isWorkerTimeoutNoise outcome.crashNote

def timeoutsOf (rounds : List (RoundOutcome Row × Int)) : Nat :=
  ((kept rounds).map fun round => timeouts round.1).sum

def deathsOf (rounds : List (RoundOutcome Row × Int)) : Nat :=
  ((kept rounds).map fun round => deaths round.1).sum

/-- The findings the results of all rounds become, in order. -/
def findingsOf (rounds : List (RoundOutcome Row × Int)) : List (Finding Row) :=
  (kept rounds).flatMap fun round => (findings round.1).map (findingOf round.1 round.2)

theorem length_findingsOf (rounds : List (RoundOutcome Row × Int)) :
    (findingsOf rounds).length = (resultsOf rounds).countP (·.isReportable) := by
  simp [findingsOf, resultsOf, findings, List.length_flatMap, List.filter_flatMap,
    List.countP_eq_length_filter]

/-- What the report says of the rounds folded into it. -/
structure Accounts (rounds : List (RoundOutcome Row × Int)) (report : FuzzReport Row) : Prop where
  kept_rounds : report.rounds = (kept rounds).length
  queriesRun : report.queriesRun = (resultsOf rounds).length
  passed : report.passed = (resultsOf rounds).countP (·.isPass)
  skipped : report.skipped = (resultsOf rounds).countP (·.isUncomparable) +
    (resultsOf rounds).countP (·.isKnownIssue) + timeoutsOf rounds
  labels : report.skippedKnownIssues.bag =
    ((resultsOf rounds).filter (·.isKnownIssue)).map issueLabel +
      Multiset.replicate (timeoutsOf rounds) "worker-timeout"
  reported : report.findings.filter (!·.isCrash) = findingsOf rounds
  crashes : report.findings.countP (·.isCrash) + timeoutsOf rounds = deathsOf rounds
  discards : report.discardedUnbuildable + report.discardedNotEquivalent + (kept rounds).length =
    rounds.length

variable (rounds : List (RoundOutcome Row × Int)) (round : RoundOutcome Row × Int)

theorem kept_concat : kept (rounds ++ [round]) =
    kept rounds ++ if discarded round.1 = true then [] else [round] := by
  rw [kept, List.filter_append]
  cases h : discarded round.1 <;> simp [kept, h]

/-- A round that is not discarded adds what it holds. -/
structure Keeps : Prop where
  kept_eq : kept (rounds ++ [round]) = kept rounds ++ [round]
  results_eq : resultsOf (rounds ++ [round]) = resultsOf rounds ++ round.1.results
  timeouts_eq : timeoutsOf (rounds ++ [round]) = timeoutsOf rounds + timeouts round.1
  deaths_eq : deathsOf (rounds ++ [round]) = deathsOf rounds + deaths round.1
  findings_eq : findingsOf (rounds ++ [round]) =
    findingsOf rounds ++ (findings round.1).map (findingOf round.1 round.2)

variable {rounds round}

theorem keeps_of_trusted (h : discarded round.1 = false) : Keeps rounds round := by
  have hkept : kept (rounds ++ [round]) = kept rounds ++ [round] := by
    rw [kept_concat, h]
    rfl
  constructor <;> simp [resultsOf, timeoutsOf, deathsOf, findingsOf, hkept]

/-- A discarded round adds nothing. -/
theorem Accounts.of_kept_eq {rounds' : List (RoundOutcome Row × Int)} {report : FuzzReport Row}
    (h : Accounts rounds report) (hkept : kept rounds' = kept rounds) (unbuildable different : Nat)
    (hcount : unbuildable + different + (kept rounds).length = rounds'.length) :
    Accounts rounds' { report with
      discardedUnbuildable := unbuildable
      discardedNotEquivalent := different } := by
  have hresults : resultsOf rounds' = resultsOf rounds := by simp [resultsOf, hkept]
  have htimeouts : timeoutsOf rounds' = timeoutsOf rounds := by simp [timeoutsOf, hkept]
  have hdeaths : deathsOf rounds' = deathsOf rounds := by simp [deathsOf, hkept]
  have hfindings : findingsOf rounds' = findingsOf rounds := by simp [findingsOf, hkept]
  refine ⟨?_, ?_, ?_, ?_, ?_, ?_, ?_, ?_⟩
  · rw [hkept, ← h.kept_rounds]
  · rw [hresults, ← h.queriesRun]
  · rw [hresults, ← h.passed]
  · rw [hresults, htimeouts, ← h.skipped]
  · rw [hresults, htimeouts, ← h.labels]
  · rw [hfindings, ← h.reported]
  · rw [htimeouts, hdeaths, ← h.crashes]
  · rw [hkept, ← hcount]

end Totals

section Deaths

/-- Some deaths of the worker entered into the report, each as a finding or as a timeout. -/
structure Struck (report report' : FuzzReport Row) (found : List (Finding Row))
    (died timedOut : Nat) : Prop where
  rest : report' = { report with
    skipped := report'.skipped
    skippedKnownIssues := report'.skippedKnownIssues }
  skipped : report'.skipped = report.skipped + timedOut
  labels : report'.skippedKnownIssues.bag =
    report.skippedKnownIssues.bag + Multiset.replicate timedOut "worker-timeout"
  crashes : ∀ finding ∈ found, finding.isCrash = true
  count : found.length + timedOut = died

theorem struck_nothing (report : FuzzReport Row) : Struck report report [] 0 0 :=
  ⟨rfl, rfl, by simp, by simp, rfl⟩

theorem struck_timeout (report : FuzzReport Row) : Struck report report.skipTimeout [] 1 1 := by
  refine ⟨rfl, rfl, ?_, by simp, rfl⟩
  rw [FuzzReport.skipTimeout, Counter.bag_tally, Multiset.replicate_one, add_comm,
    Multiset.singleton_add]

theorem struck_crash (report : FuzzReport Row) {finding : Finding Row}
    (h : finding.kind = .crash) : Struck report report [finding] 1 0 :=
  ⟨rfl, rfl, by simp, by simp [Finding.isCrash, h], rfl⟩

theorem Struck.append {report report' report'' : FuzzReport Row} {found found' : List (Finding Row)}
    {died died' timedOut timedOut' : Nat} (h : Struck report report' found died timedOut)
    (h' : Struck report' report'' found' died' timedOut') :
    Struck report report'' (found ++ found') (died + died') (timedOut + timedOut') := by
  refine ⟨?_, ?_, ?_, ?_, ?_⟩
  · rw [h'.rest, h.rest]
  · rw [h'.skipped, h.skipped, add_assoc]
  · rw [h'.labels, h.labels, Multiset.replicate_add, add_assoc]
  · intro finding hfinding
    rcases List.mem_append.mp hfinding with hmem | hmem
    · exact h.crashes finding hmem
    · exact h'.crashes finding hmem
  · rw [List.length_append, ← h.count, ← h'.count]
    omega

theorem struck_setupCrash (report : FuzzReport Row) (outcome : RoundOutcome Row) (n : Int) :
    Struck report (recordSetupCrash report outcome n).1 (recordSetupCrash report outcome n).2
      outcome.setupCrash.toList.length
      (outcome.setupCrash.toList.countP fun crash =>
        isWorkerTimeoutNoise (orElse outcome.crashNote (some crash))) := by
  unfold recordSetupCrash
  cases outcome.setupCrash with
  | none => exact struck_nothing report
  | some crash =>
      simp only
      split
      · next h => simpa [h] using struck_timeout report
      · next h => simpa [h] using struck_crash report rfl

theorem struck_crashedQuery (report : FuzzReport Row) (outcome : RoundOutcome Row) (n : Int) :
    Struck report (recordCrashedQuery report outcome n).1
      (recordCrashedQuery report outcome n).2 outcome.crashedQuery.toList.length
      (outcome.crashedQuery.toList.countP fun _ => isWorkerTimeoutNoise outcome.crashNote) := by
  unfold recordCrashedQuery
  cases outcome.crashedQuery with
  | none => exact struck_nothing report
  | some query =>
      simp only
      split
      · next h => simpa [h] using struck_timeout report
      · next h => simpa [h] using struck_crash report rfl

end Deaths

section Run

variable {rounds : List (RoundOutcome Row × Int)} {report : FuzzReport Row}

theorem isCrash_findingOf (outcome : RoundOutcome Row) (n : Int) (result : QueryComparison Row) :
    (findingOf outcome n result).isCrash = false := by
  unfold Finding.isCrash findingOf
  split <;> rfl

theorem filter_isCrash_of_forall {found : List (Finding Row)}
    (h : ∀ finding ∈ found, finding.isCrash = true) :
    found.filter (!·.isCrash) = [] ∧ found.countP (·.isCrash) = found.length := by
  constructor
  · simpa using h
  · exact List.countP_eq_length.mpr h

/-- The findings of a round that are not crashes are those of its results. -/
theorem filter_isCrash_findings (round : RoundOutcome Row × Int) :
    ((findings round.1).map (findingOf round.1 round.2)).filter (!·.isCrash) =
        (findings round.1).map (findingOf round.1 round.2) ∧
      ((findings round.1).map (findingOf round.1 round.2)).countP (·.isCrash) = 0 := by
  constructor
  · simp [isCrash_findingOf]
  · simp [List.countP_eq_zero, isCrash_findingOf]

/-- A round that is kept, after its deaths have been entered. -/
theorem Accounts.keep {round : RoundOutcome Row × Int} {report' : FuzzReport Row}
    {found : List (Finding Row)} (h : Accounts rounds report) (hkeeps : Keeps rounds round)
    (hstruck : Struck report report' found (deaths round.1) (timeouts round.1)) :
    Accounts (rounds ++ [round]) { recordResults report' round.1.results with
      findings := report'.findings ++
        (found ++ (findings round.1).map (findingOf round.1 round.2)) } := by
  obtain ⟨hnone, hall⟩ := filter_isCrash_of_forall hstruck.crashes
  obtain ⟨hown, hzero⟩ := filter_isCrash_findings round
  have hfindings : report'.findings = report.findings := by rw [hstruck.rest]
  refine ⟨?_, ?_, ?_, ?_, ?_, ?_, ?_, ?_⟩
  · rw [hkeeps.kept_eq, List.length_append, ← h.kept_rounds, recordResults, hstruck.rest]
    rfl
  · rw [hkeeps.results_eq, List.length_append, ← h.queriesRun, recordResults, hstruck.rest]
  · rw [hkeeps.results_eq, List.countP_append, ← h.passed, recordResults, hstruck.rest]
  · simp only [recordResults]
    rw [hkeeps.results_eq, hkeeps.timeouts_eq, List.countP_append, List.countP_append,
      hstruck.skipped, h.skipped, ← List.countP_eq_length_filter]
    omega
  · simp only [recordResults]
    rw [hkeeps.results_eq, hkeeps.timeouts_eq, Counter.bag_foldl_tally, hstruck.labels, h.labels,
      List.filter_append, List.map_append, ← Multiset.coe_add, Multiset.replicate_add]
    abel
  · simp only [hfindings, List.filter_append, hnone, hown, List.nil_append, h.reported,
      hkeeps.findings_eq]
  · simp only [hfindings, List.countP_append, hall, hzero, hkeeps.timeouts_eq, hkeeps.deaths_eq]
    have hcount := hstruck.count
    have hcrashes := h.crashes
    omega
  · rw [hkeeps.kept_eq, recordResults, hstruck.rest]
    have hdiscards := h.discards
    simp only [List.length_append, List.length_singleton]
    omega

/-- One round folded into a report that accounts for the rounds before it. -/
theorem Accounts.record (h : Accounts rounds report) (round : RoundOutcome Row × Int) :
    Accounts (rounds ++ [round]) (recordRound report round.1 round.2).1 := by
  have hlength : (rounds ++ [round]).length = rounds.length + 1 := by simp
  have hdiscards := h.discards
  unfold recordRound
  split
  · next herror =>
      have hkept : kept (rounds ++ [round]) = kept rounds := by
        rw [kept_concat]
        simp [discarded, herror]
      exact h.of_kept_eq hkept (report.discardedUnbuildable + 1) report.discardedNotEquivalent
        (by omega)
  · next herror =>
      split
      · next hdiverged =>
          have hkept : kept (rounds ++ [round]) = kept rounds := by
            rw [kept_concat]
            simp [discarded, hdiverged]
          exact h.of_kept_eq hkept report.discardedUnbuildable (report.discardedNotEquivalent + 1)
            (by omega)
      · next hdiverged =>
          exact h.keep (keeps_of_trusted (by simp [discarded, herror, hdiverged]))
            ((struck_setupCrash report round.1 round.2).append
              (struck_crashedQuery (recordSetupCrash report round.1 round.2).1 round.1 round.2))

theorem recordRounds_accounts (rounds : List (RoundOutcome Row × Int)) :
    Accounts rounds (recordRounds rounds) := by
  induction rounds using List.reverseRecOn with
  | nil => exact ⟨rfl, rfl, rfl, rfl, rfl, rfl, rfl, rfl⟩
  | append_singleton rounds round ih =>
      rw [recordRounds, List.foldl_append]
      exact ih.record round

end Run

/-- What the totals of a session say of its rounds. -/
structure AddsUp (rounds : List (RoundOutcome Row × Int)) (report : FuzzReport Row) : Prop where
  oneClass : ∀ result ∈ resultsOf rounds, (classes result).count true = 1
  queriesRun : report.queriesRun = (resultsOf rounds).length
  passed : report.passed = (resultsOf rounds).countP (·.isPass)
  skipped : report.skipped = (resultsOf rounds).countP (·.isUncomparable) +
    (resultsOf rounds).countP (·.isKnownIssue) + timeoutsOf rounds
  reported : report.findings.filter (!·.isCrash) = findingsOf rounds
  balance : report.queriesRun = report.passed + (report.skipped - timeoutsOf rounds) +
    report.findings.countP fun finding => finding.kind = .mismatch ∨ finding.kind = .error
  crashes : report.findings.countP (·.isCrash) + timeoutsOf rounds = deathsOf rounds
  knownIssues : (report.skippedKnownIssues.items.map Prod.snd).sum =
    (resultsOf rounds).countP (·.isKnownIssue) + timeoutsOf rounds
  baseRan : ∀ finding ∈ report.findings, finding.isCrash = false → finding.baseError = none

/-- The totals add up after any rounds, and a discarded round is only counted as discarded. -/
theorem recordRounds_addsUp (compareMultisets : Rows → Rows → MultisetDiff Row)
    (rounds : List (RoundOutcome Row × Int))
    (h : ∀ round ∈ rounds, ∀ result ∈ round.1.results, Compared compareMultisets result) :
    AddsUp rounds (recordRounds rounds) ∧
      ∀ (report : FuzzReport Row) (outcome : RoundOutcome Row) (n : Int),
        (outcome.setupError.isSome = true → recordRound report outcome n =
          ({ report with discardedUnbuildable := report.discardedUnbuildable + 1 }, [])) ∧
        (outcome.setupError = none → objectDiverged outcome = true →
          recordRound report outcome n =
            ({ report with discardedNotEquivalent := report.discardedNotEquivalent + 1 }, [])) := by
  have haccounts := recordRounds_accounts rounds
  have hcompared : ∀ result ∈ resultsOf rounds, Compared compareMultisets result := by
    intro result hresult
    obtain ⟨round, hround, hmem⟩ := List.mem_flatMap.mp hresult
    exact h round (List.mem_of_mem_filter hround) result hmem
  constructor
  · refine ⟨fun result hresult => (hcompared result hresult).count_classes, haccounts.queriesRun,
      haccounts.passed, haccounts.skipped, haccounts.reported, ?_, haccounts.crashes, ?_, ?_⟩
    · have hlength := length_eq_classes hcompared
      have hreported : (recordRounds rounds).findings.countP
          (fun finding => finding.kind = .mismatch ∨ finding.kind = .error) =
            (resultsOf rounds).countP (·.isReportable) := by
        rw [← length_findingsOf, ← haccounts.reported, ← List.countP_eq_length_filter]
        congr 1
        funext finding
        unfold Finding.isCrash
        cases finding.kind <;> rfl
      rw [hreported, haccounts.queriesRun, haccounts.passed, haccounts.skipped]
      omega
    · rw [← Counter.card_bag, haccounts.labels, Multiset.card_add, Multiset.card_replicate,
        Multiset.coe_card, List.length_map, List.countP_eq_length_filter]
    · intro finding hfinding hkind
      have hmem : finding ∈ findingsOf rounds := by
        rw [← haccounts.reported]
        simp [hfinding, hkind]
      obtain ⟨round, -, hround⟩ := List.mem_flatMap.mp hmem
      obtain ⟨result, hresult, rfl⟩ := List.mem_map.mp hround
      exact baseError_of_isReportable (List.mem_filter.mp hresult).2
  · intro report outcome n
    constructor
    · intro herror
      rw [recordRound, if_pos herror]
    · intro herror hdiverged
      rw [recordRound, if_neg (by simp [herror]), if_pos hdiverged]

/-- The comparison where no integer is too large for a float. -/
def comparedRows (base other : Tally.RowCounter) : MultisetDiff Frozen.Row :=
  match Tally.compareMultisets (fun _ => "()") base other with
  | .ok diff => diff
  | .error _ => ⟨false, [], [], 0⟩

/-- A query that both sides answer and one that the equivalent rejects for a known reason, in a
round whose worker then died; another round that could not be built. -/
def sampleRounds : List (RoundOutcome Frozen.Row × Int) :=
  let rows : Reaction Tally.RowCounter := .rows (.ofRows [[.leaf (.int 1)]])
  [({ seed := 1
      results := [compareOne comparedRows (query rows) (query rows) "SELECT 1",
        compareOne comparedRows (query rows)
          (query (.dbError "22012" (some "division by zero"))) "SELECT 1 / 0"]
      crashedQuery := some "SELECT 2"
      crashNote := some "exit code 139" }, 1),
    ({ seed := 2, setupError := some "no such type" }, 2)]

theorem recordRounds_addsUp_sample : AddsUp sampleRounds (recordRounds sampleRounds) := by
  refine (recordRounds_addsUp comparedRows sampleRounds ?_).1
  intro round hround result hresult
  rcases List.mem_cons.mp hround with rfl | hround
  · rcases List.mem_cons.mp hresult with rfl | hresult
    · exact ⟨_, _, _, rfl⟩
    · rw [List.mem_singleton.mp hresult]
      exact ⟨_, _, _, rfl⟩
  · rw [List.mem_singleton.mp hround] at hresult
    simp at hresult

end EqGen.Fuzz.Session
