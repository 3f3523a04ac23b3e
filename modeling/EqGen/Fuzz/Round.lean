import Mathlib.Data.Seq.Defs
import Mathlib.Data.Rat.Defs
import EqGen.Fuzz.Compare
import EqGen.Fuzz.Databases
import EqGen.Fuzz.Journal

/-!
One round as two processes and the pipe between them. The parent keeps the queries and the
journal; the forked worker holds both databases and may die or hang at any point. Both move
one step at a time, in any order.
-/

namespace EqGen.Fuzz.Round

open EqGen.Fuzz.Compare
open EqGen.Fuzz.Journal

/-- Everything one round produced. -/
structure RoundOutcome (Row : Type) where
  seed : Int
  results : List (QueryComparison Row) := []
  equivalentStatements : List String := []
  objectComparison : Option (ObjectComparison Row) := none
  crashedQuery : Option String := none
  crashNote : Option String := none
  setupCrash : Option String := none
  setupError : Option String := none
  setupKnownIssue : Bool := false
  exposedNames : List String := []
  roundBudgetSeconds : Option ℚ := none
  stoppedForBudget : Bool := false

/-- What the generator handed over: the statements, and how the journal describes them. -/
structure Generated where
  statements : List String
  descriptions : List Remark

/-- The arguments of `run_round`. The budget is the scheduler's answer for this equivalence,
and the clock its successive readings. -/
structure RoundInput (Row Rows : Type) where
  seed : Int
  exposedNames : List String
  generated : Except String Generated
  queries : Stream'.Seq String
  journaled : Bool
  budget : Option ℚ
  scheduleNote : String
  clock : Nat → ℚ
  queryTimeout : String
  setupTimeout : String
  compareMultisets : Rows → Rows → MultisetDiff Row

/-- The deadline of the query phase: the first clock reading plus the budget. -/
def RoundInput.deadline {Row Rows : Type} (input : RoundInput Row Rows) : Option ℚ :=
  input.budget.map (input.clock 0 + ·)

/-- What the worker sends back. -/
inductive Reply (Row : Type) where
  | setupError (text : String) (known : Bool)
  | ready (comparison : ObjectComparison Row)
  | result (comparison : QueryComparison Row)

/-- Where the worker stands. A worker that hangs keeps its end of the pipe open; one that
returned, raised or was killed has closed it. -/
inductive Worker where
  | unborn
  | building
  | comparing
  | waiting
  | answering (query : String)
  | hung
  | closed
  deriving DecidableEq

/-- Where the parent stands; `cleanup` is the `finally` block of a round whose outcome is
already decided. -/
inductive Parent (Row : Type) where
  | generating
  | awaitingSetup (generated : Generated)
  | scheduling (generated : Generated)
  | looping (generated : Generated)
  | pulling (generated : Generated)
  | beginning (generated : Generated) (query : String)
  | sending (generated : Generated) (query : String)
  | awaiting (generated : Generated) (query : String)
  | cleanup (outcome : RoundOutcome Row)
  | returned (outcome : RoundOutcome Row)

/-- What an observer of the parent sees happen, in order. -/
inductive Event where
  | started (time : ℚ)
  | checked (time : ℚ)
  | pull (query : String)
  | write (call : JournalWrite)
  | send (query : String)
  | died
  | timedOut
  deriving DecidableEq

/-- Both processes, the pipe in its two directions, and the parent's variables. -/
structure Net (Row : Type) where
  parent : Parent Row := .generating
  worker : Worker := .unborn
  toWorker : List (Option String) := []
  toParent : List (Reply Row) := []
  results : List (QueryComparison Row) := []
  objectComparison : Option (ObjectComparison Row) := none
  deadline : Option ℚ := none
  readings : Nat := 0
  pulled : Nat := 0
  trace : List Event := []

/-- What the worker may do next. -/
inductive WorkerAction (Rows Row : Type) where
  | builds
  | fails (text : String) (known : Bool)
  | ready (comparison : ObjectComparison Row)
  | receives
  | answers (base equivalent : QueryOutcome Rows)
  | dies
  | hangs

/-- One step of the system. The note of a dead or silent worker is what `_crash_note` says
of its exit status. -/
inductive Action (Rows Row : Type) where
  | parent
  | endOfFile (note : String)
  | timeout (note : String)
  | worker (action : WorkerAction Rows Row)

variable {Row Rows : Type} [CanonicalRow Row]

/-- The trace grows by the given events. -/
def Net.emit (net : Net Row) (events : List Event) : Net Row :=
  { net with trace := net.trace ++ events }

/-- Calls on the journal, when there is one. -/
def Net.log (net : Net Row) (input : RoundInput Row Rows) (calls : List JournalWrite) :
    Net Row :=
  net.emit (if input.journaled then calls.map .write else [])

/-- One step of `_worker`. -/
def workerStep (input : RoundInput Row Rows) (net : Net Row) :
    WorkerAction Rows Row → Option (Net Row)
  | .builds =>
      match net.worker with
      | .building => some { net with worker := .comparing }
      | _ => none
  | .fails text known =>
      match net.worker with
      | .building =>
          some { net with
            worker := .closed
            toParent := net.toParent ++ [.setupError text known] }
      | .comparing =>
          some { net with
            worker := .closed
            toParent :=
              net.toParent ++ [.setupError s!"reading the object failed: {text}" known] }
      | _ => none
  | .ready comparison =>
      match net.worker with
      | .comparing =>
          some { net with
            worker := .waiting
            toParent := net.toParent ++ [.ready comparison] }
      | _ => none
  | .receives =>
      match net.worker, net.toWorker with
      | .waiting, some query :: rest =>
          some { net with worker := .answering query, toWorker := rest }
      | .waiting, none :: rest => some { net with worker := .closed, toWorker := rest }
      | _, _ => none
  | .answers base equivalent =>
      match net.worker with
      | .answering query =>
          some { net with
            worker := .waiting
            toParent := net.toParent ++
              [.result (compareOne input.compareMultisets base equivalent query)] }
      | _ => none
  | .dies =>
      match net.worker with
      | .unborn | .closed => none
      | _ => some { net with worker := .closed }
  | .hangs =>
      match net.worker with
      | .unborn | .closed => none
      | _ => some { net with worker := .hung }

/-- The outcome of a round that reached its query phase. -/
def queryPhaseOutcome (input : RoundInput Row Rows) (net : Net Row) (generated : Generated)
    (stoppedForBudget : Bool) (crashed : Option (String × String)) : RoundOutcome Row :=
  { seed := input.seed
    results := net.results
    equivalentStatements := generated.statements
    objectComparison := net.objectComparison
    crashedQuery := crashed.map Prod.fst
    crashNote := crashed.map Prod.snd
    roundBudgetSeconds := input.budget
    stoppedForBudget := stoppedForBudget
    exposedNames := input.exposedNames }

/-- The outcome of a round whose worker died or hung before it was ready. -/
def setupCrashOutcome (input : RoundInput Row Rows) (generated : Generated)
    (note : String) : RoundOutcome Row :=
  { seed := input.seed
    equivalentStatements := generated.statements
    setupCrash := some note
    crashNote := some s!"while building the equivalence: {note}"
    exposedNames := input.exposedNames }

/-- One step of `run_round` itself; `none` where it blocks on the pipe. -/
def parentStep (input : RoundInput Row Rows) (net : Net Row) : Option (Net Row) :=
  match net.parent with
  | .generating =>
      match input.generated with
      | .error error =>
          some { net.log input [.annotate (.note s!"NOT GENERATED: {error}")] with
            parent := .returned
              { seed := input.seed
                setupError := some error
                exposedNames := input.exposedNames } }
      | .ok generated =>
          -- The DDL is journaled before the fork, then the worker starts.
          let ddl := Remark.record "equivalence DDL"
            (generated.statements.map fun sql => s!"{sql};")
          some { net.log input ((generated.descriptions ++ [ddl]).map .annotate) with
            parent := .awaitingSetup generated
            worker := .building }
  | .awaitingSetup generated =>
      match net.toParent with
      | .setupError text known :: rest =>
          some { net.log input [.annotate (.note s!"WOULD NOT BUILD: {text}")] with
            toParent := rest
            parent := .cleanup
              { seed := input.seed
                equivalentStatements := generated.statements
                setupError := some text
                setupKnownIssue := known
                exposedNames := input.exposedNames } }
      | .ready comparison :: rest =>
          let note := Remark.note s!"equivalence check: {comparison.verdict}"
          some { net.log input [.annotate note] with
            toParent := rest
            objectComparison := some comparison
            parent := .scheduling generated }
      | _ => none
  | .scheduling generated =>
      match input.budget with
      | none => some { net with parent := .looping generated }
      | some budget =>
          let time := input.clock net.readings
          let net := (net.emit [.started time]).log input
            [.annotate (.note input.scheduleNote)]
          some { net with
            readings := net.readings + 1
            deadline := some (time + budget)
            parent := .looping generated }
  | .looping generated =>
      match net.deadline with
      | none => some { net with parent := .pulling generated }
      | some deadline =>
          let time := input.clock net.readings
          let net := { net.emit [.checked time] with readings := net.readings + 1 }
          if deadline ≤ time then
            some { net with
              parent := .cleanup (queryPhaseOutcome input net generated true none) }
          else some { net with parent := .pulling generated }
  | .pulling generated =>
      match input.queries.get? net.pulled with
      | none =>
          some { net with
            parent := .cleanup (queryPhaseOutcome input net generated false none) }
      | some query =>
          some { net.emit [.pull query] with
            pulled := net.pulled + 1
            parent := .beginning generated query }
  | .beginning generated query =>
      some { net.log input [.begin query] with parent := .sending generated query }
  | .sending generated query =>
      -- Sending on a pipe whose other end is closed raises: see `endOfFileStep`.
      if net.worker = .closed then none
      else
        some { net.emit [.send query] with
          toWorker := net.toWorker ++ [some query]
          parent := .awaiting generated query }
  | .awaiting generated _ =>
      match net.toParent with
      | .result comparison :: rest =>
          some { net.log input [.verdict comparison.verdict] with
            toParent := rest
            results := net.results ++ [comparison]
            parent := .looping generated }
      | _ => none
  | .cleanup outcome =>
      -- The stop message, then the join or the kill.
      some { net with
        toWorker := if net.worker = .closed then net.toWorker else net.toWorker ++ [none]
        worker := .closed
        parent := .returned outcome }
  | .returned _ => none

/-- `EOFError`, `BrokenPipeError` or `ConnectionResetError`: the worker's end is closed and
nothing is left to read. -/
def endOfFileStep (input : RoundInput Row Rows) (net : Net Row) (note : String) :
    Option (Net Row) :=
  if net.worker = .closed ∧ net.toParent = [] then
    match net.parent with
    | .awaitingSetup generated =>
        let message := s!"CRASH: engine died while building the equivalence ({note})"
        some { (net.emit [.died]).log input [.annotate (.note message)] with
          parent := .cleanup (setupCrashOutcome input generated note) }
    | .sending generated query | .awaiting generated query =>
        some { (net.emit [.died]).log input [.verdict s!"CRASH: engine died ({note})"] with
          parent :=
            .cleanup (queryPhaseOutcome input net generated false (some (query, note))) }
    | _ => none
  else none

/-- `TimeoutError` of `_recv`: the worker stayed silent for the whole wait and is killed. -/
def timeoutStep (input : RoundInput Row Rows) (net : Net Row) (note : String) :
    Option (Net Row) :=
  if net.worker ≠ .closed ∧ net.toParent = [] then
    match net.parent with
    | .awaitingSetup generated =>
        let note := s!"worker did not respond within {input.setupTimeout}s; {note}"
        let message := s!"CRASH: engine hung while building the equivalence ({note})"
        some { (net.emit [.timedOut]).log input [.annotate (.note message)] with
          worker := .closed
          parent := .cleanup (setupCrashOutcome input generated note) }
    | .awaiting generated query =>
        let note := s!"worker did not respond within {input.queryTimeout}s; {note}"
        some { (net.emit [.timedOut]).log input
            [.verdict s!"CRASH: engine hung ({note})"] with
          worker := .closed
          parent :=
            .cleanup (queryPhaseOutcome input net generated false (some (query, note))) }
    | _ => none
  else none

/-- One step of the two processes. -/
def step (input : RoundInput Row Rows) (net : Net Row) :
    Action Rows Row → Option (Net Row)
  | .parent => parentStep input net
  | .endOfFile note => endOfFileStep input net note
  | .timeout note => timeoutStep input net note
  | .worker action => workerStep input net action

end EqGen.Fuzz.Round
