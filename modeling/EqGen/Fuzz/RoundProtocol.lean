import EqGen.Lib.Machine
import EqGen.Fuzz.Round

/-!
What the parent, the worker and the journal agree on in every interleaving of a round: each
query is pulled, journaled, sent and closed in turn, and the one left without an answer is
the one blamed.
-/

namespace EqGen.Fuzz.RoundProtocol

open EqGen.Lib.Machine
open EqGen.Fuzz.Compare
open EqGen.Fuzz.Journal
open EqGen.Fuzz.Round

/-- The calls on the journal, in order. -/
def journal : List Event → List JournalWrite
  | [] => []
  | .write call :: events => call :: journal events
  | _ :: events => journal events

@[simp]
theorem journal_append (events more : List Event) :
    journal (events ++ more) = journal events ++ journal more := by
  induction events with
  | nil => rfl
  | cons event events ih => cases event <;> simp [journal, ih]

@[simp]
theorem journal_map_write (calls : List JournalWrite) :
    journal (calls.map Event.write) = calls := by
  induction calls with
  | nil => rfl
  | cons call calls ih => simp [journal, ih]

/-- Where the query in hand stands. -/
inductive Turn where
  | idle
  | pulled (query : String)
  | begun (query : String)
  | sent (query : String)
  deriving DecidableEq

/-- The order of events around one query: pulled, journaled by `begin`, sent, closed by one
verdict. A query whose worker is already gone is closed without having been sent. -/
def Turn.next : Turn → Event → Option Turn
  | turn, .write (.annotate _) => some turn
  | .idle, .started _ | .idle, .checked _ => some .idle
  | .idle, .died => some .idle
  | .idle, .timedOut => some .idle
  | .idle, .pull query => some (.pulled query)
  | .pulled query, .write (.begin sql) => if sql = query then some (.begun query) else none
  | .begun query, .send sql => if sql = query then some (.sent query) else none
  | .begun query, .died => some (.begun query)
  | .sent query, .died | .sent query, .timedOut => some (.sent query)
  | .begun _, .write (.verdict _) | .sent _, .write (.verdict _) => some .idle
  | _, _ => none

/-- The turn a trace leads to, if every event came in its order. -/
def turnAfter (trace : List Event) : Option Turn :=
  trace.foldlM Turn.next .idle

@[simp]
theorem turnAfter_append (trace more : List Event) :
    turnAfter (trace ++ more) = (turnAfter trace).bind fun turn => more.foldlM Turn.next turn := by
  simp [turnAfter, List.foldlM_append, Option.bind_eq_bind]

theorem foldlM_next_annotate (turn : Turn) (remarks : List Remark) :
    ((remarks.map JournalWrite.annotate).map Event.write).foldlM Turn.next turn =
      some turn := by
  induction remarks with
  | nil => rfl
  | cons remark remarks ih => simpa [Turn.next] using ih

/-- The events after which the round must fall silent: the worker died or hung, or the clock
was read at or past the deadline. -/
def Stops {Row Rows : Type} (input : RoundInput Row Rows) : Event → Prop
  | .died | .timedOut => True
  | .checked time => ∃ deadline, input.deadline = some deadline ∧ deadline ≤ time
  | _ => False

/-- The events that hand a query on. -/
def Active : Event → Prop
  | .pull _ | .send _ | .write (.begin _) => True
  | _ => False

/-- The listed queries are the first ones of the stream. -/
def PrefixOf (queries : List String) (stream : Stream'.Seq String) : Prop :=
  ∀ i < queries.length, queries[i]? = stream.get? i

theorem PrefixOf.concat {queries : List String} {stream : Stream'.Seq String} {query : String}
    (h : PrefixOf queries stream) (hquery : stream.get? queries.length = some query) :
    PrefixOf (queries ++ [query]) stream := by
  intro i hi
  rcases Nat.lt_or_ge i queries.length with hlt | hge
  · rw [List.getElem?_append_left hlt]
    exact h i hlt
  · have hlen : i = queries.length := by
      simp only [List.length_append, List.length_singleton] at hi
      omega
    subst hlen
    simp [hquery]

theorem PrefixOf.of_isPrefix {queries first : List String} {stream : Stream'.Seq String}
    (h : PrefixOf queries stream) (hfirst : first <+: queries) : PrefixOf first stream := by
  obtain ⟨rest, rfl⟩ := hfirst
  intro i hi
  rw [← h i (by simp; omega), List.getElem?_append_left hi]

/-- The query the parent has pulled and not yet seen answered. -/
def inFlight {Row : Type} : Parent Row → List String
  | .beginning _ query | .sending _ query | .awaiting _ query => [query]
  | .cleanup outcome | .returned outcome => outcome.crashedQuery.toList
  | _ => []

/-- The query the parent has journaled and not yet seen answered. -/
def begunInFlight {Row : Type} : Parent Row → List String
  | .sending _ query | .awaiting _ query => [query]
  | .cleanup outcome | .returned outcome => outcome.crashedQuery.toList
  | _ => []

theorem begunInFlight_isPrefix {Row : Type} (parent : Parent Row) :
    begunInFlight parent <+: inFlight parent := by
  cases parent <;> simp [begunInFlight, inFlight]

/-- The turn that belongs to each place of the parent. -/
def turnOf {Row : Type} : Parent Row → Turn
  | .beginning _ query => .pulled query
  | .sending _ query => .begun query
  | .awaiting _ query => .sent query
  | _ => .idle

/-- A worker that is past its setup and holds no query. -/
def Idle (worker : Worker) : Prop :=
  worker = .waiting ∨ worker = .hung ∨ worker = .closed

/-- A worker still setting up, or lost while it did. -/
def InSetup (worker : Worker) : Prop :=
  worker = .building ∨ worker = .comparing ∨ worker = .hung ∨ worker = .closed

/-- What is in the pipe, and what the worker can be doing, at each place of the parent. -/
def PipeAgrees {Row : Type} (net : Net Row) : Prop :=
  match net.parent with
  | .generating => net.worker = .unborn ∧ net.toWorker = [] ∧ net.toParent = []
  | .awaitingSetup _ =>
      net.toWorker = [] ∧
        (net.toParent = [] ∧ InSetup net.worker ∨
          ∃ reply, net.toParent = [reply] ∧ (∀ c, reply ≠ .result c) ∧ Idle net.worker)
  | .scheduling _ | .looping _ | .pulling _ | .beginning _ _ | .sending _ _ =>
      net.toWorker = [] ∧ net.toParent = [] ∧ Idle net.worker
  | .awaiting _ query =>
      net.toWorker = [some query] ∧ net.toParent = [] ∧ Idle net.worker ∨
        net.toWorker = [] ∧ net.toParent = [] ∧
          (net.worker = .answering query ∨ net.worker = .hung ∨ net.worker = .closed) ∨
        net.toWorker = [] ∧
          (∃ c, net.toParent = [.result c] ∧ c.query = query) ∧ Idle net.worker
  | .cleanup _ | .returned _ => True

/-- How far the round is: what is known of the setup, the clock and the outcome at each
place of the parent. -/
def Stage {Row Rows : Type} (input : RoundInput Row Rows) (net : Net Row) : Prop :=
  match net.parent with
  | .generating | .awaitingSetup _ =>
      net.objectComparison = none ∧ net.results = [] ∧ net.readings = 0 ∧ net.deadline = none
  | .scheduling _ =>
      net.objectComparison.isSome ∧ net.readings = 0 ∧ net.deadline = none
  | .cleanup outcome | .returned outcome =>
      outcome.results = net.results ∧
        (outcome.setupError.isSome ∨ outcome.setupCrash.isSome →
          net.objectComparison = none) ∧
        (net.objectComparison = none → net.results = [] ∧ outcome.crashedQuery = none)
  | _ => net.objectComparison.isSome ∧ net.deadline = input.deadline

/-- The round is decided and no query will be touched again. -/
def Decided {Row : Type} : Parent Row → Prop
  | .cleanup _ | .returned _ => True
  | _ => False

/-- The invariant of the parent's side: the trace accounts for every query. -/
structure Accounted {Row Rows : Type} (input : RoundInput Row Rows) (net : Net Row) :
    Prop where
  pulled : net.pulled =
    (net.results.map QueryComparison.query ++ inFlight net.parent).length
  fromStream : PrefixOf (net.results.map QueryComparison.query ++ inFlight net.parent)
    input.queries
  begun_eq : begun (journal net.trace) =
    net.results.map QueryComparison.query ++ begunInFlight net.parent
  turn : turnAfter net.trace = some (turnOf net.parent)
  silent : net.trace.Pairwise fun earlier later => Stops input earlier → ¬ Active later
  running : ¬ Decided net.parent → ∀ event ∈ net.trace, ¬ Stops input event
  stage : Stage input net

section Worker

variable {Row Rows : Type} {input : RoundInput Row Rows} {net next : Net Row}
  {action : WorkerAction Rows Row}

/-- What one step of the worker can be. -/
inductive WorkerMove (net : Net Row) : Net Row → Prop where
  | builds (h : net.worker = .building) : WorkerMove net { net with worker := .comparing }
  | reports (h : net.worker = .building ∨ net.worker = .comparing) (reply : Reply Row)
      (hreply : ∀ c, reply ≠ .result c) (worker : Worker) (hworker : Idle worker) :
      WorkerMove net { net with worker := worker, toParent := net.toParent ++ [reply] }
  | receives (h : net.worker = .waiting) (query : String) (rest : List (Option String))
      (hqueue : net.toWorker = some query :: rest) :
      WorkerMove net { net with worker := .answering query, toWorker := rest }
  | stops (h : net.worker = .waiting) (rest : List (Option String))
      (hqueue : net.toWorker = none :: rest) :
      WorkerMove net { net with worker := .closed, toWorker := rest }
  | answers (comparison : QueryComparison Row) (h : net.worker = .answering comparison.query) :
      WorkerMove net
        { net with worker := .waiting, toParent := net.toParent ++ [.result comparison] }
  | lost (h : net.worker ≠ .unborn ∧ net.worker ≠ .closed) (worker : Worker)
      (hworker : worker = .hung ∨ worker = .closed) :
      WorkerMove net { net with worker := worker }

theorem workerStep_move (h : workerStep input net action = some next) :
    WorkerMove net next := by
  cases action with
  | builds =>
      simp only [workerStep] at h
      split at h
      · rename_i hw
        cases h
        exact .builds hw
      · cases h
  | fails text known =>
      simp only [workerStep] at h
      split at h
      · rename_i hw
        cases h
        exact .reports (.inl hw) _ (by simp) _ (by simp [Idle])
      · rename_i hw
        cases h
        exact .reports (.inr hw) _ (by simp) _ (by simp [Idle])
      · cases h
  | ready comparison =>
      simp only [workerStep] at h
      split at h
      · rename_i hw
        cases h
        exact .reports (.inr hw) _ (by simp) _ (by simp [Idle])
      · cases h
  | receives =>
      simp only [workerStep] at h
      split at h
      · rename_i hw hqueue
        cases h
        exact .receives hw _ _ hqueue
      · rename_i hw hqueue
        cases h
        exact .stops hw _ hqueue
      · cases h
  | answers base equivalent =>
      simp only [workerStep] at h
      split at h
      · rename_i hw
        cases h
        exact .answers _ (by simpa using hw)
      · cases h
  | dies =>
      simp only [workerStep] at h
      split at h
      · cases h
      · cases h
      · rename_i hunborn hclosed
        cases h
        exact .lost ⟨hunborn, hclosed⟩ _ (.inr rfl)
  | hangs =>
      simp only [workerStep] at h
      split at h
      · cases h
      · cases h
      · rename_i hunborn hclosed
        cases h
        exact .lost ⟨hunborn, hclosed⟩ _ (.inl rfl)

/-- The worker moves itself and the pipe, and nothing of the parent's. -/
theorem WorkerMove.accounted (hmove : WorkerMove net next) (h : Accounted input net) :
    Accounted input next := by
  obtain ⟨pulled, fromStream, begun_eq, turn, silent, running, stage⟩ := h
  cases hmove <;> exact ⟨pulled, fromStream, begun_eq, turn, silent, running, stage⟩

theorem WorkerMove.pipeAgrees (hmove : WorkerMove net next) (hpipe : PipeAgrees net) :
    PipeAgrees next := by
  unfold PipeAgrees at hpipe ⊢
  cases hparent : net.parent with
  | cleanup | returned =>
      cases hmove <;> simp [hparent]
  | _ =>
      rw [hparent] at hpipe
      cases hmove <;> simp only [hparent] at hpipe ⊢ <;> grind [Idle, InSetup]

end Worker

section Parent

variable {Row Rows : Type} {input : RoundInput Row Rows} {net next : Net Row}

/-- New events keep the trace silent when nothing before them stopped the round. -/
theorem silent_append {trace events : List Event}
    (htrace : trace.Pairwise fun earlier later => Stops input earlier → ¬ Active later)
    (hrunning : ∀ event ∈ trace, ¬ Stops input event)
    (hevents : events.Pairwise fun earlier later => Stops input earlier → ¬ Active later) :
    (trace ++ events).Pairwise fun earlier later => Stops input earlier → ¬ Active later := by
  refine List.pairwise_append.mpr ⟨htrace, hevents, ?_⟩
  intro earlier hearlier later _ hstops
  exact absurd hstops (hrunning earlier hearlier)

/-- A step of a running parent that adds `events` to the trace keeps the account when the
events come in turn and the books are balanced. -/
theorem Accounted.extend (h : Accounted input net) (events : List Event)
    (hold : ¬ Decided net.parent) (htrace : next.trace = net.trace ++ events)
    (hturn : events.foldlM Turn.next (turnOf net.parent) = some (turnOf next.parent))
    (hevents : events.Pairwise fun earlier later => Stops input earlier → ¬ Active later)
    (hrunning : Decided next.parent ∨ ∀ event ∈ events, ¬ Stops input event)
    (hbegun : net.results.map QueryComparison.query ++ begunInFlight net.parent ++
        begun (journal events) =
      next.results.map QueryComparison.query ++ begunInFlight next.parent)
    (hpulled : next.pulled =
      (next.results.map QueryComparison.query ++ inFlight next.parent).length)
    (hstream : PrefixOf (next.results.map QueryComparison.query ++ inFlight next.parent)
      input.queries)
    (hstage : Stage input next) : Accounted input next where
  pulled := hpulled
  fromStream := hstream
  begun_eq := by
    rw [htrace, journal_append, begun_append, h.begun_eq, hbegun]
  turn := by
    rw [htrace, turnAfter_append, h.turn, Option.bind_some, hturn]
  silent := by
    rw [htrace]
    exact silent_append h.silent (h.running hold) hevents
  running := by
    intro hnext event hevent
    rw [htrace, List.mem_append] at hevent
    rcases hevent with hevent | hevent
    · exact h.running hold event hevent
    · exact (hrunning.resolve_left hnext) event hevent
  stage := hstage

/-- The remarks of a journal stop nothing and hand nothing on. -/
theorem remark_passive {remarks : List Remark} {event : Event}
    (h : event ∈ (remarks.map JournalWrite.annotate).map Event.write) :
    ¬ Stops input event ∧ ¬ Active event := by
  simp only [List.map_map, List.mem_map, Function.comp_apply] at h
  obtain ⟨remark, _, rfl⟩ := h
  exact ⟨id, id⟩

theorem remarks_silent (remarks : List Remark) :
    ((remarks.map JournalWrite.annotate).map Event.write).Pairwise
      fun earlier later => Stops input earlier → ¬ Active later := by
  refine List.pairwise_of_forall_mem_list ?_
  intro _ _ later hlater _
  exact (@remark_passive _ _ input _ _ hlater).2

/-- A step that only adds remarks while the query in hand, if any, stays where it is. -/
theorem Accounted.remark (h : Accounted input net) (remarks : List Remark)
    (hold : ¬ Decided net.parent)
    (htrace : next.trace = net.trace ++ (remarks.map JournalWrite.annotate).map Event.write)
    (hturn : turnOf next.parent = turnOf net.parent)
    (hbegun : begunInFlight next.parent = begunInFlight net.parent)
    (hflight : inFlight next.parent = inFlight net.parent)
    (hresults : next.results = net.results) (hpulled : next.pulled = net.pulled)
    (hstage : Stage input next) : Accounted input next := by
  refine h.extend _ hold htrace ?_ (remarks_silent remarks)
    (.inr fun event hevent => (remark_passive hevent).1) ?_ ?_ ?_ hstage
  · rw [foldlM_next_annotate, hturn]
  · rw [journal_map_write, begun_map_annotate, hbegun, hresults, List.append_nil]
  · rw [hpulled, hresults, hflight, h.pulled]
  · rw [hresults, hflight]
    exact h.fromStream

@[simp]
theorem log_trace (hjournal : input.journaled = true) (calls : List JournalWrite) :
    (net.log input calls).trace = net.trace ++ calls.map Event.write := by
  simp [Net.log, Net.emit, hjournal]

section Steps

variable [CanonicalRow Row]

/-- The generated script, or the error it stopped with, is journaled. -/
theorem Accounted.generating (h : Accounted input net) (hjournal : input.journaled = true)
    (hparent : net.parent = .generating) (hstep : parentStep input net = some next) :
    Accounted input next := by
  have hpulled := h.pulled
  have hstream := h.fromStream
  have hstage := h.stage
  unfold parentStep at hstep
  simp only [hparent, Stage] at hstep hstage
  split at hstep
  · cases hstep
    refine h.remark [_] (by simp [hparent, Decided]) (log_trace hjournal _)
      ?_ ?_ ?_ rfl rfl ?_
    all_goals simp_all [turnOf, begunInFlight, inFlight, Stage, Net.log, Net.emit]
  · cases hstep
    refine h.remark _ (by simp [hparent, Decided]) (log_trace hjournal _)
      ?_ ?_ ?_ rfl rfl ?_
    all_goals simp_all [turnOf, begunInFlight, inFlight, Stage, Net.log, Net.emit]

/-- The worker came through its setup, or would not build. -/
theorem Accounted.awaitingSetup {generated : Generated} (h : Accounted input net)
    (hjournal : input.journaled = true) (hparent : net.parent = .awaitingSetup generated)
    (hstep : parentStep input net = some next) : Accounted input next := by
  have hpulled := h.pulled
  have hstream := h.fromStream
  have hstage := h.stage
  unfold parentStep at hstep
  simp only [hparent, Stage] at hstep hstage
  split at hstep
  · cases hstep
    refine h.remark [_] (by simp [hparent, Decided]) (log_trace hjournal _)
      ?_ ?_ ?_ rfl rfl ?_
    all_goals simp_all [turnOf, begunInFlight, inFlight, Stage, Net.log, Net.emit]
  · cases hstep
    refine h.remark [_] (by simp [hparent, Decided]) (log_trace hjournal _)
      ?_ ?_ ?_ rfl rfl ?_
    all_goals simp_all [turnOf, begunInFlight, inFlight, Stage, Net.log, Net.emit]
  · cases hstep

/-- The clock starts, where there is a budget. -/
theorem Accounted.scheduling {generated : Generated} (h : Accounted input net)
    (hjournal : input.journaled = true) (hparent : net.parent = .scheduling generated)
    (hstep : parentStep input net = some next) : Accounted input next := by
  have hpulled := h.pulled
  have hstream := h.fromStream
  have hstage := h.stage
  unfold parentStep at hstep
  simp only [hparent, Stage] at hstep hstage
  split at hstep
  · rename_i hbudget
    cases hstep
    refine h.remark [] (by simp [hparent, Decided]) (by simp) ?_ ?_ ?_ rfl rfl ?_
    all_goals simp_all [turnOf, begunInFlight, inFlight, Stage, RoundInput.deadline]
  · rename_i budget hbudget
    cases hstep
    refine h.extend [.started (input.clock net.readings),
      .write (.annotate (.note input.scheduleNote))]
      (by simp [hparent, Decided]) ?_ ?_ ?_ ?_ ?_ ?_ ?_ ?_
    all_goals simp_all [turnOf, begunInFlight, inFlight, Stage, Net.log, Net.emit,
      Turn.next, Stops, Active, journal, begun, RoundInput.deadline]

/-- The deadline is checked before each query. -/
theorem Accounted.looping {generated : Generated} (h : Accounted input net)
    (hparent : net.parent = .looping generated) (hstep : parentStep input net = some next) :
    Accounted input next := by
  have hpulled := h.pulled
  have hstream := h.fromStream
  have hstage := h.stage
  unfold parentStep at hstep
  simp only [hparent, Stage] at hstep hstage
  split at hstep
  · cases hstep
    refine h.remark [] (by simp [hparent, Decided]) (by simp) ?_ ?_ ?_ rfl rfl ?_
    all_goals simp_all [turnOf, begunInFlight, inFlight, Stage]
  · rename_i deadline hdeadline
    have hready : net.objectComparison ≠ none := Option.isSome_iff_ne_none.mp hstage.1
    split at hstep
    · rename_i hlate
      cases hstep
      refine h.extend [.checked (input.clock net.readings)] (by simp [hparent, Decided])
        rfl ?_ ?_ ?_ ?_ ?_ ?_ ?_
      all_goals simp_all [turnOf, begunInFlight, inFlight, Stage, Net.emit, Turn.next,
        Decided, journal, begun, queryPhaseOutcome]
    · rename_i hearly
      cases hstep
      have hgoes : ¬ Stops input (.checked (input.clock net.readings)) := by
        rintro ⟨late, hlate, hle⟩
        rw [← hstage.2, hdeadline, Option.some.injEq] at hlate
        exact hearly (hlate ▸ hle)
      refine h.extend [.checked (input.clock net.readings)] (by simp [hparent, Decided])
        rfl ?_ ?_ ?_ ?_ ?_ ?_ ?_
      all_goals simp_all [turnOf, begunInFlight, inFlight, Stage, Net.emit, Turn.next,
        journal, begun]

/-- The next query is pulled, or there is none. -/
theorem Accounted.pulling {generated : Generated} (h : Accounted input net)
    (hparent : net.parent = .pulling generated) (hstep : parentStep input net = some next) :
    Accounted input next := by
  have hpulled := h.pulled
  have hstream := h.fromStream
  have hstage := h.stage
  unfold parentStep at hstep
  simp only [hparent, Stage] at hstep hstage
  have hready : net.objectComparison ≠ none := Option.isSome_iff_ne_none.mp hstage.1
  split at hstep
  · cases hstep
    refine h.remark [] (by simp [hparent, Decided]) (by simp) ?_ ?_ ?_ rfl rfl ?_
    all_goals simp_all [turnOf, begunInFlight, inFlight, Stage, queryPhaseOutcome]
  · rename_i query hquery
    cases hstep
    refine h.extend [.pull query] (by simp [hparent, Decided]) rfl ?_ ?_ ?_ ?_ ?_ ?_ ?_
    all_goals simp_all [turnOf, begunInFlight, inFlight, Stage, Net.emit, Turn.next, Stops,
      journal, begun]
    exact hstream.concat (by simpa using hquery)

/-- The query is journaled before it is sent. -/
theorem Accounted.beginning {generated : Generated} {query : String} (h : Accounted input net)
    (hjournal : input.journaled = true) (hparent : net.parent = .beginning generated query)
    (hstep : parentStep input net = some next) : Accounted input next := by
  have hpulled := h.pulled
  have hstream := h.fromStream
  have hstage := h.stage
  unfold parentStep at hstep
  simp only [hparent, Stage] at hstep hstage
  cases hstep
  refine h.extend [.write (.begin query)] (by simp [hparent, Decided])
    (log_trace hjournal _) ?_ ?_ ?_ ?_ ?_ ?_ ?_
  all_goals simp_all [turnOf, begunInFlight, inFlight, Stage, Net.log, Net.emit, Turn.next,
    Stops, journal, begun]

theorem Accounted.sending {generated : Generated} {query : String} (h : Accounted input net)
    (hparent : net.parent = .sending generated query) (hstep : parentStep input net = some next) :
    Accounted input next := by
  have hpulled := h.pulled
  have hstream := h.fromStream
  have hstage := h.stage
  unfold parentStep at hstep
  simp only [hparent, Stage] at hstep hstage
  split at hstep
  · cases hstep
  · cases hstep
    refine h.extend [.send query] (by simp [hparent, Decided]) rfl ?_ ?_ ?_ ?_ ?_ ?_ ?_
    all_goals simp_all [turnOf, begunInFlight, inFlight, Stage, Net.emit, Turn.next, Stops,
      journal, begun]

/-- The reply in the pipe is about the query that was sent. -/
theorem Accounted.awaiting {generated : Generated} {query : String} (h : Accounted input net)
    (hjournal : input.journaled = true) (hpipe : PipeAgrees net)
    (hparent : net.parent = .awaiting generated query) (hstep : parentStep input net = some next) :
    Accounted input next := by
  have hpulled := h.pulled
  have hstream := h.fromStream
  have hstage := h.stage
  unfold parentStep at hstep
  unfold PipeAgrees at hpipe
  simp only [hparent, Stage] at hstep hstage hpipe
  split at hstep
  · rename_i comparison rest hreply
    cases hstep
    have hquery : comparison.query = query := by
      simp only [hreply] at hpipe
      rcases hpipe with ⟨_, hnil, _⟩ | ⟨_, hnil, _⟩ | ⟨_, ⟨c, hc, hcq⟩, _⟩
      · cases hnil
      · cases hnil
      · cases hc
        exact hcq
    refine h.extend [.write (.verdict _)] (by simp [hparent, Decided])
      (log_trace hjournal _) ?_ ?_ ?_ ?_ ?_ ?_ ?_
    all_goals simp_all [turnOf, begunInFlight, inFlight, Stage, Net.log, Net.emit,
      Turn.next, Stops, journal, begun]
  · cases hstep

theorem Accounted.cleanup {outcome : RoundOutcome Row} (h : Accounted input net)
    (hparent : net.parent = .cleanup outcome) (hstep : parentStep input net = some next) :
    Accounted input next := by
  have hstage := h.stage
  unfold parentStep at hstep
  simp only [hparent, Stage] at hstep hstage
  cases hstep
  obtain ⟨pulled, fromStream, begun_eq, turn, silent, running, stage⟩ := h
  simp only [hparent, inFlight, begunInFlight, turnOf] at *
  refine ⟨pulled, fromStream, begun_eq, turn, silent, ?_, ?_⟩
  · simp [Decided]
  · simpa [Stage] using hstage

theorem parentStep_accounted (hjournal : input.journaled = true) (h : Accounted input net)
    (hpipe : PipeAgrees net) (hstep : parentStep input net = some next) :
    Accounted input next := by
  cases hparent : net.parent with
  | generating => exact h.generating hjournal hparent hstep
  | awaitingSetup generated => exact h.awaitingSetup hjournal hparent hstep
  | scheduling generated => exact h.scheduling hjournal hparent hstep
  | looping generated => exact h.looping hparent hstep
  | pulling generated => exact h.pulling hparent hstep
  | beginning generated query => exact h.beginning hjournal hparent hstep
  | sending generated query => exact h.sending hparent hstep
  | awaiting generated query => exact h.awaiting hjournal hpipe hparent hstep
  | cleanup outcome => exact h.cleanup hparent hstep
  | returned outcome =>
      unfold parentStep at hstep
      simp [hparent] at hstep

theorem parentStep_pipe (hpipe : PipeAgrees net) (hstep : parentStep input net = some next) :
    PipeAgrees next := by
  unfold parentStep at hstep
  unfold PipeAgrees at hpipe
  cases hparent : net.parent with
  | returned outcome => simp [hparent] at hstep
  | beginning generated query =>
      simp only [hparent] at hstep hpipe
      cases hstep
      exact hpipe
  | cleanup outcome =>
      simp only [hparent] at hstep
      cases hstep
      trivial
  | _ =>
      simp only [hparent] at hstep hpipe
      split at hstep <;> grind [PipeAgrees, Idle, InSetup, Net.log, Net.emit]

end Steps

/-- A worker lost while it set up ends the round before any query. -/
theorem Accounted.setupLost {generated : Generated} {event : Event} {note message : String}
    (hjournal : input.journaled = true) (h : Accounted input net)
    (hparent : net.parent = .awaitingSetup generated)
    (hevent : event = .died ∨ event = .timedOut)
    (hnext : next.trace = ((net.emit [event]).log input [.annotate (.note message)]).trace)
    (hkeep : next.results = net.results ∧ next.pulled = net.pulled ∧
      next.objectComparison = net.objectComparison)
    (hcleanup : next.parent = .cleanup (setupCrashOutcome input generated note)) :
    Accounted input next := by
  obtain ⟨hresults, hpull, hready⟩ := hkeep
  have hpulled := h.pulled
  have hstream := h.fromStream
  have hstage := h.stage
  simp only [Stage, hparent] at hstage
  refine h.extend [event, .write (.annotate (.note message))] (by simp [hparent, Decided])
    (by simp [hnext, Net.emit, hjournal]) ?_ ?_ ?_ ?_ ?_ ?_ ?_
  all_goals rcases hevent with rfl | rfl <;>
    simp_all [turnOf, begunInFlight, inFlight, Stage, Turn.next, Active, Decided, journal, begun,
      setupCrashOutcome]

/-- A worker lost with a query in hand leaves that query to blame. -/
theorem Accounted.queryLost {generated : Generated} {query note : String} {event : Event}
    {verdict : String} (hjournal : input.journaled = true) (h : Accounted input net)
    (hparent : net.parent = .awaiting generated query ∨
      net.parent = .sending generated query ∧ event = .died)
    (hevent : event = .died ∨ event = .timedOut)
    (hnext : next.trace = ((net.emit [event]).log input [.verdict verdict]).trace)
    (hkeep : next.results = net.results ∧ next.pulled = net.pulled ∧
      next.objectComparison = net.objectComparison)
    (hcleanup : next.parent =
      .cleanup (queryPhaseOutcome input net generated false (some (query, note)))) :
    Accounted input next := by
  obtain ⟨hresults, hpull, hready⟩ := hkeep
  have hpulled := h.pulled
  have hstream := h.fromStream
  have hstage : net.objectComparison ≠ none := by
    have hstage := h.stage
    rcases hparent with hparent | ⟨hparent, -⟩ <;> simp only [Stage, hparent] at hstage <;>
      exact Option.isSome_iff_ne_none.mp hstage.1
  have hflight : inFlight net.parent = [query] ∧ begunInFlight net.parent = [query] ∧
      ¬ Decided net.parent := by
    rcases hparent with hparent | ⟨hparent, -⟩ <;>
      simp [hparent, inFlight, begunInFlight, Decided]
  refine h.extend [event, .write (.verdict verdict)] hflight.2.2
    (by simp [hnext, Net.emit, hjournal]) ?_ ?_ ?_ ?_ ?_ ?_ ?_
  · rcases hparent with hparent | ⟨hparent, rfl⟩
    · rcases hevent with rfl | rfl <;> simp [hparent, hcleanup, turnOf, Turn.next]
    · simp [hparent, hcleanup, turnOf, Turn.next]
  · simp [Active]
  · simp [hcleanup, Decided]
  · rw [hflight.2.1, hcleanup, hresults]
    rcases hevent with rfl | rfl <;>
      simp [begunInFlight, journal, begun, queryPhaseOutcome]
  · rw [hcleanup, hresults, hpull, hpulled, hflight.1]
    rfl
  · rw [hcleanup, hresults]
    rw [hflight.1] at hstream
    exact hstream
  · simp [hcleanup, Stage, hresults, hready, hstage, queryPhaseOutcome]

theorem endOfFileStep_accounted {note : String} (hjournal : input.journaled = true)
    (h : Accounted input net) (hstep : endOfFileStep input net note = some next) :
    Accounted input next ∧ PipeAgrees next := by
  unfold endOfFileStep at hstep
  split at hstep
  · split at hstep
    · rename_i hparent
      cases hstep
      exact ⟨h.setupLost hjournal hparent (.inl rfl) rfl ⟨rfl, rfl, rfl⟩ rfl, trivial⟩
    · rename_i hparent
      cases hstep
      exact ⟨h.queryLost hjournal (.inr ⟨hparent, rfl⟩) (.inl rfl) rfl ⟨rfl, rfl, rfl⟩ rfl,
        trivial⟩
    · rename_i hparent
      cases hstep
      exact ⟨h.queryLost hjournal (.inl hparent) (.inl rfl) rfl ⟨rfl, rfl, rfl⟩ rfl, trivial⟩
    · cases hstep
  · cases hstep

theorem timeoutStep_accounted {note : String} (hjournal : input.journaled = true)
    (h : Accounted input net) (hstep : timeoutStep input net note = some next) :
    Accounted input next ∧ PipeAgrees next := by
  unfold timeoutStep at hstep
  split at hstep
  · split at hstep
    · rename_i hparent
      cases hstep
      exact ⟨h.setupLost hjournal hparent (.inr rfl) rfl ⟨rfl, rfl, rfl⟩ rfl, trivial⟩
    · rename_i hparent
      cases hstep
      exact ⟨h.queryLost hjournal (.inl hparent) (.inr rfl) rfl ⟨rfl, rfl, rfl⟩ rfl, trivial⟩
    · cases hstep
  · cases hstep

end Parent

/-- What a round promises, whatever the worker did and wherever the round stands. -/
structure Contract {Row Rows : Type} (input : RoundInput Row Rows) (net : Net Row) : Prop where
  begun_isPrefix : PrefixOf (begun (journal net.trace)) input.queries
  orderly : (turnAfter net.trace).isSome
  silent : net.trace.Pairwise fun earlier later => Stops input earlier → ¬ Active later
  answers : net.results.map QueryComparison.query <+: begun (journal net.trace)
  blamed : ∀ outcome, net.parent = .returned outcome →
    outcome.results = net.results ∧ turnAfter net.trace = some .idle ∧
      begun (journal net.trace) =
        outcome.results.map QueryComparison.query ++ outcome.crashedQuery.toList
  unready : net.objectComparison = none → begun (journal net.trace) = [] ∧ net.results = []
  setup_failed : ∀ outcome, net.parent = .returned outcome →
    outcome.setupError.isSome ∨ outcome.setupCrash.isSome → net.objectComparison = none

variable {Row Rows : Type} {input : RoundInput Row Rows} {net : Net Row}

/-- Nothing has happened yet. -/
theorem start_accounted : Accounted input ({} : Net Row) ∧ PipeAgrees ({} : Net Row) := by
  refine ⟨⟨rfl, ?_, rfl, rfl, List.Pairwise.nil, ?_, ⟨rfl, rfl, rfl, rfl⟩⟩, rfl, rfl, rfl⟩
  · intro i hi
    simp [inFlight] at hi
  · simp

theorem Accounted.contract (h : Accounted input net) : Contract input net := by
  have hstage := h.stage
  have hbegun := h.begun_eq
  refine ⟨?_, ?_, h.silent, ?_, ?_, ?_, ?_⟩
  · rw [hbegun]
    exact h.fromStream.of_isPrefix
      ((List.prefix_append_right_inj _).mpr (begunInFlight_isPrefix net.parent))
  · rw [h.turn]
    rfl
  · rw [hbegun]
    exact List.prefix_append _ _
  · intro outcome hparent
    simp only [hparent, Stage, begunInFlight] at hstage hbegun
    refine ⟨hstage.1, ?_, ?_⟩
    · rw [h.turn, hparent]
      rfl
    · rw [hbegun, hstage.1]
  · intro hready
    rw [hbegun]
    cases hparent : net.parent <;> simp_all [Stage, begunInFlight]
  · intro outcome hparent hfailed
    simp only [hparent, Stage] at hstage
    exact hstage.2.1 hfailed

variable [CanonicalRow Row]

/-- Every interleaving keeps the account and the pipe in agreement. -/
theorem reachable_accounted (hjournal : input.journaled = true)
    (h : Reachable (step input) {} net) : Accounted input net ∧ PipeAgrees net := by
  refine h.invariant (fun net => Accounted input net ∧ PipeAgrees net) start_accounted ?_
  rintro net action next ⟨haccounted, hpipe⟩ hstep
  cases action with
  | parent =>
      exact ⟨parentStep_accounted hjournal haccounted hpipe hstep,
        parentStep_pipe hpipe hstep⟩
  | endOfFile note => exact endOfFileStep_accounted hjournal haccounted hstep
  | timeout note => exact timeoutStep_accounted hjournal haccounted hstep
  | worker action =>
      have hmove := workerStep_move hstep
      exact ⟨hmove.accounted haccounted, hmove.pipeAgrees hpipe⟩

/-- The round protocol blames the right query and loses none. -/
theorem runRound_blames (hjournal : input.journaled = true)
    (h : Reachable (step input) {} net) : Contract input net :=
  (reachable_accounted hjournal h).1.contract

/-- A round of three queries under a budget of ten seconds. -/
def threeQueries : RoundInput Unit Unit where
  seed := 7
  exposedNames := ["t"]
  generated := .ok ⟨["CREATE VIEW t AS SELECT * FROM t__base"], []⟩
  queries := Stream'.Seq.ofList ["SELECT 1", "SELECT 2", "SELECT 3"]
  journaled := true
  budget := some 10
  scheduleNote := "schedule: budget=10.0s"
  clock := fun n => n
  queryTimeout := "130"
  setupTimeout := "600"
  compareMultisets := fun _ _ => ⟨true, [], [], 0⟩

/-- The first query is answered, the second kills the worker. -/
def secondKills : List (Round.Action Unit Unit) :=
  [.parent, .worker .builds, .worker (.ready ⟨⟨true, [], [], 0⟩, [], []⟩), .parent, .parent,
    .parent, .parent, .parent, .parent, .worker .receives,
    .worker (.answers ⟨some (), none, none⟩ ⟨some (), none, none⟩), .parent,
    .parent, .parent, .parent, .parent, .worker .receives, .worker .dies,
    .endOfFile "killed by SIGSEGV", .parent]

/-- The second query is blamed, and the third is never touched. -/
theorem runRound_blames_second :
    ∃ net, run (step threeQueries) {} secondKills = some net ∧
      begun (journal net.trace) = ["SELECT 1", "SELECT 2"] ∧
      inFlight net.parent = ["SELECT 2"] ∧ Contract threeQueries net := by
  have hrun : (run (step threeQueries) {} secondKills).any (fun net =>
      begun (journal net.trace) = ["SELECT 1", "SELECT 2"] &&
        inFlight net.parent = ["SELECT 2"]) = true := by decide +kernel
  obtain ⟨net, hnet, hbooks⟩ := (Option.any_eq_true _ _).mp hrun
  simp only [Bool.and_eq_true, decide_eq_true_eq] at hbooks
  exact ⟨net, hnet, hbooks.1, hbooks.2, runRound_blames rfl ⟨secondKills, hnet⟩⟩

end EqGen.Fuzz.RoundProtocol
