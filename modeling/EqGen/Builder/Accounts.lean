import EqGen.Builder.Context

/-!
How the counters of a build account for what was built: the events between two states, the
nodes a builder holds meanwhile, and the rules for the computations builders are made of.
-/

namespace EqGen.Builder.Accounts

open EqGen.Builder.Context
open EqGen.Lib.Backtrack
open EqGen.Lib.Dag
open EqGen.Lib.Dag.Node

/-- The builder and the node of a commit. -/
def committed (event : Event) : Option (String × Nat) :=
  match event.deed with
  | .committed node => some (event.builder, node)
  | _ => none

def commits (events : List Event) : List (String × Nat) :=
  events.filterMap committed

/-- How many nodes an event took back. -/
def takenBack (event : Event) : Nat :=
  match event.deed with
  | .left undone => undone
  | _ => 0

def undone (events : List Event) : Nat :=
  (events.map takenBack).sum

@[simp]
theorem commits_nil : commits [] = [] := rfl

@[simp]
theorem commits_append (events events' : List Event) :
    commits (events ++ events') = commits events ++ commits events' :=
  List.filterMap_append

@[simp]
theorem undone_nil : undone [] = 0 := rfl

@[simp]
theorem undone_append (events events' : List Event) :
    undone (events ++ events') = undone events + undone events' := by
  simp [undone]

variable {allowed : Event → Prop} {s s' s'' : BuildState} {events events' : List Event}

/-- What the events between two states say about the counters. -/
structure Accounted (allowed : Event → Prop) (s s' : BuildState) (events : List Event) :
    Prop where
  trace : s'.trace = s.trace ++ events
  attempted : s'.nodesAttempted = s.nodesAttempted + (commits events).length
  balance : s.nodeCount + (commits events).length = s'.nodeCount + undone events
  chosen : s'.chosen = s.chosen + ↑((commits events).map Prod.fst)
  lawful : ∀ event ∈ events, allowed event
  between : ∀ event ∈ events, s.nodesAttempted ≤ event.counters.nodesAttempted ∧
    event.counters.nodesAttempted ≤ s'.nodesAttempted
  rising : events.Pairwise fun event later =>
    event.counters.nodesAttempted ≤ later.counters.nodesAttempted

/-- A step that neither counts nor makes nodes. -/
structure Quiet (s s' : BuildState) : Prop where
  trace : s'.trace = s.trace
  counters : s'.toCounters = s.toCounters
  chosen : s'.chosen = s.chosen
  created : s'.created = s.created

theorem Quiet.refl (s : BuildState) : Quiet s s :=
  ⟨rfl, rfl, rfl, rfl⟩

theorem Quiet.trans (h : Quiet s s') (h' : Quiet s' s'') : Quiet s s'' where
  trace := h'.trace.trans h.trace
  counters := h'.counters.trans h.counters
  chosen := h'.chosen.trans h.chosen
  created := h'.created.trans h.created

namespace Accounted

theorem quiet (htrace : s'.trace = s.trace) (hcounters : s'.toCounters = s.toCounters)
    (hchosen : s'.chosen = s.chosen) : Accounted allowed s s' [] := by
  constructor <;> simp [htrace, hcounters, hchosen]

/-- A step with one event. -/
theorem single {event : Event} (htrace : s'.trace = s.trace ++ [event])
    (hcounters : event.counters = s'.toCounters) (hlawful : allowed event)
    (hattempted : s'.nodesAttempted = s.nodesAttempted + (commits [event]).length)
    (hbalance : s.nodeCount + (commits [event]).length = s'.nodeCount + undone [event])
    (hchosen : s'.chosen = s.chosen + ↑((commits [event]).map Prod.fst)) :
    Accounted allowed s s' [event] where
  trace := htrace
  attempted := hattempted
  balance := hbalance
  chosen := hchosen
  lawful := by
    intro event' hevent
    rw [List.mem_singleton.mp hevent]
    exact hlawful
  between := by
    intro event' hevent
    rw [List.mem_singleton.mp hevent, hcounters]
    omega
  rising := List.pairwise_singleton _ _

theorem attempted_le (h : Accounted allowed s s' events) :
    s.nodesAttempted ≤ s'.nodesAttempted := by
  have hattempted := h.attempted
  omega

theorem trans (h : Accounted allowed s s' events) (h' : Accounted allowed s' s'' events') :
    Accounted allowed s s'' (events ++ events') where
  trace := by rw [h'.trace, h.trace, List.append_assoc]
  attempted := by
    rw [h'.attempted, h.attempted, commits_append, List.length_append, Nat.add_assoc]
  balance := by
    have hbalance := h.balance
    have hbalance' := h'.balance
    rw [commits_append, List.length_append, undone_append]
    omega
  chosen := by
    rw [h'.chosen, h.chosen, commits_append, List.map_append, ← Multiset.coe_add,
      Multiset.add_assoc]
  lawful := by
    intro event hevent
    rcases List.mem_append.mp hevent with hevent | hevent
    · exact h.lawful event hevent
    · exact h'.lawful event hevent
  between := by
    intro event hevent
    rcases List.mem_append.mp hevent with hevent | hevent
    · exact ⟨(h.between event hevent).1, (h.between event hevent).2.trans h'.attempted_le⟩
    · exact ⟨h.attempted_le.trans (h'.between event hevent).1, (h'.between event hevent).2⟩
  rising := by
    rw [List.pairwise_append]
    refine ⟨h.rising, h'.rising, ?_⟩
    intro event hevent later hlater
    exact (h.between event hevent).2.trans (h'.between later hlater).1

/-- The nodes counted are never more than the nodes attempted. -/
theorem count_le (h : Accounted allowed s s' events) (hcount : s.nodeCount ≤ s.nodesAttempted) :
    s'.nodeCount ≤ s'.nodesAttempted := by
  have hattempted := h.attempted
  have hbalance := h.balance
  omega

end Accounted

/--
The events of builders that ran one after the other, each with those of its requests between its
own: who ends is back at its depth, and who ends without a commit at its count of nodes too.
-/
inductive Nested : Counters → List Event → Counters → Prop where
  | none (c : Counters) : Nested c [] c
  | returned {builder : String} {leaf : Bool} {node : Nat} {c inside inside' after c' c'' : Counters}
      {inner rest : List Event}
      (entered : inside.depth = c.depth + 1 ∧ inside.nodeCount = c.nodeCount)
      (below : Nested inside inner inside')
      (counted : after.depth = inside.depth ∧ after.nodeCount = inside'.nodeCount + 1)
      (ended : c'.depth = c.depth ∧ c'.nodeCount = after.nodeCount)
      (next : Nested c' rest c'') :
      Nested c (⟨builder, .entered leaf, inside⟩ :: (inner ++
        ⟨builder, .committed node, after⟩ :: ⟨builder, .left 0, c'⟩ :: rest)) c''
  | failed {builder : String} {leaf : Bool} {c inside inside' c' c'' : Counters}
      {inner rest : List Event}
      (entered : inside.depth = c.depth + 1 ∧ inside.nodeCount = c.nodeCount)
      (below : Nested inside inner inside')
      (ended : c'.depth = c.depth ∧ c'.nodeCount = c.nodeCount)
      (next : Nested c' rest c'') :
      Nested c (⟨builder, .entered leaf, inside⟩ :: (inner ++
        ⟨builder, .left (inside'.nodeCount - c.nodeCount), c'⟩ :: rest)) c''

theorem Nested.append {c c' c'' : Counters} {events events' : List Event}
    (h : Nested c events c') (h' : Nested c' events' c'') : Nested c (events ++ events') c'' := by
  induction h with
  | none c => exact h'
  | returned entered below counted ended _ _ ih =>
      simp only [List.cons_append, List.append_assoc]
      exact .returned entered below counted ended (ih h')
  | failed entered below ended _ _ ih =>
      simp only [List.cons_append, List.append_assoc]
      exact .failed entered below ended (ih h')

/--
Events between two states at one depth: they take back no more nodes than they counted, and
they count nodes made between the states.
-/
structure Progress (allowed : Event → Prop) (s s' : BuildState) (events : List Event) : Prop
    extends Accounted allowed s s' events where
  depth : s'.depth = s.depth
  nested : Nested s.toCounters events s'.toCounters
  grows : s.nodeCount ≤ s'.nodeCount
  created : s.created ≤ s'.created
  fresh : ∀ commit ∈ commits events, s.created ≤ commit.2 ∧ commit.2 < s'.created

theorem Progress.still (htrace : s'.trace = s.trace) (hcounters : s'.toCounters = s.toCounters)
    (hchosen : s'.chosen = s.chosen) (hcreated : s.created ≤ s'.created) :
    Progress allowed s s' [] where
  toAccounted := .quiet htrace hcounters hchosen
  depth := congrArg Counters.depth hcounters
  nested := by
    rw [hcounters]
    exact .none _
  grows := (congrArg Counters.nodeCount hcounters).ge
  created := hcreated
  fresh := fun _ h => nomatch h

theorem Progress.quiet (h : Quiet s s') : Progress allowed s s' [] :=
  .still h.trace h.counters h.chosen h.created.ge

theorem Progress.refl (allowed : Event → Prop) (s : BuildState) : Progress allowed s s [] :=
  .quiet (.refl s)

theorem Progress.trans (h : Progress allowed s s' events) (h' : Progress allowed s' s'' events') :
    Progress allowed s s'' (events ++ events') where
  toAccounted := h.toAccounted.trans h'.toAccounted
  depth := h'.depth.trans h.depth
  nested := h.nested.append h'.nested
  grows := h.grows.trans h'.grows
  created := h.created.trans h'.created
  fresh := by
    intro commit hcommit
    rw [commits_append, List.mem_append] at hcommit
    rcases hcommit with hcommit | hcommit
    · exact ⟨(h.fresh commit hcommit).1, (h.fresh commit hcommit).2.trans_le h'.created⟩
    · exact ⟨h.created.trans (h'.fresh commit hcommit).1, (h'.fresh commit hcommit).2⟩

section Held

variable {α : Type} {held out out' : List (Node α)}

/-- Where a builder may start: at its depth, with the nodes it holds made before. -/
structure Ready (depth : Nat) (held : List (Node α)) (s : BuildState) : Prop where
  depth : s.depth = depth
  count_le : s.nodeCount ≤ s.nodesAttempted
  made : ∀ i ∈ occurs held, i < s.created

/-- The commits whose nodes occur in the trees of some nodes. -/
def producers (nodes : List (Node α)) (events : List Event) : List (String × Nat) :=
  (commits events).filter fun commit => commit.2 ∈ occurs nodes

theorem producers_append (nodes : List (Node α)) (events events' : List Event) :
    producers nodes (events ++ events') = producers nodes events ++ producers nodes events' := by
  rw [producers, commits_append, List.filter_append]
  rfl

/--
What a computation that was given some nodes returns: trees of these and of new nodes, none of
the given ones dropped, and with the commits that made the new ones counted.
-/
structure Kept (held out : List (Node α)) (s s' : BuildState) (events : List Event) : Prop where
  origin : ∀ i ∈ occurs out, i ∈ occurs held ∨ s.created ≤ i ∧ i < s'.created
  keeps : occurs held ⊆ occurs out
  counted : s'.nodeCount = s.nodeCount + (producers out events).length

theorem Ready.of_progress {depth : Nat} (h : Ready depth held s)
    (hprogress : Progress allowed s s' events) : Ready depth held s' where
  depth := hprogress.depth.trans h.depth
  count_le := hprogress.count_le h.count_le
  made := fun i hi => (h.made i hi).trans_le hprogress.created

theorem Ready.trans {depth : Nat} (h : Ready depth held s) (hprogress : Progress allowed s s' events)
    (hkept : Kept held out s s' events) : Ready depth out s' where
  depth := hprogress.depth.trans h.depth
  count_le := hprogress.count_le h.count_le
  made := by
    intro i hi
    rcases hkept.origin i hi with hi | hi
    · exact (h.made i hi).trans_le hprogress.created
    · exact hi.2

/-- Nodes made later do not change which commits made the earlier ones. -/
theorem Kept.producers_eq (hprogress : Progress allowed s s' events)
    (h' : Kept out out' s' s'' events') : producers out' events = producers out events := by
  apply List.filter_congr
  intro commit hcommit
  have hfresh := (hprogress.fresh commit hcommit).2
  rw [decide_eq_decide]
  constructor
  · intro hin
    rcases h'.origin _ hin with hold | hnew
    · exact hold
    · exact absurd hnew.1 (Nat.not_le.mpr hfresh)
  · exact fun hin => h'.keeps hin

theorem Kept.trans (hprogress : Progress allowed s s' events) (h : Kept held out s s' events)
    (hprogress' : Progress allowed s' s'' events') (h' : Kept out out' s' s'' events') :
    Kept held out' s s'' (events ++ events') where
  origin := by
    intro i hi
    rcases h'.origin i hi with hi | hi
    · rcases h.origin i hi with hi | hi
      · exact Or.inl hi
      · exact Or.inr ⟨hi.1, hi.2.trans_le hprogress'.created⟩
    · exact Or.inr ⟨hprogress.created.trans hi.1, hi.2⟩
  keeps := List.Subset.trans h.keeps h'.keeps
  counted := by
    have hproducers := Kept.producers_eq hprogress h'
    rw [h'.counted, h.counted, producers_append, List.length_append, hproducers, Nat.add_assoc]

/-- What is not held at the end was made by nobody who is counted. -/
theorem Kept.forget (hprogress : Progress allowed s s' events) (hmade : ∀ i ∈ occurs held, i < s.created)
    (hcount : s'.nodeCount = s.nodeCount) : Kept held held s s' events where
  origin := fun _ hi => Or.inl hi
  keeps := List.Subset.refl _
  counted := by
    have hnone : producers held events = [] := by
      rw [producers, List.filter_eq_nil_iff]
      intro commit hcommit hin
      have hold := hmade _ (of_decide_eq_true hin)
      exact absurd (hprogress.fresh commit hcommit).1 (Nat.not_le.mpr hold)
    rw [hcount, hnone, List.length_nil, Nat.add_zero]

end Held

end EqGen.Builder.Accounts
