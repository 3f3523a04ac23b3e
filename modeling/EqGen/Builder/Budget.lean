import EqGen.Builder.Factory

/-! Every request keeps the accounts and the limits of the settings. -/

namespace EqGen.Builder.Budget

open EqGen.Builder.Context
open EqGen.Builder.Accounts
open EqGen.Builder.Discipline
open EqGen.Builder.Factory
open EqGen.Lib.Backtrack
open EqGen.Lib.Backtrack.Attempt
open EqGen.Lib.Dag
open EqGen.Lib.Dag.Node

/-- What the settings say about a change of the counters. -/
structure Lawful (settings : BuilderSettings) (event : Event) : Prop where
  depth_le : event.counters.depth ≤ settings.maxDepth
  count_le : event.counters.nodeCount ≤ event.counters.nodesAttempted
  leaf : ∀ leaf, event.deed = .entered leaf → 0 < settings.maxNodes →
    settings.maxNodes ≤ event.counters.nodeCount → leaf = true

/-- Whether the settings let a builder run. -/
structure MayEnter (settings : BuilderSettings) (leaf : Bool) (counters : Counters) : Prop where
  depth_lt : counters.depth < settings.maxDepth
  leaf : 0 < settings.maxNodes → settings.maxNodes ≤ counters.nodeCount → leaf = true

section Enter

variable {settings : BuilderSettings} {builder : String} {leaf : Bool} {s s' : BuildState}
variable {events : List Event}

theorem Lawful.of_deed {event : Event} (hdeed : ∀ leaf, event.deed ≠ .entered leaf)
    (hdepth : event.counters.depth ≤ settings.maxDepth)
    (hcount : event.counters.nodeCount ≤ event.counters.nodesAttempted) :
    Lawful settings event :=
  ⟨hdepth, hcount, fun leaf h => absurd h (hdeed leaf)⟩

theorem accounted_enter (hmay : MayEnter settings leaf s.toCounters)
    (hcount : s.nodeCount ≤ s.nodesAttempted) :
    Accounted (Lawful settings) s (s.enter builder leaf)
      [⟨builder, .entered leaf, (s.enter builder leaf).toCounters⟩] := by
  apply Accounted.single
  · rfl
  · rfl
  · refine ⟨hmay.depth_lt, hcount, ?_⟩
    intro leaf' hdeed
    rw [← Deed.entered.inj hdeed]
    exact hmay.leaf
  · rfl
  · rfl
  · exact (Multiset.add_zero _).symm

theorem accounted_commit {node : Nat} (hdepth : s.depth ≤ settings.maxDepth)
    (hcount : s.nodeCount ≤ s.nodesAttempted) :
    Accounted (Lawful settings) s (s.commit builder node)
      [⟨builder, .committed node, (s.commit builder node).toCounters⟩] := by
  apply Accounted.single
  · rfl
  · rfl
  · exact .of_deed (by intro leaf; simp) hdepth (Nat.succ_le_succ hcount)
  · rfl
  · rfl
  · show builder ::ₘ s.chosen = s.chosen + ↑[builder]
    rw [Multiset.coe_singleton, Multiset.add_comm, Multiset.singleton_add]

theorem accounted_leave (hdepth : s.depth ≤ settings.maxDepth)
    (hcount : s.nodeCount ≤ s.nodesAttempted) :
    Accounted (Lawful settings) s (s.leave builder)
      [⟨builder, .left 0, (s.leave builder).toCounters⟩] := by
  apply Accounted.single
  · rfl
  · rfl
  · exact .of_deed (by intro leaf; simp) ((Nat.sub_le _ _).trans hdepth) hcount
  · rfl
  · rfl
  · exact (Multiset.add_zero _).symm

theorem accounted_abandon {saved : Nat} (hdepth : s.depth ≤ settings.maxDepth)
    (hcount : s.nodeCount ≤ s.nodesAttempted) (hsaved : saved ≤ s.nodeCount) :
    Accounted (Lawful settings) s (s.abandon builder saved)
      [⟨builder, .left (s.nodeCount - saved), (s.abandon builder saved).toCounters⟩] := by
  apply Accounted.single
  · rfl
  · rfl
  · exact .of_deed (by intro leaf; simp) ((Nat.sub_le _ _).trans hdepth) (hsaved.trans hcount)
  · rfl
  · show s.nodeCount + 0 = saved + (s.nodeCount - saved + 0)
    omega
  · exact (Multiset.add_zero _).symm

/-- The events of a builder that returned a node. -/
def returning (builder : String) (leaf : Bool) (node : Nat) (s s' : BuildState)
    (events : List Event) : List Event :=
  [⟨builder, .entered leaf, (s.enter builder leaf).toCounters⟩] ++ (events ++
    ([⟨builder, .committed node, (s'.commit builder node).toCounters⟩] ++
      [⟨builder, .left 0, ((s'.commit builder node).leave builder).toCounters⟩]))

/-- The events of a builder that returned none. -/
def failing (builder : String) (leaf : Bool) (s s' : BuildState) (events : List Event) :
    List Event :=
  [⟨builder, .entered leaf, (s.enter builder leaf).toCounters⟩] ++ (events ++
    [⟨builder, .left (s'.nodeCount - s.nodeCount), (s'.abandon builder s.nodeCount).toCounters⟩])

theorem commits_returning (node : Nat) :
    commits (returning builder leaf node s s' events) = commits events ++ [(builder, node)] := by
  simp only [returning, commits_append]
  rfl

theorem commits_failing : commits (failing builder leaf s s' events) = commits events := by
  simp only [failing, commits_append]
  exact List.append_nil _

theorem inner_depth (hmay : MayEnter settings leaf s.toCounters)
    (h : Progress (Lawful settings) (s.enter builder leaf) s' events) :
    s'.depth ≤ settings.maxDepth := by
  have hdepth : s'.depth = s.depth + 1 := h.depth
  rw [hdepth]
  exact hmay.depth_lt

theorem inner_count_le (hcount : s.nodeCount ≤ s.nodesAttempted)
    (h : Progress (Lawful settings) (s.enter builder leaf) s' events) :
    s'.nodeCount ≤ s'.nodesAttempted :=
  h.count_le hcount

theorem progress_returning {node : Nat} (hmay : MayEnter settings leaf s.toCounters)
    (hcount : s.nodeCount ≤ s.nodesAttempted)
    (h : Progress (Lawful settings) (s.enter builder leaf) s' events)
    (hnode : s.created ≤ node ∧ node < s'.created) :
    Progress (Lawful settings) s ((s'.commit builder node).leave builder)
      (returning builder leaf node s s' events) where
  toAccounted := by
    have hdepth := inner_depth hmay h
    have hcount' := inner_count_le hcount h
    have hcommit : Accounted (Lawful settings) s' (s'.commit builder node) _ :=
      accounted_commit hdepth hcount'
    have hleave : Accounted (Lawful settings) (s'.commit builder node)
        ((s'.commit builder node).leave builder) _ :=
      accounted_leave hdepth (Nat.succ_le_succ hcount')
    exact (accounted_enter hmay hcount).trans (h.toAccounted.trans (hcommit.trans hleave))
  depth := Nat.sub_eq_of_eq_add h.depth
  nested := by
    have hdepth : s'.depth - 1 = s.depth := Nat.sub_eq_of_eq_add h.depth
    exact .returned ⟨rfl, rfl⟩ h.nested ⟨h.depth, rfl⟩ ⟨hdepth, rfl⟩ (.none _)
  grows := h.grows.trans (Nat.le_succ _)
  created := h.created
  fresh := by
    rw [commits_returning]
    intro commit hcommit
    rcases List.mem_append.mp hcommit with hcommit | hcommit
    · exact h.fresh commit hcommit
    · rw [List.mem_singleton.mp hcommit]
      exact hnode

theorem progress_failing (hmay : MayEnter settings leaf s.toCounters)
    (hcount : s.nodeCount ≤ s.nodesAttempted)
    (h : Progress (Lawful settings) (s.enter builder leaf) s' events) :
    Progress (Lawful settings) s (s'.abandon builder s.nodeCount)
      (failing builder leaf s s' events) where
  toAccounted := by
    have habandon : Accounted (Lawful settings) s' (s'.abandon builder s.nodeCount) _ :=
      accounted_abandon (inner_depth hmay h) (inner_count_le hcount h) h.grows
    exact (accounted_enter hmay hcount).trans (h.toAccounted.trans habandon)
  depth := Nat.sub_eq_of_eq_add h.depth
  nested := by
    have hdepth : s'.depth - 1 = s.depth := Nat.sub_eq_of_eq_add h.depth
    exact .failed ⟨rfl, rfl⟩ h.nested ⟨hdepth, rfl⟩ (.none _)
  grows := le_rfl
  created := h.created
  fresh := by
    rw [commits_failing]
    exact h.fresh

/-- A builder that returns a node is counted with those whose nodes the tree holds. -/
theorem kept_returning {α : Type} {node : Node α}
    (hkept : Kept [] [node] (s.enter builder leaf) s' events) :
    Kept [] [node] s ((s'.commit builder node.id).leave builder)
      (returning builder leaf node.id s s' events) where
  origin := hkept.origin
  keeps := hkept.keeps
  counted := by
    have hcounted : s'.nodeCount = s.nodeCount + (producers [node] events).length := hkept.counted
    have hown : node.id ∈ occurs [node] := mem_occurs_cons.mpr (Or.inl node.id_mem_ids)
    have hproducers : producers [node] (returning builder leaf node.id s s' events) =
        producers [node] events ++ [(builder, node.id)] := by
      rw [producers, commits_returning, List.filter_append]
      congr 1
      exact List.filter_cons_of_pos (decide_eq_true hown)
    show s'.nodeCount + 1 = _
    rw [hproducers, hcounted, List.length_append, Nat.add_assoc]
    rfl

end Enter

/-- What was in hand before stays there. -/
theorem Kept.cons {α : Type} {allowed : Event → Prop} {s s' : BuildState} {events : List Event}
    {node : Node α} {held : List (Node α)} (hprogress : Progress allowed s s' events)
    (hkept : Kept [] [node] s s' events) (hmade : ∀ i ∈ occurs held, i < s.created) :
    Kept held (node :: held) s s' events where
  origin := by
    intro i hi
    rcases mem_occurs_cons.mp hi with hi | hi
    · rcases hkept.origin i (mem_occurs_cons.mpr (Or.inl hi)) with hnone | hnew
      · exact absurd hnone (by simp)
      · exact Or.inr hnew
    · exact Or.inl hi
  keeps := fun _ hi => mem_occurs_cons.mpr (Or.inr hi)
  counted := by
    rw [hkept.counted]
    congr 2
    apply List.filter_congr
    intro commit hcommit
    have hfresh := (hprogress.fresh commit hcommit).1
    have hnot : commit.2 ∉ occurs held := fun hi => absurd (hmade _ hi) (Nat.not_lt.mpr hfresh)
    simp only [mem_occurs_cons, hnot, occurs_nil, List.not_mem_nil]

section Run

variable {σ α C R K S : Type} [HasBuildState σ]
variable {settings : BuilderSettings} {depth : Nat} {held : List (Node α)} {s : σ}

/-- Whatever a builder does, entering it keeps the accounts. -/
theorem asksFrom_enterBuilder {builder : String} {leaf : Bool} {body : Build σ (Node α)}
    (hbody : Builds (Lawful settings) (depth + 1) [] body fun node => [node])
    (hready : Ready depth held (buildState s))
    (hmay : MayEnter settings leaf (buildState s).toCounters) :
    AsksFrom (Lawful settings) held (enterBuilder builder leaf body) s := by
  have hinner : Ready (depth + 1) ([] : List (Node α))
      (buildState (modifyBuild (BuildState.enter builder leaf) s)) := by
    rw [buildState_modifyBuild]
    refine ⟨congrArg Nat.succ hready.depth, hready.count_le, ?_⟩
    simp
  have hspec := hbody _ hinner
  unfold AsksFrom
  unfold Spec at hspec ⊢
  unfold enterBuilder
  cases hrun : body (modifyBuild (BuildState.enter builder leaf) s) with
  | done node s' =>
      simp only [hrun] at hspec ⊢
      obtain ⟨events, hprogress, hkept⟩ := hspec
      rw [buildState_modifyBuild] at hprogress hkept
      have hnode : (buildState s).created ≤ node.id ∧ node.id < (buildState s').created := by
        rcases hkept.origin node.id (mem_occurs_cons.mpr (Or.inl node.id_mem_ids)) with h | h
        · exact absurd h (by simp)
        · exact h
      have hprogress' := progress_returning hmay hready.count_le hprogress hnode
      have hkept' := kept_returning hkept
      refine ⟨returning builder leaf node.id (buildState s) (buildState s') events, ?_, ?_⟩
      · simpa only [buildState_modifyBuild, Function.comp_apply] using hprogress'
      · simpa only [buildState_modifyBuild, Function.comp_apply] using
          Kept.cons hprogress' hkept' hready.made
  | declined s' =>
      simp only [hrun] at hspec ⊢
      obtain ⟨events, hprogress⟩ := hspec
      rw [buildState_modifyBuild] at hprogress
      have hprogress' := progress_failing hmay hready.count_le hprogress
      refine ⟨⟨failing builder leaf (buildState s) (buildState s') events, ?_⟩, ?_⟩
      · simpa only [buildState_modifyBuild] using hprogress'
      · rw [buildState_modifyBuild]
        rfl
  | raised e s' =>
      simp only [hrun] at hspec ⊢
      obtain ⟨he, events, hprogress⟩ := hspec
      rw [buildState_modifyBuild] at hprogress
      have hprogress' := progress_failing hmay hready.count_le hprogress
      refine ⟨he, failing builder leaf (buildState s) (buildState s') events, ?_⟩
      simpa only [buildState_modifyBuild] using hprogress'

theorem spec_checkDeadline (late : Nat → Bool) (s : σ) {N : σ → Prop} :
    (checkDeadline late).Spec s (fun _ s' => Quiet (buildState s) (buildState s')) N
      fun e s' => e ≠ .outOfFuel ∧ Quiet (buildState s) (buildState s') := by
  have hquiet : Quiet (buildState s)
      (buildState (setBuildState
        { buildState s with checked := (buildState s).checked + 1 } s)) := by
    rw [HasBuildState.buildState_setBuildState]
    exact ⟨rfl, rfl, rfl, rfl⟩
  by_cases hlate : late (buildState s).checked = true
  · simp only [Spec, checkDeadline, hlate, if_true]
    exact ⟨by simp, hquiet⟩
  · simp only [Spec, checkDeadline, hlate]
    exact hquiet

variable (factory : WeightedBuilderFactory σ α C R K S)

theorem spec_drawKeys (n : Nat) (s : σ) {N : σ → Prop} {E : GenerationError → σ → Prop} :
    (factory.drawKeys n).Spec s (fun _ s' => Quiet (buildState s) (buildState s')) N E := by
  induction n generalizing s with
  | zero => exact Quiet.refl _
  | succ n ih =>
      rw [WeightedBuilderFactory.drawKeys, spec_bind]
      have hdraw : Quiet (buildState s)
          (buildState (setBuildState
            { buildState s with drawn := (buildState s).drawn + 1 } s)) := by
        rw [HasBuildState.buildState_setBuildState]
        exact ⟨rfl, rfl, rfl, rfl⟩
      show Spec (_ >>= _) _ _ _ _
      rw [spec_bind]
      apply (ih _).mono
      · intro keys s' hquiet
        exact hdraw.trans hquiet
      · exact fun _ h => h
      · exact fun _ _ h => h

/-- The shuffle only reorders and drops builders. -/
theorem spec_weightedShuffle (builders : List (NodeBuilder σ α C R K S)) (s : σ)
    {N : σ → Prop} {E : GenerationError → σ → Prop} :
    (factory.weightedShuffle depth builders).Spec s
      (fun ordered s' => ordered ⊆ builders ∧ Quiet (buildState s) (buildState s')) N E := by
  unfold WeightedBuilderFactory.weightedShuffle
  rw [spec_bind]
  apply (spec_drawKeys factory _ s).mono
  · intro keys s' hquiet
    refine ⟨?_, hquiet⟩
    intro b hb
    obtain ⟨pair, hpair, rfl⟩ := List.mem_map.mp hb
    have hzip := (List.mem_insertionSort _).mp hpair
    exact (List.mem_filter.mp (List.of_mem_zip hzip).2).1
  · exact fun _ h => h
  · exact fun _ _ h => h

theorem builds_runBuilder {recurse : R → S → Build σ (Node α)} {allowed : Event → Prop}
    (hrecurse : ∀ requested constraints, Asks allowed depth (recurse requested constraints))
    (constraints : S) (b : NodeBuilder σ α C R K S) :
    Builds allowed depth [] (factory.runBuilder recurse constraints b) fun node => [node] := by
  unfold WeightedBuilderFactory.runBuilder
  apply Builds.bind (b.disciplined hrecurse constraints)
  intro node
  apply Builds.silently (.require _ (by simp))
  intro _ _
  apply Builds.silently (.require _ (by simp))
  intro _ _
  exact Builds.pure node (List.Subset.refl _) (List.Subset.refl _)

variable [DecidableEq K]

/-- The builders the filter lets through may enter, and support the request. -/
theorem mem_filterBuilders {requested : R} {constraints : S} {counters : Counters}
    {eligible : List (NodeBuilder σ α C R K S)} {b : NodeBuilder σ α C R K S}
    (h : factory.filterBuilders requested constraints counters = some eligible)
    (hb : b ∈ eligible) :
    b ∈ factory.builders ∧ MayEnter factory.settings b.isLeaf counters ∧
      factory.supports requested constraints (factory.leafOnly counters) b = true := by
  unfold WeightedBuilderFactory.filterBuilders at h
  split at h
  · simp at h
  · next hdepth =>
    simp only at h
    split at h
    · simp at h
    · rw [Option.some.injEq] at h
      rw [← h, List.mem_filter] at hb
      refine ⟨hb.1, ⟨Nat.lt_of_not_le hdepth, ?_⟩, hb.2⟩
      intro hmax hreached
      have hsupports := hb.2
      simp only [WeightedBuilderFactory.supports, Bool.and_eq_true, Bool.or_eq_true,
        Bool.not_eq_true'] at hsupports
      rcases hsupports.2 with hleaf | hleaf
      · simp [WeightedBuilderFactory.leafOnly, hmax, hreached] at hleaf
      · exact hleaf

theorem MayEnter.congr {settings : BuilderSettings} {leaf : Bool} {counters counters' : Counters}
    (h : MayEnter settings leaf counters) (hdepth : counters'.depth = counters.depth)
    (hcount : counters'.nodeCount = counters.nodeCount) : MayEnter settings leaf counters' where
  depth_lt := by
    rw [hdepth]
    exact h.depth_lt
  leaf := by
    rw [hcount]
    exact h.leaf

theorem asksFrom_dispatch {recurse : R → S → Build σ (Node α)}
    (hrecurse : depth < factory.settings.maxDepth → ∀ requested constraints,
      Asks (Lawful factory.settings) (depth + 1) (recurse requested constraints))
    (requested : R) (constraints : S) (hready : Ready depth held (buildState s)) :
    AsksFrom (Lawful factory.settings) held
      (factory.dispatch recurse requested constraints) s := by
  unfold WeightedBuilderFactory.dispatch
  apply AsksFrom.bind (P := fun counters => counters = (buildState s).toCounters) hready
  · exact ⟨rfl, Quiet.refl _⟩
  rintro _ s₁ rfl hquiet₁ hready₁
  apply AsksFrom.bind (P := fun eligible => factory.filterBuilders requested constraints
    (buildState s).toCounters = some eligible) hready₁
  · rw [spec_fromOption]
    exact ⟨fun eligible h => ⟨h, Quiet.refl _⟩, fun _ => Quiet.refl _⟩
  intro eligible s₂ heligible hquiet₂ hready₂
  apply AsksFrom.bind (P := fun ordered => ordered ⊆ eligible) hready₂
  · exact spec_weightedShuffle factory eligible s₂
  intro ordered s₃ hordered hquiet₃ hready₃
  have hquiet := (hquiet₁.trans hquiet₂).trans hquiet₃
  apply AsksFrom.firstOf hready₃
  intro m hm s₄ hready₄ hcount₄
  obtain ⟨b, hb, rfl⟩ := List.mem_map.mp hm
  have hmay := (mem_filterBuilders factory heligible (hordered hb)).2.1
  have hlt : depth < factory.settings.maxDepth := hready.depth ▸ hmay.depth_lt
  apply asksFrom_enterBuilder
  · exact builds_runBuilder factory (hrecurse hlt) constraints b
  · exact hready₄
  · apply hmay.congr
    · exact hready₄.depth.trans hready.depth.symm
    · exact hcount₄.trans (congrArg Counters.nodeCount hquiet.counters)

/-- A request keeps the accounts if those of the builders below it do. -/
theorem asks_subtreeWith {recurse : R → S → Build σ (Node α)}
    (hrecurse : depth < factory.settings.maxDepth → ∀ requested constraints,
      Asks (Lawful factory.settings) (depth + 1) (recurse requested constraints))
    (requested : R) (constraints : S) :
    Asks (Lawful factory.settings) depth
      (factory.subtreeWith recurse requested constraints) := by
  intro held s hready
  unfold WeightedBuilderFactory.subtreeWith
  apply AsksFrom.bind (P := fun _ => True) hready
  · apply (spec_checkDeadline factory.late s).mono
    · exact fun _ _ hquiet => ⟨trivial, hquiet⟩
    · exact fun _ h => h
    · exact fun _ _ h => h
  · intro _ s' _ _ hready'
    apply AsksFrom.require (by simp)
    exact asksFrom_dispatch factory hrecurse requested constraints hready'

/-- Fuel for the depth that is left is enough, and every request keeps the accounts. -/
theorem asks_buildSubtree {fuel : Nat} (hfuel : factory.settings.maxDepth ≤ depth + fuel)
    (requested : R) (constraints : S) :
    Asks (Lawful factory.settings) depth
      (factory.buildSubtree fuel requested constraints) := by
  induction fuel generalizing depth requested constraints with
  | zero =>
      apply asks_subtreeWith
      intro hlt
      omega
  | succ fuel ih =>
      apply asks_subtreeWith
      intro _ requested' constraints'
      apply ih
      omega

end Run

end EqGen.Builder.Budget
