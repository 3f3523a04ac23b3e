import EqGen.Builder.Budget
import EqGen.Lib.Ascent

/-!
A promise about the nodes that builders return, for the constraints they were asked under: if every
builder keeps it as long as the factory does, the factory keeps it.
-/

namespace EqGen.Builder.Promises

open EqGen.Builder.Budget
open EqGen.Builder.Context
open EqGen.Builder.Factory
open EqGen.Lib.Ascent
open EqGen.Lib.Backtrack
open EqGen.Lib.Dag

/-- The order does not see the state of a build. -/
class BuildUnseen (σ : Type) [HasBuildState σ] [Preorder σ] : Prop where
  le_set : ∀ (b : BuildState) (s : σ), s ≤ setBuildState b s
  set_le : ∀ (b : BuildState) (s : σ), setBuildState b s ≤ s

export BuildUnseen (le_set set_le)

/--
What the builders of a class promise of a node: it answers the constraints, and was built between
two states. Some sets of constraints are never asked for.
-/
structure Promise (σ α C S : Type) [Preorder σ] where
  proper : S → Prop
  kept : C → S → σ → Node α → σ → Prop
  widen : ∀ {c constraints s₀ s node s' s₁}, s₀ ≤ s → s' ≤ s₁ → kept c constraints s node s' →
    kept c constraints s₀ node s₁

variable {σ α C R K S : Type} [HasBuildState σ] [Preorder σ]

section Steps

variable {s : σ}

theorem leads_readCounters : Leads s (readCounters : Build σ Counters) fun _ _ => True :=
  Leads.step rfl (le_refl s) trivial

variable [BuildUnseen σ]

theorem leads_checkDeadline (late : Nat → Bool) :
    Leads s (checkDeadline late : Build σ Unit) fun _ _ => True := by
  by_cases hlate : late (buildState s).checked = true
  · simp only [Leads, Attempt.Spec, checkDeadline, hlate, if_true]
  · simp only [Leads, Attempt.Spec, checkDeadline, hlate]
    exact ⟨le_set _ s, trivial⟩

theorem leads_drawNumber (draws : Nat → Nat) :
    Leads s (drawNumber draws : Build σ Nat) fun _ _ => True :=
  Leads.step rfl (le_set _ s) trivial

theorem leads_enterBuilder {builder : String} {leaf : Bool} {body : Build σ (Node α)}
    {Q : Node α → σ → Prop} (hQ : ∀ node s' s'', s' ≤ s'' → Q node s' → Q node s'')
    (h : ∀ s', s ≤ s' → Leads s' body Q) : Leads s (enterBuilder builder leaf body) Q := by
  have hbody := (h _ (le_set _ s)).lower (le_set (BuildState.enter builder leaf (buildState s)) s)
  unfold Leads Attempt.Spec enterBuilder
  unfold Attempt.Spec at hbody
  simp only [modifyBuild] at hbody ⊢
  cases hrun : body (setBuildState (BuildState.enter builder leaf (buildState s)) s) with
  | done node s' =>
      simp only [hrun] at hbody ⊢
      exact ⟨hbody.1.trans (le_set _ s'), hQ _ _ _ (le_set _ s') hbody.2⟩
  | declined s' =>
      simp only [hrun] at hbody ⊢
      exact hbody.trans (le_set _ s')
  | raised error s' => trivial

end Steps

section Factory

variable (factory : WeightedBuilderFactory σ α C R K S) (promise : Promise σ α C S)

/-- The node answers the request, as a builder of some class that serves it promises. -/
def Served (requested : R) (constraints : S) (s : σ) (node : Node α) (s' : σ) : Prop :=
  ∃ c, factory.vocabulary.issubclass c requested = true ∧
    factory.vocabulary.isinstance node c = true ∧
    factory.vocabulary.meetsConstraints constraints node = true ∧ promise.kept c constraints s node s'

/-- Every request is answered as promised. -/
def Answers (recurse : R → S → Build σ (Node α)) : Prop :=
  ∀ requested constraints, promise.proper constraints → ∀ s,
    Leads s (recurse requested constraints) (Served factory promise requested constraints s)

/-- The builder keeps the promise as long as its own requests are answered so. -/
def KeepsPromise (b : NodeBuilder σ α C R K S) : Prop :=
  ∀ recurse, Answers factory promise recurse → ∀ constraints, promise.proper constraints →
    factory.vocabulary.constraintTypes constraints ⊆ b.supportedConstraintTypes →
      b.requiredConstraintTypes ⊆ factory.vocabulary.constraintTypes constraints →
        ∀ s, Leads s (b.build recurse constraints) (promise.kept b.resultType constraints s)

variable {factory promise} [BuildUnseen σ]

theorem leads_drawKeys (n : Nat) (s : σ) :
    Leads s (factory.drawKeys n) fun _ _ => True := by
  induction n generalizing s with
  | zero => exact Leads.pure trivial
  | succ n ih =>
      refine (leads_drawNumber factory.draws).bind ?_
      intro key s' _ _
      exact (ih s').bind fun _ _ _ _ => Leads.pure trivial

theorem leads_weightedShuffle (depth : Nat) (builders : List (NodeBuilder σ α C R K S)) (s : σ) :
    Leads s (factory.weightedShuffle depth builders) fun ordered _ => ordered ⊆ builders := by
  refine (leads_drawKeys _ s).bind ?_
  intro keys s' _ _
  refine Leads.pure ?_
  intro b hb
  obtain ⟨pair, hpair, rfl⟩ := List.mem_map.mp hb
  have hzip := (List.mem_insertionSort _).mp hpair
  exact (List.mem_filter.mp (List.of_mem_zip hzip).2).1

variable [DecidableEq K]

theorem leads_dispatch (hkeeps : ∀ b ∈ factory.builders, KeepsPromise factory promise b)
    {recurse : R → S → Build σ (Node α)} (hrecurse : Answers factory promise recurse)
    {requested : R} {constraints : S} (hproper : promise.proper constraints) (s : σ) :
    Leads s (factory.dispatch recurse requested constraints)
      (Served factory promise requested constraints s) := by
  refine leads_readCounters.bind ?_
  intro counters s₁ hle₁ _
  refine Leads.bind (Q := fun eligible _ =>
    factory.filterBuilders requested constraints counters = some eligible)
    (Leads.fromOption fun _ h => h) ?_
  intro eligible s₂ hle₂ heligible
  refine (leads_weightedShuffle counters.depth eligible s₂).bind ?_
  intro ordered s₃ hle₃ hordered
  refine Leads.firstOf ?_
  intro m hm s₄ hle₄
  obtain ⟨b, hb, rfl⟩ := List.mem_map.mp hm
  obtain ⟨hmem, -, hsupports⟩ := mem_filterBuilders factory heligible (hordered hb)
  simp only [WeightedBuilderFactory.supports, Bool.and_eq_true, decide_eq_true_eq] at hsupports
  obtain ⟨⟨⟨hsupported, hsubclass⟩, hrequired⟩, -⟩ := hsupports
  have hle : s ≤ s₄ := ((hle₁.trans hle₂).trans hle₃).trans hle₄
  refine leads_enterBuilder ?_ ?_
  · rintro node s' s'' hup ⟨c, hc, hclass, hmeets, hkept⟩
    exact ⟨c, hc, hclass, hmeets, promise.widen (le_refl s) hup hkept⟩
  · intro s₅ hle₅
    refine (hkeeps b hmem recurse hrecurse constraints hproper hsupported hrequired s₅).bind ?_
    intro node s₆ _ hkept
    refine Leads.bind (Q := fun _ s' => s₆ ≤ s' ∧
      factory.vocabulary.isinstance node b.resultType = true)
      (Leads.require fun hclass => ⟨le_refl s₆, hclass⟩) ?_
    rintro _ s₇ _ ⟨hle₇, hclass⟩
    refine Leads.bind (Q := fun _ s' => s₆ ≤ s' ∧
      factory.vocabulary.meetsConstraints constraints node = true)
      (Leads.require fun hmeets => ⟨hle₇, hmeets⟩) ?_
    rintro _ s₈ _ ⟨hle₈, hmeets⟩
    exact Leads.pure
      ⟨b.resultType, hsubclass, hclass, hmeets, promise.widen (hle.trans hle₅) hle₈ hkept⟩

theorem answers_subtreeWith (hkeeps : ∀ b ∈ factory.builders, KeepsPromise factory promise b)
    {recurse : R → S → Build σ (Node α)} (hrecurse : Answers factory promise recurse) :
    Answers factory promise (factory.subtreeWith recurse) := by
  intro requested constraints hproper s
  refine (leads_checkDeadline factory.late).bind ?_
  intro _ s₁ hle₁ _
  refine (leads_dispatch hkeeps hrecurse hproper s₁).bind ?_
  rintro node s₂ _ ⟨c, hc, hclass, hmeets, hkept⟩
  refine Leads.bind (Q := fun _ s' => s₂ ≤ s') (Leads.require fun _ => le_refl s₂) ?_
  intro _ s₃ _ hle₃
  exact Leads.pure ⟨c, hc, hclass, hmeets, promise.widen hle₁ hle₃ hkept⟩

/-- Builders that keep a promise make a factory that keeps it, however deep it recurses. -/
theorem answers_buildSubtree (hkeeps : ∀ b ∈ factory.builders, KeepsPromise factory promise b)
    (fuel : Nat) : Answers factory promise (factory.buildSubtree fuel) := by
  induction fuel with
  | zero => exact answers_subtreeWith hkeeps fun _ _ _ _ => Leads.raise _
  | succ fuel ih => exact answers_subtreeWith hkeeps ih

end Factory

end EqGen.Builder.Promises
