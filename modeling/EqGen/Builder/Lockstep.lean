import EqGen.Builder.Factory
import EqGen.Lib.Coupling

/-!
Two runs of one factory, over states with the same build and requests that it cannot tell apart,
try the same builders in the same order and end alike.
-/

namespace EqGen.Builder.Lockstep

open EqGen.Builder.Context
open EqGen.Builder.Factory
open EqGen.Lib.Backtrack
open EqGen.Lib.Coupling
open EqGen.Lib.Dag

variable {σ α C R K S : Type} [HasBuildState σ]

/-- Related states have the same build, and stay related when it changes in both. -/
structure SameBuild (T : σ → σ → Prop) : Prop where
  same : ∀ {s t}, T s t → buildState s = buildState t
  set : ∀ {s t} (b : BuildState), T s t → T (setBuildState b s) (setBuildState b t)

/-- The factory cannot tell related nodes apart, nor related sets of constraints. -/
structure Blind (vocabulary : Vocabulary α C R K S) (N : Node α → Node α → Prop)
    (A : S → S → Prop) : Prop where
  id : ∀ {n n'}, N n n' → n.id = n'.id
  isinstance : ∀ {n n'} (c : C), N n n' → vocabulary.isinstance n c = vocabulary.isinstance n' c
  serves : ∀ {n n'} (r : R), N n n' → vocabulary.serves n r = vocabulary.serves n' r
  constraintTypes : ∀ {a a'}, A a a' → vocabulary.constraintTypes a = vocabulary.constraintTypes a'
  meetsConstraints : ∀ {a a' n n'}, A a a' → N n n' →
    vocabulary.meetsConstraints a n = vocabulary.meetsConstraints a' n'

section Steps

variable {T : σ → σ → Prop} {N : Node α → Node α → Prop}

theorem SameBuild.modify (hT : SameBuild T) (f : BuildState → BuildState) {s t : σ} (h : T s t) :
    T (modifyBuild f s) (modifyBuild f t) := by
  rw [modifyBuild, modifyBuild, hT.same h]
  exact hT.set _ h

theorem couples_readCounters (hT : SameBuild T) :
    Couples T Eq (readCounters : Build σ Counters) readCounters := by
  intro s t hst
  rw [readCounters, readCounters, hT.same hst]
  exact .done rfl hst

theorem couples_checkDeadline (hT : SameBuild T) (late : Nat → Bool) :
    Couples T Eq (checkDeadline late : Build σ Unit) (checkDeadline late) := by
  intro s t hst
  rw [checkDeadline, checkDeadline, hT.same hst]
  split
  · exact .raised _ (hT.set _ hst)
  · exact .done rfl (hT.set _ hst)

theorem couples_drawNumber (hT : SameBuild T) (draws : Nat → Nat) :
    Couples T Eq (drawNumber draws : Build σ Nat) (drawNumber draws) := by
  intro s t hst
  rw [drawNumber, drawNumber, hT.same hst]
  exact .done rfl (hT.set _ hst)

theorem couples_enterBuilder (hT : SameBuild T) (hid : ∀ {n n'}, N n n' → n.id = n'.id)
    (builder : String) (leaf : Bool) {body body' : Build σ (Node α)} (h : Couples T N body body') :
    Couples T N (enterBuilder builder leaf body) (enterBuilder builder leaf body') := by
  intro s t hst
  have hboth := h _ _ (hT.modify (BuildState.enter builder leaf) hst)
  have hcount : (buildState s).nodeCount = (buildState t).nodeCount := by rw [hT.same hst]
  unfold enterBuilder
  rw [hcount]
  generalize body (modifyBuild (BuildState.enter builder leaf) s) = x at hboth ⊢
  generalize body' (modifyBuild (BuildState.enter builder leaf) t) = y at hboth ⊢
  induction hboth with
  | done hvalue hstate =>
      dsimp only
      rw [hid hvalue]
      exact .done hvalue (hT.modify _ hstate)
  | declined hstate => exact .declined (hT.modify _ hstate)
  | raised e hstate => exact .raised e (hT.modify _ hstate)

end Steps

section Factory

variable (factory : WeightedBuilderFactory σ α C R K S)
variable {T : σ → σ → Prop} {N : Node α → Node α → Prop} {A : S → S → Prop}

/-- A builder over related answers and constraints builds related nodes. -/
def Respects (T : σ → σ → Prop) (N : Node α → Node α → Prop) (A : S → S → Prop)
    (build : (R → S → Build σ (Node α)) → S → Build σ (Node α)) : Prop :=
  ∀ recurse recurse', (∀ r a a', A a a' → Couples T N (recurse r a) (recurse' r a')) →
    ∀ a a', A a a' → Couples T N (build recurse a) (build recurse' a')

theorem couples_drawKeys (hT : SameBuild T) (n : Nat) :
    Couples T Eq (factory.drawKeys n) (factory.drawKeys n) := by
  induction n with
  | zero => exact .pure rfl
  | succ n ih =>
      refine (couples_drawNumber hT factory.draws).bind ?_
      rintro key _ rfl
      refine ih.bind ?_
      rintro keys _ rfl
      exact .pure rfl

theorem couples_runBuilder (hblind : Blind factory.vocabulary N A)
    {recurse recurse' : R → S → Build σ (Node α)}
    (hrecurse : ∀ r a a', A a a' → Couples T N (recurse r a) (recurse' r a')) {a a' : S}
    (ha : A a a') {b : NodeBuilder σ α C R K S} (hb : Respects T N A b.build) :
    Couples T N (factory.runBuilder recurse a b) (factory.runBuilder recurse' a' b) := by
  refine (hb recurse recurse' hrecurse a a' ha).bind fun n n' hn => ?_
  refine (Couples.require (by rw [hblind.isinstance _ hn]) _).bind fun _ _ _ => ?_
  refine (Couples.require (by rw [hblind.meetsConstraints ha hn]) _).bind fun _ _ _ => ?_
  exact .pure hn

theorem couples_weightedShuffle (hT : SameBuild T) (depth : Nat)
    (builders : List (NodeBuilder σ α C R K S)) :
    Couples T (fun ordered ordered' => ordered = ordered' ∧ ∀ b ∈ ordered, b ∈ builders)
      (factory.weightedShuffle depth builders) (factory.weightedShuffle depth builders) := by
  refine (couples_drawKeys factory hT _).bind ?_
  rintro keys _ rfl
  refine .pure ⟨rfl, fun b hb => ?_⟩
  obtain ⟨⟨key, b'⟩, hmem, rfl⟩ := List.mem_map.mp hb
  rw [List.mem_insertionSort] at hmem
  exact (List.mem_filter.mp (List.of_mem_zip hmem).2).1

variable [DecidableEq K]

theorem supports_eq (hblind : Blind factory.vocabulary N A) {a a' : S} (ha : A a a')
    (requested : R) (leafOnly : Bool) (b : NodeBuilder σ α C R K S) :
    factory.supports requested a leafOnly b = factory.supports requested a' leafOnly b := by
  simp only [WeightedBuilderFactory.supports, hblind.constraintTypes ha]

theorem filterBuilders_eq (hblind : Blind factory.vocabulary N A) {a a' : S} (ha : A a a')
    (requested : R) (counters : Counters) :
    factory.filterBuilders requested a counters = factory.filterBuilders requested a' counters := by
  have hsupports : factory.supports requested a (factory.leafOnly counters) =
      factory.supports requested a' (factory.leafOnly counters) :=
    funext fun b => supports_eq factory hblind ha requested _ b
  simp only [WeightedBuilderFactory.filterBuilders, hsupports]

theorem mem_of_filterBuilders {requested : R} {a : S} {counters : Counters}
    {eligible : List (NodeBuilder σ α C R K S)}
    (h : factory.filterBuilders requested a counters = some eligible) :
    ∀ b ∈ eligible, b ∈ factory.builders := by
  intro b hb
  simp only [WeightedBuilderFactory.filterBuilders] at h
  split at h
  · cases h
  split at h
  · cases h
  · cases h
    exact (List.mem_filter.mp hb).1

theorem couples_dispatch (hT : SameBuild T) (hblind : Blind factory.vocabulary N A)
    (hbuilders : ∀ b ∈ factory.builders, Respects T N A b.build)
    {recurse recurse' : R → S → Build σ (Node α)}
    (hrecurse : ∀ r a a', A a a' → Couples T N (recurse r a) (recurse' r a')) (requested : R)
    {a a' : S} (ha : A a a') :
    Couples T N (factory.dispatch recurse requested a) (factory.dispatch recurse' requested a') := by
  refine (couples_readCounters hT).bind ?_
  rintro counters _ rfl
  rw [← filterBuilders_eq factory hblind ha]
  cases heligible : factory.filterBuilders requested a counters with
  | none => exact .decline
  | some eligible =>
      have hmem := mem_of_filterBuilders factory heligible
      refine (couples_weightedShuffle factory hT counters.depth eligible).bind ?_
      rintro ordered _ ⟨rfl, hordered⟩
      refine .firstOf ?_
      rw [List.forall₂_map_left_iff, List.forall₂_map_right_iff, List.forall₂_same]
      intro b hb
      exact couples_enterBuilder hT hblind.id b.name b.isLeaf
        (couples_runBuilder factory hblind hrecurse ha (hbuilders b (hmem b (hordered b hb))))

theorem couples_subtreeWith (hT : SameBuild T) (hblind : Blind factory.vocabulary N A)
    (hbuilders : ∀ b ∈ factory.builders, Respects T N A b.build)
    {recurse recurse' : R → S → Build σ (Node α)}
    (hrecurse : ∀ r a a', A a a' → Couples T N (recurse r a) (recurse' r a')) (requested : R)
    {a a' : S} (ha : A a a') :
    Couples T N (factory.subtreeWith recurse requested a)
      (factory.subtreeWith recurse' requested a') := by
  refine (couples_checkDeadline hT factory.late).bind fun _ _ _ => ?_
  refine (couples_dispatch factory hT hblind hbuilders hrecurse requested ha).bind fun n n' hn => ?_
  refine (Couples.require (by rw [hblind.serves _ hn]) _).bind fun _ _ _ => ?_
  exact .pure hn

/-- Related requests to the factory are answered alike. -/
theorem couples_buildSubtree (hT : SameBuild T) (hblind : Blind factory.vocabulary N A)
    (hbuilders : ∀ b ∈ factory.builders, Respects T N A b.build) (fuel : Nat) (requested : R)
    {a a' : S} (ha : A a a') :
    Couples T N (factory.buildSubtree fuel requested a)
      (factory.buildSubtree fuel requested a') := by
  induction fuel generalizing requested a a' with
  | zero =>
      exact couples_subtreeWith factory hT hblind hbuilders (fun _ _ _ _ => .raise _) requested ha
  | succ fuel ih =>
      exact couples_subtreeWith factory hT hblind hbuilders (fun r _ _ ha => ih r ha) requested ha

end Factory

end EqGen.Builder.Lockstep
