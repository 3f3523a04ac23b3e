import EqGen.Builder.Accounts

/-!
What the computations of a builder do to the counters and the nodes in hand, with one rule for
each way of putting computations together.
-/

namespace EqGen.Builder.Discipline

open EqGen.Builder.Context
open EqGen.Builder.Accounts
open EqGen.Lib.Backtrack
open EqGen.Lib.Backtrack.Attempt
open EqGen.Lib.Dag
open EqGen.Lib.Dag.Node

variable {σ : Type} [HasBuildState σ] {α β γ : Type}

/-- Between the two states there was only progress. -/
def Progresses (allowed : Event → Prop) (s s' : σ) : Prop :=
  ∃ events, Progress allowed (buildState s) (buildState s') events

/-- Progress, and trees of what was held and of what was made since. -/
def Returns (allowed : Event → Prop) (held out : List (Node α)) (s s' : σ) : Prop :=
  ∃ events, Progress allowed (buildState s) (buildState s') events ∧
    Kept held out (buildState s) (buildState s') events

/--
Started at a depth with some nodes in hand, the computation keeps the accounts however it ends,
and when it returns it has kept the nodes.
-/
def Builds (allowed : Event → Prop) (depth : Nat) (held : List (Node α)) (m : Build σ β)
    (out : β → List (Node α)) : Prop :=
  ∀ s, Ready depth held (buildState s) →
    m.Spec s (fun b s' => Returns allowed held (out b) s s') (fun s' => Progresses allowed s s')
      fun e s' => e ≠ .outOfFuel ∧ Progresses allowed s s'

/-- A node added to those in hand; when there is none, the count of nodes is what it was. -/
def AsksFrom (allowed : Event → Prop) (held : List (Node α)) (m : Build σ (Node α)) (s : σ) :
    Prop :=
  m.Spec s (fun n s' => Returns allowed held (n :: held) s s')
    (fun s' => Progresses allowed s s' ∧ (buildState s').nodeCount = (buildState s).nodeCount)
    fun e s' => e ≠ .outOfFuel ∧ Progresses allowed s s'

/-- A request for a node. -/
def Asks (allowed : Event → Prop) (depth : Nat) (m : Build σ (Node α)) : Prop :=
  ∀ held s, Ready depth held (buildState s) → AsksFrom allowed held m s

/-- A computation that neither counts nor makes nodes, and returns what has the property. -/
def Silent (P : β → Prop) (m : Build σ β) : Prop :=
  ∀ s, m.Spec s (fun b s' => P b ∧ Quiet (buildState s) (buildState s'))
    (fun s' => Quiet (buildState s) (buildState s'))
    fun e s' => e ≠ .outOfFuel ∧ Quiet (buildState s) (buildState s')

namespace Silent

variable {P : β → Prop} {Q : γ → Prop} {m : Build σ β}

theorem bind {f : β → Build σ γ} (hm : Silent P m) (hf : ∀ b, P b → Silent Q (f b)) :
    Silent Q (m >>= f) := by
  intro s
  rw [spec_bind]
  apply (hm s).mono
  · rintro b s' ⟨hb, hquiet⟩
    apply (hf b hb s').mono
    · rintro c s'' ⟨hc, hquiet'⟩
      exact ⟨hc, hquiet.trans hquiet'⟩
    · intro s'' hquiet'
      exact hquiet.trans hquiet'
    · rintro e s'' ⟨he, hquiet'⟩
      exact ⟨he, hquiet.trans hquiet'⟩
  · exact fun _ h => h
  · exact fun _ _ h => h

protected theorem pure {b : β} (hb : P b) : Silent P (pure b : Build σ β) :=
  fun _ => ⟨hb, Quiet.refl _⟩

protected theorem raise {e : GenerationError} (he : e ≠ .outOfFuel) :
    Silent P (raise e : Build σ β) :=
  fun _ => ⟨he, Quiet.refl _⟩

protected theorem require (p : Prop) [Decidable p] {e : GenerationError} (he : e ≠ .outOfFuel) :
    Silent (fun _ => p) (require p e : Build σ Unit) := by
  intro s
  rw [spec_require]
  exact ⟨fun hp => ⟨hp, Quiet.refl _⟩, fun _ => ⟨he, Quiet.refl _⟩⟩

protected theorem guard (p : Prop) [Decidable p] :
    Silent (fun _ => p) (guard p : Build σ Unit) := by
  intro s
  rw [spec_guard]
  exact ⟨fun hp => ⟨hp, Quiet.refl _⟩, fun _ => Quiet.refl _⟩

protected theorem fromOption (x : Option β) :
    Silent (fun b => x = some b) (fromOption x : Build σ β) := by
  intro s
  rw [spec_fromOption]
  exact ⟨fun b hb => ⟨hb, Quiet.refl _⟩, fun _ => Quiet.refl _⟩

/-- A step that only changes what the counters do not show. -/
theorem step (h : ∀ s, ∃ b s', m s = .done b s' ∧ P b ∧ Quiet (buildState s) (buildState s')) :
    Silent P m := by
  intro s
  obtain ⟨b, s', hm, hb, hquiet⟩ := h s
  rw [Spec, hm]
  exact ⟨hb, hquiet⟩

theorem yields (h : Silent P m) : Yields P m :=
  fun s => (h s).mono (fun _ _ h => h.1) (fun _ _ => trivial) fun _ _ _ => trivial

end Silent

variable {allowed : Event → Prop} {depth : Nat} {held rest : List (Node α)}
variable {m : Build σ β} {out : β → List (Node α)}

theorem Progresses.trans {s s' s'' : σ} (h : Progresses allowed s s')
    (h' : Progresses allowed s' s'') : Progresses allowed s s'' := by
  obtain ⟨events, h⟩ := h
  obtain ⟨events', h'⟩ := h'
  exact ⟨events ++ events', h.trans h'⟩

theorem Returns.progresses {out : List (Node α)} {s s' : σ} (h : Returns allowed held out s s') :
    Progresses allowed s s' := by
  obtain ⟨events, hprogress, _⟩ := h
  exact ⟨events, hprogress⟩

theorem Returns.trans {out out' : List (Node α)} {s s' s'' : σ}
    (h : Returns allowed held out s s') (h' : Returns allowed out out' s' s'') :
    Returns allowed held out' s s'' := by
  obtain ⟨events, hprogress, hkept⟩ := h
  obtain ⟨events', hprogress', hkept'⟩ := h'
  exact ⟨events ++ events', hprogress.trans hprogress', hkept.trans hprogress hprogress' hkept'⟩

theorem Returns.ready {out : List (Node α)} {s s' : σ} (h : Returns allowed held out s s')
    (hready : Ready depth held (buildState s)) : Ready depth out (buildState s') := by
  obtain ⟨events, hprogress, hkept⟩ := h
  exact hready.trans hprogress hkept

theorem Returns.of_eq {out : List (Node α)} {s s' : σ} (h : buildState s' = buildState s)
    (hsub : occurs out ⊆ occurs held) (hkeep : occurs held ⊆ occurs out) :
    Returns allowed held out s s' := by
  refine ⟨[], ?_, ?_⟩
  · rw [h]
    exact Progress.refl allowed _
  · rw [h]
    exact ⟨fun i hi => Or.inl (hsub hi), hkeep, rfl⟩

namespace Builds

theorem bind {f : β → Build σ γ} {out' : γ → List (Node α)}
    (hm : Builds allowed depth held m out)
    (hf : ∀ b, Builds allowed depth (out b) (f b) out') :
    Builds allowed depth held (m >>= f) out' := by
  intro s hready
  rw [spec_bind]
  apply (hm s hready).mono
  · intro b s' hreturns
    apply (hf b s' (hreturns.ready hready)).mono
    · intro c s'' hreturns'
      exact hreturns.trans hreturns'
    · intro s'' hprogresses
      exact hreturns.progresses.trans hprogresses
    · rintro e s'' ⟨he, hprogresses⟩
      exact ⟨he, hreturns.progresses.trans hprogresses⟩
  · exact fun _ h => h
  · exact fun _ _ h => h

/-- What comes next may start from either of two hands. -/
theorem bindEither {f : β → Build σ γ} {other : β → List (Node α)} {out' : γ → List (Node α)}
    (hm : Builds allowed depth held m out) (hother : Builds allowed depth held m other)
    (hf : ∀ b, Builds allowed depth (out b) (f b) out' ∨
      Builds allowed depth (other b) (f b) out') :
    Builds allowed depth held (m >>= f) out' := by
  intro s hready
  have hout := hm s hready
  have hotherout := hother s hready
  unfold Spec at hout hotherout
  rw [spec_bind]
  unfold Spec
  cases hrun : m s with
  | done b s' =>
      simp only [hrun] at hout hotherout ⊢
      rcases hf b with hf | hf
      · apply (hf s' (hout.ready hready)).mono
        · exact fun _ _ h => hout.trans h
        · exact fun _ h => hout.progresses.trans h
        · exact fun _ _ h => ⟨h.1, hout.progresses.trans h.2⟩
      · apply (hf s' (hotherout.ready hready)).mono
        · exact fun _ _ h => hotherout.trans h
        · exact fun _ h => hotherout.progresses.trans h
        · exact fun _ _ h => ⟨h.1, hotherout.progresses.trans h.2⟩
  | declined s' =>
      simp only [hrun] at hout ⊢
      exact hout
  | raised e s' =>
      simp only [hrun] at hout ⊢
      exact hout

protected theorem pure (b : β) (hsub : out b ⊆ held) (hkeep : held ⊆ out b) :
    Builds allowed depth held (pure b : Build σ β) out := by
  intro s _
  exact Returns.of_eq rfl (occurs_subset hsub) (occurs_subset hkeep)

protected theorem decline : Builds allowed depth held (decline : Build σ β) out := by
  intro s _
  exact ⟨[], Progress.refl allowed _⟩

protected theorem raise {e : GenerationError} (he : e ≠ .outOfFuel) :
    Builds allowed depth held (raise e : Build σ β) out := by
  intro s _
  exact ⟨he, [], Progress.refl allowed _⟩

/-- A silent computation first. -/
theorem silently {P : β → Prop} {f : β → Build σ γ} {out : γ → List (Node α)}
    (hm : Silent P m) (hf : ∀ b, P b → Builds allowed depth held (f b) out) :
    Builds allowed depth held (m >>= f) out := by
  intro s hready
  rw [spec_bind]
  apply (hm s).mono
  · rintro b s' ⟨hb, hquiet⟩
    have hreturns : Returns allowed held held s s' :=
      ⟨[], .quiet hquiet, fun i hi => Or.inl hi, List.Subset.refl _,
        congrArg Counters.nodeCount hquiet.counters⟩
    apply (hf b hb s' (hreturns.ready hready)).mono
    · intro c s'' hreturns'
      exact hreturns.trans hreturns'
    · intro s'' hprogresses
      exact hreturns.progresses.trans hprogresses
    · rintro e s'' ⟨he, hprogresses⟩
      exact ⟨he, hreturns.progresses.trans hprogresses⟩
  · intro s' hquiet
    exact ⟨[], .quiet hquiet⟩
  · rintro e s' ⟨he, hquiet⟩
    exact ⟨he, [], .quiet hquiet⟩

/-- A new node over nodes in hand, which need not be held apart from it. -/
theorem make {m : Build σ (Node α)} {label : α} {inputs : List (Node α)}
    (h : ∀ s, ∃ s', m s = .done (.mk (buildState s).created label inputs) s' ∧
      buildState s' = { buildState s with created := (buildState s).created + 1 })
    (hinputs : inputs ⊆ held) (hrest : rest ⊆ held) (hkeep : held ⊆ inputs ++ rest) :
    Builds allowed depth held m fun n => n :: rest := by
  intro s _
  obtain ⟨s', hm, hs'⟩ := h s
  rw [Spec, hm]
  refine ⟨[], ?_, ?_⟩
  · rw [hs']
    exact .still rfl rfl rfl (Nat.le_succ _)
  · rw [hs']
    constructor
    · intro i hi
      rcases mem_occurs_cons.mp hi with hi | hi
      · rcases mem_ids_mk.mp hi with rfl | ⟨n, hn, hi⟩
        · exact Or.inr ⟨le_rfl, Nat.lt_succ_self _⟩
        · exact Or.inl (mem_occurs.mpr ⟨n, hinputs hn, hi⟩)
      · exact Or.inl (occurs_subset hrest hi)
    · intro i hi
      obtain ⟨n, hn, hi⟩ := mem_occurs.mp hi
      rcases List.mem_append.mp (hkeep hn) with hn | hn
      · exact mem_occurs_cons.mpr (Or.inl (mem_ids_mk.mpr (Or.inr ⟨n, hn, hi⟩)))
      · exact mem_occurs_cons.mpr (Or.inr (mem_occurs.mpr ⟨n, hn, hi⟩))
    · rfl

/-- A new node that is not taken in hand. -/
theorem discard {m : Build σ (Node α)} {label : α} {inputs : List (Node α)}
    (h : ∀ s, ∃ s', m s = .done (.mk (buildState s).created label inputs) s' ∧
      buildState s' = { buildState s with created := (buildState s).created + 1 }) :
    Builds allowed depth held m fun _ => held := by
  intro s _
  obtain ⟨s', hm, hs'⟩ := h s
  rw [Spec, hm]
  refine ⟨[], ?_, ?_⟩
  · rw [hs']
    exact .still rfl rfl rfl (Nat.le_succ _)
  · rw [hs']
    exact ⟨fun i hi => Or.inl hi, List.Subset.refl _, rfl⟩

/-- The same nodes in hand, in another order. -/
theorem reorder {held' : List (Node α)} (h : Builds allowed depth held m out)
    (hsub : held ⊆ held') (hsup : held' ⊆ held) : Builds allowed depth held' m out := by
  intro s hready
  have hready' : Ready depth held (buildState s) :=
    ⟨hready.depth, hready.count_le, fun i hi => hready.made i (occurs_subset hsub hi)⟩
  apply (h s hready').mono
  · rintro b s' hreturns
    exact (Returns.of_eq rfl (occurs_subset hsub) (occurs_subset hsup)).trans hreturns
  · exact fun _ h => h
  · exact fun _ _ h => h

end Builds

namespace AsksFrom

variable {s s' : σ} {m : Build σ (Node α)} {q : Build σ β}

/-- What is asked after a time in which nothing was counted. -/
theorem after (hready : Ready depth held (buildState s)) (hprogress : Progresses allowed s s')
    (hcount : (buildState s').nodeCount = (buildState s).nodeCount)
    (h : AsksFrom allowed held m s') :
    m.Spec s' (fun n s'' => Returns allowed held (n :: held) s s'')
      (fun s'' => Progresses allowed s s'' ∧ (buildState s'').nodeCount = (buildState s).nodeCount)
      fun e s'' => e ≠ .outOfFuel ∧ Progresses allowed s s'' := by
  apply Spec.mono h
  · intro n s'' hreturns
    obtain ⟨events, hevents⟩ := hprogress
    exact Returns.trans ⟨events, hevents, Kept.forget hevents hready.made hcount⟩ hreturns
  · rintro s'' ⟨hprogress', hcount'⟩
    exact ⟨hprogress.trans hprogress', hcount'.trans hcount⟩
  · rintro e s'' ⟨he, hprogress'⟩
    exact ⟨he, hprogress.trans hprogress'⟩

/-- A quiet computation before the request. -/
theorem bind {f : β → Build σ (Node α)} {P : β → Prop}
    (hready : Ready depth held (buildState s))
    (hq : q.Spec s (fun b s' => P b ∧ Quiet (buildState s) (buildState s'))
      (fun s' => Quiet (buildState s) (buildState s'))
      fun e s' => e ≠ .outOfFuel ∧ Quiet (buildState s) (buildState s'))
    (hf : ∀ b s', P b → Quiet (buildState s) (buildState s') →
      Ready depth held (buildState s') → AsksFrom allowed held (f b) s') :
    AsksFrom allowed held (q >>= f) s := by
  unfold AsksFrom
  rw [spec_bind]
  apply hq.mono
  · rintro b s' ⟨hb, hquiet⟩
    have hstill : Progress allowed (buildState s) (buildState s') [] := .quiet hquiet
    have hready' := hready.of_progress hstill
    apply after hready ⟨[], .quiet hquiet⟩ (congrArg Counters.nodeCount hquiet.counters)
    exact hf b s' hb hquiet hready'
  · intro s' hquiet
    exact ⟨⟨[], .quiet hquiet⟩, congrArg Counters.nodeCount hquiet.counters⟩
  · rintro e s' ⟨he, hquiet⟩
    exact ⟨he, [], .quiet hquiet⟩

theorem require {p : Node α → Prop} [DecidablePred p] {e : GenerationError}
    (he : e ≠ .outOfFuel) (h : AsksFrom allowed held m s) :
    AsksFrom allowed held (m >>= fun n => Attempt.require (p n) e >>= fun _ => pure n) s := by
  unfold AsksFrom
  rw [spec_bind]
  apply Spec.mono h
  · intro n s' hreturns
    rw [spec_bind, spec_require]
    exact ⟨fun _ => hreturns, fun _ => ⟨he, hreturns.progresses⟩⟩
  · exact fun _ h => h
  · exact fun _ _ h => h

/-- The requests are tried one after the other, with the count of nodes as it was. -/
theorem firstOf {ms : List (Build σ (Node α))} (hready : Ready depth held (buildState s))
    (hms : ∀ m ∈ ms, ∀ s', Ready depth held (buildState s') →
      (buildState s').nodeCount = (buildState s).nodeCount → AsksFrom allowed held m s') :
    AsksFrom allowed held (firstOf ms) s := by
  induction ms generalizing s with
  | nil => exact ⟨⟨[], Progress.refl allowed _⟩, rfl⟩
  | cons m ms ih =>
      unfold AsksFrom
      rw [spec_firstOf_cons]
      apply Spec.mono (hms m List.mem_cons_self s hready rfl)
      · exact fun _ _ h => h
      · rintro s' ⟨hprogress, hcount⟩
        have hready' : Ready depth held (buildState s') := by
          obtain ⟨events, hevents⟩ := hprogress
          exact hready.of_progress hevents
        apply after hready hprogress hcount
        apply ih hready'
        intro m' hm' s'' hready'' hcount'
        exact hms m' (List.mem_cons_of_mem _ hm') s'' hready'' (hcount'.trans hcount)
      · exact fun _ _ h => h

end AsksFrom

namespace Asks

variable {m : Build σ (Node α)}

theorem builds (h : Asks allowed depth m) :
    Builds allowed depth held m fun n => n :: held := by
  intro s hready
  apply (h held s hready).mono
  · exact fun _ _ h => h
  · exact fun _ h => h.1
  · exact fun _ _ h => h

/-- A child that may be missing. -/
theorem optional (h : Asks allowed depth m) :
    Builds allowed depth held (optional m) fun n => n.toList ++ held := by
  intro s hready
  rw [spec_optional]
  apply (h held s hready).mono
  · exact fun _ _ h => h
  · rintro s' ⟨⟨events, hprogress⟩, hcount⟩
    exact ⟨events, hprogress, Kept.forget hprogress hready.made hcount⟩
  · exact fun _ _ h => h

end Asks

/-- The body of a builder counts through its requests only and drops none of their nodes. -/
def Disciplined {R S : Type} (build : (R → S → Build σ (Node α)) → S → Build σ (Node α)) : Prop :=
  ∀ {allowed : Event → Prop} {depth : Nat} {buildSubtree : R → S → Build σ (Node α)},
    (∀ requested constraints, Asks allowed depth (buildSubtree requested constraints)) →
    ∀ constraints, Builds allowed depth [] (build buildSubtree constraints) fun node => [node]

end EqGen.Builder.Discipline
