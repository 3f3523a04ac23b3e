import Mathlib.Data.List.Basic
import EqGen.Equivalence.Context

/-! What the steps of a generation do to the names that were minted so far. -/

namespace EqGen.Equivalence.Names

open EqGen.Core.Catalog
open EqGen.Equivalence.Ast
open EqGen.Builder.Context
open EqGen.Equivalence.Context
open EqGen.Lib.Backtrack
open EqGen.Lib.Backtrack.Attempt

theorem eq_of_append_underscore {a b d e : List Char} (hd : '_' ∉ d) (he : '_' ∉ e)
    (h : a ++ '_' :: d = b ++ '_' :: e) : a = b ∧ d = e := by
  rcases List.append_eq_append_iff.mp h with ⟨rest, hb, hrest⟩ | ⟨rest, ha, hrest⟩
  · cases rest with
    | nil => exact ⟨by simpa using hb.symm, (List.cons.inj hrest).2⟩
    | cons c rest =>
        refine absurd ?_ hd
        rw [(List.cons.inj hrest).2]
        simp
  · cases rest with
    | nil => exact ⟨by simpa using ha, (List.cons.inj hrest).2.symm⟩
    | cons c rest =>
        refine absurd ?_ he
        rw [(List.cons.inj hrest).2]
        simp

/-- A minted name determines its stem and its number. -/
theorem minted_injective {stem stem' : String} {n n' : Nat}
    (h : stem ++ "_" ++ toString n = stem' ++ "_" ++ toString n') : stem = stem' ∧ n = n' := by
  have htext := congrArg String.toList h
  simp only [String.toList_append, Nat.toString_eq_repr, Nat.toList_repr,
    List.append_assoc] at htext
  obtain ⟨hstem, hdigits⟩ :=
    eq_of_append_underscore Nat.underscore_not_in_toDigits Nat.underscore_not_in_toDigits htext
  refine ⟨String.toList_inj.mp hstem, ?_⟩
  rw [← Nat.ofDigitChars_ten_toDigits (n := n), hdigits, Nat.ofDigitChars_ten_toDigits]

/-- The name was minted before the state was reached. -/
def Taken (s : GenerationState) (name : String) : Prop :=
  ∃ stem n, n ≤ s.objectCounters stem ∧ 1 ≤ n ∧ name = stem ++ "_" ++ toString n

/-- No name was forgotten between the two states. -/
def Grows (s s' : GenerationState) : Prop :=
  ∀ stem, s.objectCounters stem ≤ s'.objectCounters stem

theorem Grows.refl (s : GenerationState) : Grows s s :=
  fun _ => Nat.le_refl _

theorem Grows.trans {s s' s'' : GenerationState} (h : Grows s s') (h' : Grows s' s'') :
    Grows s s'' :=
  fun stem => Nat.le_trans (h stem) (h' stem)

theorem Taken.mono {s s' : GenerationState} {name : String} (h : Taken s name)
    (hgrows : Grows s s') : Taken s' name := by
  obtain ⟨stem, n, hn, hpos, rfl⟩ := h
  exact ⟨stem, n, Nat.le_trans hn (hgrows stem), hpos, rfl⟩

section Spec

variable {N : GenerationState → Prop} {E : GenerationError → GenerationState → Prop}
variable {s : GenerationState}

/-- A name that is minted was not taken before and is taken then. -/
theorem spec_generateObjectName {stem : String} {Q : String → GenerationState → Prop}
    (h : ∀ name s', Grows s s' → s'.drawn = s.drawn → ¬Taken s name → Taken s' name →
      name = stem ++ "_" ++ toString (s.objectCounters stem + 1) → Q name s') :
    Spec (generateObjectName stem) s Q N E := by
  apply h
  · intro other
    by_cases heq : other = stem
    · subst heq
      simp
    · simp [heq]
  · rfl
  · rintro ⟨stem', n, hn, -, heq⟩
    obtain ⟨rfl, rfl⟩ := minted_injective heq
    omega
  · exact ⟨stem, s.objectCounters stem + 1, by simp, by omega, rfl⟩
  · rfl

theorem spec_exposedOrMinted {context : EquivalenceContext} {kind : String}
    {exposedName : Option String} {Q : String → GenerationState → Prop}
    (h : ∀ name s', Grows s s' → s'.drawn = s.drawn →
      (exposedName = none → ¬Taken s name ∧ Taken s' name) → Q name s') :
    Spec (exposedOrMinted context kind exposedName) s Q N E := by
  cases exposedName with
  | none =>
      apply spec_generateObjectName
      intro name s' hgrows hdrawn hnew htaken _
      exact h name s' hgrows hdrawn fun _ => ⟨hnew, htaken⟩
  | some exposed =>
      by_cases hempty : exposed = ""
      · simp only [exposedOrMinted, if_pos hempty]
        apply spec_generateObjectName
        intro name s' hgrows hdrawn _ _ _
        exact h name s' hgrows hdrawn (by simp)
      · simp only [exposedOrMinted, if_neg hempty]
        exact h exposed s (Grows.refl s) rfl (by simp)

theorem spec_newNode {label : Label} {inputs : List EqNode} {Q : EqNode → GenerationState → Prop}
    (h : ∀ i s', Grows s s' → s'.drawn = s.drawn → Q (.mk i label inputs) s') :
    Spec (newNode label inputs) s Q N E :=
  h _ _ (Grows.refl s) rfl

theorem spec_selectQuery {source : EqNode} {query : SelectQuery}
    {Q : EqNode → GenerationState → Prop}
    (h : ∀ i s', Grows s s' → s'.drawn = s.drawn →
      Q (.mk i (.query (queryOver (.select query) [source])) [source]) s') :
    Spec (selectQuery source query) s Q N E :=
  spec_newNode h

/-- The node that `CREATE <keyword> <name> AS <query>` makes. -/
def createNode (i : Nat) (relationClass : RelationClass) (kind : ObjectKind) (object : Object)
    (query : EqNode) : EqNode :=
  .mk i (.relation ⟨relationClass, kind, [.object object], object, getSignature query⟩) [query]

theorem spec_createAsSelect {context : EquivalenceContext} {relationClass : RelationClass}
    {kind : ObjectKind} {keyword label : String} {query : EqNode} {exposedName : Option String}
    {Q : EqNode → GenerationState → Prop}
    (h : ∀ i name s', Grows s s' → s'.drawn = s.drawn →
      (exposedName = none → ¬Taken s name ∧ Taken s' name) →
      Q (createNode i relationClass kind
        ⟨kind = .view || kind = .temporaryView || kind = .materializedView, name, keyword,
          queryOf query⟩ query) s') :
    Spec (createAsSelect context relationClass kind keyword label query exposedName) s Q N E := by
  unfold createAsSelect
  rw [spec_bind]
  apply spec_exposedOrMinted
  intro name s' hgrows hdrawn hname
  apply spec_newNode
  intro i s'' hgrows' hdrawn'
  apply h i name s'' (hgrows.trans hgrows') (hdrawn'.trans hdrawn)
  intro hnone
  exact ⟨(hname hnone).1, (hname hnone).2.mono hgrows'⟩

end Spec

end EqGen.Equivalence.Names
