import Mathlib.Order.Basic
import EqGen.Lib.Backtrack

/-!
Computations that only move their state up an order, however they end, and what they lead to when
they return.
-/

namespace EqGen.Lib.Ascent

open EqGen.Lib.Backtrack
open EqGen.Lib.Backtrack.Attempt

variable {ε σ α β : Type} [Preorder σ]

/-- From `s` the computation goes up, and what it returns has the property. -/
def Leads (s : σ) (m : Attempt ε σ α) (Q : α → σ → Prop) : Prop :=
  Spec m s (fun a s' => s ≤ s' ∧ Q a s') (fun s' => s ≤ s') fun _ _ => True

namespace Leads

variable {s : σ} {m : Attempt ε σ α} {Q Q' : α → σ → Prop} {R : β → σ → Prop}

theorem mono (h : Leads s m Q) (hQ : ∀ a s', s ≤ s' → Q a s' → Q' a s') : Leads s m Q' :=
  Spec.mono h (fun a s' hs => ⟨hs.1, hQ a s' hs.1 hs.2⟩) (fun _ hs => hs) fun _ _ _ => trivial

theorem and (h : Leads s m Q) (h' : Leads s m Q') : Leads s m fun a s' => Q a s' ∧ Q' a s' := by
  unfold Leads Spec at h h' ⊢
  cases hm : m s with
  | done a s' =>
      simp only [hm] at h h' ⊢
      exact ⟨h.1, h.2, h'.2⟩
  | declined s' =>
      simp only [hm] at h ⊢
      exact h
  | raised e s' => trivial

/-- What was reached from a lower state was reached from the higher one. -/
theorem lower {s₀ : σ} (hle : s₀ ≤ s) (h : Leads s m Q) :
    Spec m s (fun a s' => s₀ ≤ s' ∧ Q a s') (fun s' => s₀ ≤ s') fun _ _ => True :=
  Spec.mono h (fun _ _ hs => ⟨hle.trans hs.1, hs.2⟩) (fun _ hs => hle.trans hs) fun _ _ h => h

theorem bind {f : α → Attempt ε σ β} (hm : Leads s m Q)
    (hf : ∀ a s', s ≤ s' → Q a s' → Leads s' (f a) R) : Leads s (m >>= f) R := by
  rw [Leads, spec_bind]
  apply Spec.mono hm
  · rintro a s' ⟨hle, ha⟩
    exact (hf a s' hle ha).lower hle
  · exact fun _ h => h
  · exact fun _ _ h => h

protected theorem pure {a : α} (h : Q a s) : Leads s (pure a : Attempt ε σ α) Q :=
  ⟨le_refl s, h⟩

protected theorem decline : Leads s (decline : Attempt ε σ α) Q :=
  le_refl s

protected theorem raise (e : ε) : Leads s (raise e : Attempt ε σ α) Q :=
  trivial

/-- A step that returns. -/
theorem step {a : α} {s' : σ} (hm : m s = .done a s') (hle : s ≤ s') (h : Q a s') :
    Leads s m Q := by
  rw [Leads, Spec, hm]
  exact ⟨hle, h⟩

protected theorem guard {p : Prop} [Decidable p] {Q : Unit → σ → Prop} (h : p → Q () s) :
    Leads s (guard p : Attempt ε σ Unit) Q := by
  rw [Leads, spec_guard]
  exact ⟨fun hp => ⟨le_refl s, h hp⟩, fun _ => le_refl s⟩

protected theorem require {p : Prop} [Decidable p] {e : ε} {Q : Unit → σ → Prop} (h : p → Q () s) :
    Leads s (require p e : Attempt ε σ Unit) Q := by
  rw [Leads, spec_require]
  exact ⟨fun hp => ⟨le_refl s, h hp⟩, fun _ => trivial⟩

protected theorem fromOption {x : Option α} (h : ∀ a, x = some a → Q a s) :
    Leads s (fromOption x : Attempt ε σ α) Q := by
  rw [Leads, spec_fromOption]
  exact ⟨fun a ha => ⟨le_refl s, h a ha⟩, fun _ => le_refl s⟩

protected theorem optional {Q : Option α → σ → Prop} (h : Leads s m fun a s' => Q (some a) s')
    (hnone : ∀ s', s ≤ s' → Q none s') : Leads s (optional m) Q := by
  rw [Leads, spec_optional]
  exact Spec.mono h (fun _ _ hs => hs) (fun s' hs => ⟨hs, hnone s' hs⟩) fun _ _ h => h

/-- The alternatives are tried one after the other, each from where the last one left off. -/
protected theorem firstOf {ms : List (Attempt ε σ α)}
    (h : ∀ m ∈ ms, ∀ s', s ≤ s' → Leads s' m Q) :
    Leads s (firstOf ms) Q := by
  have hall : ∀ s', s ≤ s' →
      Spec (firstOf ms) s' (fun a s'' => s ≤ s'' ∧ Q a s'') (fun s'' => s ≤ s'')
        fun _ _ => True := by
    induction ms with
    | nil => exact fun _ hle => hle
    | cons m ms ih =>
        intro s' hle
        rw [spec_firstOf_cons]
        apply Spec.mono (h m List.mem_cons_self s' hle)
        · rintro a s'' ⟨hup, ha⟩
          exact ⟨hle.trans hup, ha⟩
        · intro s'' hup
          exact ih (fun other hother => h other (List.mem_cons_of_mem _ hother)) s''
            (hle.trans hup)
        · exact fun _ _ h => h
  exact hall s (le_refl s)

end Leads

end EqGen.Lib.Ascent
