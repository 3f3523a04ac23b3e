import Mathlib.Data.List.Forall2
import EqGen.Lib.Backtrack

/-!
Two runs side by side: computations that end the same way from related states, with related
values and in related states again.
-/

namespace EqGen.Lib.Coupling

open EqGen.Lib.Backtrack

variable {ε σ τ α β γ δ : Type}

/-- Both runs return related values, or both decline, or both raise the same error. -/
inductive Coupled (T : σ → τ → Prop) (R : α → β → Prop) :
    Outcome ε σ α → Outcome ε τ β → Prop where
  | done {a : α} {b : β} {s : σ} {t : τ} (hvalue : R a b) (hstate : T s t) :
      Coupled T R (.done a s) (.done b t)
  | declined {s : σ} {t : τ} (hstate : T s t) : Coupled T R (.declined s) (.declined t)
  | raised (e : ε) {s : σ} {t : τ} (hstate : T s t) : Coupled T R (.raised e s) (.raised e t)

/-- The computations run alike from all related states. -/
def Couples (T : σ → τ → Prop) (R : α → β → Prop) (m : Attempt ε σ α) (m' : Attempt ε τ β) : Prop :=
  ∀ s t, T s t → Coupled T R (m s) (m' t)

/-- The values are those of a function. -/
def Mapped (f : α → β) (a : α) (b : β) : Prop :=
  b = f a

variable {T : σ → τ → Prop} {R : α → β → Prop} {Q : γ → δ → Prop}
variable {m : Attempt ε σ α} {m' : Attempt ε τ β}

namespace Couples

protected theorem pure {a : α} {b : β} (h : R a b) :
    Couples T R (pure a : Attempt ε σ α) (pure b) :=
  fun _ _ hst => .done h hst

theorem bind {f : α → Attempt ε σ γ} {f' : β → Attempt ε τ δ} (hm : Couples T R m m')
    (hf : ∀ a b, R a b → Couples T Q (f a) (f' b)) : Couples T Q (m >>= f) (m' >>= f') := by
  intro s t hst
  have hboth := hm s t hst
  simp only [Bind.bind]
  generalize m s = x at hboth ⊢
  generalize m' t = y at hboth ⊢
  induction hboth with
  | done hvalue hstate => exact hf _ _ hvalue _ _ hstate
  | declined hstate => exact .declined hstate
  | raised e hstate => exact .raised e hstate

protected theorem decline : Couples T R (Attempt.decline : Attempt ε σ α) Attempt.decline :=
  fun _ _ hst => .declined hst

protected theorem raise (e : ε) : Couples T R (Attempt.raise e : Attempt ε σ α) (Attempt.raise e) :=
  fun _ _ hst => .raised e hst

/-- One condition is as good as the other. -/
protected theorem guard {p q : Prop} [Decidable p] [Decidable q] (h : p ↔ q) :
    Couples T (fun _ _ => p) (Attempt.guard p : Attempt ε σ Unit) (Attempt.guard q) := by
  by_cases hp : p
  · rw [Attempt.guard, Attempt.guard, if_pos hp, if_pos (h.mp hp)]
    exact .pure hp
  · rw [Attempt.guard, Attempt.guard, if_neg hp, if_neg (mt h.mpr hp)]
    exact .decline

protected theorem require {p q : Prop} [Decidable p] [Decidable q] (h : p ↔ q) (e : ε) :
    Couples T (fun _ _ => p) (Attempt.require p e : Attempt ε σ Unit) (Attempt.require q e) := by
  by_cases hp : p
  · rw [Attempt.require, Attempt.require, if_pos hp, if_pos (h.mp hp)]
    exact .pure hp
  · rw [Attempt.require, Attempt.require, if_neg hp, if_neg (mt h.mpr hp)]
    exact .raise e

protected theorem optional (h : Couples T R m m') :
    Couples T (Option.Rel R) (Attempt.optional m) (Attempt.optional m') := by
  intro s t hst
  have hboth := h s t hst
  simp only [Attempt.optional]
  generalize m s = x at hboth ⊢
  generalize m' t = y at hboth ⊢
  induction hboth with
  | done hvalue hstate => exact .done (.some hvalue) hstate
  | declined hstate => exact .done .none hstate
  | raised e hstate => exact .raised e hstate

protected theorem firstOf {ms : List (Attempt ε σ α)} {ms' : List (Attempt ε τ β)}
    (h : List.Forall₂ (Couples T R) ms ms') :
    Couples T R (Attempt.firstOf ms) (Attempt.firstOf ms') := by
  induction h with
  | nil => exact .decline
  | @cons m m' ms ms' hm _ ih =>
      intro s t hst
      have hboth := hm s t hst
      simp only [Attempt.firstOf]
      generalize m s = x at hboth ⊢
      generalize m' t = y at hboth ⊢
      induction hboth with
      | done hvalue hstate => exact .done hvalue hstate
      | declined hstate => exact ih _ _ hstate
      | raised e hstate => exact .raised e hstate

end Couples

end EqGen.Lib.Coupling
