import Mathlib.Logic.Basic

/-!
Stateful computations that return a value, decline or raise, and the rules for what holds
however they end.
-/

namespace EqGen.Lib.Backtrack

/-- How a computation ends, and the state it leaves. -/
inductive Outcome (ε σ α : Type) where
  | done (value : α) (state : σ)
  | declined (state : σ)
  | raised (error : ε) (state : σ)

/-- A computation over a state `σ` that may decline or raise an error. -/
def Attempt (ε σ α : Type) : Type :=
  σ → Outcome ε σ α

variable {ε σ α β : Type}

namespace Attempt

instance : Monad (Attempt ε σ) where
  pure a := fun s => .done a s
  bind m f := fun s =>
    match m s with
    | .done a s' => f a s'
    | .declined s' => .declined s'
    | .raised e s' => .raised e s'

def decline : Attempt ε σ α :=
  fun s => .declined s

def raise (e : ε) : Attempt ε σ α :=
  fun s => .raised e s

/-- Decline unless there is a value. -/
def fromOption : Option α → Attempt ε σ α
  | none => decline
  | some a => pure a

/-- Decline unless the condition holds. -/
def guard (p : Prop) [Decidable p] : Attempt ε σ Unit :=
  if p then pure () else decline

/-- Raise `e` unless the condition holds. -/
def require (p : Prop) [Decidable p] (e : ε) : Attempt ε σ Unit :=
  if p then pure () else raise e

/-- The value if there is one; declining is an answer. -/
def optional (m : Attempt ε σ α) : Attempt ε σ (Option α) := fun s =>
  match m s with
  | .done a s' => .done (some a) s'
  | .declined s' => .done none s'
  | .raised e s' => .raised e s'

/-- The first of the computations that does not decline. -/
def firstOf : List (Attempt ε σ α) → Attempt ε σ α
  | [] => decline
  | m :: rest => fun s =>
    match m s with
    | .done a s' => .done a s'
    | .declined s' => firstOf rest s'
    | .raised e s' => .raised e s'

theorem bind_assoc {γ : Type} (m : Attempt ε σ α) (f : α → Attempt ε σ β)
    (g : β → Attempt ε σ γ) : (m >>= f) >>= g = m >>= fun a => f a >>= g := by
  funext s
  simp only [bind]
  cases m s <;> rfl

section Spec

variable {Q Q' : α → σ → Prop} {N N' : σ → Prop} {E E' : ε → σ → Prop}

/--
Started in `s`, the computation ends with `Q` if it returns, with `N` if it declines and
with `E` if it raises.
-/
def Spec (m : Attempt ε σ α) (s : σ) (Q : α → σ → Prop) (N : σ → Prop) (E : ε → σ → Prop) :
    Prop :=
  match m s with
  | .done a s' => Q a s'
  | .declined s' => N s'
  | .raised e s' => E e s'

theorem Spec.mono {m : Attempt ε σ α} {s : σ} (h : Spec m s Q N E)
    (hQ : ∀ a s', Q a s' → Q' a s') (hN : ∀ s', N s' → N' s')
    (hE : ∀ e s', E e s' → E' e s') : Spec m s Q' N' E' := by
  unfold Spec at h ⊢
  split at h
  · exact hQ _ _ h
  · exact hN _ h
  · exact hE _ _ h

/-- A computation that raises does not also end without an error. -/
theorem Spec.false_of_raises {m : Attempt ε σ α} {s : σ}
    (h : Spec m s Q N (fun _ _ => False))
    (hraises : Spec m s (fun _ _ => False) (fun _ => False) E) : False := by
  unfold Spec at h hraises
  cases hm : m s with
  | done a s' => rw [hm] at hraises; exact hraises
  | declined s' => rw [hm] at hraises; exact hraises
  | raised e s' => rw [hm] at h; exact h

@[simp]
theorem spec_pure {a : α} {s : σ} : Spec (pure a) s Q N E ↔ Q a s :=
  Iff.rfl

@[simp]
theorem spec_bind {m : Attempt ε σ α} {f : α → Attempt ε σ β} {s : σ} {R : β → σ → Prop} :
    Spec (m >>= f) s R N E ↔ Spec m s (fun a s' => Spec (f a) s' R N E) N E := by
  simp only [Spec, bind]
  cases m s <;> rfl

@[simp]
theorem spec_decline {s : σ} : Spec decline s Q N E ↔ N s :=
  Iff.rfl

@[simp]
theorem spec_raise {e : ε} {s : σ} : Spec (raise e) s Q N E ↔ E e s :=
  Iff.rfl

@[simp]
theorem spec_fromOption {x : Option α} {s : σ} :
    Spec (fromOption x) s Q N E ↔ (∀ a, x = some a → Q a s) ∧ (x = none → N s) := by
  cases x <;> simp [fromOption]

@[simp]
theorem spec_guard {p : Prop} {_ : Decidable p} {s : σ} {R : Unit → σ → Prop} :
    Spec (guard p) s R N E ↔ (p → R () s) ∧ (¬p → N s) := by
  by_cases h : p <;> simp [guard, h]

@[simp]
theorem spec_require {p : Prop} {_ : Decidable p} {e : ε} {s : σ} {R : Unit → σ → Prop} :
    Spec (require p e) s R N E ↔ (p → R () s) ∧ (¬p → E e s) := by
  by_cases h : p <;> simp [require, h]

@[simp]
theorem spec_optional {m : Attempt ε σ α} {s : σ} {R : Option α → σ → Prop} :
    Spec (optional m) s R N E ↔
      Spec m s (fun a s' => R (some a) s') (fun s' => R none s') E := by
  simp only [Spec, optional]
  cases m s <;> rfl

@[simp]
theorem spec_firstOf_cons {m : Attempt ε σ α} {rest : List (Attempt ε σ α)} {s : σ} :
    Spec (firstOf (m :: rest)) s Q N E ↔ Spec m s Q (fun s' => Spec (firstOf rest) s' Q N E) E := by
  simp only [Spec, firstOf]
  cases m s <;> rfl

end Spec

/-- What the computation returns has the property, whatever state it starts in. -/
def Yields (P : α → Prop) (m : Attempt ε σ α) : Prop :=
  ∀ s, Spec m s (fun a _ => P a) (fun _ => True) fun _ _ => True

namespace Yields

variable {P Q : α → Prop} {R : β → Prop} {m : Attempt ε σ α}

protected theorem true (m : Attempt ε σ α) : Yields (fun _ => True) m := by
  intro s
  unfold Spec
  cases m s <;> trivial

theorem mono (h : Yields P m) (hPQ : ∀ a, P a → Q a) : Yields Q m :=
  fun s => (h s).mono (fun a _ => hPQ a) (fun _ h => h) fun _ _ h => h

theorem bind {f : α → Attempt ε σ β} (hm : Yields P m) (hf : ∀ a, P a → Yields R (f a)) :
    Yields R (m >>= f) := by
  intro s
  rw [spec_bind]
  exact (hm s).mono (fun a s' ha => hf a ha s') (fun _ h => h) fun _ _ h => h

/-- When nothing need be known of the first result. -/
theorem next {f : α → Attempt ε σ β} (hf : ∀ a, Yields R (f a)) : Yields R (m >>= f) :=
  (Yields.true m).bind fun a _ => hf a

protected theorem pure {a : α} (ha : P a) : Yields P (pure a : Attempt ε σ α) :=
  fun _ => ha

protected theorem decline : Yields P (decline : Attempt ε σ α) :=
  fun _ => trivial

protected theorem raise (e : ε) : Yields P (raise e : Attempt ε σ α) :=
  fun _ => trivial

protected theorem guard (p : Prop) [Decidable p] :
    Yields (fun _ => p) (guard p : Attempt ε σ Unit) := by
  intro s
  rw [spec_guard]
  exact ⟨fun h => h, fun _ => trivial⟩

protected theorem fromOption (x : Option α) :
    Yields (fun a => x = some a) (fromOption x : Attempt ε σ α) := by
  intro s
  rw [spec_fromOption]
  exact ⟨fun _ h => h, fun _ => trivial⟩

protected theorem optional (h : Yields P m) : Yields (fun x => ∀ a ∈ x, P a) (optional m) := by
  intro s
  rw [spec_optional]
  apply (h s).mono
  · rintro a _ ha b hb
    exact Option.some.inj hb ▸ ha
  · rintro _ _ b hb
    exact absurd hb (by simp)
  · exact fun _ _ h => h

protected theorem firstOf {ms : List (Attempt ε σ α)} (h : ∀ m ∈ ms, Yields P m) :
    Yields P (firstOf ms) := by
  induction ms with
  | nil => exact Yields.decline
  | cons m ms ih =>
      intro s
      rw [spec_firstOf_cons]
      apply (h m List.mem_cons_self s).mono
      · exact fun _ _ ha => ha
      · intro s' _
        exact ih (fun m' hm' => h m' (List.mem_cons_of_mem _ hm')) s'
      · exact fun _ _ h => h

end Yields

end Attempt

end EqGen.Lib.Backtrack
