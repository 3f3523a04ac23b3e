import Mathlib.Algebra.Group.Nat.Defs
import Mathlib.Data.List.Basic
import Mathlib.Data.Rat.Defs

/-!
Computations that draw numbers from a stream and may raise an error, and the rules for what holds
of every value that they return, whatever is drawn.
-/

namespace EqGen.Lib.Draws

/-- A computation over a stream of draws; it counts how many were taken. -/
def Draw (ε α : Type) : Type :=
  (ℕ → ℕ) → ℕ → Except ε (α × ℕ)

variable {ε α β : Type}

namespace Draw

instance : Monad (Draw ε) where
  pure a := fun _ taken => .ok (a, taken)
  bind m f := fun draws taken =>
    match m draws taken with
    | .ok (a, taken') => f a draws taken'
    | .error e => .error e

def raise (e : ε) : Draw ε α :=
  fun _ _ => .error e

/-- The next number of the stream. -/
def next : Draw ε ℕ :=
  fun draws taken => .ok (draws taken, taken + 1)

/-- A fraction with 53 bits, below one. -/
def random : Draw ε ℚ := do
  return ((← next) % 2 ^ 53 : ℕ) / 2 ^ 53

/-- One of the options; none of an empty list. -/
def pick (options : List α) : Draw ε (Option α) := do
  return options[(← next) % options.length]?

/-- An integer between two bounds. -/
def between (low high : ℕ) : Draw ε ℕ := do
  return low + (← next) % (high - low + 1)

/-- The values of as many runs. -/
def times (m : Draw ε α) : ℕ → Draw ε (List α)
  | 0 => pure []
  | n + 1 => do
    let a ← m
    let rest ← times m n
    return a :: rest

/-- The first computation that gives a value, or else the second. -/
def otherwise (first : Draw ε (Option α)) (second : Draw ε α) : Draw ε α := do
  match ← first with
  | some a => return a
  | none => second

def run (m : Draw ε α) (draws : ℕ → ℕ) : Except ε α :=
  (m draws 0).map Prod.fst

end Draw

open Draw

theorem bind_ok {m : Draw ε α} {f : α → Draw ε β} {draws : ℕ → ℕ} {taken taken' : ℕ} {a : α}
    (h : m draws taken = .ok (a, taken')) : (m >>= f) draws taken = f a draws taken' := by
  show (match m draws taken with | .ok (a, taken') => f a draws taken' | .error e => .error e) = _
  rw [h]

/-- Whatever is drawn, the computation returns, and with such a value. -/
def Always (m : Draw ε α) (P : α → Prop) : Prop :=
  ∀ draws taken, ∃ a taken', m draws taken = .ok (a, taken') ∧ P a

variable {P Q : α → Prop} {R : β → Prop} {m : Draw ε α}

theorem always_pure {a : α} (h : P a) : Always (ε := ε) (pure a) P :=
  fun _ taken => ⟨a, taken, rfl, h⟩

theorem always_bind {f : α → Draw ε β} (hm : Always m P) (hf : ∀ a, P a → Always (f a) R) :
    Always (m >>= f) R := by
  intro draws taken
  obtain ⟨a, taken', hrun, ha⟩ := hm draws taken
  obtain ⟨b, taken'', hrun', hb⟩ := hf a ha draws taken'
  refine ⟨b, taken'', ?_, hb⟩
  rw [bind_ok hrun]
  exact hrun'

theorem Always.mono (h : Always m P) (hPQ : ∀ a, P a → Q a) : Always m Q := by
  intro draws taken
  obtain ⟨a, taken', hrun, ha⟩ := h draws taken
  exact ⟨a, taken', hrun, hPQ a ha⟩

theorem always_map {f : α → β} (h : Always m fun a => R (f a)) :
    Always (do return f (← m)) R :=
  always_bind h fun _ ha => always_pure ha

theorem always_ite {p : Prop} [Decidable p] {m' : Draw ε α} (h : p → Always m P)
    (h' : ¬p → Always m' P) : Always (if p then m else m') P := by
  split
  · next hp => exact h hp
  · next hp => exact h' hp

theorem always_next : Always (ε := ε) next fun _ => True :=
  fun draws taken => ⟨draws taken, taken + 1, rfl, trivial⟩

theorem always_random : Always (ε := ε) random fun _ => True :=
  always_map (always_next.mono fun _ _ => trivial)

theorem always_pick {options : List α} (h : options ≠ []) :
    Always (ε := ε) (pick options) fun a => ∃ b ∈ options, a = some b := by
  refine always_map (always_next.mono fun n _ => ?_)
  have hlt : n % options.length < options.length := Nat.mod_lt _ (List.length_pos_of_ne_nil h)
  exact ⟨options[n % options.length], List.getElem_mem hlt, List.getElem?_eq_getElem hlt⟩

theorem always_between (low high : ℕ) :
    Always (ε := ε) (Draw.between low high) fun n => low ≤ n :=
  always_map (always_next.mono fun _ _ => Nat.le_add_right _ _)

theorem always_times (h : Always m P) (n : ℕ) :
    Always (times m n) fun values => values.length = n ∧ ∀ a ∈ values, P a := by
  induction n with
  | zero => exact always_pure ⟨rfl, by simp⟩
  | succ n ih =>
      refine always_bind h fun a ha => always_bind ih fun rest hrest => always_pure ?_
      rw [List.length_cons, hrest.1, List.forall_mem_cons]
      exact ⟨rfl, ha, hrest.2⟩

theorem always_otherwise {first : Draw ε (Option α)} (h : Always first fun a => ∀ b ∈ a, P b)
    (hm : Always m P) : Always (otherwise first m) P := by
  refine always_bind h fun a ha => ?_
  cases a with
  | none => exact hm
  | some b => exact always_pure (ha b rfl)

/-- Where the computation returns, it returns such a value. -/
def Yields (m : Draw ε α) (P : α → Prop) : Prop :=
  ∀ draws taken a taken', m draws taken = .ok (a, taken') → P a

theorem Always.yields (h : Always m P) : Yields m P := by
  intro draws taken a taken' hrun
  obtain ⟨b, taken'', hrun', hb⟩ := h draws taken
  rw [hrun] at hrun'
  cases hrun'
  exact hb

theorem yields_raise (e : ε) : Yields (raise e) P := by
  intro draws taken a taken' hrun
  cases hrun

theorem yields_bind {f : α → Draw ε β} (hm : Yields m P) (hf : ∀ a, P a → Yields (f a) R) :
    Yields (m >>= f) R := by
  intro draws taken b taken'' hrun
  change (match m draws taken with
    | .ok (a, taken') => f a draws taken'
    | .error e => .error e) = _ at hrun
  split at hrun
  · next a taken' hm' => exact hf a (hm draws taken a taken' hm') draws taken' b taken'' hrun
  · cases hrun

theorem yields_ite {p : Prop} [Decidable p] {m' : Draw ε α} (h : p → Yields m P)
    (h' : ¬p → Yields m' P) : Yields (if p then m else m') P := by
  split
  · next hp => exact h hp
  · next hp => exact h' hp

theorem yields_otherwise {first : Draw ε (Option α)} (h : Yields first fun a => ∀ b ∈ a, P b)
    (hm : Yields m P) : Yields (otherwise first m) P := by
  refine yields_bind h fun a ha => ?_
  cases a with
  | none => exact hm
  | some b => exact (always_pure (ha b rfl)).yields

theorem map_eq_ok {result : Except ε α} {f : α → β} {b : β} (h : result.map f = .ok b) :
    ∃ a, result = .ok a ∧ f a = b := by
  cases result with
  | error e => cases h
  | ok a =>
      cases h
      exact ⟨a, rfl, rfl⟩

theorem Yields.run (h : Yields m P) {draws : ℕ → ℕ} {a : α} (hrun : m.run draws = .ok a) :
    P a := by
  rw [Draw.run] at hrun
  obtain ⟨⟨b, taken⟩, hm, rfl⟩ := map_eq_ok hrun
  exact h draws 0 b taken hm

theorem Always.run (h : Always m P) (draws : ℕ → ℕ) : ∃ a, m.run draws = .ok a ∧ P a := by
  obtain ⟨a, taken, hrun, ha⟩ := h draws 0
  exact ⟨a, by rw [Draw.run, hrun]; rfl, ha⟩

end EqGen.Lib.Draws
