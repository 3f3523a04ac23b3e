import Mathlib.Data.List.MinMax
import Mathlib.Data.List.Nodup

/-! The place every entry of a list takes when the entries are sorted by an injective rank. -/

namespace EqGen.Lib.Places

variable {α : Type} {rank : Nat → Nat}

/-- One more than the number of entries that come before `i`. -/
def place (rank : Nat → Nat) (entries : List (α × Nat)) (i : Nat) : Nat :=
  (entries.filter fun other => rank other.2 < rank i).length + 1

theorem place_lt_place {entries : List (α × Nat)} {a : α} {i j : Nat} (hi : (a, i) ∈ entries)
    (hij : rank i < rank j) : place rank entries i < place rank entries j := by
  have hsub : List.Sublist (entries.filter fun other => rank other.2 < rank i)
      (entries.filter fun other => rank other.2 < rank j) := by
    apply List.monotone_filter_right
    intro other hother
    simp only [decide_eq_true_eq] at hother ⊢
    omega
  have hlength := hsub.length_le
  have hne : (entries.filter fun other => rank other.2 < rank i).length ≠
      (entries.filter fun other => rank other.2 < rank j).length := by
    intro heq
    have hmem : (a, i) ∈ entries.filter fun other => rank other.2 < rank i := by
      rw [hsub.eq_of_length heq]
      simp [hi, hij]
    simp at hmem
  unfold place
  omega

theorem place_injective {entries : List (α × Nat)} (hrank : Function.Injective rank) {a b : α}
    {i j : Nat} (hi : (a, i) ∈ entries) (hj : (b, j) ∈ entries)
    (h : place rank entries i = place rank entries j) : i = j := by
  by_contra hne
  rcases Nat.lt_or_gt_of_ne (fun heq => hne (hrank heq)) with hlt | hlt
  · exact absurd h (Nat.ne_of_lt (place_lt_place hi hlt))
  · exact absurd h (Nat.ne_of_gt (place_lt_place hj hlt))

theorem exists_place_eq_one {entries : List (α × Nat)} (h : entries ≠ []) :
    ∃ a i, (a, i) ∈ entries ∧ place rank entries i = 1 := by
  obtain ⟨least, hleast⟩ : ∃ least, (entries.argmin fun entry => rank entry.2) = some least := by
    apply Option.ne_none_iff_exists'.mp
    intro hnone
    exact h (List.argmin_eq_none.mp hnone)
  refine ⟨least.1, least.2, List.argmin_mem hleast, ?_⟩
  have hnil : (entries.filter fun other => rank other.2 < rank least.2) = [] := by
    rw [List.filter_eq_nil_iff]
    intro other hother
    have hle := List.le_of_mem_argmin hother hleast
    simpa using hle
  rw [place, hnil, List.length_nil]

end EqGen.Lib.Places
