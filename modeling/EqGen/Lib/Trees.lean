import Mathlib.Data.List.Basic

/-! Finite trees whose leaves carry labels, as nested tuples do. -/

namespace EqGen.Lib.Trees

inductive RoseTree (α : Type) where
  | leaf (label : α)
  | branch (items : List (RoseTree α))

namespace RoseTree

variable {α β γ : Type}

/-- What holds of the leaves, and of a branch whose items it holds of, holds of every tree. -/
theorem induction_on {P : RoseTree α → Prop} (t : RoseTree α) (leaf : ∀ a, P (leaf a))
    (branch : ∀ items, (∀ item ∈ items, P item) → P (branch items)) : P t :=
  RoseTree.rec (motive_1 := P) (motive_2 := fun items => ∀ item ∈ items, P item) leaf branch
    (by simp) (fun _ _ hhead htail => List.forall_mem_cons.mpr ⟨hhead, htail⟩) t

mutual

def decEq [DecidableEq α] : (t u : RoseTree α) → Decidable (t = u)
  | leaf a, leaf b =>
    if h : a = b then isTrue (congrArg leaf h) else isFalse fun heq => h (leaf.inj heq)
  | leaf _, branch _ => isFalse nofun
  | branch _, leaf _ => isFalse nofun
  | branch ts, branch us =>
    match decEqAll ts us with
    | isTrue h => isTrue (congrArg branch h)
    | isFalse h => isFalse fun heq => h (branch.inj heq)

def decEqAll [DecidableEq α] : (ts us : List (RoseTree α)) → Decidable (ts = us)
  | [], [] => isTrue rfl
  | [], _ :: _ => isFalse nofun
  | _ :: _, [] => isFalse nofun
  | t :: ts, u :: us =>
    match decEq t u with
    | isFalse h => isFalse fun heq => h (List.cons.inj heq).1
    | isTrue h =>
      match decEqAll ts us with
      | isTrue h' => isTrue (congrArg₂ List.cons h h')
      | isFalse h' => isFalse fun heq => h' (List.cons.inj heq).2

end

instance [DecidableEq α] : DecidableEq (RoseTree α) := decEq

mutual

/-- The same tree with other labels. -/
def map (f : α → β) : RoseTree α → RoseTree β
  | leaf a => leaf (f a)
  | branch items => branch (mapAll f items)

def mapAll (f : α → β) : List (RoseTree α) → List (RoseTree β)
  | [] => []
  | t :: ts => map f t :: mapAll f ts

end

theorem mapAll_eq (f : α → β) (ts : List (RoseTree α)) : mapAll f ts = ts.map (map f) := by
  induction ts with
  | nil => rfl
  | cons t ts ih => rw [mapAll, ih, List.map_cons]

@[simp]
theorem map_leaf (f : α → β) (a : α) : map f (leaf a) = leaf (f a) := by
  rw [map]

@[simp]
theorem map_branch (f : α → β) (items : List (RoseTree α)) :
    map f (branch items) = branch (items.map (map f)) := by
  rw [map, mapAll_eq]

end RoseTree

end EqGen.Lib.Trees
