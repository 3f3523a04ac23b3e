import Mathlib.Data.List.Basic

/-!
Directed acyclic graphs unfolded into trees: every node carries an identity, and a node that
several others read occurs below each of them.
-/

namespace EqGen.Lib.Dag

universe u v

/-- A node with its identity, its label and the nodes it reads. -/
inductive Node (α : Type u) : Type u where
  | mk (id : Nat) (label : α) (inputs : List (Node α))

namespace Node

variable {α : Type u}

def id : Node α → Nat
  | mk id _ _ => id

def label : Node α → α
  | mk _ label _ => label

def inputs : Node α → List (Node α)
  | mk _ _ inputs => inputs

@[simp]
theorem id_mk (i : Nat) (a : α) (ns : List (Node α)) : (mk i a ns).id = i := rfl

@[simp]
theorem label_mk (i : Nat) (a : α) (ns : List (Node α)) : (mk i a ns).label = a := rfl

@[simp]
theorem inputs_mk (i : Nat) (a : α) (ns : List (Node α)) : (mk i a ns).inputs = ns := rfl

section Fold

variable {β : Type v} (step : Nat → α → List β → β)

mutual

/-- The value of a node from its identity, its label and the values of its inputs. -/
def fold : Node α → β
  | mk i a ns => step i a (foldAll ns)

def foldAll : List (Node α) → List β
  | [] => []
  | n :: ns => fold n :: foldAll ns

end

theorem foldAll_eq (ns : List (Node α)) : foldAll step ns = ns.map (fold step) := by
  induction ns with
  | nil => rfl
  | cons n ns ih => rw [foldAll, ih, List.map_cons]

theorem fold_mk (i : Nat) (a : α) (ns : List (Node α)) :
    fold step (mk i a ns) = step i a (ns.map (fold step)) := by
  rw [fold, foldAll_eq]

end Fold

/-- The same nodes with other labels. -/
def map (f : α → α) : Node α → Node α :=
  fold fun i a below => mk i (f a) below

@[simp]
theorem map_mk (f : α → α) (i : Nat) (a : α) (ns : List (Node α)) :
    (mk i a ns).map f = mk i (f a) (ns.map (map f)) := by
  rw [map, fold_mk]

@[simp]
theorem id_map (f : α → α) (n : Node α) : (n.map f).id = n.id := by
  obtain ⟨i, a, ns⟩ := n
  rw [map_mk, id_mk, id_mk]

@[simp]
theorem label_map (f : α → α) (n : Node α) : (n.map f).label = f n.label := by
  obtain ⟨i, a, ns⟩ := n
  rw [map_mk, label_mk, label_mk]

/-- The identities that occur in the tree of a node. -/
def ids : Node α → List Nat :=
  fold fun i _ below => i :: below.flatten

theorem mem_ids_mk {i j : Nat} {a : α} {ns : List (Node α)} :
    j ∈ (mk i a ns).ids ↔ j = i ∨ ∃ n ∈ ns, j ∈ n.ids := by
  simp only [ids, fold_mk, List.mem_cons, List.mem_flatten, List.mem_map,
    exists_exists_and_eq_and]

theorem id_mem_ids (n : Node α) : n.id ∈ n.ids := by
  obtain ⟨i, a, ns⟩ := n
  exact mem_ids_mk.mpr (Or.inl rfl)

/-- The labels that occur in the tree of a node. -/
def labels : Node α → List α :=
  fold fun _ a below => a :: below.flatten

theorem mem_labels_mk {i : Nat} {a b : α} {ns : List (Node α)} :
    b ∈ (mk i a ns).labels ↔ b = a ∨ ∃ n ∈ ns, b ∈ n.labels := by
  simp only [labels, fold_mk, List.mem_cons, List.mem_flatten, List.mem_map,
    exists_exists_and_eq_and]

/-- The identities that occur in the trees of some nodes. -/
def occurs (held : List (Node α)) : List Nat :=
  held.flatMap ids

@[simp]
theorem occurs_nil : occurs ([] : List (Node α)) = [] := rfl

theorem mem_occurs {i : Nat} {held : List (Node α)} :
    i ∈ occurs held ↔ ∃ n ∈ held, i ∈ n.ids :=
  List.mem_flatMap

theorem mem_occurs_cons {i : Nat} {n : Node α} {held : List (Node α)} :
    i ∈ occurs (n :: held) ↔ i ∈ n.ids ∨ i ∈ occurs held := by
  simp only [mem_occurs, List.exists_mem_cons_iff]

theorem occurs_subset {held held' : List (Node α)} (h : held ⊆ held') :
    occurs held ⊆ occurs held' := by
  intro i hi
  obtain ⟨n, hn, hi⟩ := mem_occurs.mp hi
  exact mem_occurs.mpr ⟨n, h hn, hi⟩

end Node

end EqGen.Lib.Dag
