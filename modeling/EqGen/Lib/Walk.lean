import Mathlib.Algebra.Order.BigOperators.Group.List
import Mathlib.Algebra.Order.Ring.Nat
import Mathlib.Data.Finset.Card
import Mathlib.Data.List.MinMax
import Mathlib.Order.Bounds.Basic
import EqGen.Lib.Dag

/-! A walk over a directed acyclic graph with a stack, depth first, that visits every node once. -/

namespace EqGen.Lib.Walk

open EqGen.Lib.Dag

universe u

variable {α : Type u}

section Trees

theorem Node.induction {motive : Node α → Prop}
    (step : ∀ i a ns, (∀ n ∈ ns, motive n) → motive (.mk i a ns)) : ∀ n, motive n
  | .mk i a ns => step i a ns fun n _ => Node.induction step n

/-- The number of occurrences of nodes in the tree of a node. -/
def size : Node α → Nat :=
  Node.fold fun _ _ below => 1 + below.sum

/-- The number of nodes on the longest path from a node to a leaf. -/
def height : Node α → Nat :=
  Node.fold fun _ _ below => 1 + below.foldr max 0

theorem size_mk (i : Nat) (a : α) (ns : List (Node α)) :
    size (.mk i a ns) = 1 + (ns.map size).sum := by
  rw [size, Node.fold_mk]

theorem height_mk (i : Nat) (a : α) (ns : List (Node α)) :
    height (.mk i a ns) = 1 + (ns.map height).foldr max 0 := by
  rw [height, Node.fold_mk]

theorem size_lt_of_mem {n c : Node α} (hc : c ∈ n.inputs) : size c < size n := by
  obtain ⟨i, a, ns⟩ := n
  rw [size_mk]
  have := List.single_le_sum (fun _ _ => Nat.zero_le _) _
    (List.mem_map.mpr ⟨c, hc, rfl⟩ : size c ∈ ns.map size)
  omega

theorem le_foldr_max {k : Nat} : ∀ {ks : List Nat}, k ∈ ks → k ≤ ks.foldr max 0
  | _ :: _, .head _ => le_max_left _ _
  | _ :: _, .tail _ h => le_max_of_le_right (le_foldr_max h)

theorem foldr_max_mem : ∀ {ks : List Nat}, ks ≠ [] → ks.foldr max 0 ∈ ks
  | [k], _ => by simp
  | k :: l :: ks, _ => by
      have ih := foldr_max_mem (List.cons_ne_nil l ks)
      rcases max_choice k ((l :: ks).foldr max 0) with h | h
      · rw [List.foldr_cons, h]
        exact List.mem_cons_self
      · rw [List.foldr_cons, h]
        exact List.mem_cons_of_mem _ ih

theorem height_lt_of_mem {n c : Node α} (hc : c ∈ n.inputs) : height c < height n := by
  obtain ⟨i, a, ns⟩ := n
  rw [height_mk]
  have := le_foldr_max (List.mem_map.mpr ⟨c, hc, rfl⟩ : height c ∈ ns.map height)
  omega

theorem one_le_height (n : Node α) : 1 ≤ height n := by
  obtain ⟨i, a, ns⟩ := n
  rw [height_mk]
  omega

/-- The paths from a node down to a leaf. -/
inductive RootToLeaf : Node α → List (Node α) → Prop
  | leaf {n : Node α} (h : n.inputs = []) : RootToLeaf n [n]
  | child {n c : Node α} {path : List (Node α)} (hc : c ∈ n.inputs) (h : RootToLeaf c path) :
      RootToLeaf n (n :: path)

theorem RootToLeaf.length_le {n : Node α} {path : List (Node α)} (h : RootToLeaf n path) :
    path.length ≤ height n := by
  induction h with
  | leaf _ => exact one_le_height _
  | child hc _ ih =>
      have := height_lt_of_mem hc
      rw [List.length_cons]
      omega

theorem exists_rootToLeaf (n : Node α) : ∃ path, RootToLeaf n path ∧ path.length = height n := by
  induction n using Node.induction with
  | step i a ns ih =>
      by_cases hns : ns = []
      · subst hns
        exact ⟨_, .leaf rfl, rfl⟩
      · have hmem := @foldr_max_mem (ns.map height) (by simpa using hns)
        obtain ⟨c, hc, hheight⟩ := List.mem_map.mp hmem
        obtain ⟨path, hpath, hlength⟩ := ih c hc
        refine ⟨_, .child hc hpath, ?_⟩
        rw [List.length_cons, hlength, height_mk, hheight, Nat.add_comm]

/-- The height is the length of a longest path. -/
theorem isGreatest_height (n : Node α) :
    IsGreatest {k | ∃ path, RootToLeaf n path ∧ path.length = k} (height n) := by
  refine ⟨exists_rootToLeaf n, ?_⟩
  rintro k ⟨path, hpath, rfl⟩
  exact hpath.length_le

end Trees

section Graphs

/-- The first node occurs in the tree of the second. -/
inductive Occurs : Node α → Node α → Prop
  | refl (n : Node α) : Occurs n n
  | child {m n c : Node α} (hc : c ∈ n.inputs) (h : Occurs m c) : Occurs m n

/-- Nodes of one identity are one node. -/
def Coherent (root : Node α) : Prop :=
  ∀ m n, Occurs m root → Occurs n root → m.id = n.id → m = n

theorem Occurs.trans {l m n : Node α} (h : Occurs l m) (h' : Occurs m n) : Occurs l n := by
  induction h' with
  | refl => exact h
  | child hc _ ih => exact .child hc ih

theorem Occurs.size_le {m n : Node α} (h : Occurs m n) : size m ≤ size n := by
  induction h with
  | refl => exact Nat.le_refl _
  | child hc _ ih => exact ih.trans (size_lt_of_mem hc).le

theorem mem_ids_iff {i : Nat} {n : Node α} : i ∈ n.ids ↔ ∃ m, Occurs m n ∧ m.id = i := by
  induction n using Node.induction with
  | step j a ns ih =>
      rw [Node.mem_ids_mk]
      constructor
      · rintro (rfl | ⟨c, hc, hi⟩)
        · exact ⟨_, .refl _, rfl⟩
        · obtain ⟨m, hm, hid⟩ := (ih c hc).mp hi
          exact ⟨m, .child hc hm, hid⟩
      · rintro ⟨m, hm, rfl⟩
        cases hm with
        | refl => exact .inl rfl
        | child hc hm => exact .inr ⟨_, hc, (ih _ hc).mpr ⟨m, hm, rfl⟩⟩

theorem Occurs.ids_subset {m n : Node α} (h : Occurs m n) : m.ids ⊆ n.ids := by
  intro i hi
  obtain ⟨l, hl, hid⟩ := mem_ids_iff.mp hi
  exact mem_ids_iff.mpr ⟨l, hl.trans h, hid⟩

/-- A list of nodes with distinct identities that holds the inputs of each of them. -/
theorem coherent_of_closed {root : Node α} (nodes : List (Node α)) (hroot : root ∈ nodes)
    (hinputs : ∀ n ∈ nodes, n.inputs ⊆ nodes) (hids : (nodes.map Node.id).Nodup) :
    Coherent root := by
  have hoccurs : ∀ m n, Occurs m n → n ∈ nodes → m ∈ nodes := by
    intro m n h
    induction h with
    | refl => exact id
    | child hc _ ih => exact fun hn => ih (hinputs _ hn hc)
  intro m n hm hn hid
  exact List.inj_on_of_nodup_map hids (hoccurs m root hm hroot) (hoccurs n root hn hroot) hid

/-- A node does not occur below itself. -/
theorem Coherent.id_notMem {root n c : Node α} (hroot : Coherent root) (hn : Occurs n root)
    (hc : c ∈ n.inputs) : n.id ∉ c.ids := by
  intro hid
  obtain ⟨m, hm, hmid⟩ := mem_ids_iff.mp hid
  have hsame := hroot m n (hm.trans (.child hc (.refl _)) |>.trans hn) hn hmid
  have := hm.size_le.trans_lt (size_lt_of_mem hc)
  rw [hsame] at this
  exact this.false

/--
The path that always goes on through the last input from which the target can be reached, and the
number of its nodes.
-/
inductive Leads : Node α → Nat → Nat → Prop
  | here (n : Node α) : Leads n n.id 1
  | child {n c : Node α} {before after : List (Node α)} {target k : Nat}
      (hinputs : n.inputs = before ++ c :: after) (hne : target ≠ n.id)
      (hlast : ∀ m ∈ after, target ∉ m.ids) (h : Leads c target k) : Leads n target (k + 1)

theorem Leads.le_height {n : Node α} {target k : Nat} (h : Leads n target k) : k ≤ height n := by
  induction h with
  | here _ => exact one_le_height _
  | @child n c before after target k hinputs _ _ _ ih =>
      have hc : c ∈ n.inputs := by
        rw [hinputs]
        simp
      have := height_lt_of_mem hc
      omega

theorem Leads.mem_ids {n : Node α} {target k : Nat} (h : Leads n target k) : target ∈ n.ids := by
  induction h with
  | here n => exact Node.id_mem_ids n
  | @child n c before after target k hinputs _ _ _ ih =>
      have hc : c ∈ n.inputs := by
        rw [hinputs]
        simp
      exact (Occurs.child hc (.refl _)).ids_subset ih

/-- Whatever the last input leads to. -/
theorem leads_last {n c : Node α} (before : List (Node α)) {target k : Nat}
    (hinputs : n.inputs = before ++ [c]) (hne : target ≠ n.id) (h : Leads c target k) :
    Leads n target (k + 1) :=
  .child hinputs hne (by simp) h

end Graphs

section Walks

/-- What a walk has recorded: the deepest level, the number of nodes, the identities. -/
structure Walked where
  depth : Nat := 0
  nodes : Nat := 0
  seen : List Nat := []

def Walked.visit (walked : Walked) (n : Node α) (level : Nat) : Walked :=
  ⟨max walked.depth level, walked.nodes + 1, n.id :: walked.seen⟩

/-- The inputs of a node as they are pushed: the last one comes to lie on top. -/
def pushed (n : Node α) (level : Nat) : List (Node α × Nat) :=
  (n.inputs.map fun c => (c, level + 1)).reverse

def weight (stack : List (Node α × Nat)) : Nat :=
  (stack.map fun entry => size entry.1).sum

theorem weight_append (stack stack' : List (Node α × Nat)) :
    weight (stack ++ stack') = weight stack + weight stack' := by
  simp [weight]

theorem weight_cons (entry : Node α × Nat) (stack : List (Node α × Nat)) :
    weight (entry :: stack) = size entry.1 + weight stack := by
  simp [weight]

theorem weight_pushed (n : Node α) (level : Nat) : weight (pushed n level) + 1 = size n := by
  obtain ⟨i, a, ns⟩ := n
  rw [size_mk, weight, pushed, List.map_reverse, List.sum_reverse, List.map_map, Nat.add_comm]
  rfl

/-- The walk that visits every node once: at the level of the entry that is popped first. -/
def walk : List (Node α × Nat) → Walked → Walked
  | [], walked => walked
  | (n, level) :: stack, walked =>
    if n.id ∈ walked.seen then walk stack walked
    else walk (pushed n level ++ stack) (walked.visit n level)
termination_by stack => weight stack
decreasing_by
  · simp only [weight_cons]
    have := weight_pushed n level
    omega
  · simp only [weight_cons, weight_append]
    have := weight_pushed n level
    omega

/-- The identities that occur below the entries of a stack. -/
def held (stack : List (Node α × Nat)) : Set Nat :=
  {i | ∃ entry ∈ stack, i ∈ entry.1.ids}

@[simp]
theorem held_nil : held ([] : List (Node α × Nat)) = ∅ := by
  simp [held]

@[simp]
theorem held_cons (entry : Node α × Nat) (stack : List (Node α × Nat)) :
    held (entry :: stack) = {i | i ∈ entry.1.ids} ∪ held stack := by
  ext i
  simp [held]

@[simp]
theorem held_append (stack stack' : List (Node α × Nat)) :
    held (stack ++ stack') = held stack ∪ held stack' := by
  induction stack with
  | nil => simp
  | cons entry stack ih => rw [List.cons_append, held_cons, ih, held_cons, Set.union_assoc]

theorem ids_eq_insert (n : Node α) (level : Nat) :
    {i | i ∈ n.ids} = insert n.id (held (pushed n level)) := by
  obtain ⟨j, a, ns⟩ := n
  ext i
  simp [Node.mem_ids_mk, held, pushed]

/--
No entry reaches a node anew above the level `bound`; `seen` are the identities that are visited
before it.
-/
def Bounded (bound : Nat) : List (Node α × Nat) → Set Nat → Prop
  | [], _ => True
  | (n, level) :: stack, seen =>
    (∀ i k, Leads n i k → i ∉ seen → level + k ≤ bound + 1) ∧
      Bounded bound stack (seen ∪ {i | i ∈ n.ids})

theorem bounded_append {bound : Nat} {stack stack' : List (Node α × Nat)} {seen : Set Nat} :
    Bounded bound (stack ++ stack') seen ↔
      Bounded bound stack seen ∧ Bounded bound stack' (seen ∪ held stack) := by
  induction stack generalizing seen with
  | nil => simp [Bounded]
  | cons entry stack ih =>
      rw [List.cons_append, Bounded, Bounded, ih, held_cons, Set.union_assoc, and_assoc]

theorem bounded_iff {bound : Nat} {stack : List (Node α × Nat)} {seen : Set Nat} :
    Bounded bound stack seen ↔
      ∀ above entry below, stack = above ++ entry :: below → ∀ i k, Leads entry.1 i k →
        i ∉ seen → i ∉ held above → entry.2 + k ≤ bound + 1 := by
  constructor
  · rintro h above ⟨n, level⟩ below rfl i k hleads hseen hheld
    exact (bounded_append.mp h).2.1 i k hleads (by simp [hseen, hheld])
  · intro h
    induction stack generalizing seen with
    | nil => trivial
    | cons entry stack ih =>
        refine ⟨fun i k hleads hseen => h [] entry stack rfl i k hleads hseen (by simp), ?_⟩
        apply ih
        rintro above entry' below rfl i k hleads hseen hheld
        apply h (entry :: above) entry' below rfl i k hleads
        · exact fun hi => hseen (.inl hi)
        · rw [held_cons]
          exact fun hi => hi.elim (fun hi => hseen (.inr hi)) hheld

/-- What is reached below a node is the node itself and what is reached below its inputs. -/
theorem bounded_pushed {bound level : Nat} {n : Node α} {seen : Set Nat} (hn : n.id ∉ seen) :
    (∀ i k, Leads n i k → i ∉ seen → level + k ≤ bound + 1) ↔
      level ≤ bound ∧ Bounded bound (pushed n level) (insert n.id seen) := by
  rw [bounded_iff]
  constructor
  · intro h
    refine ⟨Nat.le_of_succ_le_succ (h n.id 1 (.here n) hn), ?_⟩
    rintro above ⟨c, l⟩ below hsplit i k hleads hseen hheld
    rw [pushed, List.reverse_eq_iff, List.reverse_append, List.reverse_cons, List.append_assoc,
      List.map_eq_append_iff] at hsplit
    obtain ⟨before, rest, hinputs, -, hrest⟩ := hsplit
    rw [List.singleton_append, List.map_eq_cons_iff] at hrest
    obtain ⟨c', after, rfl, hc, hafter⟩ := hrest
    obtain ⟨rfl, rfl⟩ := Prod.mk.inj hc
    rw [Set.mem_insert_iff, not_or] at hseen
    have := h i (k + 1) (.child hinputs hseen.1 (fun m hm hi => ?_) hleads) hseen.2
    · show level + 1 + k ≤ bound + 1
      omega
    · have habove : (m, level + 1) ∈ above.reverse := by
        rw [← hafter]
        exact List.mem_map_of_mem hm
      exact hheld ⟨_, List.mem_reverse.mp habove, hi⟩
  · rintro ⟨hlevel, h⟩ i k hleads hseen
    cases hleads with
    | here => omega
    | @child _ c before after _ k hinputs hne hlast hleads =>
        have hsplit : pushed n level = (after.map fun m => (m, level + 1)).reverse ++
            (c, level + 1) :: (before.map fun m => (m, level + 1)).reverse := by
          simp [pushed, hinputs]
        have := h _ _ _ hsplit i k hleads (by simp [hne, hseen]) ?_
        · show level + (k + 1) ≤ bound + 1
          have hshow : level + 1 + k ≤ bound + 1 := this
          omega
        · rintro ⟨entry, hentry, hi⟩
          obtain ⟨m, hm, rfl⟩ := List.mem_map.mp (List.mem_reverse.mp hentry)
          exact hlast m hm hi

/-- What occurs below a node that was seen is seen, or it lies further up in the stack. -/
def Closed (seen : Set Nat) : List (Node α × Nat) → Set Nat → Prop
  | [], _ => True
  | (n, _) :: stack, done =>
    (∀ m, Occurs m n → m.id ∈ seen → ∀ i ∈ m.ids, i ∈ done) ∧
      Closed seen stack (done ∪ {i | i ∈ n.ids})

/-- The nodes of a stack occur in one graph. -/
def Below (root : Node α) (stack : List (Node α × Nat)) : Prop :=
  ∀ entry ∈ stack, Occurs entry.1 root

theorem Below.pushed {root n : Node α} {level : Nat} (hn : Occurs n root) :
    Below root (pushed n level) := by
  intro entry hentry
  obtain ⟨c, hc, rfl⟩ := List.mem_map.mp (List.mem_reverse.mp hentry)
  exact (Occurs.child hc (.refl c)).trans hn

/-- A visited node closes what lies below it in the stack. -/
theorem Closed.visit {root n : Node α} (hroot : Coherent root) (hn : Occurs n root)
    {seen done : Set Nat} {stack : List (Node α × Nat)} (hstack : Below root stack)
    (h : Closed seen stack done) (hdone : ∀ i ∈ n.ids, i ∈ done) :
    Closed (insert n.id seen) stack done := by
  induction stack generalizing done with
  | nil => trivial
  | cons entry stack ih =>
      refine ⟨fun m hm hseen i hi => ?_, ?_⟩
      · rcases hseen with hid | hseen
        · have hsame := hroot m n (hm.trans (hstack entry List.mem_cons_self)) hn hid
          exact hdone i (hsame ▸ hi)
        · exact h.1 m hm hseen i hi
      · exact ih (fun entry hentry => hstack entry (List.mem_cons_of_mem _ hentry)) h.2
          fun i hi => .inl (hdone i hi)

/-- The inputs of a visited node are closed. -/
theorem Closed.inputs {root n : Node α} (hroot : Coherent root) (hn : Occurs n root)
    {seen done : Set Nat} {stack : List (Node α × Nat)}
    (hstack : ∀ entry ∈ stack, entry.1 ∈ n.inputs)
    (hseen : ∀ m, Occurs m n → m.id ∈ seen → ∀ i ∈ m.ids, i ∈ done) :
    Closed (insert n.id seen) stack done := by
  induction stack generalizing done with
  | nil => trivial
  | cons entry stack ih =>
      have hentry := hstack entry List.mem_cons_self
      refine ⟨fun m hm hid i hi => ?_, ?_⟩
      · rcases hid with hid | hid
        · exact absurd (mem_ids_iff.mpr ⟨m, hm, hid⟩) (hroot.id_notMem hn hentry)
        · exact hseen m (.child hentry hm) hid i hi
      · exact ih (fun entry hentry => hstack entry (List.mem_cons_of_mem _ hentry))
          fun m hm hid i hi => .inl (hseen m hm hid i hi)

theorem closed_append {seen done : Set Nat} {stack stack' : List (Node α × Nat)} :
    Closed seen (stack ++ stack') done ↔
      Closed seen stack done ∧ Closed seen stack' (done ∪ held stack) := by
  induction stack generalizing done with
  | nil => simp [Closed]
  | cons entry stack ih =>
      rw [List.cons_append, Closed, Closed, ih, held_cons, Set.union_assoc, and_assoc]

/-- The walk sees what occurs below its stack, each node where the last inputs lead to it. -/
theorem walk_spec {root : Node α} (hroot : Coherent root) (stack : List (Node α × Nat))
    (walked : Walked) (hstack : Below root stack)
    (hclosed : Closed {i | i ∈ walked.seen} stack {i | i ∈ walked.seen}) :
    {i | i ∈ (walk stack walked).seen} = {i | i ∈ walked.seen} ∪ held stack ∧
      ∀ bound, (walk stack walked).depth ≤ bound ↔
        walked.depth ≤ bound ∧ Bounded bound stack {i | i ∈ walked.seen} := by
  induction stack, walked using walk.induct with
  | case1 walked => simp [walk, Bounded]
  | case2 n level stack walked hseen ih =>
      have hids : {i | i ∈ n.ids} ⊆ {i | i ∈ walked.seen} :=
        hclosed.1 n (.refl n) hseen
      have hunion := Set.union_eq_self_of_subset_right hids
      have hrest := hclosed.2
      rw [hunion] at hrest
      obtain ⟨ihSeen, ihDepth⟩ :=
        ih (fun entry hentry => hstack entry (List.mem_cons_of_mem _ hentry)) hrest
      rw [walk, if_pos hseen]
      refine ⟨?_, fun bound => ?_⟩
      · rw [ihSeen, held_cons, ← Set.union_assoc, hunion]
      · rw [ihDepth, Bounded, hunion]
        refine and_congr_right fun _ => (and_iff_right ?_).symm
        exact fun i k hleads hi => absurd (hids hleads.mem_ids) hi
  | case3 n level stack walked hseen ih =>
      have hn : Occurs n root := hstack (n, level) List.mem_cons_self
      have hrest : Below root stack :=
        fun entry hentry => hstack entry (List.mem_cons_of_mem _ hentry)
      have hvisit : {i | i ∈ (walked.visit n level).seen} =
          insert n.id {i | i ∈ walked.seen} := by
        ext i
        simp [Walked.visit]
      have hheld : insert n.id {i | i ∈ walked.seen} ∪ held (pushed n level) =
          {i | i ∈ walked.seen} ∪ {i | i ∈ n.ids} := by
        rw [ids_eq_insert n level, Set.insert_union, Set.union_insert]
      have hpending : Below root (pushed n level ++ stack) := by
        intro entry hentry
        exact (List.mem_append.mp hentry).elim (Below.pushed hn entry) (hrest entry)
      have hstep : Closed {i | i ∈ (walked.visit n level).seen} (pushed n level ++ stack)
          {i | i ∈ (walked.visit n level).seen} := by
        rw [hvisit, closed_append, hheld]
        constructor
        · refine Closed.inputs hroot hn ?_ fun m hm hid i hi => .inr (hclosed.1 m hm hid i hi)
          intro entry hentry
          obtain ⟨c, hc, rfl⟩ := List.mem_map.mp (List.mem_reverse.mp hentry)
          exact hc
        · exact hclosed.2.visit hroot hn hrest fun i hi => .inr hi
      obtain ⟨ihSeen, ihDepth⟩ := ih hpending hstep
      rw [walk, if_neg hseen]
      refine ⟨?_, fun bound => ?_⟩
      · rw [ihSeen, hvisit, held_append, ← Set.union_assoc, hheld, held_cons, Set.union_assoc]
      · rw [ihDepth, hvisit, bounded_append, hheld, Bounded, bounded_pushed hseen]
        simp only [Walked.visit, max_le_iff]
        tauto

/-- A walk counts what it sees, and sees nothing twice. -/
theorem walk_counts (stack : List (Node α × Nat)) (walked : Walked)
    (hnodes : walked.nodes = walked.seen.length) (hnodup : walked.seen.Nodup) :
    (walk stack walked).nodes = (walk stack walked).seen.length ∧
      (walk stack walked).seen.Nodup := by
  induction stack, walked using walk.induct with
  | case1 walked => simp [walk, hnodes, hnodup]
  | case2 n level stack walked hseen ih =>
      rw [walk, if_pos hseen]
      exact ih hnodes hnodup
  | case3 n level stack walked hseen ih =>
      rw [walk, if_neg hseen]
      exact ih (by simp [Walked.visit, hnodes]) (List.nodup_cons.mpr ⟨hseen, hnodup⟩)

/-- A walk from a root counts every node once. -/
theorem nodes_walk {root : Node α} (hroot : Coherent root) (level : Nat) :
    (walk [(root, level)] {}).nodes = root.ids.toFinset.card := by
  obtain ⟨hseen, -⟩ := walk_spec hroot [(root, level)] {} (by simp [Below, Occurs.refl])
    (by simp [Closed])
  obtain ⟨hnodes, hnodup⟩ := walk_counts [(root, level)] {} rfl List.nodup_nil
  rw [hnodes, ← List.toFinset_card_of_nodup hnodup]
  congr 1
  ext i
  have := Set.ext_iff.mp hseen i
  simpa using this

/-- The depth of a walk is the length of the longest path that is led to its end. -/
theorem depth_walk_le {root : Node α} (hroot : Coherent root) {bound : Nat} :
    (walk [(root, 1)] {}).depth ≤ bound ↔ ∀ target k, Leads root target k → k ≤ bound := by
  obtain ⟨-, hdepth⟩ := walk_spec hroot [(root, 1)] {} (by simp [Below, Occurs.refl])
    (by simp [Closed])
  rw [hdepth]
  constructor
  · rintro ⟨-, h, -⟩ target k hleads
    have := h target k hleads (by simp)
    omega
  · intro h
    refine ⟨Nat.zero_le _, fun i k hleads _ => ?_, trivial⟩
    have := h i k hleads
    omega

theorem depth_walk_eq_height {root : Node α} (hroot : Coherent root) :
    (walk [(root, 1)] {}).depth = height root ↔ ∃ target, Leads root target (height root) := by
  have hle : (walk [(root, 1)] {}).depth ≤ height root :=
    (depth_walk_le hroot).mpr fun _ _ hleads => hleads.le_height
  have hone := one_le_height root
  constructor
  · intro heq
    have hnot : ¬(walk [(root, 1)] {}).depth ≤ height root - 1 := by omega
    rw [depth_walk_le hroot] at hnot
    push Not at hnot
    obtain ⟨target, k, hleads, hk⟩ := hnot
    have := hleads.le_height
    have hheight : k = height root := by omega
    exact ⟨target, hheight ▸ hleads⟩
  · rintro ⟨target, hleads⟩
    exact Nat.le_antisymm hle ((depth_walk_le hroot).mp (Nat.le_refl _) _ _ hleads)

end Walks

end EqGen.Lib.Walk
