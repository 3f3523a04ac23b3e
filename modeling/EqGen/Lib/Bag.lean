import Mathlib.Algebra.GroupWithZero.Nat
import Mathlib.Algebra.BigOperators.Group.List.Basic
import Mathlib.Algebra.Order.Group.Multiset
import Mathlib.Data.Multiset.Filter

/-!
Counters: how often each key occurs, with the keys in the order in which they were first
counted. A counter stands for a bag; the order of its keys is all it adds to it.
-/

namespace EqGen.Lib.Bag

variable {α : Type}

/-- The bag a list of entries stands for. -/
def bagOf (items : List (α × Nat)) : Multiset α :=
  (items.map fun e => Multiset.replicate e.2 e.1).sum

@[simp]
theorem bagOf_nil : bagOf ([] : List (α × Nat)) = 0 := rfl

@[simp]
theorem bagOf_cons (e : α × Nat) (items : List (α × Nat)) :
    bagOf (e :: items) = Multiset.replicate e.2 e.1 + bagOf items := by
  simp [bagOf]

theorem card_bagOf (items : List (α × Nat)) :
    (bagOf items).card = (items.map Prod.snd).sum := by
  induction items with
  | nil => rfl
  | cons e items ih => simp [ih]

theorem bagOf_perm {items items' : List (α × Nat)} (h : items.Perm items') :
    bagOf items = bagOf items' :=
  (h.map _).sum_eq

theorem bagOf_filter_pos (items : List (α × Nat)) :
    bagOf (items.filter fun e => 0 < e.2) = bagOf items := by
  induction items with
  | nil => rfl
  | cons e items ih =>
      by_cases he : 0 < e.2
      · rw [List.filter_cons_of_pos (by simpa using he), bagOf_cons, bagOf_cons, ih]
      · rw [List.filter_cons_of_neg (by simpa using he), bagOf_cons, ih,
          Nat.eq_zero_of_not_pos he, Multiset.replicate_zero, zero_add]

theorem bagOf_map {β : Type} (f : α → β) (items : List (α × Nat)) :
    bagOf (items.map fun e => (f e.1, e.2)) = (bagOf items).map f := by
  induction items with
  | nil => rfl
  | cons e items ih => simp [ih]

/-- Entries with pairwise distinct keys. -/
structure Counter (α : Type) where
  items : List (α × Nat)
  nodup : (items.map Prod.fst).Nodup

variable [DecidableEq α]

section Items

/-- The count of a key in a list of entries; a missing key counts as zero. -/
def countIn : List (α × Nat) → α → Nat
  | [], _ => 0
  | e :: items, a => if e.1 = a then e.2 else countIn items a

/-- Lower the count of one key. -/
def lower (a : α) (n : Nat) (items : List (α × Nat)) : List (α × Nat) :=
  items.map fun e => if e.1 = a then (e.1, e.2 - n) else e

@[simp]
theorem keys_lower (a : α) (n : Nat) (items : List (α × Nat)) :
    (lower a n items).map Prod.fst = items.map Prod.fst := by
  rw [lower, List.map_map]
  apply List.map_congr_left
  intro e _
  simp only [Function.comp_apply]
  split <;> rfl

/-- Add one to the count of a key, which comes last when it is new. -/
def tallyIn (a : α) : List (α × Nat) → List (α × Nat)
  | [] => [(a, 1)]
  | e :: items => if e.1 = a then (e.1, e.2 + 1) :: items else e :: tallyIn a items

example : countIn (tallyIn 'b' (tallyIn 'a' [('b', 1)])) 'b' = 2 := by simp [tallyIn, countIn]

theorem mem_keys_tallyIn (a b : α) (items : List (α × Nat)) :
    b ∈ (tallyIn a items).map Prod.fst ↔ b = a ∨ b ∈ items.map Prod.fst := by
  induction items with
  | nil => simp [tallyIn]
  | cons e items ih =>
      rw [tallyIn]
      split
      · next he =>
          subst he
          simp
      · next he =>
          rw [List.map_cons, List.mem_cons, ih, List.map_cons, List.mem_cons]
          exact or_left_comm

theorem nodup_tallyIn {a : α} {items : List (α × Nat)} (h : (items.map Prod.fst).Nodup) :
    ((tallyIn a items).map Prod.fst).Nodup := by
  induction items with
  | nil => simp [tallyIn]
  | cons e items ih =>
      rw [tallyIn]
      split
      · exact h
      · next he =>
          rw [List.map_cons, List.nodup_cons] at h ⊢
          refine ⟨?_, ih h.2⟩
          rw [mem_keys_tallyIn]
          rintro (heq | hmem)
          · exact he heq
          · exact h.1 hmem

theorem bagOf_tallyIn (a : α) (items : List (α × Nat)) :
    bagOf (tallyIn a items) = a ::ₘ bagOf items := by
  induction items with
  | nil => simp [tallyIn]
  | cons e items ih =>
      rw [tallyIn]
      split
      · next he =>
          subst he
          simp [Multiset.replicate_succ]
      · simp [ih]

theorem countIn_of_notMem {a : α} {items : List (α × Nat)} (h : a ∉ items.map Prod.fst) :
    countIn items a = 0 := by
  induction items with
  | nil => rfl
  | cons e items ih =>
      simp only [List.map_cons, List.mem_cons, not_or] at h
      rw [countIn, if_neg (Ne.symm h.1), ih h.2]

theorem countIn_of_mem {a : α} {n : Nat} {items : List (α × Nat)}
    (hitems : (items.map Prod.fst).Nodup) (h : (a, n) ∈ items) : countIn items a = n := by
  induction items with
  | nil => simp at h
  | cons e items ih =>
      rw [List.map_cons, List.nodup_cons] at hitems
      rw [countIn]
      rcases List.mem_cons.mp h with rfl | h
      · exact if_pos rfl
      · have hne : e.1 ≠ a := by
          rintro rfl
          exact hitems.1 (List.mem_map.mpr ⟨_, h, rfl⟩)
        rw [if_neg hne, ih hitems.2 h]

theorem mem_of_countIn_pos {a : α} {items : List (α × Nat)} (h : 0 < countIn items a) :
    (a, countIn items a) ∈ items := by
  induction items with
  | nil => simp [countIn] at h
  | cons e items ih =>
      rw [countIn] at h ⊢
      split at h
      · next he => simp [← he]
      · next he =>
          rw [if_neg he]
          exact List.mem_cons_of_mem _ (ih h)

theorem countIn_lower (a b : α) (n : Nat) (items : List (α × Nat)) :
    countIn (lower a n items) b = if b = a then countIn items b - n else countIn items b := by
  induction items with
  | nil => simp [lower, countIn]
  | cons e items ih =>
      simp only [lower, List.map_cons] at ih ⊢
      by_cases hea : e.1 = a
      · subst hea
        by_cases hb : e.1 = b
        · simp [countIn, hb]
        · simp [countIn, hb, Ne.symm hb, ih]
      · by_cases hb : e.1 = b
        · simp [countIn, hea, ← hb]
        · simp [countIn, hea, hb, ih]

theorem count_bagOf {items : List (α × Nat)} (hitems : (items.map Prod.fst).Nodup) (a : α) :
    (bagOf items).count a = countIn items a := by
  induction items with
  | nil => rfl
  | cons e items ih =>
      rw [List.map_cons, List.nodup_cons] at hitems
      rw [bagOf_cons, Multiset.count_add, Multiset.count_replicate, ih hitems.2, countIn]
      by_cases he : e.1 = a
      · subst he
        simp [countIn_of_notMem hitems.1]
      · simp [he]

end Items

namespace Counter

def keys (c : Counter α) : List α := c.items.map Prod.fst

/-- The count of a key, zero when it was never counted. -/
def get (c : Counter α) (a : α) : Nat := countIn c.items a

/-- Lower the count of a key by `n`. -/
def consume (c : Counter α) (a : α) (n : Nat) : Counter α where
  items := lower a n c.items
  nodup := by simpa using c.nodup

/-- Count a key once more. -/
def tally (c : Counter α) (a : α) : Counter α where
  items := tallyIn a c.items
  nodup := nodup_tallyIn c.nodup

/-- The entries whose count is positive. -/
def positive (c : Counter α) : List (α × Nat) :=
  c.items.filter fun e => 0 < e.2

/-- The bag a counter stands for. -/
def bag (c : Counter α) : Multiset α := bagOf c.items

theorem get_consume (c : Counter α) (a b : α) (n : Nat) :
    (c.consume a n).get b = if b = a then c.get b - n else c.get b :=
  countIn_lower a b n c.items

theorem get_of_mem {c : Counter α} {a : α} {n : Nat} (h : (a, n) ∈ c.items) : c.get a = n :=
  countIn_of_mem c.nodup h

theorem get_eq_zero {c : Counter α} {a : α} (h : a ∉ c.keys) : c.get a = 0 :=
  countIn_of_notMem h

theorem mem_items_of_pos {c : Counter α} {a : α} (h : 0 < c.get a) : (a, c.get a) ∈ c.items :=
  mem_of_countIn_pos h

theorem count_bag (c : Counter α) (a : α) : c.bag.count a = c.get a :=
  count_bagOf c.nodup a

theorem mem_keys_of_mem_bag {c : Counter α} {a : α} (h : a ∈ c.bag) : a ∈ c.keys := by
  by_contra hnot
  rw [← Multiset.count_pos, count_bag, get_eq_zero hnot] at h
  omega

/-- Lowering a count takes that many copies out of the bag. -/
theorem bag_consume {c : Counter α} {a : α} {n : Nat} (h : n ≤ c.get a) :
    c.bag = Multiset.replicate n a + (c.consume a n).bag := by
  ext b
  rw [Multiset.count_add, Multiset.count_replicate, count_bag, count_bag, get_consume]
  by_cases hb : b = a
  · subst hb
    rw [if_pos rfl, if_pos rfl]
    omega
  · rw [if_neg (Ne.symm hb), if_neg hb, zero_add]

theorem bag_tally (c : Counter α) (a : α) : (c.tally a).bag = a ::ₘ c.bag :=
  bagOf_tallyIn a c.items

/-- Counting a list of keys adds them to the bag. -/
theorem bag_foldl_tally (c : Counter α) (keys : List α) :
    (keys.foldl tally c).bag = (keys : Multiset α) + c.bag := by
  induction keys generalizing c with
  | nil => simp
  | cons a keys ih =>
      rw [List.foldl_cons, ih, bag_tally, ← Multiset.cons_coe, Multiset.cons_add,
        Multiset.add_cons]

omit [DecidableEq α] in
/-- The counts add up to the size of the bag. -/
theorem card_bag (c : Counter α) : c.bag.card = (c.items.map Prod.snd).sum :=
  card_bagOf c.items

theorem mem_positive {c : Counter α} {a : α} {n : Nat} :
    (a, n) ∈ c.positive ↔ c.get a = n ∧ 0 < n := by
  rw [positive, List.mem_filter]
  constructor
  · rintro ⟨hmem, hn⟩
    exact ⟨get_of_mem hmem, by simpa using hn⟩
  · rintro ⟨rfl, hn⟩
    exact ⟨mem_items_of_pos hn, by simpa using hn⟩

omit [DecidableEq α] in
theorem bagOf_positive (c : Counter α) : bagOf c.positive = c.bag :=
  bagOf_filter_pos c.items

theorem positive_eq_nil {c : Counter α} : c.positive = [] ↔ c.bag = 0 := by
  constructor
  · intro h
    rw [← bagOf_positive, h, bagOf_nil]
  · intro h
    rw [List.eq_nil_iff_forall_not_mem]
    rintro ⟨a, n⟩ hmem
    obtain ⟨hget, hn⟩ := mem_positive.mp hmem
    have hzero : c.bag.count a = 0 := by rw [h, Multiset.count_zero]
    rw [count_bag] at hzero
    omega

end Counter

section Parts

variable {α ι : Type} (parts : List ι) (belongs : ι → α → Prop) [∀ i, DecidablePred (belongs i)]

theorem sum_singletons (a : α) :
    (parts.map fun i => if belongs i a then ({a} : Multiset α) else 0).sum =
      Multiset.replicate (parts.filter fun i => belongs i a).length a := by
  induction parts with
  | nil => rfl
  | cons i parts ih =>
      rw [List.map_cons, List.sum_cons, ih]
      by_cases hi : belongs i a
      · rw [if_pos hi, List.filter_cons_of_pos (by simpa using hi), List.length_cons,
          Multiset.replicate_succ, Multiset.singleton_add]
      · rw [if_neg hi, List.filter_cons_of_neg (by simpa using hi), zero_add]

/-- Parts of a bag add up to it if each of its elements belongs to exactly one. -/
theorem sum_parts {bag : Multiset α}
    (h : ∀ a ∈ bag, (parts.filter fun i => belongs i a).length = 1) :
    (parts.map fun i => bag.filter (belongs i)).sum = bag := by
  induction bag using Multiset.induction with
  | empty =>
      rw [List.sum_eq_zero]
      intro part hpart
      obtain ⟨i, -, rfl⟩ := List.mem_map.mp hpart
      exact Multiset.filter_zero _
  | cons a bag ih =>
      have hrest := ih fun b hb => h b (Multiset.mem_cons_of_mem hb)
      calc (parts.map fun i => (a ::ₘ bag).filter (belongs i)).sum
          = (parts.map fun i => (if belongs i a then ({a} : Multiset α) else 0) +
              bag.filter (belongs i)).sum := by
            simp only [Multiset.filter_cons]
        _ = Multiset.replicate 1 a + bag := by
            rw [List.sum_map_add, hrest, sum_singletons,
              h a (Multiset.mem_cons_self a bag)]
        _ = a ::ₘ bag := by
            rw [Multiset.replicate_one, Multiset.singleton_add]

end Parts

end EqGen.Lib.Bag
