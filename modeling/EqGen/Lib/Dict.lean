import Mathlib.Algebra.BigOperators.Group.List.Basic
import Mathlib.Algebra.GroupWithZero.Nat
import Mathlib.Algebra.Order.BigOperators.Group.List
import Mathlib.Data.Finmap
import Mathlib.Order.Lattice.Nat

/-! Dictionaries: sums over their values, and folding entries into them by maxima. -/

namespace EqGen.Lib.Dict

universe u v

/-- A dictionary; two are equal if they have the same `toFinmap`. -/
abbrev Dictionary (κ : Type u) (β : Type v) := AList fun _ : κ => β

variable {κ : Type u} {β : Type v} [DecidableEq κ]

/-- `d.get(key, default)` -/
def getD (d : Dictionary κ β) (key : κ) (default : β) : β :=
  (d.lookup key).getD default

def values (d : Dictionary κ β) : List β :=
  d.entries.map Sigma.snd

section Sums

variable {M : Type v} [AddCommMonoid M]

theorem values_eq (d : Dictionary κ M) : values d = d.keys.map fun key => getD d key 0 := by
  rw [values, AList.keys, List.keys, List.map_map]
  apply List.map_congr_left
  rintro ⟨key, value⟩ hentry
  have hlookup : d.lookup key = some value := AList.mem_lookup_iff.mpr hentry
  simp [getD, hlookup]

variable [PartialOrder M] [CanonicallyOrderedAdd M] [IsOrderedAddMonoid M]

/-- The values at some distinct keys add up to no more than all of them. -/
theorem sum_getD_le (d : Dictionary κ M) {keys : List κ} (hkeys : keys.Nodup) :
    (keys.map fun key => getD d key 0).sum ≤ (values d).sum := by
  have habsent (key : κ) (h : key ∉ d.keys) : getD d key 0 = 0 := by
    rw [getD, AList.lookup_eq_none.mpr h, Option.getD_none]
  have hfilter : (keys.map fun key => getD d key 0).sum =
      ((keys.filter (· ∈ d.keys)).map fun key => getD d key 0).sum := by
    clear hkeys
    induction keys with
    | nil => rfl
    | cons key keys ih =>
        by_cases hkey : key ∈ d.keys
        · simp [hkey, ih]
        · simp [hkey, ih, habsent key hkey]
  have hsub : (keys.filter (· ∈ d.keys)).Subperm d.keys := by
    refine List.subperm_of_subset (hkeys.filter _) fun key hkey => ?_
    simpa using (List.mem_filter.mp hkey).2
  obtain ⟨part, hperm, hpart⟩ := hsub
  rw [hfilter, values_eq, ← (hperm.map _).sum_eq]
  exact (hpart.map _).sum_le_sum fun _ _ => zero_le

end Sums

section Maxima

variable [SemilatticeSup β] [OrderBot β]

/-- Replace the value at a key by its maximum with another one. -/
def raise (d : Dictionary κ β) (key : κ) (value : β) : Dictionary κ β :=
  d.insert key (getD d key ⊥ ⊔ value)

/-- The dictionary of the maxima of some entries. -/
def collect (entries : List (κ × β)) : Dictionary κ β :=
  entries.foldl (fun d entry => raise d entry.1 entry.2) ∅

/-- The greatest of the values that some entries have at a key. -/
def supAt (entries : List (κ × β)) (key : κ) : β :=
  ((entries.filter fun entry => entry.1 = key).map Prod.snd).foldr (· ⊔ ·) ⊥

theorem supAt_le_iff {entries : List (κ × β)} {key : κ} {bound : β} :
    supAt entries key ≤ bound ↔ ∀ entry ∈ entries, entry.1 = key → entry.2 ≤ bound := by
  induction entries with
  | nil => simp [supAt]
  | cons entry entries ih =>
      by_cases hkey : entry.1 = key
      · simp only [supAt, List.filter_cons, hkey, decide_true, if_true, List.map_cons,
          List.foldr_cons, sup_le_iff, List.forall_mem_cons, forall_const] at ih ⊢
        rw [ih]
      · simp only [supAt, List.filter_cons, hkey, decide_false, Bool.false_eq_true, if_false,
          List.forall_mem_cons, false_implies, true_and] at ih ⊢
        exact ih

theorem le_supAt {entries : List (κ × β)} {entry : κ × β} (h : entry ∈ entries) :
    entry.2 ≤ supAt entries entry.1 :=
  supAt_le_iff.mp (le_refl _) entry h rfl

theorem supAt_congr {entries entries' : List (κ × β)} (h : ∀ entry, entry ∈ entries ↔ entry ∈ entries')
    (key : κ) : supAt entries key = supAt entries' key :=
  eq_of_forall_ge_iff fun bound => by simp only [supAt_le_iff, h]

theorem lookup_raise (d : Dictionary κ β) (key key' : κ) (value : β) :
    (raise d key value).lookup key' =
      if key' = key then some (getD d key ⊥ ⊔ value) else d.lookup key' := by
  split
  · next h =>
      subst h
      exact AList.lookup_insert d
  · next h => exact AList.lookup_insert_ne h

theorem lookup_foldl_raise (entries : List (κ × β)) (d : Dictionary κ β) (key : κ) :
    (entries.foldl (fun d entry => raise d entry.1 entry.2) d).lookup key =
      if key ∈ d ∨ key ∈ entries.map Prod.fst then some (getD d key ⊥ ⊔ supAt entries key)
      else none := by
  induction entries generalizing d with
  | nil =>
      by_cases hkey : key ∈ d
      · obtain ⟨value, hvalue⟩ := Option.isSome_iff_exists.mp (AList.lookup_isSome.mpr hkey)
        simp [hkey, getD, hvalue, supAt]
      · simpa [hkey] using AList.lookup_eq_none.mpr hkey
  | cons entry entries ih =>
      rw [List.foldl_cons, ih, getD, lookup_raise]
      simp only [List.map_cons, List.mem_cons]
      by_cases hkey : key = entry.1
      · subst hkey
        have hsup : supAt (entry :: entries) entry.1 = entry.2 ⊔ supAt entries entry.1 := by
          simp [supAt]
        have hmem : entry.1 ∈ raise d entry.1 entry.2 := (AList.mem_insert d).mpr (.inl rfl)
        simp [hmem, hsup, sup_assoc]
      · have hsup : supAt (entry :: entries) key = supAt entries key := by
          simp [supAt, Ne.symm hkey]
        have hmem : key ∈ raise d entry.1 entry.2 ↔ key ∈ d := by
          rw [raise, AList.mem_insert, or_iff_right hkey]
        simp only [hsup, hkey, if_false]
        exact if_congr (by rw [hmem, false_or]) rfl rfl

theorem lookup_collect (entries : List (κ × β)) (key : κ) :
    (collect entries).lookup key =
      if key ∈ entries.map Prod.fst then some (supAt entries key) else none := by
  rw [collect, lookup_foldl_raise, getD, AList.lookup_empty, Option.getD_none, bot_sup_eq]
  exact if_congr (or_iff_right (AList.notMem_empty key)) rfl rfl

theorem getD_collect (entries : List (κ × β)) (key : κ) :
    getD (collect entries) key ⊥ = supAt entries key := by
  rw [getD, lookup_collect]
  split
  · rfl
  · next h =>
      refine (le_bot_iff.mp (supAt_le_iff.mpr fun entry hentry hkey => ?_)).symm
      exact absurd (List.mem_map.mpr ⟨entry, hentry, hkey⟩) h

/-- The maxima do not depend on the order of the entries. -/
theorem collect_congr {entries entries' : List (κ × β)}
    (h : ∀ entry, entry ∈ entries ↔ entry ∈ entries') :
    (collect entries).toFinmap = (collect entries').toFinmap := by
  apply Finmap.ext_lookup
  intro key
  rw [Finmap.lookup_toFinmap, Finmap.lookup_toFinmap, lookup_collect, lookup_collect,
    supAt_congr h key]
  simp only [List.mem_map, h]

theorem map_supAt {γ : Type v} [SemilatticeSup γ] [OrderBot γ] (f : β → γ) (hbot : f ⊥ = ⊥)
    (hsup : ∀ a b, f (a ⊔ b) = f a ⊔ f b) (entries : List (κ × β)) (key : κ) :
    f (supAt entries key) = supAt (entries.map fun entry => (entry.1, f entry.2)) key := by
  induction entries with
  | nil => exact hbot
  | cons entry entries ih =>
      by_cases hkey : entry.1 = key
      · simpa [supAt, hkey, hsup] using congrArg (f entry.2 ⊔ ·) ih
      · simpa [supAt, hkey] using ih

theorem mem_collect (entries : List (κ × β)) (key : κ) :
    key ∈ (collect entries).keys ↔ key ∈ entries.map Prod.fst := by
  rw [← AList.mem_keys, ← AList.lookup_isSome, lookup_collect]
  split <;> simp [*]

theorem supAt_of_nodup {entries : List (κ × β)} (h : (entries.map Prod.fst).Nodup)
    {entry : κ × β} (hentry : entry ∈ entries) : supAt entries entry.1 = entry.2 := by
  refine le_antisymm (supAt_le_iff.mpr fun entry' hentry' hkey => ?_) (le_supAt hentry)
  rw [List.inj_on_of_nodup_map h hentry' hentry hkey]

end Maxima

/-- Entries with distinct keys are collected as they are. -/
theorem sum_values_collect {M : Type v} [AddCommMonoid M] [SemilatticeSup M] [OrderBot M]
    [CanonicallyOrderedAdd M] {entries : List (κ × M)} (h : (entries.map Prod.fst).Nodup) :
    (values (collect entries)).sum = (entries.map Prod.snd).sum := by
  have hkeys : (collect entries).keys.Perm (entries.map Prod.fst) :=
    (List.perm_ext_iff_of_nodup (collect entries).keys_nodup h).mpr (mem_collect entries)
  rw [values_eq, (hkeys.map _).sum_eq, List.map_map]
  congr 1
  apply List.map_congr_left
  intro entry hentry
  rw [← bot_eq_zero, Function.comp_apply, getD_collect, supAt_of_nodup h hentry]

section Naturals

theorem sum_values_insert (d : Dictionary κ ℕ) (key : κ) (value : ℕ) :
    (values (d.insert key value)).sum + getD d key 0 = (values d).sum + value := by
  have hrest : ((d.keys.erase key).map fun key' => getD (d.insert key value) key' 0) =
      (d.keys.erase key).map fun key' => getD d key' 0 := by
    apply List.map_congr_left
    intro key' hkey'
    have hne : key' ≠ key := fun h => d.keys_nodup.not_mem_erase (h ▸ hkey')
    rw [getD, AList.lookup_insert_ne hne, ← getD]
  have hsum : (values d).sum =
      getD d key 0 + ((d.keys.erase key).map fun key' => getD d key' 0).sum := by
    rw [values_eq]
    by_cases hkey : key ∈ d.keys
    · exact (List.sum_map_erase _ hkey).symm
    · have hzero : getD d key 0 = 0 := by
        rw [getD, AList.lookup_eq_none.mpr hkey, Option.getD_none]
      rw [List.erase_of_not_mem hkey, hzero, zero_add]
  rw [hsum, values_eq, AList.keys_insert, List.map_cons, List.sum_cons, hrest, getD,
    AList.lookup_insert, Option.getD_some]
  omega

theorem sum_values_foldl_raise (entries : List (κ × ℕ)) (d : Dictionary κ ℕ) :
    (values (entries.foldl (fun d entry => raise d entry.1 entry.2) d)).sum ≤
        (values d).sum + (entries.map Prod.snd).sum ∧
      ((values (entries.foldl (fun d entry => raise d entry.1 entry.2) d)).sum =
          (values d).sum + (entries.map Prod.snd).sum ↔
        (∀ entry ∈ entries, getD d entry.1 0 = 0 ∨ entry.2 = 0) ∧
          entries.Pairwise fun entry entry' =>
            entry.1 = entry'.1 → entry.2 = 0 ∨ entry'.2 = 0) := by
  induction entries generalizing d with
  | nil => simp
  | cons entry entries ih =>
      obtain ⟨ihLe, ihEq⟩ := ih (raise d entry.1 entry.2)
      have hraise : (values (raise d entry.1 entry.2)).sum + getD d entry.1 0 =
          (values d).sum + max (getD d entry.1 0) entry.2 := sum_values_insert d entry.1 _
      rw [List.foldl_cons, List.map_cons, List.sum_cons, List.pairwise_cons,
        List.forall_mem_cons]
      refine ⟨by omega, ?_⟩
      have hstep : (values (raise d entry.1 entry.2)).sum = (values d).sum + entry.2 ↔
          getD d entry.1 0 = 0 ∨ entry.2 = 0 := by omega
      have hget : (∀ entry' ∈ entries,
            getD (raise d entry.1 entry.2) entry'.1 0 = 0 ∨ entry'.2 = 0) ↔
          (∀ entry' ∈ entries, getD d entry'.1 0 = 0 ∨ entry'.2 = 0) ∧
            ∀ entry' ∈ entries, entry.1 = entry'.1 → entry.2 = 0 ∨ entry'.2 = 0 := by
        rw [← forall₂_and]
        refine forall₂_congr fun entry' _ => ?_
        by_cases hkey : entry'.1 = entry.1
        · rw [getD, lookup_raise, if_pos hkey, Option.getD_some, hkey]
          show max (getD d entry.1 0) entry.2 = 0 ∨ _ ↔ _
          simp only [forall_const]
          omega
        · have hne : ¬entry.1 = entry'.1 := fun h => hkey h.symm
          rw [getD, lookup_raise, if_neg hkey, ← getD]
          simp [hne]
      constructor
      · intro hsum
        obtain ⟨hd, hpairwise⟩ := ihEq.mp (by omega)
        obtain ⟨hrest, hentry⟩ := hget.mp hd
        exact ⟨⟨hstep.mp (by omega), hrest⟩, hentry, hpairwise⟩
      · rintro ⟨⟨hfirst, hrest⟩, hentry, hpairwise⟩
        have hsum := ihEq.mpr ⟨hget.mpr ⟨hrest, hentry⟩, hpairwise⟩
        have := hstep.mpr hfirst
        omega

/-- A dictionary of maxima adds up to all the entries if no two that count share a key. -/
theorem sum_values_collect_eq_iff (entries : List (κ × ℕ)) :
    (values (collect entries)).sum = (entries.map Prod.snd).sum ↔
      entries.Pairwise fun entry entry' => entry.1 = entry'.1 → entry.2 = 0 ∨ entry'.2 = 0 := by
  have h := (sum_values_foldl_raise entries (∅ : Dictionary κ ℕ)).2
  have hempty : (values (∅ : Dictionary κ ℕ)).sum = 0 := rfl
  rw [hempty, zero_add] at h
  rw [collect, h]
  exact and_iff_right fun _ _ => .inl rfl

end Naturals

end EqGen.Lib.Dict
