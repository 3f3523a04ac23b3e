import Mathlib.Algebra.Order.Group.Multiset
import Mathlib.Combinatorics.Hall.Basic
import Mathlib.Data.Multiset.Count
import Mathlib.Data.Multiset.Fintype

/-!
Pairings of two bags along a relation. A pairing that leaves nothing more to pair need not
exhaust two bags that some other pairing exhausts; without open chains it does.
-/

namespace EqGen.Lib.Pairing

variable {α β : Type}

/-- Pairs along `r` that, with `A'` and `B'` left over, make up `A` and `B`. -/
structure Paired (r : α → β → Prop) (A : Multiset α) (B : Multiset β)
    (pairs : Multiset (α × β)) (A' : Multiset α) (B' : Multiset β) : Prop where
  left : A = pairs.map Prod.fst + A'
  right : B = pairs.map Prod.snd + B'
  sound : ∀ p ∈ pairs, r p.1 p.2

/-- The two bags can be paired off completely. -/
def Pairable (r : α → β → Prop) (A : Multiset α) (B : Multiset β) : Prop :=
  ∃ pairs, Paired r A B pairs 0 0

/-- Along `r`, two steps forth and one back never lead to a row that one step does not. -/
def Unchained (r : α → β → Prop) (A : Multiset α) (B : Multiset β) : Prop :=
  ∀ a ∈ A, ∀ b ∈ A, ∀ x ∈ B, ∀ y ∈ B, r a x → r b x → r b y → r a y

variable {r : α → β → Prop} {A A' : Multiset α} {B B' : Multiset β} {pairs : Multiset (α × β)}

theorem Paired.flip (h : Paired r A B pairs A' B') :
    Paired (flip r) B A (pairs.map Prod.swap) B' A' := by
  refine ⟨?_, ?_, ?_⟩
  · simpa [Multiset.map_map] using h.right
  · simpa [Multiset.map_map] using h.left
  · intro p hp
    obtain ⟨q, hq, rfl⟩ := Multiset.mem_map.mp hp
    exact h.sound q hq

/-- Pairing `n` more copies of two rows off what is left over. -/
theorem Paired.take {a : α} {b : β} {n : Nat} {A'' : Multiset α} {B'' : Multiset β}
    (h : Paired r A B pairs A' B') (hr : r a b) (hleft : A' = Multiset.replicate n a + A'')
    (hright : B' = Multiset.replicate n b + B'') :
    Paired r A B (pairs + Multiset.replicate n (a, b)) A'' B'' := by
  refine ⟨?_, ?_, ?_⟩
  · rw [h.left, hleft]
    simp [add_assoc]
  · rw [h.right, hright]
    simp [add_assoc]
  · intro p hp
    rcases Multiset.mem_add.mp hp with hp | hp
    · exact h.sound p hp
    · rw [Multiset.eq_of_mem_replicate hp]
      exact hr

/-- What a pairing goes on with is a pairing of what it had left over. -/
theorem Paired.rest {more : Multiset (α × β)} {A'' : Multiset α} {B'' : Multiset β}
    (h : Paired r A B pairs A' B') (hmore : Paired r A B (pairs + more) A'' B'') :
    Paired r A' B' more A'' B'' := by
  refine ⟨?_, ?_, fun p hp => hmore.sound p (Multiset.mem_add.mpr (.inr hp))⟩
  · have hleft := h.left.symm.trans hmore.left
    rw [Multiset.map_add, add_assoc] at hleft
    exact add_left_cancel hleft
  · have hright := h.right.symm.trans hmore.right
    rw [Multiset.map_add, add_assoc] at hright
    exact add_left_cancel hright

theorem Pairable.flip (h : Pairable r A B) : Pairable (flip r) B A := by
  obtain ⟨pairs, h⟩ := h
  exact ⟨_, h.flip⟩

theorem Unchained.flip (h : Unchained r A B) : Unchained (flip r) B A := by
  intro a ha b hb x hx y hy hax hbx hby
  exact h y hy x hx b hb a ha hby hbx hax

theorem Pairable.mono {s : α → β → Prop} (h : Pairable r A B)
    (hrs : ∀ a ∈ A, ∀ b ∈ B, r a b → s a b) : Pairable s A B := by
  obtain ⟨pairs, h⟩ := h
  refine ⟨pairs, h.left, h.right, fun p hp => hrs _ ?_ _ ?_ (h.sound p hp)⟩
  · rw [h.left, add_zero]
    exact Multiset.mem_map_of_mem _ hp
  · rw [h.right, add_zero]
    exact Multiset.mem_map_of_mem _ hp

theorem Pairable.of_singleton {a : α} {b : β} (h : Pairable r {a} {b}) : r a b := by
  obtain ⟨pairs, hpairs⟩ := h
  have hleft := hpairs.left
  have hright := hpairs.right
  rw [add_zero] at hleft hright
  obtain ⟨p, rfl, hp⟩ := Multiset.map_eq_singleton.mp hleft.symm
  rw [Multiset.map_singleton, Multiset.singleton_inj] at hright
  rw [← hp, hright]
  exact hpairs.sound p (Multiset.mem_singleton_self p)

theorem Pairable.cons {a : α} {b : β} (hr : r a b) (h : Pairable r A B) :
    Pairable r (a ::ₘ A) (b ::ₘ B) := by
  obtain ⟨pairs, h⟩ := h
  refine ⟨(a, b) ::ₘ pairs, ?_, ?_, Multiset.forall_mem_cons.mpr ⟨hr, h.sound⟩⟩
  · rw [Multiset.map_cons, Multiset.cons_add, ← h.left]
  · rw [Multiset.map_cons, Multiset.cons_add, ← h.right]

section Images

variable {γ δ : Type} {f : γ → α} {g : δ → β} {C : Multiset γ} {D : Multiset δ}

theorem Pairable.map {s : γ → δ → Prop} (h : Pairable s C D)
    (hsr : ∀ c ∈ C, ∀ d ∈ D, s c d → r (f c) (g d)) : Pairable r (C.map f) (D.map g) := by
  obtain ⟨pairs, h⟩ := h
  refine ⟨pairs.map fun p => (f p.1, g p.2), ?_, ?_, ?_⟩
  · rw [h.left]
    simp
  · rw [h.right]
    simp
  · intro p hp
    obtain ⟨q, hq, rfl⟩ := Multiset.mem_map.mp hp
    apply hsr _ _ _ _ (h.sound q hq)
    · rw [h.left, add_zero]
      exact Multiset.mem_map_of_mem _ hq
    · rw [h.right, add_zero]
      exact Multiset.mem_map_of_mem _ hq

end Images

section Balance

open Classical in
/-- Whichever elements of `A` are picked, `B` has at least as many partners for them. -/
def Balanced (r : α → β → Prop) (A : Multiset α) (B : Multiset β) : Prop :=
  A.card = B.card ∧
    ∀ picked : α → Prop, A.countP picked ≤ B.countP fun b => ∃ a ∈ A, picked a ∧ r a b

open Classical in
theorem countP_le_countP (s : Multiset α) {p q : α → Prop} (h : ∀ a ∈ s, p a → q a) :
    s.countP p ≤ s.countP q := by
  rw [Multiset.countP_eq_card_filter, Multiset.countP_eq_card_filter]
  apply Multiset.card_le_card
  rw [Multiset.le_filter]
  refine ⟨Multiset.filter_le p s, fun a ha => ?_⟩
  exact h a (Multiset.mem_of_mem_filter ha) (Multiset.of_mem_filter ha)

theorem Pairable.balanced (h : Pairable r A B) : Balanced r A B := by
  classical
  obtain ⟨pairs, h⟩ := h
  have hleft := h.left
  have hright := h.right
  rw [add_zero] at hleft hright
  refine ⟨?_, fun picked => ?_⟩
  · rw [hleft, hright, Multiset.card_map, Multiset.card_map]
  · have hfst : A.countP picked = pairs.countP fun p => picked p.1 := by
      rw [hleft, Multiset.countP_map, Multiset.countP_eq_card_filter]
    have hsnd : (B.countP fun b => ∃ a ∈ A, picked a ∧ r a b) =
        pairs.countP fun p => ∃ a ∈ A, picked a ∧ r a p.2 := by
      rw [hright, Multiset.countP_map, Multiset.countP_eq_card_filter]
    rw [hfst, hsnd]
    apply countP_le_countP
    intro p hp hpicked
    refine ⟨p.1, ?_, hpicked, h.sound p hp⟩
    rw [hleft]
    exact Multiset.mem_map_of_mem _ hp

open Classical in
/-- Occurrences of an element are told apart by their number. -/
theorem countP_eq_card_occurrences (s : Multiset α) (p : α → Prop) :
    s.countP p = (Finset.univ.filter fun x : s => p x).card := by
  have hself := Multiset.map_univ_coe s
  calc s.countP p = ((Finset.univ : Finset s).val.map fun x : s => (x : α)).countP p := by
        rw [hself]
    _ = (Finset.univ.filter fun x : s => p x).card := by
        rw [Multiset.countP_map]
        rfl

/-- The marriage theorem for bags. -/
theorem Balanced.pairable (h : Balanced r A B) : Pairable r A B := by
  classical
  obtain ⟨hcard, hpicked⟩ := h
  have hmarry : ∀ s : Finset A,
      s.card ≤ (s.biUnion fun a => Finset.univ.filter fun b : B => r a b).card := by
    intro s
    obtain ⟨picked, hiff⟩ : ∃ picked : α → Prop, ∀ a, picked a ↔ ∃ x ∈ s, (x : α) = a :=
      ⟨_, fun _ => Iff.rfl⟩
    have hmore := hpicked picked
    rw [countP_eq_card_occurrences, countP_eq_card_occurrences] at hmore
    refine (Finset.card_le_card ?_).trans (hmore.trans (Finset.card_le_card ?_))
    · intro x hx
      exact Finset.mem_filter.mpr ⟨Finset.mem_univ x, (hiff x).mpr ⟨x, hx, rfl⟩⟩
    · intro b hb
      obtain ⟨-, a, -, hpick, hr⟩ := Finset.mem_filter.mp hb
      obtain ⟨x, hx, rfl⟩ := (hiff a).mp hpick
      exact Finset.mem_biUnion.mpr ⟨x, hx, Finset.mem_filter.mpr ⟨Finset.mem_univ b, hr⟩⟩
  obtain ⟨f, hf, hr⟩ := (Finset.all_card_le_biUnion_card_iff_exists_injective _).mp hmarry
  have hbijective : Function.Bijective f := by
    rw [Fintype.bijective_iff_injective_and_card]
    exact ⟨hf, by rw [Multiset.card_coe, Multiset.card_coe, hcard]⟩
  refine ⟨(Finset.univ : Finset A).val.map fun x : A => ((x : α), (f x : β)), ?_, ?_, ?_⟩
  · rw [add_zero, Multiset.map_map]
    exact (Multiset.map_univ_coe A).symm
  · have himage : (Finset.univ : Finset A).val.map f = (Finset.univ : Finset B).val := by
      rw [← Finset.map_univ_equiv (Equiv.ofBijective f hbijective)]
      rfl
    rw [add_zero, Multiset.map_map]
    calc B = (Finset.univ : Finset B).val.map fun y : B => (y : β) :=
          (Multiset.map_univ_coe B).symm
      _ = (Finset.univ : Finset A).val.map (fun x : A => (f x : β)) := by
          rw [← himage, Multiset.map_map]
          rfl
  · intro p hp
    obtain ⟨x, -, rfl⟩ := Multiset.mem_map.mp hp
    exact (Finset.mem_filter.mp (hr x)).2

theorem pairable_iff_balanced : Pairable r A B ↔ Balanced r A B :=
  ⟨Pairable.balanced, Balanced.pairable⟩

end Balance

/-- Pairs that agree on two properties carry as many of the one as of the other. -/
theorem Paired.countP_eq (h : Paired r A B pairs A' B') (p : α → Prop) (q : β → Prop)
    [DecidablePred p] [DecidablePred q]
    (hpq : ∀ a ∈ A, ∀ b ∈ B, r a b → (p a ↔ q b)) :
    A.countP p + B'.countP q = B.countP q + A'.countP p := by
  have hpairs : (pairs.map Prod.fst).countP p = (pairs.map Prod.snd).countP q := by
    rw [Multiset.countP_map, Multiset.countP_map, ← Multiset.countP_eq_card_filter,
      ← Multiset.countP_eq_card_filter]
    refine Multiset.countP_congr rfl fun e he => propext (hpq _ ?_ _ ?_ (h.sound e he))
    · rw [h.left]
      exact Multiset.mem_add.mpr (.inl (Multiset.mem_map_of_mem _ he))
    · rw [h.right]
      exact Multiset.mem_add.mpr (.inl (Multiset.mem_map_of_mem _ he))
  rw [h.left, h.right, Multiset.countP_add, Multiset.countP_add, hpairs]
  omega

/-- No pair of what is left over is along `r`. -/
def Stuck (r : α → β → Prop) (A' : Multiset α) (B' : Multiset β) : Prop :=
  ∀ a ∈ A', ∀ b ∈ B', ¬ r a b

theorem Stuck.flip (h : Stuck r A' B') : Stuck (flip r) B' A' :=
  fun b hb a ha => h a ha b hb

/--
What shares a partner with a left-over `a` has exactly the partners of `a`, so a full pairing
gives them equal numbers; a pairing with `a` left over leaves a partner of `a` over as well.
-/
theorem Unchained.left_eq_zero (hchain : Unchained r A B) (hfull : Pairable r A B)
    (h : Paired r A B pairs A' B') (hstuck : Stuck r A' B') : A' = 0 := by
  classical
  rw [Multiset.eq_zero_iff_forall_notMem]
  intro a ha'
  have ha : a ∈ A := by
    rw [h.left]
    exact Multiset.mem_add.mpr (.inr ha')
  let sibling : α → Prop := fun b => ∃ x ∈ B, r a x ∧ r b x
  have hiff : ∀ b ∈ A, ∀ y ∈ B, r b y → (sibling b ↔ r a y) := by
    intro b hb y hy hby
    constructor
    · rintro ⟨x, hx, hax, hbx⟩
      exact hchain a ha b hb x hx y hy hax hbx hby
    · intro hay
      exact ⟨y, hy, hay, hby⟩
  obtain ⟨pairs₀, h₀⟩ := hfull
  have hsibling : sibling a := by
    have hmem : a ∈ pairs₀.map Prod.fst := by
      have := h₀.left ▸ ha
      simpa only [add_zero] using this
    obtain ⟨e, he, rfl⟩ := Multiset.mem_map.mp hmem
    refine ⟨e.2, ?_, h₀.sound e he, h₀.sound e he⟩
    rw [h₀.right, add_zero]
    exact Multiset.mem_map_of_mem _ he
  have hcount := h.countP_eq sibling (r a) hiff
  have hcount₀ := h₀.countP_eq sibling (r a) hiff
  have hpos : 0 < A'.countP sibling := Multiset.countP_pos.mpr ⟨a, ha', hsibling⟩
  simp only [Multiset.countP_zero, add_zero] at hcount₀
  have hleft : 0 < B'.countP (r a) := by omega
  obtain ⟨x, hx, hax⟩ := Multiset.countP_pos.mp hleft
  exact hstuck a ha' x hx hax

theorem Unchained.exhausts (hchain : Unchained r A B) (hfull : Pairable r A B)
    (h : Paired r A B pairs A' B') (hstuck : Stuck r A' B') : A' = 0 ∧ B' = 0 :=
  ⟨hchain.left_eq_zero hfull h hstuck,
    hchain.flip.left_eq_zero hfull.flip h.flip hstuck.flip⟩

end EqGen.Lib.Pairing
