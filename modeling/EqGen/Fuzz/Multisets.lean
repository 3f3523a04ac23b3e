import EqGen.Lib.Bag
import EqGen.Lib.Pairing

/-!
The two passes of `compare_multisets`, over counters of any keys: keys that both sides have are
consumed first, then keys that a comparison takes for close. The comparison may raise.
-/

namespace EqGen.Fuzz.Multisets

open EqGen.Lib.Bag
open EqGen.Lib.Pairing

variable {ρ ε : Type} [DecidableEq ρ]

/--
The two arguments, the two copies that are consumed, and the tally of tolerated rows. The
comparisons made and the pairs taken are recorded for the proofs; no step looks at them.
-/
structure Consumption (ρ : Type) where
  base : Counter ρ
  other : Counter ρ
  missing : Counter ρ
  extra : Counter ρ
  reconciled : Nat := 0
  asked : List (ρ × ρ) := []
  pairs : Multiset (ρ × ρ) := 0

namespace Consumption

/-- `Counter(base)` and `Counter(other)` are copies. -/
def start (base other : Counter ρ) : Consumption ρ where
  base := base
  other := other
  missing := base
  extra := other

/-- Take `shared` copies of a row out of either side. -/
def take (w : Consumption ρ) (baseRow otherRow : ρ) (shared : Nat) : Consumption ρ :=
  { w with
    missing := w.missing.consume baseRow shared
    extra := w.extra.consume otherRow shared
    pairs := w.pairs + Multiset.replicate shared (baseRow, otherRow) }

def ask (w : Consumption ρ) (baseRow otherRow : ρ) : Consumption ρ :=
  { w with asked := w.asked ++ [(baseRow, otherRow)] }

end Consumption

/-- One turn of the exact pass. -/
def consumeExact (w : Consumption ρ) (entry : ρ × Nat) : Consumption ρ :=
  let shared := min entry.2 (w.extra.get entry.1)
  if shared ≠ 0 then w.take entry.1 entry.1 shared else w

/-- The exact pass, over a snapshot of the base's entries. -/
def exactPass (w : Consumption ρ) : Consumption ρ :=
  w.missing.items.foldl consumeExact w

/-- Pair one base row with the entries of the other side's snapshot, until it is used up. -/
def consumeClose (close : ρ → ρ → Except ε Bool) (baseRow : ρ) :
    Consumption ρ → List (ρ × Nat) → Except ε (Consumption ρ)
  | w, [] => .ok w
  | w, (otherRow, otherCount) :: snapshot =>
      if otherCount = 0 ∨ otherRow = baseRow then consumeClose close baseRow w snapshot
      else do
        let w := w.ask baseRow otherRow
        if (← close baseRow otherRow) = false then consumeClose close baseRow w snapshot
        else
          let shared := min (w.missing.get baseRow) (w.extra.get otherRow)
          if shared = 0 then consumeClose close baseRow w snapshot
          else
            let taken : Consumption ρ :=
              { w.take baseRow otherRow shared with reconciled := w.reconciled + shared }
            if taken.missing.get baseRow = 0 then .ok taken
            else consumeClose close baseRow taken snapshot

example (close : ρ → ρ → Except ε Bool) (b : ρ) (w : Consumption ρ) :
    consumeClose close b w [] = .ok w := by
  rw [consumeClose]

/-- One turn of the approximate pass. -/
def consumeRow (close : ρ → ρ → Except ε Bool) (w : Consumption ρ) (entry : ρ × Nat) :
    Except ε (Consumption ρ) :=
  if entry.2 = 0 then .ok w else consumeClose close entry.1 w w.extra.items

/-- The approximate pass, over a snapshot of the base's entries. -/
def approximatePass (close : ρ → ρ → Except ε Bool) (w : Consumption ρ) :
    Except ε (Consumption ρ) :=
  w.missing.items.foldlM (consumeRow close) w

/-- Both passes. -/
def consumeAll (close : ρ → ρ → Except ε Bool) (base other : Counter ρ) :
    Except ε (Consumption ρ) :=
  approximatePass close (exactPass (Consumption.start base other))

section Accounting

variable {close : ρ → ρ → Except ε Bool}

/-- Two rows that one of the passes may pair. -/
def Agree (close : ρ → ρ → Except ε Bool) (b o : ρ) : Prop :=
  b = o ∨ close b o = .ok true

/--
The pairs taken so far make up either argument with what is left, both arguments are as they
were, and the tally counts the pairs of unequal rows.
-/
structure Accounts (close : ρ → ρ → Except ε Bool) (base other : Counter ρ)
    (w : Consumption ρ) : Prop where
  base_eq : w.base = base
  other_eq : w.other = other
  paired : Paired (Agree close) base.bag other.bag w.pairs w.missing.bag w.extra.bag
  reconciled : w.reconciled = w.pairs.countP fun p => p.1 ≠ p.2

/-- A step of either pass: some pairs more, counts only lower. -/
structure Step (close : ρ → ρ → Except ε Bool) (w w' : Consumption ρ) : Prop where
  accounts : ∀ base other, Accounts close base other w → Accounts close base other w'
  pairs : ∃ more, w'.pairs = w.pairs + more
  missing_le : ∀ a, w'.missing.get a ≤ w.missing.get a
  extra_le : ∀ a, w'.extra.get a ≤ w.extra.get a

theorem Step.refl (w : Consumption ρ) : Step close w w :=
  ⟨fun _ _ h => h, ⟨0, (add_zero _).symm⟩, fun _ => le_rfl, fun _ => le_rfl⟩

theorem Step.trans {w w' w'' : Consumption ρ} (h : Step close w w') (h' : Step close w' w'') :
    Step close w w'' := by
  refine ⟨fun base other hw => h'.accounts base other (h.accounts base other hw), ?_,
    fun a => (h'.missing_le a).trans (h.missing_le a),
    fun a => (h'.extra_le a).trans (h.extra_le a)⟩
  obtain ⟨more, hmore⟩ := h.pairs
  obtain ⟨more', hmore'⟩ := h'.pairs
  exact ⟨more + more', by rw [hmore', hmore, add_assoc]⟩

/-- A comparison alone changes nothing that is counted. -/
theorem Step.ask (w : Consumption ρ) (b o : ρ) : Step close w (w.ask b o) :=
  ⟨fun _ _ h => ⟨h.base_eq, h.other_eq, h.paired, h.reconciled⟩, ⟨0, (add_zero _).symm⟩,
    fun _ => le_rfl, fun _ => le_rfl⟩

theorem get_consume_le (c : Counter ρ) (a b : ρ) (n : Nat) :
    (c.consume b n).get a ≤ c.get a := by
  rw [Counter.get_consume]
  split
  · exact Nat.sub_le _ _
  · exact le_rfl

/-- Taking equal rows from either side leaves the tally. -/
theorem Step.take_equal {w : Consumption ρ} {a : ρ} {n : Nat} (hmissing : n ≤ w.missing.get a)
    (hextra : n ≤ w.extra.get a) : Step close w (w.take a a n) := by
  refine ⟨?_, ⟨_, rfl⟩, fun b => get_consume_le _ b a n, fun b => get_consume_le _ b a n⟩
  intro base other h
  refine ⟨h.base_eq, h.other_eq, ?_, ?_⟩
  · exact h.paired.take (.inl rfl) (Counter.bag_consume hmissing) (Counter.bag_consume hextra)
  · have hnone : (Multiset.replicate n (a, a)).countP (fun p => p.1 ≠ p.2) = 0 := by
      rw [Multiset.countP_eq_zero]
      intro p hp
      rw [Multiset.eq_of_mem_replicate hp]
      simp
    show w.reconciled = (w.pairs + Multiset.replicate n (a, a)).countP _
    rw [Multiset.countP_add, hnone, h.reconciled, add_zero]

/-- Taking two close rows adds their number to the tally. -/
theorem Step.take_close {w : Consumption ρ} {b o : ρ} {n : Nat} (hne : b ≠ o)
    (hclose : close b o = .ok true) (hmissing : n ≤ w.missing.get b) (hextra : n ≤ w.extra.get o) :
    Step close w { w.take b o n with reconciled := w.reconciled + n } := by
  refine ⟨?_, ⟨_, rfl⟩, fun a => get_consume_le _ a b n, fun a => get_consume_le _ a o n⟩
  intro base other h
  refine ⟨h.base_eq, h.other_eq, ?_, ?_⟩
  · exact h.paired.take (.inr hclose) (Counter.bag_consume hmissing) (Counter.bag_consume hextra)
  · have hall : (Multiset.replicate n (b, o)).countP (fun p => p.1 ≠ p.2) = n := by
      rw [Multiset.countP_eq_card.mpr, Multiset.card_replicate]
      intro p hp
      rw [Multiset.eq_of_mem_replicate hp]
      exact hne
    show w.reconciled + n = (w.pairs + Multiset.replicate n (b, o)).countP _
    rw [Multiset.countP_add, hall, h.reconciled]

theorem accounts_start (base other : Counter ρ) :
    Accounts close base other (Consumption.start base other) :=
  ⟨rfl, rfl, ⟨by simp [Consumption.start], by simp [Consumption.start], by simp
    [Consumption.start]⟩, rfl⟩

end Accounting

section Exact

theorem step_consumeExact (close : ρ → ρ → Except ε Bool) {w : Consumption ρ} {entry : ρ × Nat}
    (h : entry.2 ≤ w.missing.get entry.1) : Step close w (consumeExact w entry) := by
  unfold consumeExact
  simp only
  split
  · exact Step.take_equal ((min_le_left _ _).trans h) (min_le_right _ _)
  · exact Step.refl w

theorem missing_consumeExact_of_ne {w : Consumption ρ} {entry : ρ × Nat} {a : ρ}
    (h : a ≠ entry.1) : (consumeExact w entry).missing.get a = w.missing.get a := by
  unfold consumeExact
  simp only
  split
  · exact (Counter.get_consume _ _ _ _).trans (if_neg h)
  · rfl

theorem consumeExact_settles {w : Consumption ρ} {entry : ρ × Nat}
    (h : w.missing.get entry.1 = entry.2) :
    (consumeExact w entry).missing.get entry.1 = 0 ∨
      (consumeExact w entry).extra.get entry.1 = 0 := by
  unfold consumeExact
  simp only
  split
  · rw [Consumption.take, Counter.get_consume, Counter.get_consume, if_pos rfl, if_pos rfl, h]
    omega
  · next hshared =>
      rw [h]
      omega

/-- The exact pass over entries that still have their full counts. -/
theorem exactPass_entries (close : ρ → ρ → Except ε Bool) {entries : List (ρ × Nat)}
    (hnodup : (entries.map Prod.fst).Nodup) {w : Consumption ρ}
    (hfull : ∀ e ∈ entries, w.missing.get e.1 = e.2) :
    Step close w (entries.foldl consumeExact w) ∧
      ∀ e ∈ entries, (entries.foldl consumeExact w).missing.get e.1 = 0 ∨
        (entries.foldl consumeExact w).extra.get e.1 = 0 := by
  induction entries generalizing w with
  | nil => exact ⟨Step.refl w, by simp⟩
  | cons e entries ih =>
      rw [List.map_cons, List.nodup_cons] at hnodup
      have he := hfull e List.mem_cons_self
      have hstep : Step close w (consumeExact w e) := step_consumeExact close he.ge
      have hrest : ∀ e' ∈ entries, (consumeExact w e).missing.get e'.1 = e'.2 := by
        intro e' he'
        rw [missing_consumeExact_of_ne, hfull e' (List.mem_cons_of_mem _ he')]
        intro heq
        exact hnodup.1 (heq ▸ List.mem_map.mpr ⟨e', he', rfl⟩)
      obtain ⟨htail, hsettled⟩ := ih hnodup.2 hrest
      refine ⟨hstep.trans htail, ?_⟩
      intro e' he'
      rcases List.mem_cons.mp he' with rfl | he'
      · refine (consumeExact_settles he).imp ?_ ?_
        · exact fun h => Nat.le_zero.mp (h ▸ htail.missing_le e'.1)
        · exact fun h => Nat.le_zero.mp (h ▸ htail.extra_le e'.1)
      · exact hsettled e' he'

/-- The exact pass leaves no row on both sides. -/
theorem exactPass_spec (close : ρ → ρ → Except ε Bool) (w : Consumption ρ) :
    Step close w (exactPass w) ∧
      ∀ a, (exactPass w).missing.get a = 0 ∨ (exactPass w).extra.get a = 0 := by
  obtain ⟨hstep, hsettled⟩ := exactPass_entries close w.missing.nodup
    fun e he => Counter.get_of_mem he
  refine ⟨hstep, fun a => ?_⟩
  by_cases ha : 0 < w.missing.get a
  · exact hsettled _ (Counter.mem_items_of_pos ha)
  · refine .inl (Nat.le_zero.mp ((hstep.missing_le a).trans ?_))
    omega

theorem asked_exactPass (w : Consumption ρ) : (exactPass w).asked = w.asked := by
  have hfold : ∀ (entries : List (ρ × Nat)) (w : Consumption ρ),
      (entries.foldl consumeExact w).asked = w.asked := by
    intro entries
    induction entries with
    | nil => exact fun w => rfl
    | cons entry entries ih =>
        intro w
        rw [List.foldl_cons, ih]
        unfold consumeExact
        simp only
        split <;> rfl
  exact hfold _ w

variable (base other : Counter ρ)

/-- The exact pass leaves the rows that are not on both sides. -/
theorem exactPass_leaves :
    (exactPass (Consumption.start base other)).missing.bag = base.bag - other.bag ∧
      (exactPass (Consumption.start base other)).extra.bag = other.bag - base.bag := by
  -- Pairs of a closeness that nothing meets are pairs of equal rows.
  let never : ρ → ρ → Except Unit Bool := fun _ _ => .ok false
  obtain ⟨hstep, happart⟩ := exactPass_spec never (Consumption.start base other)
  have h := (hstep.accounts base other (accounts_start base other)).paired
  set w := exactPass (Consumption.start base other)
  have hpairs : w.pairs.map Prod.fst = w.pairs.map Prod.snd := by
    refine Multiset.map_congr rfl fun p hp => ?_
    simpa [Agree, never] using h.sound p hp
  have hcount (a : ρ) : base.get a = (w.pairs.map Prod.snd).count a + w.missing.get a := by
    rw [← Counter.count_bag, h.left, hpairs, Multiset.count_add, Counter.count_bag]
  have hcount' (a : ρ) : other.get a = (w.pairs.map Prod.snd).count a + w.extra.get a := by
    rw [← Counter.count_bag, h.right, Multiset.count_add, Counter.count_bag]
  constructor
  · ext a
    rw [Multiset.count_sub, Counter.count_bag, Counter.count_bag, Counter.count_bag, hcount,
      hcount']
    rcases happart a with h | h <;> omega
  · ext a
    rw [Multiset.count_sub, Counter.count_bag, Counter.count_bag, Counter.count_bag, hcount,
      hcount']
    rcases happart a with h | h <;> omega

end Exact

section Approximate

variable {close : ρ → ρ → Except ε Bool}

/-- Nothing of the two rows is left to pair. -/
def Settled (close : ρ → ρ → Except ε Bool) (w : Consumption ρ) (b o : ρ) : Prop :=
  w.missing.get b = 0 ∨ w.extra.get o = 0 ∨ o = b ∨ close b o = .ok false

theorem Settled.step {w w' : Consumption ρ} {b o : ρ} (h : Settled close w b o)
    (hstep : Step close w w') : Settled close w' b o := by
  rcases h with h | h | h | h
  · exact .inl (Nat.le_zero.mp (h ▸ hstep.missing_le b))
  · exact .inr (.inl (Nat.le_zero.mp (h ▸ hstep.extra_le o)))
  · exact .inr (.inr (.inl h))
  · exact .inr (.inr (.inr h))

/-- What a turn of the inner loop does once the comparison has answered. -/
theorem consumeClose_cons {b o : ρ} {n : Nat} {snapshot : List (ρ × Nat)} {w : Consumption ρ}
    (h : ¬(n = 0 ∨ o = b)) {result : Bool} (hclose : close b o = .ok result) :
    consumeClose close b w ((o, n) :: snapshot) =
      if result = false then consumeClose close b (w.ask b o) snapshot
      else if min (w.missing.get b) (w.extra.get o) = 0 then
        consumeClose close b (w.ask b o) snapshot
      else
        let taken : Consumption ρ := { (w.ask b o).take b o (min (w.missing.get b) (w.extra.get o))
          with reconciled := w.reconciled + min (w.missing.get b) (w.extra.get o) }
        if taken.missing.get b = 0 then .ok taken else consumeClose close b taken snapshot := by
  rw [consumeClose, if_neg h, hclose]
  rfl

theorem consumeClose_spec {b : ρ} {snapshot : List (ρ × Nat)} {w w' : Consumption ρ}
    (hsnapshot : ∀ e ∈ snapshot, w.extra.get e.1 ≤ e.2)
    (h : consumeClose close b w snapshot = .ok w') :
    Step close w w' ∧ ∀ e ∈ snapshot, Settled close w' b e.1 := by
  induction snapshot generalizing w with
  | nil =>
      obtain rfl := Except.ok.inj h
      exact ⟨Step.refl w, by simp⟩
  | cons e snapshot ih =>
      obtain ⟨o, n⟩ := e
      have hn : w.extra.get o ≤ n := hsnapshot (o, n) List.mem_cons_self
      have htail : ∀ e ∈ snapshot, w.extra.get e.1 ≤ e.2 :=
        fun e he => hsnapshot e (List.mem_cons_of_mem _ he)
      -- A turn that settles its entry goes on with the rest of the snapshot.
      have hgo {v : Consumption ρ} (hv : Step close w v) (hset : Settled close v b o)
          (hrun : consumeClose close b v snapshot = .ok w') :
          Step close w w' ∧ ∀ e ∈ (o, n) :: snapshot, Settled close w' b e.1 := by
        obtain ⟨hstep, hsettled⟩ := ih (fun e he => (hv.extra_le e.1).trans (htail e he)) hrun
        refine ⟨hv.trans hstep, fun e he => ?_⟩
        rcases List.mem_cons.mp he with rfl | he
        · exact hset.step hstep
        · exact hsettled e he
      by_cases hskip : n = 0 ∨ o = b
      · rw [consumeClose, if_pos hskip] at h
        refine hgo (Step.refl w) ?_ h
        rcases hskip with rfl | rfl
        · exact .inr (.inl (Nat.le_zero.mp hn))
        · exact .inr (.inr (.inl rfl))
      cases hclose : close b o with
      | error e =>
          rw [consumeClose, if_neg hskip, hclose] at h
          cases h
      | ok result =>
          rw [consumeClose_cons hskip hclose] at h
          split at h
          · next hfar => exact hgo (Step.ask w b o) (.inr (.inr (.inr (hfar ▸ hclose)))) h
          · next hnear =>
              rw [Bool.not_eq_false] at hnear
              split at h
              · next hshared =>
                  refine hgo (Step.ask w b o) ?_ h
                  rcases Nat.min_eq_zero_iff.mp hshared with h | h
                  · exact .inl h
                  · exact .inr (.inl h)
              · next hshared =>
                  have htake := (Step.ask w b o).trans
                    (Step.take_close (fun h => hskip (.inr h.symm)) (hnear ▸ hclose)
                      (min_le_left (w.missing.get b) (w.extra.get o)) (min_le_right _ _))
                  simp only at h
                  split at h
                  · next hused =>
                      obtain rfl := Except.ok.inj h
                      exact ⟨htake, fun e _ => .inl hused⟩
                  · next hused =>
                      refine hgo htake (.inr (.inl ?_)) h
                      have hleft : (w.missing.consume b (min (w.missing.get b)
                          (w.extra.get o))).get b ≠ 0 := hused
                      show (w.extra.consume o (min (w.missing.get b) (w.extra.get o))).get o = 0
                      rw [Counter.get_consume, if_pos rfl] at hleft ⊢
                      omega

theorem consumeRow_spec {w w' : Consumption ρ} {entry : ρ × Nat}
    (hentry : w.missing.get entry.1 ≤ entry.2) (h : consumeRow close w entry = .ok w') :
    Step close w w' ∧ ∀ o, Settled close w' entry.1 o := by
  unfold consumeRow at h
  split at h
  · next hzero =>
      obtain rfl := Except.ok.inj h
      exact ⟨Step.refl w, fun o => .inl (Nat.le_zero.mp (hzero ▸ hentry))⟩
  · obtain ⟨hstep, hsettled⟩ := consumeClose_spec (fun e he => (Counter.get_of_mem he).le) h
    refine ⟨hstep, fun o => ?_⟩
    by_cases ho : 0 < w.extra.get o
    · exact hsettled _ (Counter.mem_items_of_pos ho)
    · refine .inr (.inl (Nat.le_zero.mp ((hstep.extra_le o).trans ?_)))
      omega

theorem foldlM_cons_ok {σ α : Type} {f : σ → α → Except ε σ} {a : α} {as : List α} {s s' : σ}
    (h : (a :: as).foldlM f s = .ok s') : ∃ t, f s a = .ok t ∧ as.foldlM f t = .ok s' := by
  rw [List.foldlM_cons] at h
  cases ht : f s a with
  | error e =>
      rw [ht] at h
      cases h
  | ok t =>
      rw [ht] at h
      exact ⟨t, rfl, h⟩

theorem approximatePass_entries {entries : List (ρ × Nat)} {w w' : Consumption ρ}
    (hentries : ∀ e ∈ entries, w.missing.get e.1 ≤ e.2)
    (h : entries.foldlM (consumeRow close) w = .ok w') :
    Step close w w' ∧ ∀ e ∈ entries, ∀ o, Settled close w' e.1 o := by
  induction entries generalizing w with
  | nil =>
      obtain rfl := Except.ok.inj h
      exact ⟨Step.refl w, by simp⟩
  | cons e entries ih =>
      obtain ⟨v, hrow, hrest⟩ := foldlM_cons_ok h
      obtain ⟨hstep, hsettled⟩ := consumeRow_spec (hentries e List.mem_cons_self) hrow
      obtain ⟨htail, hothers⟩ := ih (fun e' he' =>
        (hstep.missing_le e'.1).trans (hentries e' (List.mem_cons_of_mem _ he'))) hrest
      refine ⟨hstep.trans htail, fun e' he' o => ?_⟩
      rcases List.mem_cons.mp he' with rfl | he'
      · exact (hsettled o).step htail
      · exact hothers e' he' o

theorem approximatePass_spec {w w' : Consumption ρ} (h : approximatePass close w = .ok w') :
    Step close w w' ∧ ∀ b o, Settled close w' b o := by
  obtain ⟨hstep, hsettled⟩ :=
    approximatePass_entries (fun e he => (Counter.get_of_mem he).le) h
  refine ⟨hstep, fun b o => ?_⟩
  by_cases hb : 0 < w.missing.get b
  · exact hsettled _ (Counter.mem_items_of_pos hb) o
  · refine .inl (Nat.le_zero.mp ((hstep.missing_le b).trans ?_))
    omega

end Approximate

section Both

variable {close : ρ → ρ → Except ε Bool} {base other : Counter ρ} {w : Consumption ρ}

/-- Passes that end account for both sides. -/
theorem consumeAll_accounts (h : consumeAll close base other = .ok w) :
    Accounts close base other w :=
  (approximatePass_spec h).1.accounts base other
    ((exactPass_spec close _).1.accounts base other (accounts_start base other))

/-- No row left on one side equals or is close to a row left on the other. -/
theorem consumeAll_apart (h : consumeAll close base other = .ok w) {b o : ρ}
    (hb : b ∈ w.missing.bag) (ho : o ∈ w.extra.bag) : b ≠ o ∧ close b o = .ok false := by
  rw [← Multiset.count_pos, Counter.count_bag] at hb ho
  have hexact := (exactPass_spec close (Consumption.start base other)).2
  obtain ⟨hstep, hsettled⟩ := approximatePass_spec h
  have hne : b ≠ o := by
    rintro rfl
    have hmissing := hstep.missing_le b
    have hextra := hstep.extra_le b
    have := hexact b
    omega
  refine ⟨hne, ?_⟩
  rcases hsettled b o with h | h | h | h
  · exact absurd h hb.ne'
  · exact absurd h ho.ne'
  · exact absurd h.symm hne
  · exact h

/-- The pairs are of rows on both sides, and a pairing of the rest along closeness. -/
theorem consumeAll_pairs (h : consumeAll close base other = .ok w) :
    ∃ equal more, w.pairs = equal + more ∧ (∀ p ∈ equal, p.1 = p.2) ∧
      Paired (fun b o => close b o = .ok true) (base.bag - other.bag) (other.bag - base.bag)
        more w.missing.bag w.extra.bag := by
  obtain ⟨hmissing, hextra⟩ := exactPass_leaves base other
  have hexact := (exactPass_spec close (Consumption.start base other)).1.accounts base other
    (accounts_start base other)
  have hequal := (exactPass_spec (fun _ _ => .ok false : ρ → ρ → Except ε Bool)
    (Consumption.start base other)).1.accounts base other (accounts_start base other)
  obtain ⟨more, hmore⟩ := (approximatePass_spec h).1.pairs
  have hall := (consumeAll_accounts h).paired
  rw [hmore] at hall
  have hrest := hexact.paired.rest hall
  rw [hmissing, hextra] at hrest
  refine ⟨_, more, hmore, ?_, hrest.left, hrest.right, ?_⟩
  · intro p hp
    simpa [Agree] using hequal.paired.sound p hp
  · intro p hp
    rcases hrest.sound p hp with heq | hclose
    · -- The exact pass has left no row on both sides.
      have hmem : p.1 ∈ base.bag - other.bag := by
        rw [hrest.left]
        exact Multiset.mem_add.mpr (.inl (Multiset.mem_map_of_mem _ hp))
      have hmem' : p.1 ∈ other.bag - base.bag := by
        rw [hrest.right, heq]
        exact Multiset.mem_add.mpr (.inl (Multiset.mem_map_of_mem _ hp))
      rw [Multiset.mem_sub] at hmem hmem'
      omega
    · exact hclose

/-- Without open chains a rest that can be paired off is paired off. -/
theorem consumeAll_exhausts {r : ρ → ρ → Prop} (h : consumeAll close base other = .ok w)
    (hr : ∀ b ∈ base.bag - other.bag, ∀ o ∈ other.bag - base.bag, close b o = .ok true ↔ r b o)
    (hfull : Pairable r (base.bag - other.bag) (other.bag - base.bag))
    (hchain : Unchained r (base.bag - other.bag) (other.bag - base.bag)) :
    w.missing.bag = 0 ∧ w.extra.bag = 0 := by
  obtain ⟨equal, more, -, -, hmore⟩ := consumeAll_pairs h
  have hleft : ∀ b ∈ w.missing.bag, b ∈ base.bag - other.bag := by
    intro b hb
    rw [hmore.left]
    exact Multiset.mem_add.mpr (.inr hb)
  have hright : ∀ o ∈ w.extra.bag, o ∈ other.bag - base.bag := by
    intro o ho
    rw [hmore.right]
    exact Multiset.mem_add.mpr (.inr ho)
  have hpaired : Paired r (base.bag - other.bag) (other.bag - base.bag) more w.missing.bag
      w.extra.bag := by
    refine ⟨hmore.left, hmore.right, fun p hp => (hr _ ?_ _ ?_).mp (hmore.sound p hp)⟩
    · rw [hmore.left]
      exact Multiset.mem_add.mpr (.inl (Multiset.mem_map_of_mem _ hp))
    · rw [hmore.right]
      exact Multiset.mem_add.mpr (.inl (Multiset.mem_map_of_mem _ hp))
  apply hchain.exhausts hfull hpaired
  intro b hb o ho hclose
  have hfar := (consumeAll_apart h hb ho).2
  rw [(hr b (hleft b hb) o (hright o ho)).mpr hclose] at hfar
  cases hfar

end Both

section Walk

variable (close : ρ → ρ → Except ε Bool)

/-- The comparison of the two rows answers. -/
def Answers (p : ρ × ρ) : Prop :=
  ∃ result, close p.1 p.2 = .ok result

/-- The comparison with its errors read as `False`. -/
def answered (b o : ρ) : Except Empty Bool :=
  match close b o with
  | .ok result => .ok result
  | .error _ => .ok false

/--
The run goes as the answered one does, which makes the comparisons `more` from `w` on, until one
of them raises.
-/
def Follows (w : Consumption ρ) (run : Except ε (Consumption ρ))
    (answered : Except Empty (Consumption ρ)) (more : List (ρ × ρ)) : Prop :=
  ∃ w', answered = .ok w' ∧ w'.asked = w.asked ++ more ∧
    ((∀ p ∈ more, Answers close p) → run = .ok w') ∧
      (¬(∀ p ∈ more, Answers close p) → ∃ e, run = .error e)

variable {close}

omit [DecidableEq ρ] in
theorem Follows.nil (w : Consumption ρ) : Follows close w (.ok w) (.ok w) [] :=
  ⟨w, rfl, (List.append_nil _).symm, fun _ => rfl, fun h => absurd (List.forall_mem_nil _) h⟩

omit [DecidableEq ρ] in
/-- A run that has come to `v` by comparisons that answered. -/
theorem Follows.after {w v : Consumption ρ} {run : Except ε (Consumption ρ)}
    {run' : Except Empty (Consumption ρ)} {first more : List (ρ × ρ)}
    (hv : v.asked = w.asked ++ first) (hfirst : ∀ p ∈ first, Answers close p)
    (h : Follows close v run run' more) : Follows close w run run' (first ++ more) := by
  obtain ⟨w', hw', hasked, hok, herror⟩ := h
  refine ⟨w', hw', ?_, ?_, ?_⟩
  · rw [hasked, hv, List.append_assoc]
  · exact fun hall => hok (List.forall_mem_append.mp hall).2
  · exact fun hall => herror fun hmore => hall (List.forall_mem_append.mpr ⟨hfirst, hmore⟩)

omit [DecidableEq ρ] in
theorem Follows.bind {w : Consumption ρ} {run : Except ε (Consumption ρ)}
    {run' : Except Empty (Consumption ρ)} {first : List (ρ × ρ)}
    {next : Consumption ρ → Except ε (Consumption ρ)}
    {next' : Consumption ρ → Except Empty (Consumption ρ)} {P : ρ × ρ → Prop}
    (h : Follows close w run run' first) (hfirst : ∀ p ∈ first, P p)
    (hnext : ∀ v, run' = .ok v → ∃ more, (∀ p ∈ more, P p) ∧
      Follows close v (next v) (next' v) more) :
    ∃ more, (∀ p ∈ more, P p) ∧ Follows close w (run >>= next) (run' >>= next') more := by
  obtain ⟨v, hv, hasked, hok, herror⟩ := h
  obtain ⟨more, hmore, hfollows⟩ := hnext v hv
  refine ⟨first ++ more, List.forall_mem_append.mpr ⟨hfirst, hmore⟩, ?_⟩
  rw [hv]
  by_cases hanswers : ∀ p ∈ first, Answers close p
  · rw [hok hanswers]
    exact hfollows.after hasked hanswers
  · obtain ⟨e, he⟩ := herror hanswers
    obtain ⟨w', hw', hasked', -, -⟩ := hfollows
    refine ⟨w', hw', ?_, ?_, ?_⟩
    · rw [hasked', hasked, List.append_assoc]
    · exact fun hall => absurd (List.forall_mem_append.mp hall).1 hanswers
    · intro _
      rw [he]
      exact ⟨e, rfl⟩

theorem consumeClose_follows (b : ρ) (snapshot : List (ρ × Nat)) (w : Consumption ρ) :
    ∃ more, (∀ p ∈ more, p.1 = b ∧ ∃ n ≠ 0, (p.2, n) ∈ snapshot) ∧
      Follows close w (consumeClose close b w snapshot)
        (consumeClose (answered close) b w snapshot) more := by
  induction snapshot generalizing w with
  | nil => exact ⟨[], List.forall_mem_nil _, Follows.nil w⟩
  | cons e snapshot ih =>
      obtain ⟨o, n⟩ := e
      -- The comparisons of the rest of the snapshot, from any state.
      have hrest (v : Consumption ρ) : ∃ more,
          (∀ p ∈ more, p.1 = b ∧ ∃ m ≠ 0, (p.2, m) ∈ (o, n) :: snapshot) ∧
            Follows close v (consumeClose close b v snapshot)
              (consumeClose (answered close) b v snapshot) more := by
        obtain ⟨more, hmore, hfollows⟩ := ih v
        refine ⟨more, fun p hp => ?_, hfollows⟩
        obtain ⟨hb, m, hm, hmem⟩ := hmore p hp
        exact ⟨hb, m, hm, List.mem_cons_of_mem _ hmem⟩
      by_cases hskip : n = 0 ∨ o = b
      · rw [consumeClose, consumeClose, if_pos hskip, if_pos hskip]
        exact hrest w
      have hpair : ∀ p ∈ [(b, o)], p.1 = b ∧ ∃ m ≠ 0, (p.2, m) ∈ (o, n) :: snapshot := by
        rintro p hp
        rw [List.mem_singleton.mp hp]
        exact ⟨rfl, n, fun h => hskip (.inl h), List.mem_cons_self⟩
      cases hclose : close b o with
      | error e =>
          -- The comparison that raises comes first; the answered run goes on.
          have hfalse : answered close b o = .ok false := by rw [answered, hclose]
          obtain ⟨more, hmore, w', hw', hasked, -, -⟩ := hrest (w.ask b o)
          have hraises : ¬ Answers close (b, o) := by
            rintro ⟨result, hresult⟩
            rw [hclose] at hresult
            cases hresult
          refine ⟨(b, o) :: more, List.forall_mem_cons.mpr ⟨hpair _ (List.mem_singleton_self _),
            hmore⟩, w', ?_, ?_, ?_, ?_⟩
          · rw [consumeClose_cons hskip hfalse, if_pos rfl]
            exact hw'
          · rw [hasked, Consumption.ask, List.append_assoc, List.singleton_append]
          · exact fun hall => absurd (hall _ List.mem_cons_self) hraises
          · intro _
            rw [consumeClose, if_neg hskip, hclose]
            exact ⟨e, rfl⟩
      | ok result =>
          have hanswer : answered close b o = .ok result := by rw [answered, hclose]
          have hanswers : ∀ p ∈ [(b, o)], Answers close p := by
            rintro p hp
            rw [List.mem_singleton.mp hp]
            exact ⟨result, hclose⟩
          -- After an answer both runs are in one state, and one comparison further.
          have hgo {v : Consumption ρ} {run : Except ε (Consumption ρ)}
              {run' : Except Empty (Consumption ρ)} (hv : v.asked = w.asked ++ [(b, o)])
              (h : ∃ more, (∀ p ∈ more, p.1 = b ∧ ∃ m ≠ 0, (p.2, m) ∈ (o, n) :: snapshot) ∧
                Follows close v run run' more) :
              ∃ more, (∀ p ∈ more, p.1 = b ∧ ∃ m ≠ 0, (p.2, m) ∈ (o, n) :: snapshot) ∧
                Follows close w run run' more := by
            obtain ⟨more, hmore, hfollows⟩ := h
            exact ⟨(b, o) :: more, List.forall_mem_append.mpr ⟨hpair, hmore⟩,
              hfollows.after hv hanswers⟩
          rw [consumeClose_cons hskip hclose, consumeClose_cons hskip hanswer]
          split
          · exact hgo rfl (hrest _)
          · split
            · exact hgo rfl (hrest _)
            · simp only
              split
              · exact hgo (by rfl) ⟨[], List.forall_mem_nil _, Follows.nil _⟩
              · exact hgo (by rfl) (hrest _)

theorem consumeRow_follows (entry : ρ × Nat) (w : Consumption ρ) :
    ∃ more, (∀ p ∈ more, p.1 = entry.1 ∧ entry.2 ≠ 0 ∧ 0 < w.extra.get p.2) ∧
      Follows close w (consumeRow close w entry) (consumeRow (answered close) w entry) more := by
  unfold consumeRow
  split
  · exact ⟨[], List.forall_mem_nil _, Follows.nil w⟩
  · next hentry =>
      obtain ⟨more, hmore, hfollows⟩ := consumeClose_follows entry.1 w.extra.items w
      refine ⟨more, fun p hp => ?_, hfollows⟩
      obtain ⟨hb, n, hn, hmem⟩ := hmore p hp
      exact ⟨hb, hentry, by rw [Counter.get_of_mem hmem]; omega⟩

theorem foldlM_consumeRow_follows (entries : List (ρ × Nat)) (w : Consumption ρ)
    (hentries : ∀ e ∈ entries, w.missing.get e.1 ≤ e.2) :
    ∃ more, (∀ p ∈ more, (∃ n ≠ 0, (p.1, n) ∈ entries) ∧ 0 < w.extra.get p.2) ∧
      Follows close w (entries.foldlM (consumeRow close) w)
        (entries.foldlM (consumeRow (answered close)) w) more := by
  induction entries generalizing w with
  | nil => exact ⟨[], List.forall_mem_nil _, Follows.nil w⟩
  | cons e entries ih =>
      obtain ⟨first, hfirst, hfollows⟩ := @consumeRow_follows _ _ _ close e w
      rw [List.foldlM_cons, List.foldlM_cons]
      refine hfollows.bind (fun p hp => ?_) fun v hv => ?_
      · obtain ⟨hb, he, ho⟩ := hfirst p hp
        exact ⟨⟨e.2, he, by rw [hb]; exact List.mem_cons_self⟩, ho⟩
      · obtain ⟨hstep, -⟩ := consumeRow_spec (hentries e List.mem_cons_self) hv
        obtain ⟨more, hmore, hrest⟩ := ih v fun e' he' =>
          (hstep.missing_le e'.1).trans (hentries e' (List.mem_cons_of_mem _ he'))
        refine ⟨more, fun p hp => ?_, hrest⟩
        obtain ⟨⟨n, hn, hmem⟩, ho⟩ := hmore p hp
        exact ⟨⟨n, hn, List.mem_cons_of_mem _ hmem⟩, ho.trans_le (hstep.extra_le p.2)⟩

variable (close) in
/-- Both passes where every comparison answers. -/
def walk (base other : Counter ρ) : Consumption ρ :=
  match consumeAll (answered close) base other with
  | .ok w => w
  | .error e => e.elim

/--
The passes end in the state of the walk if all the comparisons on it answer, and else raise. The
walk only compares rows that one side has more often than the other.
-/
theorem consumeAll_follows (base other : Counter ρ) :
    (∀ p ∈ (walk close base other).asked,
        p.1 ∈ base.bag - other.bag ∧ p.2 ∈ other.bag - base.bag) ∧
      ((∀ p ∈ (walk close base other).asked, Answers close p) →
        consumeAll close base other = .ok (walk close base other)) ∧
      (¬(∀ p ∈ (walk close base other).asked, Answers close p) →
        ∃ e, consumeAll close base other = .error e) := by
  obtain ⟨hmissing, hextra⟩ := exactPass_leaves base other
  set exact := exactPass (Consumption.start base other) with hexact
  have hasked : exact.asked = [] := asked_exactPass _
  obtain ⟨more, hmore, w, hw, hall, hok, herror⟩ :=
    @foldlM_consumeRow_follows _ _ _ close exact.missing.items exact
      fun e he => (Counter.get_of_mem he).le
  have hwalk : walk close base other = w := by
    rw [walk, consumeAll, approximatePass, ← hexact, hw]
  rw [hasked, List.nil_append] at hall
  rw [hwalk, hall]
  refine ⟨fun p hp => ?_, hok, herror⟩
  obtain ⟨⟨n, hn, hmem⟩, ho⟩ := hmore p hp
  rw [← hmissing, ← hextra, ← Multiset.count_pos, ← Multiset.count_pos, Counter.count_bag,
    Counter.count_bag, Counter.get_of_mem hmem]
  exact ⟨Nat.pos_of_ne_zero hn, ho⟩

/-- Where the passes end, they have taken the walk. -/
theorem consumeAll_ok_iff {base other : Counter ρ} {w : Consumption ρ} :
    consumeAll close base other = .ok w ↔
      w = walk close base other ∧ ∀ p ∈ (walk close base other).asked, Answers close p := by
  obtain ⟨-, hok, herror⟩ := @consumeAll_follows _ _ _ close base other
  constructor
  · intro h
    have hanswers : ∀ p ∈ (walk close base other).asked, Answers close p := by
      by_contra hnot
      obtain ⟨e, he⟩ := herror hnot
      rw [h] at he
      cases he
    exact ⟨Except.ok.inj (h.symm.trans (hok hanswers)), hanswers⟩
  · rintro ⟨rfl, hanswers⟩
    exact hok hanswers

end Walk

end EqGen.Fuzz.Multisets
