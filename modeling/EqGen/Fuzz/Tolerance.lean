import EqGen.Fuzz.Tally

/-!
What the tolerance of `compare_multisets` lets through: rows that differ in cells that are
neither equal nor noise of floating point.
-/

namespace EqGen.Fuzz.Tolerance

open EqGen.Fuzz.Compare
open EqGen.Fuzz.Frozen
open EqGen.Fuzz.Multisets
open EqGen.Fuzz.Tally
open EqGen.Lib.Bag
open EqGen.Lib.Pairing
open EqGen.Lib.Trees

/-- A number, text that spells one, or the sentinel of a float that is not finite. -/
def isNumber : Value → Bool
  | .leaf (.int _) | .leaf (.float _) | .leaf (.decimal _) => true
  | .leaf (.infiniteDecimal _) | .leaf (.undefinedDecimal _) => true
  | .leaf (.text value) => (numberOfText value).isSome
  | value => value = nanSentinel ∨ value = infSentinel true ∨ value = infSentinel false

/-- A number that may carry the noise of floating point. -/
def isFloatLike : Value → Bool
  | .leaf (.int _) => false
  | value => isNumber value

/-- Cells that may be paired: the same value of the same kind, or float noise. -/
def Honest (left right : Value) : Prop :=
  left = right ∨ isNumber left ∧ isNumber right ∧ (isFloatLike left ∨ isFloatLike right)

def HonestRows : Row → Row → Prop :=
  List.Forall₂ Honest

variable (repr : Row → String) (base other : RowCounter)

/-- Two results that are reported equal can be paired off honestly. -/
def Faithful : Prop :=
  ∀ diff, compareMultisets repr base other = .ok diff → diff.equal = true →
    Pairable HonestRows base.rows other.rows

/-- The passes take no two rows for each other that are not honestly the same. -/
def TakesHonestly : Prop :=
  ∀ p ∈ (walk (shownClose base other) base.counter other.counter).pairs,
    HonestRows (base.shown p.1) (other.shown p.2)

variable {repr base other}

/-- What the passes have taken when they end in a verdict of equality. -/
theorem pairs_of_equal {diff : MultisetDiff Row}
    (hdiff : compareMultisets repr base other = .ok diff) (hequal : diff.equal = true) :
    Paired (Agree (shownClose base other)) base.counter.bag other.counter.bag
      (walk (shownClose base other) base.counter other.counter).pairs 0 0 := by
  obtain ⟨w, hw, rfl⟩ := compareMultisets_eq repr hdiff
  have hpaired := (consumeAll_accounts hw).paired
  have hempty : w.missing.bag = 0 ∧ w.extra.bag = 0 := by
    simpa [diffOf, Counter.positive_eq_nil] using hequal
  rw [hempty.1, hempty.2, (consumeAll_ok_iff.mp hw).1] at hpaired
  exact hpaired

theorem faithful_of_takesHonestly (h : TakesHonestly base other) : Faithful repr base other := by
  intro diff hdiff hequal
  have hpaired := pairs_of_equal hdiff hequal
  have hkeys : Pairable (fun b o => HonestRows (base.shown b) (other.shown o)) base.counter.bag
      other.counter.bag := ⟨_, hpaired.left, hpaired.right, h⟩
  exact hkeys.map fun _ _ _ _ hrows => hrows

section Exact

/-- A counter of some of the rows, as often as it likes. -/
def Within (part whole : RowCounter) : Prop :=
  part.shown = whole.shown ∧ ∀ key ∈ part.counter.keys, key ∈ whole.counter.keys

/-- Rows that are equal or close are honestly so. -/
def Leakless (base other : RowCounter) : Prop :=
  ∀ b ∈ base.counter.keys, ∀ o ∈ other.counter.keys,
    b = o ∨ shownClose base other b o = .ok true → HonestRows (base.shown b) (other.shown o)

theorem takesHonestly_of_leakless {part part' : RowCounter} (h : Leakless base other)
    (hpart : Within part base) (hpart' : Within part' other) {diff : MultisetDiff Row}
    (hdiff : compareMultisets repr part part' = .ok diff) (hequal : diff.equal = true) :
    TakesHonestly part part' := by
  have hpaired := pairs_of_equal hdiff hequal
  intro p hp
  have hb : p.1 ∈ part.counter.bag := by
    rw [hpaired.left, add_zero]
    exact Multiset.mem_map_of_mem _ hp
  have ho : p.2 ∈ part'.counter.bag := by
    rw [hpaired.right, add_zero]
    exact Multiset.mem_map_of_mem _ hp
  have hagree := hpaired.sound p hp
  rw [Agree, shownClose, hpart.1, hpart'.1] at hagree
  rw [hpart.1, hpart'.1]
  exact h _ (hpart.2 _ (Counter.mem_keys_of_mem_bag hb)) _
    (hpart'.2 _ (Counter.mem_keys_of_mem_bag ho)) hagree

/-- One row, once. -/
def single (whole : RowCounter) (key : List (RoseTree Key)) (h : key ∈ whole.counter.keys) :
    RowCounter where
  counter := ⟨[(key, 1)], List.nodup_singleton key⟩
  shown := whole.shown
  shown_key := by
    intro other hother
    rw [List.mem_singleton.mp hother]
    exact whole.shown_key key h

theorem bag_single {whole : RowCounter} {key : List (RoseTree Key)}
    (h : key ∈ whole.counter.keys) : (single whole key h).counter.bag = {key} := by
  simp [single, Counter.bag]

theorem rows_single {whole : RowCounter} {key : List (RoseTree Key)}
    (h : key ∈ whole.counter.keys) : (single whole key h).rows = {whole.shown key} := by
  rw [RowCounter.rows, bag_single]
  rfl

/-- Two rows that are equal or close are reported equal when they are all there is. -/
theorem single_equal {b o : List (RoseTree Key)} (hb : b ∈ base.counter.keys)
    (ho : o ∈ other.counter.keys) (h : b = o ∨ shownClose base other b o = .ok true) :
    ∃ diff, compareMultisets repr (single base b hb) (single other o ho) = .ok diff ∧
      diff.equal = true := by
  set part := single base b hb with hpart
  set part' := single other o ho with hpart'
  have hclose : shownClose part part' b o = .ok true := by
    rcases h with rfl | h
    · apply rowsClose_of_key
      rw [part.shown_key b (List.mem_singleton_self b), part'.shown_key b
        (List.mem_singleton_self b)]
    · exact h
  have hbag : part.counter.bag = {b} := bag_single hb
  have hbag' : part'.counter.bag = {o} := bag_single ho
  obtain ⟨diff, hdiff⟩ : ∃ diff, compareMultisets repr part part' = .ok diff := by
    apply compareMultisets_ok
    rw [hbag, hbag']
    intro b' hb' o' ho'
    rw [Multiset.mem_singleton.mp (Multiset.mem_of_le (Multiset.sub_le_self _ _) hb'),
      Multiset.mem_singleton.mp (Multiset.mem_of_le (Multiset.sub_le_self _ _) ho')]
    exact ⟨true, hclose⟩
  obtain ⟨w, hw, rfl⟩ := compareMultisets_eq repr hdiff
  have hpaired := (consumeAll_accounts hw).paired
  rw [hbag, hbag'] at hpaired
  have hleft := congrArg Multiset.card hpaired.left
  have hright := congrArg Multiset.card hpaired.right
  simp only [Multiset.card_singleton, Multiset.card_add, Multiset.card_map] at hleft hright
  -- What is left on one side is left with the other, though the two rows are close.
  have hnone : w.missing.bag = 0 := by
    by_contra hne
    have hpos := Multiset.card_pos.mpr hne
    have hmissing : b ∈ w.missing.bag := by
      have hsub : w.missing.bag ≤ {b} := by
        rw [hpaired.left]
        exact Multiset.le_add_left _ _
      rw [(Multiset.le_singleton.mp hsub).resolve_left hne]
      exact Multiset.mem_singleton_self b
    have hextra : o ∈ w.extra.bag := by
      have hsub : w.extra.bag ≤ {o} := by
        rw [hpaired.right]
        exact Multiset.le_add_left _ _
      have hne' : w.extra.bag ≠ 0 := by
        intro hzero
        rw [hzero, Multiset.card_zero] at hright
        omega
      rw [(Multiset.le_singleton.mp hsub).resolve_left hne']
      exact Multiset.mem_singleton_self o
    have hfar := (consumeAll_apart hw hmissing hextra).2
    rw [hclose] at hfar
    cases hfar
  have hnone' : w.extra.bag = 0 := by
    rw [hnone, Multiset.card_zero] at hleft
    apply Multiset.card_eq_zero.mp
    omega
  exact ⟨_, hdiff, by simp [diffOf, Counter.positive_eq_nil, hnone, hnone']⟩

/-- Over given rows, every two results are compared honestly just when no two rows leak. -/
theorem faithful_within_iff :
    (∀ part part', Within part base → Within part' other → Faithful repr part part') ↔
      Leakless base other := by
  constructor
  · intro hall b hb o ho h
    have hpart : Within (single base b hb) base :=
      ⟨rfl, fun key hkey => List.mem_singleton.mp hkey ▸ hb⟩
    have hpart' : Within (single other o ho) other :=
      ⟨rfl, fun key hkey => List.mem_singleton.mp hkey ▸ ho⟩
    obtain ⟨diff, hdiff, hequal⟩ := @single_equal repr base other b o hb ho h
    have hpair := hall _ _ hpart hpart' diff hdiff hequal
    rw [rows_single, rows_single] at hpair
    exact hpair.of_singleton
  · intro h part part' hpart hpart' diff hdiff hequal
    exact faithful_of_takesHonestly (takesHonestly_of_leakless h hpart hpart' hdiff hequal) diff
      hdiff hequal

end Exact

end EqGen.Fuzz.Tolerance
