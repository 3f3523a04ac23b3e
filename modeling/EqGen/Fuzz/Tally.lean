import Mathlib.Data.List.Sort
import EqGen.Fuzz.Compare
import EqGen.Fuzz.Frozen
import EqGen.Fuzz.Multisets

/-!
`compare_multisets` over counters of driver rows. A counter keeps the first row of each key,
and closeness is asked of the rows it keeps; an error in there ends the comparison.
-/

namespace EqGen.Fuzz.Tally

open EqGen.Fuzz.Compare
open EqGen.Fuzz.Frozen
open EqGen.Fuzz.Multisets
open EqGen.Lib.Bag
open EqGen.Lib.Pairing
open EqGen.Lib.Trees

/-- A `Counter` of rows: how often each key was counted, and the first row that had it. -/
structure RowCounter where
  counter : Counter (List (RoseTree Key))
  shown : List (RoseTree Key) → Row
  shown_key : ∀ key ∈ counter.keys, rowKey (shown key) = key

namespace RowCounter

def empty : RowCounter where
  counter := ⟨[], List.nodup_nil⟩
  shown := fun _ => []
  shown_key := fun _ h => absurd h List.not_mem_nil

/-- Count one row; the row that stands for its key stays the first one. -/
def count (counted : RowCounter) (row : Row) : RowCounter where
  counter := counted.counter.tally (rowKey row)
  shown := if rowKey row ∈ counted.counter.keys then counted.shown
    else Function.update counted.shown (rowKey row) row
  shown_key := by
    intro key hkey
    rw [Counter.keys, Counter.tally, mem_keys_tallyIn] at hkey
    by_cases hold : rowKey row ∈ counted.counter.keys
    · rw [if_pos hold]
      apply counted.shown_key
      rcases hkey with rfl | hkey
      · exact hold
      · exact hkey
    · rw [if_neg hold]
      by_cases heq : key = rowKey row
      · rw [heq, Function.update_self]
      · rw [Function.update_of_ne heq]
        exact counted.shown_key key (hkey.resolve_left heq)

/-- `Counter(rows)` -/
def ofRows (rows : List Row) : RowCounter :=
  rows.foldl count empty

/-- The rows as often as they were counted. -/
def rows (counted : RowCounter) : Multiset Row :=
  counted.counter.bag.map counted.shown

end RowCounter

/-- The rows the counters keep for two keys, compared. -/
def shownClose (base other : RowCounter) (b o : List (RoseTree Key)) : Except Overflow Bool :=
  rowsClose (base.shown b) (other.shown o)

/-- The entries of a counter with the rows they are shown as. -/
def shownEntries (counted : RowCounter) (entries : List (List (RoseTree Key) × Nat)) :
    List (Row × Nat) :=
  entries.map fun entry => (counted.shown entry.1, entry.2)

/-- `sorted(…, key=repr)` of the entries that are left. -/
def sortByRepr (repr : Row → String) (entries : List (Row × Nat)) : List (Row × Nat) :=
  entries.insertionSort fun x y => repr x.1 ≤ repr y.1

/-- The `MultisetDiff` of what both passes leave. -/
def diffOf (repr : Row → String) (base other : RowCounter)
    (w : Consumption (List (RoseTree Key))) : MultisetDiff Row where
  equal := w.missing.positive.isEmpty && w.extra.positive.isEmpty
  onlyInBase := sortByRepr repr (shownEntries base w.missing.positive)
  onlyInOther := sortByRepr repr (shownEntries other w.extra.positive)
  reconciled := w.reconciled

/-- `compare_multisets` -/
def compareMultisets (repr : Row → String) (base other : RowCounter) :
    Except Overflow (MultisetDiff Row) := do
  let w ← consumeAll (shownClose base other) base.counter other.counter
  .ok (diffOf repr base other w)

/-- `compare_one` where both sides answered with rows. -/
def compareOne (repr : Row → String) (base equivalent : List Row) (sql : String) :
    Except Overflow (QueryComparison Row) := do
  let baseOutcome := query (.rows (RowCounter.ofRows base))
  let equivalentOutcome := query (.rows (RowCounter.ofRows equivalent))
  let diff ← compareMultisets repr (.ofRows base) (.ofRows equivalent)
  .ok (Compare.compareOne (fun _ _ => diff) baseOutcome equivalentOutcome sql)

section Counted

theorem shown_mem {rows : List Row} {key : List (RoseTree Key)}
    (hkey : key ∈ (RowCounter.ofRows rows).counter.keys) :
    (RowCounter.ofRows rows).shown key ∈ rows := by
  have hfold : ∀ (rest : List Row) (counted : RowCounter) (all : List Row),
      (∀ row ∈ rest, row ∈ all) → (∀ k ∈ counted.counter.keys, counted.shown k ∈ all) →
      ∀ k ∈ (rest.foldl RowCounter.count counted).counter.keys,
        (rest.foldl RowCounter.count counted).shown k ∈ all := by
    intro rest
    induction rest with
    | nil => exact fun counted all _ h => h
    | cons row rest ih =>
        intro counted all hrest hcounted
        apply ih _ all fun other hother => hrest other (List.mem_cons_of_mem _ hother)
        intro k hk
        have hk : k = rowKey row ∨ k ∈ counted.counter.keys :=
          (mem_keys_tallyIn (rowKey row) k counted.counter.items).mp hk
        unfold RowCounter.count
        simp only
        by_cases hold : rowKey row ∈ counted.counter.keys
        · rw [if_pos hold]
          apply hcounted
          rcases hk with rfl | hk
          · exact hold
          · exact hk
        · rw [if_neg hold]
          by_cases heq : k = rowKey row
          · rw [heq, Function.update_self]
            exact hrest row List.mem_cons_self
          · rw [Function.update_of_ne heq]
            exact hcounted k (hk.resolve_left heq)
  exact hfold rows RowCounter.empty rows (fun _ h => h)
    (fun _ h => absurd h List.not_mem_nil) key hkey

theorem counter_foldl_count (rows : List Row) (counted : RowCounter) :
    (rows.foldl RowCounter.count counted).counter =
      (rows.map rowKey).foldl Counter.tally counted.counter := by
  induction rows generalizing counted with
  | nil => rfl
  | cons row rows ih =>
      rw [List.foldl_cons, ih, List.map_cons, List.foldl_cons]
      rfl

/-- A counter of rows has their keys. -/
theorem bag_ofRows (rows : List Row) :
    (RowCounter.ofRows rows).counter.bag = ((rows : Multiset Row).map rowKey) := by
  rw [RowCounter.ofRows, counter_foldl_count, Counter.bag_foldl_tally, Multiset.map_coe]
  exact add_zero _

theorem shown_key_of_mem_bag {counted : RowCounter} {key : List (RoseTree Key)}
    (h : key ∈ counted.counter.bag) : rowKey (counted.shown key) = key :=
  counted.shown_key key (Counter.mem_keys_of_mem_bag h)

end Counted

section Returns

variable (repr : Row → String) {base other : RowCounter}

/-- The rows that the passes compare, where every comparison answers. -/
def compared (base other : RowCounter) : List (Row × Row) :=
  (walk (shownClose base other) base.counter other.counter).asked.map fun p =>
    (base.shown p.1, other.shown p.2)

theorem answers_iff :
    (∀ p ∈ (walk (shownClose base other) base.counter other.counter).asked,
        Answers (shownClose base other) p) ↔
      ∀ p ∈ compared base other, ¬RowsOverflow p.1 p.2 := by
  rw [compared, List.forall_mem_map]
  exact forall₂_congr fun p _ => rowsClose_ok_iff _ _

theorem compareMultisets_eq {diff : MultisetDiff Row}
    (h : compareMultisets repr base other = .ok diff) :
    ∃ w, consumeAll (shownClose base other) base.counter other.counter = .ok w ∧
      diff = diffOf repr base other w := by
  rw [compareMultisets] at h
  cases hw : consumeAll (shownClose base other) base.counter other.counter with
  | error e =>
      rw [hw] at h
      cases h
  | ok w =>
      rw [hw] at h
      exact ⟨w, rfl, (Except.ok.inj h).symm⟩

/-- The comparison returns just when none of the rows that are compared overflow. -/
theorem compareMultisets_ok_iff :
    (∃ diff, compareMultisets repr base other = .ok diff) ↔
      ∀ p ∈ compared base other, ¬RowsOverflow p.1 p.2 := by
  rw [← answers_iff]
  constructor
  · rintro ⟨diff, hdiff⟩
    obtain ⟨w, hw, -⟩ := compareMultisets_eq repr hdiff
    exact (consumeAll_ok_iff.mp hw).2
  · intro h
    refine ⟨diffOf repr base other (walk (shownClose base other) base.counter other.counter), ?_⟩
    rw [compareMultisets, consumeAll_ok_iff.mpr ⟨rfl, h⟩]
    rfl

/-- Only rows are compared that the one side has more often than the other, and the other way. -/
theorem compared_left {p : Row × Row} (hp : p ∈ compared base other) :
    p.1 ∈ (base.counter.bag - other.counter.bag).map base.shown ∧
      p.2 ∈ (other.counter.bag - base.counter.bag).map other.shown := by
  obtain ⟨q, hq, rfl⟩ := List.mem_map.mp hp
  obtain ⟨hb, ho⟩ := (consumeAll_follows base.counter other.counter).1 q hq
  exact ⟨Multiset.mem_map_of_mem _ hb, Multiset.mem_map_of_mem _ ho⟩

/-- The comparison raises nothing where no two rows that the exact pass leaves do. -/
theorem compareMultisets_ok (h : ∀ b ∈ base.counter.bag - other.counter.bag,
    ∀ o ∈ other.counter.bag - base.counter.bag, ∃ result, shownClose base other b o = .ok result) :
    ∃ diff, compareMultisets repr base other = .ok diff := by
  rw [compareMultisets_ok_iff]
  intro p hp
  obtain ⟨hb, ho⟩ := compared_left hp
  obtain ⟨b, hb, hbase⟩ := Multiset.mem_map.mp hb
  obtain ⟨o, ho, hother⟩ := Multiset.mem_map.mp ho
  rw [← rowsClose_ok_iff, ← hbase, ← hother]
  exact h b hb o ho

/-- Two rows of different keys are compared, and an error of that comparison is raised. -/
theorem compareMultisets_error {b o : Row} {e : Overflow} (hne : rowKey b ≠ rowKey o)
    (h : rowsClose b o = .error e) :
    compareMultisets repr (.ofRows [b]) (.ofRows [o]) = .error e := by
  have hne' := Ne.symm hne
  have hclose : shownClose (.ofRows [b]) (.ofRows [o]) (rowKey b) (rowKey o) = .error e := by
    simpa [shownClose, RowCounter.ofRows, RowCounter.count, RowCounter.empty, Counter.keys]
      using h
  have hexact : exactPass (Consumption.start (RowCounter.ofRows [b]).counter
      (RowCounter.ofRows [o]).counter) =
        Consumption.start (RowCounter.ofRows [b]).counter (RowCounter.ofRows [o]).counter := by
    simp [exactPass, Consumption.start, RowCounter.ofRows, RowCounter.count, RowCounter.empty,
      Counter.tally, tallyIn, consumeExact, Counter.get, countIn, hne']
  have hpass : consumeAll (shownClose (.ofRows [b]) (.ofRows [o]))
      (RowCounter.ofRows [b]).counter (RowCounter.ofRows [o]).counter = .error e := by
    rw [consumeAll, hexact]
    change consumeClose _ (rowKey b) _ [(rowKey o, 1)] >>= _ = _
    rw [consumeClose, if_neg (by simp [hne']), hclose]
    rfl
  rw [compareMultisets, hpass]
  rfl

end Returns

section Conservation

/-- Equal or close rows. -/
def Agreeing (b o : Row) : Prop :=
  rowKey b = rowKey o ∨ rowsClose b o = .ok true

/-- A difference accounts for the rows on both sides. -/
structure Conserves (base other : RowCounter) (diff : MultisetDiff Row)
    (pairs : Multiset (Row × Row)) : Prop where
  paired : Paired Agreeing base.rows other.rows pairs (bagOf diff.onlyInBase)
    (bagOf diff.onlyInOther)
  base_counts : (diff.onlyInBase.map fun e => rowKey e.1).Nodup ∧ ∀ e ∈ diff.onlyInBase, 0 < e.2
  other_counts : (diff.onlyInOther.map fun e => rowKey e.1).Nodup ∧
    ∀ e ∈ diff.onlyInOther, 0 < e.2
  reconciled : diff.reconciled = pairs.countP fun p => rowKey p.1 ≠ rowKey p.2
  apart : ∀ e ∈ diff.onlyInBase, ∀ e' ∈ diff.onlyInOther, ¬Agreeing e.1 e'.1
  equal_iff : diff.equal = true ↔ diff.onlyInBase = [] ∧ diff.onlyInOther = []

variable {repr : Row → String} {base other : RowCounter}

theorem perm_sortByRepr (entries : List (Row × Nat)) : (sortByRepr repr entries).Perm entries :=
  List.perm_insertionSort _ entries

/-- What is left over, in any order, as often as it was counted. -/
theorem bagOf_onlyIn (counted : RowCounter) (rest : Counter (List (RoseTree Key))) :
    bagOf (sortByRepr repr (shownEntries counted rest.positive)) =
      rest.bag.map counted.shown := by
  rw [bagOf_perm (perm_sortByRepr _), shownEntries, bagOf_map, Counter.bagOf_positive]

theorem mem_onlyIn {counted : RowCounter} {rest : Counter (List (RoseTree Key))} {e : Row × Nat}
    (h : e ∈ sortByRepr repr (shownEntries counted rest.positive)) :
    ∃ key ∈ rest.bag, e.1 = counted.shown key ∧ 0 < e.2 := by
  obtain ⟨entry, hentry, rfl⟩ := List.mem_map.mp ((perm_sortByRepr _).mem_iff.mp h)
  obtain ⟨hget, hpos⟩ := Counter.mem_positive.mp hentry
  refine ⟨entry.1, ?_, rfl, hpos⟩
  rw [← Multiset.count_pos, Counter.count_bag, hget]
  exact hpos

theorem counts_onlyIn {counted : RowCounter} {rest : Counter (List (RoseTree Key))}
    (h : rest.bag ≤ counted.counter.bag) :
    ((sortByRepr repr (shownEntries counted rest.positive)).map fun e => rowKey e.1).Nodup ∧
      ∀ e ∈ sortByRepr repr (shownEntries counted rest.positive), 0 < e.2 := by
  constructor
  · rw [((perm_sortByRepr _).map _).nodup_iff, shownEntries, List.map_map]
    have hkeys : rest.positive.map ((fun e => rowKey e.1) ∘
        fun entry => (counted.shown entry.1, entry.2)) = rest.positive.map Prod.fst := by
      refine List.map_congr_left fun entry hentry => ?_
      obtain ⟨hget, hpos⟩ := Counter.mem_positive.mp hentry
      apply shown_key_of_mem_bag
      apply Multiset.mem_of_le h
      rw [← Multiset.count_pos, Counter.count_bag, hget]
      exact hpos
    rw [hkeys]
    exact rest.nodup.sublist (List.filter_sublist.map _)
  · intro e he
    obtain ⟨-, -, -, hpos⟩ := mem_onlyIn he
    exact hpos

theorem onlyIn_eq_nil {counted : RowCounter} {rest : Counter (List (RoseTree Key))} :
    sortByRepr repr (shownEntries counted rest.positive) = [] ↔ rest.positive = [] := by
  rw [← List.length_eq_zero_iff, (perm_sortByRepr _).length_eq, List.length_eq_zero_iff,
    shownEntries, List.map_eq_nil_iff]

/-- What the passes account for by key, the difference accounts for by row. -/
theorem conserves_diffOf {w : Consumption (List (RoseTree Key))}
    (h : consumeAll (shownClose base other) base.counter other.counter = .ok w) :
    Conserves base other (diffOf repr base other w)
      (w.pairs.map fun p => (base.shown p.1, other.shown p.2)) := by
  have haccounts := consumeAll_accounts h
  have hpaired := haccounts.paired
  have hbase : ∀ p ∈ w.pairs, rowKey (base.shown p.1) = p.1 := by
    intro p hp
    apply shown_key_of_mem_bag
    rw [hpaired.left]
    exact Multiset.mem_add.mpr (.inl (Multiset.mem_map_of_mem _ hp))
  have hother : ∀ p ∈ w.pairs, rowKey (other.shown p.2) = p.2 := by
    intro p hp
    apply shown_key_of_mem_bag
    rw [hpaired.right]
    exact Multiset.mem_add.mpr (.inl (Multiset.mem_map_of_mem _ hp))
  have hmissing : w.missing.bag ≤ base.counter.bag := by
    rw [hpaired.left]
    exact Multiset.le_add_left _ _
  have hextra : w.extra.bag ≤ other.counter.bag := by
    rw [hpaired.right]
    exact Multiset.le_add_left _ _
  refine ⟨⟨?_, ?_, ?_⟩, counts_onlyIn hmissing, counts_onlyIn hextra, ?_, ?_, ?_⟩
  · rw [diffOf, bagOf_onlyIn, RowCounter.rows, hpaired.left]
    simp [Multiset.map_map]
  · rw [diffOf, bagOf_onlyIn, RowCounter.rows, hpaired.right]
    simp [Multiset.map_map]
  · intro p hp
    obtain ⟨q, hq, rfl⟩ := Multiset.mem_map.mp hp
    rcases hpaired.sound q hq with heq | hclose
    · exact .inl (by rw [hbase q hq, hother q hq, heq])
    · exact .inr hclose
  · rw [diffOf, haccounts.reconciled, Multiset.countP_map, ← Multiset.countP_eq_card_filter]
    refine Multiset.countP_congr rfl fun p hp => ?_
    rw [hbase p hp, hother p hp]
  · intro e he e' he' hagree
    obtain ⟨b, hb, heb, -⟩ := mem_onlyIn he
    obtain ⟨o, ho, heo, -⟩ := mem_onlyIn he'
    obtain ⟨hne, hfar⟩ := consumeAll_apart h hb ho
    rw [heb, heo] at hagree
    rcases hagree with heq | hclose
    · rw [shown_key_of_mem_bag (Multiset.mem_of_le hmissing hb),
        shown_key_of_mem_bag (Multiset.mem_of_le hextra ho)] at heq
      exact hne heq
    · rw [shownClose, hclose] at hfar
      cases hfar
  · simp [diffOf, onlyIn_eq_nil]

theorem Conserves.card_eq {diff : MultisetDiff Row} {pairs : Multiset (Row × Row)}
    (h : Conserves base other diff pairs) (hequal : diff.equal = true) :
    base.rows.card = other.rows.card := by
  obtain ⟨hbase, hother⟩ := h.equal_iff.mp hequal
  rw [h.paired.left, h.paired.right, hbase, hother]
  simp

/-- The comparison returns a difference that conserves, and leaves its arguments as they were. -/
def ReturnsConserving (repr : Row → String) (base other : RowCounter) : Prop :=
  ∃ w diff, consumeAll (shownClose base other) base.counter other.counter = .ok w ∧
    w.base = base.counter ∧ w.other = other.counter ∧
      compareMultisets repr base other = .ok diff ∧ (∃ pairs, Conserves base other diff pairs) ∧
        (diff.equal = true → base.rows.card = other.rows.card)

end Conservation

end EqGen.Fuzz.Tally
