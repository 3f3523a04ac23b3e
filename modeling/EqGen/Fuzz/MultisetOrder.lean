import EqGen.Fuzz.Tally

/-!
Whether the verdict of `compareMultisets` depends on the order of the rows. Closeness is not
transitive and the approximate pass is greedy, so it can; it does not where the rows that
the exact pass leaves have no open chain of close rows.
-/

namespace EqGen.Fuzz.MultisetOrder

open EqGen.Fuzz.Compare
open EqGen.Fuzz.Frozen
open EqGen.Fuzz.Multisets
open EqGen.Fuzz.Tally
open EqGen.Lib.Bag
open EqGen.Lib.Pairing
open EqGen.Lib.Trees

/-- The verdict on two lists of rows. -/
def verdict (repr : Row → String) (base other : List Row) : Except Overflow Bool :=
  (compareMultisets repr (.ofRows base) (.ofRows other)).map MultisetDiff.equal

/-- Neither the order of the rows on either side nor the order of the sides matters. -/
structure OrderFree (repr : Row → String) (base other : List Row) : Prop where
  defined : ∃ result, verdict repr base other = .ok result
  permuted : ∀ base' other' : List Row, base'.Perm base → other'.Perm other →
    verdict repr base' other' = verdict repr base other
  swapped : ∀ base' other' : List Row, base'.Perm base → other'.Perm other →
    verdict repr other' base' = verdict repr base other
  complete : Pairable Agreeing (base : Multiset Row) other → verdict repr base other = .ok true

section Keys

/-- The rows as the keys they are counted by. -/
def keys (rows : List Row) : Multiset (List (RoseTree Key)) :=
  (rows : Multiset Row).map rowKey

theorem keys_perm {rows rows' : List Row} (h : rows'.Perm rows) : keys rows' = keys rows := by
  rw [keys, keys, Multiset.coe_eq_coe.mpr h]

/-- Some rows of the two keys are close. -/
def CloseKeys (base other : List Row) (b o : List (RoseTree Key)) : Prop :=
  ∃ row ∈ base, ∃ row' ∈ other, rowKey row = b ∧ rowKey row' = o ∧ rowsClose row row' = .ok true

/-- The rows that one side has more often than the other, as the passes may meet them. -/
structure Left (base other : List Row) (row row' : Row) : Prop where
  mem : row ∈ base
  mem' : row' ∈ other
  left : rowKey row ∈ keys base - keys other
  left' : rowKey row' ∈ keys other - keys base

/--
Comparing rows that are left answers. Besides the rows cannot be paired off; or the rows that are
left can be, along a closeness without open chains that does not depend on which of two equal rows
is asked.
-/
structure Definite (base other : List Row) : Prop where
  answers : ∀ row row', Left base other row row' → ¬RowsOverflow row row'
  decided : ¬Pairable (fun b o => b = o ∨ CloseKeys base other b o) (keys base) (keys other) ∨
    (∀ row row', Left base other row row' →
      CloseKeys base other (rowKey row) (rowKey row') → rowsClose row row' = .ok true) ∧
    Pairable (CloseKeys base other) (keys base - keys other) (keys other - keys base) ∧
    Unchained (CloseKeys base other) (keys base - keys other) (keys other - keys base)

variable {base other base' other' : List Row}

theorem flip_closeKeys : flip (CloseKeys base other) = CloseKeys other base := by
  funext o b
  apply propext
  constructor
  · rintro ⟨row, hrow, row', hrow', hb, ho, hclose⟩
    exact ⟨row', hrow', row, hrow, ho, hb, by rw [rowsClose_comm, hclose]⟩
  · rintro ⟨row', hrow', row, hrow, ho, hb, hclose⟩
    exact ⟨row, hrow, row', hrow', hb, ho, by rw [rowsClose_comm, hclose]⟩

theorem flip_agree :
    flip (fun b o => b = o ∨ CloseKeys base other b o) =
      fun o b => o = b ∨ CloseKeys other base o b := by
  rw [← flip_closeKeys]
  funext o b
  simp only [flip, eq_comm]

theorem closeKeys_perm (hbase : base'.Perm base) (hother : other'.Perm other) :
    CloseKeys base' other' = CloseKeys base other := by
  funext b o
  simp only [CloseKeys, hbase.mem_iff, hother.mem_iff]

theorem Left.swap {row row' : Row} (h : Left base other row row') : Left other base row' row :=
  ⟨h.mem', h.mem, h.left', h.left⟩

theorem Left.perm (hbase : base'.Perm base) (hother : other'.Perm other) {row row' : Row}
    (h : Left base' other' row row') : Left base other row row' := by
  have hleft := h.left
  have hleft' := h.left'
  rw [keys_perm hbase, keys_perm hother] at hleft hleft'
  exact ⟨hbase.mem_iff.mp h.mem, hother.mem_iff.mp h.mem', hleft, hleft'⟩

theorem Definite.swap (h : Definite base other) : Definite other base := by
  refine ⟨fun row row' hleft => ?_, h.decided.imp ?_ ?_⟩
  · rw [← rowsClose_ok_iff, rowsClose_comm, rowsClose_ok_iff]
    exact h.answers row' row hleft.swap
  · intro hnot hpair
    apply hnot
    have hflip := hpair.flip
    rwa [flip_agree] at hflip
  · rintro ⟨halike, hfull, hchain⟩
    rw [← flip_closeKeys]
    refine ⟨fun row row' hleft hclose => ?_, hfull.flip, hchain.flip⟩
    rw [rowsClose_comm]
    exact halike row' row hleft.swap hclose

theorem Definite.perm (hbase : base'.Perm base) (hother : other'.Perm other)
    (h : Definite base other) : Definite base' other' := by
  refine ⟨fun row row' hleft => h.answers row row' (hleft.perm hbase hother), ?_⟩
  rw [closeKeys_perm hbase hother, keys_perm hbase, keys_perm hother]
  refine h.decided.imp_right ?_
  rintro ⟨halike, hrest⟩
  exact ⟨fun row row' hleft => halike row row' (hleft.perm hbase hother), hrest⟩

end Keys

section Verdict

variable {repr : Row → String} {base other : List Row}

/-- The rows that stand for two keys that are left. -/
theorem left_shown {b o : List (RoseTree Key)} (hb : b ∈ keys base - keys other)
    (ho : o ∈ keys other - keys base) :
    Left base other ((RowCounter.ofRows base).shown b) ((RowCounter.ofRows other).shown o) ∧
      rowKey ((RowCounter.ofRows base).shown b) = b ∧
      rowKey ((RowCounter.ofRows other).shown o) = o := by
  have hb' : b ∈ (RowCounter.ofRows base).counter.bag := by
    rw [bag_ofRows]
    exact Multiset.mem_of_le (Multiset.sub_le_self _ _) hb
  have ho' : o ∈ (RowCounter.ofRows other).counter.bag := by
    rw [bag_ofRows]
    exact Multiset.mem_of_le (Multiset.sub_le_self _ _) ho
  have hkey := shown_key_of_mem_bag hb'
  have hkey' := shown_key_of_mem_bag ho'
  refine ⟨⟨shown_mem (Counter.mem_keys_of_mem_bag hb'), shown_mem (Counter.mem_keys_of_mem_bag ho'),
    ?_, ?_⟩, hkey, hkey'⟩
  · rwa [hkey]
  · rwa [hkey']

/-- Rows shown as close are of close keys. -/
theorem closeKeys_of_shown {b o : List (RoseTree Key)}
    (hb : b ∈ (RowCounter.ofRows base).counter.bag)
    (ho : o ∈ (RowCounter.ofRows other).counter.bag)
    (h : shownClose (.ofRows base) (.ofRows other) b o = .ok true) : CloseKeys base other b o :=
  ⟨_, shown_mem (Counter.mem_keys_of_mem_bag hb), _, shown_mem (Counter.mem_keys_of_mem_bag ho),
    shown_key_of_mem_bag hb, shown_key_of_mem_bag ho, h⟩

theorem verdict_eq_true_iff (w : Consumption (List (RoseTree Key))) :
    (diffOf repr (.ofRows base) (.ofRows other) w).equal = true ↔
      w.missing.bag = 0 ∧ w.extra.bag = 0 := by
  simp [diffOf, Counter.positive_eq_nil]

/-- Where the condition holds, the verdict is whether the rows can be paired off. -/
theorem Definite.verdict (h : Definite base other) (repr : Row → String) :
    ∃ result, verdict repr base other = .ok result ∧
      (result = true ↔
        Pairable (fun b o => b = o ∨ CloseKeys base other b o) (keys base) (keys other)) := by
  obtain ⟨diff, hdiff⟩ : ∃ diff, compareMultisets repr (.ofRows base) (.ofRows other) =
      .ok diff := by
    apply compareMultisets_ok
    rw [bag_ofRows, bag_ofRows]
    intro b hb o ho
    exact (rowsClose_ok_iff _ _).mpr (h.answers _ _ (left_shown hb ho).1)
  obtain ⟨w, hw, rfl⟩ := compareMultisets_eq repr hdiff
  refine ⟨_, by rw [MultisetOrder.verdict, hdiff]; rfl, ?_⟩
  rw [verdict_eq_true_iff]
  have hpaired := (consumeAll_accounts hw).paired
  constructor
  · rintro ⟨hmissing, hextra⟩
    rw [hmissing, hextra] at hpaired
    have hpairable : Pairable (Agree (shownClose (.ofRows base) (.ofRows other)))
        (RowCounter.ofRows base).counter.bag (RowCounter.ofRows other).counter.bag :=
      ⟨w.pairs, hpaired⟩
    rw [keys, keys, ← bag_ofRows, ← bag_ofRows]
    exact hpairable.mono fun b hb o ho hagree => hagree.imp_right (closeKeys_of_shown hb ho)
  · intro hpair
    rcases h.decided with hnot | ⟨halike, hfull, hchain⟩
    · exact absurd hpair hnot
    · have hexhausts := @consumeAll_exhausts _ _ _ _ _ _ w (CloseKeys base other) hw
      rw [bag_ofRows, bag_ofRows] at hexhausts
      refine hexhausts (fun b hb o ho => ⟨?_, ?_⟩) hfull hchain
      · apply closeKeys_of_shown
        · rw [bag_ofRows]
          exact Multiset.mem_of_le (Multiset.sub_le_self _ _) hb
        · rw [bag_ofRows]
          exact Multiset.mem_of_le (Multiset.sub_le_self _ _) ho
      · intro hclose
        obtain ⟨hleft, hkey, hkey'⟩ := left_shown hb ho
        apply halike _ _ hleft
        rwa [hkey, hkey']

/-- Two results whose verdict is whether they can be paired off have one verdict if both can. -/
theorem verdict_eq_of_iff {base' other' : List Row} {p p' : Prop} (hp : p ↔ p')
    (h : ∃ result, verdict repr base other = .ok result ∧ (result = true ↔ p))
    (h' : ∃ result, verdict repr base' other' = .ok result ∧ (result = true ↔ p')) :
    verdict repr base' other' = verdict repr base other := by
  obtain ⟨result, hverdict, hresult⟩ := h
  obtain ⟨result', hverdict', hresult'⟩ := h'
  rw [hverdict, hverdict', Bool.eq_iff_iff.mpr (hresult'.trans (hp.symm.trans hresult.symm))]

end Verdict

section Whole

/-- A row of one integer. -/
def whole (n : ℤ) : Row := [.leaf (.int n)]

/-- `repr` of a row of one integer. -/
def reprWhole (row : Row) : String :=
  match row with
  | [.leaf (.int n)] => s!"({n},)"
  | _ => "()"

end Whole

end EqGen.Fuzz.MultisetOrder
