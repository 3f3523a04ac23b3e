import Mathlib.Tactic.Linarith
import Mathlib.Tactic.NormNum
import Mathlib.Tactic.Positivity
import EqGen.Fuzz.Tally

/-!
Whether two exact numbers that are reported close are close: they are up to rounding while
both have a double, and integers that have none end the comparison with an error.
-/

namespace EqGen.Fuzz.Closeness

open EqGen.Fuzz.Compare (MultisetDiff QueryComparison)
open EqGen.Fuzz.Frozen
open EqGen.Fuzz.Tally
open EqGen.Lib.Bag
open EqGen.Lib.Doubles
open EqGen.Lib.Trees

section Rounding

theorem abs_floatRelTol_le : |floatRelTol| ≤ 1 / 10000 + 1 / 2 ^ 59 := by
  have h := abs_roundDouble_le (1 / 10000)
  rw [abs_of_pos (by norm_num : (0 : ℚ) < 1 / 10000)] at h
  unfold floatRelTol
  linarith

theorem floatAbsTol_le : floatAbsTol ≤ 5 / 10000 + 1 / 2 ^ 59 := by
  have h := abs_roundDouble_le (5 / 10000)
  rw [abs_of_pos (by norm_num : (0 : ℚ) < 5 / 10000)] at h
  have hself := le_abs_self (roundDouble (5 / 10000))
  unfold floatAbsTol
  linarith

/-- The tolerance that goes with a double of magnitude `m`. -/
theorem abs_roundDouble_relTol_le {x m : ℚ} (hx : |x| ≤ m + m / 2 ^ 53 + 1 / 2 ^ 60)
    (hm : 0 ≤ m) : |roundDouble (floatRelTol * x)| ≤ m / 10000 + m / 2 ^ 58 + 1 / 2 ^ 58 := by
  have hround := abs_roundDouble_le (floatRelTol * x)
  have hproduct : |floatRelTol * x| ≤
      (1 / 10000 + 1 / 2 ^ 59) * (m + m / 2 ^ 53 + 1 / 2 ^ 60) := by
    rw [abs_mul]
    exact mul_le_mul abs_floatRelTol_le hx (abs_nonneg x) (by norm_num)
  linarith

end Rounding

section Honest

/-- The numbers differ by no more than the tolerances and a slack. -/
def Within (slack a b : ℚ) : Prop :=
  |a - b| ≤ max (max |a| |b| / 10000) (5 / 10000) + slack

/-- The slack is what rounding to doubles costs, where both numbers have one. -/
def Honest (a b : ℚ) : Prop :=
  Within (if InRange a ∧ InRange b then (max |a| |b| + 1) / 2 ^ 50 else 0) a b

theorem honest_self (a : ℚ) : Honest a a := by
  unfold Honest Within
  rw [sub_self, abs_zero]
  have hmax : (0 : ℚ) ≤ max (max |a| |a| / 10000) (5 / 10000) :=
    le_max_of_le_right (by norm_num)
  split
  · have := abs_nonneg a
    have hslack : (0 : ℚ) ≤ (max |a| |a| + 1) / 2 ^ 50 := by
      rw [max_self]
      positivity
    linarith
  · linarith

/-- What `isclose` accepts is within the tolerances up to rounding. -/
theorem within_of_isclose {a b : ℚ} (h : isclose floatRelTol floatAbsTol (roundDouble a) (roundDouble b) = true) :
    Within ((max |a| |b| + 1) / 2 ^ 50) a b := by
  set m := max |a| |b| with hm
  have hma : |a| ≤ m := le_max_left _ _
  have hmb : |b| ≤ m := le_max_right _ _
  have hm0 : 0 ≤ m := (abs_nonneg a).trans hma
  have ha := abs_roundDouble_sub_le a
  have hb := abs_roundDouble_sub_le b
  set A := roundDouble a with hA
  set B := roundDouble b with hB
  have hA' : |A| ≤ m + m / 2 ^ 53 + 1 / 2 ^ 60 := by
    have h := abs_roundDouble_le a
    linarith
  have hB' : |B| ≤ m + m / 2 ^ 53 + 1 / 2 ^ 60 := by
    have h := abs_roundDouble_le b
    linarith
  have hdiff := abs_le_abs_roundDouble (B - A)
  have htriangle : |B - A| ≤ |B| + |A| := abs_sub B A
  have hcost : |a - b| ≤ |B - A| + 2 * (m / 2 ^ 53 + 1 / 2 ^ 60) := by
    have h₁ := abs_le.mp ha
    have h₂ := abs_le.mp hb
    have h₃ := abs_le.mp (le_refl |B - A|)
    rw [abs_le]
    constructor <;> linarith
  have hrel : m / 10000 ≤ max (m / 10000) (5 / 10000) := le_max_left _ _
  have habs : 5 / 10000 ≤ max (m / 10000) (5 / 10000) := le_max_right _ _
  unfold Within
  rw [← hm]
  simp only [isclose, Bool.or_eq_true, decide_eq_true_eq] at h
  rcases h with ((heq | hclose) | hclose) | hclose
  · have hzero : |B - A| = 0 := by
      rw [heq, sub_self, abs_zero]
    linarith
  · have htol := abs_roundDouble_relTol_le hB' hm0
    linarith
  · have htol := abs_roundDouble_relTol_le hA' hm0
    linarith
  · have htol := floatAbsTol_le
    linarith

end Honest

section Numbers

/-- The number an integer, a finite decimal or text that spells one is. -/
def numberOf : Value → Option ℚ
  | .leaf (.int value) => some value
  | .leaf (.decimal value) => some value
  | .leaf (.text value) => numberOfText value
  | _ => none

/-- How a numeric cell converts to a float. -/
structure Converts (value : Value) (a : ℚ) : Prop where
  huge : Huge value → ∃ e, asFloat value = .error e
  ok : ¬Huge value → asFloat value = .ok (some (.double (toDouble a)))
  isBool : isBool value = false
  ne_nan : value ≠ nanSentinel

theorem converts_of_numberOf {value : Value} {a : ℚ} (h : numberOf value = some a) :
    Converts value a := by
  cases value with
  | branch items => cases h
  | leaf atom =>
      cases atom with
      | int n =>
          have ha : a = n := (Option.some.inj h).symm
          refine ⟨?_, ?_, rfl, fun h => by cases h⟩
          · rintro ⟨m, heq, hm⟩
            cases heq
            refine ⟨.intTooLarge, ?_⟩
            rw [asFloat_int, floatOfInt, toDouble_of_not_inRange hm]
            rfl
          · intro hnot
            have hin : InRange n := by
              by_contra hout
              exact hnot ⟨n, rfl, hout⟩
            rw [asFloat_int, floatOfInt, ha, toDouble_of_inRange hin]
            rfl
      | decimal x =>
          have ha : a = x := (Option.some.inj h).symm
          refine ⟨?_, ?_, rfl, fun h => by cases h⟩
          · rintro ⟨m, heq, -⟩
            cases heq
          · intro _
            rw [ha]
            rfl
      | text text =>
          refine ⟨?_, ?_, rfl, fun h => by cases h⟩
          · rintro ⟨m, heq, -⟩
            cases heq
          · intro _
            change Except.ok (Option.map _ _) = _
            rw [show numberOfText text = some a from h]
            rfl
      | none => cases h
      | bool b => cases h
      | float x => cases h
      | infiniteDecimal negative => cases h
      | undefinedDecimal object => cases h
      | other repr => cases h

theorem key_of_numberOf {value : Value} {a : ℚ} (h : numberOf value = some a) :
    key value = .leaf (.number a) ∨ ∃ text, value = .leaf (.text text) := by
  unfold numberOf at h
  split at h
  · next n =>
      cases h
      exact .inl (RoseTree.map_leaf _ _)
  · next x =>
      cases h
      exact .inl (RoseTree.map_leaf _ _)
  · next text => exact .inr ⟨text, rfl⟩
  · cases h

/-- Numbers with one key are equal. -/
theorem numberOf_eq_of_key {left right : Value} {a b : ℚ} (ha : numberOf left = some a)
    (hb : numberOf right = some b) (h : key left = key right) : a = b := by
  rcases key_of_numberOf ha with hleft | ⟨text, rfl⟩
  · rcases key_of_numberOf hb with hright | ⟨text, rfl⟩
    · rw [hleft, hright] at h
      cases h
      rfl
    · rw [hleft, key, RoseTree.map_leaf] at h
      cases h
  · rcases key_of_numberOf hb with hright | ⟨text', rfl⟩
    · rw [hright, key, RoseTree.map_leaf] at h
      cases h
    · rw [key, key, RoseTree.map_leaf, RoseTree.map_leaf] at h
      cases h
      exact Option.some.inj (ha.symm.trans hb)

theorem valuesClose_of_ne {left right : Value} {a b : ℚ} (ha : Converts left a)
    (hb : Converts right b) (h : key left ≠ key right) :
    valuesClose left right = (asFloat left >>= fun x => asFloat right >>= fun y =>
      .ok (numericsClose x y)) := by
  rw [valuesClose, if_neg h, if_neg, if_neg]
  · simp [ha.isBool, hb.isBool]
  · simp [ha.ne_nan, hb.ne_nan]

/-- Closeness of two numbers that convert. -/
theorem honest_of_doublesClose {a b : ℚ} (hclose : doublesClose (toDouble a) (toDouble b) = true)
    (hout : ¬InRange a → ¬InRange b → (a < 0 ↔ b < 0) → Honest a b) : Honest a b := by
  by_cases ha : InRange a
  · by_cases hb : InRange b
    · rw [toDouble_of_inRange ha, toDouble_of_inRange hb] at hclose
      unfold Honest
      rw [if_pos ⟨ha, hb⟩]
      exact within_of_isclose hclose
    · rw [toDouble_of_inRange ha, toDouble_of_not_inRange hb] at hclose
      simp [doublesClose] at hclose
  · by_cases hb : InRange b
    · rw [toDouble_of_not_inRange ha, toDouble_of_inRange hb] at hclose
      simp [doublesClose] at hclose
    · rw [toDouble_of_not_inRange ha, toDouble_of_not_inRange hb] at hclose
      apply hout ha hb
      simpa [doublesClose] using hclose

theorem doublesClose_of_out {a b : ℚ} (ha : ¬InRange a) (hb : ¬InRange b)
    (hsign : a < 0 ↔ b < 0) : doublesClose (toDouble a) (toDouble b) = true := by
  rw [toDouble_of_not_inRange ha, toDouble_of_not_inRange hb]
  simp [doublesClose, hsign]

/-- A verdict on two cells that says close only of numbers that are. -/
def TotalAndHonest (left right : Value) (a b : ℚ) : Prop :=
  ∃ result, valuesClose left right = .ok result ∧ (result = true → Honest a b)

theorem totalAndHonest_iff {left right : Value} {a b : ℚ} (ha : numberOf left = some a)
    (hb : numberOf right = some b) :
    TotalAndHonest left right a b ↔ key left = key right ∨
      ¬Huge left ∧ ¬Huge right ∧ (¬InRange a → ¬InRange b → (a < 0 ↔ b < 0) → Honest a b) := by
  have hleft := converts_of_numberOf ha
  have hright := converts_of_numberOf hb
  by_cases hkey : key left = key right
  · refine iff_of_true ⟨true, if_pos hkey, ?_⟩ (.inl hkey)
    intro _
    rw [numberOf_eq_of_key ha hb hkey]
    exact honest_self b
  · rw [TotalAndHonest, valuesClose_of_ne hleft hright hkey]
    constructor
    · rintro ⟨result, hresult, hhonest⟩
      have hl : ¬Huge left := by
        intro hhuge
        obtain ⟨e, he⟩ := hleft.huge hhuge
        rw [he] at hresult
        cases hresult
      have hr : ¬Huge right := by
        intro hhuge
        obtain ⟨e, he⟩ := hright.huge hhuge
        rw [hleft.ok hl, he] at hresult
        cases hresult
      rw [hleft.ok hl, hright.ok hr] at hresult
      have hvalue := Except.ok.inj hresult
      refine .inr ⟨hl, hr, ?_⟩
      intro hA hB hsign
      apply hhonest
      rw [← hvalue]
      exact doublesClose_of_out hA hB hsign
    · rintro (h | ⟨hl, hr, hout⟩)
      · exact absurd h hkey
      · refine ⟨doublesClose (toDouble a) (toDouble b), ?_, ?_⟩
        · rw [hleft.ok hl, hright.ok hr]
          rfl
        · intro hclose
          exact honest_of_doublesClose hclose hout

/-- The two cells are equal, or neither is an integer without a double. -/
def Convertible (left right : Value) : Prop :=
  key left = key right ∨ ¬Huge left ∧ ¬Huge right

theorem convertible_iff {left right : Value} {a b : ℚ} (ha : numberOf left = some a)
    (hb : numberOf right = some b) :
    (∃ result, valuesClose left right = .ok result) ↔ Convertible left right := by
  have hleft := converts_of_numberOf ha
  have hright := converts_of_numberOf hb
  rw [valuesClose_ok_iff]
  simp only [Overflows, hleft.ne_nan, hright.ne_nan, hleft.isBool, hright.isBool, Convertible,
    or_self, Bool.false_eq_true, not_false_eq_true, true_and, not_and, not_or, ne_eq]
  exact or_iff_not_imp_left.symm

end Numbers

section Verdicts

/-- The rows have only cells of the set. -/
def Over (cells : Set Value) (rows : List Row) : Prop :=
  ∀ row ∈ rows, ∀ cell ∈ row, cell ∈ cells

theorem allClose_ok {cells : List (Value × Value)}
    (h : ∀ cell ∈ cells, ∃ result, valuesClose cell.1 cell.2 = .ok result) :
    ∃ result, allClose cells = .ok result := by
  induction cells with
  | nil => exact ⟨true, rfl⟩
  | cons cell cells ih =>
      obtain ⟨result, hresult⟩ := h cell List.mem_cons_self
      rw [allClose, hresult]
      cases result with
      | false => exact ⟨false, rfl⟩
      | true => exact ih fun other hother => h other (List.mem_cons_of_mem _ hother)

variable (repr : Row → String) (sql : String) {Left Right : Set Value}

/-- The comparison of two results has a verdict. -/
def HasVerdict (base equivalent : List Row) : Prop :=
  ∃ comparison, compareOne repr base equivalent sql = .ok comparison

theorem hasVerdict_of_ok {base equivalent : List Row} {diff : MultisetDiff Row}
    (h : compareMultisets repr (.ofRows base) (.ofRows equivalent) = .ok diff) :
    HasVerdict repr sql base equivalent := by
  unfold HasVerdict compareOne
  rw [h]
  exact ⟨_, rfl⟩

theorem hasVerdict_iff (hleft : ∀ l ∈ Left, ∃ a, numberOf l = some a)
    (hright : ∀ r ∈ Right, ∃ b, numberOf r = some b) :
    (∀ base equivalent, Over Left base → Over Right equivalent →
      HasVerdict repr sql base equivalent) ↔ ∀ l ∈ Left, ∀ r ∈ Right, Convertible l r := by
  constructor
  · intro hverdict l hl r hr
    obtain ⟨a, ha⟩ := hleft l hl
    obtain ⟨b, hb⟩ := hright r hr
    by_cases hkey : key l = key r
    · exact .inl hkey
    apply (convertible_iff ha hb).mp
    cases hclose : valuesClose l r with
    | ok result => exact ⟨result, rfl⟩
    | error e =>
        have hrows : rowsClose [l] [r] = .error e := by
          simp [rowsClose, allClose, hclose]
          rfl
        have hne : rowKey [l] ≠ rowKey [r] := by
          simpa [rowKey] using hkey
        obtain ⟨comparison, hcomparison⟩ := hverdict [[l]] [[r]] (by simpa [Over]) (by simpa [Over])
        rw [compareOne, compareMultisets_error repr hne hrows] at hcomparison
        cases hcomparison
  · intro hconvertible base equivalent hbase hequivalent
    obtain ⟨diff, hdiff⟩ : ∃ diff, compareMultisets repr (.ofRows base) (.ofRows equivalent) =
        .ok diff := by
      apply compareMultisets_ok
      intro b hb o ho
      have hkeys := Counter.mem_keys_of_mem_bag (Multiset.mem_of_le (Multiset.sub_le_self _ _) hb)
      have hkeys' := Counter.mem_keys_of_mem_bag (Multiset.mem_of_le (Multiset.sub_le_self _ _) ho)
      unfold shownClose rowsClose
      split
      · apply allClose_ok
        rintro ⟨l, r⟩ hcell
        have hl := hbase _ (shown_mem hkeys) l (List.of_mem_zip hcell).1
        have hr := hequivalent _ (shown_mem hkeys') r (List.of_mem_zip hcell).2
        obtain ⟨a, ha⟩ := hleft l hl
        obtain ⟨b', hb'⟩ := hright r hr
        exact (convertible_iff ha hb').mpr (hconvertible l hl r hr)
      · exact ⟨false, rfl⟩
    exact hasVerdict_of_ok repr sql hdiff

end Verdicts

/-- An integer of four hundred digits. -/
def hundreds : ℤ := 10 ^ 400

end EqGen.Fuzz.Closeness
