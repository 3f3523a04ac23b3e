import EqGen.Lib.Doubles
import EqGen.Lib.Numerals
import EqGen.Lib.Trees

/-!
The cells of canonical rows as the drivers hand them over: which are equal, which count as
numbers, and when two are close. Converting an integer to a double can fail.
-/

namespace EqGen.Fuzz.Frozen

open EqGen.Lib.Doubles
open EqGen.Lib.Lines
open EqGen.Lib.Numerals
open EqGen.Lib.Trees

/--
A cell that is no tuple. Floats are finite, since `_freeze` replaces the others; an undefined
decimal equals no other, so it carries which object it is; whatever is only ever compared for
equality (dates, bytes, identifiers) is told apart by its printed form.
-/
inductive Atom where
  | none
  | bool (value : Bool)
  | int (value : ℤ)
  | float (value : ℚ)
  | decimal (value : ℚ)
  | infiniteDecimal (negative : Bool)
  | undefinedDecimal (object : Nat)
  | text (value : String)
  | other (repr : String)
  deriving DecidableEq

/-- A hashable cell: an atom, or a tuple of cells. -/
abbrev Value := RoseTree Atom

/-- What is left of an atom for the purposes of `==`: numbers of every kind compare by value. -/
inductive Key where
  | none
  | number (value : ℚ)
  | infinite (negative : Bool)
  | undefined (object : Nat)
  | text (value : String)
  | other (repr : String)
  deriving DecidableEq

def Atom.key : Atom → Key
  | .none => .none
  | .bool value => .number (if value then 1 else 0)
  | .int value => .number value
  | .float value => .number value
  | .decimal value => .number value
  | .infiniteDecimal negative => .infinite negative
  | .undefinedDecimal object => .undefined object
  | .text value => .text value
  | .other repr => .other repr

/-- Two cells are `==` when they have one key. -/
def key (value : Value) : RoseTree Key :=
  value.map Atom.key

/-- `_NAN` -/
def nanSentinel : Value := .branch [.leaf (.text "__nan__")]

/-- `_POS_INF` and `_NEG_INF` -/
def infSentinel (positive : Bool) : Value :=
  .branch [.leaf (.text "__inf__"), .leaf (.bool positive)]

/-- `OverflowError: int too large to convert to float` -/
inductive Overflow where
  | intTooLarge
  deriving DecidableEq

/-- A double, or the undefined one. -/
inductive Numeric where
  | nan
  | double (value : Double)
  deriving DecidableEq

def finiteOrRaise : Double → Except Overflow Double
  | .finite value => .ok (.finite value)
  | .infinite _ => .error .intTooLarge

/-- `float` of an integer. -/
def floatOfInt (n : ℤ) : Except Overflow Double :=
  finiteOrRaise (toDouble n)

/--
The number of a text that `_NUMERIC_STRING` matches once it is stripped. `float` strips less: it
raises a `ValueError` at the separators that `str.strip` takes off.
-/
def numberOfText (value : String) : Option ℚ :=
  if (numeral (strip value.toList)).isSome then float value.toList else none

example : numberOfText " ٣.5 " = some (7 / 2) := by decide +kernel

example : numberOfText "\x1f3.5" = none := by decide +kernel

/-- `_as_float` -/
def asFloat : Value → Except Overflow (Option Numeric)
  | .leaf (.float value) => .ok (some (.double (.finite value)))
  | .leaf (.int value) => (floatOfInt value).map fun double => some (.double double)
  | .leaf (.decimal value) => .ok (some (.double (toDouble value)))
  | .leaf (.infiniteDecimal negative) => .ok (some (.double (.infinite negative)))
  | .leaf (.undefinedDecimal _) => .ok (some .nan)
  | .leaf (.text value) =>
    .ok ((numberOfText value).map fun number => .double (toDouble number))
  | _ => .ok none

/-- `_is_nan` -/
def isNan (value : Value) : Bool :=
  match value with
  | .leaf (.undefinedDecimal _) => true
  | value => value = nanSentinel

def isBool : Value → Bool
  | .leaf (.bool _) => true
  | _ => false

/-- `FLOAT_REL_TOL` -/
def floatRelTol : ℚ := roundDouble (1 / 10000)

/-- `FLOAT_ABS_TOL` -/
def floatAbsTol : ℚ := roundDouble (5 / 10000)

/-- Infinities only agree with themselves. -/
def doublesClose : Double → Double → Bool
  | .finite a, .finite b => isclose floatRelTol floatAbsTol a b
  | a, b => a = b

/-- The end of `_values_close`, on what the two cells are as floats. -/
def numericsClose : Option Numeric → Option Numeric → Bool
  | some .nan, some .nan => true
  | some (.double a), some (.double b) => doublesClose a b
  | _, _ => false

/-- `_values_close`; an undefined decimal is close to itself, as to any other. -/
def valuesClose (left right : Value) : Except Overflow Bool :=
  if key left = key right then .ok true
  else if left = nanSentinel ∨ right = nanSentinel then .ok (isNan left && isNan right)
  else if isBool left ∨ isBool right then .ok false
  else do
    let a ← asFloat left
    let b ← asFloat right
    .ok (numericsClose a b)

abbrev Row := List Value

def rowKey (row : Row) : List (RoseTree Key) :=
  row.map key

/-- `all`, which stops at the first pair that is not close. -/
def allClose : List (Value × Value) → Except Overflow Bool
  | [] => .ok true
  | (left, right) :: cells => do
    if ← valuesClose left right then allClose cells else .ok false

/-- `_rows_close` -/
def rowsClose (left right : Row) : Except Overflow Bool :=
  if left.length = right.length then allClose (left.zip right) else .ok false

section Overflow

/-- The number has a double. -/
def InRange (a : ℚ) : Prop :=
  |a| < 2 ^ 1024 - 2 ^ 970

instance (a : ℚ) : Decidable (InRange a) := inferInstanceAs (Decidable (_ < _))

/-- An integer that no double is near. -/
def Huge (value : Value) : Prop :=
  ∃ n : ℤ, value = .leaf (.int n) ∧ ¬InRange n

theorem toDouble_of_inRange {a : ℚ} (h : InRange a) : toDouble a = .finite (roundDouble a) :=
  if_neg (not_le.mpr h)

theorem toDouble_of_not_inRange {a : ℚ} (h : ¬InRange a) :
    toDouble a = .infinite (decide (a < 0)) :=
  if_pos (not_lt.mp h)

theorem asFloat_int (n : ℤ) :
    asFloat (.leaf (.int n)) = (floatOfInt n).map fun double => some (.double double) := rfl

/-- Only integers without a double raise. -/
theorem asFloat_ok_iff (value : Value) : (∃ number, asFloat value = .ok number) ↔ ¬Huge value := by
  constructor
  · rintro ⟨number, hnumber⟩ ⟨n, rfl, hn⟩
    rw [asFloat_int, floatOfInt, toDouble_of_not_inRange hn] at hnumber
    cases hnumber
  · intro hhuge
    rcases value with atom | items
    · cases atom with
      | int n =>
          have hn : InRange n := by
            by_contra hn
            exact hhuge ⟨n, rfl, hn⟩
          exact ⟨_, by rw [asFloat_int, floatOfInt, toDouble_of_inRange hn]; rfl⟩
      | none => exact ⟨_, rfl⟩
      | bool value => exact ⟨_, rfl⟩
      | float value => exact ⟨_, rfl⟩
      | decimal value => exact ⟨_, rfl⟩
      | infiniteDecimal negative => exact ⟨_, rfl⟩
      | undefinedDecimal object => exact ⟨_, rfl⟩
      | text value => exact ⟨_, rfl⟩
      | other repr => exact ⟨_, rfl⟩
    · exact ⟨_, rfl⟩

/--
An integer that no double is near, beside a cell that is another value and neither a boolean nor
an undefined number.
-/
def Overflows (left right : Value) : Prop :=
  key left ≠ key right ∧ ¬(left = nanSentinel ∨ right = nanSentinel) ∧
    ¬(isBool left = true ∨ isBool right = true) ∧ (Huge left ∨ Huge right)

theorem valuesClose_ok_iff (left right : Value) :
    (∃ result, valuesClose left right = .ok result) ↔ ¬Overflows left right := by
  by_cases hkey : key left = key right
  · exact iff_of_true ⟨true, if_pos hkey⟩ fun h => h.1 hkey
  by_cases hnan : left = nanSentinel ∨ right = nanSentinel
  · exact iff_of_true ⟨_, by rw [valuesClose, if_neg hkey, if_pos hnan]⟩ fun h => h.2.1 hnan
  by_cases hbool : isBool left = true ∨ isBool right = true
  · exact iff_of_true ⟨false, by rw [valuesClose, if_neg hkey, if_neg hnan, if_pos hbool]⟩
      fun h => h.2.2.1 hbool
  rw [valuesClose, if_neg hkey, if_neg hnan, if_neg hbool]
  have hleft := asFloat_ok_iff left
  have hright := asFloat_ok_iff right
  cases ha : asFloat left with
  | error e =>
      rw [ha] at hleft
      have hhuge : Huge left := by
        by_contra hhuge
        obtain ⟨number, hnumber⟩ := hleft.mpr hhuge
        cases hnumber
      refine iff_of_false ?_ fun h => h ⟨hkey, hnan, hbool, .inl hhuge⟩
      rintro ⟨result, hresult⟩
      cases hresult
  | ok a =>
      have hhuge : ¬Huge left := hleft.mp ⟨a, ha⟩
      cases hb : asFloat right with
      | error e =>
          rw [hb] at hright
          have hhuge' : Huge right := by
            by_contra hhuge'
            obtain ⟨number, hnumber⟩ := hright.mpr hhuge'
            cases hnumber
          refine iff_of_false ?_ fun h => h ⟨hkey, hnan, hbool, .inr hhuge'⟩
          rintro ⟨result, hresult⟩
          cases hresult
      | ok b =>
          have hhuge' : ¬Huge right := hright.mp ⟨b, hb⟩
          refine iff_of_true ⟨numericsClose a b, rfl⟩ ?_
          rintro ⟨-, -, -, h | h⟩
          · exact hhuge h
          · exact hhuge' h

/-- Rows of one width that are close up to a place whose cells overflow. -/
def RowsOverflow (left right : Row) : Prop :=
  left.length = right.length ∧ ∃ before cell after, left.zip right = before ++ cell :: after ∧
    (∀ close ∈ before, valuesClose close.1 close.2 = .ok true) ∧ Overflows cell.1 cell.2

theorem allClose_ok_iff (cells : List (Value × Value)) :
    (∃ result, allClose cells = .ok result) ↔
      ¬∃ before cell after, cells = before ++ cell :: after ∧
        (∀ close ∈ before, valuesClose close.1 close.2 = .ok true) ∧ Overflows cell.1 cell.2 := by
  induction cells with
  | nil =>
      refine iff_of_true ⟨true, rfl⟩ ?_
      rintro ⟨before, cell, after, hcells, -, -⟩
      simp at hcells
  | cons first cells ih =>
      have hfirst := valuesClose_ok_iff first.1 first.2
      obtain ⟨left, right⟩ := first
      simp only at hfirst
      rw [allClose]
      cases hclose : valuesClose left right with
      | error e =>
          rw [hclose] at hfirst
          refine iff_of_false ?_ fun h => h ⟨[], (left, right), cells, rfl, by simp, ?_⟩
          · rintro ⟨result, hresult⟩
            cases hresult
          · by_contra hnot
            obtain ⟨result, hresult⟩ := hfirst.mpr hnot
            cases hresult
      | ok result =>
          have hnot : ¬Overflows left right := hfirst.mp ⟨result, hclose⟩
          cases result with
          | false =>
              refine iff_of_true ⟨false, rfl⟩ ?_
              rintro ⟨before, cell, after, hcells, hbefore, hcell⟩
              cases before with
              | nil =>
                  obtain ⟨rfl, -⟩ := List.cons.inj hcells
                  exact hnot hcell
              | cons other before =>
                  obtain ⟨rfl, -⟩ := List.cons.inj hcells
                  have htrue := hbefore _ List.mem_cons_self
                  rw [hclose] at htrue
                  cases htrue
          | true =>
              show (∃ result, allClose cells = .ok result) ↔ _
              rw [ih, not_iff_not]
              constructor
              · rintro ⟨before, cell, after, rfl, hbefore, hcell⟩
                exact ⟨(left, right) :: before, cell, after, rfl,
                  List.forall_mem_cons.mpr ⟨hclose, hbefore⟩, hcell⟩
              · rintro ⟨before, cell, after, hcells, hbefore, hcell⟩
                cases before with
                | nil =>
                    obtain ⟨rfl, -⟩ := List.cons.inj hcells
                    exact absurd hcell hnot
                | cons other before =>
                    obtain ⟨rfl, rfl⟩ := List.cons.inj hcells
                    exact ⟨before, cell, after, rfl, (List.forall_mem_cons.mp hbefore).2, hcell⟩

/-- Comparing two rows raises just when it comes to cells that overflow. -/
theorem rowsClose_ok_iff (left right : Row) :
    (∃ result, rowsClose left right = .ok result) ↔ ¬RowsOverflow left right := by
  rw [rowsClose]
  split
  · next hlength =>
      rw [allClose_ok_iff, RowsOverflow]
      simp only [hlength, true_and]
  · next hlength => exact iff_of_true ⟨false, rfl⟩ fun h => hlength h.1

end Overflow

section Symmetry

theorem doublesClose_comm (a b : Double) : doublesClose a b = doublesClose b a := by
  cases a with
  | finite a =>
      cases b with
      | finite b => exact isclose_comm _ _ a b
      | infinite negative => rfl
  | infinite negative =>
      cases b with
      | finite b => rfl
      | infinite negative' => simp [doublesClose, eq_comm]

theorem numericsClose_comm (a b : Option Numeric) : numericsClose a b = numericsClose b a := by
  rcases a with _ | _ | a <;> rcases b with _ | _ | b
  case some.double.some.double => exact doublesClose_comm a b
  all_goals rfl

/-- There is one error, so it does not matter which cell is converted first. -/
theorem bind_asFloat_comm (left right : Value) :
    (do let a ← asFloat left; let b ← asFloat right; .ok (numericsClose a b)) =
      (do let b ← asFloat right; let a ← asFloat left; .ok (numericsClose b a) :
        Except Overflow Bool) := by
  cases asFloat left with
  | error e =>
      cases asFloat right with
      | error e' =>
          cases e
          cases e'
          rfl
      | ok b => rfl
  | ok a =>
      cases asFloat right with
      | error e' => rfl
      | ok b => exact congrArg Except.ok (numericsClose_comm a b)

theorem valuesClose_comm (left right : Value) : valuesClose left right = valuesClose right left := by
  simp only [valuesClose, eq_comm (a := key left), or_comm (a := left = nanSentinel),
    or_comm (a := isBool left = true), Bool.and_comm (isNan left), bind_asFloat_comm left right]

theorem allClose_comm (left right : Row) : allClose (left.zip right) = allClose (right.zip left) := by
  induction left generalizing right with
  | nil => cases right <;> rfl
  | cons cell left ih =>
      cases right with
      | nil => rfl
      | cons cell' right =>
          rw [List.zip_cons_cons, List.zip_cons_cons, allClose, allClose, valuesClose_comm, ih]

theorem rowsClose_comm (left right : Row) : rowsClose left right = rowsClose right left := by
  simp only [rowsClose, eq_comm (a := left.length), allClose_comm left right]

end Symmetry

section Equal

theorem allClose_of_key {cells : List (Value × Value)}
    (h : ∀ cell ∈ cells, key cell.1 = key cell.2) : allClose cells = .ok true := by
  induction cells with
  | nil => rfl
  | cons cell cells ih =>
      have hcell : valuesClose cell.1 cell.2 = .ok true := if_pos (h cell List.mem_cons_self)
      rw [allClose, hcell]
      exact ih fun other hother => h other (List.mem_cons_of_mem _ hother)

/-- Rows of one key are close. -/
theorem rowsClose_of_key {left right : Row} (h : rowKey left = rowKey right) :
    rowsClose left right = .ok true := by
  have hlength : left.length = right.length := by
    simpa [rowKey] using congrArg List.length h
  rw [rowsClose, if_pos hlength]
  apply allClose_of_key
  intro cell hcell
  obtain ⟨i, hi, heq⟩ := List.getElem_of_mem hcell
  rw [List.getElem_zip] at heq
  rw [List.length_zip] at hi
  have hkey : (rowKey left)[i]? = (rowKey right)[i]? := by
    rw [h]
  simp only [rowKey, List.getElem?_map] at hkey
  rw [List.getElem?_eq_getElem (by omega), List.getElem?_eq_getElem (by omega)] at hkey
  rw [← heq]
  exact Option.some.inj hkey

end Equal

end EqGen.Fuzz.Frozen
