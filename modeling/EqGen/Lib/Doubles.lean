import Mathlib.Data.Int.Log
import Mathlib.Data.Rat.Floor
import Mathlib.Data.Sign.Basic
import Mathlib.Tactic.Linarith
import Mathlib.Tactic.NormNum
import Mathlib.Tactic.Positivity

/-!
Doubles as the rationals they stand for, rounded to the nearest double at each operation, and how
far rounding takes them.
-/

namespace EqGen.Lib.Doubles

/-- The integer nearest to a non-negative rational, the even one of two. -/
def nearestInt (x : ℚ) : ℤ :=
  let rest := x - ⌊x⌋
  if rest < 1 / 2 then ⌊x⌋
  else if 1 / 2 < rest then ⌊x⌋ + 1
  else if ⌊x⌋ % 2 = 0 then ⌊x⌋ else ⌊x⌋ + 1

/-- The spacing of doubles around a positive magnitude. -/
def spacing (x : ℚ) : ℚ := 2 ^ max (Int.log 2 x - 52) (-1074)

/-- The double nearest to a rational, before any overflow. -/
def roundDouble (x : ℚ) : ℚ :=
  SignType.sign x * (nearestInt (|x| / spacing |x|) * spacing |x|)

theorem roundDouble_neg (x : ℚ) : roundDouble (-x) = -roundDouble x := by
  simp [roundDouble, Left.sign_neg]

theorem abs_roundDouble_sub_comm (x y : ℚ) : |roundDouble (x - y)| = |roundDouble (y - x)| := by
  rw [← neg_sub y x, roundDouble_neg, abs_neg]

/-- A double that is not a NaN. -/
inductive Double where
  | finite (value : ℚ)
  | infinite (negative : Bool)
  deriving DecidableEq

/-- The rounding of a rational; a magnitude halfway above the largest double overflows. -/
def toDouble (x : ℚ) : Double :=
  if 2 ^ 1024 - 2 ^ 970 ≤ |x| then .infinite (decide (x < 0)) else .finite (roundDouble x)

/-- `math.isclose` of two finite doubles. -/
def isclose (relTol absTol a b : ℚ) : Bool :=
  let diff := |roundDouble (b - a)|
  a = b || diff ≤ |roundDouble (relTol * b)| || diff ≤ |roundDouble (relTol * a)| ||
    diff ≤ absTol

theorem isclose_comm (relTol absTol a b : ℚ) :
    isclose relTol absTol a b = isclose relTol absTol b a := by
  simp only [isclose, eq_comm (a := a), abs_roundDouble_sub_comm b a, Bool.or_right_comm]

section Errors

theorem abs_nearestInt_sub_le (x : ℚ) : |(nearestInt x : ℚ) - x| ≤ 1 / 2 := by
  have hlow := Int.floor_le x
  have hhigh := Int.lt_floor_add_one x
  unfold nearestInt
  simp only
  split
  · rw [abs_le]
    constructor <;> linarith
  · split
    · push_cast
      rw [abs_le]
      constructor <;> linarith
    · split
      · rw [abs_le]
        constructor <;> linarith
      · push_cast
        rw [abs_le]
        constructor <;> linarith

theorem spacing_pos (x : ℚ) : 0 < spacing x := by
  unfold spacing
  exact zpow_pos (by norm_num) _

theorem spacing_le {x : ℚ} (hx : 0 < x) : spacing x ≤ x / 2 ^ 52 + 1 / 2 ^ 59 := by
  have hlog : (2 : ℚ) ^ (Int.log 2 x - 52) ≤ x / 2 ^ 52 := by
    have hself := Int.zpow_log_le_self (b := 2) (by norm_num) hx
    rw [zpow_sub₀ two_ne_zero]
    exact div_le_div_of_nonneg_right (by exact_mod_cast hself) (by positivity)
  have hleast : (2 : ℚ) ^ (-1074 : ℤ) ≤ 1 / 2 ^ 59 := by
    rw [one_div, ← zpow_natCast, ← zpow_neg]
    exact zpow_le_zpow_right₀ (by norm_num) (by norm_num)
  unfold spacing
  rcases max_choice (Int.log 2 x - 52) (-1074) with h | h
  · rw [h]
    linarith [show (0 : ℚ) ≤ 1 / 2 ^ 59 by positivity]
  · rw [h]
    linarith [show (0 : ℚ) ≤ x / 2 ^ 52 by positivity]

/-- A double is as near as its format allows. -/
theorem abs_roundDouble_sub_le (x : ℚ) : |roundDouble x - x| ≤ |x| / 2 ^ 53 + 1 / 2 ^ 60 := by
  rcases eq_or_ne x 0 with rfl | hne
  · simp [roundDouble]
  have hpos : 0 < |x| := abs_pos.mpr hne
  set step := spacing |x| with hstep
  have hsteppos : 0 < step := spacing_pos _
  have hsign : |((SignType.sign x : ℤ) : ℚ)| = 1 := by
    rcases lt_or_gt_of_ne hne with h | h
    · simp [sign_neg h]
    · simp [sign_pos h]
  have hself : x = (SignType.sign x : ℤ) * |x| := by
    exact_mod_cast (sign_mul_abs x).symm
  have hround : roundDouble x - x =
      (SignType.sign x : ℤ) * ((nearestInt (|x| / step) - |x| / step) * step) := by
    have hcancel : |x| / step * step = |x| := div_mul_cancel₀ _ hsteppos.ne'
    rw [sub_mul, hcancel, mul_sub, ← hself]
    simp [roundDouble, hstep]
  calc |roundDouble x - x|
      = |(nearestInt (|x| / step) : ℚ) - |x| / step| * step := by
        rw [hround, abs_mul, hsign, one_mul, abs_mul, abs_of_pos hsteppos]
    _ ≤ 1 / 2 * step := by
        exact mul_le_mul_of_nonneg_right (abs_nearestInt_sub_le _) hsteppos.le
    _ ≤ |x| / 2 ^ 53 + 1 / 2 ^ 60 := by
        have hle := spacing_le hpos
        rw [← hstep] at hle
        linarith

theorem abs_roundDouble_le (x : ℚ) : |roundDouble x| ≤ |x| + |x| / 2 ^ 53 + 1 / 2 ^ 60 := by
  have h := abs_roundDouble_sub_le x
  have htriangle := abs_sub_abs_le_abs_sub (roundDouble x) x
  linarith

theorem abs_le_abs_roundDouble (x : ℚ) : |x| ≤ |roundDouble x| + |x| / 2 ^ 53 + 1 / 2 ^ 60 := by
  have h := abs_roundDouble_sub_le x
  have htriangle := abs_sub_abs_le_abs_sub x (roundDouble x)
  rw [abs_sub_comm] at htriangle
  linarith

end Errors

end EqGen.Lib.Doubles
