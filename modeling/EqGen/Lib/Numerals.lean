import Mathlib.Data.Rat.Defs
import Mathlib.Algebra.Order.Field.Rat
import EqGen.Lib.Lines

/-!
The numerals that Python's `int` and `float` read: decimal digits of any script, and blanks
around them.
-/

namespace EqGen.Lib.Numerals

open EqGen.Lib.Lines

section Digits

/-- The zeros of the runs of ten decimal digits in Unicode. -/
def zeros : List Nat :=
  [0x30, 0x660, 0x6f0, 0x7c0, 0x966, 0x9e6, 0xa66, 0xae6, 0xb66, 0xbe6, 0xc66, 0xce6, 0xd66, 0xde6,
    0xe50, 0xed0, 0xf20, 0x1040, 0x1090, 0x17e0, 0x1810, 0x1946, 0x19d0, 0x1a80, 0x1a90, 0x1b50,
    0x1bb0, 0x1c40, 0x1c50, 0xa620, 0xa8d0, 0xa900, 0xa9d0, 0xa9f0, 0xaa50, 0xabf0, 0xff10,
    0x104a0, 0x10d30, 0x11066, 0x110f0, 0x11136, 0x111d0, 0x112f0, 0x11450, 0x114d0, 0x11650,
    0x116c0, 0x11730, 0x118e0, 0x11950, 0x11c50, 0x11d50, 0x11da0, 0x16a60, 0x16ac0, 0x16b50,
    0x1d7ce, 0x1d7d8, 0x1d7e2, 0x1d7ec, 0x1d7f6, 0x1e140, 0x1e2f0, 0x1e950, 0x1fbf0]

def digitValue (c : Char) : Option Nat :=
  (zeros.find? fun first => first ≤ c.toNat ∧ c.toNat < first + 10).map fun first =>
    c.toNat - first

/-- `\d` -/
def isDigit (c : Char) : Bool := (digitValue c).isSome

/-- The value of a run of digits, most significant first. -/
def digitsValue (digits : List Nat) : Nat :=
  digits.foldl (fun value digit => 10 * value + digit) 0

/-- The blanks that `int` and `float` skip; the separators from `\x1c` on are not among them. -/
def isSkipped (c : Char) : Bool :=
  isSpace c && !(0x1c ≤ c.toNat && c.toNat ≤ 0x1f)

/-- A text without the blanks that `int` and `float` skip. -/
def skipBlanks (text : List Char) : List Char :=
  (text.dropWhile isSkipped).rdropWhile isSkipped

end Digits

section Integers

/-- Digits, with single underscores between them. -/
def digitsOf : List Char → Option (List Nat)
  | [] => none
  | [c] => (digitValue c).map fun digit => [digit]
  | c :: '_' :: rest => do return (← digitValue c) :: (← digitsOf rest)
  | c :: rest => do return (← digitValue c) :: (← digitsOf rest)

/-- The limit on the length of an integer that is read from text. -/
def maxStrDigits : Nat := 4300

def natOf (text : List Char) : Option Nat := do
  let digits ← digitsOf text
  if digits.length ≤ maxStrDigits then some (digitsValue digits) else none

/-- `int(text)`; a `ValueError` is `none`. -/
def int (text : List Char) : Option Int :=
  match skipBlanks text with
  | '-' :: rest => (natOf rest).map fun value => -(value : Int)
  | '+' :: rest => (natOf rest).map fun value => (value : Int)
  | rest => (natOf rest).map fun value => (value : Int)

example : int " -1_0\t".toList = some (-10) := by decide +kernel

example : int "\x1f1".toList = none := by decide +kernel

end Integers

section Decimals

/-- A sign, which may be missing, and what follows it. -/
def signed : List Char → Bool × List Char
  | '+' :: text => (false, text)
  | '-' :: text => (true, text)
  | text => (false, text)

/-- The exponent a numeral ends in. -/
def exponentOf : List Char → Option ℤ
  | [] => some 0
  | c :: text =>
      let digits := (signed text).2
      if (c = 'e' ∨ c = 'E') ∧ digits ≠ [] ∧ digits.all isDigit then
        let exponent := digitsValue (digits.filterMap digitValue)
        some (if (signed text).1 then -(exponent : ℤ) else exponent)
      else none

/--
The number that a text spells: a sign, digits with or without a point among them or at their
ends, an exponent.
-/
def numeral (text : List Char) : Option ℚ :=
  let (negative, text) := signed text
  let whole := text.takeWhile isDigit
  let text := text.dropWhile isDigit
  let (fraction, text) :=
    match text with
    | '.' :: text => (text.takeWhile isDigit, text.dropWhile isDigit)
    | text => ([], text)
  if whole = [] ∧ fraction = [] then none
  else
    (exponentOf text).map fun exponent =>
      let digits := digitsValue ((whole ++ fraction).filterMap digitValue)
      let magnitude : ℚ := digits * 10 ^ (exponent - (fraction.length : ℤ))
      if negative then -magnitude else magnitude

/-- `float(text)` on such texts, before it is rounded; a `ValueError` is `none`. -/
def float (text : List Char) : Option ℚ :=
  numeral (skipBlanks text)

example : float "\u20031.5e1 ".toList = some 15 := by decide +kernel

end Decimals

end EqGen.Lib.Numerals
