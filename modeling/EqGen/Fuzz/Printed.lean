import EqGen.Fuzz.Compare
import EqGen.Fuzz.Frozen
import EqGen.Lib.Literals

/-!
`repr` of the cells of canonical rows: what a mismatch shows of a row, and what the members of an
object are sorted by.
-/

namespace EqGen.Fuzz.Printed

open EqGen.Fuzz.Frozen
open EqGen.Lib.Literals
open EqGen.Lib.Trees

/--
What `repr` takes from Python's tables and number formats. Cells that are only ever compared are
told apart by a text, from which `other` makes the printed form.
-/
class Printing where
  isPrintable : Char → Bool
  float : ℚ → List Char
  decimal : ℚ → List Char
  undefinedDecimal : Nat → List Char
  other : String → List Char
  float_line : ∀ value, '\n' ∉ float value
  decimal_line : ∀ value, '\n' ∉ decimal value
  undefinedDecimal_line : ∀ object, '\n' ∉ undefinedDecimal object
  other_line : ∀ text, '\n' ∉ other text

/-- An integer in decimal digits. -/
def digitsOfInt (value : ℤ) : List Char :=
  if value < 0 then '-' :: Nat.toDigits 10 value.natAbs else Nat.toDigits 10 value.natAbs

theorem newline_notMem_digitsOfInt (value : ℤ) : '\n' ∉ digitsOfInt value := by
  unfold digitsOfInt
  split_ifs <;> simp

/-- The forms of texts in ASCII and of whole numbers; the others are not Python's. -/
@[reducible]
def wholePrinting : Printing where
  isPrintable _ := false
  float value := digitsOfInt value.floor ++ ['.', '0']
  decimal value := "Decimal('".toList ++ digitsOfInt value.floor ++ ['\'', ')']
  undefinedDecimal _ := "Decimal('NaN')".toList
  other _ := "datetime.date(2024, 1, 1)".toList
  float_line value := by simp [newline_notMem_digitsOfInt]
  decimal_line value := by simp [newline_notMem_digitsOfInt]
  undefinedDecimal_line _ := by decide
  other_line _ := by decide

variable [Printing]

/-- `repr` of a text. -/
def reprText (value : String) : List Char :=
  literal Printing.isPrintable value.toList

def reprAtom : Atom → List Char
  | .none => "None".toList
  | .bool value => if value then "True".toList else "False".toList
  | .int value => digitsOfInt value
  | .float value => Printing.float value
  | .decimal value => Printing.decimal value
  | .infiniteDecimal negative =>
    if negative then "Decimal('-Infinity')".toList else "Decimal('Infinity')".toList
  | .undefinedDecimal object => Printing.undefinedDecimal object
  | .text value => reprText value
  | .other text => Printing.other text

mutual

def reprCell : Value → List Char
  | .leaf atom => reprAtom atom
  | .branch items => '(' :: reprItems items

/-- The items of a tuple up to its end; a single one is followed by a comma. -/
def reprItems : List Value → List Char
  | [] => [')']
  | [item] => reprCell item ++ [',', ')']
  | item :: items => reprCell item ++ reprRest items

def reprRest : List Value → List Char
  | [] => [')']
  | item :: items => ',' :: ' ' :: (reprCell item ++ reprRest items)

end

/-- `repr` -/
def repr (value : Value) : String :=
  String.ofList (reprCell value)

example : repr (.branch [.leaf .none]) = "(None,)" := by
  rw [repr, reprCell, reprItems, reprCell, reprAtom]
  rfl

theorem newline_notMem_reprAtom (atom : Atom) : '\n' ∉ reprAtom atom := by
  cases atom with
  | none => simp [reprAtom]
  | bool value => cases value <;> simp [reprAtom]
  | int value => exact newline_notMem_digitsOfInt value
  | float value => exact Printing.float_line value
  | decimal value => exact Printing.decimal_line value
  | infiniteDecimal negative => cases negative <;> simp [reprAtom]
  | undefinedDecimal object => exact Printing.undefinedDecimal_line object
  | text value => exact newline_notMem_literal value.toList
  | other text => exact Printing.other_line text

mutual

theorem newline_notMem_reprCell : (value : Value) → '\n' ∉ reprCell value
  | .leaf atom => by
    rw [reprCell]
    exact newline_notMem_reprAtom atom
  | .branch items => by
    rw [reprCell, List.mem_cons, not_or]
    exact ⟨by decide, newline_notMem_reprItems items⟩

theorem newline_notMem_reprItems : (items : List Value) → '\n' ∉ reprItems items
  | [] => by simp [reprItems]
  | [item] => by simp [reprItems, newline_notMem_reprCell item]
  | item :: next :: items => by
    simp [reprItems, newline_notMem_reprCell item, newline_notMem_reprRest (next :: items)]

theorem newline_notMem_reprRest : (items : List Value) → '\n' ∉ reprRest items
  | [] => by simp [reprRest]
  | item :: items => by
    simp [reprRest, newline_notMem_reprCell item, newline_notMem_reprRest items]

end

theorem repr_text_injective {name name' : String}
    (h : repr (.leaf (.text name)) = repr (.leaf (.text name'))) : name = name' := by
  have h := String.ofList_injective h
  rw [reprCell, reprCell, reprAtom, reprAtom] at h
  exact String.toList_inj.mp (literal_append_inj (congrArg (· ++ []) h))

/-- Tuples that start with two different texts are in the order of the texts. -/
theorem repr_text_le_iff {name name' : String} (hne : name ≠ name') (items items' : List Value) :
    repr (.branch (.leaf (.text name) :: items)) ≤ repr (.branch (.leaf (.text name') :: items')) ↔
      repr (.leaf (.text name)) ≤ repr (.leaf (.text name')) := by
  have hstart (name : String) (items : List Value) : ∃ rest,
      reprCell (.branch (.leaf (.text name) :: items)) = ['('] ++ reprText name ++ rest := by
    cases items <;> simp [reprCell, reprItems, reprAtom]
  obtain ⟨rest, hrest⟩ := hstart name items
  obtain ⟨rest', hrest'⟩ := hstart name' items'
  have hlists : name'.toList ≠ name.toList := fun h => hne (String.toList_inj.mp h).symm
  rw [← not_lt, ← not_lt, String.lt_iff_toList_lt, String.lt_iff_toList_lt, repr, repr, repr, repr]
  simp only [String.toList_ofList]
  rw [hrest, hrest', reprText, reprText, literal_append_lt_iff hlists]
  rfl

/-- A row prints as the tuple it is. -/
instance : Compare.CanonicalRow Row where
  repr row := repr (.branch row)
  repr_line row := by
    rw [repr, String.toList_ofList]
    exact newline_notMem_reprCell (.branch row)

example : @Compare.CanonicalRow.repr Row (@instCanonicalRowRow wholePrinting)
    [.leaf (.int (-3)), .branch [.leaf (.text "a\nb")]] = "(-3, ('a\\nb',))" := by
  decide +kernel

end EqGen.Fuzz.Printed
