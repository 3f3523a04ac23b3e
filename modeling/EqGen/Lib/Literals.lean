import Mathlib.Data.List.Basic
import Mathlib.Data.String.Basic

/-!
Texts as Python's `repr` prints them: the quotes, the escapes, and why the literals of two texts
stand in one order whatever follows them.
-/

namespace EqGen.Lib.Literals

section Hex

def hexDigit (digit : Nat) : Char :=
  "0123456789abcdef".toList.getD digit '0'

/-- The last hexadecimal digits of a number, the most significant first. -/
def hexDigits : Nat → Nat → List Char
  | 0, _ => []
  | width + 1, number =>
    hexDigit (number / 16 ^ width % 16) :: hexDigits width (number % 16 ^ width)

theorem hexDigit_injective {m n : Nat} (hm : m < 16) (hn : n < 16)
    (h : hexDigit m = hexDigit n) : m = n := by
  have hall : ∀ m < 16, ∀ n < 16, hexDigit m = hexDigit n → m = n := by decide
  exact hall m hm n hn h

@[simp] theorem length_hexDigits (width number : Nat) :
    (hexDigits width number).length = width := by
  induction width generalizing number with
  | zero => rfl
  | succ width ih => rw [hexDigits, List.length_cons, ih]

theorem hexDigits_injective {width m n : Nat} (hm : m < 16 ^ width) (hn : n < 16 ^ width)
    (h : hexDigits width m = hexDigits width n) : m = n := by
  induction width generalizing m n with
  | zero =>
      rw [pow_zero, Nat.lt_one_iff] at hm hn
      rw [hm, hn]
  | succ width ih =>
      have hpos : 0 < 16 ^ width := Nat.pow_pos (by decide)
      rw [pow_succ] at hm hn
      rw [hexDigits, hexDigits, List.cons.injEq] at h
      have hhead := hexDigit_injective (Nat.mod_lt _ (by decide)) (Nat.mod_lt _ (by decide)) h.1
      rw [Nat.mod_eq_of_lt (Nat.div_lt_of_lt_mul hm),
        Nat.mod_eq_of_lt (Nat.div_lt_of_lt_mul hn)] at hhead
      have htail := ih (Nat.mod_lt m hpos) (Nat.mod_lt n hpos) h.2
      rw [← Nat.div_add_mod m (16 ^ width), ← Nat.div_add_mod n (16 ^ width), hhead, htail]

theorem newline_notMem_hexDigits (width number : Nat) : '\n' ∉ hexDigits width number := by
  have hdigit : ∀ digit < 16, hexDigit digit ≠ '\n' := by decide
  induction width generalizing number with
  | zero => exact List.not_mem_nil
  | succ width ih =>
      rw [hexDigits, List.mem_cons, not_or]
      exact ⟨(hdigit _ (Nat.mod_lt _ (by decide))).symm, ih _⟩

end Hex

section Escape

/-- The characters that have an escape of their own, and its second character. -/
def mark (quote c : Char) : Option Char :=
  if c = quote ∨ c = '\\' then some c
  else if c = '\t' then some 't'
  else if c = '\n' then some 'n'
  else if c = '\r' then some 'r'
  else none

/-- The letter before the code of a character, and how many digits the code has. -/
def codeForm (c : Char) : Char × Nat :=
  if c.toNat < 0x100 then ('x', 2) else if c.toNat < 0x10000 then ('u', 4) else ('U', 8)

/-- Whether a character stands for itself; beyond ASCII `str.isprintable` tells. -/
def isPlain (printable : Char → Bool) (c : Char) : Bool :=
  if c.toNat < 0x7f then 0x20 ≤ c.toNat else c.toNat ≠ 0x7f && printable c

def escape (printable : Char → Bool) (quote c : Char) : List Char :=
  match mark quote c with
  | some m => ['\\', m]
  | none =>
    if isPlain printable c then [c]
    else '\\' :: (codeForm c).1 :: hexDigits (codeForm c).2 c.toNat

/-- Double quotes only around a text that has single quotes and no double ones. -/
def quoteOf (text : List Char) : Char :=
  if '\'' ∈ text ∧ '"' ∉ text then '"' else '\''

/-- `repr` of a text. -/
def literal (printable : Char → Bool) (text : List Char) : List Char :=
  quoteOf text :: (text.flatMap (escape printable (quoteOf text)) ++ [quoteOf text])

example : literal (fun _ => true) "it's\té\x07".toList = "\"it's\\té\\x07\"".toList := by decide

variable {printable : Char → Bool} {quote : Char}

theorem quoteOf_eq (text : List Char) : quoteOf text = '"' ∨ quoteOf text = '\'' := by
  rw [quoteOf]
  split
  · exact .inl rfl
  · exact .inr rfl

theorem mark_injective (hquote : quote = '"' ∨ quote = '\'') {c c' m : Char}
    (h : mark quote c = some m) (h' : mark quote c' = some m) : c = c' := by
  unfold mark at h h'
  rcases hquote with rfl | rfl <;> grind

theorem mark_ne_code (hquote : quote = '"' ∨ quote = '\'') {c c' m : Char}
    (h : mark quote c = some m) : m ≠ (codeForm c').1 := by
  have hcode : (codeForm c').1 ∈ ['x', 'u', 'U'] := by
    unfold codeForm
    split_ifs <;> simp
  rintro rfl
  unfold mark at h
  rcases hquote with rfl | rfl <;> grind

theorem plain_of_mark {c : Char} (h : mark quote c = none) : c ≠ quote ∧ c ≠ '\\' ∧ c ≠ '\n' := by
  unfold mark at h
  grind

theorem toNat_lt_of_codeForm (c : Char) : c.toNat < 16 ^ (codeForm c).2 := by
  unfold codeForm
  split_ifs
  · assumption
  · assumption
  · rcases c.valid with h | ⟨-, h⟩
    · exact lt_trans h (by decide)
    · exact lt_trans h (by decide)

/-- Characters written with one letter have codes of one width. -/
theorem width_eq_of_letter {c c' : Char} (h : (codeForm c).1 = (codeForm c').1) :
    (codeForm c).2 = (codeForm c').2 := by
  unfold codeForm at h ⊢
  split_ifs at h ⊢ <;> first | rfl | simp at h

/-- No escape starts another one. -/
theorem escape_append_inj (hquote : quote = '"' ∨ quote = '\'') {c c' : Char}
    {rest rest' : List Char}
    (h : escape printable quote c ++ rest = escape printable quote c' ++ rest') :
    c = c' ∧ rest = rest' := by
  unfold escape at h
  cases hm : mark quote c with
  | some m =>
      cases hm' : mark quote c' with
      | some m' =>
          simp only [hm, hm', List.cons_append, List.nil_append, List.cons.injEq, true_and] at h
          obtain ⟨rfl, hrest⟩ := h
          exact ⟨mark_injective hquote hm hm', hrest⟩
      | none =>
          simp only [hm, hm'] at h
          split_ifs at h
          · exact absurd (List.cons.inj h).1.symm (plain_of_mark hm').2.1
          · exact absurd (List.cons.inj (List.cons.inj h).2).1 (mark_ne_code hquote hm)
  | none =>
      cases hm' : mark quote c' with
      | some m' =>
          simp only [hm, hm'] at h
          split_ifs at h
          · exact absurd (List.cons.inj h).1 (plain_of_mark hm).2.1
          · exact absurd (List.cons.inj (List.cons.inj h).2).1.symm (mark_ne_code hquote hm')
      | none =>
          simp only [hm, hm'] at h
          split_ifs at h
          · exact List.cons.inj h
          · exact absurd (List.cons.inj h).1 (plain_of_mark hm).2.1
          · exact absurd (List.cons.inj h).1.symm (plain_of_mark hm').2.1
          · simp only [List.cons_append, List.cons.injEq, true_and] at h
            obtain ⟨hletter, hdigits⟩ := h
            have hwidth := width_eq_of_letter hletter
            obtain ⟨hdigits, hrest⟩ := List.append_inj hdigits (by simp [hwidth])
            have hc := toNat_lt_of_codeForm c
            rw [hwidth] at hdigits hc
            have hcode := hexDigits_injective hc (toNat_lt_of_codeForm c') hdigits
            exact ⟨Char.toNat_inj.mp hcode, hrest⟩

/-- No escape starts with the quote. -/
theorem escape_append_ne (hquote : quote = '"' ∨ quote = '\'') (c : Char)
    (rest rest' : List Char) : escape printable quote c ++ rest ≠ quote :: rest' := by
  have hslash : quote ≠ '\\' := by rcases hquote with rfl | rfl <;> decide
  intro h
  unfold escape at h
  cases hm : mark quote c with
  | some m =>
      simp only [hm] at h
      exact hslash (List.cons.inj h).1.symm
  | none =>
      simp only [hm] at h
      split_ifs at h
      · exact (plain_of_mark hm).1 (List.cons.inj h).1
      · exact hslash (List.cons.inj h).1.symm

theorem escaped_append_inj (hquote : quote = '"' ∨ quote = '\'') {text text' : List Char}
    {rest rest' : List Char}
    (h : text.flatMap (escape printable quote) ++ quote :: rest =
      text'.flatMap (escape printable quote) ++ quote :: rest') : text = text' := by
  induction text generalizing text' with
  | nil =>
      cases text' with
      | nil => rfl
      | cons c' text' =>
          rw [List.flatMap_cons, List.append_assoc] at h
          exact absurd h.symm (escape_append_ne hquote c' _ _)
  | cons c text ih =>
      cases text' with
      | nil =>
          rw [List.flatMap_cons, List.append_assoc] at h
          exact absurd h (escape_append_ne hquote c _ _)
      | cons c' text' =>
          rw [List.flatMap_cons, List.flatMap_cons, List.append_assoc, List.append_assoc] at h
          obtain ⟨rfl, hrest⟩ := escape_append_inj hquote h
          rw [ih hrest]

/-- A literal ends where it ends, whatever follows it. -/
theorem literal_append_inj {text text' rest rest' : List Char}
    (h : literal printable text ++ rest = literal printable text' ++ rest') : text = text' := by
  simp only [literal, List.cons_append, List.append_assoc, List.cons.injEq, List.nil_append] at h
  obtain ⟨hquote, h⟩ := h
  rw [← hquote] at h
  exact escaped_append_inj (quoteOf_eq text) h

theorem newline_notMem_literal (text : List Char) : '\n' ∉ literal printable text := by
  have hquote : '\n' ≠ quoteOf text := by
    rcases quoteOf_eq text with h | h <;> rw [h] <;> decide
  have hescape (c : Char) : '\n' ∉ escape printable (quoteOf text) c := by
    unfold escape
    cases hm : mark (quoteOf text) c with
    | some m =>
        have hne : m ≠ '\n' := by
          rintro rfl
          unfold mark at hm
          rcases quoteOf_eq text with h | h <;> rw [h] at hm <;> grind
        simp [hne.symm]
    | none =>
        simp only
        split_ifs
        · rw [List.mem_singleton]
          exact (plain_of_mark hm).2.2.symm
        · have hletter : '\n' ≠ (codeForm c).1 := by
            unfold codeForm
            split_ifs <;> decide
          simp [hletter, newline_notMem_hexDigits]
  simp only [literal, List.mem_cons, List.mem_append, List.mem_flatMap, List.not_mem_nil, or_false,
    not_or, not_exists, not_and]
  exact ⟨hquote, fun c _ => hescape c, hquote⟩

end Escape

section Order

variable {α : Type} [LinearOrder α]

/-- Lists of which neither starts the other are in one order whatever follows them. -/
theorem append_lt_append_iff {as bs : List α}
    (h : ∀ rest rest', as ++ rest ≠ bs ++ rest') (rest rest' : List α) :
    as ++ rest < bs ++ rest' ↔ as < bs := by
  induction as generalizing bs with
  | nil => exact absurd (List.append_nil bs).symm (h bs [])
  | cons a as ih =>
      cases bs with
      | nil => exact absurd (List.append_nil (a :: as)) (h [] (a :: as))
      | cons b bs =>
          rw [List.cons_append, List.cons_append, List.cons_lt_cons_iff, List.cons_lt_cons_iff]
          refine or_congr_right (and_congr_right fun hab => ?_)
          exact ih fun rest rest' heq => h rest rest' (by rw [hab, List.cons_append, heq]; rfl)

/-- Texts that go on with the literals of two texts are in the order of the literals. -/
theorem literal_append_lt_iff {printable : Char → Bool} {text text' : List Char}
    (hne : text ≠ text') (start rest rest' : List Char) :
    start ++ literal printable text ++ rest < start ++ literal printable text' ++ rest' ↔
      literal printable text < literal printable text' := by
  rw [List.append_assoc, List.append_assoc]
  induction start with
  | nil => exact append_lt_append_iff (fun _ _ h => hne (literal_append_inj h)) rest rest'
  | cons c start ih =>
      rw [List.cons_append, List.cons_append, List.cons_lt_cons_iff, ih]
      simp

end Order

end EqGen.Lib.Literals
