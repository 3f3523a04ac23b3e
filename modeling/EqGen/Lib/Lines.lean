import Mathlib.Algebra.GroupWithZero.Nat
import Mathlib.Data.List.DropRight

/-!
Texts cut at a separator, over any alphabet, and the parts of Python's `str` that the
program uses on texts. A text is a list of characters; a line ends at a newline.
-/

namespace EqGen.Lib.Lines

section Cut

variable {α : Type} [BEq α] [LawfulBEq α] {sep : α}

/-- A text without separators before another text only lengthens its first piece. -/
theorem splitOn_append_of_notMem {start : List α} (hstart : sep ∉ start) (text : List α) :
    (start ++ text).splitOn sep =
      (start ++ (text.splitOn sep).headD []) :: (text.splitOn sep).tail := by
  induction start with
  | nil =>
      obtain ⟨piece, pieces, h⟩ :=
        List.exists_cons_of_ne_nil (List.splitOn_ne_nil sep text)
      simp [h]
  | cons c cs ih =>
      simp only [List.mem_cons, not_or] at hstart
      rw [List.cons_append, List.splitOn_cons_eq_if_modifyHead, ih hstart.2]
      simp [Ne.symm hstart.1]

/-- Cutting joined entries gives the pieces of each entry in turn. -/
theorem splitOn_intercalate_flatMap {entries : List (List α)} (h : entries ≠ []) :
    ([sep].intercalate entries).splitOn sep = entries.flatMap (List.splitOn sep) := by
  induction entries with
  | nil => exact absurd rfl h
  | cons entry entries ih =>
      cases entries with
      | nil => simp
      | cons next rest =>
          rw [List.intercalate_cons_cons, List.append_assoc, List.singleton_append,
            List.splitOn_append_cons_self, ih (List.cons_ne_nil _ _)]
          rfl

omit [BEq α] [LawfulBEq α] in
theorem intercalate_append (sep : List α) {first rest : List (List α)} (hfirst : first ≠ [])
    (hrest : rest ≠ []) :
    sep.intercalate (first ++ rest) = sep.intercalate first ++ sep ++ sep.intercalate rest := by
  induction first with
  | nil => exact absurd rfl hfirst
  | cons entry first ih =>
      rw [List.cons_append]
      cases first with
      | nil =>
          rw [List.nil_append, List.intercalate_cons_of_ne_nil hrest, List.intercalate_singleton]
      | cons next first =>
          rw [List.intercalate_cons_of_ne_nil (by simp), ih (List.cons_ne_nil _ _),
            List.intercalate_cons_of_ne_nil (List.cons_ne_nil _ _)]
          simp only [List.append_assoc]

end Cut

/-- The code points of the characters that Python counts as blanks. -/
def spaceCodes : List Nat :=
  [0x09, 0x0a, 0x0b, 0x0c, 0x0d, 0x1c, 0x1d, 0x1e, 0x1f, 0x20, 0x85, 0xa0, 0x1680,
    0x2000, 0x2001, 0x2002, 0x2003, 0x2004, 0x2005, 0x2006, 0x2007, 0x2008, 0x2009, 0x200a,
    0x2028, 0x2029, 0x202f, 0x205f, 0x3000]

/-- `str.isspace` of one character. -/
def isSpace (c : Char) : Bool := c.toNat ∈ spaceCodes

/-- What holds of the listed blanks holds of every blank. -/
theorem forall_isSpace {P : Char → Prop} (h : ∀ n ∈ spaceCodes, P (Char.ofNat n)) {c : Char}
    (hc : isSpace c = true) : P c := by
  have hcode := h c.toNat (by simpa [isSpace] using hc)
  rwa [Char.ofNat_toNat] at hcode

/-- `str.strip()`. -/
def strip (text : List Char) : List Char := (text.dropWhile isSpace).rdropWhile isSpace

/-- `str.rstrip()`. -/
def rstrip (text : String) : String :=
  String.ofList (text.toList.rdropWhile isSpace)

/-- `str.rstrip(c)` for one character. -/
def rstripChar (c : Char) (text : String) : String :=
  String.ofList (text.toList.rdropWhile (· == c))

/-- The lines of a text. -/
def lines (text : String) : List (List Char) :=
  text.toList.splitOn '\n'

/-- A line of blanks only. -/
def isBlank (line : List Char) : Bool :=
  line.all isSpace

/-- A line whose first characters after its blanks are the two hyphens of a comment. -/
def isComment (line : List Char) : Bool :=
  ['-', '-'].isPrefixOf (line.dropWhile isSpace)

@[simp]
theorem newline_notMem_toDigits (n : Nat) : '\n' ∉ Nat.toDigits 10 n := by
  intro h
  have hdigit := Nat.isDigit_of_mem_toDigits (by decide : 0 < 10) (by decide : 10 ≤ 10) h
  exact absurd hdigit (by decide)

/-- The lines of a joined text are the lines of its entries. -/
theorem lines_intercalate {entries : List String} (h : entries ≠ []) :
    lines ("\n".intercalate entries) = entries.flatMap lines := by
  have hentries : entries.map String.toList ≠ [] := by simpa using h
  have hnewline : "\n".toList = ['\n'] := rfl
  rw [lines, String.toList_intercalate, hnewline, splitOn_intercalate_flatMap hentries,
    List.flatMap_map]
  rfl

/-- What follows the first line of a text. -/
def continuation (text : String) : List (List Char) :=
  (lines text).tail

theorem lines_append_of_notMem {start : String} (h : '\n' ∉ start.toList) (text : String) :
    lines (start ++ text) =
      (start.toList ++ (lines text).headD []) :: continuation text := by
  rw [lines, String.toList_append, splitOn_append_of_notMem h]
  rfl

/-- A text closed by a newline has one more line, which is empty. -/
theorem lines_append_newline (text : String) :
    lines (text ++ "\n") = lines text ++ [[]] := by
  have hnewline : "\n".toList = ['\n'] := rfl
  rw [lines, String.toList_append, hnewline, List.splitOn_append_cons_self]
  rfl

section Splitlines

/-- The characters that end a line for `str.splitlines`. -/
def isBreak (c : Char) : Bool :=
  c.toNat ∈ [0x0a, 0x0b, 0x0c, 0x0d, 0x1c, 0x1d, 0x1e, 0x85, 0x2028, 0x2029]

/-- `str.splitlines()`: a carriage return and the newline after it end one line. -/
def splitlines : List Char → List (List Char)
  | [] => []
  | '\r' :: '\n' :: text => [] :: splitlines text
  | c :: text =>
      if isBreak c then [] :: splitlines text
      else (c :: (splitlines text).headD []) :: (splitlines text).tail

example : splitlines ['a', '\r', '\n', 'b'] = [['a'], ['b']] := by simp [splitlines, isBreak]

/-- A text without any line break. -/
def SingleLine (text : List Char) : Prop := ∀ c ∈ text, isBreak c = false

instance (text : List Char) : Decidable (SingleLine text) :=
  List.decidableBAll (fun c => isBreak c = false) text

theorem singleLine_append {text rest : List Char} (h : SingleLine text) (h' : SingleLine rest) :
    SingleLine (text ++ rest) := by
  intro c hc
  rcases List.mem_append.mp hc with hc | hc
  · exact h c hc
  · exact h' c hc

theorem singleLine_concat {text : List Char} {c : Char} (h : SingleLine text)
    (hc : isBreak c = false) : SingleLine (text ++ [c]) :=
  singleLine_append h (by simpa [SingleLine] using hc)

/-- The lines a text leaves in a file when it is written with a newline after it. -/
def physical (text : List Char) : List (List Char) := splitlines (text ++ ['\n'])

theorem splitlines_cons_break {c : Char} (hc : isBreak c = true) {text : List Char}
    (h : c ≠ '\r' ∨ text.head? ≠ some '\n') : splitlines (c :: text) = [] :: splitlines text := by
  rw [splitlines.eq_3 _ _ (by rintro rest rfl rfl; simp at h), if_pos hc]

theorem splitlines_single {c : Char} (hc : isBreak c = true) : splitlines [c] = [[]] := by
  rw [splitlines_cons_break hc (by simp), splitlines]

theorem splitlines_cons {c : Char} (hc : isBreak c = false) (text : List Char) :
    splitlines (c :: text) =
      (c :: (splitlines text).headD []) :: (splitlines text).tail := by
  rw [splitlines.eq_3 _ _ (by rintro rest rfl; simp [isBreak] at hc), if_neg (by simp [hc])]

theorem splitlines_newline (text : List Char) :
    splitlines ('\n' :: text) = [] :: splitlines text :=
  splitlines_cons_break rfl (.inl (by decide))

/-- Induction over the lines of a text that a newline and more follow. -/
theorem splitlines_induction {motive : List Char → Prop} (empty : motive [])
    (feed : ∀ text, motive text → motive ('\r' :: '\n' :: text))
    (last : ∀ c, isBreak c = true → motive [c])
    (stop : ∀ c d text, isBreak c = true → c ≠ '\r' ∨ d ≠ '\n' → motive (d :: text) →
      motive (c :: d :: text))
    (step : ∀ c text, isBreak c = false → motive text → motive (c :: text)) :
    ∀ text, motive text := by
  intro text
  induction text using splitlines.induct with
  | case1 => exact empty
  | case2 text ih => exact feed text ih
  | case3 c text hcr hc ih =>
      cases text with
      | nil => exact last c hc
      | cons d text =>
          refine stop c d text hc ?_ ih
          by_contra! h
          exact hcr text h.1 (by rw [h.2])
  | case4 c text hcr hc ih => exact step c text (by simpa using hc) ih

theorem splitlines_ne_nil {text : List Char} (h : text ≠ []) : splitlines text ≠ [] := by
  induction text using splitlines_induction with
  | empty => exact absurd rfl h
  | feed text ih => simp [splitlines]
  | last c hc => simp [splitlines_cons_break hc]
  | stop c d text hc hnext ih =>
      rw [splitlines_cons_break hc (by simpa using hnext)]
      exact List.cons_ne_nil _ _
  | step c text hc ih => simp [splitlines_cons hc]

@[simp]
theorem physical_ne_nil (text : List Char) : physical text ≠ [] :=
  splitlines_ne_nil (by simp)

theorem splitlines_cons_append_newline {c : Char} (hc : isBreak c = true) (rest : List Char) :
    splitlines (c :: '\n' :: rest) = physical [c] ++ splitlines rest := by
  by_cases hr : c = '\r'
  · subst hr
    simp [physical, splitlines]
  · rw [splitlines_cons_break hc (.inl hr), splitlines_newline]
    simp [physical, splitlines_cons_break hc (.inl hr), splitlines_newline, splitlines]

/-- A newline ends a line wherever it stands. -/
theorem splitlines_append_newline (text rest : List Char) :
    splitlines (text ++ '\n' :: rest) = physical text ++ splitlines rest := by
  unfold physical
  induction text using splitlines_induction with
  | empty => simp [splitlines_newline, splitlines]
  | feed text ih =>
      simp only [List.cons_append, splitlines]
      rw [ih]
  | last c hc => exact splitlines_cons_append_newline hc rest
  | stop c d text hc hnext ih =>
      simp only [List.cons_append] at ih ⊢
      rw [splitlines_cons_break hc (by simpa using hnext), ih,
        splitlines_cons_break hc (by simpa using hnext)]
      rfl
  | step c text hc ih =>
      rw [List.cons_append, List.cons_append, splitlines_cons hc, ih, splitlines_cons hc]
      have hne : splitlines (text ++ ['\n']) ≠ [] := physical_ne_nil text
      obtain ⟨line, lines, hlines⟩ := List.exists_cons_of_ne_nil hne
      rw [hlines]
      rfl

/-- A text without breaks in front only lengthens the first line. -/
theorem physical_append {start : List Char} (hstart : SingleLine start) (text : List Char) :
    physical (start ++ text) =
      (start ++ (physical text).headD []) :: (physical text).tail := by
  induction start with
  | nil =>
      obtain ⟨line, lines, hlines⟩ := List.exists_cons_of_ne_nil (physical_ne_nil text)
      simp [hlines]
  | cons c start ih =>
      have hc : isBreak c = false := hstart c List.mem_cons_self
      have hrest := ih fun d hd => hstart d (List.mem_cons_of_mem _ hd)
      rw [physical] at hrest ⊢
      rw [List.cons_append, List.cons_append, splitlines_cons hc, hrest]
      rfl

theorem physical_nil : physical [] = [[]] := by
  rw [physical, List.nil_append, splitlines_newline]
  rfl

theorem physical_of_singleLine {text : List Char} (h : SingleLine text) :
    physical text = [text] := by
  have := physical_append h []
  simpa [physical_nil] using this

/-- No line holds a break. -/
theorem singleLine_of_mem_splitlines {text line : List Char} (h : line ∈ splitlines text) :
    SingleLine line := by
  induction text using splitlines_induction generalizing line with
  | empty => simp [splitlines] at h
  | feed text ih =>
      rcases List.mem_cons.mp h with rfl | h
      · simp [SingleLine]
      · exact ih h
  | last c hc =>
      rw [splitlines_single hc, List.mem_singleton] at h
      simp [SingleLine, h]
  | stop c d text hc hnext ih =>
      rw [splitlines_cons_break hc (by simpa using hnext)] at h
      rcases List.mem_cons.mp h with rfl | h
      · simp [SingleLine]
      · exact ih h
  | step c text hc ih =>
      rw [splitlines_cons hc] at h
      rcases List.mem_cons.mp h with rfl | h
      · intro d hd
        rcases List.mem_cons.mp hd with rfl | hd
        · exact hc
        · cases hlines : splitlines text with
          | nil => simp [hlines] at hd
          | cons first rest =>
              have hfirst : first ∈ splitlines text := by simp [hlines]
              rw [hlines] at hd
              exact ih hfirst d hd
      · exact ih (List.mem_of_mem_tail h)

/-- The lines together, with a break for each, are no longer than the text with its newline. -/
theorem length_physical_le (text : List Char) :
    ((physical text).map fun line => line.length + 1).sum ≤ text.length + 1 := by
  unfold physical
  induction text using splitlines_induction with
  | empty => simp [splitlines_newline, splitlines]
  | feed text ih =>
      simp only [List.cons_append, splitlines, List.map_cons, List.sum_cons, List.length_cons,
        List.length_nil]
      omega
  | last c hc =>
      by_cases hr : c = '\r'
      · subst hr
        simp [splitlines]
      · simp [splitlines_cons_break hc (.inl hr), splitlines_newline, splitlines]
  | stop c d text hc hnext ih =>
      simp only [List.cons_append] at ih ⊢
      rw [splitlines_cons_break hc (by simpa using hnext)]
      simp only [List.map_cons, List.sum_cons, List.length_cons, List.length_nil] at ih ⊢
      omega
  | step c text hc ih =>
      obtain ⟨first, rest, hlines⟩ := List.exists_cons_of_ne_nil (physical_ne_nil text)
      rw [physical] at hlines
      rw [List.cons_append, splitlines_cons hc, hlines]
      simp only [hlines, List.map_cons, List.sum_cons, List.headD_cons, List.tail_cons,
        List.length_cons] at ih ⊢
      omega

/-- What a text ends in that is no break, its last line ends in. -/
theorem physical_concat (text : List Char) {c : Char} (hc : isBreak c = false) :
    ∃ lines line, physical (text ++ [c]) = lines ++ [line ++ [c]] := by
  have hsingle : SingleLine [c] := by simpa [SingleLine] using hc
  have hone : splitlines ([c] ++ ['\n']) = [[c]] := physical_of_singleLine hsingle
  have hnewline : c ≠ '\n' := by
    rintro rfl
    simp [isBreak] at hc
  unfold physical
  induction text using splitlines_induction with
  | empty => exact ⟨[], [], hone⟩
  | feed text ih =>
      obtain ⟨lines, line, h⟩ := ih
      refine ⟨[] :: lines, line, ?_⟩
      simp only [List.cons_append, splitlines]
      rw [h]
  | last d hd =>
      refine ⟨[[]], [], ?_⟩
      rw [List.append_assoc, List.singleton_append,
        splitlines_cons_break hd (.inr (by simpa using hnewline)), hone]
      rfl
  | stop d e text hd hnext ih =>
      obtain ⟨lines, line, h⟩ := ih
      refine ⟨[] :: lines, line, ?_⟩
      simp only [List.cons_append] at h ⊢
      rw [splitlines_cons_break hd (by simpa using hnext), h]
  | step d text hd ih =>
      obtain ⟨lines, line, h⟩ := ih
      rw [List.cons_append, List.cons_append, splitlines_cons hd, h]
      cases lines with
      | nil => exact ⟨[], d :: line, rfl⟩
      | cons first lines => exact ⟨(d :: first) :: lines, line, rfl⟩

/-- A text that leaves one line has no breaks but at its end. -/
theorem singleLine_of_physical {text line : List Char} {c : Char} (hc : isBreak c = false)
    (h : physical (text ++ [c]) = [line]) : SingleLine text := by
  unfold physical at h
  induction text using splitlines_induction generalizing line with
  | empty => simp [SingleLine]
  | feed text ih =>
      simp only [List.cons_append, splitlines, List.cons.injEq] at h
      exact absurd h.2 (splitlines_ne_nil (by simp))
  | last d hd =>
      have hnext : ([c] ++ ['\n']).head? ≠ some '\n' := by
        rintro heq
        rw [show c = '\n' by simpa using heq] at hc
        simp [isBreak] at hc
      rw [List.append_assoc, List.singleton_append, splitlines_cons_break hd (.inr hnext),
        List.cons.injEq] at h
      exact absurd h.2 (splitlines_ne_nil (by simp))
  | stop d e text hd hnext ih =>
      simp only [List.cons_append] at h
      rw [splitlines_cons_break hd (by simpa using hnext), List.cons.injEq] at h
      exact absurd h.2 (splitlines_ne_nil (by simp))
  | step d text hd ih =>
      obtain ⟨first, rest, hlines⟩ := List.exists_cons_of_ne_nil (physical_ne_nil (text ++ [c]))
      rw [physical] at hlines
      rw [List.cons_append, List.cons_append, splitlines_cons hd, hlines, List.cons.injEq] at h
      have hrest : rest = [] := h.2
      subst hrest
      intro e he
      rcases List.mem_cons.mp he with rfl | he
      · exact hd
      · exact ih hlines e he

/-- Where only newlines end lines, the lines are the pieces between them. -/
theorem physical_eq_splitOn {text : List Char} (h : ∀ c ∈ text, isBreak c = true → c = '\n') :
    physical text = text.splitOn '\n' := by
  induction text with
  | nil => exact physical_nil
  | cons c text ih =>
      have hrest := ih fun d hd => h d (List.mem_cons_of_mem _ hd)
      rw [physical, List.cons_append, List.splitOn_cons_eq_if_modifyHead]
      by_cases hc : isBreak c = true
      · have hnewline := h c List.mem_cons_self hc
        subst hnewline
        rw [splitlines_newline, if_pos (by simp)]
        exact congrArg _ hrest
      · rw [splitlines_cons (by simpa using hc), if_neg]
        · rw [physical] at hrest
          rw [hrest]
          cases hpieces : text.splitOn '\n' with
          | nil => exact absurd hpieces (List.splitOn_ne_nil _ _)
          | cons piece pieces => rfl
        · intro heq
          rw [beq_iff_eq] at heq
          subst heq
          exact hc rfl

/-- Reading a file as text: every kind of line end of a text file becomes a newline. -/
def universalNewlines : List Char → List Char
  | [] => []
  | '\r' :: '\n' :: text => '\n' :: universalNewlines text
  | c :: text => (if c = '\r' then '\n' else c) :: universalNewlines text

theorem universalNewlines_of_notMem {text : List Char} (h : '\r' ∉ text) :
    universalNewlines text = text := by
  induction text using universalNewlines.induct with
  | case1 => rfl
  | case2 text ih => simp at h
  | case3 c text hcr ih =>
      rw [List.mem_cons, not_or] at h
      rw [universalNewlines.eq_3 _ _ hcr, if_neg (Ne.symm h.1), ih h.2]

end Splitlines

section Pieces

/-- The last line of a text grows when a character that is no newline is put behind it. -/
theorem splitOn_concat (text : List Char) {c : Char} (hc : c ≠ '\n') :
    ∃ lines last, text.splitOn '\n' = lines ++ [last] ∧
      (text ++ [c]).splitOn '\n' = lines ++ [last ++ [c]] := by
  induction text with
  | nil => exact ⟨[], [], rfl, by simp [List.splitOn_cons_eq_if_modifyHead, hc]⟩
  | cons d text ih =>
      obtain ⟨lines, last, h, h'⟩ := ih
      rw [List.cons_append, List.splitOn_cons_eq_if_modifyHead, List.splitOn_cons_eq_if_modifyHead,
        h, h']
      by_cases hd : (d == '\n') = true
      · exact ⟨[] :: lines, last, by simp [hd], by simp [hd]⟩
      · rw [if_neg hd, if_neg hd]
        cases lines with
        | nil => exact ⟨[], d :: last, rfl, rfl⟩
        | cons first lines => exact ⟨(d :: first) :: lines, last, rfl, rfl⟩

/-- The pieces hold no more than the text. -/
theorem mem_of_mem_splitOn {sep c : Char} {text line : List Char} (hline : line ∈ text.splitOn sep)
    (hc : c ∈ line) : c ∈ text := by
  induction text generalizing line with
  | nil =>
      rw [List.splitOn_nil, List.mem_singleton] at hline
      rw [hline] at hc
      exact hc
  | cons d text ih =>
      rw [List.splitOn_cons_eq_if_modifyHead] at hline
      split at hline
      · rcases List.mem_cons.mp hline with rfl | hline
        · simp at hc
        · exact List.mem_cons_of_mem _ (ih hline hc)
      · obtain ⟨first, rest, hpieces⟩ :=
          List.exists_cons_of_ne_nil (List.splitOn_ne_nil sep text)
        rw [hpieces, List.modifyHead_cons] at hline
        rcases List.mem_cons.mp hline with rfl | hline
        · rcases List.mem_cons.mp hc with rfl | hc
          · exact List.mem_cons_self
          · exact List.mem_cons_of_mem _ (ih (hpieces ▸ List.mem_cons_self) hc)
        · exact List.mem_cons_of_mem _ (ih (hpieces ▸ List.mem_cons_of_mem _ hline) hc)

/-- No line of the text is a comment. -/
def NoComment (text : List Char) : Prop :=
  ∀ line ∈ text.splitOn '\n', isComment line = false

theorem isComment_concat {line : List Char} {c : Char} (hc : c ≠ '-') :
    isComment (line ++ [c]) = isComment line := by
  unfold isComment
  rw [List.dropWhile_append]
  split
  · next hblank =>
      rw [List.isEmpty_iff] at hblank
      rw [hblank]
      by_cases hspace : isSpace c = true
      · simp [hspace]
      · simp [hspace, List.isPrefixOf]
  · next hblank =>
      match hrest : line.dropWhile isSpace with
      | [] => simp [hrest] at hblank
      | [d] => simp [List.isPrefixOf, Ne.symm hc]
      | d :: e :: rest => simp [List.isPrefixOf]

/-- Whether a text has comments does not depend on a part without hyphens behind it. -/
theorem noComment_append {text rest : List Char} (hrest : '-' ∉ rest) (h : NoComment text) :
    NoComment (text ++ rest) := by
  induction rest generalizing text with
  | nil => rwa [List.append_nil]
  | cons c rest ih =>
      rw [List.mem_cons, not_or] at hrest
      rw [List.append_cons]
      refine ih hrest.2 ?_
      by_cases hc : c = '\n'
      · subst hc
        intro line hline
        rw [List.splitOn_append_cons_self] at hline
        rcases List.mem_append.mp hline with hline | hline
        · exact h line hline
        · rw [List.splitOn_nil, List.mem_singleton] at hline
          rw [hline]
          rfl
      · obtain ⟨lines, last, hlines, hlines'⟩ := splitOn_concat text hc
        unfold NoComment at h ⊢
        rw [hlines] at h
        rw [hlines']
        intro line hline
        rcases List.mem_append.mp hline with hline | hline
        · exact h line (List.mem_append.mpr (.inl hline))
        · rw [List.mem_singleton.mp hline, isComment_concat (Ne.symm hrest.1)]
          exact h last (by simp)

end Pieces

end EqGen.Lib.Lines
