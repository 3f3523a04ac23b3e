import Mathlib.Data.List.Basic

/-!
How SQL text is cut into tokens: words and keywords, numbers, quoted text, symbols, brackets.
Comments are dropped. `CASE` and `END` count as a pair of brackets.
-/

namespace EqGen.Lib.SqlTokens

inductive Bracket where
  | round | square | curly | case
  deriving DecidableEq, Repr

inductive Symbol where
  | eq | ne | lt | le | gt | ge
  | plus | minus | star | slash | percent | caret | typecast | dot
  | other (text : List Char)
  deriving DecidableEq, Repr

inductive Constant where
  | null | true | false
  deriving DecidableEq, Repr

inductive Token where
  | word (text : List Char)
  | quoted (text : List Char)
  | string (text : List Char)
  | number (text : List Char)
  | symbol (symbol : Symbol)
  | or | and | not | is | like | within | between | over
  | constant (value : Constant)
  /-- A comma, or a keyword that separates expressions. -/
  | clause (text : List Char)
  | opening (bracket : Bracket)
  | closing (bracket : Bracket)
  | semicolon
  deriving DecidableEq, Repr

def comma : Token :=
  .clause [',']

/-- The keywords that separate the expressions of a construct in brackets. -/
def clauseWords : List (List Char) :=
  ["WHEN", "THEN", "ELSE", "AS", "PARTITION", "BY", "ORDER", "ROWS", "RANGE", "GROUPS", "UNBOUNDED",
    "PRECEDING", "FOLLOWING", "CURRENT", "ROW", "SELECT", "DISTINCT", "FROM", "WHERE", "GROUP",
    "HAVING", "LIMIT", "ASC", "DESC", "NULLS", "FOR", "FILTER"].map String.toList

def keywords : List (List Char × Token) :=
  [("OR".toList, .or), ("AND".toList, .and), ("NOT".toList, .not), ("IS".toList, .is),
    ("LIKE".toList, .like), ("IN".toList, .within), ("BETWEEN".toList, .between),
    ("OVER".toList, .over), ("NULL".toList, .constant .null),
    ("TRUE".toList, .constant .true), ("FALSE".toList, .constant .false),
    ("CASE".toList, .opening .case), ("END".toList, .closing .case)]

/-- Keywords are read without regard to case. -/
def wordToken (text : List Char) : Token :=
  let upper := text.map Char.toUpper
  match keywords.lookup upper with
  | some token => token
  | none => if upper ∈ clauseWords then .clause upper else .word text

def symbols : List (List Char × Symbol) :=
  [(['='], .eq), (['<', '>'], .ne), (['!', '='], .ne), (['<'], .lt), (['<', '='], .le),
    (['>'], .gt), (['>', '='], .ge), (['+'], .plus), (['-'], .minus), (['*'], .star),
    (['/'], .slash), (['%'], .percent), (['^'], .caret), ([':', ':'], .typecast), (['.'], .dot)]

def symbolToken (text : List Char) : Token :=
  .symbol ((symbols.lookup text).getD (.other text))

/-- The symbols of more than one character, and what they begin with. -/
def longSymbols : List (List Char) :=
  ["<>", "!=", "<=", ">=", "||", "::", "->", "->>", "#>", "#>>", "@>", "<@", "&&", "<<", ">>", "~*",
    "!~", "!~*", "**", "//", "<=>"].map String.toList

def isSpace (c : Char) : Bool :=
  c ∈ [' ', '\t', '\n', '\r', '\x0b', '\x0c']

def isWordChar (c : Char) : Bool :=
  c.isAlphanum || c == '_' || c == '$' || 128 ≤ c.val

def brackets : List (Char × Token) :=
  [('(', .opening .round), (')', .closing .round), ('[', .opening .square),
    (']', .closing .square), ('{', .opening .curly), ('}', .closing .curly), (',', comma),
    (';', .semicolon)]

/-- Where the scanner stands, with the characters of the token it is in. -/
inductive Mode where
  | idle
  | word (text : List Char)
  | number (text : List Char)
  | symbol (text : List Char)
  | string (text : List Char)
  /-- Behind a quote that ends the string unless a second one follows. -/
  | stringEnd (text : List Char)
  | quoted (text : List Char)
  | quotedEnd (text : List Char)
  | lineComment
  | blockComment (depth : Nat) (last : Char)
  deriving DecidableEq, Repr

/-- The token that a mode ends in when nothing continues it. -/
def flush : Mode → List Token
  | .word text => [wordToken text]
  | .number text => [.number text]
  | .symbol text => [symbolToken text]
  | .stringEnd text => [.string text]
  | .quotedEnd text => [.quoted text]
  | _ => []

/-- What a character does between two tokens. -/
def start (c : Char) : List Token × Mode :=
  if isSpace c then ([], .idle)
  else match brackets.lookup c with
    | some token => ([token], .idle)
    | none =>
      if c.isDigit then ([], .number [c])
      else if isWordChar c then ([], .word [c])
      else if c = '\'' then ([], .string [])
      else if c = '"' then ([], .quoted [])
      else ([], .symbol [c])

/-- The modes in which a token is whole. -/
def settled : Mode → Bool
  | .idle | .word _ | .number _ | .symbol _ | .stringEnd _ | .quotedEnd _ => true
  | _ => false

/-- The mode in which a character continues the token before it. -/
def continued (c : Char) : Mode → Option Mode
  | .word text => if isWordChar c then some (.word (text ++ [c])) else none
  | .number text =>
    if isWordChar c || c == '.' ||
        (c == '+' || c == '-') && text.getLast? ∈ [some 'e', some 'E'] then
      some (.number (text ++ [c]))
    else none
  | .symbol text =>
    if text ++ [c] = ['-', '-'] then some .lineComment
    else if text ++ [c] = ['/', '*'] then some (.blockComment 1 ' ')
    else if text ++ [c] ∈ longSymbols then some (.symbol (text ++ [c]))
    else none
  | .string text => if c = '\'' then some (.stringEnd text) else some (.string (text ++ [c]))
  | .stringEnd text => if c = '\'' then some (.string (text ++ [c])) else none
  | .quoted text => if c = '"' then some (.quotedEnd text) else some (.quoted (text ++ [c]))
  | .quotedEnd text => if c = '"' then some (.quoted (text ++ [c])) else none
  | .lineComment => if c = '\n' then some .idle else some .lineComment
  | .blockComment depth last =>
    if last = '*' ∧ c = '/' then
      if depth ≤ 1 then some .idle else some (.blockComment (depth - 1) ' ')
    else if last = '/' ∧ c = '*' then some (.blockComment (depth + 1) ' ')
    else some (.blockComment depth c)
  | .idle => none

def step (mode : Mode) (c : Char) : List Token × Mode :=
  match continued c mode with
  | some next => ([], next)
  | none => (flush mode ++ (start c).1, (start c).2)

def scan : Mode → List Char → List Token × Mode
  | mode, [] => ([], mode)
  | mode, c :: text =>
    let next := step mode c
    (next.1 ++ (scan next.2 text).1, (scan next.2 text).2)

def lex (text : List Char) : List Token :=
  (scan .idle text).1 ++ flush (scan .idle text).2

/-- No string, quoted name or comment is open at the end of the text. -/
def Complete (text : List Char) : Prop :=
  settled (scan .idle text).2 = true

instance (text : List Char) : Decidable (Complete text) :=
  inferInstanceAs (Decidable (_ = true))

/-- The characters that end every token: spaces, brackets and commas. -/
def Delimits (c : Char) : Prop :=
  c = ' ' ∨ c ∈ brackets.map Prod.fst

theorem scan_append (mode : Mode) (text rest : List Char) :
    scan mode (text ++ rest) =
      ((scan mode text).1 ++ (scan (scan mode text).2 rest).1,
        (scan (scan mode text).2 rest).2) := by
  induction text generalizing mode with
  | nil => rfl
  | cons c text ih =>
      rw [List.cons_append, scan, scan, ih]
      simp

theorem start_delimiter {c : Char} (hc : Delimits c) : (start c).2 = .idle := by
  rcases hc with rfl | hc
  · rfl
  · simp only [brackets, List.map_cons, List.map_nil, List.mem_cons, List.not_mem_nil,
      or_false] at hc
    rcases hc with rfl | rfl | rfl | rfl | rfl | rfl | rfl | rfl <;> rfl

theorem isWordChar_delimiter {c : Char} (hc : Delimits c) :
    isWordChar c = false ∧ c ≠ '.' ∧ c ≠ '+' ∧ c ≠ '-' ∧ c ≠ '*' ∧ c ≠ '\'' ∧ c ≠ '"' := by
  rcases hc with rfl | hc
  · decide
  · simp only [brackets, List.map_cons, List.map_nil, List.mem_cons, List.not_mem_nil,
      or_false] at hc
    rcases hc with rfl | rfl | rfl | rfl | rfl | rfl | rfl | rfl <;> decide

theorem not_longSymbol_delimiter {c : Char} (hc : Delimits c) (text : List Char) :
    text ++ [c] ∉ longSymbols := by
  intro hmem
  have hlast : ∀ symbol ∈ longSymbols,
      symbol.getLast?.any (fun d => d == ' ' || brackets.any (·.1 == d)) = false := by
    decide
  have hc' := hlast _ hmem
  rw [List.getLast?_append, List.getLast?_singleton, Option.some_or, Option.any_some,
    Bool.or_eq_false_iff, beq_eq_false_iff_ne, List.any_eq_false] at hc'
  rcases hc with rfl | hc
  · exact hc'.1 rfl
  · obtain ⟨bracket, hbracket, rfl⟩ := List.mem_map.mp hc
    exact hc'.2 bracket hbracket (beq_self_eq_true _)

theorem step_delimiter {mode : Mode} (hmode : settled mode = true) {c : Char} (hc : Delimits c) :
    step mode c = (flush mode ++ (start c).1, .idle) := by
  have hcontinued : continued c mode = none := by
    obtain ⟨hword, hdot, hplus, hminus, hstar, hquote, hquoted⟩ := isWordChar_delimiter hc
    cases mode with
    | idle => rfl
    | word text => simp [continued, hword]
    | number text => simp [continued, hword, hdot, hplus, hminus]
    | symbol text =>
        have hcomment : text ++ [c] ≠ ['-', '-'] := by
          intro h
          have := congrArg List.getLast? h
          simp [hminus] at this
        have hblock : text ++ [c] ≠ ['/', '*'] := by
          intro h
          have := congrArg List.getLast? h
          simp [hstar] at this
        simp [continued, hcomment, hblock, not_longSymbol_delimiter hc]
    | stringEnd text => simp [continued, hquote]
    | quotedEnd text => simp [continued, hquoted]
    | string _ | quoted _ | lineComment | blockComment _ _ => cases hmode
  rw [step, hcontinued, start_delimiter hc]

theorem scan_delimiter {text : List Char} (htext : Complete text) {c : Char} (hc : Delimits c)
    (rest : List Char) :
    scan .idle (text ++ c :: rest) =
      (lex text ++ (start c).1 ++ (scan .idle rest).1, (scan .idle rest).2) := by
  rw [scan_append, scan, step_delimiter htext hc]
  simp [lex]

/-- A complete text reads the same in front of a delimiter. -/
theorem lex_delimiter {text : List Char} (htext : Complete text) {c : Char} (hc : Delimits c)
    (rest : List Char) : lex (text ++ c :: rest) = lex text ++ (start c).1 ++ lex rest := by
  rw [lex, scan_delimiter htext hc]
  simp [lex]

theorem complete_delimiter {text : List Char} (htext : Complete text) {c : Char} (hc : Delimits c)
    {rest : List Char} : Complete (text ++ c :: rest) ↔ Complete rest := by
  rw [Complete, scan_delimiter htext hc, Complete]

/-- The text is complete and is cut into these tokens. -/
def Lexes (text : List Char) (tokens : List Token) : Prop :=
  Complete text ∧ lex text = tokens

instance (text : List Char) (tokens : List Token) : Decidable (Lexes text tokens) :=
  inferInstanceAs (Decidable (_ ∧ _))

section Lexes

variable {text rest : List Char} {tokens more : List Token}

theorem lexes_nil : Lexes [] [] :=
  ⟨rfl, rfl⟩

theorem Lexes.delimited (h : Lexes text tokens) {c : Char} (hc : Delimits c)
    (hrest : Lexes rest more) : Lexes (text ++ c :: rest) (tokens ++ ((start c).1 ++ more)) := by
  refine ⟨(complete_delimiter h.1 hc).mpr hrest.1, ?_⟩
  rw [lex_delimiter h.1 hc, h.2, hrest.2, List.append_assoc]

theorem Lexes.space (h : Lexes text tokens) (hrest : Lexes rest more) :
    Lexes (text ++ ' ' :: rest) (tokens ++ more) :=
  h.delimited (.inl rfl) hrest

theorem Lexes.opened (h : Lexes text tokens) (hrest : Lexes rest more) :
    Lexes (text ++ '(' :: rest) (tokens ++ .opening .round :: more) :=
  h.delimited (.inr (by decide)) hrest

theorem Lexes.closed (h : Lexes text tokens) (hrest : Lexes rest more) :
    Lexes (text ++ ')' :: rest) (tokens ++ .closing .round :: more) :=
  h.delimited (.inr (by decide)) hrest

theorem Lexes.comma (h : Lexes text tokens) (hrest : Lexes rest more) :
    Lexes (text ++ ',' :: ' ' :: rest) (tokens ++ comma :: more) :=
  h.delimited (.inr (by decide)) (lexes_nil.space hrest)

/-- A text in round brackets. -/
theorem Lexes.enclosed (h : Lexes text tokens) :
    Lexes ('(' :: (text ++ [')'])) (.opening .round :: (tokens ++ [.closing .round])) :=
  lexes_nil.opened (h.closed lexes_nil)

theorem lexes_commas {texts : List (List Char)} {pieces : List (List Token)}
    (h : List.Forall₂ Lexes texts pieces) :
    Lexes ([',', ' '].intercalate texts) ([SqlTokens.comma].intercalate pieces) := by
  induction h with
  | nil => exact lexes_nil
  | @cons text tokens texts pieces htext htexts ih =>
      cases htexts with
      | nil => simpa using htext
      | cons hnext htexts =>
          rw [List.intercalate_cons_cons, List.intercalate_cons_cons, List.append_assoc,
            List.append_assoc]
          exact htext.comma ih

theorem lexes_spaces {texts : List (List Char)} {pieces : List (List Token)}
    (h : List.Forall₂ Lexes texts pieces) : Lexes ([' '].intercalate texts) pieces.flatten := by
  induction h with
  | nil => exact lexes_nil
  | @cons text tokens texts pieces htext htexts ih =>
      cases htexts with
      | nil => simpa using htext
      | cons hnext htexts =>
          rw [List.intercalate_cons_cons, List.append_assoc, List.flatten_cons]
          exact htext.space ih

/-- A token that can name a column or a relation. -/
def isName : Token → Bool
  | .word _ | .quoted _ => true
  | _ => false

theorem scan_dot (rest : List Char) :
    (scan (.symbol ['.']) rest).1 ++ flush (scan (.symbol ['.']) rest).2 =
        .symbol .dot :: lex rest ∧
      settled (scan (.symbol ['.']) rest).2 = settled (scan .idle rest).2 := by
  cases rest with
  | nil => decide
  | cons c rest =>
      have hlong : ['.', c] ∉ longSymbols := by
        intro hmem
        have hdot : ∀ symbol ∈ longSymbols, symbol.head? ≠ some '.' := by decide
        exact hdot _ hmem rfl
      have hflush : flush (.symbol ['.']) = [.symbol .dot] := by decide
      have hstep : step (.symbol ['.']) c = (.symbol .dot :: (start c).1, (start c).2) := by
        simp [step, continued, hlong, hflush]
      have hidle : step .idle c = ((start c).1, (start c).2) := rfl
      rw [scan, hstep, lex, scan, hidle]
      exact ⟨by simp, rfl⟩

/-- A name qualifies what stands behind the dot. -/
theorem lexes_dot {token : Token} (hname : isName token = true) (h : Lexes text [token])
    (hrest : Lexes rest more) : Lexes (text ++ '.' :: rest) (token :: .symbol .dot :: more) := by
  obtain ⟨hcomplete, htokens⟩ := h
  have hstep : step (scan .idle text).2 '.' =
      (flush (scan .idle text).2, .symbol ['.']) := by
    have hdot : start '.' = ([], .symbol ['.']) := by decide
    rw [lex] at htokens
    rw [Complete] at hcomplete
    generalize scan .idle text = scanned at htokens hcomplete
    obtain ⟨out, mode⟩ := scanned
    have hlast := congrArg List.getLast? htokens
    have hcontinued : continued '.' mode = none := by
      cases mode with
      | idle => rfl
      | word text => rfl
      | quotedEnd text => rfl
      | number text | stringEnd text =>
          simp only [flush, List.getLast?_concat, List.getLast?_singleton,
            Option.some.injEq] at hlast
          rw [← hlast] at hname
          cases hname
      | symbol text =>
          simp only [flush, symbolToken, List.getLast?_concat, List.getLast?_singleton,
            Option.some.injEq] at hlast
          rw [← hlast] at hname
          cases hname
      | string _ | quoted _ | lineComment | blockComment _ _ => cases hcomplete
    rw [step, hcontinued, hdot, List.append_nil]
  obtain ⟨hout, hsettled⟩ := scan_dot rest
  refine ⟨?_, ?_⟩
  · rw [Complete, scan_append, scan, hstep]
    exact hsettled.trans hrest.1
  · rw [lex, scan_append, scan, hstep, ← hrest.2]
    rw [List.append_assoc, List.append_assoc, hout, ← List.append_assoc]
    rw [lex] at htokens
    rw [htokens]
    rfl

end Lexes

section Numbers

theorem isDigit_facts {c : Char} (hc : c.isDigit = true) :
    isSpace c = false ∧ brackets.lookup c = none ∧ isWordChar c = true ∧ c ≠ '-' ∧ c ≠ '*' := by
  refine ⟨?_, ?_, ?_, ?_, ?_⟩
  · rw [isSpace, decide_eq_false_iff_not]
    intro hmem
    simp only [List.mem_cons, List.not_mem_nil, or_false] at hmem
    rcases hmem with rfl | rfl | rfl | rfl | rfl | rfl <;> revert hc <;> decide
  · rw [List.lookup_eq_none_iff]
    intro entry hmem
    simp only [brackets, List.mem_cons, List.not_mem_nil, or_false] at hmem
    rw [bne_iff_ne]
    rintro rfl
    rcases hmem with rfl | rfl | rfl | rfl | rfl | rfl | rfl | rfl <;> revert hc <;> decide
  · simp [isWordChar, Char.isAlphanum, hc]
  · rintro rfl
    revert hc
    decide
  · rintro rfl
    revert hc
    decide

theorem start_digit {c : Char} (hc : c.isDigit = true) : start c = ([], .number [c]) := by
  obtain ⟨hspace, hbracket, -⟩ := isDigit_facts hc
  simp [start, hspace, hbracket, hc]

theorem scan_digits {digits : List Char} (h : ∀ c ∈ digits, c.isDigit = true) (text : List Char) :
    scan (.number text) digits = ([], .number (text ++ digits)) := by
  induction digits generalizing text with
  | nil => simp [scan]
  | cons c digits ih =>
      have hword := (isDigit_facts (h c (by simp))).2.2.1
      rw [scan, step]
      simp only [continued, hword, Bool.true_or, if_true]
      rw [ih fun d hd => h d (by simp [hd])]
      simp

theorem lexes_digits {digits : List Char} (hne : digits ≠ [])
    (h : ∀ c ∈ digits, c.isDigit = true) : Lexes digits [.number digits] := by
  obtain ⟨c, digits, rfl⟩ := List.exists_cons_of_ne_nil hne
  have hscan : scan .idle (c :: digits) = ([], .number (c :: digits)) := by
    rw [scan, step, continued, start_digit (h c (by simp)),
      scan_digits fun d hd => h d (by simp [hd])]
    rfl
  rw [Lexes, Complete, lex, hscan]
  exact ⟨rfl, rfl⟩

theorem lexes_minus {digits : List Char} (hne : digits ≠ [])
    (h : ∀ c ∈ digits, c.isDigit = true) :
    Lexes ('-' :: digits) [.symbol .minus, .number digits] := by
  obtain ⟨c, digits, rfl⟩ := List.exists_cons_of_ne_nil hne
  have hc := h c (by simp)
  obtain ⟨-, -, -, hminus, -⟩ := isDigit_facts hc
  have hlong : ['-', c] ∉ longSymbols := by
    intro hmem
    have hgreater : ∀ symbol ∈ longSymbols, symbol.head? = some '-' →
        symbol.tail.head? = some '>' := by
      decide
    have := hgreater _ hmem rfl
    rw [List.tail_cons, List.head?_cons, Option.some.injEq] at this
    rw [this] at hc
    revert hc
    decide
  have hscan : scan .idle ('-' :: c :: digits) =
      ([.symbol .minus], .number (c :: digits)) := by
    have hfirst : step .idle '-' = ([], .symbol ['-']) := by decide
    have hsecond : step (.symbol ['-']) c = ([.symbol .minus], .number [c]) := by
      have hflush : flush (.symbol ['-']) = [.symbol .minus] := by decide
      simp only [step, continued, List.singleton_append, hlong, if_false]
      simp [hminus, start_digit hc, hflush]
    rw [scan, hfirst, scan, hsecond, scan_digits fun d hd => h d (by simp [hd])]
    rfl
  rw [Lexes, Complete, lex, hscan]
  exact ⟨rfl, rfl⟩

theorem digits_toString (n : Nat) :
    (toString n).toList ≠ [] ∧ ∀ c ∈ (toString n).toList, c.isDigit = true := by
  have hdigits : (toString n).toList = Nat.toDigits 10 n := by simp
  rw [hdigits]
  exact ⟨Nat.toDigits_ne_nil, fun c hc =>
    Nat.isDigit_of_mem_toDigits (by decide) (by decide) hc⟩

def numberToken (n : Nat) : Token :=
  .number (toString n).toList

theorem lexes_nat (n : Nat) : Lexes (toString n).toList [numberToken n] :=
  lexes_digits (digits_toString n).1 (digits_toString n).2

end Numbers

end EqGen.Lib.SqlTokens
