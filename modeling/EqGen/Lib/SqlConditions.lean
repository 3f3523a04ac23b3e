import Mathlib.Data.List.Forall2
import EqGen.Lib.SqlTokens

/-!
Conditions read by the operator precedence of a dialect. Brackets stay in the tree, so a tree in
which every operand is closed can be told from its tokens alone.
-/

namespace EqGen.Lib.SqlConditions

open EqGen.Lib.SqlTokens

inductive Binary where
  | or | and
  | symbol (symbol : Symbol)
  | distinct (negated : Bool)
  | like (negated : Bool)
  deriving DecidableEq, Repr

/-- What goes on with an operand. -/
inductive Operator where
  | binary (operator : Binary)
  | null (negated : Bool)
  | between (negated : Bool)
  | within (negated : Bool)
  | cast
  deriving DecidableEq, Repr

/-- How tightly the operators of a dialect bind; it does not have those without a level. -/
structure Levels where
  binary : Binary → Option ℕ
  null : ℕ
  between : ℕ
  within : ℕ
  cast : Option ℕ
  not : ℕ
  negative : ℕ

def Levels.of (levels : Levels) : Operator → Option ℕ
  | .binary operator => levels.binary operator
  | .null _ => some levels.null
  | .between _ => some levels.between
  | .within _ => some levels.within
  | .cast => levels.cast

inductive Tree where
  | atom (token : Token)
  | negative (operand : Tree)
  | cast (operand : Tree) (type : List Char)
  | call (name : List Char) (args : List Tree)
  | group (inner : Tree)
  | not (operand : Tree)
  | binary (operator : Binary) (left right : Tree)
  | null (negated : Bool) (operand : Tree)
  | between (negated : Bool) (value low high : Tree)
  | within (negated : Bool) (value : Tree) (items : List Tree)

def keyword (text : String) : Token :=
  .clause text.toList

def Binary.tokens : Binary → List Token
  | or => [.or]
  | and => [.and]
  | symbol s => [.symbol s]
  | distinct false => [.is, keyword "DISTINCT", keyword "FROM"]
  | distinct true => [.is, .not, keyword "DISTINCT", keyword "FROM"]
  | like false => [.like]
  | like true => [.not, .like]

def negation (negated : Bool) : List Token :=
  if negated then [.not] else []

mutual

/-- The tokens that the tree is written with. -/
def spell : Tree → List Token
  | .atom token => [token]
  | .negative operand => .symbol .minus :: spell operand
  | .cast operand type => spell operand ++ [.symbol .typecast, .word type]
  | .call name args => .word name :: .opening .round :: (spellAll args ++ [.closing .round])
  | .group inner => .opening .round :: (spell inner ++ [.closing .round])
  | .not operand => .not :: spell operand
  | .binary operator left right => spell left ++ (operator.tokens ++ spell right)
  | .null negated operand => spell operand ++ (.is :: (negation negated ++ [.constant .null]))
  | .between negated value low high =>
    spell value ++ (negation negated ++ .between :: (spell low ++ .and :: spell high))
  | .within negated value items =>
    spell value ++
      (negation negated ++ .within :: .opening .round :: (spellAll items ++ [.closing .round]))

/-- Trees with commas between them. -/
def spellAll : List Tree → List Token
  | [] => []
  | [tree] => spell tree
  | tree :: next :: trees => spell tree ++ comma :: spellAll (next :: trees)

end

example : spellAll [.atom (.word ['a']), .not (.atom (.word ['b']))] =
    [.word ['a'], comma, .not, .word ['b']] := by
  simp [spell, spellAll]

/-- The operator at the head of the tokens, and what stands behind it. -/
def operatorAt : List Token → Option (Operator × List Token)
  | .or :: rest => some (.binary .or, rest)
  | .and :: rest => some (.binary .and, rest)
  | .symbol s :: rest => some (if s = .typecast then .cast else .binary (.symbol s), rest)
  | .is :: .constant .null :: rest => some (.null false, rest)
  | .is :: .not :: .constant .null :: rest => some (.null true, rest)
  | .is :: .clause first :: .clause second :: rest =>
    if first = "DISTINCT".toList ∧ second = "FROM".toList then
      some (.binary (.distinct false), rest)
    else none
  | .is :: .not :: .clause first :: .clause second :: rest =>
    if first = "DISTINCT".toList ∧ second = "FROM".toList then
      some (.binary (.distinct true), rest)
    else none
  | .between :: rest => some (.between false, rest)
  | .not :: .between :: rest => some (.between true, rest)
  | .within :: rest => some (.within false, rest)
  | .not :: .within :: rest => some (.within true, rest)
  | .like :: rest => some (.binary (.like false), rest)
  | .not :: .like :: rest => some (.binary (.like true), rest)
  | _ => none

def isAtom : Token → Bool
  | .word _ | .string _ | .number _ | .constant _ => true
  | _ => false

section Parser

variable (levels : Levels)

mutual

/-- The longest expression at the head of the tokens whose operators bind at least this tightly. -/
def parseExpr : ℕ → ℕ → List Token → Option (Tree × List Token)
  | 0, _, _ => none
  | fuel + 1, least, tokens =>
    match tokens with
    | .not :: rest =>
      match parseExpr fuel levels.not rest with
      | some (operand, rest) => parseRest fuel least (.not operand) rest
      | none => none
    | .symbol .minus :: rest =>
      match parseExpr fuel levels.negative rest with
      | some (operand, rest) => parseRest fuel least (.negative operand) rest
      | none => none
    | tokens =>
      match parsePrimary fuel tokens with
      | some (first, rest) => parseRest fuel least first rest
      | none => none

/-- A name, a literal, a call, or an expression in brackets. -/
def parsePrimary : ℕ → List Token → Option (Tree × List Token)
  | 0, _ => none
  | fuel + 1, tokens =>
    match tokens with
    | .opening .round :: rest =>
      match parseExpr fuel 0 rest with
      | some (inner, .closing .round :: rest) => some (.group inner, rest)
      | _ => none
    | .word name :: .opening .round :: rest =>
      match parseItems fuel rest with
      | some (args, rest) => some (.call name args, rest)
      | none => none
    | token :: rest => if isAtom token then some (.atom token, rest) else none
    | [] => none

/-- Expressions with commas between them, up to the closing bracket. -/
def parseItems : ℕ → List Token → Option (List Tree × List Token)
  | 0, _ => none
  | fuel + 1, tokens =>
    match parseExpr fuel 0 tokens with
    | some (first, .closing .round :: rest) => some ([first], rest)
    | some (first, .clause [','] :: rest) =>
      match parseItems fuel rest with
      | some (items, rest) => some (first :: items, rest)
      | none => none
    | _ => none

/-- The operators behind an operand that bind at least this tightly. -/
def parseRest : ℕ → ℕ → Tree → List Token → Option (Tree × List Token)
  | 0, _, _, _ => none
  | fuel + 1, least, left, tokens =>
    match operatorAt tokens with
    | none => some (left, tokens)
    | some (operator, rest) =>
      match levels.of operator with
      | none => some (left, tokens)
      | some level =>
        if level < least then some (left, tokens)
        else
          match operator with
          | .null negated => parseRest fuel least (.null negated left) rest
          | .cast =>
            match rest with
            | .word type :: rest => parseRest fuel least (.cast left type) rest
            | _ => none
          | .binary operator =>
            match parseExpr fuel (level + 1) rest with
            | some (right, rest) => parseRest fuel least (.binary operator left right) rest
            | none => none
          | .between negated =>
            match parseExpr fuel (level + 1) rest with
            | some (low, .and :: rest) =>
              match parseExpr fuel (level + 1) rest with
              | some (high, rest) => parseRest fuel least (.between negated left low high) rest
              | none => none
            | _ => none
          | .within negated =>
            match rest with
            | .opening .round :: rest =>
              match parseItems fuel rest with
              | some (items, rest) => parseRest fuel least (.within negated left items) rest
              | none => none
            | _ => none

end

/-- The whole of the tokens as one expression. -/
def parse (tokens : List Token) : Option Tree :=
  match parseExpr levels (3 * tokens.length + 1) 0 tokens with
  | some (tree, []) => some tree
  | _ => none

example : parse levels [.not, .word ['f'], .opening .round, .word ['a'], .closing .round] =
    some (.not (.call ['f'] [.atom (.word ['a'])])) := by
  simp [parse, parseExpr, parsePrimary, parseItems, parseRest, isAtom, operatorAt]

end Parser

section Closed

variable (levels : Levels)

mutual

/-- Trees that are one operand whatever stands next to them. -/
inductive Closed : Tree → Prop where
  | atom {token : Token} (h : isAtom token = true) : Closed (.atom token)
  | negative (text : List Char) : Closed (.negative (.atom (.number text)))
  | cast (text type : List Char) (h : levels.cast.isSome = true) :
      Closed (.cast (.atom (.string text)) type)
  | call {name : List Char} {args : List Tree} (hne : args ≠ [])
      (hargs : ∀ arg ∈ args, Bracketed arg) : Closed (.call name args)
  | group {inner : Tree} (h : Bracketed inner) : Closed (.group inner)

/-- Trees of which every operand is closed. -/
inductive Bracketed : Tree → Prop where
  | closed {tree : Tree} (h : Closed tree) : Bracketed tree
  | not {operand : Tree} (h : Closed operand) : Bracketed (.not operand)
  | binary {operator : Binary} {left right : Tree} (hcast : operator ≠ .symbol .typecast)
      (hlevel : (levels.binary operator).isSome = true) (hleft : Closed left)
      (hright : Closed right) : Bracketed (.binary operator left right)
  | null (negated : Bool) {operand : Tree} (h : Closed operand) : Bracketed (.null negated operand)
  | between (negated : Bool) {value low high : Tree} (hvalue : Closed value) (hlow : Closed low)
      (hhigh : Closed high) : Bracketed (.between negated value low high)
  | within (negated : Bool) {value : Tree} {items : List Tree} (hvalue : Closed value)
      (hne : items ≠ []) (hitems : ∀ item ∈ items, Bracketed item) :
      Bracketed (.within negated value items)

end

/-- A sign binds tighter than all other operators but a cast, and `AND` ends the lower bound. -/
structure Levels.Sane : Prop where
  negative : ∀ operator level, operator ≠ .cast → levels.of operator = some level →
    level < levels.negative
  not : levels.not < levels.negative
  cast : ∀ level, levels.cast = some level → levels.negative ≤ level
  and : ∀ level, levels.binary .and = some level → level ≤ levels.between

/-- No operator at the head of the tokens binds at least this tightly. -/
def Stops (least : ℕ) (tokens : List Token) : Prop :=
  ∀ operator rest level, operatorAt tokens = some (operator, rest) →
    levels.of operator = some level → level < least

/-- The tokens do not go on with an expression. -/
structure Halts (tokens : List Token) : Prop where
  operator : operatorAt tokens = none
  call : tokens.head? ≠ some (.opening .round)

end Closed

section Steps

variable {levels : Levels} {fuel least level : ℕ} {left right : Tree} {tokens rest more : List Token}

theorem Halts.stops (h : Halts tokens) (least : ℕ) : Stops levels least tokens := by
  intro operator rest level hat
  rw [h.operator] at hat
  cases hat

theorem halts_nil : Halts [] :=
  ⟨rfl, by simp⟩

theorem halts_closing (rest : List Token) : Halts (.closing .round :: rest) :=
  ⟨rfl, by simp⟩

theorem halts_comma (rest : List Token) : Halts (comma :: rest) :=
  ⟨rfl, by simp [comma]⟩

theorem operatorAt_binary {operator : Binary} (hcast : operator ≠ .symbol .typecast)
    (rest : List Token) : operatorAt (operator.tokens ++ rest) = some (.binary operator, rest) := by
  cases operator with
  | symbol s =>
      have hs : s ≠ .typecast := fun h => hcast (congrArg Binary.symbol h)
      simp [Binary.tokens, operatorAt, hs]
  | or | and => rfl
  | distinct negated => cases negated <;> rfl
  | like negated => cases negated <;> rfl

theorem operatorAt_null (negated : Bool) (rest : List Token) :
    operatorAt (.is :: (negation negated ++ .constant .null :: rest)) =
      some (.null negated, rest) := by
  cases negated <;> rfl

theorem operatorAt_between (negated : Bool) (rest : List Token) :
    operatorAt (negation negated ++ .between :: rest) = some (.between negated, rest) := by
  cases negated <;> rfl

theorem operatorAt_within (negated : Bool) (rest : List Token) :
    operatorAt (negation negated ++ .within :: rest) = some (.within negated, rest) := by
  cases negated <;> rfl

/-- Behind an operand stands no bracket where an operator stands. -/
theorem not_opening_of_operatorAt {operator : Operator}
    (h : operatorAt tokens = some (operator, rest)) : tokens.head? ≠ some (.opening .round) := by
  intro hhead
  obtain ⟨more, rfl⟩ := List.head?_eq_some_iff.mp hhead
  cases h

theorem stops_of_operatorAt {operator : Operator} (h : operatorAt tokens = some (operator, rest))
    (hlevel : ∀ level, levels.of operator = some level → level < least) :
    Stops levels least tokens := by
  intro operator' rest' level hat hof
  rw [h] at hat
  cases hat
  exact hlevel level hof

theorem parseRest_stops (h : Stops levels least tokens) :
    parseRest levels (fuel + 1) least left tokens = some (left, tokens) := by
  rw [parseRest]
  cases hat : operatorAt tokens with
  | none => rfl
  | some found =>
      obtain ⟨operator, rest⟩ := found
      cases hof : levels.of operator with
      | none => simp [hof]
      | some level => simp [hof, h operator rest level hat hof]

theorem parseRest_binary {operator : Binary}
    (hat : operatorAt tokens = some (.binary operator, rest)) (hlevel : levels.binary operator = some level) (hleast : least ≤ level)
    (hright : parseExpr levels fuel (level + 1) rest = some (right, more)) :
    parseRest levels (fuel + 1) least left tokens =
      parseRest levels fuel least (.binary operator left right) more := by
  have hof : levels.of (.binary operator) = some level := hlevel
  rw [parseRest, hat]
  simp only [hof, Nat.not_lt.mpr hleast, if_false, hright]

theorem parseRest_null {negated : Bool} (hat : operatorAt tokens = some (.null negated, rest))
    (hleast : least ≤ levels.null) :
    parseRest levels (fuel + 1) least left tokens =
      parseRest levels fuel least (.null negated left) rest := by
  have hof : levels.of (.null negated) = some levels.null := rfl
  rw [parseRest, hat]
  simp only [hof, Nat.not_lt.mpr hleast, if_false]

theorem parseRest_cast {type : List Char} (hlevel : levels.cast = some level)
    (hleast : least ≤ level) :
    parseRest levels (fuel + 1) least left (.symbol .typecast :: .word type :: rest) =
      parseRest levels fuel least (.cast left type) rest := by
  have hat : operatorAt (.symbol .typecast :: .word type :: rest) =
      some (.cast, .word type :: rest) := rfl
  have hof : levels.of .cast = some level := hlevel
  rw [parseRest, hat]
  simp only [hof, Nat.not_lt.mpr hleast, if_false]

theorem parseRest_between {negated : Bool} {low high : Tree} {highs : List Token}
    (hat : operatorAt tokens = some (.between negated, rest)) (hleast : least ≤ levels.between)
    (hlow : parseExpr levels fuel (levels.between + 1) rest = some (low, .and :: highs))
    (hhigh : parseExpr levels fuel (levels.between + 1) highs = some (high, more)) :
    parseRest levels (fuel + 1) least left tokens =
      parseRest levels fuel least (.between negated left low high) more := by
  have hof : levels.of (.between negated) = some levels.between := rfl
  rw [parseRest, hat]
  simp only [hof, Nat.not_lt.mpr hleast, if_false, hlow, hhigh]

theorem parseRest_within {negated : Bool} {items : List Tree}
    (hat : operatorAt tokens = some (.within negated, .opening .round :: rest))
    (hleast : least ≤ levels.within) (hitems : parseItems levels fuel rest = some (items, more)) :
    parseRest levels (fuel + 1) least left tokens =
      parseRest levels fuel least (.within negated left items) more := by
  have hof : levels.of (.within negated) = some levels.within := rfl
  rw [parseRest, hat]
  simp only [hof, Nat.not_lt.mpr hleast, if_false, hitems]

theorem parsePrimary_atom {token : Token} (htoken : isAtom token = true)
    (hrest : rest.head? ≠ some (.opening .round)) :
    parsePrimary levels (fuel + 1) (token :: rest) = some (.atom token, rest) := by
  cases token with
  | word name =>
      cases rest with
      | nil => rfl
      | cons next rest =>
          rw [parsePrimary]
          · rfl
          · rintro ⟨⟩
          · rintro _ _ - heq
            exact hrest (by rw [heq]; rfl)
  | string _ | number _ | constant _ => rfl
  | _ => cases htoken

theorem parseExpr_atom {token : Token} (htoken : isAtom token = true)
    (hrest : rest.head? ≠ some (.opening .round)) :
    parseExpr levels (fuel + 2) least (token :: rest) =
      parseRest levels (fuel + 1) least (.atom token) rest := by
  have hprimary : parsePrimary levels (fuel + 1) (token :: rest) = some (.atom token, rest) :=
    parsePrimary_atom htoken hrest
  cases token with
  | word _ | string _ | number _ | constant _ =>
      rw [parseExpr]
      · rw [hprimary]
      · rintro _ ⟨⟩
      · rintro _ ⟨⟩
  | _ => cases htoken

theorem parseExpr_call {name : List Char} {args : List Tree}
    (hargs : parseItems levels fuel rest = some (args, more)) :
    parseExpr levels (fuel + 2) least (.word name :: .opening .round :: rest) =
      parseRest levels (fuel + 1) least (.call name args) more := by
  rw [parseExpr]
  · rw [parsePrimary, hargs]
  · rintro _ ⟨⟩
  · rintro _ ⟨⟩

theorem parseExpr_group {inner : Tree}
    (hinner : parseExpr levels fuel 0 rest = some (inner, .closing .round :: more)) :
    parseExpr levels (fuel + 2) least (.opening .round :: rest) =
      parseRest levels (fuel + 1) least (.group inner) more := by
  rw [parseExpr]
  · rw [parsePrimary, hinner]
  · rintro _ ⟨⟩
  · rintro _ ⟨⟩

end Steps

section Reading

variable {levels : Levels}

/-- A closed tree is read whole wherever an operand is expected. -/
def ReadsClosed (levels : Levels) (tree : Tree) : Prop :=
  ∀ fuel least rest, 3 * (spell tree).length ≤ fuel → least ≤ levels.negative →
    rest.head? ≠ some (.opening .round) → Stops levels levels.negative rest →
      ∃ fuel', fuel ≤ fuel' + 3 * (spell tree).length ∧
        parseExpr levels fuel least (spell tree ++ rest) = parseRest levels fuel' least tree rest

/-- A bracketed tree is read whole where nothing goes on with it. -/
def ReadsWhole (levels : Levels) (tree : Tree) : Prop :=
  ∀ fuel rest, 3 * (spell tree).length + 1 ≤ fuel → Halts rest →
    parseExpr levels fuel 0 (spell tree ++ rest) = some (tree, rest)

theorem readsAll {trees : List Tree} (hne : trees ≠ [])
    (h : ∀ tree ∈ trees, ReadsWhole levels tree) (fuel : ℕ) (rest : List Token)
    (hfuel : 3 * (spellAll trees).length + 2 ≤ fuel) :
    parseItems levels fuel (spellAll trees ++ .closing .round :: rest) = some (trees, rest) := by
  induction trees generalizing fuel with
  | nil => exact absurd rfl hne
  | cons tree trees ih =>
      obtain ⟨fuel, rfl⟩ : ∃ fuel', fuel = fuel' + 1 := ⟨fuel - 1, by omega⟩
      cases trees with
      | nil =>
          have hread := h tree (by simp) fuel (.closing .round :: rest)
            (by rw [spellAll] at hfuel; omega) (halts_closing rest)
          rw [spellAll, parseItems, hread]
      | cons next trees =>
          rw [spellAll, List.length_append, List.length_cons] at hfuel
          have hread := h tree (by simp) fuel
            (comma :: (spellAll (next :: trees) ++ .closing .round :: rest)) (by omega)
            (halts_comma _)
          have hmore := ih (by simp) (fun tree htree => h tree (by simp [htree])) fuel (by omega)
          rw [spellAll, List.append_assoc, List.cons_append, parseItems, hread]
          simp only [comma]
          rw [hmore]

/-- The last operand of an operator. -/
theorem ReadsClosed.last {tree : Tree} (h : ReadsClosed levels tree) (fuel least : ℕ)
    {rest : List Token} (hfuel : 3 * (spell tree).length + 1 ≤ fuel)
    (hleast : least ≤ levels.negative) (hcall : rest.head? ≠ some (.opening .round))
    (hnegative : Stops levels levels.negative rest) (hstops : Stops levels least rest) :
    parseExpr levels fuel least (spell tree ++ rest) = some (tree, rest) := by
  obtain ⟨fuel', hfuel', hread⟩ := h fuel least rest (by omega) hleast hcall hnegative
  obtain ⟨more, rfl⟩ : ∃ more, fuel' = more + 1 := ⟨fuel' - 1, by omega⟩
  rw [hread, parseRest_stops hstops]

/-- The operand in front of an operator. -/
theorem ReadsClosed.first {tree : Tree} (h : ReadsClosed levels tree) (hsane : levels.Sane)
    (fuel least : ℕ) {rest more : List Token} {operator : Operator}
    (hat : operatorAt rest = some (operator, more)) (hcast : operator ≠ .cast)
    (hfuel : 3 * (spell tree).length ≤ fuel) (hleast : least ≤ levels.negative) :
    ∃ fuel', fuel ≤ fuel' + 3 * (spell tree).length ∧
      parseExpr levels fuel least (spell tree ++ rest) = parseRest levels fuel' least tree rest :=
  h fuel least rest hfuel hleast (not_opening_of_operatorAt hat)
    (stops_of_operatorAt hat fun level => hsane.negative operator level hcast)

theorem readsClosed_atom {token : Token} (h : isAtom token = true) :
    ReadsClosed levels (.atom token) := by
  intro fuel least rest hfuel hleast hcall hstops
  rw [spell, List.length_singleton] at hfuel ⊢
  obtain ⟨fuel, rfl⟩ : ∃ fuel', fuel = fuel' + 2 := ⟨fuel - 2, by omega⟩
  exact ⟨fuel + 1, by omega, parseExpr_atom h hcall⟩

theorem readsClosed_negative (text : List Char) :
    ReadsClosed levels (.negative (.atom (.number text))) := by
  intro fuel least rest hfuel hleast hcall hstops
  rw [spell, spell, List.length_cons, List.length_singleton] at hfuel
  obtain ⟨fuel, rfl⟩ : ∃ fuel', fuel = fuel' + 1 := ⟨fuel - 1, by omega⟩
  have hatom : ReadsClosed levels (.atom (.number text)) := readsClosed_atom rfl
  have hread := hatom.last fuel levels.negative (by rw [spell, List.length_singleton]; omega)
    (Nat.le_refl _) hcall hstops hstops
  refine ⟨fuel, by rw [spell, spell, List.length_cons]; omega, ?_⟩
  rw [spell, List.cons_append, parseExpr, hread]

theorem readsClosed_cast (hsane : levels.Sane) (text type : List Char)
    (h : levels.cast.isSome = true) : ReadsClosed levels (.cast (.atom (.string text)) type) := by
  intro fuel least rest hfuel hleast hcall hstops
  obtain ⟨level, hlevel⟩ := Option.isSome_iff_exists.mp h
  have hlength : (spell (.cast (.atom (.string text)) type)).length = 3 := rfl
  rw [hlength] at hfuel ⊢
  obtain ⟨fuel, rfl⟩ : ∃ fuel', fuel = fuel' + 2 := ⟨fuel - 2, by omega⟩
  refine ⟨fuel, by omega, ?_⟩
  show parseExpr levels (fuel + 2) least
    (.string text :: .symbol .typecast :: .word type :: rest) = _
  have hcast : least ≤ level := Nat.le_trans hleast (hsane.cast level hlevel)
  rw [parseExpr_atom rfl (by simp), parseRest_cast hlevel hcast]

theorem readsClosed_call {name : List Char} {args : List Tree} (hne : args ≠ [])
    (h : ∀ arg ∈ args, ReadsWhole levels arg) : ReadsClosed levels (.call name args) := by
  intro fuel least rest hfuel hleast hcall hstops
  have hlength : (spell (.call name args)).length = (spellAll args).length + 3 := by
    rw [spell]
    simp
  rw [hlength] at hfuel ⊢
  obtain ⟨fuel, rfl⟩ : ∃ fuel', fuel = fuel' + 2 := ⟨fuel - 2, by omega⟩
  refine ⟨fuel + 1, by omega, ?_⟩
  rw [spell, List.cons_append, List.cons_append, List.append_assoc, List.singleton_append]
  exact parseExpr_call (readsAll hne h _ rest (by omega))

theorem readsClosed_group {inner : Tree} (h : ReadsWhole levels inner) :
    ReadsClosed levels (.group inner) := by
  intro fuel least rest hfuel hleast hcall hstops
  have hlength : (spell (.group inner)).length = (spell inner).length + 2 := by
    rw [spell]
    simp
  rw [hlength] at hfuel ⊢
  obtain ⟨fuel, rfl⟩ : ∃ fuel', fuel = fuel' + 2 := ⟨fuel - 2, by omega⟩
  refine ⟨fuel + 1, by omega, ?_⟩
  rw [spell, List.cons_append, List.append_assoc, List.singleton_append]
  exact parseExpr_group (h fuel _ (by omega) (halts_closing rest))

theorem readsWhole_closed {tree : Tree} (h : ReadsClosed levels tree) : ReadsWhole levels tree :=
  fun _ _ hfuel hhalts =>
    h.last _ 0 hfuel (Nat.zero_le _) hhalts.call (hhalts.stops _) (hhalts.stops _)

theorem readsWhole_not (hsane : levels.Sane) {operand : Tree} (h : ReadsClosed levels operand) :
    ReadsWhole levels (.not operand) := by
  intro fuel rest hfuel hhalts
  rw [spell, List.length_cons] at hfuel
  obtain ⟨fuel, rfl⟩ : ∃ fuel', fuel = fuel' + 2 := ⟨fuel - 2, by omega⟩
  have hread := h.last (fuel + 1) levels.not (by omega) (Nat.le_of_lt hsane.not) hhalts.call
    (hhalts.stops _) (hhalts.stops levels.not)
  rw [spell, List.cons_append, parseExpr, hread]
  exact parseRest_stops (hhalts.stops 0)

theorem readsWhole_binary (hsane : levels.Sane) {operator : Binary} {left right : Tree}
    (hcast : operator ≠ .symbol .typecast) (hlevel : (levels.binary operator).isSome = true)
    (hleft : ReadsClosed levels left) (hright : ReadsClosed levels right) :
    ReadsWhole levels (.binary operator left right) := by
  intro fuel rest hfuel hhalts
  obtain ⟨level, hlevel⟩ := Option.isSome_iff_exists.mp hlevel
  have hnegative := hsane.negative (.binary operator) level (by simp) hlevel
  have htokens : 0 < operator.tokens.length := by
    cases operator with
    | distinct negated | like negated => cases negated <;> decide
    | _ => simp [Binary.tokens]
  rw [spell, List.length_append, List.length_append] at hfuel
  rw [spell, List.append_assoc, List.append_assoc]
  obtain ⟨fuel', hfuel', hfirst⟩ := hleft.first hsane fuel 0
    (operatorAt_binary hcast (spell right ++ rest)) (by simp) (by omega) (Nat.zero_le _)
  obtain ⟨more, rfl⟩ : ∃ more, fuel' = more + 2 := ⟨fuel' - 2, by omega⟩
  have hlast := hright.last (more + 1) (level + 1) (by omega) hnegative
    hhalts.call (hhalts.stops _) (hhalts.stops _)
  rw [hfirst, parseRest_binary (operatorAt_binary hcast _) hlevel (Nat.zero_le _) hlast]
  exact parseRest_stops (hhalts.stops 0)

theorem readsWhole_null (hsane : levels.Sane) (negated : Bool) {operand : Tree}
    (h : ReadsClosed levels operand) : ReadsWhole levels (.null negated operand) := by
  intro fuel rest hfuel hhalts
  rw [spell, List.length_append, List.length_cons] at hfuel
  rw [spell, List.append_assoc, List.cons_append, List.append_assoc, List.singleton_append]
  obtain ⟨fuel', hfuel', hfirst⟩ := h.first hsane fuel 0
    (operatorAt_null negated rest) (by simp) (by omega) (Nat.zero_le _)
  obtain ⟨more, rfl⟩ : ∃ more, fuel' = more + 2 := ⟨fuel' - 2, by omega⟩
  rw [hfirst, parseRest_null (operatorAt_null negated rest) (Nat.zero_le _)]
  exact parseRest_stops (hhalts.stops 0)

theorem readsWhole_between (hsane : levels.Sane) (negated : Bool) {value low high : Tree}
    (hvalue : ReadsClosed levels value) (hlow : ReadsClosed levels low)
    (hhigh : ReadsClosed levels high) : ReadsWhole levels (.between negated value low high) := by
  intro fuel rest hfuel hhalts
  have hnegative := hsane.negative (.between negated) levels.between (by simp) rfl
  have hand : operatorAt (.and :: (spell high ++ rest)) = some (.binary .and, spell high ++ rest) :=
    rfl
  rw [spell] at hfuel
  simp only [List.length_append, List.length_cons] at hfuel
  rw [spell, List.append_assoc, List.append_assoc, List.cons_append, List.append_assoc,
    List.cons_append]
  obtain ⟨fuel', hfuel', hfirst⟩ := hvalue.first hsane fuel 0
    (operatorAt_between negated (spell low ++ .and :: (spell high ++ rest))) (by simp) (by omega)
    (Nat.zero_le _)
  obtain ⟨more, rfl⟩ : ∃ more, fuel' = more + 2 := ⟨fuel' - 2, by omega⟩
  -- `AND` binds too loosely to go on with the lower bound.
  have hsecond := hlow.last (more + 1) (levels.between + 1) (by omega) hnegative
    (not_opening_of_operatorAt hand)
    (stops_of_operatorAt hand fun level => hsane.negative (.binary .and) level (by simp))
    (stops_of_operatorAt hand fun level hlevel => Nat.lt_succ_of_le (hsane.and level hlevel))
  have hthird := hhigh.last (more + 1) (levels.between + 1) (by omega) hnegative
    hhalts.call (hhalts.stops _) (hhalts.stops _)
  rw [hfirst, parseRest_between (operatorAt_between negated _) (Nat.zero_le _) hsecond hthird]
  exact parseRest_stops (hhalts.stops 0)

theorem readsWhole_within (hsane : levels.Sane) (negated : Bool) {value : Tree} {items : List Tree}
    (hvalue : ReadsClosed levels value) (hne : items ≠ [])
    (hitems : ∀ item ∈ items, ReadsWhole levels item) :
    ReadsWhole levels (.within negated value items) := by
  intro fuel rest hfuel hhalts
  rw [spell] at hfuel
  simp only [List.length_append, List.length_cons] at hfuel
  rw [spell, List.append_assoc, List.append_assoc, List.cons_append, List.cons_append,
    List.append_assoc, List.singleton_append]
  obtain ⟨fuel', hfuel', hfirst⟩ := hvalue.first hsane fuel 0
    (operatorAt_within negated (.opening .round :: (spellAll items ++ .closing .round :: rest)))
    (by simp) (by omega) (Nat.zero_le _)
  obtain ⟨more, rfl⟩ : ∃ more, fuel' = more + 2 := ⟨fuel' - 2, by omega⟩
  have hread := readsAll hne hitems (more + 1) rest (by omega)
  rw [hfirst, parseRest_within (operatorAt_within negated _) (Nat.zero_le _) hread]
  exact parseRest_stops (hhalts.stops 0)

mutual

theorem Closed.reads (hsane : levels.Sane) {tree : Tree} :
    Closed levels tree → ReadsClosed levels tree
  | .atom h => readsClosed_atom h
  | .negative text => readsClosed_negative text
  | .cast text type h => readsClosed_cast hsane text type h
  | .call hne hargs => readsClosed_call hne fun arg harg => (hargs arg harg).reads hsane
  | .group h => readsClosed_group (h.reads hsane)

theorem Bracketed.reads (hsane : levels.Sane) {tree : Tree} :
    Bracketed levels tree → ReadsWhole levels tree
  | .closed h => readsWhole_closed (h.reads hsane)
  | .not h => readsWhole_not hsane (h.reads hsane)
  | .binary hcast hlevel hleft hright =>
    readsWhole_binary hsane hcast hlevel (hleft.reads hsane) (hright.reads hsane)
  | .null negated h => readsWhole_null hsane negated (h.reads hsane)
  | .between negated hvalue hlow hhigh =>
    readsWhole_between hsane negated (hvalue.reads hsane) (hlow.reads hsane) (hhigh.reads hsane)
  | .within negated hvalue hne hitems =>
    readsWhole_within hsane negated (hvalue.reads hsane) hne
      fun item hitem => (hitems item hitem).reads hsane

end

/-- The tokens of a bracketed tree are read as that tree. -/
theorem parse_spell (hsane : levels.Sane) {tree : Tree} (h : Bracketed levels tree) :
    parse levels (spell tree) = some tree := by
  have hread := h.reads hsane (3 * (spell tree).length + 1) [] (Nat.le_refl _) halts_nil
  rw [List.append_nil] at hread
  rw [parse, hread]

/-- In brackets it is one operand, whatever stands behind the brackets. -/
theorem parsePrimary_group (hsane : levels.Sane) {tree : Tree} (h : Bracketed levels tree)
    (fuel : ℕ) (hfuel : 3 * (spell tree).length + 2 ≤ fuel) (rest : List Token) :
    parsePrimary levels fuel (.opening .round :: (spell tree ++ .closing .round :: rest)) =
      some (.group tree, rest) := by
  obtain ⟨fuel, rfl⟩ : ∃ fuel', fuel = fuel' + 1 := ⟨fuel - 1, by omega⟩
  rw [parsePrimary, h.reads hsane fuel _ (by omega) (halts_closing rest)]

end Reading

section Dialects

/-- The precedences of PostgreSQL. -/
def postgresLevels : Levels where
  binary
    | .or => some 1
    | .and => some 2
    | .distinct _ => some 4
    | .like _ => some 6
    | .symbol .eq | .symbol .ne | .symbol .lt | .symbol .le | .symbol .gt | .symbol .ge => some 5
    | .symbol (.other _) => some 7
    | .symbol .plus | .symbol .minus => some 8
    | .symbol .star | .symbol .slash | .symbol .percent => some 9
    | .symbol .caret => some 10
    | .symbol .typecast | .symbol .dot => none
  null := 4
  between := 6
  within := 6
  cast := some 14
  not := 3
  negative := 12

/-- The precedences of SQLite. -/
def sqliteLevels : Levels where
  binary
    | .or => some 1
    | .and => some 2
    | .distinct _ | .like _ | .symbol .eq | .symbol .ne => some 4
    | .symbol .lt | .symbol .le | .symbol .gt | .symbol .ge => some 5
    | .symbol (.other text) =>
      if text = "&".toList ∨ text = "|".toList ∨ text = "<<".toList ∨ text = ">>".toList then some 6
      else if text = "||".toList ∨ text = "->".toList ∨ text = "->>".toList then some 9
      else none
    | .symbol .plus | .symbol .minus => some 7
    | .symbol .star | .symbol .slash | .symbol .percent => some 8
    | .symbol .caret | .symbol .typecast | .symbol .dot => none
  null := 4
  between := 4
  within := 4
  cast := none
  not := 3
  negative := 11

/-- The precedences of MySQL. -/
def mysqlLevels : Levels where
  binary
    | .or => some 1
    | .and => some 3
    | .distinct _ => none
    | .like _ => some 6
    | .symbol .eq | .symbol .ne | .symbol .lt | .symbol .le | .symbol .gt | .symbol .ge => some 6
    | .symbol (.other text) =>
      if text = "<=>".toList then some 6
      else if text = "||".toList then some 1
      else if text = "&&".toList then some 3
      else if text = "|".toList then some 7
      else if text = "&".toList then some 8
      else if text = "<<".toList ∨ text = ">>".toList then some 9
      else none
    | .symbol .plus | .symbol .minus => some 10
    | .symbol .star | .symbol .slash | .symbol .percent => some 11
    | .symbol .caret => some 12
    | .symbol .typecast | .symbol .dot => none
  null := 6
  between := 5
  within := 6
  cast := none
  not := 4
  negative := 13

/-- The precedences of ClickHouse. -/
def clickhouseLevels : Levels where
  binary
    | .or => some 1
    | .and => some 2
    | .distinct _ => some 4
    | .like _ => some 6
    | .symbol .eq | .symbol .ne | .symbol .lt | .symbol .le | .symbol .gt | .symbol .ge => some 6
    | .symbol (.other text) =>
      if text = "<=>".toList then some 4 else if text = "||".toList then some 7 else none
    | .symbol .plus | .symbol .minus => some 8
    | .symbol .star | .symbol .slash | .symbol .percent => some 9
    | .symbol .caret | .symbol .typecast | .symbol .dot => none
  null := 4
  between := 5
  within := 6
  cast := some 11
  not := 3
  negative := 10

/-- The precedences of CrateDB, whose predicates all bind alike. -/
def cratedbLevels : Levels where
  binary
    | .or => some 1
    | .and => some 2
    | .distinct _ | .like _ => some 4
    | .symbol .eq | .symbol .ne | .symbol .lt | .symbol .le | .symbol .gt | .symbol .ge => some 4
    | .symbol (.other text) => if text = "||".toList then some 5 else none
    | .symbol .plus | .symbol .minus => some 6
    | .symbol .star | .symbol .slash | .symbol .percent => some 7
    | .symbol .caret => some 8
    | .symbol .typecast | .symbol .dot => none
  null := 4
  between := 4
  within := 4
  cast := some 10
  not := 3
  negative := 9

/-- The bound on the levels, read off the operators of a dialect. -/
theorem Levels.sane_of (levels : Levels)
    (hbinary : ∀ operator level, levels.binary operator = some level → level < levels.negative)
    (hnull : levels.null < levels.negative) (hbetween : levels.between < levels.negative)
    (hwithin : levels.within < levels.negative) (hnot : levels.not < levels.negative)
    (hcast : ∀ level ∈ levels.cast, levels.negative ≤ level)
    (hand : ∀ level ∈ levels.binary .and, level ≤ levels.between) : levels.Sane where
  negative := by
    rintro operator level hne hof
    cases operator with
    | binary operator => exact hbinary operator level hof
    | null _ => exact Option.some.inj hof ▸ hnull
    | between _ => exact Option.some.inj hof ▸ hbetween
    | within _ => exact Option.some.inj hof ▸ hwithin
    | cast => exact absurd rfl hne
  not := hnot
  cast := hcast
  and := hand

theorem sane_postgresLevels : postgresLevels.Sane := by
  refine postgresLevels.sane_of ?_ (by decide) (by decide) (by decide) (by decide)
    (by decide) (by decide)
  intro operator level hlevel
  dsimp only [postgresLevels] at hlevel ⊢
  repeat' split at hlevel
  all_goals cases hlevel
  all_goals decide

theorem sane_clickhouseLevels : clickhouseLevels.Sane := by
  refine clickhouseLevels.sane_of ?_ (by decide) (by decide) (by decide) (by decide)
    (by decide) (by decide)
  intro operator level hlevel
  dsimp only [clickhouseLevels] at hlevel ⊢
  repeat' split at hlevel
  all_goals cases hlevel
  all_goals decide

theorem sane_cratedbLevels : cratedbLevels.Sane := by
  refine cratedbLevels.sane_of ?_ (by decide) (by decide) (by decide) (by decide)
    (by decide) (by decide)
  intro operator level hlevel
  dsimp only [cratedbLevels] at hlevel ⊢
  repeat' split at hlevel
  all_goals cases hlevel
  all_goals decide

theorem sane_sqliteLevels : sqliteLevels.Sane := by
  refine sqliteLevels.sane_of ?_ (by decide) (by decide) (by decide) (by decide)
    (by decide) (by decide)
  intro operator level hlevel
  dsimp only [sqliteLevels] at hlevel ⊢
  repeat' split at hlevel
  all_goals cases hlevel
  all_goals decide

theorem sane_mysqlLevels : mysqlLevels.Sane := by
  refine mysqlLevels.sane_of ?_ (by decide) (by decide) (by decide) (by decide)
    (by decide) (by decide)
  intro operator level hlevel
  dsimp only [mysqlLevels] at hlevel ⊢
  repeat' split at hlevel
  all_goals cases hlevel
  all_goals decide

end Dialects

end EqGen.Lib.SqlConditions
