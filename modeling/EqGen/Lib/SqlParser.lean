import EqGen.Lib.SqlShape
import Mathlib.Order.Filter.AtTopBot.Basic

/-!
Precedence climbing. The parser follows every reading of the grammar, so tokens have one reading
at most.
-/

namespace EqGen.Lib.SqlParser

open EqGen.Lib.SqlTokens
open EqGen.Lib.SqlGrammar
open EqGen.Lib.SqlShape
open Filter

/-- What may go on with an expression. -/
inductive Operator where
  | binary (operator : Infix)
  | test (negated : Bool) (value : Constant)
  | between (negated : Bool)
  | apply (kind : Applied)

def Operator.level : Operator → Nat
  | binary operator => operator.level
  | test _ _ => testLevel
  | between _ => betweenLevel
  | apply kind => kind.level

def operatorAt : List Token → Option (Operator × List Token)
  | .or :: rest => some (.binary .or, rest)
  | .and :: rest => some (.binary .and, rest)
  | .over :: rest => some (.binary .over, rest)
  | .symbol s :: rest => some (.binary (.symbol s), rest)
  | .like :: rest => some (.binary (.like false), rest)
  | .not :: .like :: rest => some (.binary (.like true), rest)
  | .within :: rest => some (.binary (.within false), rest)
  | .not :: .within :: rest => some (.binary (.within true), rest)
  | .is :: .constant value :: rest => some (.test false value, rest)
  | .is :: .not :: .constant value :: rest => some (.test true value, rest)
  | .between :: rest => some (.between false, rest)
  | .not :: .between :: rest => some (.between true, rest)
  | .opening .round :: rest => some (.apply .call, rest)
  | .opening .square :: rest => some (.apply .index, rest)
  | _ => none

/-- One expression in round brackets is that expression. -/
def enclose (bracket : Bracket) (clause : Clause) : Tree :=
  match bracket, clause with
  | .round, .expr tree .nil => tree
  | _, _ => .enclosed bracket clause

mutual

/-- The expression at the head of the tokens, of operators that bind at least at this level. -/
def parseExpr : Nat → Nat → List Token → Option (Tree × List Token)
  | fuel + 1, level, token :: rest =>
    if isAtom token then parseRest fuel level (.atom token) rest
    else match unaryLevel token with
      | some tight =>
        (parseExpr fuel (tight + 1) rest).bind fun parsed =>
          parseRest fuel level (.unary token parsed.1) parsed.2
      | none => match token with
        | .opening bracket =>
          (parseEnclosed fuel bracket rest).bind fun parsed =>
            parseRest fuel level (enclose bracket parsed.1) parsed.2
        | _ => none
  | _, _, _ => none

def parseRest : Nat → Nat → Tree → List Token → Option (Tree × List Token)
  | fuel + 1, level, tree, tokens =>
    match operatorAt tokens with
    | none => some (tree, tokens)
    | some (operator, rest) =>
      if operator.level < level then some (tree, tokens)
      else match operator with
        | .binary operator =>
          (parseExpr fuel (operator.level + 1) rest).bind fun parsed =>
            parseRest fuel level (.binary operator tree parsed.1) parsed.2
        | .test negated value => parseRest fuel level (.test negated value tree) rest
        | .between negated =>
          (parseExpr fuel (betweenLevel + 1) rest).bind fun low =>
            match low.2 with
            | .and :: rest =>
              (parseExpr fuel (betweenLevel + 1) rest).bind fun high =>
                parseRest fuel level (.between negated tree low.1 high.1) high.2
            | _ => none
        | .apply kind =>
          (parseEnclosed fuel kind.bracket rest).bind fun parsed =>
            parseRest fuel level (.apply tree kind parsed.1) parsed.2
  | 0, _, _, _ => none

def parseEnclosed : Nat → Bracket → List Token → Option (Clause × List Token)
  | fuel + 1, bracket, tokens =>
    (parseClause fuel tokens).bind fun parsed =>
      match parsed.2 with
      | .closing closed :: rest => if closed = bracket then some (parsed.1, rest) else none
      | _ => none
  | 0, _, _ => none

def parseClause : Nat → List Token → Option (Clause × List Token)
  | _ + 1, .closing bracket :: rest => some (.nil, .closing bracket :: rest)
  | fuel + 1, token :: rest =>
    if isMark token then
      (parseClause fuel rest).map fun parsed => (.mark token parsed.1, parsed.2)
    else
      (parseExpr fuel 0 (token :: rest)).bind fun parsed =>
        (parseClause fuel parsed.2).map fun more => (.expr parsed.1 more.1, more.2)
  | _, _ => none

end

/-- The operator at the head of the tokens, if any, binds no tighter than this level. -/
def Stops (level : Nat) (tokens : List Token) : Prop :=
  ∀ operator rest, operatorAt tokens = some (operator, rest) → operator.level ≤ level

theorem Stops.mono {level level' : Nat} {tokens : List Token} (h : Stops level tokens)
    (hle : level ≤ level') : Stops level' tokens :=
  fun operator rest hat => (h operator rest hat).trans hle

theorem operatorAt_of_halts {tokens : List Token} (h : Halts tokens) :
    operatorAt tokens = none := by
  cases tokens with
  | nil => rfl
  | cons token rest =>
      have htoken := h token rfl
      unfold continues at htoken
      unfold operatorAt
      split at htoken <;> simp_all

theorem stops_of_halts {tokens : List Token} (h : Halts tokens) (level : Nat) :
    Stops level tokens := by
  intro operator rest hat
  rw [operatorAt_of_halts h] at hat
  cases hat

theorem stops_nil (level : Nat) : Stops level [] :=
  stops_of_halts (by simp [Halts]) level

@[simp]
theorem operatorAt_binary (operator : Infix) (rest : List Token) :
    operatorAt (operator.tokens ++ rest) = some (.binary operator, rest) := by
  cases operator with
  | like negated => cases negated <;> rfl
  | within negated => cases negated <;> rfl
  | _ => rfl

@[simp]
theorem operatorAt_test (negated : Bool) (value : Constant) (rest : List Token) :
    operatorAt (testTokens negated value ++ rest) = some (.test negated value, rest) := by
  cases negated <;> rfl

@[simp]
theorem operatorAt_between (negated : Bool) (rest : List Token) :
    operatorAt (betweenTokens negated ++ rest) = some (.between negated, rest) := by
  cases negated <;> rfl

@[simp]
theorem operatorAt_apply (kind : Applied) (rest : List Token) :
    operatorAt (.opening kind.bracket :: rest) = some (.apply kind, rest) := by
  cases kind <;> rfl

theorem stops_operator {level : Nat} {tokens rest : List Token} {operator : Operator}
    (hat : operatorAt tokens = some (operator, rest)) (hle : operator.level ≤ level) :
    Stops level tokens := by
  intro operator' rest' hat'
  rw [hat] at hat'
  cases hat'
  exact hle

/-- An expression ends in front of an operator that binds looser. -/
theorem parseRest_stop {level stop : Nat} {tokens : List Token} (h : Stops stop tokens)
    (hlt : stop < level) (fuel : Nat) (tree : Tree) :
    parseRest (fuel + 1) level tree tokens = some (tree, tokens) := by
  rw [parseRest]
  cases hat : operatorAt tokens with
  | none => rfl
  | some found =>
      obtain ⟨operator, rest⟩ := found
      have hle := h operator rest hat
      simp only
      rw [if_pos (by omega)]

theorem parseRest_halt {tokens : List Token} (h : Halts tokens) (fuel level : Nat) (tree : Tree) :
    parseRest (fuel + 1) level tree tokens = some (tree, tokens) := by
  rw [parseRest, operatorAt_of_halts h]

/-- With enough fuel the parser stands behind the expression, whatever follows it. -/
def Reaches (level : Nat) (tokens : List Token) (tree : Tree) (rest : List Token) : Prop :=
  ∃ used, ∀ᶠ fuel in atTop,
    parseExpr (fuel + used) level (tokens ++ rest) = parseRest fuel level tree rest

/-- With enough fuel the parser takes the tokens up to the bracket that closes them. -/
def Encloses (bracket : Bracket) (tokens : List Token) (clause : Clause) (rest : List Token) :
    Prop :=
  ∀ᶠ fuel in atTop,
    parseEnclosed fuel bracket (tokens ++ .closing bracket :: rest) = some (clause, rest)

theorem eventually_succ {p : Nat → Prop} (h : ∀ᶠ fuel in atTop, p (fuel + 1)) :
    ∀ᶠ fuel in atTop, p fuel := by
  rw [← map_add_atTop_eq_nat 1]
  exact h

theorem eventually_add {p : Nat → Prop} (h : ∀ᶠ fuel in atTop, p fuel) (used : Nat) :
    ∀ᶠ fuel in atTop, p (fuel + used) :=
  (tendsto_add_atTop_nat used).eventually h

/-- An operand is parsed whole when what follows it binds looser. -/
theorem Reaches.delivered {level stop : Nat} {tokens rest : List Token} {tree : Tree}
    (h : Reaches level tokens tree rest) (hstop : Stops stop rest) (hlt : stop < level) :
    ∀ᶠ fuel in atTop, parseExpr fuel level (tokens ++ rest) = some (tree, rest) := by
  obtain ⟨used, h⟩ := h
  rw [← map_add_atTop_eq_nat used, eventually_map]
  filter_upwards [h, eventually_ge_atTop 1] with fuel hfuel hpos
  obtain ⟨fuel, rfl⟩ := Nat.exists_eq_add_of_le' hpos
  rw [hfuel, parseRest_stop hstop hlt]

theorem Reaches.halted {level : Nat} {tokens rest : List Token} {tree : Tree}
    (h : Reaches level tokens tree rest) (hhalts : Halts rest) :
    ∀ᶠ fuel in atTop, parseExpr fuel level (tokens ++ rest) = some (tree, rest) := by
  obtain ⟨used, h⟩ := h
  rw [← map_add_atTop_eq_nat used, eventually_map]
  filter_upwards [h, eventually_ge_atTop 1] with fuel hfuel hpos
  obtain ⟨fuel, rfl⟩ := Nat.exists_eq_add_of_le' hpos
  rw [hfuel, parseRest_halt hhalts]

/-- A reading goes on with the operator behind it when the parser takes that operator's step. -/
theorem Reaches.step {level : Nat} {tokens suffix rest : List Token} {tree tree' : Tree}
    (h : Reaches level tokens tree (suffix ++ rest))
    (hstep : ∀ᶠ fuel in atTop,
      parseRest (fuel + 1) level tree (suffix ++ rest) = parseRest fuel level tree' rest) :
    Reaches level (tokens ++ suffix) tree' rest := by
  obtain ⟨used, h⟩ := h
  refine ⟨used + 1, ?_⟩
  filter_upwards [eventually_add h 1, hstep] with fuel hfuel hstep
  rw [List.append_assoc, Nat.add_comm used 1, ← Nat.add_assoc, hfuel, hstep]

theorem encloses_of_clause {bracket : Bracket} {tokens rest : List Token} {clause : Clause}
    (h : ∀ᶠ fuel in atTop, parseClause fuel (tokens ++ .closing bracket :: rest) =
      some (clause, .closing bracket :: rest)) : Encloses bracket tokens clause rest := by
  apply eventually_succ
  filter_upwards [h] with fuel hfuel
  simp [parseEnclosed, hfuel]

theorem reaches_atom {token : Token} (h : isAtom token = true) (level : Nat) (rest : List Token) :
    Reaches level [token] (.atom token) rest := by
  refine ⟨1, Eventually.of_forall fun fuel => ?_⟩
  simp [parseExpr, h]

theorem reaches_unary {token : Token} {tight level : Nat} {tokens rest : List Token}
    {operand : Tree} (htoken : unaryLevel token = some tight)
    (h : ∀ᶠ fuel in atTop, parseExpr fuel (tight + 1) (tokens ++ rest) = some (operand, rest)) :
    Reaches level (token :: tokens) (.unary token operand) rest := by
  refine ⟨1, ?_⟩
  have hatom : isAtom token = false := by
    unfold unaryLevel at htoken
    split at htoken <;> first | rfl | cases htoken
  filter_upwards [h] with fuel hfuel
  simp [parseExpr, hatom, htoken, hfuel]

theorem reaches_enclosed {bracket : Bracket} {level : Nat} {tokens rest : List Token}
    {clause : Clause} (h : Encloses bracket tokens clause rest) :
    Reaches level (.opening bracket :: (tokens ++ [.closing bracket])) (enclose bracket clause)
      rest := by
  refine ⟨1, ?_⟩
  filter_upwards [h] with fuel hfuel
  rw [List.cons_append, List.append_assoc, List.singleton_append, parseExpr]
  simp [isAtom, unaryLevel, hfuel]

theorem enclose_of_ne {bracket : Bracket} {clause : Clause}
    (h : ∀ tree, bracket = .round → clause ≠ .expr tree .nil) :
    enclose bracket clause = .enclosed bracket clause := by
  unfold enclose
  split
  · exact absurd rfl (h _ rfl)
  · rfl

theorem halts_append_closing {tokens : List Token} (h : Halts tokens) (bracket : Bracket)
    (rest : List Token) : Halts (tokens ++ .closing bracket :: rest) := by
  cases tokens with
  | nil => simp [Halts, continues]
  | cons token tokens => simpa [Halts] using h

theorem parseClause_expr {token : Token} {rest more : List Token} {tree : Tree} {clause : Clause}
    {fuel : Nat} (hmark : isMark token = false) (hclosing : ∀ bracket, token ≠ .closing bracket)
    {left : List Token}
    (hexpr : parseExpr fuel 0 (token :: rest) = some (tree, more))
    (hmore : parseClause fuel more = some (clause, left)) :
    parseClause (fuel + 1) (token :: rest) = some (.expr tree clause, left) := by
  rw [parseClause.eq_2 _ _ _ fun bracket h => hclosing bracket h, hmark]
  simp [hexpr, hmore]

mutual

/-- The parser follows every reading. -/
theorem reaches_of_reads {left right : Nat} {tokens : List Token} {tree : Tree}
    (h : Reads left right tokens tree) {level : Nat} (hlevel : level ≤ left)
    {rest : List Token} (hstop : Stops right rest) : Reaches level tokens tree rest :=
  match h with
  | .atom htoken => reaches_atom htoken level rest
  | .unary htoken hoperand hlt => by
      refine reaches_unary htoken ?_
      have hinner := reaches_of_reads hoperand (Nat.succ_le_of_lt hlt)
        (hstop.mono (Nat.min_le_right _ _))
      exact hinner.delivered (hstop.mono (Nat.min_le_left _ _)) (Nat.lt_succ_self _)
  | @Reads.binary operator _ _ _ _ _ after _ _ hfirst hsecond hfollows hlt => by
      have hleft : ¬ (Operator.binary operator).level < level :=
        Nat.not_lt.mpr (hlevel.trans (Nat.min_le_left _ _))
      refine Reaches.step (reaches_of_reads hfirst (hlevel.trans (Nat.min_le_right _ _)) ?_) ?_
      · rw [List.append_assoc]
        exact stops_operator (operatorAt_binary operator _) hfollows.le
      have hinner := reaches_of_reads hsecond (Nat.succ_le_of_lt hlt)
        (hstop.mono (Nat.min_le_right _ _))
      filter_upwards [hinner.delivered (hstop.mono (Nat.min_le_left _ _)) (Nat.lt_succ_self _)]
        with fuel hfuel
      rw [parseRest, List.append_assoc, operatorAt_binary]
      simp only [hleft, ↓reduceIte, hfuel, Option.bind_some]
  | @Reads.test negated value _ _ _ _ hoperand hle => by
      have hleft : ¬ (Operator.test negated value).level < level :=
        Nat.not_lt.mpr (hlevel.trans (Nat.min_le_left _ _))
      refine Reaches.step (reaches_of_reads hoperand (hlevel.trans (Nat.min_le_right _ _)) ?_) ?_
      · exact stops_operator (operatorAt_test negated value rest) hle
      refine Eventually.of_forall fun fuel => ?_
      rw [parseRest, operatorAt_test]
      simp only [hleft, ↓reduceIte]
  | @Reads.between negated _ _ _ _ _ _ _ _ highs _ _ _ hoperand hlow hhigh hle hlow' hand
      hhigh' => by
      have hleft : ¬ (Operator.between negated).level < level :=
        Nat.not_lt.mpr (hlevel.trans (Nat.min_le_left _ _))
      refine Reaches.step (reaches_of_reads hoperand (hlevel.trans (Nat.min_le_right _ _)) ?_) ?_
      · rw [List.append_assoc]
        exact stops_operator (operatorAt_between negated _) (Nat.le_of_lt hle)
      have handStop : Stops Infix.and.level (.and :: (highs ++ rest)) :=
        stops_operator rfl (Nat.le_refl _)
      have hlower := reaches_of_reads hlow (Nat.succ_le_of_lt hlow') (handStop.mono hand)
      have hupper := reaches_of_reads hhigh (Nat.succ_le_of_lt hhigh')
        (hstop.mono (Nat.min_le_right _ _))
      filter_upwards [hlower.delivered handStop (by decide),
        hupper.delivered (hstop.mono (Nat.min_le_left _ _)) (Nat.lt_succ_self _)]
        with fuel hfuel hfuel'
      rw [parseRest, List.append_assoc, operatorAt_between, List.append_assoc, List.cons_append]
      simp only [hleft, ↓reduceIte, hfuel, hfuel', Option.bind_some]
  | .grouped hinner => by
      have hhalts : Halts (Token.closing .round :: rest) := by simp [Halts, continues]
      have hexpr := (reaches_of_reads hinner (Nat.zero_le _)
        (stops_of_halts hhalts _)).halted hhalts
      obtain ⟨token, more, rfl, hmark, hclosing⟩ := head_of_reads hinner
      show Reaches level _ (enclose .round (.expr tree .nil)) rest
      refine reaches_enclosed (encloses_of_clause (eventually_succ ?_))
      filter_upwards [hexpr, eventually_ge_atTop 1] with fuel hfuel hpos
      refine parseClause_expr hmark hclosing hfuel ?_
      obtain ⟨fuel, rfl⟩ := Nat.exists_eq_add_of_le' hpos
      rw [parseClause]
  | .enclosed hclause hgrouped => by
      rw [← enclose_of_ne hgrouped]
      exact reaches_enclosed (encloses_of_clause (parsed_of_readsClause hclause _ rest))
  | @Reads.apply kind _ _ _ _ _ _ hhead hclause hle => by
      have hleft : ¬ (Operator.apply kind).level < level :=
        Nat.not_lt.mpr (hlevel.trans (Nat.min_le_left _ _))
      refine Reaches.step (reaches_of_reads hhead (hlevel.trans (Nat.min_le_right _ _)) ?_) ?_
      · exact stops_operator (operatorAt_apply kind _) hle
      have hinner : Encloses kind.bracket _ _ rest :=
        encloses_of_clause (parsed_of_readsClause hclause kind.bracket rest)
      filter_upwards [hinner] with fuel hfuel
      rw [parseRest, List.cons_append, operatorAt_apply, List.append_assoc, List.singleton_append]
      simp only [hleft, ↓reduceIte, hfuel, Option.bind_some]

theorem parsed_of_readsClause {tokens : List Token} {clause : Clause}
    (h : ReadsClause tokens clause) (bracket : Bracket) (rest : List Token) :
    ∀ᶠ fuel in atTop, parseClause fuel (tokens ++ .closing bracket :: rest) =
      some (clause, .closing bracket :: rest) :=
  match h with
  | .nil => by
      refine eventually_succ (Eventually.of_forall fun fuel => ?_)
      rw [List.nil_append, parseClause]
  | @ReadsClause.mark token _ _ htoken hrest => by
      apply eventually_succ
      filter_upwards [parsed_of_readsClause hrest bracket rest] with fuel hfuel
      have hclosing : ∀ bracket, token ≠ .closing bracket := by
        rintro bracket rfl
        cases htoken
      rw [List.cons_append, parseClause.eq_2 _ _ _ fun bracket h => hclosing bracket h, htoken]
      simp [hfuel]
  | .expr htree hhalts hrest => by
      have hhalts' := halts_append_closing hhalts bracket rest
      have hexpr := (reaches_of_reads htree (Nat.zero_le _)
        (stops_of_halts hhalts' _)).halted hhalts'
      obtain ⟨token, tokens, rfl, hmark, hclosing⟩ := head_of_reads htree
      apply eventually_succ
      filter_upwards [hexpr, parsed_of_readsClause hrest bracket rest] with fuel hfuel hmore
      rw [List.append_assoc]
      exact parseClause_expr hmark hclosing hfuel hmore

end

/-- Tokens have one reading at most. -/
theorem readsAs_unique {tokens : List Token} {tree tree' : Tree} (h : ReadsAs tokens tree)
    (h' : ReadsAs tokens tree') : tree = tree' := by
  obtain ⟨left, right, h⟩ := h
  obtain ⟨left', right', h'⟩ := h'
  have hnil : Halts [] := by simp [Halts]
  have hparse := (reaches_of_reads h (Nat.zero_le _) (stops_nil _)).halted hnil
  have hparse' := (reaches_of_reads h' (Nat.zero_le _) (stops_nil _)).halted hnil
  obtain ⟨fuel, hfuel, hfuel'⟩ := (hparse.and hparse').exists
  rw [hfuel, Option.some.injEq, Prod.mk.injEq] at hfuel'
  exact hfuel'.1

end EqGen.Lib.SqlParser
