import EqGen.Lib.SqlGrammar
import Mathlib.Tactic.Common

/-!
The shape of tokens that read as an expression: brackets close in order, and the tokens apart from
round brackets are those of the tree. From it, how a reading of a tree falls into readings of its
parts.
-/

namespace EqGen.Lib.SqlShape

open EqGen.Lib.SqlTokens
open EqGen.Lib.SqlGrammar

/-- The number of open brackets behind the tokens, none if one closes that was not open. -/
def run : Nat → List Token → Option Nat
  | depth, [] => some depth
  | depth, .opening _ :: tokens => run (depth + 1) tokens
  | 0, .closing _ :: _ => none
  | depth + 1, .closing _ :: tokens => run depth tokens
  | depth, _ :: tokens => run depth tokens

def Balanced (tokens : List Token) : Prop :=
  ∀ depth, run depth tokens = some depth

def isBracket : Token → Bool
  | .opening _ | .closing _ => true
  | _ => false

theorem run_append (depth : Nat) (tokens rest : List Token) :
    run depth (tokens ++ rest) = (run depth tokens).bind fun depth => run depth rest := by
  fun_induction run depth tokens with
  | case1 depth => rfl
  | case2 depth bracket tokens ih => rw [List.cons_append, run, ih]
  | case3 bracket tokens => rfl
  | case4 depth bracket tokens ih => rw [List.cons_append, run, ih]
  | case5 depth token tokens hopening hzero hclosing ih =>
      rw [List.cons_append, run.eq_5 _ _ _ hopening hzero hclosing, ih]

theorem run_flat {token : Token} (h : isBracket token = false) (depth : Nat) (rest : List Token) :
    run depth (token :: rest) = run depth rest := by
  cases token <;> simp_all [isBracket, run]

theorem run_succ {depth depth' : Nat} {tokens : List Token} (h : run depth tokens = some depth') :
    run (depth + 1) tokens = some (depth' + 1) := by
  fun_induction run depth tokens with
  | case1 depth => cases h; rfl
  | case2 depth bracket tokens ih => exact ih h
  | case3 bracket tokens => cases h
  | case4 depth bracket tokens ih => exact ih h
  | case5 depth token tokens hopening hzero hclosing ih =>
      rw [run_flat]
      · exact ih h
      · cases token <;> simp_all [isBracket]
        cases depth <;> simp_all

theorem balanced_nil : Balanced [] :=
  fun _ => rfl

theorem Balanced.append {tokens rest : List Token} (h : Balanced tokens) (h' : Balanced rest) :
    Balanced (tokens ++ rest) := by
  intro depth
  rw [run_append, h, Option.bind_some, h']

theorem Balanced.cons {token : Token} (h : isBracket token = false) {tokens : List Token}
    (h' : Balanced tokens) : Balanced (token :: tokens) := by
  intro depth
  rw [run_flat h, h']

theorem balanced_flat {tokens : List Token} (h : ∀ token ∈ tokens, isBracket token = false) :
    Balanced tokens := by
  induction tokens with
  | nil => exact balanced_nil
  | cons token tokens ih =>
      exact .cons (h token (by simp)) (ih fun token' hmem => h token' (by simp [hmem]))

theorem Balanced.enclosed {tokens : List Token} (h : Balanced tokens) (bracket : Bracket) :
    Balanced (.opening bracket :: (tokens ++ [.closing bracket])) := by
  intro depth
  rw [run, run_append, h, Option.bind_some]
  rfl

/-- Balanced tokens do not open a bracket that something behind them closes. -/
theorem not_enclosed {tokens suffix inner : List Token} {bracket bracket' : Bracket}
    (h : Balanced tokens) (hne : tokens ≠ []) (hsuffix : suffix ≠ []) (hinner : Balanced inner) :
    tokens ++ suffix ≠ .opening bracket :: (inner ++ [.closing bracket']) := by
  intro heq
  obtain ⟨token, tokens, rfl⟩ := List.exists_cons_of_ne_nil hne
  rw [List.cons_append, List.cons.injEq] at heq
  obtain ⟨rfl, heq⟩ := heq
  rw [← List.dropLast_append_getLast hsuffix, ← List.append_assoc] at heq
  have hprefix := List.append_inj_left' heq rfl
  have hrun := hinner 0
  rw [← hprefix, run_append] at hrun
  obtain ⟨depth, hdepth, -⟩ := Option.bind_eq_some_iff.mp hrun
  have habove := run_succ hdepth
  have hopen := h 0
  rw [run, habove] at hopen
  cases hopen

def isRound : Token → Bool
  | .opening .round | .closing .round => true
  | _ => false

/-- The tokens that are no round brackets. -/
def size (tokens : List Token) : Nat :=
  tokens.countP fun token => !isRound token

@[simp]
theorem size_nil : size [] = 0 := rfl

@[simp]
theorem size_append (tokens rest : List Token) : size (tokens ++ rest) = size tokens + size rest :=
  List.countP_append

@[simp]
theorem size_cons (token : Token) (tokens : List Token) :
    size (token :: tokens) = (if isRound token then 0 else 1) + size tokens := by
  rw [size, List.countP_cons]
  cases isRound token <;> simp [size, Nat.add_comm]

/-- Tokens of one size in front of tokens that are no round brackets end at the same place. -/
theorem aligned {before after before' after' : List Token} {token token' : Token}
    (h : before ++ token :: after = before' ++ token' :: after')
    (hsize : size before = size before') (htoken : isRound token = false)
    (htoken' : isRound token' = false) :
    before = before' ∧ token :: after = token' :: after' := by
  rcases List.append_eq_append_iff.mp h with ⟨middle, rfl, hmiddle⟩ | ⟨middle, rfl, hmiddle⟩
  · cases middle with
    | nil => exact ⟨(List.append_nil before).symm, hmiddle⟩
    | cons head middle =>
        rw [List.cons_append, List.cons.injEq] at hmiddle
        obtain ⟨rfl, -⟩ := hmiddle
        simp [htoken] at hsize
  · cases middle with
    | nil => exact ⟨List.append_nil before', hmiddle.symm⟩
    | cons head middle =>
        rw [List.cons_append, List.cons.injEq] at hmiddle
        obtain ⟨rfl, -⟩ := hmiddle
        simp [htoken'] at hsize

def bracketWeight : Bracket → Nat
  | .round => 0
  | _ => 2

mutual

/-- The tokens of the tree that are no round brackets. -/
def weight : Tree → Nat
  | .atom token => size [token]
  | .unary token operand => size [token] + weight operand
  | .binary operator left right => weight left + (size operator.tokens + weight right)
  | .test negated value operand => weight operand + size (testTokens negated value)
  | .between negated operand low high =>
    weight operand + (size (betweenTokens negated) + (weight low + (1 + weight high)))
  | .enclosed bracket clause => bracketWeight bracket + weightClause clause
  | .apply head kind clause => weight head + (bracketWeight kind.bracket + weightClause clause)

def weightClause : Clause → Nat
  | .nil => 0
  | .mark token rest => size [token] + weightClause rest
  | .expr tree rest => weight tree + weightClause rest

end

theorem size_enclosed (bracket : Bracket) (tokens : List Token) :
    size (.opening bracket :: (tokens ++ [.closing bracket])) =
      bracketWeight bracket + size tokens := by
  cases bracket <;> simp [isRound, bracketWeight] <;> omega

theorem isBracket_of_isAtom {token : Token} (h : isAtom token = true) : isBracket token = false := by
  cases token <;> simp_all [isAtom, isBracket]

theorem isBracket_of_unaryLevel {token : Token} {level : Nat} (h : unaryLevel token = some level) :
    isBracket token = false := by
  cases token <;> simp_all [unaryLevel, isBracket]

theorem isBracket_of_isMark {token : Token} (h : isMark token = true) : isBracket token = false := by
  cases token <;> simp_all [isMark, isBracket]

theorem isRound_of_flat {token : Token} (h : isBracket token = false) : isRound token = false := by
  cases token <;> simp_all [isRound, isBracket]

theorem balanced_operator (operator : Infix) : Balanced operator.tokens := by
  refine balanced_flat fun token hmem => ?_
  rcases operator with _ | _ | _ | _ | ⟨_ | _⟩ | ⟨_ | _⟩ <;>
    simp only [Infix.tokens, List.mem_cons, List.not_mem_nil, or_false] at hmem
  all_goals first | (subst hmem; rfl) | (rcases hmem with rfl | rfl <;> rfl)

theorem balanced_test (negated : Bool) (value : Constant) :
    Balanced (testTokens negated value) := by
  cases negated <;> exact balanced_flat (by simp [testTokens, isBracket])

theorem balanced_between (negated : Bool) : Balanced (betweenTokens negated) := by
  cases negated <;> exact balanced_flat (by simp [betweenTokens, isBracket])

mutual

theorem balanced_of_reads {left right : Nat} {tokens : List Token} {tree : Tree}
    (h : Reads left right tokens tree) : Balanced tokens :=
  match h with
  | .atom htoken => .cons (isBracket_of_isAtom htoken) balanced_nil
  | .unary htoken hoperand _ =>
      .cons (isBracket_of_unaryLevel htoken) (balanced_of_reads hoperand)
  | .binary hfirst hsecond _ _ =>
      (balanced_of_reads hfirst).append ((balanced_operator _).append (balanced_of_reads hsecond))
  | .test hoperand _ => (balanced_of_reads hoperand).append (balanced_test _ _)
  | .between hoperand hlow hhigh _ _ _ _ =>
      (balanced_of_reads hoperand).append ((balanced_between _).append
        ((balanced_of_reads hlow).append (.cons rfl (balanced_of_reads hhigh))))
  | .grouped hinner => (balanced_of_reads hinner).enclosed _
  | .enclosed hclause _ => (balanced_of_readsClause hclause).enclosed _
  | .apply hhead hclause _ =>
      (balanced_of_reads hhead).append ((balanced_of_readsClause hclause).enclosed _)

theorem balanced_of_readsClause {tokens : List Token} {clause : Clause}
    (h : ReadsClause tokens clause) : Balanced tokens :=
  match h with
  | .nil => balanced_nil
  | .mark htoken hrest => .cons (isBracket_of_isMark htoken) (balanced_of_readsClause hrest)
  | .expr htree _ hrest => (balanced_of_reads htree).append (balanced_of_readsClause hrest)

end

mutual

theorem size_of_reads {left right : Nat} {tokens : List Token} {tree : Tree}
    (h : Reads left right tokens tree) : size tokens = weight tree :=
  match h with
  | .atom _ => by rw [weight]
  | .unary _ hoperand _ => by
      rw [weight, ← size_of_reads hoperand]
      simp
  | .binary hfirst hsecond _ _ => by
      rw [weight, ← size_of_reads hfirst, ← size_of_reads hsecond, size_append, size_append]
  | .test hoperand _ => by rw [weight, ← size_of_reads hoperand, size_append]
  | .between hoperand hlow hhigh _ _ _ _ => by
      rw [weight, ← size_of_reads hoperand, ← size_of_reads hlow, ← size_of_reads hhigh,
        size_append, size_append, size_append, size_cons]
      rfl
  | .grouped hinner => by
      rw [← size_of_reads hinner, size_enclosed, bracketWeight, Nat.zero_add]
  | .enclosed hclause _ => by rw [weight, ← size_of_readsClause hclause, size_enclosed]
  | .apply hhead hclause _ => by
      rw [weight, ← size_of_reads hhead, ← size_of_readsClause hclause, size_append,
        size_enclosed]

theorem size_of_readsClause {tokens : List Token} {clause : Clause}
    (h : ReadsClause tokens clause) : size tokens = weightClause clause :=
  match h with
  | .nil => by rw [weightClause, size_nil]
  | .mark _ hrest => by
      rw [weightClause, ← size_of_readsClause hrest]
      simp
  | .expr htree _ hrest => by
      rw [weightClause, ← size_of_reads htree, ← size_of_readsClause hrest, size_append]

end

/-- A reading begins with an operand, a unary operator or a bracket. -/
theorem head_of_reads {left right : Nat} {tokens : List Token} {tree : Tree}
    (h : Reads left right tokens tree) :
    ∃ token rest, tokens = token :: rest ∧ isMark token = false ∧
      ∀ bracket, token ≠ .closing bracket :=
  match h with
  | @Reads.atom token htoken => by
      refine ⟨token, [], rfl, ?_⟩
      cases token <;> simp_all [isAtom, isMark]
  | @Reads.unary token _ _ _ tokens _ htoken _ _ => by
      refine ⟨token, tokens, rfl, ?_⟩
      cases token <;> simp_all [unaryLevel, isMark]
  | .binary hfirst _ _ _ => by
      obtain ⟨token, rest, rfl, htoken⟩ := head_of_reads hfirst
      exact ⟨token, _, rfl, htoken⟩
  | .test hoperand _ => by
      obtain ⟨token, rest, rfl, htoken⟩ := head_of_reads hoperand
      exact ⟨token, _, rfl, htoken⟩
  | .between hoperand _ _ _ _ _ _ => by
      obtain ⟨token, rest, rfl, htoken⟩ := head_of_reads hoperand
      exact ⟨token, _, rfl, htoken⟩
  | .grouped _ => ⟨_, _, rfl, rfl, by simp⟩
  | .enclosed _ _ => ⟨_, _, rfl, rfl, by simp⟩
  | .apply hhead _ _ => by
      obtain ⟨token, rest, rfl, htoken⟩ := head_of_reads hhead
      exact ⟨token, _, rfl, htoken⟩

theorem ne_nil_of_reads {left right : Nat} {tokens : List Token} {tree : Tree}
    (h : Reads left right tokens tree) : tokens ≠ [] := by
  obtain ⟨token, rest, rfl, -⟩ := head_of_reads h
  exact List.cons_ne_nil _ _

/-- The tokens of an operand: balanced, and those of the tree. -/
structure Shaped (tokens : List Token) (tree : Tree) : Prop where
  balanced : Balanced tokens
  ne_nil : tokens ≠ []
  size_eq : size tokens = weight tree

theorem shaped_of_reads {left right : Nat} {tokens : List Token} {tree : Tree}
    (h : Reads left right tokens tree) : Shaped tokens tree :=
  ⟨balanced_of_reads h, ne_nil_of_reads h, size_of_reads h⟩

theorem exists_infix_cons (operator : Infix) :
    ∃ token rest, operator.tokens = token :: rest ∧ isRound token = false := by
  rcases operator with _ | _ | _ | _ | ⟨_ | _⟩ | ⟨_ | _⟩ <;> exact ⟨_, _, rfl, rfl⟩

/-- A reading of a binary tree falls apart at the operator. -/
theorem binary_inv {operator : Infix} {left right : Nat} {before after : List Token}
    {first second : Tree}
    (h : Reads left right (before ++ (operator.tokens ++ after)) (.binary operator first second))
    (hbefore : Shaped before first) :
    (∃ left right, Reads left right before first ∧ operator.Follows right) ∧
      ∃ left right, Reads left right after second ∧ operator.level < left := by
  obtain ⟨token, rest, htokens, hround⟩ := exists_infix_cons operator
  generalize hall : before ++ (operator.tokens ++ after) = tokens at h
  cases h with
  | binary hfirst hsecond hfollows hlevel =>
      rw [htokens, List.cons_append, List.cons_append] at hall
      have hsize := hbefore.size_eq.trans (size_of_reads hfirst).symm
      obtain ⟨rfl, hrest⟩ := aligned hall hsize hround hround
      rw [List.cons.injEq] at hrest
      have hafter := List.append_cancel_left hrest.2
      exact ⟨⟨_, _, hfirst, hfollows⟩, _, _, hafter ▸ hsecond, hlevel⟩
  | grouped hinner =>
      have hsuffix : operator.tokens ++ after ≠ [] := by simp [htokens]
      exact absurd hall
        (not_enclosed hbefore.balanced hbefore.ne_nil hsuffix (balanced_of_reads hinner))

theorem unary_inv {token : Token} {level left right : Nat} {tokens : List Token} {operand : Tree}
    (htoken : unaryLevel token = some level)
    (h : Reads left right (token :: tokens) (.unary token operand)) :
    ∃ left right, Reads left right tokens operand ∧ level < left := by
  generalize hall : token :: tokens = all at h
  cases h with
  | unary htoken' hoperand hlevel =>
      rw [List.cons.injEq] at hall
      rw [htoken, Option.some.injEq] at htoken'
      exact ⟨_, _, hall.2 ▸ hoperand, htoken' ▸ hlevel⟩
  | grouped hinner =>
      rw [List.cons.injEq] at hall
      rw [hall.1] at htoken
      cases htoken

theorem test_inv {negated : Bool} {value : Constant} {left right : Nat} {tokens : List Token}
    {operand : Tree}
    (h : Reads left right (tokens ++ testTokens negated value) (.test negated value operand)) :
    ∃ left right, Reads left right tokens operand ∧ testLevel ≤ right := by
  generalize hall : tokens ++ testTokens negated value = all at h
  cases h with
  | test hoperand hlevel =>
      have htokens := List.append_cancel_right hall
      exact ⟨_, _, htokens ▸ hoperand, hlevel⟩
  | grouped hinner =>
      have hlast := congrArg List.getLast? hall
      rw [← List.cons_append, List.getLast?_concat] at hlast
      cases negated <;> simp [testTokens] at hlast

/-- Round brackets around tokens that read as a tree of operators only group. -/
theorem grouped_inv {left right : Nat} {tokens : List Token} {tree : Tree}
    (h : Reads left right (.opening .round :: (tokens ++ [.closing .round])) tree)
    (hbalanced : Balanced tokens) (htree : ∀ clause, tree ≠ .enclosed .round clause) :
    ReadsAs tokens tree := by
  generalize hall : .opening .round :: (tokens ++ [.closing .round]) = all at h
  cases h with
  | atom htoken => simp at hall
  | unary htoken =>
      rw [List.cons.injEq] at hall
      rw [← hall.1] at htoken
      cases htoken
  | @binary operator _ _ _ _ before after _ _ hfirst hsecond =>
      obtain ⟨token, rest, htokens, -⟩ := exists_infix_cons operator
      exact absurd hall.symm
        (not_enclosed (balanced_of_reads hfirst) (ne_nil_of_reads hfirst) (by simp [htokens])
          hbalanced)
  | @test negated value _ _ _ _ hoperand =>
      have hsuffix : testTokens negated value ≠ [] := by cases negated <;> simp [testTokens]
      exact absurd hall.symm
        (not_enclosed (balanced_of_reads hoperand) (ne_nil_of_reads hoperand) hsuffix hbalanced)
  | between hoperand hlow hhigh =>
      exact absurd hall.symm
        (not_enclosed (balanced_of_reads hoperand) (ne_nil_of_reads hoperand) (by simp) hbalanced)
  | grouped hinner =>
      rw [List.cons.injEq] at hall
      exact ⟨_, _, List.append_inj_left' hall.2 rfl ▸ hinner⟩
  | enclosed hclause =>
      rw [List.cons.injEq, Token.opening.injEq] at hall
      obtain ⟨rfl, -⟩ := hall
      exact absurd rfl (htree _)
  | apply hhead hclause =>
      exact absurd hall.symm
        (not_enclosed (balanced_of_reads hhead) (ne_nil_of_reads hhead) (by simp) hbalanced)

theorem call_inv {name : Token} {left right : Nat} {tokens : List Token} {clause : Clause}
    (hname : isAtom name = true)
    (h : Reads left right (name :: .opening .round :: (tokens ++ [.closing .round]))
      (.apply (.atom name) .call clause)) : ReadsClause tokens clause := by
  generalize hall : name :: .opening .round :: (tokens ++ [.closing .round]) = all at h
  cases h with
  | apply hhead hclause =>
      cases hhead with
      | atom =>
          rw [List.singleton_append, List.cons.injEq] at hall
          have hinner := (List.cons.injEq _ _ _ _).mp hall.2
          exact List.append_inj_left' hinner.2 rfl ▸ hclause
      | grouped =>
          rw [List.cons_append, List.cons.injEq] at hall
          rw [hall.1] at hname
          cases hname
  | grouped hinner =>
      rw [List.cons.injEq] at hall
      rw [hall.1] at hname
      cases hname

theorem enclosed_inv {bracket : Bracket} {left right : Nat} {tokens : List Token} {clause : Clause}
    (h : Reads left right (.opening bracket :: (tokens ++ [.closing bracket]))
      (.enclosed bracket clause))
    (hhead : ∀ token ∈ tokens.head?, isMark token = true) : ReadsClause tokens clause := by
  generalize hall : .opening bracket :: (tokens ++ [.closing bracket]) = all at h
  cases h with
  | enclosed hclause =>
      rw [List.cons.injEq] at hall
      exact List.append_inj_left' hall.2 rfl ▸ hclause
  | grouped hinner =>
      rw [List.cons.injEq, Token.opening.injEq] at hall
      obtain ⟨rfl, hall⟩ := hall
      have htokens := List.append_inj_left' hall rfl
      obtain ⟨token, rest, hrest, hmark, -⟩ := head_of_reads hinner
      have := hhead token (by rw [htokens, hrest]; rfl)
      rw [hmark] at this
      cases this

/-- A piece of what stands in brackets: a separating keyword, or tokens that are to read as a
tree. -/
inductive Part where
  | mark (token : Token)
  | expr (tokens : List Token) (tree : Tree)

def partTokens : List Part → List Token
  | [] => []
  | .mark token :: parts => token :: partTokens parts
  | .expr tokens _ :: parts => tokens ++ partTokens parts

def partClause : List Part → Clause
  | [] => .nil
  | .mark token :: parts => .mark token (partClause parts)
  | .expr _ tree :: parts => .expr tree (partClause parts)

/-- Behind each expression stands a keyword that separates, or nothing. -/
def Spaced : List Part → Prop
  | [] => True
  | .mark token :: parts => isMark token = true ∧ Spaced parts
  | .expr tokens tree :: parts =>
    Shaped tokens tree ∧ Spaced parts ∧
      (parts = [] ∨ ∃ token rest, parts = .mark token :: rest ∧ continues token = false)

theorem partTokens_append (parts rest : List Part) :
    partTokens (parts ++ rest) = partTokens parts ++ partTokens rest := by
  induction parts with
  | nil => rfl
  | cons part parts ih => cases part <;> simp [partTokens, ih]

theorem balanced_parts {parts : List Part} (h : Spaced parts) : Balanced (partTokens parts) := by
  induction parts with
  | nil => exact balanced_nil
  | cons part parts ih =>
      cases part with
      | mark token => exact .cons (isBracket_of_isMark h.1) (ih h.2)
      | expr tokens tree => exact h.1.balanced.append (ih h.2.1)

theorem size_parts {parts : List Part} (h : Spaced parts) :
    size (partTokens parts) = weightClause (partClause parts) := by
  induction parts with
  | nil => rfl
  | cons part parts ih =>
      cases part with
      | mark token => simp [partTokens, partClause, weightClause, ih h.2]
      | expr tokens tree => simp [partTokens, partClause, weightClause, h.1.size_eq, ih h.2.1]

theorem mark_inv {token : Token} {tokens : List Token} {rest : Clause}
    (h : ReadsClause (token :: tokens) (.mark token rest)) : ReadsClause tokens rest := by
  generalize hall : token :: tokens = all at h
  cases h with
  | mark _ hrest =>
      rw [List.cons.injEq] at hall
      exact hall.2 ▸ hrest

/-- What stands in brackets reads as the pieces if and only if each piece reads. -/
theorem readsClause_iff {parts : List Part} (h : Spaced parts) :
    ReadsClause (partTokens parts) (partClause parts) ↔
      ∀ tokens tree, .expr tokens tree ∈ parts → ReadsAs tokens tree := by
  induction parts with
  | nil => exact ⟨fun _ _ _ hmem => absurd hmem List.not_mem_nil, fun _ => .nil⟩
  | cons part parts ih =>
      cases part with
      | mark token =>
          simp only [List.mem_cons, reduceCtorEq, false_or]
          rw [← ih h.2]
          constructor
          · intro hclause
            rw [partTokens, partClause] at hclause
            exact mark_inv hclause
          · intro hrest
            exact .mark h.1 hrest
      | expr tokens tree =>
          obtain ⟨hshaped, hspaced, hnext⟩ := h
          simp only [List.mem_cons, Part.expr.injEq]
          constructor
          · intro hclause
            generalize hall : partTokens (.expr tokens tree :: parts) = all at hclause
            rw [partTokens] at hall
            cases hclause with
            | @expr _ _ before more _ _ htree _ hrest =>
                have hparts : tokens = before ∧ partTokens parts = more := by
                  rcases hnext with rfl | ⟨token, rest, rfl, htoken⟩
                  · cases hrest
                    simpa [partTokens] using hall
                  · have hmark := isRound_of_flat (isBracket_of_isMark hspaced.1)
                    cases hrest
                    have hsize := hshaped.size_eq.trans (size_of_reads htree).symm
                    exact aligned hall hsize hmark hmark
                obtain ⟨rfl, rfl⟩ := hparts
                rintro tokens' tree' (⟨rfl, rfl⟩ | hmem)
                · exact ⟨_, _, htree⟩
                · exact (ih hspaced).mp hrest tokens' tree' hmem
          · intro hreads
            obtain ⟨left, right, htree⟩ := hreads tokens tree (.inl ⟨rfl, rfl⟩)
            refine .expr htree ?_ ((ih hspaced).mpr fun tokens' tree' hmem =>
              hreads tokens' tree' (.inr hmem))
            rcases hnext with rfl | ⟨token, rest, rfl, htoken⟩
            · simp [Halts, partTokens]
            · simpa [Halts, partTokens] using htoken

section Constructs

variable {tokens : List Token} {tree : Tree} {parts : List Part} {name : Token}

theorem Shaped.grouped (h : Shaped tokens tree) :
    Shaped (.opening .round :: (tokens ++ [.closing .round])) tree := by
  refine ⟨h.balanced.enclosed _, List.cons_ne_nil _ _, ?_⟩
  rw [size_enclosed, h.size_eq, bracketWeight, Nat.zero_add]

theorem shaped_atom {token : Token} (h : isAtom token = true) : Shaped [token] (.atom token) :=
  shaped_of_reads (.atom h)

theorem shaped_unary {token : Token} {level : Nat} (htoken : unaryLevel token = some level)
    (h : Shaped tokens tree) : Shaped (token :: tokens) (.unary token tree) := by
  refine ⟨.cons (isBracket_of_unaryLevel htoken) h.balanced, List.cons_ne_nil _ _, ?_⟩
  rw [weight, ← h.size_eq]
  simp

theorem shaped_binary (operator : Infix) {after : List Token} {second : Tree}
    (h : Shaped tokens tree) (h' : Shaped after second) :
    Shaped (tokens ++ (operator.tokens ++ after)) (.binary operator tree second) := by
  refine ⟨h.balanced.append ((balanced_operator operator).append h'.balanced), ?_, ?_⟩
  · exact List.append_ne_nil_of_left_ne_nil h.ne_nil _
  · rw [weight, size_append, size_append, h.size_eq, h'.size_eq]

theorem shaped_test (negated : Bool) (value : Constant) (h : Shaped tokens tree) :
    Shaped (tokens ++ testTokens negated value) (.test negated value tree) := by
  refine ⟨h.balanced.append (balanced_test negated value), ?_, ?_⟩
  · exact List.append_ne_nil_of_left_ne_nil h.ne_nil _
  · rw [weight, size_append, h.size_eq]

theorem shaped_enclosed (bracket : Bracket) (h : Spaced parts) :
    Shaped (.opening bracket :: (partTokens parts ++ [.closing bracket]))
      (.enclosed bracket (partClause parts)) := by
  refine ⟨(balanced_parts h).enclosed _, List.cons_ne_nil _ _, ?_⟩
  rw [size_enclosed, size_parts h, weight]

/-- The tokens of a call. -/
def callTokens (name : Token) (parts : List Part) : List Token :=
  name :: .opening .round :: (partTokens parts ++ [.closing .round])

def callTree (name : Token) (parts : List Part) : Tree :=
  .apply (.atom name) .call (partClause parts)

theorem shaped_call (hname : isAtom name = true) (h : Spaced parts) :
    Shaped (callTokens name parts) (callTree name parts) := by
  refine ⟨.cons (isBracket_of_isAtom hname) ((balanced_parts h).enclosed _),
    List.cons_ne_nil _ _, ?_⟩
  rw [callTokens, callTree, weight, weight, size_cons, size_enclosed, size_parts h]
  simp [Applied.bracket, isRound_of_flat (isBracket_of_isAtom hname)]

theorem reads_call (hname : isAtom name = true) (h : Spaced parts)
    (hparts : ∀ tokens tree, .expr tokens tree ∈ parts → ReadsAs tokens tree) :
    Reads (min Applied.call.level shut) shut (callTokens name parts) (callTree name parts) :=
  .apply (.atom hname) ((readsClause_iff h).mpr hparts) (Nat.le_succ 15)

/-- A call reads if and only if its arguments do. -/
theorem readsAs_call_iff (hname : isAtom name = true) (h : Spaced parts) :
    ReadsAs (callTokens name parts) (callTree name parts) ↔
      ∀ tokens tree, .expr tokens tree ∈ parts → ReadsAs tokens tree := by
  constructor
  · rintro ⟨left, right, hreads⟩
    exact (readsClause_iff h).mp (call_inv hname hreads)
  · intro hparts
    exact ⟨_, _, reads_call hname h hparts⟩

end Constructs

end EqGen.Lib.SqlShape
