import EqGen.Lib.SqlTokens

/-!
How SQL reads tokens as an expression: the operator precedences of PostgreSQL. What stands between
brackets is read as separating keywords and whole expressions; which keyword may stand where is
left open.
-/

namespace EqGen.Lib.SqlGrammar

open EqGen.Lib.SqlTokens

inductive Infix where
  | or | and | over
  | symbol (symbol : Symbol)
  | like (negated : Bool)
  | within (negated : Bool)
  deriving DecidableEq, Repr

inductive Applied where
  | call | index
  deriving DecidableEq, Repr

mutual

inductive Tree where
  | atom (token : Token)
  | unary (token : Token) (operand : Tree)
  | binary (operator : Infix) (left right : Tree)
  /-- `IS [NOT] NULL`, `IS [NOT] TRUE`, `IS [NOT] FALSE` -/
  | test (negated : Bool) (value : Constant) (operand : Tree)
  | between (negated : Bool) (operand low high : Tree)
  | enclosed (bracket : Bracket) (clause : Clause)
  | apply (head : Tree) (kind : Applied) (clause : Clause)

/-- What stands between two brackets. -/
inductive Clause where
  | nil
  | mark (token : Token) (rest : Clause)
  | expr (tree : Tree) (rest : Clause)

end

/-- Above every operator: the level of an end that no operator opens. -/
def shut : Nat := 16

def symbolLevel : Symbol → Nat
  | .eq | .ne | .lt | .le | .gt | .ge => 5
  | .other _ => 7
  | .plus | .minus => 8
  | .star | .slash | .percent => 9
  | .caret => 10
  | .typecast => 14
  | .dot => 15

namespace Infix

def level : Infix → Nat
  | or => 1
  | and => 2
  | symbol s => symbolLevel s
  | like _ | within _ => 6
  | .over => 15

def tokens : Infix → List Token
  | or => [.or]
  | and => [.and]
  | .over => [.over]
  | symbol s => [.symbol s]
  | like false => [.like]
  | like true => [.not, .like]
  | within false => [.within]
  | within true => [.not, .within]

/-- Comparisons, `LIKE` and `IN` do not chain; the others group to the left. -/
def chains (operator : Infix) : Bool :=
  operator.level ≠ 5 ∧ operator.level ≠ 6

/-- The operator may follow an operand that is open at this level to the right. -/
def Follows (operator : Infix) (right : Nat) : Prop :=
  operator.level < right ∨ operator.chains = true ∧ operator.level = right

instance (operator : Infix) (right : Nat) : Decidable (operator.Follows right) :=
  inferInstanceAs (Decidable (_ ∨ _))

theorem Follows.le {operator : Infix} {right : Nat} (h : operator.Follows right) :
    operator.level ≤ right :=
  h.elim Nat.le_of_lt fun h => Nat.le_of_eq h.2

theorem level_lt_shut (operator : Infix) : operator.level < shut := by
  cases operator with
  | symbol s => cases s <;> simp [level, symbolLevel, shut]
  | _ => simp [level, shut]

end Infix

def testLevel : Nat := 4

def betweenLevel : Nat := 6

def notLevel : Nat := 3

def unaryLevel : Token → Option Nat
  | .not => some notLevel
  | .symbol (.other _) => some 7
  | .symbol .plus | .symbol .minus => some 12
  | _ => none

def Applied.bracket : Applied → Bracket
  | .call => .round
  | .index => .square

def Applied.level : Applied → Nat
  | .call => 15
  | .index => 13

/-- A single star is the operand of `COUNT(*)` and `SELECT *`. -/
def isAtom : Token → Bool
  | .word _ | .quoted _ | .string _ | .number _ | .constant _ | .symbol .star => true
  | _ => false

/-- `AND` and `BETWEEN` separate the ends of a window frame. -/
def isMark : Token → Bool
  | .clause _ | .and | .between => true
  | _ => false

/-- The tokens that go on with an expression. -/
def continues : Token → Bool
  | .or | .and | .over | .not | .is | .like | .within | .between | .symbol _ => true
  | .opening .round | .opening .square => true
  | _ => false

/-- Nothing at the head of the tokens goes on with an expression. -/
def Halts (tokens : List Token) : Prop :=
  ∀ token ∈ tokens.head?, continues token = false

def testTokens (negated : Bool) (value : Constant) : List Token :=
  if negated then [.is, .not, .constant value] else [.is, .constant value]

def betweenTokens (negated : Bool) : List Token :=
  if negated then [.not, .between] else [.between]

mutual

/--
The tokens read as the tree. `left` is the loosest operator that takes an operand from the left
end of the tokens, `right` the loosest that takes one from the right end: an operator in front
of the tokens must bind looser than `left`, one behind them no tighter than `right`.
-/
inductive Reads : Nat → Nat → List Token → Tree → Prop where
  | atom {token : Token} (h : isAtom token = true) : Reads shut shut [token] (.atom token)
  | unary {token : Token} {level left right : Nat} {tokens : List Token} {operand : Tree}
      (htoken : unaryLevel token = some level) (hoperand : Reads left right tokens operand)
      (hlevel : level < left) :
      Reads shut (min level right) (token :: tokens) (.unary token operand)
  | binary {operator : Infix} {left right left' right' : Nat} {before after : List Token}
      {first second : Tree} (hfirst : Reads left right before first)
      (hsecond : Reads left' right' after second) (hfollows : operator.Follows right)
      (hlevel : operator.level < left') :
      Reads (min operator.level left) (min operator.level right')
        (before ++ (operator.tokens ++ after)) (.binary operator first second)
  | test {negated : Bool} {value : Constant} {left right : Nat} {tokens : List Token}
      {operand : Tree} (hoperand : Reads left right tokens operand) (hlevel : testLevel ≤ right) :
      Reads (min testLevel left) shut (tokens ++ testTokens negated value)
        (.test negated value operand)
  | between {negated : Bool} {left right left' right' left'' right'' : Nat}
      {tokens lows highs : List Token} {operand low high : Tree}
      (hoperand : Reads left right tokens operand) (hlow : Reads left' right' lows low)
      (hhigh : Reads left'' right'' highs high) (hlevel : betweenLevel < right)
      (hlow' : betweenLevel < left') (hand : Infix.and.level ≤ right')
      (hhigh' : betweenLevel < left'') :
      Reads (min betweenLevel left) (min betweenLevel right'')
        (tokens ++ (betweenTokens negated ++ (lows ++ .and :: highs)))
        (.between negated operand low high)
  | grouped {left right : Nat} {tokens : List Token} {tree : Tree}
      (h : Reads left right tokens tree) :
      Reads shut shut (.opening .round :: (tokens ++ [.closing .round])) tree
  | enclosed {bracket : Bracket} {tokens : List Token} {clause : Clause}
      (h : ReadsClause tokens clause)
      (hgrouped : ∀ tree, bracket = .round → clause ≠ .expr tree .nil) :
      Reads shut shut (.opening bracket :: (tokens ++ [.closing bracket]))
        (.enclosed bracket clause)
  | apply {kind : Applied} {left right : Nat} {before tokens : List Token} {head : Tree}
      {clause : Clause} (hhead : Reads left right before head)
      (hclause : ReadsClause tokens clause) (hlevel : kind.level ≤ right) :
      Reads (min kind.level left) shut
        (before ++ .opening kind.bracket :: (tokens ++ [.closing kind.bracket]))
        (.apply head kind clause)

inductive ReadsClause : List Token → Clause → Prop where
  | nil : ReadsClause [] .nil
  | mark {token : Token} {tokens : List Token} {rest : Clause} (htoken : isMark token = true)
      (h : ReadsClause tokens rest) : ReadsClause (token :: tokens) (.mark token rest)
  | expr {left right : Nat} {tokens more : List Token} {tree : Tree} {rest : Clause}
      (htree : Reads left right tokens tree) (hhalts : Halts more)
      (h : ReadsClause more rest) : ReadsClause (tokens ++ more) (.expr tree rest)

end

/-- SQL reads the tokens as this expression. -/
def ReadsAs (tokens : List Token) (tree : Tree) : Prop :=
  ∃ left right, Reads left right tokens tree

/-- SQL reads the text as this expression. -/
def ReadsText (text : List Char) (tree : Tree) : Prop :=
  Complete text ∧ ReadsAs (lex text) tree

end EqGen.Lib.SqlGrammar
