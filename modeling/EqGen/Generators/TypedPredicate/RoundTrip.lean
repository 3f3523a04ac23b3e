import EqGen.Generators.TypedPredicate.Reading
import EqGen.Ir.Lexed
import Mathlib.Tactic.NormNum

/-! Printed predicates are read back as they were built. -/

namespace EqGen.Generators.TypedPredicate.RoundTrip

open EqGen.Core.Catalog
open EqGen.Core.Types
open EqGen.Generators.TypedPredicate.Build
open EqGen.Generators.TypedPredicate.Functions
open EqGen.Generators.TypedPredicate.Print
open EqGen.Generators.TypedPredicate.Reading
open EqGen.Generators.TypedPredicate.Typing
open EqGen.Ir.Expr
open EqGen.Lib.Draws
open EqGen.Lib.SqlConditions
open EqGen.Lib.SqlTokens

section Trees

def comparisonSymbol : ComparisonOperator → Symbol
  | .eq => .eq
  | .ne => .ne
  | .lt => .lt
  | .le => .le
  | .gt => .gt
  | .ge => .ge

def boolBinary : BoolOperator → Binary
  | .and => .and
  | .or => .or

def intTree (value : ℤ) : Tree :=
  if value < 0 then .negative (.atom (numberToken value.natAbs))
  else .atom (numberToken value.natAbs)

def literalTree (sql : String) : Tree :=
  match lex sql.toList with
  | [.symbol .minus, token] => .negative (.atom token)
  | [token, .symbol .typecast, .word type] => .cast (.atom token) type
  | token :: _ => .atom token
  | [] => .atom .semicolon

def operandTree (node : Node) (tree : Tree) : Tree :=
  if atomic node then tree else .group tree

def distinctTree (printer : Printer) (left right : Tree) (negated : Bool) : Tree :=
  match printer with
  | .mysql =>
    let same : Tree := .group (.binary nullSafe left right)
    if negated then same else .group (.not same)
  | _ => .binary (.distinct negated) left right

def modTree (printer : Printer) (operand : Tree) (modulus : ℤ) : Tree :=
  match printer with
  | .sqlite => .group (.binary (.symbol .percent) operand (intTree modulus))
  | _ => .call "MOD".toList [operand, intTree modulus]

mutual

/-- The tree of the printed text. -/
def tree (printer : Printer) : Node → Tree
  | .columnRef name _ _ => .atom (.word name.toList)
  | .intLiteral value => intTree value
  | .portableLiteral sql _ => literalTree sql
  | .comparison operator left right =>
    .binary (.symbol (comparisonSymbol operator)) (operandTree left (tree printer left))
      (operandTree right (tree printer right))
  | .boolOp operator left right =>
    .binary (boolBinary operator) (operandTree left (tree printer left))
      (operandTree right (tree printer right))
  | .not operand => .not (operandTree operand (tree printer operand))
  | .isNull operand negated => .null negated (operandTree operand (tree printer operand))
  | .mod operand modulus => modTree printer (tree printer operand) modulus
  | .funcCall sqlName args _ => .call sqlName.toList (trees printer args)
  | .isDistinctFrom left right negated =>
    distinctTree printer (operandTree left (tree printer left))
      (operandTree right (tree printer right)) negated
  | .between value low high negated =>
    .between negated (operandTree value (tree printer value)) (operandTree low (tree printer low))
      (operandTree high (tree printer high))
  | .inList value items negated =>
    .within negated (operandTree value (tree printer value)) (trees printer items)
  | .like value pattern negated =>
    .binary (.like negated) (operandTree value (tree printer value))
      (operandTree pattern (tree printer pattern))

def trees (printer : Printer) : List Node → List Tree
  | [] => []
  | node :: nodes => tree printer node :: trees printer nodes

end

end Trees

section Spelled

/-- The text is one word of SQL. -/
def IsWord (name : String) : Prop :=
  Lexes name.toList [.word name.toList]

instance (name : String) : Decidable (IsWord name) :=
  inferInstanceAs (Decidable (Lexes _ _))

def portableTexts : List String :=
  ["TRUE", "FALSE", "0.0", "1.5", "-0.25", "1000.125", "0.00", "12.34", "-5.50", "999.99"] ++
    (["2024-01-15", "1999-12-31", "2030-06-01", "2024-01-15 12:34:56", "1999-12-31 23:59:59"] ++
      (strings ++ likePatterns)).map quote

/-- The literals that PostgreSQL casts. -/
def nativeTexts : List String :=
  ["'\x7b\x7d'::jsonb", "'[]'::jsonb", "'\x7b\"a\": 1\x7d'::jsonb",
    "'00000000-0000-0000-0000-000000000000'::uuid",
    "'550e8400-e29b-41d4-a716-446655440000'::uuid", "'empty'::int4range", "'[1,10)'::int4range",
    "'[0,100]'::int4range"]

/-- What a printer can print: words, its literals, and operands that `MOD` needs no brackets for. -/
inductive Spelled (printer : Printer) : Node → Prop where
  | columnRef {name : String} (dtype : SqlType) (h : IsWord name) :
      Spelled printer (.columnRef name dtype none)
  | intLiteral (value : ℤ) : Spelled printer (.intLiteral value)
  | portableLiteral {sql : String} (dtype : SqlType)
      (h : sql ∈ portableTexts ∨ printer = .portable ∧ sql ∈ nativeTexts) :
      Spelled printer (.portableLiteral sql dtype)
  | comparison (operator : ComparisonOperator) {left right : Node} (hleft : Spelled printer left)
      (hright : Spelled printer right) : Spelled printer (.comparison operator left right)
  | boolOp (operator : BoolOperator) {left right : Node} (hleft : Spelled printer left)
      (hright : Spelled printer right) : Spelled printer (.boolOp operator left right)
  | not {operand : Node} (h : Spelled printer operand) : Spelled printer (.not operand)
  | isNull (negated : Bool) {operand : Node} (h : Spelled printer operand) :
      Spelled printer (.isNull operand negated)
  | mod (modulus : ℤ) {operand : Node} (h : Spelled printer operand)
      (hatomic : atomic operand = true) : Spelled printer (.mod operand modulus)
  | funcCall {sqlName : String} {args : List Node} (result : SqlType) (h : IsWord sqlName)
      (hmod : sqlName ≠ "MOD") (hne : args ≠ []) (hargs : ∀ arg ∈ args, Spelled printer arg) :
      Spelled printer (.funcCall sqlName args result)
  | isDistinctFrom (negated : Bool) {left right : Node} (hleft : Spelled printer left)
      (hright : Spelled printer right) : Spelled printer (.isDistinctFrom left right negated)
  | between (negated : Bool) {value low high : Node} (hvalue : Spelled printer value)
      (hlow : Spelled printer low) (hhigh : Spelled printer high) :
      Spelled printer (.between value low high negated)
  | inList (negated : Bool) {value : Node} {items : List Node} (hvalue : Spelled printer value)
      (hne : items ≠ []) (hitems : ∀ item ∈ items, Spelled printer item) :
      Spelled printer (.inList value items negated)
  | like (negated : Bool) {value pattern : Node} (hvalue : Spelled printer value)
      (hpattern : Spelled printer pattern) : Spelled printer (.like value pattern negated)

end Spelled

section Literals

/-- The text of a tree that is a literal. -/
def literalText : Tree → Option String
  | .atom (.number text) => some (String.ofList text)
  | .atom (.string text) => some (quote (String.ofList text))
  | .atom (.constant .true) => some "TRUE"
  | .atom (.constant .false) => some "FALSE"
  | .negative (.atom (.number text)) => some (String.ofList ('-' :: text))
  | .cast (.atom (.string text)) type =>
    some (quote (String.ofList text) ++ "::" ++ String.ofList type)
  | _ => none

def isCast : Tree → Bool
  | .cast _ _ => true
  | _ => false

theorem portableTexts_read : ∀ sql ∈ portableTexts, Lexes sql.toList (spell (literalTree sql)) ∧
    literalText (literalTree sql) = some sql ∧ isCast (literalTree sql) = false := by
  decide

theorem nativeTexts_read : ∀ sql ∈ nativeTexts, Lexes sql.toList (spell (literalTree sql)) ∧
    literalText (literalTree sql) = some sql := by
  decide

theorem restore_literal {read : Tree} {sql : String} (h : literalText read = some sql) :
    restore read = some (.literal sql) := by
  unfold literalText at h
  split at h <;> cases h <;> rw [restore] <;> rfl

theorem closed_literal {levels : Levels} {read : Tree} {sql : String}
    (h : literalText read = some sql) (hcast : isCast read = true → levels.cast.isSome = true) :
    Closed levels read := by
  unfold literalText at h
  split at h <;> cases h
  · exact .atom rfl
  · exact .atom rfl
  · exact .atom rfl
  · exact .atom rfl
  · exact .negative _
  · exact .cast _ _ (hcast rfl)

end Literals

section Lexed

variable {printer : Printer} {left right inner : List Char} {before after tokens : List Token}

theorem spell_intTree (value : ℤ) : Lexes (toString value).toList (spell (intTree value)) := by
  have hlexes := Ir.Lexed.lexes_int value
  unfold Ir.Lexed.intTokens at hlexes
  unfold intTree
  split at hlexes <;> simpa [*, spell] using hlexes

theorem lexes_operand {node : Node}
    (h : Lexes (expr printer node).toList (spell (tree printer node))) :
    Lexes (operandSql node (expr printer node)).toList
      (spell (operandTree node (tree printer node))) := by
  unfold operandSql operandTree
  split
  · exact h
  · rw [spell]
    simpa using h.enclosed

theorem lexes_comparisonOperator (operator : ComparisonOperator) :
    Lexes operator.text.toList (Binary.symbol (comparisonSymbol operator)).tokens := by
  cases operator <;> decide

theorem lexes_boolOperator (operator : BoolOperator) :
    Lexes operator.text.toList (boolBinary operator).tokens := by
  cases operator <;> decide

theorem lexes_null (negated : Bool) :
    Lexes ("IS ".toList ++ (negatable negated "NULL").toList)
      (.is :: (negation negated ++ [.constant .null])) := by
  cases negated <;> decide

theorem lexes_between (negated : Bool) :
    Lexes (negatable negated "BETWEEN").toList (negation negated ++ [.between]) := by
  cases negated <;> decide

theorem lexes_within (negated : Bool) :
    Lexes (negatable negated "IN").toList (negation negated ++ [.within]) := by
  cases negated <;> decide

theorem lexes_like (negated : Bool) :
    Lexes (negatable negated "LIKE").toList (Binary.like negated).tokens := by
  cases negated <;> decide

theorem lexes_binary {operator : String} {binary : Binary} {first second : Tree}
    (hleft : Lexes left (spell first)) (hoperator : Lexes operator.toList binary.tokens)
    (hright : Lexes right (spell second)) :
    Lexes (left ++ (" ".toList ++ (operator.toList ++ (" ".toList ++ right))))
      (spell (.binary binary first second)) := by
  rw [spell]
  simpa using hleft.space (hoperator.space hright)

theorem lexes_distinct {left right : String} {first second : Tree}
    (hleft : Lexes left.toList (spell first)) (hright : Lexes right.toList (spell second))
    (negated : Bool) :
    Lexes (distinctSql printer left right negated).toList
      (spell (distinctTree printer first second negated)) := by
  have hplain : Lexes
      (left ++ ((if negated then " IS NOT DISTINCT FROM " else " IS DISTINCT FROM ") ++
        right)).toList (spell (.binary (.distinct negated) first second)) := by
    cases negated with
    | false =>
        have hoperator : Lexes "IS DISTINCT FROM".toList (Binary.distinct false).tokens := by
          decide
        simpa using lexes_binary hleft hoperator hright
    | true =>
        have hoperator : Lexes "IS NOT DISTINCT FROM".toList (Binary.distinct true).tokens := by
          decide
        simpa using lexes_binary hleft hoperator hright
  cases printer with
  | portable => exact hplain
  | sqlite => exact hplain
  | mysql =>
      have hoperator : Lexes "<=>".toList nullSafe.tokens := by decide
      have hsame := (lexes_binary hleft hoperator hright).enclosed
      cases negated with
      | true => simpa [distinctSql, distinctTree, spell] using hsame
      | false =>
          have hnot : Lexes "NOT".toList [.not] := by decide
          simpa [distinctSql, distinctTree, spell] using (hnot.space hsame).enclosed

theorem lexes_mod {operand : String} {read : Tree} (h : Lexes operand.toList (spell read))
    (modulus : ℤ) :
    Lexes (modSql printer operand modulus).toList (spell (modTree printer read modulus)) := by
  have hmodulus := spell_intTree modulus
  have hcall : Lexes ("MOD(" ++ (operand ++ (", " ++ (toString modulus ++ ")")))).toList
      (spell (.call "MOD".toList [read, intTree modulus])) := by
    have hname : Lexes "MOD".toList [.word "MOD".toList] := by decide
    have := hname.opened (h.comma (hmodulus.closed lexes_nil))
    simpa [spell, spellAll] using this
  cases printer with
  | portable => exact hcall
  | mysql => exact hcall
  | sqlite =>
      have hpercent : Lexes "%".toList (Binary.symbol .percent).tokens := by decide
      have := (lexes_binary h hpercent hmodulus).enclosed
      simpa [modSql, modTree, spell] using this

theorem spellAll_eq (trees : List Tree) :
    spellAll trees = [comma].intercalate (trees.map spell) := by
  induction trees with
  | nil => rfl
  | cons tree trees ih =>
      cases trees with
      | nil => simp [spellAll]
      | cons next trees =>
          rw [spellAll, ih]
          simp [List.intercalate_cons_cons]

theorem exprs_eq (printer : Printer) (nodes : List Node) :
    exprs printer nodes = nodes.map (expr printer) := by
  induction nodes with
  | nil => rfl
  | cons node nodes ih => rw [exprs, ih, List.map_cons]

theorem trees_eq (printer : Printer) (nodes : List Node) :
    trees printer nodes = nodes.map (tree printer) := by
  induction nodes with
  | nil => rfl
  | cons node nodes ih => rw [trees, ih, List.map_cons]

theorem lexes_exprs {nodes : List Node}
    (h : ∀ node ∈ nodes, Lexes (expr printer node).toList (spell (tree printer node))) :
    Lexes (", ".intercalate (exprs printer nodes)).toList (spellAll (trees printer nodes)) := by
  rw [String.toList_intercalate, spellAll_eq, exprs_eq, trees_eq, List.map_map, List.map_map]
  refine lexes_commas ?_
  rw [List.forall₂_map_left_iff, List.forall₂_map_right_iff, List.forall₂_same]
  exact h

theorem lexes_expr {node : Node} (h : Spelled printer node) :
    Lexes (expr printer node).toList (spell (tree printer node)) := by
  induction h with
  | columnRef dtype h => exact h
  | intLiteral value => exact spell_intTree value
  | portableLiteral dtype h =>
      rcases h with h | ⟨-, h⟩
      · exact (portableTexts_read _ h).1
      · exact (nativeTexts_read _ h).1
  | comparison operator _ _ ihLeft ihRight =>
      have := lexes_binary (lexes_operand ihLeft) (lexes_comparisonOperator operator)
        (lexes_operand ihRight)
      rw [expr, tree]
      simpa only [String.toList_append] using this
  | boolOp operator _ _ ihLeft ihRight =>
      have := lexes_binary (lexes_operand ihLeft) (lexes_boolOperator operator)
        (lexes_operand ihRight)
      rw [expr, tree]
      simpa only [String.toList_append] using this
  | not _ ih =>
      have hnot : Lexes "NOT".toList [.not] := by decide
      have := hnot.space (lexes_operand ih)
      rw [expr, tree, spell]
      simpa using this
  | isNull negated _ ih =>
      have := (lexes_operand ih).space (lexes_null negated)
      rw [expr, tree, spell]
      simpa using this
  | mod modulus _ _ ih =>
      rw [expr, tree]
      exact lexes_mod ih modulus
  | funcCall result hname _ _ _ ih =>
      have := Lexes.opened hname ((lexes_exprs ih).closed lexes_nil)
      rw [expr, tree, spell]
      simpa using this
  | isDistinctFrom negated _ _ ihLeft ihRight =>
      rw [expr, tree]
      exact lexes_distinct (lexes_operand ihLeft) (lexes_operand ihRight) negated
  | between negated _ _ _ ihValue ihLow ihHigh =>
      have hand : Lexes "AND".toList [.and] := by decide
      have := (lexes_operand ihValue).space ((lexes_between negated).space
        ((lexes_operand ihLow).space (hand.space (lexes_operand ihHigh))))
      rw [expr, tree, spell]
      simpa using this
  | inList negated _ _ _ ihValue ih =>
      have hlist := lexes_nil.opened ((lexes_exprs ih).closed lexes_nil)
      have := (lexes_operand ihValue).space ((lexes_within negated).space hlist)
      rw [expr, tree, spell]
      simpa using this
  | like negated _ _ ihValue ihPattern =>
      have := lexes_binary (lexes_operand ihValue) (lexes_like negated) (lexes_operand ihPattern)
      rw [expr, tree]
      simpa only [String.toList_append] using this

end Lexed

section Brackets

variable {levels : Levels} {printer : Printer}

/-- The precedences tell the operators that the printer writes. -/
structure Knows (levels : Levels) (printer : Printer) : Prop where
  comparison : ∀ operator, (levels.binary (.symbol (comparisonSymbol operator))).isSome = true
  bool : ∀ operator, (levels.binary (boolBinary operator)).isSome = true
  like : ∀ negated, (levels.binary (.like negated)).isSome = true
  distinct : printer ≠ .mysql → ∀ negated, (levels.binary (.distinct negated)).isSome = true
  nullSafe : printer = .mysql → (levels.binary nullSafe).isSome = true
  percent : printer = .sqlite → (levels.binary (.symbol .percent)).isSome = true
  cast : printer = .portable → levels.cast.isSome = true

theorem knows_portable {levels : Levels}
    (h : levels ∈ [postgresLevels, clickhouseLevels, cratedbLevels]) :
    Knows levels .portable := by
  simp only [List.mem_cons, List.not_mem_nil, or_false] at h
  constructor
  · intro operator
    rcases h with rfl | rfl | rfl <;> cases operator <;> rfl
  · intro operator
    rcases h with rfl | rfl | rfl <;> cases operator <;> rfl
  · rcases h with rfl | rfl | rfl <;> decide
  · rcases h with rfl | rfl | rfl <;> decide
  · intro hprinter
    cases hprinter
  · intro hprinter
    cases hprinter
  · rcases h with rfl | rfl | rfl <;> decide

theorem knows_sqlite : Knows sqliteLevels .sqlite where
  comparison operator := by cases operator <;> rfl
  bool operator := by cases operator <;> rfl
  like := by decide
  distinct := by decide
  nullSafe := by decide
  percent := by decide
  cast := by decide

theorem knows_mysql : Knows mysqlLevels .mysql where
  comparison operator := by cases operator <;> rfl
  bool operator := by cases operator <;> rfl
  like := by decide
  distinct := by decide
  nullSafe := by decide
  percent := by decide
  cast := by decide

theorem closed_intTree (value : ℤ) : Closed levels (intTree value) := by
  unfold intTree
  split
  · exact .negative _
  · exact .atom rfl

theorem bracketed_distinct (hknows : Knows levels printer) {left right : Tree}
    (hleft : Closed levels left) (hright : Closed levels right) (negated : Bool) :
    Bracketed levels (distinctTree printer left right negated) := by
  cases printer with
  | portable => exact .binary (by simp) (hknows.distinct (by simp) negated) hleft hright
  | sqlite => exact .binary (by simp) (hknows.distinct (by simp) negated) hleft hright
  | mysql =>
      have hsame : Closed levels (.group (.binary nullSafe left right)) :=
        .group (.binary (by simp [nullSafe]) (hknows.nullSafe rfl) hleft hright)
      cases negated with
      | true => exact .closed hsame
      | false => exact .closed (.group (.not hsame))

theorem closed_mod (hknows : Knows levels printer) {operand : Tree} (h : Closed levels operand)
    (modulus : ℤ) : Closed levels (modTree printer operand modulus) := by
  have hcall : Closed levels (.call "MOD".toList [operand, intTree modulus]) := by
    refine .call (by simp) fun arg harg => ?_
    simp only [List.mem_cons, List.not_mem_nil, or_false] at harg
    rcases harg with rfl | rfl
    · exact .closed h
    · exact .closed (closed_intTree modulus)
  cases printer with
  | portable => exact hcall
  | mysql => exact hcall
  | sqlite => exact .group (.binary (by simp) (hknows.percent rfl) h (closed_intTree modulus))

/-- The tree of a node, which is closed where the node needs no brackets. -/
def Stands (levels : Levels) (printer : Printer) (node : Node) : Prop :=
  Bracketed levels (tree printer node) ∧
    (atomic node = true → Closed levels (tree printer node))

theorem Stands.operand {node : Node} (h : Stands levels printer node) :
    Closed levels (operandTree node (tree printer node)) := by
  unfold operandTree
  split
  · next hatomic => exact h.2 hatomic
  · exact .group h.1

theorem stands_of_closed {node : Node} (h : Closed levels (tree printer node)) :
    Stands levels printer node :=
  ⟨.closed h, fun _ => h⟩

theorem stands_of_bracketed {node : Node} (h : Bracketed levels (tree printer node))
    (hatomic : atomic node = false) : Stands levels printer node :=
  ⟨h, fun htrue => absurd (hatomic.symm.trans htrue) (by decide)⟩

theorem stands_all {nodes : List Node} (h : ∀ node ∈ nodes, Stands levels printer node) :
    ∀ read ∈ trees printer nodes, Bracketed levels read := by
  intro read hread
  rw [trees_eq] at hread
  obtain ⟨node, hnode, rfl⟩ := List.mem_map.mp hread
  exact (h node hnode).1

theorem trees_ne_nil {nodes : List Node} (h : nodes ≠ []) : trees printer nodes ≠ [] := by
  rw [trees_eq]
  simpa using h

theorem stands (hknows : Knows levels printer) {node : Node} (h : Spelled printer node) :
    Stands levels printer node := by
  induction h with
  | columnRef dtype h =>
      apply stands_of_closed
      rw [tree]
      exact .atom rfl
  | intLiteral value =>
      apply stands_of_closed
      rw [tree]
      exact closed_intTree value
  | portableLiteral dtype h =>
      apply stands_of_closed
      rw [tree]
      rcases h with h | ⟨hprinter, h⟩
      · obtain ⟨-, htext, hcast⟩ := portableTexts_read _ h
        exact closed_literal htext fun htrue => absurd (hcast.symm.trans htrue) (by decide)
      · exact closed_literal (nativeTexts_read _ h).2 fun _ => hknows.cast hprinter
  | comparison operator _ _ ihLeft ihRight =>
      refine stands_of_bracketed ?_ rfl
      rw [tree]
      exact .binary (by cases operator <;> simp [comparisonSymbol]) (hknows.comparison operator)
        ihLeft.operand ihRight.operand
  | boolOp operator _ _ ihLeft ihRight =>
      refine stands_of_bracketed ?_ rfl
      rw [tree]
      exact .binary (by cases operator <;> simp [boolBinary]) (hknows.bool operator)
        ihLeft.operand ihRight.operand
  | not _ ih =>
      refine stands_of_bracketed ?_ rfl
      rw [tree]
      exact .not ih.operand
  | isNull negated _ ih =>
      refine stands_of_bracketed ?_ rfl
      rw [tree]
      exact .null negated ih.operand
  | mod modulus _ hatomic ih =>
      apply stands_of_closed
      rw [tree]
      exact closed_mod hknows (ih.2 hatomic) modulus
  | funcCall result _ _ hne _ ih =>
      apply stands_of_closed
      rw [tree]
      exact .call (trees_ne_nil hne) (stands_all ih)
  | isDistinctFrom negated _ _ ihLeft ihRight =>
      refine stands_of_bracketed ?_ rfl
      rw [tree]
      exact bracketed_distinct hknows ihLeft.operand ihRight.operand negated
  | between negated _ _ _ ihValue ihLow ihHigh =>
      refine stands_of_bracketed ?_ rfl
      rw [tree]
      exact .between negated ihValue.operand ihLow.operand ihHigh.operand
  | inList negated _ hne _ ihValue ih =>
      refine stands_of_bracketed ?_ rfl
      rw [tree]
      exact .within negated ihValue.operand (trees_ne_nil hne) (stands_all ih)
  | like negated _ _ ihValue ihPattern =>
      refine stands_of_bracketed ?_ rfl
      rw [tree]
      exact .binary (by simp) (hknows.like negated) ihValue.operand ihPattern.operand

end Brackets

section Restored

variable {printer : Printer}

theorem restore_group {inner : Tree}
    (h : ∀ text left right,
      inner ≠ .not (.group (.binary (.symbol (.other text)) left right))) :
    restore (.group inner) = restore inner := by
  rw [restore]
  exact h

theorem restore_intTree (value : ℤ) :
    restore (intTree value) = some (.literal (toString value)) := by
  apply restore_literal
  unfold intTree
  split
  · next hneg =>
      have htext : (toString value).toList = '-' :: (toString value.natAbs).toList := by
        rw [Int.toString_eq_repr, Int.repr_eq_if, if_neg (by omega)]
        have habs : (-value).toNat = value.natAbs := by omega
        simp [habs]
      show literalText (.negative (.atom (.number (toString value.natAbs).toList))) = _
      rw [literalText, ← htext, String.ofList_toList]
  · next hpos =>
      have htext : toString value = toString value.natAbs := by
        rw [Int.toString_eq_repr, Int.repr_eq_if, if_pos (by omega)]
        have habs : value.toNat = value.natAbs := by omega
        simp [habs]
      show literalText (.atom (.number (toString value.natAbs).toList)) = _
      rw [literalText, htext, String.ofList_toList]

theorem tree_ne_other (node : Node) (text : List Char) (left right : Tree) :
    tree printer node ≠ .binary (.symbol (.other text)) left right := by
  cases node with
  | comparison operator _ _ => cases operator <;> simp [tree, comparisonSymbol]
  | boolOp operator _ _ => cases operator <;> simp [tree, boolBinary]
  | isDistinctFrom _ _ negated =>
      cases printer <;> cases negated <;> simp [tree, distinctTree]
  | mod _ _ => cases printer <;> simp [tree, modTree]
  | intLiteral value =>
      rw [tree, intTree]
      split <;> simp
  | portableLiteral sql _ =>
      rw [tree, literalTree]
      split <;> simp
  | _ => simp [tree]

theorem tree_ne_group_other {node : Node} (h : atomic node = true) (text : List Char)
    (left right : Tree) :
    tree printer node ≠ .group (.binary (.symbol (.other text)) left right) := by
  cases node with
  | mod _ _ => cases printer <;> simp [tree, modTree]
  | intLiteral value =>
      rw [tree, intTree]
      split <;> simp
  | portableLiteral sql _ =>
      rw [tree, literalTree]
      split <;> simp
  | columnRef _ _ _ | funcCall _ _ _ => simp [tree]
  | _ => cases h

/-- No node but MySQL's own form of `IS DISTINCT FROM` is written as that form. -/
theorem tree_ne_not_other (node : Node) (text : List Char) (left right : Tree) :
    tree printer node ≠ .not (.group (.binary (.symbol (.other text)) left right)) := by
  cases node with
  | not operand =>
      rw [tree, operandTree]
      split
      · next hatomic => simpa using tree_ne_group_other hatomic text left right
      · simpa using tree_ne_other operand text left right
  | isDistinctFrom _ _ negated =>
      cases printer <;> cases negated <;> simp [tree, distinctTree]
  | mod _ _ => cases printer <;> simp [tree, modTree]
  | intLiteral value =>
      rw [tree, intTree]
      split <;> simp
  | portableLiteral sql _ =>
      rw [tree, literalTree]
      split <;> simp
  | _ => simp [tree]

theorem restore_operand {node : Node} (h : restore (tree printer node) = some (erase node)) :
    restore (operandTree node (tree printer node)) = some (erase node) := by
  unfold operandTree
  split
  · exact h
  · rw [restore_group (tree_ne_not_other node), h]

theorem restore_all {nodes : List Node}
    (h : ∀ node ∈ nodes, restore (tree printer node) = some (erase node)) :
    restoreAll (trees printer nodes) = some (eraseAll nodes) := by
  induction nodes with
  | nil => rfl
  | cons node nodes ih =>
      rw [List.forall_mem_cons] at h
      rw [trees, restoreAll, h.1, ih h.2, eraseAll]
      rfl

theorem callOf_ne {name : String} (h : name ≠ "MOD") (args : List Untyped) :
    callOf name.toList args = .funcCall name args := by
  have hne : name.toList ≠ "MOD".toList := fun heq => h (String.toList_inj.mp heq)
  unfold callOf
  split
  · rw [if_neg hne, String.ofList_toList]
  · rw [String.ofList_toList]

theorem restore_binary {operator : Binary} {left right : Tree} {first second : Untyped}
    (hleft : restore left = some first) (hright : restore right = some second) :
    restore (.binary operator left right) = infixOf operator first second := by
  rw [restore, hleft, hright]
  rfl

theorem restore_distinct {left right : Tree} {first second : Untyped}
    (hleft : restore left = some first) (hright : restore right = some second) (negated : Bool) :
    restore (distinctTree printer left right negated) =
      some (.isDistinctFrom first second negated) := by
  cases printer with
  | portable => exact restore_binary hleft hright
  | sqlite => exact restore_binary hleft hright
  | mysql =>
      cases negated with
      | true =>
          rw [distinctTree, if_pos rfl, restore_group (by simp), restore_binary hleft hright]
          rfl
      | false =>
          rw [distinctTree, if_neg (by simp), nullSafe, restore, hleft, hright]
          rfl

theorem restore_mod {operand : Tree} {first : Untyped} (h : restore operand = some first)
    (modulus : ℤ) :
    restore (modTree printer operand modulus) =
      some (.mod first (.literal (toString modulus))) := by
  have hmodulus := restore_intTree modulus
  have hcall : restore (.call "MOD".toList [operand, intTree modulus]) =
      some (.mod first (.literal (toString modulus))) := by
    rw [restore, restoreAll, restoreAll, restoreAll, h, hmodulus]
    rfl
  cases printer with
  | portable => exact hcall
  | mysql => exact hcall
  | sqlite =>
      rw [modTree, restore_group (by simp), restore_binary h hmodulus]
      rfl

theorem restore_tree {node : Node} (h : Spelled printer node) :
    restore (tree printer node) = some (erase node) := by
  induction h with
  | @columnRef name dtype h =>
      rw [tree, restore, leaf, String.ofList_toList, erase]
  | intLiteral value =>
      rw [tree, erase]
      exact restore_intTree value
  | portableLiteral dtype h =>
      rw [tree, erase]
      rcases h with h | ⟨-, h⟩
      · exact restore_literal (portableTexts_read _ h).2.1
      · exact restore_literal (nativeTexts_read _ h).2
  | comparison operator _ _ ihLeft ihRight =>
      rw [tree, erase, restore_binary (restore_operand ihLeft) (restore_operand ihRight)]
      cases operator <;> rfl
  | boolOp operator _ _ ihLeft ihRight =>
      rw [tree, erase, restore_binary (restore_operand ihLeft) (restore_operand ihRight)]
      cases operator <;> rfl
  | not _ ih =>
      rw [tree, erase, restore, restore_operand ih]
      rfl
  | isNull negated _ ih =>
      rw [tree, erase, restore, restore_operand ih]
      rfl
  | mod modulus _ hatomic ih =>
      rw [tree, erase]
      exact restore_mod ih modulus
  | funcCall result _ hmod _ _ ih =>
      rw [tree, erase, restore, restore_all ih, Option.map_some, callOf_ne hmod]
  | isDistinctFrom negated _ _ ihLeft ihRight =>
      rw [tree, erase]
      exact restore_distinct (restore_operand ihLeft) (restore_operand ihRight) negated
  | between negated _ _ _ ihValue ihLow ihHigh =>
      rw [tree, erase, restore, restore_operand ihValue, restore_operand ihLow,
        restore_operand ihHigh]
      rfl
  | inList negated _ _ _ ihValue ih =>
      rw [tree, erase, restore, restore_operand ihValue, restore_all ih]
      rfl
  | like negated _ _ ihValue ihPattern =>
      rw [tree, erase, restore_binary (restore_operand ihValue) (restore_operand ihPattern)]
      rfl

end Restored

section Built

variable {columns : List Column} {dialect : String} {printer : Printer} {node : Node}

/-- The types whose literals only PostgreSQL spells. -/
def nativeKinds : List TypeKind :=
  [.jsonb, .uuid, .int4range]

/-- The printer writes literals of its own for the types that it can meet. -/
def Covers (printer : Printer) (columns : List Column) : Prop :=
  printer = .portable ∨ ∀ column ∈ columns, column.dataType.kind ∉ nativeKinds

theorem mem_texts {options texts : List String} {f : String → String}
    (hall : ∀ text ∈ options, f text ∈ texts) {sql : String} {dtype : SqlType}
    (h : .portableLiteral sql dtype ∈
      options.map fun text => Node.portableLiteral (f text) dtype) : sql ∈ texts := by
  obtain ⟨text, htext, heq⟩ := List.mem_map.mp h
  cases heq
  exact hall text htext

theorem texts_of_spells {dtype : SqlType} {sql : String} (h : Spells dtype sql) :
    sql ∈ portableTexts ∨ dtype.kind ∈ nativeKinds ∧ sql ∈ nativeTexts := by
  have hnative {kind : TypeKind} (h : decide (dtype.kind = kind) = true)
      (hmem : kind ∈ nativeKinds) : dtype.kind ∈ nativeKinds := of_decide_eq_true h ▸ hmem
  rcases h with h | ⟨-, h⟩
  · unfold literals at h
    repeat' split at h
    · exact .inl (mem_texts (by decide) h)
    · exact .inl (mem_texts (by decide) h)
    · exact .inl (mem_texts (by decide) h)
    · obtain ⟨value, -, heq⟩ := List.mem_map.mp h
      cases heq
    · exact .inl (mem_texts (by decide) h)
    · exact .inl (mem_texts (by decide) h)
    · next hkind => exact .inr ⟨hnative hkind (by decide), mem_texts (by decide) h⟩
    · next hkind => exact .inr ⟨hnative hkind (by decide), mem_texts (by decide) h⟩
    · next hkind => exact .inr ⟨hnative hkind (by decide), mem_texts (by decide) h⟩
    · exact .inl (mem_texts (by decide) h)
  · have hall : ∀ sql ∈ likePatterns.map quote, sql ∈ portableTexts := by decide
    exact .inl (hall sql h)

theorem kind_of_known {dtype : SqlType} (h : Known columns dtype)
    (hkind : dtype.kind ∈ nativeKinds) :
    ∃ column ∈ columns, column.dataType.kind ∈ nativeKinds := by
  rcases h with ⟨column, hcolumn, rfl⟩ | h
  · exact ⟨column, hcolumn, hkind⟩
  · have hnone : ∀ dtype ∈ resultTypes, dtype.kind ∉ nativeKinds := by decide
    exact absurd hkind (hnone dtype h)

theorem spelled_portableLiteral (hcovers : Covers printer columns) {dtype : SqlType} {sql : String}
    (h : Spells dtype sql) (hknown : Known columns dtype) :
    Spelled printer (.portableLiteral sql dtype) := by
  refine .portableLiteral dtype ?_
  rcases texts_of_spells h with h | ⟨hkind, h⟩
  · exact .inl h
  · obtain ⟨column, hcolumn, hnative⟩ := kind_of_known hknown hkind
    exact .inr ⟨hcovers.resolve_right fun hnone => hnone column hcolumn hnative, h⟩

theorem atomic_of_numeric (h : isInstance node.dataType .numericType = true) :
    atomic node = true := by
  cases node <;> first | rfl | cases h

/-- Every function is named by a word, and none is `MOD`. -/
theorem named_functions {spec : FuncSpec} (h : spec ∈ functions dialect) :
    IsWord spec.sqlName ∧ spec.sqlName ≠ "MOD" ∧ spec.argFamilies ≠ [] := by
  have hall : ∀ catalog ∈ catalogs, ∀ spec ∈ catalog,
      IsWord spec.sqlName ∧ spec.sqlName ≠ "MOD" ∧ spec.argFamilies ≠ [] := by
    decide
  cases hcatalog : catalogFor dialect with
  | none => simp [functions, hcatalog] at h
  | some catalog =>
      rw [functions_of_catalogFor hcatalog] at h
      exact hall catalog (mem_catalogs hcatalog) spec h

theorem args_ne_nil {spec : FuncSpec} {args : List Node} (hne : spec.argFamilies ≠ [])
    (h : spec.matches (args.map Node.dataType) = true) : args ≠ [] := by
  rintro rfl
  have hlength : 0 = spec.argFamilies.length := by
    simp only [FuncSpec.matches, Bool.and_eq_true, decide_eq_true_eq] at h
    exact h.1
  exact hne (List.eq_nil_of_length_eq_zero hlength.symm)

theorem spelled_of_wellTyped (hnames : ∀ column ∈ columns, IsWord column.name)
    (hcovers : Covers printer columns) (h : WellTyped columns (functions dialect) dialect node) :
    Spelled printer node := by
  induction h with
  | columnRef hcolumn => exact .columnRef _ (hnames _ hcolumn)
  | intLiteral value => exact .intLiteral value
  | portableLiteral hspells hknown => exact spelled_portableLiteral hcovers hspells hknown
  | comparison operator _ _ _ ihLeft ihRight => exact .comparison operator ihLeft ihRight
  | boolOp operator _ _ _ _ ihLeft ihRight => exact .boolOp operator ihLeft ihRight
  | not _ _ ih => exact .not ih
  | isNull negated _ ih => exact .isNull negated ih
  | mod _ hnumeric _ _ ih => exact .mod _ ih (atomic_of_numeric hnumeric)
  | funcCall hspec _ hmatches _ ih =>
      obtain ⟨hname, hmod, hfamilies⟩ := named_functions hspec
      exact .funcCall _ hname hmod (args_ne_nil hfamilies hmatches) ih
  | isDistinctFrom negated _ _ _ ihLeft ihRight => exact .isDistinctFrom negated ihLeft ihRight
  | between negated _ _ _ _ _ ihValue ihLow ihHigh => exact .between negated ihValue ihLow ihHigh
  | inList negated _ _ hne _ ihValue ihItems => exact .inList negated ihValue hne ihItems
  | like negated _ _ _ _ ihValue ihPattern => exact .like negated ihValue ihPattern

end Built

section Printed

/-- The text in brackets, among the tokens of a larger text, is read as one operand. -/
def OneOperand (levels : Levels) (text : List Char) (read : Tree) : Prop :=
  ∀ before rest, Complete before → ∃ tokens,
    lex (before ++ '(' :: (text ++ ')' :: rest)) = lex before ++ tokens ∧
      ∃ enough, ∀ fuel ≥ enough, parsePrimary levels fuel tokens = some (.group read, lex rest)

/-- The text is read back as the node, and stays one operand in brackets. -/
def Unambiguous (dialect text : String) (node : Node) : Prop :=
  reread dialect text = some (erase node) ∧
    ∃ read, parse (levelsFor dialect) (lex text.toList) = some read ∧
      OneOperand (levelsFor dialect) text.toList read

theorem knows_levelsFor {dialect : String} {printer : Printer}
    (h : printerFor dialect = some printer) :
    (levelsFor dialect).Sane ∧ Knows (levelsFor dialect) printer := by
  have hall : ∀ dialect ∈ ["duckdb", "postgres", "cratedb", "clickhouse"],
      levelsFor dialect = postgresLevels ∨ levelsFor dialect = clickhouseLevels ∨
        levelsFor dialect = cratedbLevels := by
    intro dialect hdialect
    simp only [List.mem_cons, List.not_mem_nil, or_false] at hdialect
    rcases hdialect with rfl | rfl | rfl | rfl <;> simp [levelsFor]
  unfold printerFor at h
  split at h
  · next hdialect =>
      cases h
      rcases hall dialect hdialect with heq | heq | heq <;> rw [heq]
      · exact ⟨sane_postgresLevels, knows_portable (by simp)⟩
      · exact ⟨sane_clickhouseLevels, knows_portable (by simp)⟩
      · exact ⟨sane_cratedbLevels, knows_portable (by simp)⟩
  split at h
  · next hdialect =>
      cases h
      subst hdialect
      exact ⟨sane_sqliteLevels, knows_sqlite⟩
  split at h
  · next hdialect =>
      cases h
      have heq : levelsFor dialect = mysqlLevels := by
        simp only [List.mem_cons, List.not_mem_nil, or_false] at hdialect
        rcases hdialect with rfl | rfl | rfl | rfl <;> simp [levelsFor]
      rw [heq]
      exact ⟨sane_mysqlLevels, knows_mysql⟩
  · cases h

theorem oneOperand_of_lexes {levels : Levels} (hsane : levels.Sane) {text : List Char} {read : Tree}
    (htext : Lexes text (spell read)) (hread : Bracketed levels read) :
    OneOperand levels text read := by
  intro before rest hbefore
  refine ⟨.opening .round :: (spell read ++ .closing .round :: lex rest), ?_,
    3 * (spell read).length + 2, fun fuel hfuel =>
      parsePrimary_group hsane hread fuel hfuel (lex rest)⟩
  have hopening : (start '(').1 = [.opening .round] := by decide
  have hclosing : (start ')').1 = [.closing .round] := by decide
  rw [lex_delimiter hbefore (.inr (by decide)), lex_delimiter htext.1 (.inr (by decide)), htext.2,
    hopening, hclosing]
  simp

theorem unambiguous_of_spelled {dialect : String} {printer : Printer}
    (hprinter : printerFor dialect = some printer) {node : Node} (h : Spelled printer node) :
    Unambiguous dialect (expr printer node) node := by
  obtain ⟨hsane, hknows⟩ := knows_levelsFor hprinter
  have hlexes := lexes_expr h
  have hbracketed : Bracketed (levelsFor dialect) (tree printer node) := (stands hknows h).1
  have hparse : parse (levelsFor dialect) (lex (expr printer node).toList) =
      some (tree printer node) := by
    rw [hlexes.2]
    exact parse_spell hsane hbracketed
  refine ⟨?_, tree printer node, hparse, oneOperand_of_lexes hsane hlexes hbracketed⟩
  rw [reread, hparse]
  exact restore_tree h

/--
A predicate that is built for any dialect is printed unambiguously for any other, where the
columns are named by plain words and the printer has literals for their types.
-/
theorem unambiguous_printPredicate (table : Table) (source dialect : String) (draws : ℕ → ℕ)
    (printer : Printer) (hprinter : printerFor dialect = some printer)
    (hnames : ∀ column ∈ table.columns, IsWord column.name)
    (hcovers : Covers printer table.columns) :
    ∀ node, buildPredicate table source draws = .ok (some node) →
      ∃ text, printPredicate node dialect = some text ∧ Unambiguous dialect text node := by
  intro node hbuilt
  have hspelled : Spelled printer node :=
    spelled_of_wellTyped hnames hcovers (condition_of_built hbuilt).1
  refine ⟨expr printer node, ?_, unambiguous_of_spelled hprinter hspelled⟩
  rw [printPredicate, hprinter, Option.map_some]

/-- The text of the predicate, where one was built. -/
def printed (dialect : String) : Except BuildError (Option Node) → Option String
  | .ok (some node) => printPredicate node dialect
  | _ => none

theorem exists_of_printed {dialect text : String} {built : Except BuildError (Option Node)}
    (h : printed dialect built = some text) :
    ∃ node, built = .ok (some node) ∧ printPredicate node dialect = some text := by
  unfold printed at h
  split at h
  · exact ⟨_, rfl, h⟩
  · cases h

def sampleText : String :=
  "(NOT (a BETWEEN -1 AND 1)) AND ((b NOT LIKE 'a%') OR (a IN (0, 42)))"

theorem unambiguous_printPredicate_sampleTable :
    ∃ node, buildPredicate sampleTable "postgres" sampleDraws = .ok (some node) ∧
      printPredicate node "mysql" = some sampleText ∧ Unambiguous "mysql" sampleText node := by
  have hprinted : printed "mysql" (buildPredicate sampleTable "postgres" sampleDraws) =
      some sampleText := by
    decide +kernel
  obtain ⟨node, hbuilt, htext⟩ := exists_of_printed hprinted
  obtain ⟨text, htext', hunambiguous⟩ := unambiguous_printPredicate sampleTable "postgres" "mysql"
    sampleDraws .mysql rfl (by decide +kernel) (.inr (by decide)) node hbuilt
  obtain rfl : sampleText = text := Option.some.inj (htext.symm.trans htext')
  exact ⟨node, hbuilt, htext, hunambiguous⟩

def integerTable (name : String) (h : name ≠ "") : Table where
  name := "t"
  columns := [⟨name, { kind := .integer }, 1, true, h⟩]
  name_nonempty := t_ne_empty

theorem random_zero (taken : ℕ) :
    Draw.random (ε := BuildError) (fun _ => 0) taken = .ok (0, taken + 1) := by
  show Except.ok (((0 % 2 ^ 53 : ℕ) : ℚ) / 2 ^ 53, taken + 1) = _
  norm_num

theorem built_integerTable (name : String) (h : name ≠ "") :
    buildPredicate (integerTable name h) "postgres" (fun _ => 0) =
      .ok (some (.isNull (.columnRef name { kind := .integer } none) false)) := by
  have hchance : chance (9 / 20) (fun _ => 0) 0 = .ok (true, 1) := by
    have hlt : decide ((0 : ℚ) < 9 / 20) = true := by norm_num
    rw [chance, bind_ok (random_zero 0), hlt]
    rfl
  have hcolumn : choice (integerTable name h).columns (fun _ => 0) 1 =
      .ok (⟨name, { kind := .integer }, 1, true, h⟩, 2) := by
    rfl
  have hatom : atom (integerTable name h).columns "postgres" (fun _ => 0) 1 =
      .ok (.isNull (.columnRef name { kind := .integer } none) false, 3) := by
    rw [atom, bind_ok hcolumn, bind_ok (random_zero 2), if_pos (by rfl), orderedAtom,
      if_pos (by norm_num)]
    rfl
  rw [buildPredicate, if_neg (by simp [integerTable]), Draw.run, maxPredicateDepth, predicate,
    bind_ok hchance, if_pos rfl, hatom]
  rfl

theorem order_ne_empty : "order" ≠ "" := by
  decide

/-- A name that is a keyword is printed bare, and is not read as a column. -/
theorem not_always_unambiguous :
    ¬∀ (table : Table) (dialect : String) (draws : ℕ → ℕ) (printer : Printer),
      printerFor dialect = some printer →
        ∀ node, buildPredicate table dialect draws = .ok (some node) →
          ∃ text, printPredicate node dialect = some text ∧ Unambiguous dialect text node := by
  intro h
  obtain ⟨text, htext, hread, -⟩ :=
    h (integerTable "order" order_ne_empty) "postgres" (fun _ => 0) .portable rfl _
      (built_integerTable "order" order_ne_empty)
  have heq : text = "order IS NULL" := (Option.some.inj htext).symm
  have hlex : lex "order IS NULL".toList = [.clause "ORDER".toList, .is, .constant .null] := by
    decide +kernel
  have hnone : reread "postgres" "order IS NULL" = none := by
    rw [reread, hlex]
    rfl
  rw [heq, hnone] at hread
  cases hread

def jsonTable : Table where
  name := "t"
  columns := [⟨"a", { kind := .jsonb }, 1, true, a_ne_empty⟩]
  name_nonempty := t_ne_empty

/-- A literal that is a cast is not read where the grammar has no casts. -/
theorem not_always_unambiguous_words :
    ¬∀ (table : Table) (dialect : String) (draws : ℕ → ℕ) (printer : Printer),
      printerFor dialect = some printer → (∀ column ∈ table.columns, IsWord column.name) →
        ∀ node, buildPredicate table dialect draws = .ok (some node) →
          ∃ text, printPredicate node dialect = some text ∧ Unambiguous dialect text node := by
  intro h
  have hprinted : printed "mysql" (buildPredicate jsonTable "mysql"
      fun n => [0, 0, 3 * 2 ^ 51, 1].getD n 0) = some "a = '[]'::jsonb" := by
    decide +kernel
  obtain ⟨node, hbuilt, htext⟩ := exists_of_printed hprinted
  obtain ⟨text, htext', hread, -⟩ := h jsonTable "mysql" _ .mysql rfl (by decide +kernel) node hbuilt
  obtain rfl : "a = '[]'::jsonb" = text := Option.some.inj (htext.symm.trans htext')
  have hnone : (reread "mysql" "a = '[]'::jsonb").isNone = true := by
    decide +kernel
  rw [hread] at hnone
  cases hnone

end Printed

end EqGen.Generators.TypedPredicate.RoundTrip
