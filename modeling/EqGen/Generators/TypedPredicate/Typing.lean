import Mathlib.Data.List.Forall2
import EqGen.Generators.TypedPredicate.Build

/-! Typed predicates are well typed, whatever is drawn. -/

namespace EqGen.Generators.TypedPredicate.Typing

open EqGen.Core.Catalog
open EqGen.Core.Types
open EqGen.Generators.TypedPredicate.Build
open EqGen.Generators.TypedPredicate.Functions
open EqGen.Ir.Expr
open EqGen.Lib.Draws

/-- One family holds both types; two columns also agree by the rule of the dialect. -/
def Comparable (dialect : String) : Node → Node → Prop
  | .columnRef _ left _, .columnRef _ right _ =>
    sameFamily left right "" = true ∧ sameFamily left right dialect = true
  | left, right => sameFamily left.dataType right.dataType "" = true

/-- The text is a literal of the type, or a pattern. -/
def Spells (dtype : SqlType) (sql : String) : Prop :=
  .portableLiteral sql dtype ∈ literals dtype ∨
    isInstance dtype .varcharType = true ∧ sql ∈ likePatterns.map quote

/-- The types that functions declare. -/
def resultTypes : List SqlType :=
  [{ kind := .integer }, { kind := .boolean }, { kind := .varchar }, { kind := .double }]

/-- The type is that of a column or one that a function declares. -/
def Known (columns : List Column) (dtype : SqlType) : Prop :=
  (∃ column ∈ columns, column.dataType = dtype) ∨ dtype ∈ resultTypes

section Judgement

variable (columns : List Column) (catalog : List FuncSpec) (dialect : String)

inductive WellTyped : Node → Prop where
  | columnRef {column : Column} (h : column ∈ columns) :
      WellTyped (.columnRef column.name column.dataType none)
  | intLiteral (value : ℤ) : WellTyped (.intLiteral value)
  | portableLiteral {sql : String} {dtype : SqlType} (h : Spells dtype sql)
      (hknown : Known columns dtype) : WellTyped (.portableLiteral sql dtype)
  | comparison (operator : ComparisonOperator) {left right : Node} (hleft : WellTyped left)
      (hright : WellTyped right) (h : Comparable dialect left right) :
      WellTyped (.comparison operator left right)
  | boolOp (operator : BoolOperator) {left right : Node} (hleft : WellTyped left)
      (hright : WellTyped right) (h : left.dataType.kind = .boolean)
      (h' : right.dataType.kind = .boolean) : WellTyped (.boolOp operator left right)
  | not {operand : Node} (hoperand : WellTyped operand) (h : operand.dataType.kind = .boolean) :
      WellTyped (.not operand)
  | isNull (negated : Bool) {operand : Node} (hoperand : WellTyped operand) :
      WellTyped (.isNull operand negated)
  | mod {modulus : ℤ} {operand : Node} (hoperand : WellTyped operand)
      (h : isInstance operand.dataType .numericType = true)
      (hscale : operand.dataType.getScale.getD 0 = 0) (hmodulus : modulus ≠ 0) :
      WellTyped (.mod operand modulus)
  | funcCall {spec : FuncSpec} {args : List Node} {result : SqlType} (h : spec ∈ catalog)
      (hargs : ∀ arg ∈ args, WellTyped arg)
      (hmatches : spec.matches (args.map Node.dataType) = true)
      (hresult : spec.resultTypeFor (args.map Node.dataType) = some result) :
      WellTyped (.funcCall spec.sqlName args result)
  | isDistinctFrom (negated : Bool) {left right : Node} (hleft : WellTyped left)
      (hright : WellTyped right) (h : Comparable dialect left right) :
      WellTyped (.isDistinctFrom left right negated)
  | between (negated : Bool) {value low high : Node} (hvalue : WellTyped value)
      (hlow : WellTyped low) (hhigh : WellTyped high) (h : Comparable dialect value low)
      (h' : Comparable dialect value high) : WellTyped (.between value low high negated)
  | inList (negated : Bool) {value : Node} {items : List Node} (hvalue : WellTyped value)
      (hitems : ∀ item ∈ items, WellTyped item) (hne : items ≠ [])
      (h : ∀ item ∈ items, Comparable dialect value item) : WellTyped (.inList value items negated)
  | like (negated : Bool) {value pattern : Node} (hvalue : WellTyped value)
      (hpattern : WellTyped pattern) (h : isInstance value.dataType .varcharType = true)
      (h' : isInstance pattern.dataType .varcharType = true) :
      WellTyped (.like value pattern negated)

/-- Well typed, and a condition. -/
def Condition (node : Node) : Prop :=
  WellTyped columns catalog dialect node ∧ node.dataType.kind = .boolean

end Judgement

section Families

theorem sameFamily_self (dtype : SqlType) : sameFamily dtype dtype "" = true := by
  obtain ⟨kind, precision, scale⟩ := dtype
  cases kind <;> rfl

/-- The rule of a dialect is at least as strict as the portable one. -/
theorem sameFamily_portable {left right : SqlType} {dialect : String}
    (h : sameFamily left right dialect = true) : sameFamily left right "" = true := by
  unfold sameFamily at h
  split at h
  · obtain ⟨kind, precision, scale⟩ := left
    obtain ⟨kind', precision', scale'⟩ := right
    cases kind <;> cases kind' <;> first | rfl | exact absurd h (by simp [share,
      clickhouseFamilies, isInstance, SqlType.isNumericType, SqlType.isVarcharType,
      SqlType.isBooleanType])
  · simpa [sameFamily] using h

/-- What `_literal` may return for a type. -/
inductive LiteralOf (dtype : SqlType) : Node → Prop where
  | portable {sql : String} (h : .portableLiteral sql dtype ∈ literals dtype) :
      LiteralOf dtype (.portableLiteral sql dtype)
  | int (value : ℤ) (h : isInstance dtype .numericType = true) : LiteralOf dtype (.intLiteral value)

theorem literalOf_mem {dtype : SqlType} {node : Node} (h : node ∈ literals dtype) :
    LiteralOf dtype node := by
  have hnode := h
  unfold literals at hnode
  repeat' split at hnode
  all_goals
    obtain ⟨_, -, rfl⟩ := List.mem_map.mp hnode
    first | exact .portable h | exact .int _ ‹_›

theorem literals_ne_nil (dtype : SqlType) : literals dtype ≠ [] := by
  unfold literals
  repeat' split
  all_goals simp [strings]

variable {dtype : SqlType} {node : Node}

theorem LiteralOf.sameFamily (h : LiteralOf dtype node) :
    sameFamily dtype node.dataType "" = true := by
  cases h with
  | portable _ => exact sameFamily_self dtype
  | int value h =>
      obtain ⟨kind, precision, scale⟩ := dtype
      cases kind <;> first | rfl | cases h

/-- A literal belongs to every family of its type: an integer literal is only made for numbers. -/
theorem LiteralOf.isInstance {family : TypeClass} (h : LiteralOf dtype node)
    (hfamily : isInstance dtype family = true) : isInstance node.dataType family = true := by
  cases h with
  | portable _ => exact hfamily
  | int value h =>
      obtain ⟨kind, precision, scale⟩ := dtype
      cases kind <;> cases h <;> cases family <;> first | rfl | cases hfamily

end Families

section Generator

variable {columns : List Column} {catalog : List FuncSpec} {dialect : String}

theorem always_choice {α : Type} {options : List α} (h : options ≠ []) :
    Always (choice options) (· ∈ options) := by
  refine always_bind (always_pick h) fun a ha => ?_
  obtain ⟨b, hb, rfl⟩ := ha
  exact always_pure hb

theorem always_chance (p : ℚ) : Always (chance p) fun _ => True :=
  always_map (always_random.mono fun _ _ => trivial)

theorem always_literal (dtype : SqlType) : Always (literal dtype) (LiteralOf dtype) :=
  (always_choice (literals_ne_nil dtype)).mono fun _ => literalOf_mem

theorem Known.of_column {column : Column} (h : column ∈ columns) : Known columns column.dataType :=
  .inl ⟨column, h, rfl⟩

theorem LiteralOf.wellTyped {dtype : SqlType} {node : Node} (h : LiteralOf dtype node)
    (hknown : Known columns dtype) : WellTyped columns catalog dialect node := by
  cases h with
  | portable h => exact .portableLiteral (.inl h) hknown
  | int value h => exact .intLiteral value

theorem LiteralOf.known {dtype : SqlType} {node : Node} (h : LiteralOf dtype node)
    (hknown : Known columns dtype) : Known columns node.dataType := by
  cases h with
  | portable _ => exact hknown
  | int value _ => exact .inr (by simp [resultTypes, Node.dataType])

theorem LiteralOf.comparable (left : Node) {node : Node} (h : LiteralOf left.dataType node) :
    Comparable dialect left node := by
  have hfamily := h.sameFamily
  cases h <;> cases left <;> exact hfamily

theorem wellTyped_columnRef {column : Column} (h : column ∈ columns) :
    WellTyped columns catalog dialect (columnRef column) :=
  .columnRef h

theorem always_compare {left right : Node} (hleft : WellTyped columns catalog dialect left)
    (hright : WellTyped columns catalog dialect right) (h : Comparable dialect left right) :
    Always (compare left right) (Condition columns catalog dialect) := by
  refine always_map ((always_choice (by simp [comparisons])).mono fun operator _ => ?_)
  exact ⟨.comparison operator hleft hright h, rfl⟩

theorem mem_peers {name : String} {dtype : SqlType} {other : Column}
    (h : other ∈ peers columns name dtype dialect) :
    other ∈ columns ∧ sameFamily dtype other.dataType dialect = true := by
  simp only [peers, List.mem_filter, Bool.and_eq_true] at h
  exact ⟨h.1, h.2.2⟩

theorem comparable_columnRef {column other : Column}
    (h : sameFamily column.dataType other.dataType dialect = true) :
    Comparable dialect (columnRef column) (columnRef other) :=
  ⟨sameFamily_portable h, h⟩

variable (columns catalog dialect) in
theorem always_peerOrLiteral {column : Column} (hcolumn : column ∈ columns) :
    Always (peerOrLiteral columns column.name column.dataType dialect) fun node =>
      WellTyped columns catalog dialect node ∧ Comparable dialect (columnRef column) node := by
  refine always_otherwise (always_ite (fun _ => always_pure (by simp)) fun hne => ?_)
    ((always_literal column.dataType).mono fun node h =>
      ⟨h.wellTyped (.of_column hcolumn), LiteralOf.comparable (columnRef column) h⟩)
  refine always_bind (always_chance _) fun _ _ => always_ite (fun _ => ?_)
    fun _ => always_pure (by simp)
  refine always_map ((always_choice hne).mono fun other hother => ?_)
  obtain ⟨hmem, hfamily⟩ := mem_peers hother
  rintro _ ⟨⟩
  exact ⟨wellTyped_columnRef hmem, comparable_columnRef hfamily⟩

variable (columns catalog dialect) in
theorem always_funcArg (first : Bool) {family : TypeClass} (h : candidates columns family ≠ []) :
    Always (funcArg columns first family) fun node =>
      WellTyped columns catalog dialect node ∧ isInstance node.dataType family = true ∧
        Known columns node.dataType := by
  have hcandidate (column : Column) (h : column ∈ candidates columns family) :
      column ∈ columns ∧ isInstance column.dataType family = true := List.mem_filter.mp h
  have hfirst : Always (takesColumn first) fun _ => True :=
    always_ite (fun _ => always_pure trivial) fun _ => always_chance _
  refine always_bind hfirst fun fromColumn _ => ?_
  refine always_ite (fun _ => ?_) fun _ => ?_
  · refine always_map ((always_choice h).mono fun column hcolumn => ?_)
    obtain ⟨hmem, hfamily⟩ := hcandidate column hcolumn
    exact ⟨wellTyped_columnRef hmem, hfamily, .of_column hmem⟩
  · refine always_bind (always_choice h) fun column hcolumn => ?_
    refine (always_literal column.dataType).mono fun node hnode => ?_
    obtain ⟨hmem, hfamily⟩ := hcandidate column hcolumn
    exact ⟨hnode.wellTyped (.of_column hmem), hnode.isInstance hfamily,
      hnode.known (.of_column hmem)⟩

/-- The arguments are of the families that the function declares. -/
def ArgsFit (columns : List Column) (catalog : List FuncSpec) (dialect : String)
    (args : List Node) (families : List TypeClass) : Prop :=
  List.Forall₂ (fun arg family => WellTyped columns catalog dialect arg ∧
    isInstance arg.dataType family = true ∧ Known columns arg.dataType) args families

variable (columns catalog dialect) in
theorem always_pickFuncArgs (families : List TypeClass) (first : Bool) :
    Always (pickFuncArgs columns first families) fun picked =>
      ∀ args ∈ picked, ArgsFit columns catalog dialect args families := by
  induction families generalizing first with
  | nil =>
      refine always_pure fun args hargs => ?_
      rw [← Option.some.inj hargs]
      exact .nil
  | cons family families ih =>
      refine always_ite (fun _ => always_pure (by simp)) fun hne => ?_
      refine always_bind (always_funcArg columns catalog dialect first hne) fun arg harg => ?_
      refine always_map ((ih false).mono fun picked hpicked args hargs => ?_)
      obtain ⟨rest, hrest, rfl⟩ := Option.map_eq_some_iff.mp hargs
      exact .cons harg (hpicked rest hrest)

theorem ArgsFit.matches {spec : FuncSpec} {args : List Node}
    (h : ArgsFit columns catalog dialect args spec.argFamilies) :
    spec.matches (args.map Node.dataType) = true := by
  unfold ArgsFit at h
  unfold FuncSpec.matches
  generalize spec.argFamilies = families at h ⊢
  induction h with
  | nil => rfl
  | cons harg _ ih =>
      simp only [Bool.and_eq_true, decide_eq_true_eq] at ih
      simp [ih, harg.2.1]

theorem ArgsFit.wellTyped {families : List TypeClass} {args : List Node}
    (h : ArgsFit columns catalog dialect args families) :
    ∀ arg ∈ args, WellTyped columns catalog dialect arg := by
  induction h with
  | nil => simp
  | cons harg _ ih => exact List.forall_mem_cons.mpr ⟨harg.1, ih⟩

def catalogs : List (List FuncSpec) :=
  [pgFuncs, duckdbFuncs, sqliteFuncs, clickhouseFuncs, mysqlFuncs]

theorem mem_catalogs (h : catalogFor dialect = some catalog) : catalog ∈ catalogs := by
  unfold catalogFor at h
  repeat' split at h
  all_goals
    cases h
    try simp [catalogs]

/-- Every listed function takes arguments, and its result is of a type that can be told. -/
theorem supported_catalog (h : catalogFor dialect = some catalog) :
    ∀ spec ∈ catalog, spec.argFamilies ≠ [] ∧ ∀ argType argTypes, ∃ result,
      spec.resultTypeFor (argType :: argTypes) = some result ∧
        (result = argType ∨ result ∈ resultTypes) := by
  have hall : ∀ funcs ∈ catalogs, ∀ spec ∈ funcs,
      spec.argFamilies ≠ [] ∧ spec.result ∈
        [.arg0, .ofClass .integerType, .ofClass .booleanType, .ofClass .varcharType,
          .ofClass .doubleType] := by
    decide
  intro spec hspec
  obtain ⟨hargs, hresult⟩ := hall catalog (mem_catalogs h) spec hspec
  refine ⟨hargs, fun argType argTypes => ?_⟩
  unfold FuncSpec.resultTypeFor
  simp only [List.mem_cons, List.not_mem_nil, or_false] at hresult
  rcases hresult with hresult | hresult | hresult | hresult | hresult <;> rw [hresult]
  · exact ⟨argType, rfl, .inl rfl⟩
  all_goals exact ⟨_, rfl, .inr (by decide)⟩

theorem always_funcAtomOf (hcatalog : catalogFor dialect = some catalog) {spec : FuncSpec}
    (hspec : spec ∈ catalog) {args : List Node}
    (hargs : ArgsFit columns catalog dialect args spec.argFamilies) :
    Always (funcAtomOf spec args) (Condition columns catalog dialect) := by
  obtain ⟨hne, hresult⟩ := supported_catalog hcatalog spec hspec
  have hargsne : args ≠ [] := by
    intro hnil
    rw [hnil] at hargs
    exact hne (List.forall₂_nil_left_iff.mp hargs)
  obtain ⟨arg, rest, rfl⟩ := List.exists_cons_of_ne_nil hargsne
  obtain ⟨result, hresult, htype⟩ := hresult arg.dataType (rest.map Node.dataType)
  obtain ⟨_, _, ⟨-, -, harg⟩, -⟩ := List.forall₂_cons_left_iff.mp hargs
  have hknown : Known columns result := htype.elim (fun h => h ▸ harg) .inr
  have hcall : WellTyped columns catalog dialect (.funcCall spec.sqlName (arg :: rest) result) :=
    .funcCall hspec hargs.wellTyped hargs.matches hresult
  unfold funcAtomOf
  simp only [List.map_cons, hresult, funcCall, reduceCtorEq, if_false]
  refine always_bind (always_pure (P := fun call => call = .funcCall spec.sqlName (arg :: rest)
    result) rfl) fun call heq => ?_
  subst heq
  refine always_ite (fun hboolean => always_pure ⟨hcall, of_decide_eq_true hboolean⟩) fun _ => ?_
  refine always_bind (always_literal result) fun node hnode => ?_
  exact always_compare hcall (hnode.wellTyped hknown) (LiteralOf.comparable _ hnode)

theorem always_funcAtom (hcatalog : catalogFor dialect = some catalog) :
    Always (funcAtom columns dialect) fun atom =>
      ∀ node ∈ atom, Condition columns catalog dialect node := by
  unfold funcAtom
  rw [hcatalog]
  refine always_ite (fun _ => always_pure (by simp)) fun hne => ?_
  refine always_bind (always_choice hne) fun spec hspec => ?_
  refine always_bind (always_pickFuncArgs columns catalog dialect spec.argFamilies true)
    fun picked hpicked => ?_
  cases picked with
  | none => exact always_pure (by simp)
  | some args =>
      refine always_map ((always_funcAtomOf hcatalog (List.mem_filter.mp hspec).1
        (hpicked args rfl)).mono fun node hnode other hother => ?_)
      rwa [← Option.some.inj hother]

section Atoms

variable {column : Column} {drawn : ℚ}

/-- The shape is a condition where it fits at all. -/
def Fits (columns : List Column) (catalog : List FuncSpec) (dialect : String)
    (shape : Gen (Option Node)) : Prop :=
  Always shape fun atom => ∀ node ∈ atom, Condition columns catalog dialect node

theorem always_some {m : Gen Node} (h : Always m (Condition columns catalog dialect)) :
    Fits columns catalog dialect (do return some (← m)) := by
  refine always_map (h.mono fun node hnode other hother => ?_)
  rwa [← Option.some.inj hother]

theorem fits_none : Fits columns catalog dialect (return none) :=
  always_pure (by simp)

theorem always_unorderedAtom (h : column ∈ columns) :
    Always (unorderedAtom column drawn) (Condition columns catalog dialect) := by
  refine always_ite (fun _ => always_pure ⟨.isNull _ (.columnRef h), rfl⟩) fun _ => ?_
  refine always_ite (fun _ => always_pure ⟨.isNull _ (.columnRef h), rfl⟩) fun _ => ?_
  refine always_map ((always_literal column.dataType).mono fun node hnode => ?_)
  exact ⟨.comparison _ (.columnRef h) (hnode.wellTyped (.of_column h))
    (LiteralOf.comparable (columnRef column) hnode), rfl⟩

theorem fits_distinctAtom (h : column ∈ columns) :
    Fits columns catalog dialect (distinctAtom columns dialect column drawn) := by
  refine always_ite (fun _ => ?_) fun _ => fits_none
  refine always_bind (always_peerOrLiteral columns catalog dialect h) fun other hother => ?_
  refine always_bind (always_chance _) fun negated _ => always_pure ?_
  rintro _ ⟨⟩
  exact ⟨.isDistinctFrom _ (.columnRef h) hother.1 hother.2, rfl⟩

theorem fits_betweenAtom (h : column ∈ columns) :
    Fits columns catalog dialect (betweenAtom column drawn) := by
  refine always_ite (fun _ => ?_) fun _ => fits_none
  refine always_bind (always_literal column.dataType) fun low hlow => ?_
  refine always_bind (always_literal column.dataType) fun high hhigh => ?_
  refine always_bind (always_chance _) fun negated _ => always_pure ?_
  rintro _ ⟨⟩
  exact ⟨.between _ (.columnRef h) (hlow.wellTyped (.of_column h))
    (hhigh.wellTyped (.of_column h))
    (LiteralOf.comparable (columnRef column) hlow)
    (LiteralOf.comparable (columnRef column) hhigh), rfl⟩

theorem fits_inAtom (h : column ∈ columns) :
    Fits columns catalog dialect (inAtom dialect column drawn) := by
  refine always_ite (fun _ => ?_) fun _ => fits_none
  refine always_bind (always_between 1 3) fun n hn => ?_
  refine always_bind (always_times (always_literal column.dataType) n) fun items hitems => ?_
  have hne : items ≠ [] := List.ne_nil_of_length_pos (by omega)
  refine always_bind (always_chance _) fun negated _ => always_some ?_
  rw [inList, if_neg hne]
  refine always_pure ⟨.inList _ (.columnRef h) (fun item hitem => ?_) hne fun item hitem => ?_, rfl⟩
  · exact (hitems.2 item hitem).wellTyped (.of_column h)
  · exact LiteralOf.comparable (columnRef column) (hitems.2 item hitem)

theorem fits_likeAtom (h : column ∈ columns) :
    Fits columns catalog dialect (likeAtom column drawn) := by
  refine always_ite (fun hvarchar => ?_) fun _ => fits_none
  refine always_bind (always_choice (by simp [likePatterns])) fun pattern hpattern => ?_
  refine always_bind (always_chance _) fun negated _ => always_pure ?_
  rintro _ ⟨⟩
  have hspells : Spells column.dataType (quote pattern) :=
    .inr ⟨hvarchar.2, List.mem_map_of_mem hpattern⟩
  exact ⟨.like _ (.columnRef h) (.portableLiteral hspells (.of_column h)) hvarchar.2 hvarchar.2,
    rfl⟩

theorem fits_catalogAtom (hcatalog : catalogFor dialect = some catalog) :
    Fits columns catalog dialect (catalogAtom columns dialect drawn) :=
  always_ite (fun _ => always_funcAtom hcatalog) fun _ => fits_none

theorem fits_peerAtom (h : column ∈ columns) :
    Fits columns catalog dialect (peerAtom columns dialect column drawn) := by
  refine always_ite (fun hpeers => ?_) fun _ => fits_none
  refine always_bind (always_choice hpeers.2) fun other hother => always_some ?_
  obtain ⟨hmem, hfamily⟩ := mem_peers hother
  exact always_compare (.columnRef h) (.columnRef hmem) (comparable_columnRef hfamily)

theorem fits_modAtom (h : column ∈ columns) :
    Fits columns catalog dialect (modAtom column drawn) := by
  refine always_ite (fun hmod => ?_) fun _ => fits_none
  obtain ⟨-, hnumeric, -, hscale⟩ := hmod
  refine always_bind (always_choice (by simp)) fun parity _ => always_some ?_
  have hliteral : LiteralOf column.dataType (.intLiteral parity) := .int parity hnumeric
  exact always_compare (.mod (.columnRef h) hnumeric hscale (by decide)) (.intLiteral parity)
    (LiteralOf.comparable (.mod (columnRef column) 2) hliteral)

theorem always_literalAtom (h : column ∈ columns) :
    Always (literalAtom column) (Condition columns catalog dialect) :=
  always_bind (always_literal column.dataType) fun _ hnode =>
    always_compare (.columnRef h) (hnode.wellTyped (.of_column h))
      (LiteralOf.comparable (columnRef column) hnode)

theorem always_orderedAtom (hcatalog : catalogFor dialect = some catalog) (h : column ∈ columns) :
    Always (orderedAtom columns dialect column drawn) (Condition columns catalog dialect) := by
  refine always_ite (fun _ => always_pure ⟨.isNull _ (.columnRef h), rfl⟩) fun _ => ?_
  refine always_ite (fun _ => always_pure ⟨.isNull _ (.columnRef h), rfl⟩) fun _ => ?_
  apply always_otherwise (fits_distinctAtom h)
  apply always_otherwise (fits_betweenAtom h)
  apply always_otherwise (fits_inAtom h)
  apply always_otherwise (fits_likeAtom h)
  apply always_otherwise (fits_catalogAtom hcatalog)
  apply always_otherwise (fits_peerAtom h)
  exact always_otherwise (fits_modAtom h) (always_literalAtom h)

theorem always_atom (hcatalog : catalogFor dialect = some catalog) (hne : columns ≠ []) :
    Always (atom columns dialect) (Condition columns catalog dialect) := by
  refine always_bind (always_choice hne) fun column hcolumn => ?_
  refine always_bind always_random fun drawn _ => ?_
  exact always_ite (fun _ => always_orderedAtom hcatalog hcolumn)
    fun _ => always_unorderedAtom hcolumn

theorem always_predicate (hcatalog : catalogFor dialect = some catalog) (hne : columns ≠ [])
    (left : ℕ) : Always (predicate columns dialect left) (Condition columns catalog dialect) := by
  induction left with
  | zero => exact always_atom hcatalog hne
  | succ left ih =>
      refine always_bind (always_chance _) fun leaf _ => ?_
      refine always_ite (fun _ => always_atom hcatalog hne) fun _ => ?_
      refine always_bind (always_chance _) fun negate _ => always_ite (fun _ => ?_) fun _ => ?_
      · exact always_map (ih.mono fun node h => ⟨.not h.1 h.2, rfl⟩)
      · refine always_bind ih fun first hfirst => always_bind ih fun second hsecond => ?_
        refine always_bind (always_chance _) fun _ _ => always_ite (fun _ => ?_) fun _ => ?_
        · exact always_pure ⟨.boolOp .and hfirst.1 hsecond.1 hfirst.2 hsecond.2, rfl⟩
        · exact always_pure ⟨.boolOp .or hfirst.1 hsecond.1 hfirst.2 hsecond.2, rfl⟩

end Atoms

end Generator

/-- The functions that a call may name: none where the dialect has no catalog. -/
def functions (dialect : String) : List FuncSpec :=
  (catalogFor dialect).getD []

section Built

variable {columns : List Column} {dialect : String} {column : Column} {drawn : ℚ}

theorem functions_of_catalogFor {catalog : List FuncSpec}
    (h : catalogFor dialect = some catalog) : functions dialect = catalog := by
  rw [functions, h, Option.getD_some]

/-- Without a catalog the draw raises, and nothing else depends on the catalog. -/
theorem yields_catalogAtom : Yields (catalogAtom columns dialect drawn) fun atom =>
    ∀ node ∈ atom, Condition columns (functions dialect) dialect node := by
  cases hcatalog : catalogFor dialect with
  | some catalog =>
      rw [functions_of_catalogFor hcatalog]
      exact (fits_catalogAtom hcatalog).yields
  | none =>
      refine yields_ite (fun _ => ?_) fun _ => fits_none.yields
      unfold funcAtom
      rw [hcatalog]
      exact yields_raise _

theorem yields_orderedAtom (h : column ∈ columns) :
    Yields (orderedAtom columns dialect column drawn)
      (Condition columns (functions dialect) dialect) := by
  refine yields_ite (fun _ => (always_pure ⟨.isNull _ (.columnRef h), rfl⟩).yields) fun _ => ?_
  refine yields_ite (fun _ => (always_pure ⟨.isNull _ (.columnRef h), rfl⟩).yields) fun _ => ?_
  apply yields_otherwise (fits_distinctAtom h).yields
  apply yields_otherwise (fits_betweenAtom h).yields
  apply yields_otherwise (fits_inAtom h).yields
  apply yields_otherwise (fits_likeAtom h).yields
  apply yields_otherwise yields_catalogAtom
  apply yields_otherwise (fits_peerAtom h).yields
  exact yields_otherwise (fits_modAtom h).yields (always_literalAtom h).yields

theorem yields_atom (hne : columns ≠ []) :
    Yields (atom columns dialect) (Condition columns (functions dialect) dialect) := by
  refine yields_bind (always_choice hne).yields fun column hcolumn => ?_
  refine yields_bind always_random.yields fun drawn _ => ?_
  exact yields_ite (fun _ => yields_orderedAtom hcolumn)
    fun _ => (always_unorderedAtom hcolumn).yields

theorem yields_predicate (hne : columns ≠ []) (left : ℕ) :
    Yields (predicate columns dialect left)
      (Condition columns (functions dialect) dialect) := by
  induction left with
  | zero => exact yields_atom hne
  | succ left ih =>
      refine yields_bind (always_chance _).yields fun leaf _ => ?_
      refine yields_ite (fun _ => yields_atom hne) fun _ => ?_
      refine yields_bind (always_chance _).yields fun negate _ =>
        yields_ite (fun _ => ?_) fun _ => ?_
      · refine yields_bind ih fun node h => (always_pure ?_).yields
        exact ⟨.not h.1 h.2, rfl⟩
      · refine yields_bind ih fun first hfirst => yields_bind ih fun second hsecond => ?_
        refine yields_bind (always_chance _).yields fun _ _ =>
          yields_ite (fun _ => ?_) fun _ => ?_
        · exact (always_pure
            ⟨.boolOp .and hfirst.1 hsecond.1 hfirst.2 hsecond.2, rfl⟩).yields
        · exact (always_pure
            ⟨.boolOp .or hfirst.1 hsecond.1 hfirst.2 hsecond.2, rfl⟩).yields

/-- Whatever is built at all is a well typed condition, also without a catalog. -/
theorem condition_of_built {table : Table} {draws : ℕ → ℕ} {node : Node}
    (h : buildPredicate table dialect draws = .ok (some node)) :
    Condition table.columns (functions dialect) dialect node := by
  unfold buildPredicate at h
  split at h
  · cases h
  · next hne =>
      obtain ⟨built, hrun, heq⟩ := map_eq_ok h
      cases heq
      exact (yields_predicate hne maxPredicateDepth).run hrun

end Built

/--
For every table, seed and dialect with a catalog, a predicate is built unless the table has no
columns, and it is a well typed condition.
-/
theorem wellTyped_buildPredicate (table : Table) (dialect : String) (catalog : List FuncSpec)
    (draws : ℕ → ℕ) (hcatalog : catalogFor dialect = some catalog) :
    ∃ built, buildPredicate table dialect draws = .ok built ∧
      (built = none ↔ table.columns = []) ∧
        ∀ node ∈ built, Condition table.columns catalog dialect node := by
  unfold buildPredicate
  by_cases hne : table.columns = []
  · exact ⟨none, if_pos hne, by simp [hne], by simp⟩
  · obtain ⟨node, hrun, hnode⟩ := (always_predicate hcatalog hne maxPredicateDepth).run draws
    refine ⟨some node, by rw [if_neg hne, hrun]; rfl, by simp [hne], fun other hother => ?_⟩
    rwa [← Option.some.inj hother]

theorem b_ne_empty : "b" ≠ "" := by
  decide

def sampleTable : Table where
  name := "t"
  columns := [⟨"a", { kind := .integer }, 1, true, a_ne_empty⟩,
    ⟨"b", { kind := .varchar }, 2, true, b_ne_empty⟩]
  name_nonempty := t_ne_empty

/-- Where a chance is taken, a number is a fraction of `2 ^ 53`. -/
def sampleDraws (n : ℕ) : ℕ :=
  -- a conjunction: of the negation of a `BETWEEN`
  [2 ^ 52, 2 ^ 52, 2 ^ 52, 2 ^ 50, 0, 5 * 2 ^ 49, 1, 3, 2 ^ 52,
    -- and of a disjunction: of a `NOT LIKE` and an `IN`
    2 ^ 52, 2 ^ 52, 1, 2 ^ 52, 1, 0, 0, 3 * 2 ^ 50, 1, 2, 6, 2 ^ 52, 2 ^ 52].getD n 0

/-- The two sides, where a conjunction was built. -/
def conjuncts : Except BuildError (Option Node) → Option (Node × Node)
  | .ok (some (.boolOp .and left right)) => some (left, right)
  | _ => none

theorem exists_of_conjuncts {built : Except BuildError (Option Node)}
    (h : (conjuncts built).isSome = true) :
    ∃ left right, built = .ok (some (.boolOp .and left right)) := by
  unfold conjuncts at h
  split at h
  · exact ⟨_, _, rfl⟩
  · cases h

theorem wellTyped_buildPredicate_sampleTable :
    ∃ left right,
      buildPredicate sampleTable "duckdb" sampleDraws = .ok (some (.boolOp .and left right)) ∧
        Condition sampleTable.columns duckdbFuncs "duckdb" (.boolOp .and left right) := by
  have hconjuncts : (conjuncts (buildPredicate sampleTable "duckdb" sampleDraws)).isSome = true := by
    decide +kernel
  obtain ⟨left, right, hrun⟩ := exists_of_conjuncts hconjuncts
  obtain ⟨built, hbuilt, -, hcondition⟩ :=
    wellTyped_buildPredicate sampleTable "duckdb" duckdbFuncs sampleDraws rfl
  obtain rfl : some (.boolOp .and left right) = built := Except.ok.inj (hrun.symm.trans hbuilt)
  exact ⟨left, right, hrun, hcondition _ rfl⟩

end EqGen.Generators.TypedPredicate.Typing
