import EqGen.Builder.Lockstep
import EqGen.Equivalence.Renaming

/-!
The steps of a generation, run once with fresh name counters and once with counters that are
ahead: they end alike up to the renaming that shifts the numbers.
-/

namespace EqGen.Equivalence.Renamed

open EqGen.Builder.Context
open EqGen.Builder.Lockstep
open EqGen.Core.Catalog
open EqGen.Core.Types
open EqGen.Equivalence.Ast
open EqGen.Equivalence.Builders.Base
open EqGen.Equivalence.Builders.Creates
open EqGen.Equivalence.Builders.Joins
open EqGen.Equivalence.Context
open EqGen.Equivalence.Renaming
open EqGen.Ir.Expr hiding ExpressionNode
open EqGen.Lib.Backtrack
open EqGen.Lib.Coupling
open EqGen.Lib.Dag
open EqGen.Lib.Dag.Node

/-- The name that a stem gets with a number. -/
def numbered (stem : String) (n : Nat) : String :=
  stem ++ "_" ++ toString n

/-- What the names of objects and of common table expressions are minted of. -/
def objectStems (table : Table) : List String :=
  ["_view", "_table", "_cte", "_mcte", "_nmcte"].map (table.name ++ ·)

/-- A view or a table of its own has a name of one of them. -/
theorem mem_objectStems {table : Table} {kind : String} (hkind : kind = "view" ∨ kind = "table") :
    table.name ++ "_" ++ kind ∈ objectStems table := by
  have hstem : table.name ++ "_" ++ kind = table.name ++ ("_" ++ kind) := String.append_assoc
  rw [hstem]
  refine List.mem_map_of_mem ?_
  rcases hkind with rfl | rfl <;> decide

/-- What the names of columns are minted of. -/
def columnStems : List String :=
  ["eq_tmp_col", "eq_uid", "eq_flag", "eq_seq", "eq_xj", "eq_sj", "eq_tag", "eq_key", "eq_rank",
    "eq_dg", "eq_dd"]

/-- What the portable builders mint names of. -/
def portableStems (table : Table) : List String :=
  objectStems table ++ columnStems

/-- The second state is the first, its name counters ahead; names were only minted of the stems. -/
structure Ahead (ahead : String → Nat) (stems : List String) (s t : GenerationState) : Prop where
  build : t.toBuildState = s.toBuildState
  origin : t.predicateOrigin = s.predicateOrigin
  counters : ∀ stem, t.objectCounters stem = s.objectCounters stem + ahead stem
  listed : ∀ stem, s.objectCounters stem ≠ 0 → stem ∈ stems

/-- The renaming shifts the numbers of minted names, and keeps every other name. -/
structure Shifts (ρ : String → String) (ahead : String → Nat) (stems : List String)
    (context : EquivalenceContext) : Prop extends Keeps ρ context where
  numbered : ∀ stem n, ρ (numbered stem n) = numbered stem (n + ahead stem)
  minted : ∀ stem ∈ portableStems context.baseTable, stem ∈ stems

/-- A node and the node of the other run. -/
def Twins (ρ : String → String) (context : EquivalenceContext) (node node' : EqNode) : Prop :=
  node' = renameNode ρ node ∧ Own context node

variable {ρ : String → String} {ahead : String → Nat} {stems : List String}
variable {context : EquivalenceContext}

theorem sameBuild_ahead : SameBuild (Ahead ahead stems) where
  same h := h.build.symm
  set _ h := ⟨rfl, h.origin, h.counters, h.listed⟩

section Draws

theorem couples_draw : Couples (Ahead ahead stems) Eq (draw context) (draw context) := by
  intro s t h
  have hdrawn : t.drawn = s.drawn := congrArg BuildState.drawn h.build
  unfold draw
  rw [hdrawn]
  refine .done rfl ⟨?_, h.origin, h.counters, h.listed⟩
  show { t.toBuildState with drawn := s.drawn + 1 } = { s.toBuildState with drawn := s.drawn + 1 }
  rw [h.build]

theorem couples_chooseOne {α : Type} (choices : Choices α) :
    Couples (Ahead ahead stems) Eq (chooseOne context choices) (chooseOne context choices) := by
  refine (Couples.require Iff.rfl _).bind fun _ _ _ => ?_
  refine (Couples.require Iff.rfl _).bind fun _ _ _ => ?_
  refine couples_draw.bind ?_
  rintro drawn _ rfl
  cases choices.pick drawn with
  | none => exact .raise _
  | some value => exact .pure rfl

theorem couples_randomChoice {α : Type} (items : List α) :
    Couples (Ahead ahead stems) (fun a b => a = b ∧ a ∈ items) (randomChoice context items)
      (randomChoice context items) := by
  refine couples_draw.bind ?_
  rintro drawn _ rfl
  cases hitem : items[drawn % items.length]? with
  | none => exact .raise _
  | some item => exact .pure ⟨rfl, List.mem_of_getElem? hitem⟩

theorem couples_noteOrigin (origin : String) :
    Couples (Ahead ahead stems) Eq (noteOrigin origin) (noteOrigin origin) := by
  intro s t h
  refine .done rfl ⟨h.build, ?_, h.counters, h.listed⟩
  show origin ::ₘ t.predicateOrigin = origin ::ₘ s.predicateOrigin
  rw [h.origin]

theorem couples_askPredicate (source : PredicateSource) :
    Couples (Ahead ahead stems) Eq (askPredicate context source) (askPredicate context source) := by
  intro s t h
  have hdrawn : t.drawn = s.drawn := congrArg BuildState.drawn h.build
  unfold askPredicate
  rw [hdrawn]
  refine .done rfl ⟨?_, h.origin, h.counters, h.listed⟩
  show { t.toBuildState with drawn := s.drawn + 1 } = { s.toBuildState with drawn := s.drawn + 1 }
  rw [h.build]

theorem couples_selectKey {α : Type} (candidates : List α) :
    Couples (Ahead ahead stems) (fun a b => a = b ∧ a ∈ candidates) (selectKey context candidates)
      (selectKey context candidates) := by
  refine (couples_chooseOne _).bind ?_
  rintro strategy _ rfl
  split
  · exact couples_randomChoice candidates
  · cases candidates with
    | nil => exact .raise _
    | cons first rest => exact .pure ⟨rfl, List.mem_cons_self⟩

end Draws

section Names

variable (hρ : Shifts ρ ahead stems context)

include hρ

theorem couples_generateObjectName {stem : String} (hstem : stem ∈ stems) :
    Couples (Ahead ahead stems) (Mapped ρ) (generateObjectName stem) (generateObjectName stem) := by
  intro s t h
  have hcount : t.objectCounters stem + 1 = s.objectCounters stem + 1 + ahead stem := by
    rw [h.counters stem]
    omega
  refine .done ?_ ⟨h.build, h.origin, fun other => ?_, fun other hother => ?_⟩
  · show numbered stem (t.objectCounters stem + 1) = ρ (numbered stem (s.objectCounters stem + 1))
    rw [hρ.numbered, hcount]
  · show Function.update t.objectCounters stem (t.objectCounters stem + 1) other =
      Function.update s.objectCounters stem (s.objectCounters stem + 1) other + ahead other
    by_cases heq : other = stem
    · subst heq
      rw [Function.update_self, Function.update_self, hcount]
    · rw [Function.update_of_ne heq, Function.update_of_ne heq, h.counters other]
  · change Function.update s.objectCounters stem (s.objectCounters stem + 1) other ≠ 0 at hother
    by_cases heq : other = stem
    · exact heq ▸ hstem
    · rw [Function.update_of_ne heq] at hother
      exact h.listed other hother

theorem couples_columnName {stem : String} (hstem : stem ∈ portableStems context.baseTable) :
    Couples (Ahead ahead stems) (Mapped ρ) (generateColumnName stem) (generateColumnName stem) :=
  couples_generateObjectName hρ (hρ.minted stem hstem)

theorem couples_mint {kind : String} (hkind : kind = "view" ∨ kind = "table") :
    Couples (Ahead ahead stems) (Mapped ρ) (mint context kind) (mint context kind) := by
  exact couples_generateObjectName hρ
    (hρ.minted _ (List.mem_append_left _ (mem_objectStems hkind)))

theorem eq_empty_iff (name : String) : ρ name = "" ↔ name = "" := by
  have hempty : ρ "" = "" := hρ.short "" (by simp)
  constructor
  · intro h
    exact hρ.injective (h.trans hempty.symm)
  · rintro rfl
    exact hempty

theorem couples_exposedOrMinted {kind : String} (hkind : kind = "view" ∨ kind = "table")
    (exposedName : Option String) :
    Couples (Ahead ahead stems) (Mapped ρ) (exposedOrMinted context kind exposedName)
      (exposedOrMinted context kind (exposedName.map ρ)) := by
  cases exposedName with
  | none => exact couples_mint hρ hkind
  | some name =>
      by_cases hempty : name = ""
      · subst hempty
        rw [Option.map_some, (eq_empty_iff hρ "").mpr rfl, exposedOrMinted, if_pos rfl]
        exact couples_mint hρ hkind
      · rw [Option.map_some, exposedOrMinted, exposedOrMinted, if_neg hempty,
          if_neg (mt (eq_empty_iff hρ name).mp hempty)]
        exact .pure rfl

end Names

section Nodes

variable (hρ : Shifts ρ ahead stems context)

theorem couples_newNode {label label' : Label} {inputs inputs' : List EqNode}
    (hlabel : label' = renameLabel ρ label) (hinputs : inputs' = inputs.map (renameNode ρ))
    (hown : ∀ table, label = .baseTableSource table → table = context.baseTable) :
    Couples (Ahead ahead stems) (Twins ρ context) (newNode label inputs)
      (newNode label' inputs') := by
  intro s t h
  have hcreated : t.created = s.created := congrArg BuildState.created h.build
  refine .done ⟨?_, hown⟩ ⟨?_, h.origin, h.counters, h.listed⟩
  · show Node.mk t.created label' inputs' = renameNode ρ (.mk s.created label inputs)
    rw [hcreated, hlabel, hinputs, renameNode, map_mk]
    rfl
  · show { t.toBuildState with created := t.created + 1 } =
      { s.toBuildState with created := s.created + 1 }
    rw [h.build]

include hρ

theorem couples_newQuery {shape shape' : QueryShape} {sources sources' : List EqNode}
    (hshape : shape' = renameShape ρ shape)
    (hsources : List.Forall₂ (Twins ρ context) sources sources') :
    Couples (Ahead ahead stems) (Twins ρ context) (newQuery shape sources)
      (newQuery shape' sources') := by
  have hmap : sources' = sources.map (renameNode ρ) := by
    induction hsources with
    | nil => rfl
    | cons h _ ih => rw [List.map_cons, h.1, ih]
  have hown : ∀ node ∈ sources, Own context node := by
    clear hmap
    induction hsources with
    | nil => simp
    | cons h _ ih => exact List.forall_mem_cons.mpr ⟨h.2, ih⟩
  subst hmap hshape
  refine couples_newNode ?_ rfl nofun
  rw [queryOver_rename hρ.toKeeps shape hown]
  rfl

theorem couples_selectQuery {source source' : EqNode} (hsource : Twins ρ context source source')
    {query query' : SelectQuery} (hquery : query' = renameSelect ρ query) :
    Couples (Ahead ahead stems) (Twins ρ context) (selectQuery source query)
      (selectQuery source' query') :=
  couples_newQuery hρ (by rw [hquery]; rfl) (.cons hsource .nil)

theorem couples_unionAllQuery {branches branches' : List EqNode}
    (h : List.Forall₂ (Twins ρ context) branches branches') :
    Couples (Ahead ahead stems) (Twins ρ context) (unionAllQuery branches)
      (unionAllQuery branches') := by
  refine (Couples.require (by rw [h.length_eq]) _).bind fun _ _ _ => ?_
  exact couples_newQuery hρ rfl h

theorem couples_createAsSelect (relationClass : RelationClass) (kind : ObjectKind)
    (keyword : String) {label : String} (hlabel : label = "view" ∨ label = "table")
    {query query' : EqNode} (hquery : Twins ρ context query query') (exposedName : Option String) :
    Couples (Ahead ahead stems) (Twins ρ context)
      (createAsSelect context relationClass kind keyword label query exposedName)
      (createAsSelect context relationClass kind keyword label query' (exposedName.map ρ)) := by
  refine (couples_exposedOrMinted hρ hlabel exposedName).bind ?_
  rintro name _ rfl
  obtain ⟨rfl, hown⟩ := hquery
  refine couples_newNode ?_ rfl nofun
  rw [queryOf_renameNode, getSignature_renameNode hρ.toKeeps hown]
  rfl

theorem couples_createView {query query' : EqNode} (hquery : Twins ρ context query query')
    (exposedName : Option String) :
    Couples (Ahead ahead stems) (Twins ρ context) (createView context query exposedName)
      (createView context query' (exposedName.map ρ)) :=
  couples_createAsSelect hρ _ _ _ (.inl rfl) hquery exposedName

theorem couples_createTable {query query' : EqNode} (hquery : Twins ρ context query query')
    (exposedName : Option String) :
    Couples (Ahead ahead stems) (Twins ρ context) (createTable context query exposedName)
      (createTable context query' (exposedName.map ρ)) :=
  couples_createAsSelect hρ _ _ _ (.inr rfl) hquery exposedName

end Nodes

section Predicates

variable (ρ) in
theorem couples_generatedPredicateOf (text : String) :
    Couples (Ahead ahead stems) (Mapped (renameExpr ρ)) (generatedPredicateOf text)
      (generatedPredicateOf text) := by
  refine (Couples.require Iff.rfl _).bind fun _ _ _ => ?_
  exact .pure (by rw [Mapped, renameExpr])

variable (ρ) in
theorem couples_generatedPredicate :
    Couples (Ahead ahead stems) (Mapped (Option.map (renameExpr ρ))) (generatedPredicate context)
      (generatedPredicate context) := by
  unfold generatedPredicate
  cases context.predicateSource with
  | none => exact (couples_noteOrigin _).bind fun _ _ _ => .pure rfl
  | some source =>
      refine (couples_askPredicate source).bind ?_
      rintro text _ rfl
      cases text with
      | none => exact (couples_noteOrigin _).bind fun _ _ _ => .pure rfl
      | some text =>
          dsimp only
          split
          · exact (couples_noteOrigin _).bind fun _ _ _ => .pure rfl
          · refine (couples_noteOrigin _).bind fun _ _ _ => ?_
            refine (couples_generatedPredicateOf ρ text).bind ?_
            rintro predicate _ rfl
            exact .pure rfl

theorem couples_pickIntegerKey :
    Couples (Ahead ahead stems)
      (fun a b => a = b ∧ ∀ column ∈ a, column ∈ context.baseTable.columns)
      (pickIntegerKey context) (pickIntegerKey context) := by
  unfold pickIntegerKey
  cases hcolumns : integerColumns context with
  | nil => exact .pure ⟨rfl, by simp⟩
  | cons first rest =>
      refine (couples_selectKey _).bind ?_
      rintro column _ ⟨rfl, hmem⟩
      refine .pure ⟨rfl, ?_⟩
      rintro _ ⟨⟩
      rw [← hcolumns] at hmem
      exact (List.mem_filter.mp hmem).1

end Predicates

section Items

variable (hρ : Keeps ρ context)

theorem Shifts.left (h : Shifts ρ ahead stems context) : ρ leftAlias = leftAlias :=
  h.short "l" (by simp)

theorem Shifts.right (h : Shifts ρ ahead stems context) : ρ rightAlias = rightAlias :=
  h.short "r" (by simp)

theorem renameItem_passthrough (name : String) (dataType : SqlType) :
    renameItem ρ (passthrough name dataType) = passthrough (ρ name) dataType := by
  simp [renameItem, passthrough, col, renameExpr]

include hρ

theorem rename_passthroughItems :
    renameItems ρ (passthroughItems context) = passthroughItems context := by
  rw [renameItems, passthroughItems, List.map_map]
  refine List.map_congr_left fun column hcolumn => ?_
  show renameItem ρ (passthrough column.name column.dataType) = _
  rw [renameItem_passthrough, hρ.column column hcolumn]

theorem rename_mem_passthroughItems {item : ProjectionItem}
    (h : item ∈ passthroughItems context) : ρ item.name = item.name := by
  obtain ⟨column, hcolumn, rfl⟩ := List.mem_map.mp h
  exact hρ.column column hcolumn

end Items

end EqGen.Equivalence.Renamed
