import Mathlib.Data.List.Count
import Mathlib.Data.List.Nodup
import EqGen.Equivalence.Names
import EqGen.Lib.Dict
import EqGen.Lib.Doubles

/-!
`sample_catalog` and `sample_rows` of `journal.py`: the table of a round and the awkward rows that
fill it. The numbers that `random` draws are a parameter.
-/

namespace EqGen.Fuzz.Sampling

open EqGen.Core.Catalog
open EqGen.Core.Types
open EqGen.Lib.Dict
open EqGen.Lib.Doubles

section Model

inductive SamplingError where
  | value (message : String)
  | assertion (message : String)
  deriving DecidableEq, Repr

/-- `rng.choice(options)` -/
def choice {α : Type} (options : List α) (h : options ≠ []) (drawn : ℕ) : α :=
  options.get ⟨drawn % options.length, Nat.mod_lt _ (List.length_pos_of_ne_nil h)⟩

/-- The member of `DialectAdapter` that a catalog is sampled from. -/
structure TypePool where
  adapterName : String
  catalogTypePool : List (String × SqlType)

def pkColumn : String := "c_pk"

/-- The key column that every sampled table starts with. -/
def keyColumn : Column := ⟨"c_pk", { kind := .integer }, 1, false, c_pk_ne_empty⟩

/-- The name of a column whose preferred name was used `count` times. -/
def columnName (preferred : String) (count : ℕ) : String :=
  if count = 1 then preferred else preferred ++ "_" ++ toString count

structure CatalogState where
  used : Dictionary String ℕ := ∅
  columns : List Column := [keyColumn]

/-- One turn of the loop of `sample_catalog`. -/
def addColumn (state : CatalogState) (entry : String × SqlType) :
    Except SamplingError CatalogState :=
  let count := getD state.used entry.1 0 + 1
  if h : columnName entry.1 count ≠ "" then
    .ok
      { used := state.used.insert entry.1 count
        columns := state.columns ++
          [⟨columnName entry.1 count, entry.2, state.columns.length + 1, true, h⟩] }
  else .error (.assertion "column name must be non-empty")

/-- `rng.randint(min_extra, max_extra)` -/
def randint (minExtra maxExtra : ℤ) (drawn : ℕ) : ℕ :=
  (minExtra + drawn % (maxExtra - minExtra + 1)).toNat

/-- The entries of the pool that are drawn. -/
def drawnEntries (pool : List (String × SqlType)) (h : pool ≠ []) (minExtra maxExtra : ℤ)
    (draws : ℕ → ℕ) : List (String × SqlType) :=
  (List.range (randint minExtra maxExtra (draws 0))).map fun i => choice pool h (draws (i + 1))

/-- `sample_catalog` -/
def sampleCatalog (adapter : TypePool) (name : String) (minExtra maxExtra : ℤ) (draws : ℕ → ℕ) :
    Except SamplingError Table :=
  if hpool : adapter.catalogTypePool ≠ [] then
    if minExtra < 0 ∨ maxExtra < minExtra then
      .error (.value s!"invalid extra column range [{minExtra}, {maxExtra}]")
    else do
      let entries := drawnEntries adapter.catalogTypePool hpool minExtra maxExtra draws
      let state ← entries.foldlM addColumn {}
      if hname : name ≠ "" then return ⟨name, state.columns, none, hname⟩
      else throw (.assertion "table name must be non-empty")
  else .error (.value s!"{adapter.adapterName} has an empty catalog_type_pool()")

/-- A Python value of a row. -/
inductive Value where
  | none
  | bool (value : Bool)
  | int (value : ℤ)
  | float (value : Double)
  | str (value : String)
  deriving DecidableEq

/-- A float as it is written. -/
def float (value : ℚ) : Value :=
  .float (toDouble value)

def positiveInf : Value := .float (.infinite false)

def negativeInf : Value := .float (.infinite true)

/-- `_pool_for` -/
def poolFor (dataType : SqlType) (allowInf : Bool) : List Value :=
  if dataType.isBooleanType then [.bool true, .bool false, .none]
  else if dataType.kind = .double then
    let pool := [float 0, float (3 / 2), float (-3 / 2), float (8001 / 8), .none]
    if allowInf then pool ++ [positiveInf, negativeInf] else pool
  else if dataType.isNumericType then
    if dataType.getScale.getD 0 ≠ 0 then
      [float 0, float (1234 / 100), float (-550 / 100), float (99999 / 100), .none]
    else [.int 0, .int 1, .int 2, .int (-1), .int (-7), .int 42, .none]
  else
    match dataType.kind with
    | .date => [.str "2024-01-15", .str "1999-12-31", .str "2030-06-01", .none]
    | .timestamp => [.str "2024-01-15 12:34:56", .str "1999-12-31 23:59:59", .none]
    | .jsonb =>
      [.str "\x7b\x7d", .str "[]", .str "\x7b\"a\": 1\x7d",
        .str "\x7b\"k\": \"v\", \"n\": null\x7d", .str "\x7b\"a\": [1, 2]\x7d", .none]
    | .uuid =>
      [.str "00000000-0000-0000-0000-000000000000", .str "550e8400-e29b-41d4-a716-446655440000",
        .str "ffffffff-ffff-ffff-ffff-ffffffffffff", .none]
    | .int4range =>
      [.str "empty", .str "[1,10)", .str "[0,100]", .str "(,)", .str "[-5,5]", .none]
    | _ => [.str "", .str "a", .str "abc", .str "Zed", .str "o'brien", .str "trailing ", .none]

theorem poolFor_ne_nil (dataType : SqlType) (allowInf : Bool) : poolFor dataType allowInf ≠ [] := by
  unfold poolFor
  split
  · simp
  · split
    · cases allowInf <;> simp
    · split
      · split <;> simp
      · split <;> simp

/-- A row of drawn values; `first` is the number of the first draw. -/
def drawRow (columns : List Column) (allowInf : Bool) (draws : ℕ → ℕ) (first : ℕ) : List Value :=
  columns.mapIdx fun j column =>
    choice (poolFor column.dataType allowInf) (poolFor_ne_nil _ _) (draws (first + j))

def drawRows (columns : List Column) (count : ℤ) (allowInf : Bool) (draws : ℕ → ℕ) :
    List (List Value) :=
  List.replicate columns.length .none ::
    (List.range ((max count 3).toNat - 1)).map fun i =>
      drawRow columns allowInf draws (i * columns.length)

/-- Infinities go to the first `DOUBLE` column of rows 1 and 2. -/
def forceInf (columns : List Column) (rows : List (List Value)) : List (List Value) :=
  match columns.findIdx? fun column => column.dataType.kind = .double with
  | none => rows
  | some i => (rows.modify 1 fun row => row.set i positiveInf).modify 2 fun row =>
      row.set i negativeInf

/-- `rows[-1] = rows[1]` -/
def plantDuplicate (rows : List (List Value)) : List (List Value) :=
  rows.set (rows.length - 1) (rows.getD 1 [])

def renumberKey (columns : List Column) (rows : List (List Value)) : List (List Value) :=
  match columns.findIdx? fun column => column.name = pkColumn with
  | none => rows
  | some i => rows.mapIdx fun n row => row.set i (.int (n + 1))

/-- `sample_rows` -/
def sampleRows (table : Table) (count : ℤ) (allowInf : Bool) (draws : ℕ → ℕ) :
    List (List Value) :=
  if table.columns = [] then []
  else
    let rows := drawRows table.columns count allowInf draws
    let rows := if allowInf then forceInf table.columns rows else rows
    renumberKey table.columns (plantDuplicate rows)

end Model

/-- What a round relies on when it samples a table. -/
structure CatalogContract (table : Table) : Prop where
  distinct : table.columnNames.Nodup
  key : ∃ column, table.columns.head? = some column ∧ column.name = pkColumn ∧
    column.nullable = false

/-- The value of a column in a row. -/
def cell (rows : List (List Value)) (n j : ℕ) : Option Value :=
  rows[n]?.bind fun row => row[j]?

/-- What a round relies on when it samples the rows of a table. -/
structure RowsContract (table : Table) (count : ℤ) (allowInf : Bool) (rows : List (List Value)) :
    Prop where
  length : (rows.length : ℤ) = max count 3
  width : ∀ row ∈ rows, row.length = table.columns.length
  key : ∀ n < rows.length, cell rows n 0 = some (.int (n + 1))
  first_null : ∀ j, 0 < j → j < table.columns.length → cell rows 0 j = some .none
  last_repeats : ∀ j, 0 < j → cell rows (rows.length - 1) j = cell rows 1 j
  infinities : allowInf → 4 ≤ count → (∃ column ∈ table.columns, column.dataType.kind = .double) →
    (∃ row ∈ rows, positiveInf ∈ row) ∧ ∃ row ∈ rows, negativeInf ∈ row

section Names

/-- The names with the numbers of their uses; `seen` are the names before. -/
def numbered : List String → List String → List (String × ℕ)
  | _, [] => []
  | seen, name :: names => (name, seen.count name + 1) :: numbered (name :: seen) names

theorem mem_numbered {seen names : List String} {name : String} {k : ℕ} :
    (name, k) ∈ numbered seen names ↔
      seen.count name < k ∧ k ≤ seen.count name + names.count name := by
  induction names generalizing seen with
  | nil =>
      simp only [numbered, List.not_mem_nil, List.count_nil, false_iff]
      omega
  | cons first names ih =>
      simp only [numbered, List.mem_cons, Prod.mk.injEq, ih, List.count_cons, beq_iff_eq]
      by_cases hname : name = first
      · subst hname
        simp only [if_true, true_and]
        omega
      · simp only [hname, Ne.symm hname, if_false, false_and, false_or, Nat.add_zero]

theorem nodup_numbered (seen names : List String) : (numbered seen names).Nodup := by
  induction names generalizing seen with
  | nil => exact List.nodup_nil
  | cons name names ih =>
      refine List.nodup_cons.mpr ⟨fun hmem => ?_, ih _⟩
      have hlt := (mem_numbered.mp hmem).1
      simp at hlt

/-- No drawn name is the name of the key, or the numbered name of another column. -/
structure NoCollision (names : List String) : Prop where
  key : pkColumn ∉ names
  apart : ∀ name ∈ names, ∀ k, 2 ≤ k → k ≤ names.count name → columnName name k ∉ names

theorem columnName_one (name : String) : columnName name 1 = name := rfl

theorem columnName_of_ne {name : String} {k : ℕ} (hk : k ≠ 1) :
    columnName name k = name ++ "_" ++ toString k := if_neg hk

/-- Numbers above one keep a name from the key column: its name does not end in a digit. -/
theorem columnName_ne_pkColumn {name : String} {k : ℕ} (hk : k ≠ 1) :
    columnName name k ≠ pkColumn := by
  intro h
  have htext := congrArg String.toList h
  rw [columnName_of_ne hk] at htext
  simp only [pkColumn, String.toList_append, Nat.toString_eq_repr, Nat.toList_repr,
    List.append_assoc] at htext
  have hsplit := (Equivalence.Names.eq_of_append_underscore (a := name.toList) (b := ['c'])
    (e := ['p', 'k']) Nat.underscore_not_in_toDigits (by decide) htext).2
  have hdigit : 'k' ∈ Nat.toDigits 10 k := by
    rw [hsplit]
    decide
  have := Nat.isDigit_of_mem_toDigits (by decide) (by decide) hdigit
  revert this
  decide

theorem columnName_eq_iff {names : List String} (h : NoCollision names) {name name' : String}
    {k k' : ℕ} (hname : name ∈ names) (hname' : name' ∈ names) (hk : 1 ≤ k)
    (hcount : k ≤ names.count name) (hk' : 1 ≤ k') (hcount' : k' ≤ names.count name')
    (heq : columnName name k = columnName name' k') : name = name' ∧ k = k' := by
  rcases Nat.eq_or_lt_of_le hk with rfl | hk <;> rcases Nat.eq_or_lt_of_le hk' with rfl | hk'
  · exact ⟨heq, rfl⟩
  · rw [columnName_one] at heq
    exact absurd (heq ▸ hname) (h.apart name' hname' k' hk' hcount')
  · rw [columnName_one] at heq
    exact absurd (heq ▸ hname') (h.apart name hname k hk hcount)
  · rw [columnName_of_ne (by omega), columnName_of_ne (by omega)] at heq
    exact Equivalence.Names.minted_injective heq

theorem nodup_columnNames (names : List String) :
    (pkColumn :: (numbered [] names).map fun entry => columnName entry.1 entry.2).Nodup ↔
      NoCollision names := by
  have hmem (name : String) (k : ℕ) :
      (name, k) ∈ numbered [] names ↔ 1 ≤ k ∧ k ≤ names.count name := by
    rw [mem_numbered, List.count_nil, Nat.zero_add]
    exact Iff.rfl
  rw [List.nodup_cons, List.nodup_map_iff_inj_on (nodup_numbered [] names)]
  constructor
  · rintro ⟨hkey, hinj⟩
    refine ⟨fun hpk => hkey ?_, fun name hname k hk hcount hother => ?_⟩
    · have hone := (hmem pkColumn 1).mpr ⟨Nat.le_refl 1, List.count_pos_iff.mpr hpk⟩
      exact List.mem_map.mpr ⟨_, hone, columnName_one pkColumn⟩
    · have hfirst := (hmem (columnName name k) 1).mpr
        ⟨Nat.le_refl 1, List.count_pos_iff.mpr hother⟩
      have hlater := (hmem name k).mpr ⟨by omega, hcount⟩
      have := congrArg Prod.snd (hinj _ hfirst _ hlater (columnName_one _))
      exact absurd this (by simp only; omega)
  · intro h
    constructor
    · intro hpk
      obtain ⟨⟨name, k⟩, hentry, heq⟩ := List.mem_map.mp hpk
      obtain ⟨hk, hcount⟩ := (hmem name k).mp hentry
      by_cases hone : k = 1
      · subst hone
        rw [columnName_one] at heq
        exact h.key (heq ▸ List.count_pos_iff.mp hcount)
      · exact columnName_ne_pkColumn hone heq
    · rintro ⟨name, k⟩ hentry ⟨name', k'⟩ hentry' heq
      obtain ⟨hk, hcount⟩ := (hmem name k).mp hentry
      obtain ⟨hk', hcount'⟩ := (hmem name' k').mp hentry'
      have hname := List.count_pos_iff.mp (Nat.lt_of_lt_of_le hk hcount)
      have hname' := List.count_pos_iff.mp (Nat.lt_of_lt_of_le hk' hcount')
      obtain ⟨rfl, rfl⟩ := columnName_eq_iff h hname hname' hk hcount hk' hcount' heq
      rfl

end Names

section Catalog

theorem columnName_ne_empty_iff {name : String} {k : ℕ} :
    columnName name k ≠ "" ↔ k = 1 → name ≠ "" := by
  by_cases hk : k = 1
  · simp [hk, columnName_one]
  · have hne : columnName name k ≠ "" := by
      intro h
      have hlength := congrArg String.length h
      rw [columnName_of_ne hk, String.length_append, String.length_append] at hlength
      have : "_".length = 1 := rfl
      have : "".length = 0 := rfl
      omega
    simp [hk, hne]

/-- The loop numbers the names that it draws, and only an empty one stops it. -/
theorem foldlM_addColumn (entries : List (String × SqlType)) {state : CatalogState}
    {seen : List String} (hused : ∀ name, getD state.used name 0 = seen.count name)
    (hseen : "" ∉ seen) :
    ("" ∉ entries.map Prod.fst → ∃ state', entries.foldlM addColumn state = .ok state' ∧
        ∃ columns, state'.columns = state.columns ++ columns ∧
          columns.map Column.name =
            (numbered seen (entries.map Prod.fst)).map fun entry => columnName entry.1 entry.2) ∧
      ("" ∈ entries.map Prod.fst → ∃ e, entries.foldlM addColumn state = .error e) := by
  induction entries generalizing state seen with
  | nil => exact ⟨fun _ => ⟨state, rfl, [], by simp, rfl⟩, by simp⟩
  | cons entry entries ih =>
      obtain ⟨name, dataType⟩ := entry
      rw [List.foldlM_cons, List.map_cons, List.mem_cons]
      by_cases hname : name = ""
      · have hone : seen.count name + 1 = 1 := by
          rw [hname, List.count_eq_zero_of_not_mem hseen]
        have hstop : addColumn state (name, dataType) =
            .error (.assertion "column name must be non-empty") := by
          rw [addColumn, hused, hone, columnName_one, hname]
          rfl
        refine ⟨fun h => absurd (.inl hname.symm) h, fun _ => ?_⟩
        rw [hstop]
        exact ⟨_, rfl⟩
      · have hne : columnName name (seen.count name + 1) ≠ "" :=
          columnName_ne_empty_iff.mpr fun _ => hname
        let next : CatalogState :=
          { used := state.used.insert name (seen.count name + 1)
            columns := state.columns ++ [⟨columnName name (seen.count name + 1), dataType,
              state.columns.length + 1, true, hne⟩] }
        have hadd : addColumn state (name, dataType) = .ok next := by
          simp only [addColumn, hused]
          rw [dif_pos hne]
        have hnext (name' : String) : getD next.used name' 0 = (name :: seen).count name' := by
          simp only [List.count_cons, beq_iff_eq]
          rw [getD]
          by_cases hsame : name' = name
          · subst hsame
            rw [AList.lookup_insert, if_pos rfl, Option.getD_some]
          · rw [AList.lookup_insert_ne hsame, if_neg (Ne.symm hsame), Nat.add_zero]
            exact hused name'
        have hseen' : "" ∉ name :: seen := by
          rw [List.mem_cons, not_or]
          exact ⟨Ne.symm hname, hseen⟩
        obtain ⟨ihOk, ihError⟩ := ih hnext hseen'
        rw [hadd]
        constructor
        · intro h
          obtain ⟨state', hrun, columns, hcolumns, hnames⟩ := ihOk fun h' => h (.inr h')
          refine ⟨state', hrun, _ :: columns, by rw [hcolumns, List.append_assoc]; rfl, ?_⟩
          rw [List.map_cons, hnames]
          rfl
        · rintro (h | h)
          · exact absurd h.symm hname
          · exact ihError h

/-- The arguments that `sample_catalog` accepts. -/
structure Accepted (pool : List (String × SqlType)) (name : String) (minExtra maxExtra : ℤ) :
    Prop where
  pool : pool ≠ []
  nonneg : 0 ≤ minExtra
  range : minExtra ≤ maxExtra
  name : name ≠ ""

variable {adapter : TypePool} {name : String} {minExtra maxExtra : ℤ} {draws : ℕ → ℕ}

theorem sampleCatalog_of_ok {table : Table}
    (h : sampleCatalog adapter name minExtra maxExtra draws = .ok table) :
    ∃ accepted : Accepted adapter.catalogTypePool name minExtra maxExtra,
      let names :=
        (drawnEntries adapter.catalogTypePool accepted.pool minExtra maxExtra draws).map Prod.fst
      "" ∉ names ∧ table.columns.head? = some keyColumn ∧ table.columnNames =
        pkColumn :: (numbered [] names).map fun entry => columnName entry.1 entry.2 := by
  unfold sampleCatalog at h
  split at h
  · next hpool =>
      split at h
      · cases h
      · next hrange =>
          dsimp only at h
          have hused : ∀ name, getD ({} : CatalogState).used name 0 = [].count name := fun _ => rfl
          obtain ⟨hok, herror⟩ := foldlM_addColumn
            (drawnEntries adapter.catalogTypePool hpool minExtra maxExtra draws) hused (by simp)
          by_cases hempty : "" ∈
              (drawnEntries adapter.catalogTypePool hpool minExtra maxExtra draws).map Prod.fst
          · obtain ⟨e, he⟩ := herror hempty
            rw [he] at h
            cases h
          · obtain ⟨state, hstate, columns, hcolumns, hnames⟩ := hok hempty
            rw [hstate] at h
            by_cases hname : name = ""
            · simp [hname, bind, Except.bind] at h
            · simp [hname, bind, Except.bind] at h
              cases h
              refine ⟨⟨hpool, by omega, by omega, hname⟩, hempty, ?_, ?_⟩
              · simp [hcolumns]
              · simp [Table.columnNames, hcolumns, hnames, keyColumn, pkColumn]
  · cases h

theorem sampleCatalog_ok (accepted : Accepted adapter.catalogTypePool name minExtra maxExtra)
    (hempty : "" ∉
      (drawnEntries adapter.catalogTypePool accepted.pool minExtra maxExtra draws).map Prod.fst) :
    ∃ table, sampleCatalog adapter name minExtra maxExtra draws = .ok table := by
  have hused : ∀ name, getD ({} : CatalogState).used name 0 = [].count name := fun _ => rfl
  obtain ⟨state, hstate, -⟩ := (foldlM_addColumn
    (drawnEntries adapter.catalogTypePool accepted.pool minExtra maxExtra draws) hused
    (by simp)).1 hempty
  have hrange : ¬(minExtra < 0 ∨ maxExtra < minExtra) := by
    have := accepted.nonneg
    have := accepted.range
    omega
  refine ⟨⟨name, state.columns, none, accepted.name⟩, ?_⟩
  rw [sampleCatalog, dif_pos accepted.pool, if_neg hrange]
  dsimp only
  rw [hstate]
  simp [bind, Except.bind, accepted.name, pure, Except.pure]

end Catalog

section Rows

/-- The rows are as many as asked for and as wide as the table. -/
structure Shaped (columns : List Column) (count : ℤ) (rows : List (List Value)) : Prop where
  length : (rows.length : ℤ) = max count 3
  width : ∀ row ∈ rows, row.length = columns.length

variable {columns : List Column} {count : ℤ} {rows : List (List Value)}

theorem shaped_drawRows (columns : List Column) (count : ℤ) (allowInf : Bool) (draws : ℕ → ℕ) :
    Shaped columns count (drawRows columns count allowInf draws) where
  length := by
    rw [drawRows, List.length_cons, List.length_map, List.length_range]
    omega
  width := by
    intro row hrow
    rcases List.mem_cons.mp hrow with rfl | hrow
    · exact List.length_replicate
    · obtain ⟨i, -, rfl⟩ := List.mem_map.mp hrow
      exact List.length_mapIdx

theorem Shaped.modify (h : Shaped columns count rows) (n i : ℕ) (value : Value) :
    Shaped columns count (rows.modify n fun row => row.set i value) where
  length := by rw [List.length_modify, h.length]
  width := by
    intro row hrow
    obtain ⟨m, hm⟩ := List.mem_iff_getElem?.mp hrow
    rw [List.getElem?_modify] at hm
    obtain ⟨row', hrow', hset⟩ := Option.map_eq_some_iff.mp hm
    have hwidth := h.width row' (List.mem_of_getElem? hrow')
    split at hset
    · rw [← hset, List.length_set, hwidth]
    · rw [← hset, hwidth]

theorem Shaped.forceInf (h : Shaped columns count rows) :
    Shaped columns count (forceInf columns rows) := by
  unfold Sampling.forceInf
  split
  · exact h
  · exact (h.modify 1 _ _).modify 2 _ _

theorem Shaped.getD_mem (h : Shaped columns count rows) : rows.getD 1 [] ∈ rows := by
  have hlt : 1 < rows.length := by
    have := h.length
    omega
  rw [List.getD_eq_getElem?_getD, List.getElem?_eq_getElem hlt, Option.getD_some]
  exact List.getElem_mem hlt

theorem Shaped.plantDuplicate (h : Shaped columns count rows) :
    Shaped columns count (plantDuplicate rows) where
  length := by rw [Sampling.plantDuplicate, List.length_set, h.length]
  width := by
    intro row hrow
    rcases List.mem_or_eq_of_mem_set hrow with hrow | rfl
    · exact h.width row hrow
    · exact h.width _ h.getD_mem

/-- The key column comes first and does not hold doubles. -/
structure KeyFirst (columns : List Column) : Prop where
  head : ∃ column, columns.head? = some column ∧ column.name = pkColumn ∧
    column.dataType.kind ≠ .double

theorem KeyFirst.findIdx (h : KeyFirst columns) :
    (columns.findIdx? fun column => column.name = pkColumn) = some 0 := by
  obtain ⟨column, hhead, hname, -⟩ := h.head
  cases columns with
  | nil => cases hhead
  | cons first rest =>
      cases hhead
      simp [List.findIdx?_cons, hname]

theorem KeyFirst.doubleIdx (h : KeyFirst columns) {i : ℕ}
    (hi : (columns.findIdx? fun column => column.dataType.kind = .double) = some i) :
    0 < i ∧ i < columns.length := by
  obtain ⟨column, hhead, -, hkind⟩ := h.head
  obtain ⟨hlt, hdouble, -⟩ := List.findIdx?_eq_some_iff_getElem.mp hi
  refine ⟨Nat.pos_of_ne_zero fun hzero => hkind ?_, hlt⟩
  subst hzero
  rw [List.head?_eq_getElem?, List.getElem?_eq_getElem hlt, Option.some.injEq] at hhead
  rw [← hhead]
  exact of_decide_eq_true hdouble

theorem cell_modify (rows : List (List Value)) (n i m j : ℕ) (value : Value) :
    cell (rows.modify n fun row => row.set i value) m j =
      if n = m ∧ i = j then (cell rows m j).map fun _ => value else cell rows m j := by
  unfold cell
  rw [List.getElem?_modify]
  cases hrow : rows[m]? with
  | none => simp
  | some row =>
      by_cases hn : n = m
      · by_cases hi : i = j
        · subst hi
          simp only [hn, true_and, if_true, Option.map_eq_map, Option.map_some, Option.bind_some,
            List.getElem?_set]
          by_cases hlt : i < row.length
          · simp [hlt]
          · simp [hlt]
        · simp [hn, hi]
      · simp [hn]

theorem Shaped.cell_isSome (h : Shaped columns count rows) {n j : ℕ} (hn : n < rows.length)
    (hj : j < columns.length) : ∃ value, cell rows n j = some value := by
  have hwidth := h.width _ (List.getElem_mem hn)
  have hlt : j < rows[n].length := by omega
  exact ⟨rows[n][j], by rw [cell, List.getElem?_eq_getElem hn, Option.bind_some,
    List.getElem?_eq_getElem hlt]⟩

theorem cell_plantDuplicate (rows : List (List Value)) (hlength : 2 ≤ rows.length) (n j : ℕ) :
    cell (plantDuplicate rows) n j =
      if n = rows.length - 1 then cell rows 1 j else cell rows n j := by
  unfold cell plantDuplicate
  have hone : 1 < rows.length := hlength
  rw [List.getElem?_set, List.getD_eq_getElem?_getD, List.getElem?_eq_getElem hone,
    Option.getD_some]
  by_cases hn : n = rows.length - 1
  · have hlt : n < rows.length := by omega
    simp [hn, show 0 < rows.length by omega]
  · simp [hn, Ne.symm hn]

theorem cell_renumberKey (h : KeyFirst columns) (rows : List (List Value)) (n j : ℕ) :
    cell (renumberKey columns rows) n j =
      if j = 0 then (cell rows n 0).map fun _ => .int (n + 1) else cell rows n j := by
  unfold renumberKey cell
  simp only [h.findIdx]
  rw [List.getElem?_mapIdx]
  cases hrow : rows[n]? with
  | none => simp
  | some row =>
      by_cases hj : j = 0
      · subst hj
        cases row <;> simp
      · simp [hj, Ne.symm hj]

theorem length_renumberKey (columns : List Column) (rows : List (List Value)) :
    (renumberKey columns rows).length = rows.length := by
  unfold renumberKey
  split
  · rfl
  · exact List.length_mapIdx

theorem Shaped.renumberKey (h : Shaped columns count rows) :
    Shaped columns count (renumberKey columns rows) where
  length := by rw [length_renumberKey, h.length]
  width := by
    intro row hrow
    unfold Sampling.renumberKey at hrow
    split at hrow
    · exact h.width row hrow
    · obtain ⟨n, hn, rfl⟩ := List.mem_mapIdx.mp hrow
      rw [List.length_set]
      exact h.width _ (List.getElem_mem hn)

theorem cell_mem {n j : ℕ} {value : Value} (h : cell rows n j = some value) :
    ∃ row ∈ rows, value ∈ row := by
  obtain ⟨row, hrow, hvalue⟩ := Option.bind_eq_some_iff.mp h
  exact ⟨row, List.mem_of_getElem? hrow, List.mem_of_getElem? hvalue⟩

/-- The rows before the last two passes. -/
def forcedRows (table : Table) (count : ℤ) (allowInf : Bool) (draws : ℕ → ℕ) :
    List (List Value) :=
  let rows := drawRows table.columns count allowInf draws
  if allowInf then forceInf table.columns rows else rows

variable {table : Table} {allowInf : Bool} {draws : ℕ → ℕ}

theorem sampleRows_eq (h : KeyFirst table.columns) :
    sampleRows table count allowInf draws =
      renumberKey table.columns (plantDuplicate (forcedRows table count allowInf draws)) := by
  have hne : table.columns ≠ [] := by
    intro hnil
    obtain ⟨column, hhead, -⟩ := h.head
    rw [hnil] at hhead
    cases hhead
  rw [sampleRows, if_neg hne]
  rfl

theorem shaped_forcedRows :
    Shaped table.columns count (forcedRows table count allowInf draws) := by
  unfold forcedRows
  cases allowInf with
  | false => exact shaped_drawRows _ _ _ _
  | true => exact (shaped_drawRows _ _ _ _).forceInf

theorem cell_forceInf_zero (columns : List Column) (rows : List (List Value)) (j : ℕ) :
    cell (forceInf columns rows) 0 j = cell rows 0 j := by
  unfold forceInf
  split
  · rfl
  · rw [cell_modify, cell_modify]
    simp

theorem cell_forcedRows_zero {j : ℕ} (hj : j < table.columns.length) :
    cell (forcedRows table count allowInf draws) 0 j = some .none := by
  have hdrawn : cell (drawRows table.columns count allowInf draws) 0 j = some .none := by
    simp [cell, drawRows, hj]
  unfold forcedRows
  cases allowInf with
  | false => exact hdrawn
  | true => exact (cell_forceInf_zero _ _ j).trans hdrawn

/-- Rows 1 and 2 hold the infinities before the duplicate is planted. -/
theorem cell_forceInf {i : ℕ} (h : Shaped columns count rows)
    (hi : (columns.findIdx? fun column => column.dataType.kind = .double) = some i)
    (hlt : i < columns.length) :
    cell (forceInf columns rows) 1 i = some positiveInf ∧
      cell (forceInf columns rows) 2 i = some negativeInf := by
  have hlength := h.length
  obtain ⟨value, hvalue⟩ := h.cell_isSome (n := 1) (by omega) hlt
  obtain ⟨value', hvalue'⟩ := h.cell_isSome (n := 2) (by omega) hlt
  unfold forceInf
  simp only [hi, cell_modify]
  simp [hvalue, hvalue']

/-- Every pass keeps what the ones before it promise, whatever is drawn. -/
theorem rowsContract_sampleRows (h : KeyFirst table.columns) :
    RowsContract table count allowInf (sampleRows table count allowInf draws) := by
  have hforced : Shaped table.columns count (forcedRows table count allowInf draws) :=
    shaped_forcedRows
  have hlength := hforced.length
  have hshape := hforced.plantDuplicate.renumberKey
  have hsame : (sampleRows table count allowInf draws).length =
      (forcedRows table count allowInf draws).length := by
    rw [sampleRows_eq h, length_renumberKey, plantDuplicate, List.length_set]
  have hcell (n j : ℕ) (hj : 0 < j) : cell (sampleRows table count allowInf draws) n j =
      if n = (forcedRows table count allowInf draws).length - 1 then
        cell (forcedRows table count allowInf draws) 1 j
      else cell (forcedRows table count allowInf draws) n j := by
    rw [sampleRows_eq h, cell_renumberKey h, if_neg (by omega),
      cell_plantDuplicate _ (by omega)]
  have hwide : 0 < table.columns.length := by
    obtain ⟨column, hhead, -⟩ := h.head
    exact List.length_pos_of_mem (List.mem_of_mem_head? hhead)
  refine ⟨by rw [hsame, hlength], ?_, ?_, ?_, ?_, ?_⟩
  · rw [sampleRows_eq h]
    exact hshape.width
  · intro n hn
    have hdup := hforced.plantDuplicate
    obtain ⟨value, hvalue⟩ := hdup.cell_isSome (n := n) (j := 0)
      (by rw [plantDuplicate, List.length_set]; omega) hwide
    rw [sampleRows_eq h, cell_renumberKey h, if_pos rfl, hvalue]
    rfl
  · intro j hj hlt
    rw [hcell 0 j hj, if_neg (by omega), cell_forcedRows_zero hlt]
  · intro j hj
    rw [hsame, hcell _ j hj, if_pos rfl, hcell 1 j hj, if_neg (by omega)]
  · rintro hallow hcount ⟨column, hcolumn, hkind⟩
    subst hallow
    cases hi : table.columns.findIdx? fun column => column.dataType.kind = .double with
    | none => exact absurd (List.findIdx?_eq_none_iff.mp hi column hcolumn) (by simp [hkind])
    | some i =>
        obtain ⟨hpos, hlt⟩ := h.doubleIdx hi
        obtain ⟨hone, htwo⟩ := cell_forceInf (shaped_drawRows table.columns count true draws) hi hlt
        constructor
        · apply cell_mem (n := 1) (j := i)
          rw [hcell 1 i hpos, if_neg (by omega)]
          exact hone
        · apply cell_mem (n := 2) (j := i)
          rw [hcell 2 i hpos, if_neg (by omega)]
          exact htwo

end Rows

section Contract

/-- The catalog and all rows that are sampled for it are as a round relies on. -/
def Sound (adapter : TypePool) (name : String) (minExtra maxExtra : ℤ) (draws : ℕ → ℕ) : Prop :=
  ∃ table, sampleCatalog adapter name minExtra maxExtra draws = .ok table ∧
    CatalogContract table ∧
      ∀ count allowInf draws', RowsContract table count allowInf
        (sampleRows table count allowInf draws')

/-- The arguments are accepted and the drawn names neither empty nor in each other's way. -/
structure Separate (adapter : TypePool) (name : String) (minExtra maxExtra : ℤ)
    (draws : ℕ → ℕ) : Prop where
  accepted : Accepted adapter.catalogTypePool name minExtra maxExtra
  nonempty : "" ∉
    (drawnEntries adapter.catalogTypePool accepted.pool minExtra maxExtra draws).map Prod.fst
  apart : NoCollision
    ((drawnEntries adapter.catalogTypePool accepted.pool minExtra maxExtra draws).map Prod.fst)

variable {adapter : TypePool} {name : String} {minExtra maxExtra : ℤ} {draws : ℕ → ℕ}

/-- The rows meet their contract also where the names of the table collide. -/
theorem rowsContract_of_ok {table : Table}
    (h : sampleCatalog adapter name minExtra maxExtra draws = .ok table) (count : ℤ)
    (allowInf : Bool) (draws' : ℕ → ℕ) :
    RowsContract table count allowInf (sampleRows table count allowInf draws') := by
  obtain ⟨-, -, hhead, -⟩ := sampleCatalog_of_ok h
  exact rowsContract_sampleRows ⟨keyColumn, hhead, rfl, by decide⟩

/--
For every pool and whatever is drawn: the sampled table and its rows meet the contract if and only if
the arguments are accepted, and no drawn name is empty, `c_pk`, or a name with the number of one of
its uses.
-/
theorem sound_iff (adapter : TypePool) (name : String) (minExtra maxExtra : ℤ) (draws : ℕ → ℕ) :
    Sound adapter name minExtra maxExtra draws ↔
      Separate adapter name minExtra maxExtra draws := by
  constructor
  · rintro ⟨table, hok, hcatalog, -⟩
    obtain ⟨accepted, hempty, -, hnames⟩ := sampleCatalog_of_ok hok
    refine ⟨accepted, hempty, (nodup_columnNames _).mp ?_⟩
    rw [← hnames]
    exact hcatalog.distinct
  · rintro ⟨accepted, hempty, hapart⟩
    obtain ⟨table, hok⟩ := sampleCatalog_ok accepted hempty
    obtain ⟨_, _, hhead, hnames⟩ := sampleCatalog_of_ok hok
    refine ⟨table, hok, ⟨?_, keyColumn, hhead, rfl, rfl⟩, rowsContract_of_ok hok⟩
    rw [hnames]
    exact (nodup_columnNames _).mpr hapart

def numberedPool : TypePool where
  adapterName := "PoolAdapter"
  catalogTypePool := [("a", { kind := .integer }), ("a_2", { kind := .varchar })]

theorem accepted_numberedPool : Accepted numberedPool.catalogTypePool "t" 3 3 :=
  ⟨by decide, by decide, by decide, by decide⟩

/-- `a` is drawn twice, then `a_2`. -/
def collidingDraws (i : ℕ) : ℕ :=
  if i = 3 then 1 else 0

theorem not_noCollision_numberedPool : ¬ NoCollision
    ((drawnEntries numberedPool.catalogTypePool accepted_numberedPool.pool 3 3
      collidingDraws).map Prod.fst) :=
  fun h => h.apart "a" (by decide) 2 (Nat.le_refl 2) (by decide) (by decide)

theorem not_always_sound :
    ¬ ∀ (adapter : TypePool) (name : String) (minExtra maxExtra : ℤ) (draws : ℕ → ℕ),
      (adapter.catalogTypePool.map Prod.fst).Nodup →
        Accepted adapter.catalogTypePool name minExtra maxExtra →
          Sound adapter name minExtra maxExtra draws := by
  intro h
  obtain ⟨table, hok, hcatalog, -⟩ :=
    h numberedPool "t" 3 3 collidingDraws (by decide) accepted_numberedPool
  obtain ⟨_, _, -, hnames⟩ := sampleCatalog_of_ok hok
  have hdistinct := hcatalog.distinct
  rw [hnames] at hdistinct
  exact not_noCollision_numberedPool ((nodup_columnNames _).mp hdistinct)

/-- Where no name of the pool is another one with a number, no draw makes names collide. -/
theorem noCollision_of_pool {pool : List (String × SqlType)} (hpool : pool ≠ [])
    (hkey : pkColumn ∉ pool.map Prod.fst)
    (hapart : ∀ name ∈ pool.map Prod.fst, ∀ k, 2 ≤ k → columnName name k ∉ pool.map Prod.fst)
    (minExtra maxExtra : ℤ) (draws : ℕ → ℕ) :
    NoCollision ((drawnEntries pool hpool minExtra maxExtra draws).map Prod.fst) := by
  have hsubset (name : String)
      (h : name ∈ (drawnEntries pool hpool minExtra maxExtra draws).map Prod.fst) :
      name ∈ pool.map Prod.fst := by
    obtain ⟨entry, hentry, rfl⟩ := List.mem_map.mp h
    obtain ⟨i, -, rfl⟩ := List.mem_map.mp hentry
    exact List.mem_map_of_mem (List.get_mem _ _)
  exact ⟨fun h => hkey (hsubset _ h), fun name hname k hk _ h =>
    hapart name (hsubset _ hname) k hk (hsubset _ h)⟩

end Contract

end EqGen.Fuzz.Sampling
