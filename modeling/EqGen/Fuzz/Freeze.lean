import Mathlib.Data.List.Sort
import EqGen.Fuzz.JsonValues
import EqGen.Fuzz.Printed

/-!
`_freeze` on cells that are JSON values: which of them it keeps apart. Objects become tuples as
lists do, and the floats that are not finite become tuples of texts.
-/

namespace EqGen.Fuzz.Freeze

open EqGen.Fuzz.Frozen
open EqGen.Fuzz.JsonValues
open EqGen.Fuzz.Printed
open EqGen.Lib.Trees

section Freeze

variable [Printing]

/-- `sorted(…, key=repr)` -/
def sortedByRepr {α : Type} (value : α → Value) (items : List α) : List α :=
  items.insertionSort fun x y => repr (value x) ≤ repr (value y)

/-- The item of a dict, frozen. -/
def frozenMember (name : String) (value : Value) : Value :=
  .branch [.leaf (.text name), value]

mutual

/-- `_freeze` -/
def freeze : Json → Value
  | .null => .leaf .none
  | .bool value => .leaf (.bool value)
  | .int value => .leaf (.int value)
  | .float value => .leaf (.float value)
  | .nan => nanSentinel
  | .infinite positive => infSentinel positive
  | .string value => .leaf (.text value)
  | .list items => .branch (freezeAll items)
  | .object members => .branch (sortedByRepr id (freezeMembers members))

def freezeAll : List Json → List Value
  | [] => []
  | item :: items => freeze item :: freezeAll items

def freezeMembers : Members → List Value
  | [] => []
  | (name, value) :: members => frozenMember name (freeze value) :: freezeMembers members

end

/-- `canonical_row` -/
def canonicalRow (row : List Json) : Row :=
  row.map freeze

/-- The members of an object in the order in which they are frozen. -/
def asFrozen (members : Members) : Members :=
  sortedByRepr (fun m => frozenMember m.1 (freeze m.2)) members

theorem freezeAll_eq (items : List Json) : freezeAll items = items.map freeze := by
  induction items with
  | nil => rfl
  | cons item items ih => rw [freezeAll, ih, List.map_cons]

theorem freezeMembers_eq (members : Members) :
    freezeMembers members = members.map fun m => frozenMember m.1 (freeze m.2) := by
  induction members with
  | nil => rfl
  | cons member members ih => rw [freezeMembers, ih, List.map_cons]

theorem freeze_spell (m : String × Json) :
    freeze (spell true m) = frozenMember m.1 (freeze m.2) := by
  rw [spell, if_pos rfl, freeze, freezeAll_eq]
  simp [frozenMember, freeze]

/-- The frozen members of an object are its members, sorted and frozen as lists of two. -/
theorem sortedByRepr_freezeMembers (members : Members) :
    sortedByRepr id (freezeMembers members) =
      ((asFrozen members).map (spell true)).map freeze := by
  have hspell : freeze ∘ spell true = fun m => frozenMember m.1 (freeze m.2) :=
    funext freeze_spell
  rw [freezeMembers_eq, List.map_map, hspell, asFrozen, sortedByRepr, sortedByRepr]
  exact (List.map_insertionSort
    (fun m n : String × Json => repr (frozenMember m.1 (freeze m.2)) ≤
      repr (frozenMember n.1 (freeze n.2))) (fun x y => repr x ≤ repr y)
    (fun m => frozenMember m.1 (freeze m.2)) members fun _ _ _ _ => Iff.rfl).symm

/-- Freezing keeps the atoms of a value and the items of its tuples, and no more. -/
theorem tuples_freeze : Tuples asFrozen true fun v => key (freeze v) where
  atom := by
    intro v k hv
    cases v <;> cases hv <;> simp [freeze, key, Atom.key]
  tuple := by
    intro v items hv
    cases v <;> cases hv
    case nan => simp [freeze, key, nanSentinel, Atom.key]
    case infinite positive => simp [freeze, key, infSentinel, Atom.key]
    case list => simp [freeze, freezeAll_eq, key]
    case object members =>
      rw [freeze, sortedByRepr_freezeMembers]
      simp [key]

theorem perm_asFrozen (members : Members) : (asFrozen members).Perm members :=
  List.perm_insertionSort _ members

end Freeze

section Names

/-- No two members of one name, as in a dict. -/
def DistinctNames (members : Members) : Prop :=
  (members.map Prod.fst).Nodup

/-- The members of an object by name. -/
def byName (members : Members) : Members :=
  members.insertionSort fun m n => m.1 ≤ n.1

instance total_le {α β : Type} [LinearOrder β] (f : α → β) : Std.Total fun x y => f x ≤ f y :=
  ⟨fun x y => le_total (f x) (f y)⟩

instance isTrans_le {α β : Type} [LinearOrder β] (f : α → β) : IsTrans α fun x y => f x ≤ f y :=
  ⟨fun _ _ _ => le_trans⟩

theorem DistinctNames.eq {members : Members} (h : DistinctNames members) {m n : String × Json}
    (hm : m ∈ members) (hn : n ∈ members) (hname : m.1 = n.1) : m = n :=
  List.inj_on_of_nodup_map h hm hn hname

/-- Members of distinct names have one order by name, or by what tells names apart. -/
theorem DistinctNames.eq_of_sorted {f : String → String} (hf : Function.Injective f)
    {members sorted sorted' : Members} (h : DistinctNames members) (hperm : sorted.Perm members)
    (hperm' : sorted'.Perm members) (hsorted : sorted.Pairwise fun m n => f m.1 ≤ f n.1)
    (hsorted' : sorted'.Pairwise fun m n => f m.1 ≤ f n.1) : sorted = sorted' := by
  apply List.Perm.eq_of_pairwise _ hsorted hsorted' (hperm.trans hperm'.symm)
  intro m n hm hn hle hge
  exact h.eq (hperm.mem_iff.mp hm) (hperm'.mem_iff.mp hn) (hf (le_antisymm hle hge))

theorem byName_eq_iff {members members' : Members} (h : DistinctNames members) :
    byName members = byName members' ↔ members.Perm members' := by
  have hperm := List.perm_insertionSort (fun m n : String × Json => m.1 ≤ n.1) members
  have hperm' := List.perm_insertionSort (fun m n : String × Json => m.1 ≤ n.1) members'
  constructor
  · intro heq
    change List.insertionSort _ _ = List.insertionSort _ _ at heq
    rw [heq] at hperm
    exact hperm.symm.trans hperm'
  · intro hmembers
    exact h.eq_of_sorted Function.injective_id hperm (hperm'.trans hmembers.symm)
      (List.pairwise_insertionSort _ _) (List.pairwise_insertionSort _ _)

/-- Lists of members that go through the same names are one list when one permutes the other. -/
theorem eq_of_perm_of_names {members members' : Members} (hperm : members.Perm members')
    (hnames : members.map Prod.fst = members'.map Prod.fst) (h : DistinctNames members) :
    members = members' := by
  induction members generalizing members' with
  | nil => exact (List.nil_perm.mp hperm).symm
  | cons m members ih =>
      cases members' with
      | nil => cases hnames
      | cons m' members' =>
          rw [List.map_cons, List.map_cons, List.cons.injEq] at hnames
          rw [DistinctNames, List.map_cons, List.nodup_cons] at h
          have hm : m = m' := by
            rcases List.mem_cons.mp (hperm.mem_iff.mp List.mem_cons_self) with hm | hm
            · exact hm
            · rw [hnames.2] at h
              exact absurd (List.mem_map_of_mem hm) h.1
          subst hm
          rw [ih (List.Perm.cons_inv hperm) hnames.2 h.2]

variable [Printing]

/-- The members of an object by the literals of their names. -/
def byLiteral (members : Members) : Members :=
  sortedByRepr (fun m => .leaf (.text m.1)) members

theorem perm_byLiteral (members : Members) : (byLiteral members).Perm members :=
  List.perm_insertionSort _ members

/-- The values of a dict play no part in the order in which its members are frozen. -/
theorem asFrozen_eq {members : Members} (h : DistinctNames members) :
    asFrozen members = byLiteral members := by
  apply h.eq_of_sorted (fun _ _ => repr_text_injective) (perm_asFrozen members)
    (perm_byLiteral members) _ (List.pairwise_insertionSort _ _)
  have hsorted := List.pairwise_insertionSort (fun m n : String × Json =>
    repr (frozenMember m.1 (freeze m.2)) ≤ repr (frozenMember n.1 (freeze n.2))) members
  refine hsorted.imp fun {m n} hle => ?_
  by_cases hname : m.1 = n.1
  · rw [hname]
  · exact (repr_text_le_iff hname _ _).mp hle

/-- Dicts whose frozen members go through the same names are compared member by member. -/
theorem aligned_byLiteral {members members' : Members} (h : DistinctNames members) :
    Aligned byLiteral byName true members members' := by
  intro places hv hw hnames
  have hnames := hnames rfl
  have hperm := perm_byLiteral members
  have hperm' := perm_byLiteral members'
  rw [hv] at hperm
  rw [hw] at hperm'
  have hfst (ms : Members) : (normalMembers byName ms).map Prod.fst = ms.map Prod.fst := by
    rw [normalMembers_eq, List.map_map]
    rfl
  have haligned : (normalMembers byName (places.map Prod.fst)).map Prod.fst =
      (normalMembers byName (places.map Prod.snd)).map Prod.fst := by
    rw [hfst, hfst, List.map_map, List.map_map]
    exact List.map_congr_left hnames
  have hnodup : DistinctNames (normalMembers byName (places.map Prod.fst)) := by
    rw [DistinctNames, hfst, (hperm.map _).nodup_iff]
    exact h
  have hnormal {ms ms' : Members} (hms : ms.Perm ms') :
      (normalMembers byName ms).Perm (normalMembers byName ms') := by
    rw [normalMembers_eq, normalMembers_eq]
    exact hms.map _
  calc Same byName (.object members) (.object members')
      ↔ (normalMembers byName members).Perm (normalMembers byName members') := by
        rw [Same, normal, normal, Json.object.injEq, byName_eq_iff]
        rw [DistinctNames, hfst]
        exact h
    _ ↔ (normalMembers byName (places.map Prod.fst)).Perm
          (normalMembers byName (places.map Prod.snd)) := by
        exact ⟨fun hms => ((hnormal hperm).trans hms).trans (hnormal hperm').symm,
          fun hms => ((hnormal hperm).symm.trans hms).trans (hnormal hperm')⟩
    _ ↔ normalMembers byName (places.map Prod.fst) =
          normalMembers byName (places.map Prod.snd) :=
        ⟨fun hms => eq_of_perm_of_names hms haligned hnodup, fun hms => hms ▸ List.Perm.refl _⟩
    _ ↔ ∀ p ∈ places, p.1.1 = p.2.1 ∧ Same byName p.1.2 p.2.2 := by
        rw [normalMembers_eq, normalMembers_eq, List.map_map, List.map_map, List.map_inj_left]
        refine forall₂_congr fun p hp => ?_
        simp [Same]

end Names

section Rows

/-- A row as a driver hands it over: its dicts have one member of a name. -/
structure DriverRow where
  cells : List Json
  distinct : Everywhere DistinctNames (.list cells)

/-- The same cells, up to the order of the members of dicts. -/
def SameRow (row other : DriverRow) : Prop :=
  List.Forall₂ (Same byName) row.cells other.cells

variable [Printing]

/-- The rows count as one only if they are the same. -/
def Faithful (row other : DriverRow) : Prop :=
  rowKey (canonicalRow row.cells) = rowKey (canonicalRow other.cells) → SameRow row other

theorem rowKey_canonicalRow_iff {row other : List Json} :
    rowKey (canonicalRow row) = rowKey (canonicalRow other) ↔
      key (freeze (.list row)) = key (freeze (.list other)) := by
  have hlist (items : List Json) :
      key (freeze (.list items)) = .branch (rowKey (canonicalRow items)) := by
    rw [freeze, freezeAll_eq, key, RoseTree.map_branch]
    rfl
  rw [hlist, hlist, RoseTree.branch.injEq]

/-- Cells freeze to one key just when they read alike, with dicts by the literals of names. -/
theorem key_freeze_iff {v w : Json} (hv : Everywhere DistinctNames v)
    (hw : Everywhere DistinctNames w) :
    key (freeze v) = key (freeze w) ↔ ∃ c, Alike byLiteral true c v w := by
  rw [tuples_freeze.key_eq_iff]
  refine exists_congr fun c => ⟨fun h => ?_, fun h => ?_⟩
  · exact h.arranged perm_asFrozen (fun _ => asFrozen_eq) hv hw
  · exact h.arranged perm_byLiteral (fun _ h => (asFrozen_eq h).symm) hv hw

theorem same_iff_of_alike {c : Bool} {v w : Json} (h : Alike byLiteral true c v w)
    (hv : Everywhere DistinctNames v) (hw : Everywhere DistinctNames w) :
    Same byName v w ↔ c = false :=
  h.same_iff perm_byLiteral (fun _ _ h _ => aligned_byLiteral h) hv hw

omit [Printing] in
theorem sameRow_iff {row other : DriverRow} :
    SameRow row other ↔ Same byName (.list row.cells) (.list other.cells) :=
  same_list_iff.symm

/-- Two rows are kept apart unless they read alike with, somewhere, values of two kinds. -/
theorem faithful_iff {row other : DriverRow} :
    Faithful row other ↔ ¬Alike byLiteral true true (.list row.cells) (.list other.cells) := by
  rw [Faithful, rowKey_canonicalRow_iff, key_freeze_iff row.distinct other.distinct, sameRow_iff]
  constructor
  · intro h halike
    have hsame := h ⟨true, halike⟩
    rw [same_iff_of_alike halike row.distinct other.distinct] at hsame
    cases hsame
  · rintro h ⟨c, halike⟩
    rw [same_iff_of_alike halike row.distinct other.distinct]
    cases c with
    | false => rfl
    | true => exact absurd halike h

/-- Rows over kinds of which no two freeze alike are kept apart. -/
theorem faithful_of_apart {kinds : Kind → Prop} (h : Apart kinds) {row other : DriverRow}
    (hrow : ∀ cell ∈ row.cells, Over kinds cell) (hother : ∀ cell ∈ other.cells, Over kinds cell) :
    Faithful row other := by
  rw [faithful_iff]
  intro halike
  have hflag := halike.flag_list hrow hother fun hcells hv hw =>
    h.flag (.inl rfl) hcells perm_byLiteral hv hw
  exact Bool.false_ne_true hflag.symm

/-- If rows over some kinds are kept apart, no two of the kinds freeze alike. -/
theorem apart_of_faithful {kinds : Kind → Prop}
    (h : ∀ row other : DriverRow, (∀ cell ∈ row.cells, Over kinds cell) →
      (∀ cell ∈ other.cells, Over kinds cell) → Faithful row other) : Apart kinds := by
  apply @Tuples.apart _ _ _ _ tuples_freeze DistinctNames rfl List.nodup_nil
  intro v w hv hw hover hover' hkey
  have hrow := h ⟨[v], ⟨hv, trivial⟩⟩ ⟨[w], ⟨hw, trivial⟩⟩ (by simpa using hover)
    (by simpa using hover') (by simp [rowKey, canonicalRow, hkey])
  rw [SameRow, List.forall₂_cons] at hrow
  exact hrow.1.kind

/--
Two rows are kept apart unless they read alike and hold, at some place, values of two kinds; and
rows over some kinds always are just when no two of the kinds freeze alike.
-/
theorem freeze_faithful_iff :
    (∀ row other : DriverRow,
      Faithful row other ↔ ¬Alike byLiteral true true (.list row.cells) (.list other.cells)) ∧
    ∀ kinds : Kind → Prop,
      (∀ row other : DriverRow, (∀ cell ∈ row.cells, Over kinds cell) →
        (∀ cell ∈ other.cells, Over kinds cell) → Faithful row other) ↔ Apart kinds :=
  ⟨fun _ _ => faithful_iff, fun _ =>
    ⟨apart_of_faithful, fun h _ _ hrow hother => faithful_of_apart h hrow hother⟩⟩

omit [Printing] in
/-- The empty list and the empty object are one cell. -/
theorem freeze_merges_empty :
    ¬@Faithful wholePrinting ⟨[.list []], by simp [Everywhere, EverywhereAll]⟩
      ⟨[.object []], by simp [Everywhere, EverywhereAll, EverywhereMembers, DistinctNames]⟩ := by
  intro h
  have hsame := h rfl
  rw [SameRow, List.forall₂_cons] at hsame
  cases hsame.1.kind

end Rows

end EqGen.Fuzz.Freeze
