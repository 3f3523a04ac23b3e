import EqGen.Fuzz.Frozen

/-!
Cells that are JSON values: when two are one value, and when they only read alike because a tuple
does not tell what it was made of.
-/

namespace EqGen.Fuzz.JsonValues

open EqGen.Fuzz.Frozen
open EqGen.Lib.Trees

/-- A cell as a driver decodes it from JSON. -/
inductive Json where
  | null
  | bool (value : Bool)
  | int (value : ℤ)
  | float (value : ℚ)
  | nan
  | infinite (positive : Bool)
  | string (value : String)
  | list (items : List Json)
  | object (members : List (String × Json))

/-- The members of an object in the order of its text, names repeated where it repeats them. -/
abbrev Members := List (String × Json)

inductive Kind where
  | null
  | bool
  | number
  | nan
  | infinite
  | string
  | list
  | object
  deriving DecidableEq

def Json.kind : Json → Kind
  | .null => .null
  | .bool _ => .bool
  | .int _ | .float _ => .number
  | .nan => .nan
  | .infinite _ => .infinite
  | .string _ => .string
  | .list _ => .list
  | .object _ => .object

section Same

mutual

/-- The value of a cell: numbers by value, the members of objects in an order. -/
def normal (order : Members → Members) : Json → Json
  | .int value => .float value
  | .list items => .list (normalAll order items)
  | .object members => .object (order (normalMembers order members))
  | value => value

def normalAll (order : Members → Members) : List Json → List Json
  | [] => []
  | item :: items => normal order item :: normalAll order items

def normalMembers (order : Members → Members) : Members → Members
  | [] => []
  | (name, value) :: members => (name, normal order value) :: normalMembers order members

end

/-- The cells are one value, up to what the order leaves of the order of members. -/
def Same (order : Members → Members) (v w : Json) : Prop :=
  normal order v = normal order w

variable {order : Members → Members}

theorem normalAll_eq (items : List Json) : normalAll order items = items.map (normal order) := by
  induction items with
  | nil => rfl
  | cons item items ih => rw [normalAll, ih, List.map_cons]

theorem normalMembers_eq (members : Members) :
    normalMembers order members = members.map fun m => (m.1, normal order m.2) := by
  induction members with
  | nil => rfl
  | cons member members ih => rw [normalMembers, ih, List.map_cons]

theorem same_list_iff {items items' : List Json} :
    Same order (.list items) (.list items') ↔ List.Forall₂ (Same order) items items' := by
  rw [Same, normal, normal, normalAll_eq, normalAll_eq, Json.list.injEq, ← List.forall₂_eq_eq_eq,
    List.forall₂_map_left_iff, List.forall₂_map_right_iff]
  rfl

theorem Same.kind {v w : Json} (h : Same order v w) : v.kind = w.kind := by
  have hkind (v : Json) : (normal order v).kind = v.kind := by
    cases v <;> simp [normal, Json.kind]
  rw [← hkind v, ← hkind w, h]

end Same

section Everywhere

variable (good : Members → Prop)

mutual

/-- The members of every object in it are good. -/
def Everywhere : Json → Prop
  | .list items => EverywhereAll items
  | .object members => good members ∧ EverywhereMembers members
  | _ => True

def EverywhereAll : List Json → Prop
  | [] => True
  | item :: items => Everywhere item ∧ EverywhereAll items

def EverywhereMembers : Members → Prop
  | [] => True
  | (_, value) :: members => Everywhere value ∧ EverywhereMembers members

end

variable {good : Members → Prop}

theorem everywhereAll_iff {items : List Json} :
    EverywhereAll good items ↔ ∀ item ∈ items, Everywhere good item := by
  induction items with
  | nil => simp [EverywhereAll]
  | cons item items ih => rw [EverywhereAll, ih, List.forall_mem_cons]

theorem everywhereMembers_iff {members : Members} :
    EverywhereMembers good members ↔ ∀ member ∈ members, Everywhere good member.2 := by
  induction members with
  | nil => simp [EverywhereMembers]
  | cons member members ih => rw [EverywhereMembers, ih, List.forall_mem_cons]

mutual

theorem everywhere_of_forall (h : ∀ members, good members) : (v : Json) → Everywhere good v
  | .list items => everywhereAll_of_forall h items
  | .object members => ⟨h members, everywhereMembers_of_forall h members⟩
  | .null | .bool _ | .int _ | .float _ | .nan | .infinite _ | .string _ => trivial

theorem everywhereAll_of_forall (h : ∀ members, good members) :
    (items : List Json) → EverywhereAll good items
  | [] => trivial
  | item :: items => ⟨everywhere_of_forall h item, everywhereAll_of_forall h items⟩

theorem everywhereMembers_of_forall (h : ∀ members, good members) :
    (members : Members) → EverywhereMembers good members
  | [] => trivial
  | (_, value) :: members => ⟨everywhere_of_forall h value, everywhereMembers_of_forall h members⟩

end

end Everywhere

section Alike

/-- What a value that becomes no tuple is compared by. -/
def atomKey : Json → Option Key
  | .null => some .none
  | .bool value => some (.number (if value then 1 else 0))
  | .int value => some (.number value)
  | .float value => some (.number value)
  | .string value => some (.text value)
  | _ => none

/-- A member as an item: with its name as a list of two, or its value alone. -/
def spell (named : Bool) (member : String × Json) : Json :=
  if named then .list [.string member.1, member.2] else member.2

/-- The items of the tuple that a value becomes. -/
def tupleItems (arrange : Members → Members) (named : Bool) : Json → Option (List Json)
  | .nan => some [.string "__nan__"]
  | .infinite positive => some [.string "__inf__", .bool positive]
  | .list items => some items
  | .object members => some ((arrange members).map (spell named))
  | _ => none

/--
The values read alike: numbers and booleans by their number, tuples by their items, whatever they
were made of. The flag tells whether, at some place, values of different kinds read alike, or
members of different names.
-/
inductive Alike (arrange : Members → Members) (named : Bool) : Bool → Json → Json → Prop
  | atom {v w : Json} {key : Key} (hv : atomKey v = some key) (hw : atomKey w = some key) :
    Alike arrange named (decide (v.kind ≠ w.kind)) v w
  | tuple {v w : Json} (places : List (Bool × Json × Json))
    (hkind : v.kind ≠ .object ∨ w.kind ≠ .object)
    (hv : tupleItems arrange named v = some (places.map fun p => p.2.1))
    (hw : tupleItems arrange named w = some (places.map fun p => p.2.2))
    (h : ∀ p ∈ places, Alike arrange named p.1 p.2.1 p.2.2) :
    Alike arrange named (places.any (fun p => p.1) || decide (v.kind ≠ w.kind)) v w
  | object {members members' : Members} (places : List (Bool × (String × Json) × String × Json))
    (hv : arrange members = places.map fun p => p.2.1)
    (hw : arrange members' = places.map fun p => p.2.2)
    (hnamed : named = true → ∀ p ∈ places, p.2.1.1 = p.2.2.1)
    (h : ∀ p ∈ places, Alike arrange named p.1 p.2.1.2 p.2.2.2) :
    Alike arrange named (places.any fun p => p.1 || decide (p.2.1.1 ≠ p.2.2.1))
      (.object members) (.object members')

variable {arrange : Members → Members} {named : Bool}

theorem tupleItems_eq_none_iff {v : Json} :
    tupleItems arrange named v = none ↔ (atomKey v).isSome = true := by
  cases v <;> simp [tupleItems, atomKey]

/-- Two lists read alike item by item. -/
theorem Alike.places {c : Bool} {items items' : List Json}
    (h : Alike arrange named c (.list items) (.list items')) :
    List.Forall₂ (fun v w => ∃ c, Alike arrange named c v w) items items' := by
  cases h with
  | atom hv hw => cases hv
  | tuple places hkind hv hw h =>
      obtain rfl := Option.some.inj hv
      obtain rfl := Option.some.inj hw
      rw [List.forall₂_map_left_iff, List.forall₂_map_right_iff, List.forall₂_same]
      exact fun p hp => ⟨p.1, h p hp⟩

theorem exists_places {α : Type} {r : Bool → α → α → Prop} {as bs : List α}
    (h : List.Forall₂ (fun a b => ∃ c, r c a b) as bs) :
    ∃ places : List (Bool × α × α), as = places.map (fun p => p.2.1) ∧
      bs = places.map (fun p => p.2.2) ∧ ∀ p ∈ places, r p.1 p.2.1 p.2.2 := by
  induction h with
  | nil => exact ⟨[], rfl, rfl, List.forall_mem_nil _⟩
  | @cons a b as bs hab _ ih =>
      obtain ⟨c, hc⟩ := hab
      obtain ⟨places, rfl, rfl, hplaces⟩ := ih
      exact ⟨(c, a, b) :: places, rfl, rfl, List.forall_mem_cons.mpr ⟨hc, hplaces⟩⟩

end Alike

section Keys

theorem forall₂_of_map_eq {α γ : Type} {f : α → γ} {r : α → α → Prop} {as bs : List α}
    (hr : ∀ a ∈ as, ∀ b, f a = f b → r a b) (h : as.map f = bs.map f) : List.Forall₂ r as bs := by
  induction as generalizing bs with
  | nil =>
      rw [List.map_eq_nil_iff.mp h.symm]
      exact .nil
  | cons a as ih =>
      cases bs with
      | nil => cases h
      | cons b bs =>
          rw [List.map_cons, List.map_cons, List.cons.injEq] at h
          exact .cons (hr a List.mem_cons_self b h.1)
            (ih (fun a' ha' => hr a' (List.mem_cons_of_mem _ ha')) h.2)

variable {arrange : Members → Members} {named : Bool} {keyOf : Json → RoseTree Key}

/-- The key of a value: the atom it is compared by, or the keys of the items of its tuple. -/
structure Tuples (arrange : Members → Members) (named : Bool) (keyOf : Json → RoseTree Key) :
    Prop where
  atom : ∀ {v key}, atomKey v = some key → keyOf v = .leaf key
  tuple : ∀ {v items}, tupleItems arrange named v = some items →
    keyOf v = .branch (items.map keyOf)

theorem Tuples.cases (h : Tuples arrange named keyOf) (v : Json) :
    (∃ key, atomKey v = some key ∧ keyOf v = .leaf key) ∨
      ∃ items, tupleItems arrange named v = some items ∧ keyOf v = .branch (items.map keyOf) := by
  cases hitems : tupleItems arrange named v with
  | some items => exact .inr ⟨items, rfl, h.tuple hitems⟩
  | none =>
      obtain ⟨key, hkey⟩ := Option.isSome_iff_exists.mp (tupleItems_eq_none_iff.mp hitems)
      exact .inl ⟨key, hkey, h.atom hkey⟩

theorem Tuples.key_eq (h : Tuples arrange named keyOf) {c : Bool} {v w : Json}
    (halike : Alike arrange named c v w) : keyOf v = keyOf w := by
  induction halike with
  | atom hv hw => rw [h.atom hv, h.atom hw]
  | tuple places hkind hv hw _ ih =>
      rw [h.tuple hv, h.tuple hw, List.map_map, List.map_map]
      exact congrArg RoseTree.branch (List.map_congr_left ih)
  | @object members members' places hv hw hnamed _ ih =>
      rw [@Tuples.tuple _ _ _ h (.object members) _ rfl,
        @Tuples.tuple _ _ _ h (.object members') _ rfl, hv, hw]
      simp only [List.map_map]
      refine congrArg RoseTree.branch (List.map_congr_left fun p hp => ?_)
      simp only [Function.comp_apply]
      cases hnames : named with
      | false => exact ih p hp
      | true =>
          have hpair (m : String × Json) :
              keyOf (spell true m) = .branch [.leaf (.text m.1), keyOf m.2] := by
            have hlist := @Tuples.tuple _ _ _ h (.list [.string m.1, m.2]) _ rfl
            rw [spell, if_pos rfl, hlist]
            simp [@Tuples.atom _ _ _ h (.string m.1) _ rfl]
          rw [hpair, hpair, ih p hp, hnamed hnames p hp]

/-- Two members read alike as items only if their values do, and their names if they are kept. -/
theorem alike_of_spell {c : Bool} {m m' : String × Json}
    (h : Alike arrange named c (spell named m) (spell named m')) :
    (named = true → m.1 = m'.1) ∧ ∃ c, Alike arrange named c m.2 m'.2 := by
  cases hnamed : named with
  | false =>
      rw [hnamed] at h
      exact ⟨fun h => absurd h Bool.false_ne_true, c, h⟩
  | true =>
      rw [hnamed] at h
      have hplaces := h.places
      rw [List.forall₂_cons, List.forall₂_cons] at hplaces
      obtain ⟨⟨d, hname⟩, hvalue, -⟩ := hplaces
      refine ⟨fun _ => ?_, hvalue⟩
      cases hname with
      | atom hv hw => exact Key.text.inj (Option.some.inj (hv.trans hw.symm))
      | tuple places hkind hv hw h => cases hv

theorem Tuples.alike (h : Tuples arrange named keyOf) (t : RoseTree Key) :
    ∀ v w, keyOf v = t → keyOf w = t → ∃ c, Alike arrange named c v w := by
  apply RoseTree.induction_on t
  · intro key v w hv hw
    rcases h.cases v with ⟨k, hk, hkv⟩ | ⟨items, -, hkv⟩
    · rcases h.cases w with ⟨k', hk', hkw⟩ | ⟨items, -, hkw⟩
      · rw [hkv] at hv
        rw [hkw] at hw
        rw [RoseTree.leaf.inj (hv.trans hw.symm)] at hk
        exact ⟨_, .atom hk hk'⟩
      · rw [hkw] at hw
        cases hw
    · rw [hkv] at hv
      cases hv
  · intro ts ih v w hv hw
    rcases h.cases v with ⟨k, -, hkv⟩ | ⟨items, hitems, hkv⟩
    · rw [hkv] at hv
      cases hv
    rcases h.cases w with ⟨k, -, hkw⟩ | ⟨items', hitems', hkw⟩
    · rw [hkw] at hw
      cases hw
    rw [hkv] at hv
    rw [hkw] at hw
    -- The items read alike one by one.
    have hall : List.Forall₂ (fun v w => ∃ c, Alike arrange named c v w) items items' := by
      apply forall₂_of_map_eq _ (RoseTree.branch.inj (hv.trans hw.symm))
      intro x hx y hxy
      refine ih (keyOf x) ?_ x y rfl hxy.symm
      rw [← RoseTree.branch.inj hv]
      exact List.mem_map_of_mem hx
    by_cases hkind : v.kind = .object ∧ w.kind = .object
    · cases v <;> try cases hkind.1
      cases w <;> try cases hkind.2
      obtain rfl := Option.some.inj hitems
      obtain rfl := Option.some.inj hitems'
      rw [List.forall₂_map_left_iff, List.forall₂_map_right_iff] at hall
      obtain ⟨places, hv', hw', hplaces⟩ := exists_places (hall.imp fun m m' h => by
        obtain ⟨c, hc⟩ := h
        obtain ⟨hname, d, hd⟩ := alike_of_spell hc
        exact (⟨d, hname, hd⟩ : ∃ d, (named = true → m.1 = m'.1) ∧
          Alike arrange named d m.2 m'.2))
      exact ⟨_, .object places hv' hw' (fun hnamed p hp => (hplaces p hp).1 hnamed)
        fun p hp => (hplaces p hp).2⟩
    · obtain ⟨places, rfl, rfl, hplaces⟩ := exists_places hall
      exact ⟨_, .tuple places (not_and_or.mp hkind) hitems hitems' hplaces⟩

/-- Two values have one key just when they read alike. -/
theorem Tuples.key_eq_iff (h : Tuples arrange named keyOf) {v w : Json} :
    keyOf v = keyOf w ↔ ∃ c, Alike arrange named c v w :=
  ⟨fun heq => h.alike _ v w rfl heq.symm, fun ⟨_, halike⟩ => h.key_eq halike⟩

end Keys

section Confusion

variable {arrange order : Members → Members} {named : Bool}

/-- Two objects that read alike are the same if their members in turn are. -/
def Aligned (arrange order : Members → Members) (named : Bool) (members members' : Members) :
    Prop :=
  ∀ places : List ((String × Json) × String × Json), arrange members = places.map Prod.fst →
    arrange members' = places.map Prod.snd → (named = true → ∀ p ∈ places, p.1.1 = p.2.1) →
      (Same order (.object members) (.object members') ↔
        ∀ p ∈ places, p.1.1 = p.2.1 ∧ Same order p.1.2 p.2.2)

theorem same_of_atomKey {v w : Json} {key : Key} (hv : atomKey v = some key)
    (hw : atomKey w = some key) : Same order v w ↔ v.kind = w.kind := by
  refine ⟨Same.kind, fun hkind => ?_⟩
  have heq := hv.trans hw.symm
  unfold Same
  -- Of one kind, the key tells the value.
  cases v <;> cases w <;> cases hkind
  case null.null => rfl
  case bool.bool b b' => cases b <;> cases b' <;> first | rfl | simp [atomKey] at heq
  case int.int n n' => simpa [atomKey, normal] using heq
  case int.float n x => simpa [atomKey, normal] using heq
  case float.int x n => simpa [atomKey, normal] using heq
  case float.float x x' => simpa [atomKey, normal] using heq
  case string.string s s' => simpa [atomKey, normal] using heq
  all_goals cases hv

theorem same_tuple_iff {v w : Json} {items items' : List Json} (hkind : v.kind = w.kind)
    (hobject : v.kind ≠ .object) (hv : tupleItems arrange named v = some items)
    (hw : tupleItems arrange named w = some items') :
    Same order v w ↔ List.Forall₂ (Same order) items items' := by
  cases v <;> cases w <;> cases hkind
  case object.object => exact absurd rfl hobject
  case list.list =>
      obtain rfl := Option.some.inj hv
      obtain rfl := Option.some.inj hw
      exact same_list_iff
  case nan.nan =>
      obtain rfl := Option.some.inj hv
      obtain rfl := Option.some.inj hw
      simp [Same]
  case infinite.infinite positive positive' =>
      obtain rfl := Option.some.inj hv
      obtain rfl := Option.some.inj hw
      simp [Same, normal]
  all_goals cases hv

theorem Everywhere.items {good : Members → Prop} (hperm : ∀ members, (arrange members).Perm members)
    {v : Json} {items : List Json} (h : Everywhere good v)
    (hitems : tupleItems arrange named v = some items) : ∀ item ∈ items, Everywhere good item := by
  cases v <;> cases hitems
  case list => exact everywhereAll_iff.mp h
  case nan => simp [Everywhere]
  case infinite => simp [Everywhere]
  case object members =>
    intro item hitem
    obtain ⟨member, hmember, rfl⟩ := List.mem_map.mp hitem
    have hvalue := everywhereMembers_iff.mp h.2 member ((hperm members).mem_iff.mp hmember)
    cases named <;> simp [spell, Everywhere, EverywhereAll, hvalue]

/-- Values that read alike do so in any arrangement that is the same for their objects. -/
theorem Alike.arranged {arrange' : Members → Members} {good : Members → Prop}
    (hperm : ∀ members, (arrange members).Perm members)
    (harrange : ∀ members, good members → arrange members = arrange' members) {c : Bool}
    {v w : Json} (h : Alike arrange named c v w) (hv : Everywhere good v)
    (hw : Everywhere good w) : Alike arrange' named c v w := by
  have htuple {v : Json} (hv : Everywhere good v) :
      tupleItems arrange' named v = tupleItems arrange named v := by
    cases v with
    | object members => rw [tupleItems, tupleItems, harrange members hv.1]
    | _ => rfl
  induction h with
  | atom hkey hkey' => exact .atom hkey hkey'
  | @tuple v w places hkind hitems hitems' _ ih =>
      have hplaces := hv.items hperm hitems
      have hplaces' := hw.items hperm hitems'
      rw [List.forall_mem_map] at hplaces hplaces'
      exact .tuple places hkind ((htuple hv).trans hitems) ((htuple hw).trans hitems')
        fun p hp => ih p hp (hplaces p hp) (hplaces' p hp)
  | @object members members' places hitems hitems' hnamed _ ih =>
      have hvalue {ms : Members} (hms : Everywhere good (.object ms)) {m : String × Json}
          (hm : m ∈ arrange ms) : Everywhere good m.2 :=
        everywhereMembers_iff.mp hms.2 m ((hperm ms).mem_iff.mp hm)
      refine .object places ((harrange members hv.1).symm.trans hitems)
        ((harrange members' hw.1).symm.trans hitems') hnamed fun p hp => ?_
      apply ih p hp
      · exact hvalue hv (hitems ▸ List.mem_map_of_mem hp)
      · exact hvalue hw (hitems' ▸ List.mem_map_of_mem hp)

/-- The flag tells whether values that read alike are different. -/
theorem Alike.same_iff {good : Members → Prop} (hperm : ∀ members, (arrange members).Perm members)
    (haligned : ∀ members members', good members → good members' →
      Aligned arrange order named members members')
    {c : Bool} {v w : Json} (h : Alike arrange named c v w) (hv : Everywhere good v)
    (hw : Everywhere good w) : Same order v w ↔ c = false := by
  induction h with
  | atom hkey hkey' =>
      rw [same_of_atomKey hkey hkey', decide_eq_false_iff_not, not_not]
  | @tuple v w places hkind hitems hitems' _ ih =>
      rw [Bool.or_eq_false_iff, decide_eq_false_iff_not, not_not]
      by_cases heq : v.kind = w.kind
      · have hobject : v.kind ≠ .object := by
          rcases hkind with h | h
          · exact h
          · rwa [heq]
        have hplaces := hv.items hperm hitems
        have hplaces' := hw.items hperm hitems'
        rw [List.forall_mem_map] at hplaces hplaces'
        rw [same_tuple_iff heq hobject hitems hitems', List.forall₂_map_left_iff,
          List.forall₂_map_right_iff, List.forall₂_same, List.any_eq_false]
        simp only [heq, and_true, Bool.not_eq_true]
        exact forall₂_congr fun p hp => ih p hp (hplaces p hp) (hplaces' p hp)
      · exact iff_of_false (fun hsame => heq hsame.kind) fun h => heq h.2
  | @object members members' places hitems hitems' hnamed _ ih =>
      have hvalue {ms : Members} (hms : Everywhere good (.object ms)) {m : String × Json}
          (hm : m ∈ arrange ms) : Everywhere good m.2 :=
        everywhereMembers_iff.mp hms.2 m ((hperm ms).mem_iff.mp hm)
      have hmem (p) (hp : p ∈ places) : Everywhere good p.2.1.2 :=
        hvalue hv (hitems ▸ List.mem_map_of_mem hp)
      have hmem' (p) (hp : p ∈ places) : Everywhere good p.2.2.2 :=
        hvalue hw (hitems' ▸ List.mem_map_of_mem hp)
      have hsame := haligned members members' hv.1 hw.1 (places.map fun p => p.2)
        (by rw [hitems, List.map_map]; rfl) (by rw [hitems', List.map_map]; rfl)
        (fun h => List.forall_mem_map.mpr (hnamed h))
      rw [hsame, List.forall_mem_map, List.any_eq_false]
      refine forall₂_congr fun p hp => ?_
      rw [Bool.not_eq_true, Bool.or_eq_false_iff, decide_eq_false_iff_not, not_not,
        ih p hp (hmem p hp) (hmem' p hp), and_comm]

end Confusion

section Kinds

/-- Every value in it, at any depth, is of these kinds. -/
inductive Over (kinds : Kind → Prop) : Json → Prop
  | list {items : List Json} (hkind : kinds .list) (h : ∀ item ∈ items, Over kinds item) :
    Over kinds (.list items)
  | object {members : Members} (hkind : kinds .object) (h : ∀ m ∈ members, Over kinds m.2) :
    Over kinds (.object members)
  | other {v : Json} (hkind : kinds v.kind) (hlist : v.kind ≠ .list) (hobject : v.kind ≠ .object) :
    Over kinds v

variable {kinds : Kind → Prop}

theorem Over.kind {v : Json} (h : Over kinds v) : kinds v.kind := by
  cases h <;> assumption

/--
No two of these kinds freeze alike: booleans and numbers, lists and objects, and the floats that
are not finite beside the lists that spell their tuples.
-/
structure Apart (kinds : Kind → Prop) : Prop where
  numbers : ¬(kinds .bool ∧ kinds .number)
  tuples : ¬(kinds .list ∧ kinds .object)
  nan : ¬(kinds .nan ∧ kinds .list ∧ kinds .string)
  infinite : ¬(kinds .infinite ∧ kinds .list ∧ kinds .string ∧ (kinds .bool ∨ kinds .number))

variable {arrange : Members → Members} {named c : Bool}

/-- What reads like a string is one, and what reads like a boolean is one or a number. -/
structure Kin (v w : Json) : Prop where
  string : v.kind = .string → w.kind = .string
  bool : v.kind = .bool → w.kind = .bool ∨ w.kind = .number

/-- The form of the key tells the kind, but for booleans and numbers. -/
theorem kind_of_atomKey {v : Json} {key : Key} (h : atomKey v = some key) :
    v.kind = .null ∧ key = .none ∨
      (v.kind = .bool ∨ v.kind = .number) ∧ (∃ n, key = .number n) ∨
      v.kind = .string ∧ ∃ s, key = .text s := by
  cases v <;> cases h <;> simp [Json.kind]

theorem kin_of_atomKey {v w : Json} {key : Key} (hv : atomKey v = some key)
    (hw : atomKey w = some key) : Kin v w := by
  have hv := kind_of_atomKey hv
  have hw := kind_of_atomKey hw
  constructor
  · grind
  · grind

theorem kin_of_alike {v w : Json} (h : Alike arrange named c v w) : Kin v w ∧ Kin w v := by
  cases h with
  | atom hv hw => exact ⟨kin_of_atomKey hv hw, kin_of_atomKey hw hv⟩
  | tuple places hkind hv hw h =>
      have hkin {u u' : Json} {items : List Json} (hu : tupleItems arrange named u = some items) :
          Kin u u' := by
        constructor <;>
        · intro hkind
          cases u <;> cases hkind
          cases hu
      exact ⟨hkin hv, hkin hw⟩
  | object places hv hw hnamed h =>
      exact ⟨⟨fun h => Kind.noConfusion h, fun h => Kind.noConfusion h⟩,
        ⟨fun h => Kind.noConfusion h, fun h => Kind.noConfusion h⟩⟩

theorem kinds_of_atomKey {v w : Json} {key : Key} (hv : atomKey v = some key)
    (hw : atomKey w = some key) (hne : v.kind ≠ w.kind) :
    v.kind = .bool ∧ w.kind = .number ∨ v.kind = .number ∧ w.kind = .bool := by
  have hv := kind_of_atomKey hv
  have hw := kind_of_atomKey hw
  grind

/-- A text or a boolean that reads like a value of its kind is that value. -/
theorem flag_of_atom {v w : Json} (h : Alike arrange named c v w)
    (hatom : v.kind = .string ∨ v.kind = .bool) (hkind : v.kind = w.kind) : c = false := by
  cases h with
  | atom hv hw => simp [hkind]
  | tuple places _ hv hw h =>
      cases v <;> simp [Json.kind] at hatom
      all_goals cases hv
  | object places hv hw hnamed h => simp [Json.kind] at hatom

theorem Over.items {v : Json} {items : List Json} (h : Over kinds v) (hlist : v.kind = .list)
    (hitems : tupleItems arrange named v = some items) : ∀ item ∈ items, Over kinds item := by
  cases v <;> cases hlist
  cases hitems
  cases h with
  | list _ h => exact h
  | other _ hlist _ => exact absurd rfl hlist

/-- A tuple of two kinds that reads like that of a float that is not finite is one. -/
theorem Apart.kind_of_sentinel (hapart : Apart kinds) (hnamed : named = true ∨ ¬kinds .object)
    {v w : Json} {items items' : List Json}
    (hv : Over kinds v) (hw : Over kinds w) (hsentinel : v.kind = .nan ∨ v.kind = .infinite)
    (hitems : tupleItems arrange named v = some items)
    (hitems' : tupleItems arrange named w = some items') (hall : List.Forall₂ Kin items items') :
    w.kind = v.kind := by
  have hlength := hall.length_eq
  -- The first item is a string, and so not the member of an object.
  obtain ⟨x, rest, rfl, hx⟩ : ∃ x rest, items = x :: rest ∧ x.kind = .string := by
    cases v <;> simp [Json.kind] at hsentinel
    · exact ⟨_, _, (Option.some.inj hitems).symm, rfl⟩
    · exact ⟨_, _, (Option.some.inj hitems).symm, rfl⟩
  cases items' with
  | nil => cases hlength
  | cons y rest' =>
      rw [List.forall₂_cons] at hall
      have hy := hall.1.string hx
      have hkinds := hv.kind
      cases hwkind : w.kind with
      | list =>
          have hover := hw.items hwkind hitems'
          have hstring := (hover y List.mem_cons_self).kind
          rw [hy] at hstring
          have hlist := hw.kind
          rw [hwkind] at hlist
          rcases hsentinel with h | h
          · rw [h] at hkinds
            exact absurd ⟨hkinds, hlist, hstring⟩ hapart.nan
          · cases v <;> cases h
            obtain ⟨rfl, rfl⟩ := List.cons.inj (Option.some.inj hitems)
            obtain ⟨-, hrest⟩ := hall
            cases rest' with
            | nil => cases hlength
            | cons z rest' =>
                rw [List.forall₂_cons] at hrest
                have hz := (hover z (by simp)).kind
                rcases hrest.1.bool rfl with h | h
                · rw [h] at hz
                  exact absurd ⟨hkinds, hlist, hstring, .inl hz⟩ hapart.infinite
                · rw [h] at hz
                  exact absurd ⟨hkinds, hlist, hstring, .inr hz⟩ hapart.infinite
      | object =>
          have hnamed := hnamed.resolve_right (not_not_intro (hwkind ▸ hw.kind))
          cases w <;> cases hwkind
          obtain ⟨m, -, rfl⟩ := List.mem_map.mp
            ((Option.some.inj hitems').symm ▸ List.mem_cons_self : y ∈ List.map _ _)
          rw [spell, if_pos hnamed] at hy
          cases hy
      | nan =>
          cases w <;> cases hwkind
          cases v <;> simp [Json.kind] at hsentinel ⊢
          obtain ⟨-, rfl⟩ := List.cons.inj (Option.some.inj hitems)
          obtain ⟨-, rfl⟩ := List.cons.inj (Option.some.inj hitems')
          cases hlength
      | infinite =>
          cases w <;> cases hwkind
          cases v <;> simp [Json.kind] at hsentinel ⊢
          obtain ⟨-, rfl⟩ := List.cons.inj (Option.some.inj hitems)
          obtain ⟨-, rfl⟩ := List.cons.inj (Option.some.inj hitems')
          cases hlength
      | _ => cases w <;> cases hwkind <;> cases hitems'

/-- Where no two kinds freeze alike, no two different values do. -/
theorem Apart.flag (hapart : Apart kinds) (hnames : named = true ∨ ¬kinds .object) {v w : Json}
    (h : Alike arrange named c v w)
    (hperm : ∀ members, (arrange members).Perm members) (hv : Over kinds v) (hw : Over kinds w) :
    c = false := by
  induction h with
  | @atom v w key hkey hkey' =>
      rw [decide_eq_false_iff_not, not_not]
      by_contra hne
      have hkinds := hv.kind
      have hkinds' := hw.kind
      rcases kinds_of_atomKey hkey hkey' hne with ⟨h, h'⟩ | ⟨h, h'⟩
      · rw [h] at hkinds
        rw [h'] at hkinds'
        exact hapart.numbers ⟨hkinds, hkinds'⟩
      · rw [h] at hkinds
        rw [h'] at hkinds'
        exact hapart.numbers ⟨hkinds', hkinds⟩
  | @tuple v w places hkind hitems hitems' h ih =>
      have hkin : List.Forall₂ Kin (places.map fun p => p.2.1) (places.map fun p => p.2.2) := by
        rw [List.forall₂_map_left_iff, List.forall₂_map_right_iff, List.forall₂_same]
        exact fun p hp => (kin_of_alike (h p hp)).1
      have hkin' : List.Forall₂ Kin (places.map fun p => p.2.2) (places.map fun p => p.2.1) := by
        rw [List.forall₂_map_left_iff, List.forall₂_map_right_iff, List.forall₂_same]
        exact fun p hp => (kin_of_alike (h p hp)).2
      have hsentinel (v : Json) (hv : (tupleItems arrange named v).isSome) :
          v.kind = .list ∨ v.kind = .object ∨ v.kind = .nan ∨ v.kind = .infinite := by
        cases v <;> simp [tupleItems, Json.kind] at hv ⊢
      have heq : v.kind = w.kind := by
        rcases hsentinel v (by simp [hitems]) with hlist | hobject | hsv
        · rcases hsentinel w (by simp [hitems']) with hlist' | hobject' | hsw
          · rw [hlist, hlist']
          · exact absurd ⟨hlist ▸ hv.kind, hobject' ▸ hw.kind⟩ hapart.tuples
          · exact hapart.kind_of_sentinel hnames hw hv hsw hitems' hitems hkin'
        · rcases hsentinel w (by simp [hitems']) with hlist' | hobject' | hsw
          · exact absurd ⟨hlist' ▸ hw.kind, hobject ▸ hv.kind⟩ hapart.tuples
          · rw [hobject, hobject']
          · exact hapart.kind_of_sentinel hnames hw hv hsw hitems' hitems hkin'
        · exact (hapart.kind_of_sentinel hnames hv hw hsv hitems hitems' hkin).symm
      have hplaces : ∀ p ∈ places, p.1 = false := by
        by_cases hlist : v.kind = .list
        · have hover := hv.items hlist hitems
          have hover' := hw.items (heq.symm.trans hlist) hitems'
          rw [List.forall_mem_map] at hover hover'
          exact fun p hp => ih p hp (hover p hp) (hover' p hp)
        · -- The items of the tuples of two floats are of the same kinds.
          have hall : List.Forall₂ (fun x y : Json => (x.kind = .string ∨ x.kind = .bool) ∧
              x.kind = y.kind) (places.map fun p => p.2.1) (places.map fun p => p.2.2) := by
            cases v <;> cases w <;> cases heq
            case list.list => exact absurd rfl hlist
            case object.object => exact absurd ⟨rfl, rfl⟩ (not_and_or.mpr hkind)
            case nan.nan =>
              rw [← Option.some.inj hitems, ← Option.some.inj hitems']
              simp [Json.kind]
            case infinite.infinite =>
              rw [← Option.some.inj hitems, ← Option.some.inj hitems']
              simp [Json.kind]
            all_goals cases hitems
          rw [List.forall₂_map_left_iff, List.forall₂_map_right_iff, List.forall₂_same] at hall
          exact fun p hp => flag_of_atom (h p hp) (hall p hp).1 (hall p hp).2
      simp [heq, List.any_eq_false.mpr fun p hp => ne_true_of_eq_false (hplaces p hp)]
  | @object members members' places hitems hitems' hnamed h ih =>
      have hmem {ms : Members} (hms : Over kinds (.object ms)) : ∀ m ∈ ms, Over kinds m.2 := by
        cases hms with
        | object _ h => exact h
        | other _ _ hobject => exact absurd rfl hobject
      have hnames := hnames.resolve_right (not_not_intro hv.kind)
      rw [List.any_eq_false]
      intro p hp
      have hv' : p.2.1 ∈ members := by
        rw [← (hperm members).mem_iff, hitems]
        exact List.mem_map_of_mem hp
      have hw' : p.2.2 ∈ members' := by
        rw [← (hperm members').mem_iff, hitems']
        exact List.mem_map_of_mem hp
      simp [ih p hp (hmem hv _ hv') (hmem hw _ hw'), hnamed hnames p hp]

/-- Lists that read alike are the same where no two of their items only read alike. -/
theorem Alike.flag_list {items items' : List Json} {p : Json → Prop}
    (h : Alike arrange named c (.list items) (.list items')) (hitems : ∀ item ∈ items, p item)
    (hitems' : ∀ item ∈ items', p item)
    (hflag : ∀ {c : Bool} {v w : Json}, Alike arrange named c v w → p v → p w → c = false) :
    c = false := by
  cases h with
  | atom hv hw => cases hv
  | tuple places hkind hv hw hplaces =>
      rw [Option.some.inj hv, List.forall_mem_map] at hitems
      rw [Option.some.inj hw, List.forall_mem_map] at hitems'
      have hplace (q) (hq : q ∈ places) : q.1 = false :=
        hflag (hplaces q hq) (hitems q hq) (hitems' q hq)
      simp [List.any_eq_false.mpr fun q hq => ne_true_of_eq_false (hplace q hq), Json.kind]

/-- Kinds are apart if no values over them that are of two kinds have one key. -/
theorem Tuples.apart {keyOf : Json → RoseTree Key} (htuples : Tuples arrange named keyOf)
    {good : Members → Prop} (hempty : arrange [] = []) (hgood : good [])
    (h : ∀ v w, Everywhere good v → Everywhere good w → Over kinds v → Over kinds w →
      keyOf v = keyOf w → v.kind = w.kind) : Apart kinds := by
  have hatom (v : Json) (hv : kinds v.kind) (hlist : v.kind ≠ .list) (hobject : v.kind ≠ .object) :
      Over kinds v := .other hv hlist hobject
  have htext (hstring : kinds .string) (text : String) : Over kinds (.string text) := by
    apply hatom (.string text) hstring <;> simp [Json.kind]
  have hbools (hbool : kinds .bool) (b : Bool) : Over kinds (.bool b) := by
    apply hatom (.bool b) hbool <;> simp [Json.kind]
  have hints (hnumber : kinds .number) (n : ℤ) : Over kinds (.int n) := by
    apply hatom (.int n) hnumber <;> simp [Json.kind]
  have hself {v : Json} {key : Key} (hv : atomKey v = some key) : Alike arrange named false v v := by
    simpa using Alike.atom hv hv
  have hone : Alike arrange named true (.bool true) (.int 1) := by
    simpa [Json.kind] using
      @Alike.atom arrange named (.bool true) (.int 1) (.number 1) (by simp [atomKey])
        (by simp [atomKey])
  have hmerges {c : Bool} {v w : Json} (halike : Alike arrange named c v w) (hv : Over kinds v)
      (hw : Over kinds w) (hgood : Everywhere good v) (hgood' : Everywhere good w)
      (hkind : v.kind ≠ w.kind) : False :=
    hkind (h v w hgood hgood' hv hw (htuples.key_eq halike))
  constructor
  · rintro ⟨hbool, hnumber⟩
    apply hmerges hone (hbools hbool true) (hints hnumber 1) <;> simp [Everywhere, Json.kind]
  · rintro ⟨hlist, hobject⟩
    have halike := @Alike.tuple arrange named (.list []) (.object []) [] (by simp [Json.kind]) rfl
      (by simp [tupleItems, hempty]) (List.forall_mem_nil _)
    apply hmerges halike (.list hlist (List.forall_mem_nil _))
      (.object hobject (List.forall_mem_nil _)) <;>
      simp [Everywhere, EverywhereAll, EverywhereMembers, hgood, Json.kind]
  · rintro ⟨hnan, hlist, hstring⟩
    have halike := @Alike.tuple arrange named .nan (.list [.string "__nan__"])
      [(false, .string "__nan__", .string "__nan__")] (by simp [Json.kind]) rfl rfl
      (by simpa using hself rfl)
    have hover : Over kinds .nan := by apply hatom .nan hnan <;> simp [Json.kind]
    apply hmerges halike hover (.list hlist (by simpa using htext hstring _)) <;>
      simp [Everywhere, EverywhereAll, Json.kind]
  · rintro ⟨hinfinite, hlist, hstring, hnumber⟩
    have hover : Over kinds (.infinite true) := by
      apply hatom (.infinite true) hinfinite <;> simp [Json.kind]
    have hmerged {w : Json} {c : Bool} (hgood : Everywhere good w) (hw : Over kinds w)
        (halike : Alike arrange named c (.bool true) w) : False := by
      have halike := @Alike.tuple arrange named (.infinite true) (.list [.string "__inf__", w])
        [(false, .string "__inf__", .string "__inf__"), (c, .bool true, w)]
        (by simp [Json.kind]) rfl rfl (by simpa using ⟨hself rfl, halike⟩)
      apply hmerges halike hover (.list hlist (by simpa using ⟨htext hstring _, hw⟩)) <;>
        simp [Everywhere, EverywhereAll, Json.kind, hgood]
    rcases hnumber with hbool | hnumber
    · exact hmerged (by simp [Everywhere]) (hbools hbool true) (hself rfl)
    · exact hmerged (by simp [Everywhere]) (hints hnumber 1) hone

end Kinds

end EqGen.Fuzz.JsonValues
