import Mathlib.Data.List.Nodup
import EqGen.Equivalence.Contracts

/-!
The names that the statements of a tree introduce: a computation that mints them as it goes
introduces none of them twice.
-/

namespace EqGen.Equivalence.Creations

open EqGen.Builder.Context
open EqGen.Builder.Promises
open EqGen.Equivalence.Ast
open EqGen.Equivalence.Builders.Base
open EqGen.Equivalence.Context
open EqGen.Equivalence.Contracts
open EqGen.Equivalence.Factory
open EqGen.Equivalence.Forks
open EqGen.Equivalence.Names
open EqGen.Equivalence.Renamed
open EqGen.Equivalence.Renaming
open EqGen.Lib.Ascent
open EqGen.Lib.Backtrack
open EqGen.Lib.Dag

section Entries

/-- The name that a statement introduces. -/
def introduced : SetupStep → Option String
  | .object object => some object.name
  | _ => none

def namesOf (label : Label) : List String :=
  (stepsOf label).filterMap introduced

/-- The names that the setup statements of a tree introduce, in their order. -/
def createdNames (root : EqNode) : List String :=
  (setupSteps root).filterMap introduced

/-- The nodes of a tree, each with the names it introduces. -/
def entries (node : EqNode) : List (Nat × List String) :=
  node.fold fun i label below => (i, namesOf label) :: below.flatten

theorem mem_entries_mk {entry : Nat × List String} {i : Nat} {label : Label}
    {inputs : List EqNode} :
    entry ∈ entries (.mk i label inputs) ↔
      entry = (i, namesOf label) ∨ ∃ node ∈ inputs, entry ∈ entries node := by
  simp only [entries, Node.fold_mk, List.mem_cons, List.mem_flatten, List.mem_map,
    exists_exists_and_eq_and]

/-- The entry is one of the nodes held, or of those under them. -/
def Found (held : List EqNode) (entry : Nat × List String) : Prop :=
  ∃ node ∈ held, entry ∈ entries node

theorem Found.mono {held held' : List EqNode} (hsub : held ⊆ held') {entry : Nat × List String}
    (h : Found held entry) : Found held' entry := by
  obtain ⟨node, hnode, hentry⟩ := h
  exact ⟨node, hsub hnode, hentry⟩

theorem found_mk_cons {held rest inputs : List EqNode} (hinputs : inputs ⊆ held)
    (hrest : rest ⊆ held) {i : Nat} {label : Label} {entry : Nat × List String}
    (h : Found (.mk i label inputs :: rest) entry) :
    entry = (i, namesOf label) ∨ Found held entry := by
  obtain ⟨node, hnode, hentry⟩ := h
  rcases List.mem_cons.mp hnode with rfl | hnode
  · rcases mem_entries_mk.mp hentry with rfl | ⟨input, hinput, hentry⟩
    · exact .inl rfl
    · exact .inr ⟨input, hinputs hinput, hentry⟩
  · exact .inr ⟨node, hrest hnode, hentry⟩

end Entries

section Walk

/-- Between the two states of a walk some nodes came up for the first time. -/
def Visits (held : List EqNode) (state state' : List Nat × List SetupStep) : Prop :=
  state.1 ⊆ state'.1 ∧ ∃ fresh : List (Nat × List String),
    state'.2.filterMap introduced = state.2.filterMap introduced ++ fresh.flatMap Prod.snd ∧
    (fresh.map Prod.fst).Nodup ∧
    ∀ entry ∈ fresh, Found held entry ∧ entry.1 ∉ state.1 ∧ entry.1 ∈ state'.1

theorem Visits.refl (held : List EqNode) (state : List Nat × List SetupStep) :
    Visits held state state :=
  ⟨List.Subset.refl _, [], by simp, List.nodup_nil, by simp⟩

theorem Visits.trans {held held' : List EqNode} {state state' state'' : List Nat × List SetupStep}
    (h : Visits held state state') (h' : Visits held' state' state'') :
    Visits (held ++ held') state state'' := by
  obtain ⟨hsub, fresh, hnames, hnodup, hfresh⟩ := h
  obtain ⟨hsub', fresh', hnames', hnodup', hfresh'⟩ := h'
  refine ⟨fun i hi => hsub' (hsub hi), fresh ++ fresh', ?_, ?_, ?_⟩
  · rw [hnames', hnames, List.flatMap_append, List.append_assoc]
  · rw [List.map_append]
    refine hnodup.append hnodup' ?_
    intro i hi hi'
    obtain ⟨entry, hentry, rfl⟩ := List.mem_map.mp hi
    obtain ⟨entry', hentry', heq⟩ := List.mem_map.mp hi'
    -- what came up in the second part was not seen in the first
    exact (hfresh' entry' hentry').2.1 (heq ▸ (hfresh entry hentry).2.2)
  · intro entry hentry
    rcases List.mem_append.mp hentry with hentry | hentry
    · obtain ⟨hfound, hnew, hseen⟩ := hfresh entry hentry
      exact ⟨hfound.mono (List.subset_append_left _ _), hnew, hsub' hseen⟩
    · obtain ⟨hfound, hnew, hseen⟩ := hfresh' entry hentry
      exact ⟨hfound.mono (List.subset_append_right _ _), fun hold => hnew (hsub hold), hseen⟩

/-- The statements of a node come after those of the nodes it reads. -/
theorem Visits.node {i : Nat} {label : Label} {inputs : List EqNode} {seen : List Nat}
    {steps : List SetupStep} {state : List Nat × List SetupStep} (hseen : i ∉ seen)
    (h : Visits inputs (i :: seen, steps) state) :
    Visits [.mk i label inputs] (seen, steps) (state.1, state.2 ++ stepsOf label) := by
  obtain ⟨hsub, fresh, hnames, hnodup, hfresh⟩ := h
  refine ⟨fun j hj => hsub (List.mem_cons_of_mem i hj), fresh ++ [(i, namesOf label)], ?_, ?_, ?_⟩
  · rw [List.filterMap_append, hnames, List.flatMap_append, List.append_assoc]
    simp only [List.flatMap_singleton, namesOf]
  · rw [List.map_append]
    refine hnodup.append (List.nodup_singleton i) ?_
    intro j hj hi
    obtain ⟨entry, hentry, rfl⟩ := List.mem_map.mp hj
    refine (hfresh entry hentry).2.1 ?_
    rw [List.mem_singleton.mp hi]
    exact List.mem_cons_self
  · intro entry hentry
    rcases List.mem_append.mp hentry with hentry | hentry
    · obtain ⟨⟨node, hnode, hin⟩, hnew, hin'⟩ := hfresh entry hentry
      refine ⟨⟨_, List.mem_singleton_self _, ?_⟩, ?_, hin'⟩
      · exact mem_entries_mk.mpr (.inr ⟨node, hnode, hin⟩)
      · exact fun hold => hnew (List.mem_cons_of_mem i hold)
    · obtain rfl := List.mem_singleton.mp hentry
      refine ⟨⟨_, List.mem_singleton_self _, mem_entries_mk.mpr (.inl rfl)⟩, hseen, ?_⟩
      exact hsub List.mem_cons_self

mutual

theorem visits_walk (node : EqNode) (state : List Nat × List SetupStep) :
    Visits [node] state (walk node state) := by
  obtain ⟨i, label, inputs⟩ := node
  obtain ⟨seen, steps⟩ := state
  rw [walk]
  by_cases hseen : i ∈ seen
  · rw [if_pos hseen]
    exact Visits.refl _ _
  · rw [if_neg hseen]
    exact (visits_walkAll inputs (i :: seen, steps)).node hseen

theorem visits_walkAll (nodes : List EqNode) (state : List Nat × List SetupStep) :
    Visits nodes state (walkAll nodes state) := by
  cases nodes with
  | nil =>
      rw [walkAll]
      exact Visits.refl _ _
  | cons node nodes =>
      rw [walkAll]
      exact (visits_walk node state).trans (visits_walkAll nodes (walk node state))

end

/-- A name is introduced by one node only. -/
structure Separate (held : List EqNode) : Prop where
  nodup : ∀ entry, Found held entry → entry.2.Nodup
  apart : ∀ entry other, Found held entry → Found held other →
    ∀ name ∈ entry.2, name ∈ other.2 → entry.1 = other.1

/-- No statement introduces a name that one before it introduced. -/
theorem Separate.createdNames_nodup {root : EqNode} (h : Separate [root]) :
    (createdNames root).Nodup := by
  obtain ⟨-, fresh, hnames, hnodup, hfresh⟩ := visits_walk root ([], [])
  have hnames : createdNames root = fresh.flatMap Prod.snd := hnames
  rw [hnames, List.nodup_flatMap]
  refine ⟨fun entry hentry => h.nodup entry (hfresh entry hentry).1, ?_⟩
  refine (List.pairwise_map.mp hnodup).imp_of_mem ?_
  intro entry other hentry hother hne name hname hname'
  exact hne (h.apart entry other (hfresh entry hentry).1 (hfresh other hother).1 name hname hname')

theorem found_of_mem_createdNames {root : EqNode} {name : String}
    (h : name ∈ createdNames root) : ∃ entry, Found [root] entry ∧ name ∈ entry.2 := by
  obtain ⟨-, fresh, hnames, -, hfresh⟩ := visits_walk root ([], [])
  have hnames : createdNames root = fresh.flatMap Prod.snd := hnames
  rw [hnames] at h
  obtain ⟨entry, hentry, hname⟩ := List.mem_flatMap.mp h
  exact ⟨entry, (hfresh entry hentry).1, hname⟩

end Walk

section Minting

/-- The name was minted of one of the stems between the two states. -/
def Minted (stems : List String) (s s' : GenerationState) (name : String) : Prop :=
  ∃ stem ∈ stems, ∃ n, s.objectCounters stem < n ∧ n ≤ s'.objectCounters stem ∧
    name = numbered stem n

variable {stems : List String} {s₀ s s' s'' : GenerationState} {name : String}

theorem Minted.widen (hle : s₀ ≤ s) (hle' : s' ≤ s'') (h : Minted stems s s' name) :
    Minted stems s₀ s'' name := by
  obtain ⟨stem, hstem, n, hlt, hn, heq⟩ := h
  exact ⟨stem, hstem, n, Nat.lt_of_le_of_lt (hle stem) hlt, Nat.le_trans hn (hle' stem), heq⟩

/-- A name that was minted before is not minted again. -/
theorem Minted.not_minted (h : Minted stems s s' name) : ¬Minted stems s' s'' name := by
  obtain ⟨stem, -, n, -, hn, rfl⟩ := h
  rintro ⟨stem', -, n', hlt, -, heq⟩
  obtain ⟨rfl, rfl⟩ := minted_injective heq
  omega

theorem Minted.not_unminted (h : Minted stems s s' name) : ¬Unminted stems name := by
  obtain ⟨stem, hstem, n, -, -, rfl⟩ := h
  exact fun hnew => hnew stem hstem n rfl

/--
The nodes were made between the two states: what they introduce was minted then, or is the name
that was asked for, and none of it is introduced twice.
-/
structure Named (stems : List String) (exposed : Option String) (s : GenerationState)
    (held : List EqNode) (s' : GenerationState) : Prop extends Separate held where
  minted : ∀ entry, Found held entry → ∀ name ∈ entry.2,
    name ∈ exposed ∨ Minted stems s s' name

variable {exposed : Option String} {held rest inputs : List EqNode}

theorem Named.nothing (stems : List String) (s s' : GenerationState) :
    Named stems none s [] s' where
  nodup := by
    rintro entry ⟨node, hnode, -⟩
    cases hnode
  apart := by
    rintro entry other ⟨node, hnode, -⟩
    cases hnode
  minted := by
    rintro entry ⟨node, hnode, -⟩
    cases hnode

theorem Named.widen (hle : s₀ ≤ s) (hle' : s' ≤ s'') (h : Named stems exposed s held s') :
    Named stems exposed s₀ held s'' :=
  { h with
    minted := fun entry hentry name hname =>
      (h.minted entry hentry name hname).imp id (Minted.widen hle hle') }

theorem Named.of_none (h : Named stems none s held s') : Named stems exposed s held s' :=
  { h with
    minted := fun entry hentry name hname =>
      .inr ((h.minted entry hentry name hname).resolve_left (Option.not_mem_none name)) }

theorem Named.minted_of_none (h : Named stems none s held s') {entry : Nat × List String}
    (hentry : Found held entry) (hname : name ∈ entry.2) : Minted stems s s' name :=
  (h.minted entry hentry name hname).resolve_left (Option.not_mem_none name)

theorem Named.subset (hsub : rest ⊆ held) (h : Named stems exposed s held s') :
    Named stems exposed s rest s' where
  nodup entry hentry := h.nodup entry (hentry.mono hsub)
  apart entry other hentry hother := h.apart entry other (hentry.mono hsub) (hother.mono hsub)
  minted entry hentry := h.minted entry (hentry.mono hsub)

theorem Named.mem_createdNames {root : EqNode} (h : Named stems exposed s [root] s')
    (hname : name ∈ createdNames root) : name ∈ exposed ∨ Minted stems s s' name := by
  obtain ⟨entry, hentry, hname⟩ := found_of_mem_createdNames hname
  exact h.minted entry hentry name hname

/-- Nodes that were made one lot after the other. -/
theorem Named.append {held' : List EqNode} (hle : s ≤ s') (hle' : s' ≤ s'')
    (h : Named stems none s held s') (h' : Named stems none s' held' s'') :
    Named stems none s (held' ++ held) s'' := by
  have hsplit : ∀ entry, Found (held' ++ held) entry → Found held' entry ∨ Found held entry := by
    rintro entry ⟨node, hnode, hentry⟩
    rcases List.mem_append.mp hnode with hnode | hnode
    · exact .inl ⟨node, hnode, hentry⟩
    · exact .inr ⟨node, hnode, hentry⟩
  refine ⟨⟨?_, ?_⟩, ?_⟩
  · intro entry hentry
    rcases hsplit entry hentry with hentry | hentry
    · exact h'.nodup entry hentry
    · exact h.nodup entry hentry
  · intro entry other hentry hother name hname hname'
    rcases hsplit entry hentry with hentry | hentry
    · rcases hsplit other hother with hother | hother
      · exact h'.apart entry other hentry hother name hname hname'
      · exact absurd (h'.minted_of_none hentry hname) (h.minted_of_none hother hname').not_minted
    · rcases hsplit other hother with hother | hother
      · exact absurd (h'.minted_of_none hother hname') (h.minted_of_none hentry hname).not_minted
      · exact h.apart entry other hentry hother name hname hname'
  · intro entry hentry name hname
    rcases hsplit entry hentry with hentry | hentry
    · exact .inr ((h'.minted_of_none hentry hname).widen hle (le_refl s''.objectCounters))
    · exact .inr ((h.minted_of_none hentry hname).widen (le_refl s.objectCounters) hle')

/-- A node over nodes in hand, which introduces names that are new. -/
theorem Named.cons (hle : s ≤ s') (hle' : s' ≤ s'') (h : Named stems none s held s') {i : Nat}
    {label : Label} (hinputs : inputs ⊆ held) (hrest : rest ⊆ held)
    (hnodup : (namesOf label).Nodup)
    (hnew : ∀ name ∈ namesOf label,
      name ∈ exposed ∧ Unminted stems name ∨ Minted stems s' s'' name) :
    Named stems exposed s (.mk i label inputs :: rest) s'' := by
  have hclash : ∀ entry, Found held entry → ∀ name ∈ entry.2, name ∉ namesOf label := by
    intro entry hentry name hname hlabel
    have hold := h.minted_of_none hentry hname
    rcases hnew name hlabel with ⟨-, hunminted⟩ | hminted
    · exact hold.not_unminted hunminted
    · exact hold.not_minted hminted
  refine ⟨⟨?_, ?_⟩, ?_⟩
  · intro entry hentry
    rcases found_mk_cons hinputs hrest hentry with rfl | hentry
    · exact hnodup
    · exact h.nodup entry hentry
  · intro entry other hentry hother name hname hname'
    rcases found_mk_cons hinputs hrest hentry with rfl | hentry
    · rcases found_mk_cons hinputs hrest hother with rfl | hother
      · rfl
      · exact absurd hname (hclash other hother name hname')
    · rcases found_mk_cons hinputs hrest hother with rfl | hother
      · exact absurd hname' (hclash entry hentry name hname)
      · exact h.apart entry other hentry hother name hname hname'
  · intro entry hentry name hname
    rcases found_mk_cons hinputs hrest hentry with rfl | hentry
    · rcases hnew name hname with ⟨hexposed, -⟩ | hminted
      · exact .inl hexposed
      · exact .inr (hminted.widen hle (le_refl s''.objectCounters))
    · exact .inr ((h.minted_of_none hentry hname).widen (le_refl s.objectCounters) hle')

end Minting

section Making

/-- What every builder promises of the names: they are its own, and apart. -/
def naming (stems : List String) : Promise GenerationState Label NodeClass ConstraintSet where
  proper constraints := ∀ name ∈ constraints.exposedName, Unminted stems name
  kept _ constraints s node s' := Named stems constraints.exposedName s [node] s'
  widen hle hle' h := h.widen hle hle'

/--
With some nodes in hand whose names are their own, the computation returns with others in hand,
of which that is true too.
-/
def Makes {β : Type} (stems : List String) (exposed : Option String) (held : List EqNode)
    (m : Gen β) (out : β → List EqNode) : Prop :=
  ∀ s₀ s, s₀ ≤ s → Named stems none s₀ held s →
    Leads s m fun b s' => Named stems exposed s₀ (out b) s'

namespace Makes

variable {α β : Type} {stems : List String} {exposed : Option String}
variable {held rest inputs : List EqNode} {m : Gen α} {out : α → List EqNode}

theorem bind {f : α → Gen β} {out' : β → List EqNode} (hm : Makes stems none held m out)
    (hf : ∀ a, Makes stems exposed (out a) (f a) out') :
    Makes stems exposed held (m >>= f) out' := by
  intro s₀ s hle h
  refine (hm s₀ s hle h).bind ?_
  intro a s' hle' ha
  exact hf a s₀ s' (hle.trans hle') ha

/-- A computation that makes no node first. -/
theorem after {P : α → Prop} {f : α → Gen β} {out' : β → List EqNode}
    (hm : ∀ s, Leads s m fun a _ => P a) (hf : ∀ a, P a → Makes stems exposed held (f a) out') :
    Makes stems exposed held (m >>= f) out' := by
  intro s₀ s hle h
  refine (hm s).bind ?_
  intro a s' hle' ha
  exact hf a ha s₀ s' (hle.trans hle') (h.widen (le_refl s₀.objectCounters) hle')

theorem of_none (h : Makes stems none held m out) : Makes stems exposed held m out :=
  fun s₀ s hle hnamed => (h s₀ s hle hnamed).mono fun _ _ _ ha => ha.of_none

protected theorem pure (a : α) (hsub : out a ⊆ held) :
    Makes stems exposed held (pure a : Gen α) out :=
  fun _ _ _ h => Leads.pure (h.of_none.subset hsub)

protected theorem decline : Makes stems exposed held (Attempt.decline : Gen α) out :=
  fun _ _ _ _ => Leads.decline

protected theorem raise (error : GenerationError) :
    Makes stems exposed held (Attempt.raise error : Gen α) out :=
  fun _ _ _ _ => Leads.raise error

theorem guard {p : Prop} [Decidable p] {f : Unit → Gen β} {out' : β → List EqNode}
    (hf : Makes stems exposed held (f ()) out') :
    Makes stems exposed held (Attempt.guard p >>= f) out' :=
  after (P := fun _ => True) (fun _ => Leads.guard fun _ => trivial) fun _ _ => hf

theorem require {p : Prop} [Decidable p] {error : GenerationError} {f : Unit → Gen β}
    {out' : β → List EqNode} (hf : Makes stems exposed held (f ()) out') :
    Makes stems exposed held (Attempt.require p error >>= f) out' :=
  after (P := fun _ => True) (fun _ => Leads.require fun _ => trivial) fun _ _ => hf

theorem fromOption {x : Option α} {f : α → Gen β} {out' : β → List EqNode}
    (hf : ∀ a, x = some a → Makes stems exposed held (f a) out') :
    Makes stems exposed held (Attempt.fromOption x >>= f) out' :=
  after (fun _ => Leads.fromOption fun _ h => h) hf

/-- A node that introduces no name. -/
theorem newNode {label : Label} (hlabel : namesOf label = []) (hinputs : inputs ⊆ held)
    (hrest : rest ⊆ held) :
    Makes stems exposed held (newNode label inputs) fun node => node :: rest := by
  intro s₀ s hle h
  have hup : s ≤ { s with created := s.created + 1 } := le_refl s.objectCounters
  refine Leads.step rfl hup (h.cons hle hup hinputs hrest ?_ ?_)
  · rw [hlabel]
    exact List.nodup_nil
  · rw [hlabel]
    exact List.forall_mem_nil _

end Makes

end Making

end EqGen.Equivalence.Creations
