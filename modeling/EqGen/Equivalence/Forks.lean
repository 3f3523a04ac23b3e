import EqGen.Equivalence.Generator
import EqGen.Equivalence.Names
import EqGen.Equivalence.RenamedBuilders

/-!
`EquivalenceGenerator.generate_forks`: the forks share a name generator, and each is the object
that a fresh generator makes of its seed, up to the numbers of the minted names.
-/

namespace EqGen.Equivalence.Forks

open EqGen.Builder.Context
open EqGen.Builder.Lockstep
open EqGen.Core.Catalog
open EqGen.Equivalence.Ast
open EqGen.Equivalence.Builders.Base
open EqGen.Equivalence.Context
open EqGen.Equivalence.Factory
open EqGen.Equivalence.Generator hiding generate
open EqGen.Equivalence.Names
open EqGen.Equivalence.Renamed
open EqGen.Equivalence.RenamedBuilders
open EqGen.Equivalence.Renaming
open EqGen.Lib.Backtrack
open EqGen.Lib.Coupling
open EqGen.Lib.Dag

section Emission

/-- The steps of a relation; the other nodes have none. -/
def stepsOf : Label → List SetupStep
  | .relation relation => relation.steps
  | _ => []

mutual

/-- `walk` of `emit_equivalence`: the nodes seen so far, and the steps. -/
def walk : EqNode → List Nat × List SetupStep → List Nat × List SetupStep
  | .mk i label inputs, state =>
    if i ∈ state.1 then state
    else
      let below := walkAll inputs (i :: state.1, state.2)
      (below.1, below.2 ++ stepsOf label)

def walkAll : List EqNode → List Nat × List SetupStep → List Nat × List SetupStep
  | [], state => state
  | node :: nodes, state => walkAll nodes (walk node state)

end

def setupSteps (root : EqNode) : List SetupStep :=
  (walk root ([], [])).2

/-- `emit_equivalence`, given how the emitter writes a step. -/
def emitEquivalence (visit : SetupStep → List String) (root : EqNode) : List String :=
  (setupSteps root).flatMap visit

theorem stepsOf_rename (ρ : String → String) (label : Label) :
    stepsOf (renameLabel ρ label) = (stepsOf label).map (renameStep ρ) := by
  cases label <;> rfl

mutual

theorem walk_rename (ρ : String → String) (node : EqNode) (seen : List Nat)
    (steps : List SetupStep) :
    walk (renameNode ρ node) (seen, steps.map (renameStep ρ)) =
      ((walk node (seen, steps)).1, (walk node (seen, steps)).2.map (renameStep ρ)) := by
  obtain ⟨i, label, inputs⟩ := node
  rw [renameNode, Node.map_mk, walk, walk]
  by_cases hseen : i ∈ seen
  · simp only [hseen, if_true]
  · simp only [hseen, if_false]
    have hbelow := walkAll_rename ρ inputs (i :: seen) steps
    unfold renameNode at hbelow
    rw [hbelow, stepsOf_rename, List.map_append]

theorem walkAll_rename (ρ : String → String) (nodes : List EqNode) (seen : List Nat)
    (steps : List SetupStep) :
    walkAll (nodes.map (renameNode ρ)) (seen, steps.map (renameStep ρ)) =
      ((walkAll nodes (seen, steps)).1, (walkAll nodes (seen, steps)).2.map (renameStep ρ)) := by
  cases nodes with
  | nil => rfl
  | cons node nodes =>
      rw [List.map_cons, walkAll, walkAll, walk_rename ρ node seen steps]
      exact walkAll_rename ρ nodes _ _

end

theorem setupSteps_rename (ρ : String → String) (root : EqNode) :
    setupSteps (renameNode ρ root) = (setupSteps root).map (renameStep ρ) := by
  have hwalk := walk_rename ρ root [] []
  rw [setupSteps, setupSteps]
  rw [List.map_nil] at hwalk
  rw [hwalk]

end Emission

section Generator

/-- What an `EquivalenceGenerator` is made with, and the numbers that a seed draws. -/
structure Settings where
  config : EquivalenceConfig
  predicateSource : Option PredicateSource := none
  visit : SetupStep → List String
  extraBuilders : EquivalenceContext → List EquivalenceBuilder := fun _ => []
  random : Int → Nat → Nat

/-- What changes in an `EquivalenceGenerator`: the factory's `chosen`, and the last counters. -/
structure EquivalenceGenerator where
  chosen : Multiset String := 0
  lastPredicateOrigin : Multiset String := 0
  lastBuildersUsed : Multiset String := 0

/-- A generator, and the counters of the `NameGenerator` that is in use. -/
structure Session where
  generator : EquivalenceGenerator := {}
  objectCounters : String → Nat := fun _ => 0

structure GeneratedEquivalence where
  root : EqNode
  setupStatements : List String

structure GeneratedForks where
  forks : List GeneratedEquivalence
  buildersUsed : Multiset String
  predicateOrigin : Multiset String

abbrev Generation := Attempt GenerationError Session

variable (settings : Settings) (table : Table)

/-- The context of a run, once the random numbers are those of the seed. -/
def contextFor (seed : Int) : EquivalenceContext where
  config := settings.config
  baseTable := table
  draws := settings.random seed
  predicateSource := settings.predicateSource

/-- The builders of the factory. -/
def poolFor (context : EquivalenceContext) : List EquivalenceBuilder :=
  portableBuilders context ++ settings.extraBuilders context

/-- `EquivalenceGenerator.generate`, with a seed, a name and a name generator. -/
def generate (seed : Int) (exposedName : String) : Generation GeneratedEquivalence := fun session =>
  let context := contextFor settings table seed
  match Generator.generate context (poolFor settings context) (some exposedName)
      (freshState session.objectCounters) with
  | .done root s =>
    .done ⟨root, emitEquivalence settings.visit root⟩
      ⟨⟨s.chosen, s.predicateOrigin, s.chosen⟩, s.objectCounters⟩
  | .declined s =>
    .declined ⟨⟨s.chosen, s.predicateOrigin, session.generator.lastBuildersUsed⟩, s.objectCounters⟩
  | .raised error s =>
    .raised error
      ⟨⟨s.chosen, s.predicateOrigin, session.generator.lastBuildersUsed⟩, s.objectCounters⟩

def readGenerator : Generation EquivalenceGenerator := fun session =>
  .done session.generator session

/-- A `NameGenerator` that has minted nothing. -/
def newNames : Generation Unit := fun session =>
  .done () { session with objectCounters := fun _ => 0 }

/-- The counters over all forks. -/
def remember (result : GeneratedForks) : Generation Unit := fun session =>
  .done () { session with
    generator := { session.generator with
      lastBuildersUsed := result.buildersUsed, lastPredicateOrigin := result.predicateOrigin } }

/-- The loop of `generate_forks`, over what was made before. -/
def forkLoop (seed : Int) : List (String × Nat) → GeneratedForks → Generation GeneratedForks
  | [], made => pure made
  | (exposed, i) :: rest, made => do
    let eq ← generate settings table (seed + i) exposed
    let generator ← readGenerator
    forkLoop seed rest
      ⟨made.forks ++ [eq], made.buildersUsed + generator.chosen,
        made.predicateOrigin + generator.lastPredicateOrigin⟩

/-- `EquivalenceGenerator.generate_forks` -/
def generateForks (seed : Int) (exposedNames : List String) : Generation GeneratedForks := do
  Attempt.require (exposedNames ≠ [])
    (.value "generate_forks requires at least one exposed name")
  newNames
  let result ← forkLoop settings table seed exposedNames.zipIdx ⟨[], 0, 0⟩
  remember result
  pure result

end Generator

section Shifting

/-- The name is one that a stem gets with a number. -/
def IsNumbered (name : String) : Prop :=
  ∃ stem : String × Nat, name = numbered stem.1 stem.2

open Classical in
/-- The renaming that adds to the number of every minted name what its stem is ahead. -/
noncomputable def shiftName (ahead : String → Nat) (name : String) : String :=
  if h : IsNumbered name then numbered h.choose.1 (h.choose.2 + ahead h.choose.1) else name

variable (ahead : String → Nat)

theorem shiftName_numbered (stem : String) (n : Nat) :
    shiftName ahead (numbered stem n) = numbered stem (n + ahead stem) := by
  have h : IsNumbered (numbered stem n) := ⟨(stem, n), rfl⟩
  have hchoose : h.choose = (stem, n) := by
    obtain ⟨hstem, hn⟩ := minted_injective h.choose_spec
    exact Prod.ext hstem.symm hn.symm
  rw [shiftName, dif_pos h, hchoose]

theorem shiftName_of_ne {name : String} (h : ∀ stem n, name ≠ numbered stem n) :
    shiftName ahead name = name := by
  rw [shiftName, dif_neg]
  rintro ⟨⟨stem, n⟩, heq⟩
  exact h stem n heq

theorem shiftName_cases (name : String) :
    (∃ stem n, name = numbered stem n) ∨ shiftName ahead name = name := by
  by_cases h : ∃ stem n, name = numbered stem n
  · exact .inl h
  · refine .inr (shiftName_of_ne ahead fun stem n heq => h ⟨stem, n, heq⟩)

theorem shiftName_injective : Function.Injective (shiftName ahead) := by
  intro name name' h
  rcases shiftName_cases ahead name with ⟨stem, n, rfl⟩ | hname
  · rw [shiftName_numbered] at h
    rcases shiftName_cases ahead name' with ⟨stem', n', rfl⟩ | hname'
    · rw [shiftName_numbered] at h
      obtain ⟨rfl, hn⟩ := minted_injective h
      have heq : n = n' := by omega
      rw [heq]
    · rw [hname'] at h
      rw [← h, shiftName_numbered] at hname'
      obtain ⟨-, hn⟩ := minted_injective hname'
      have hzero : ahead stem = 0 := by omega
      rw [← h, hzero, Nat.add_zero]
  · rcases shiftName_cases ahead name' with ⟨stem', n', rfl⟩ | hname'
    · rw [hname, shiftName_numbered] at h
      rw [h, shiftName_numbered] at hname
      obtain ⟨-, hn⟩ := minted_injective hname
      have hzero : ahead stem' = 0 := by omega
      rw [h, hzero, Nat.add_zero]
    · rwa [hname, hname'] at h

/-- The name is not one that a stem gets with a number. -/
def Unminted (stems : List String) (name : String) : Prop :=
  ∀ stem ∈ stems, ∀ n, name ≠ numbered stem n

/-- No name that a generation is given is one that it may mint. -/
structure Clear (stems : List String) (table : Table) (exposedNames : List String) : Prop where
  column : ∀ column ∈ table.columns, Unminted stems column.name
  table : Unminted stems (table.getSqlName true)
  exposed : ∀ name ∈ exposedNames, Unminted stems name

/-- Names were only minted of the stems. -/
def Listed (stems : List String) (ahead : String → Nat) : Prop :=
  ∀ stem, ahead stem ≠ 0 → stem ∈ stems

variable {ahead} {stems : List String}

theorem shiftName_of_unminted (hlisted : Listed stems ahead) {name : String}
    (h : Unminted stems name) : shiftName ahead name = name := by
  rcases shiftName_cases ahead name with ⟨stem, n, rfl⟩ | hname
  · rw [shiftName_numbered]
    by_cases hzero : ahead stem = 0
    · rw [hzero, Nat.add_zero]
    · exact absurd rfl (h stem (hlisted stem hzero) n)
  · exact hname

/-- The base table is not called as an object is: the name of one is longer, without a dot more. -/
theorem unminted_getSqlName (table : Table) :
    Unminted (objectStems table) (table.getSqlName true) := by
  intro stem hstem n heq
  obtain ⟨suffix, hsuffix, rfl⟩ := List.mem_map.mp hstem
  have htext := congrArg String.toList heq
  unfold Table.getSqlName at htext
  cases hschema : table.schema with
  | none =>
      have hlength := congrArg List.length htext
      simp [hschema, numbered] at hlength
  | some schema =>
      have hcount := congrArg (List.count '.') htext
      have hsuffixes : ∀ suffix ∈ ["_view", "_table", "_cte", "_mcte", "_nmcte"],
          suffix.toList.count '.' = 0 := by decide
      have hdot : ".".toList.count '.' = 1 := by decide
      have hunderscore : "_".toList.count '.' = 0 := by decide
      have hdigits : n.repr.toList.count '.' = 0 := by
        rw [Nat.toList_repr, List.count_eq_zero]
        intro hmem
        exact absurd (Nat.isDigit_of_mem_toDigits (by decide) (by decide) hmem) (by decide)
      simp only [hschema, if_true, numbered, toString, String.toList_append, List.count_append,
        hsuffixes suffix hsuffix, hdot, hunderscore, hdigits] at hcount
      omega

/-- A name without an underscore is not minted. -/
theorem ne_numbered_of_notMem {name : String} (h : '_' ∉ name.toList) (stem : String) (n : Nat) :
    name ≠ numbered stem n := by
  rintro rfl
  simp [numbered] at h

theorem shifts_shiftName (hlisted : Listed stems ahead) {context : EquivalenceContext}
    {exposedNames : List String} (hclear : Clear stems context.baseTable exposedNames)
    (hstems : ∀ stem ∈ portableStems context.baseTable, stem ∈ stems) :
    Shifts (shiftName ahead) ahead stems context where
  injective := shiftName_injective ahead
  column column hcolumn := shiftName_of_unminted hlisted (hclear.column column hcolumn)
  table := shiftName_of_unminted hlisted hclear.table
  short name hname := by
    have hall : ∀ name ∈ ["", "s", "l", "r"], '_' ∉ name.toList := by decide
    exact shiftName_of_ne ahead (ne_numbered_of_notMem (hall name hname))
  numbered := shiftName_numbered ahead
  minted := hstems

end Shifting

section Forks

variable {ρ : String → String} {ahead : String → Nat} {stems : List String}

/-- A generation asked for a name that the renaming keeps. -/
theorem couples_generate {context : EquivalenceContext} {pool : List EquivalenceBuilder}
    (hρ : Shifts ρ ahead stems context) (hpool : ∀ b ∈ pool, Renames ρ ahead stems context b)
    {exposedName : String} (hexposed : ρ exposedName = exposedName) :
    Couples (Ahead ahead stems) (Twins ρ context)
      (Generator.generate context pool (some exposedName))
      (Generator.generate context pool (some exposedName)) := by
  have hroot : rootConstraints context (some exposedName) =
      renameConstraints ρ (rootConstraints context (some exposedName)) := by
    simp [rootConstraints, renameConstraints, hexposed]
  refine (couples_buildSubtree (factoryOf context pool) sameBuild_ahead
    (blind_vocabulary hρ.toKeeps) hpool _ _ hroot).optional.bind ?_
  rintro _ _ (htwins | _)
  · exact .pure htwins
  · exact .raise _

/-- The fork is what the fresh generation made, up to the numbers of minted names. -/
def ForkOf (visit : SetupStep → List String) (stems : List String)
    (fresh fork : GeneratedEquivalence) : Prop :=
  ∃ ρ : String → String,
    Function.Injective ρ ∧
    (∀ name, ρ name ≠ name → ∃ stem ∈ stems, ∃ n, name = numbered stem n) ∧
    fork.root = renameNode ρ fresh.root ∧
    fork.setupStatements = ((setupSteps fresh.root).map (renameStep ρ)).flatMap visit

variable (settings : Settings) (table : Table) (seed : Int)

/-- The builders from outside know no names but those they are given and those they mint. -/
def ExtrasRename (stems : List String) : Prop :=
  ∀ seed, ∀ b ∈ settings.extraBuilders (contextFor settings table seed), ∀ ρ ahead,
    Shifts ρ ahead stems (contextFor settings table seed) →
      Renames ρ ahead stems (contextFor settings table seed) b

/-- What a generator that was never used, with names that were never used, makes of a fork. -/
def FreshRun (named : String × Nat) (run : GeneratedEquivalence × Session) : Prop :=
  generate settings table (seed + named.2) named.1 {} = .done run.1 run.2

/-- The runs of fresh generators, one for each name, account for the forks and their counters. -/
structure ReplayedBy (stems : List String) (named : List (String × Nat))
    (runs : List (GeneratedEquivalence × Session)) (result : GeneratedForks) : Prop where
  fresh : List.Forall₂ (FreshRun settings table seed) named runs
  forks : List.Forall₂ (fun run fork => ForkOf settings.visit stems run.1 fork) runs result.forks
  buildersUsed : result.buildersUsed = (runs.map fun run => run.2.generator.chosen).sum
  predicateOrigin :
    result.predicateOrigin = (runs.map fun run => run.2.generator.lastPredicateOrigin).sum

/-- An error that a fresh generator raises for one of the names. -/
def FreshRaises (named : List (String × Nat)) (error : GenerationError) : Prop :=
  ∃ name ∈ named, ∃ after,
    generate settings table (seed + name.2) name.1 {} = .raised error after

/-- The counters of a run that was fresh, and of one that was not. -/
structure SameCounts (stems : List String) (fresh after : Session) : Prop where
  chosen : after.generator.chosen = fresh.generator.chosen
  predicateOrigin : after.generator.lastPredicateOrigin = fresh.generator.lastPredicateOrigin
  listed : Listed stems after.objectCounters

/-- A generation returns or raises. -/
theorem generate_ne_declined (exposedName : String) (session after : Session) :
    generate settings table seed exposedName session ≠ .declined after := by
  have hspec : Attempt.Spec (Generator.generate (contextFor settings table seed)
      (poolFor settings (contextFor settings table seed)) (some exposedName))
      (freshState session.objectCounters) (fun _ _ => True) (fun _ => False) fun _ _ => True := by
    rw [Generator.generate, Attempt.spec_bind, Attempt.spec_optional, Attempt.Spec]
    split <;> trivial
  unfold generate
  dsimp only
  intro h
  split at h
  · cases h
  · next hrun =>
      rw [Attempt.Spec, hrun] at hspec
      exact hspec
  · cases h

variable {settings table}

theorem spec_newNames {session : Session} {Q : Unit → Session → Prop} {N : Session → Prop}
    {E : GenerationError → Session → Prop} :
    Attempt.Spec newNames session Q N E ↔ Q () { session with objectCounters := fun _ => 0 } :=
  Iff.rfl

theorem ahead_freshState (stems : List String) (objectCounters : String → Nat) :
    Ahead objectCounters stems (freshState fun _ => 0) (freshState objectCounters) :=
  ⟨rfl, rfl, fun _ => (Nat.zero_add _).symm, fun _ h => absurd rfl h⟩

theorem listed_of_ahead {s t : GenerationState} (hlisted : Listed stems ahead)
    (h : Ahead ahead stems s t) : Listed stems t.objectCounters := by
  intro stem hstem
  rw [h.counters] at hstem
  by_cases hs : s.objectCounters stem = 0
  · exact hlisted stem (by omega)
  · exact h.listed stem hs

theorem sameCounts_of_ahead {s t : GenerationState} (hlisted : Listed stems ahead)
    (h : Ahead ahead stems s t) {last last' : Multiset String} :
    SameCounts stems ⟨⟨s.chosen, s.predicateOrigin, last⟩, s.objectCounters⟩
      ⟨⟨t.chosen, t.predicateOrigin, last'⟩, t.objectCounters⟩ :=
  ⟨congrArg BuildState.chosen h.build, h.origin, listed_of_ahead hlisted h⟩

/-- A generator that was used, with names that were used, makes what a fresh one makes. -/
theorem coupled_generate {exposedNames : List String} (hclear : Clear stems table exposedNames)
    (hstems : ∀ stem ∈ portableStems table, stem ∈ stems)
    (hextras : ExtrasRename settings table stems) {exposedName : String}
    (hexposed : exposedName ∈ exposedNames) (session : Session)
    (hlisted : Listed stems session.objectCounters) :
    Coupled (SameCounts stems) (ForkOf settings.visit stems)
      (generate settings table seed exposedName {})
      (generate settings table seed exposedName session) := by
  have hρ : Shifts (shiftName session.objectCounters) session.objectCounters stems
      (contextFor settings table seed) := shifts_shiftName hlisted hclear hstems
  have hpool : ∀ b ∈ poolFor settings (contextFor settings table seed),
      Renames (shiftName session.objectCounters) session.objectCounters stems
        (contextFor settings table seed) b := by
    intro b hb
    rcases List.mem_append.mp hb with hb | hb
    · exact renames_portableBuilders hρ b hb
    · exact hextras seed b hb _ _ hρ
  have hkept := shiftName_of_unminted hlisted (hclear.exposed exposedName hexposed)
  have hboth := couples_generate hρ hpool hkept _ _ (ahead_freshState stems session.objectCounters)
  unfold generate
  dsimp only
  generalize Generator.generate (contextFor settings table seed)
    (poolFor settings (contextFor settings table seed)) (some exposedName)
    (freshState fun _ => 0) = fresh at hboth ⊢
  generalize Generator.generate (contextFor settings table seed)
    (poolFor settings (contextFor settings table seed)) (some exposedName)
    (freshState session.objectCounters) = used at hboth ⊢
  induction hboth with
  | declined hstate => exact .declined (sameCounts_of_ahead hlisted hstate)
  | raised error hstate => exact .raised error (sameCounts_of_ahead hlisted hstate)
  | done htwins hstate =>
      refine .done ⟨shiftName session.objectCounters, shiftName_injective _, ?_, htwins.1, ?_⟩
        (sameCounts_of_ahead hlisted hstate)
      · intro name hname
        by_contra hnone
        refine hname (shiftName_of_unminted hlisted fun stem hstem n heq => ?_)
        exact hnone ⟨stem, hstem, n, heq⟩
      · rw [emitEquivalence, htwins.1, setupSteps_rename]

/-- The forks made before, with those of the rest of the loop. -/
def joined (made rest : GeneratedForks) : GeneratedForks :=
  ⟨made.forks ++ rest.forks, made.buildersUsed + rest.buildersUsed,
    made.predicateOrigin + rest.predicateOrigin⟩

theorem ReplayedBy.cons {name : String × Nat} {named : List (String × Nat)}
    {run : GeneratedEquivalence × Session} {runs : List (GeneratedEquivalence × Session)}
    {fork : GeneratedEquivalence} {rest : GeneratedForks}
    (h : ReplayedBy settings table seed stems named runs rest)
    (hrun : FreshRun settings table seed name run)
    (hfork : ForkOf settings.visit stems run.1 fork) :
    ReplayedBy settings table seed stems (name :: named) (run :: runs)
      ⟨fork :: rest.forks, run.2.generator.chosen + rest.buildersUsed,
        run.2.generator.lastPredicateOrigin + rest.predicateOrigin⟩ where
  fresh := .cons hrun h.fresh
  forks := .cons hfork h.forks
  buildersUsed := by rw [h.buildersUsed, List.map_cons, List.sum_cons]
  predicateOrigin := by rw [h.predicateOrigin, List.map_cons, List.sum_cons]

theorem spec_forkLoop {exposedNames : List String} (hclear : Clear stems table exposedNames)
    (hstems : ∀ stem ∈ portableStems table, stem ∈ stems)
    (hextras : ExtrasRename settings table stems) (named : List (String × Nat))
    (hnamed : ∀ name ∈ named, name.1 ∈ exposedNames) (made : GeneratedForks) (session : Session)
    (hlisted : Listed stems session.objectCounters) :
    Attempt.Spec (forkLoop settings table seed named made) session
      (fun result _ => ∃ runs rest, ReplayedBy settings table seed stems named runs rest ∧
        result = joined made rest)
      (fun _ => False) fun error _ => FreshRaises settings table seed named error := by
  induction named generalizing made session with
  | nil =>
      refine ⟨[], ⟨[], 0, 0⟩, ⟨.nil, .nil, rfl, rfl⟩, ?_⟩
      simp [joined]
  | cons name named ih =>
      obtain ⟨hname, hrest⟩ := List.forall_mem_cons.mp hnamed
      have hboth := coupled_generate (seed + name.2) hclear hstems hextras hname session hlisted
      have hreturns := generate_ne_declined settings table (seed + name.2) name.1 session
      rw [forkLoop, Attempt.spec_bind, Attempt.Spec]
      generalize hused : generate settings table (seed + name.2) name.1 session = used
        at hboth hreturns ⊢
      generalize hfresh : generate settings table (seed + name.2) name.1 {} = fresh at hboth
      cases hboth with
      | declined hstate => exact hreturns _ rfl
      | raised error hstate => exact ⟨name, List.mem_cons_self, _, hfresh⟩
      | @done first fork before after hfork hcounts =>
          refine (ih hrest _ after hcounts.listed).mono ?_ (fun _ h => h) ?_
          · rintro result _ ⟨runs, rest, hreplayed, rfl⟩
            refine ⟨(first, before) :: runs, _, hreplayed.cons seed hfresh hfork, ?_⟩
            simp [joined, hcounts.chosen, hcounts.predicateOrigin, Multiset.add_assoc]
          · rintro error _ ⟨other, hother, after', hraised⟩
            exact ⟨other, List.mem_cons_of_mem _ hother, after', hraised⟩

theorem spec_generateForks {exposedNames : List String}
    (hclear : Clear stems table exposedNames)
    (hstems : ∀ stem ∈ portableStems table, stem ∈ stems)
    (hextras : ExtrasRename settings table stems) (session : Session) :
    Attempt.Spec (generateForks settings table seed exposedNames) session
      (fun result _ => ∃ runs,
        ReplayedBy settings table seed stems exposedNames.zipIdx runs result)
      (fun _ => False)
      (fun error _ => exposedNames = [] ∨
        FreshRaises settings table seed exposedNames.zipIdx error) := by
  rw [generateForks, Attempt.spec_bind, Attempt.spec_require]
  constructor
  · intro _
    have hnamed : ∀ name ∈ exposedNames.zipIdx, name.1 ∈ exposedNames :=
      fun name hname => List.fst_mem_of_mem_zipIdx hname
    have hloop := spec_forkLoop seed hclear hstems hextras exposedNames.zipIdx hnamed ⟨[], 0, 0⟩
      { session with objectCounters := fun _ => 0 } fun _ h => absurd rfl h
    rw [Attempt.spec_bind, spec_newNames, Attempt.spec_bind]
    refine hloop.mono ?_ (fun _ h => h) fun _ _ h => .inr h
    rintro result _ ⟨runs, rest, hreplayed, rfl⟩
    refine ⟨runs, ?_⟩
    simpa [joined] using hreplayed
  · intro hnone
    exact .inl (not_not.mp hnone)

/--
Each fork is what a fresh generator with fresh names makes of its seed and name, up to the numbers
of minted names, and the counters are the sums of those of the fresh generators. If it raises,
there was no name to make, or a fresh generator raises the same error.
-/
theorem generateForks_replayedBy {exposedNames : List String}
    (hclear : Clear stems table exposedNames)
    (hstems : ∀ stem ∈ portableStems table, stem ∈ stems)
    (hextras : ExtrasRename settings table stems) (session : Session) :
    (∀ result after, generateForks settings table seed exposedNames session = .done result after →
      ∃ runs, ReplayedBy settings table seed stems exposedNames.zipIdx runs result) ∧
    (∀ error after, generateForks settings table seed exposedNames session = .raised error after →
      exposedNames = [] ∨ FreshRaises settings table seed exposedNames.zipIdx error) ∧
    ∀ after, generateForks settings table seed exposedNames session ≠ .declined after := by
  have hspec := spec_generateForks seed hclear hstems hextras session
  rw [Attempt.Spec] at hspec
  refine ⟨fun result after hrun => ?_, fun error after hrun => ?_, fun after hrun => ?_⟩
  · rw [hrun] at hspec
    exact hspec
  · rw [hrun] at hspec
    exact hspec
  · rw [hrun] at hspec
    exact hspec

end Forks

section Sample

/-- The name of the object that a step makes. -/
def objectName : SetupStep → List String
  | .object object => [object.name]
  | _ => []

theorem flatMap_objectName_rename (ρ : String → String) (steps : List SetupStep) :
    (steps.map (renameStep ρ)).flatMap objectName = (steps.flatMap objectName).map ρ := by
  rw [List.flatMap_map, List.map_flatMap]
  congr 1
  funext step
  cases step <;> rfl

/--
Every generation makes a materialized view of a table that it mints a name for, since the builders
before that one draw later places. The statements are the names of what they make.
-/
def viewsOfTables : Settings where
  config := ⟨3, 0, 0, [], [], [⟨.first, 1⟩], [⟨.inner, 1⟩], [⟨.max, 1⟩], [⟨.none, 1⟩], [⟨2, 1⟩]⟩
  visit := objectName
  random _ n := if n < 4 then 1 else 0

def statementsOf : Outcome GenerationError Session GeneratedForks → Option (List (List String))
  | .done result _ => some (result.forks.map GeneratedEquivalence.setupStatements)
  | _ => none

/-- The names of what a fresh generation makes. -/
def freshNames : Outcome GenerationError Session GeneratedEquivalence → Option (List String)
  | .done result _ => some ((setupSteps result.root).flatMap objectName)
  | _ => none

theorem statements_eq {outcome : Outcome GenerationError Session GeneratedForks}
    {statements : List (List String)} (h : statementsOf outcome = some statements) :
    ∃ result after, outcome = .done result after ∧
      result.forks.map GeneratedEquivalence.setupStatements = statements := by
  cases outcome with
  | done result after => exact ⟨result, after, rfl, Option.some.inj h⟩
  | declined after => cases h
  | raised error after => cases h

theorem freshNames_of_freshRun {settings : Settings} {table : Table} {seed : Int}
    {name : String × Nat} {run : GeneratedEquivalence × Session}
    (h : FreshRun settings table seed name run) {names : List String}
    (hnames : freshNames (generate settings table (seed + name.2) name.1 {}) = some names) :
    (setupSteps run.1.root).flatMap objectName = names := by
  rw [FreshRun] at h
  rw [h] at hnames
  exact Option.some.inj hnames

theorem ForkOf.statements {stems : List String} {fresh fork : GeneratedEquivalence}
    (h : ForkOf objectName stems fresh fork) :
    ∃ ρ, fork.setupStatements = ((setupSteps fresh.root).flatMap objectName).map ρ := by
  obtain ⟨ρ, -, -, -, hstatements⟩ := h
  exact ⟨ρ, hstatements.trans (flatMap_objectName_rename ρ _)⟩

theorem clear_viewsOfTables : Clear (portableStems narrowTable) narrowTable ["left", "right"] where
  column := by
    intro column hcolumn stem _
    have hall : ∀ column ∈ narrowTable.columns, '_' ∉ column.name.toList := by decide
    exact ne_numbered_of_notMem (hall column hcolumn) stem
  table stem _ := ne_numbered_of_notMem (by decide) stem
  exposed := by
    intro name hname stem _
    have hall : ∀ name ∈ ["left", "right"], '_' ∉ name.toList := by decide
    exact ne_numbered_of_notMem (hall name hname) stem

theorem extrasRename_viewsOfTables (stems : List String) :
    ExtrasRename viewsOfTables narrowTable stems := by
  intro seed b hb
  exact absurd hb List.not_mem_nil

/-- Two forks made by a generator that has been in use. -/
theorem generateForks_replayedBy_pair :
    ∃ result after runs,
      generateForks viewsOfTables narrowTable 7 ["left", "right"] ⟨{}, fun _ => 5⟩ =
        .done result after ∧
      ReplayedBy viewsOfTables narrowTable 7 (portableStems narrowTable) ["left", "right"].zipIdx
        runs result := by
  have hstatements : statementsOf (generateForks viewsOfTables narrowTable 7 ["left", "right"]
      ⟨{}, fun _ => 5⟩) = some [["t_table_1", "left"], ["t_table_2", "right"]] := by
    decide +kernel
  obtain ⟨result, after, hrun, _⟩ := statements_eq hstatements
  obtain ⟨hreplayed, _, _⟩ := generateForks_replayedBy 7 clear_viewsOfTables (fun _ h => h)
    (extrasRename_viewsOfTables (portableStems narrowTable)) ⟨{}, fun _ => 5⟩
  obtain ⟨runs, hruns⟩ := hreplayed result after hrun
  exact ⟨result, after, runs, hrun, hruns⟩

/-- The second name is the one that the first fork leaves the second to mint no more. -/
theorem not_always_replayedBy :
    ¬∀ (settings : Settings) (table : Table) (seed : Int) (exposedNames : List String)
      (session : Session) (result : GeneratedForks) (after : Session),
      generateForks settings table seed exposedNames session = .done result after →
        ∃ stems runs, ReplayedBy settings table seed stems exposedNames.zipIdx runs result := by
  intro h
  have hforks : statementsOf (generateForks viewsOfTables narrowTable 0 ["out", "t_table_1"] {}) =
      some [["t_table_1", "out"], ["t_table_2", "t_table_1"]] := by decide +kernel
  have hfresh : freshNames (generate viewsOfTables narrowTable (0 + (1 : Nat)) "t_table_1" {}) =
      some ["t_table_1", "t_table_1"] := by decide +kernel
  obtain ⟨result, after, hrun, hstatements⟩ := statements_eq hforks
  obtain ⟨stems, runs, hreplayed⟩ := h _ _ _ _ _ _ _ hrun
  have hruns := hreplayed.fresh
  have hreplays := hreplayed.forks
  clear h hforks hrun hreplayed
  generalize result.forks = forks at hstatements hreplays
  rw [show ["out", "t_table_1"].zipIdx = [("out", 0), ("t_table_1", 1)] from rfl] at hruns
  obtain _ | ⟨_, _ | ⟨hsecond, _ | _⟩⟩ := hruns
  obtain _ | ⟨_, _ | ⟨hfork, _ | _⟩⟩ := hreplays
  obtain ⟨ρ, hnames⟩ := hfork.statements
  rw [freshNames_of_freshRun hsecond hfresh] at hnames
  simp only [List.map_cons, List.map_nil, List.cons.injEq, and_true] at hstatements hnames
  obtain ⟨-, hfork⟩ := hstatements
  rw [hfork] at hnames
  simp only [List.cons.injEq, and_true] at hnames
  exact absurd (hnames.1.trans hnames.2.symm) (by decide)

end Sample

end EqGen.Equivalence.Forks
