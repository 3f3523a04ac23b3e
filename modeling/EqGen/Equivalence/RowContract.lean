import EqGen.Equivalence.ContractExpansions
import EqGen.Equivalence.ContractJoins
import EqGen.Equivalence.ContractNames
import EqGen.Equivalence.ContractRewrites

/-!
The row contract of the portable generator: whatever its builders are asked for, and however they
are drawn, the node that comes back is what was asked for, and its statements create no object
under a name that is in use.
-/

namespace EqGen.Equivalence.RowContract

open Classical
open EqGen.Builder.Context
open EqGen.Builder.Promises
open EqGen.Core.Catalog
open EqGen.Equivalence.Ast
open EqGen.Equivalence.Builders.Base
open EqGen.Equivalence.Builders.Expansion (keep)
open EqGen.Equivalence.Context
open EqGen.Equivalence.ContractExpansions
open EqGen.Equivalence.ContractJoins
open EqGen.Equivalence.ContractNames
open EqGen.Equivalence.ContractPartitions
open EqGen.Equivalence.ContractQueries
open EqGen.Equivalence.ContractRewrites
open EqGen.Equivalence.ContractSteps
open EqGen.Equivalence.Contracts
open EqGen.Equivalence.Creations
open EqGen.Equivalence.Denotations
open EqGen.Equivalence.Expansion
open EqGen.Equivalence.Factory
open EqGen.Equivalence.Forks
open EqGen.Equivalence.Generator hiding generate
open EqGen.Equivalence.Renamed (columnStems objectStems portableStems)
open EqGen.Equivalence.Semantics
open EqGen.Lib.Ascent
open EqGen.Lib.Backtrack
open EqGen.Lib.Backtrack.Attempt
open EqGen.Lib.Dag

variable {V : Type} {engine : Engine V} {context : EquivalenceContext}
variable {base : BaseRows V context.baseTable} {scope : Scope V}
variable {pool extras : List EquivalenceBuilder} {stems : List String}

section Dispatch

theorem keeps_portableBuilders (hsituated : Situated context base scope) :
    ∀ b ∈ portableBuilders context, Keeps engine base scope pool b := by
  intro b hb
  simp only [portableBuilders, List.mem_append, List.mem_singleton] at hb
  rcases hb with (((((h | h) | h) | h) | h) | h) | rfl
  · exact keeps_createBuilders hsituated b h
  · exact keeps_selectBuilders hsituated b h
  · exact keeps_partitioningBuilders hsituated b h
  · exact keeps_rewriteBuilders b h
  · exact keeps_joinBuilders hsituated b h
  · exact keeps_expansionBuilders hsituated b h
  · exact keeps_baseTableSourceBuilder hsituated

/-- The context of a generation whose names are clear of those that the stems give. -/
theorem situated_of_clear (hstems : columnStems ⊆ stems)
    (hreads : scope (context.baseTable.getSqlName true) = baseRelation base)
    (hjoins : ∀ option ∈ context.config.joinTypeWeights, option.value ∈ joinTypeChoices)
    {exposedNames : List String} (hclear : Clear stems context.baseTable exposedNames) :
    Situated context base scope where
  reads := hreads
  columns := fun column hcolumn stem hstem => hclear.column column hcolumn stem (hstems hstem)
  joins := hjoins

variable (engine base scope) in
/-- What a request of a type asks of the node that answers it. -/
def Answered (requested : RequestType) (constraints : ConstraintSet) (node : EqNode) : Prop :=
  match requested with
  | .queryNode => QueryAnswered engine base scope constraints node
  | .equivalentSource | .equivalentRelation => SourceAnswered engine base scope constraints node

theorem answered_of_served {requested : RequestType} {constraints : ConstraintSet}
    {s s' : GenerationState} {node : EqNode}
    (h : Served (factoryOf context pool) (contract engine base scope) requested constraints s node
      s') : Answered engine base scope requested constraints node := by
  cases requested with
  | queryNode => exact served_query h
  | equivalentSource => exact served_source h
  | equivalentRelation => exact (served_relation h).1

/-- The statements of some trees, one tree after the other, create their objects under new names. -/
structure CreatesApart (table : Table) (roots : List EqNode) : Prop where
  nodup : (roots.flatMap createdNames).Nodup
  base : table.getSqlName true ∉ roots.flatMap createdNames

theorem Named.createsApart {exposed : Option String} {s s' : GenerationState} {node : EqNode}
    (h : Named stems exposed s [node] s') {table : Table}
    (htable : Unminted stems (table.getSqlName true))
    (hexposed : ∀ name ∈ exposed, name ≠ table.getSqlName true) :
    CreatesApart table [node] where
  nodup := by
    rw [List.flatMap_singleton]
    exact h.createdNames_nodup
  base := by
    rw [List.flatMap_singleton]
    intro hname
    rcases h.mem_createdNames hname with hname | hminted
    · exact hexposed _ hname rfl
    · exact hminted.not_unminted htable

section Returned

variable {fuel : Nat} {requested : RequestType} {constraints : ConstraintSet}
variable {s s' : GenerationState} {node : EqNode}
variable (hrun : (factoryOf context pool).buildSubtree fuel requested constraints s = .done node s')

include hrun

/-- A dispatch over builders that keep the contract returns what it was asked for. -/
theorem answered_of_keeps (hpool : ∀ b ∈ pool, Keeps engine base scope pool b)
    (hproper : Proper context.baseTable constraints) :
    Answered engine base scope requested constraints node := by
  have hkeeps : ∀ b ∈ (factoryOf context pool).builders, Keeps engine base scope pool b := hpool
  have hanswers := answers_buildSubtree hkeeps fuel requested constraints hproper s
  unfold Leads Attempt.Spec at hanswers
  rw [hrun] at hanswers
  exact answered_of_served hanswers.2

theorem createsApart_of_keepsNames (hpool : ∀ b ∈ pool, KeepsNames context pool stems b)
    (htable : Unminted stems (context.baseTable.getSqlName true))
    (hproper : Proper context.baseTable constraints)
    (hunminted : ∀ name ∈ constraints.exposedName, Unminted stems name) :
    CreatesApart context.baseTable [node] := by
  have hnames : ∀ b ∈ (factoryOf context pool).builders, KeepsNames context pool stems b := hpool
  have hnamed := answers_buildSubtree hnames fuel requested constraints hunminted s
  unfold Leads Attempt.Spec at hnamed
  rw [hrun] at hnamed
  obtain ⟨-, c, -, -, -, hkept⟩ := hnamed
  exact Named.createsApart hkept htable hproper.exposed

end Returned

/--
Every node that a dispatch returns is what it was asked for, whatever the constraints, the depth
and the numbers drawn, with any builders beside the portable ones that keep the contract too.
-/
theorem buildSubtree_answered (hstems : portableStems context.baseTable ⊆ stems)
    (hreads : scope (context.baseTable.getSqlName true) = baseRelation base)
    (hjoins : ∀ option ∈ context.config.joinTypeWeights, option.value ∈ joinTypeChoices)
    (hextras : ∀ b ∈ extras, Keeps engine base scope (portableBuilders context ++ extras) b ∧
      KeepsNames context (portableBuilders context ++ extras) stems b)
    (fuel : Nat) (requested : RequestType) (constraints : ConstraintSet)
    (hclear : Clear stems context.baseTable constraints.exposedName.toList)
    (hproper : Proper context.baseTable constraints) (s s' : GenerationState) (node : EqNode)
    (hrun : (factoryOf context (portableBuilders context ++ extras)).buildSubtree fuel requested
      constraints s = .done node s') :
    Answered engine base scope requested constraints node ∧
      CreatesApart context.baseTable [node] := by
  obtain ⟨hobjects, hcolumns⟩ := List.append_subset.mp hstems
  have hsituated := situated_of_clear hcolumns hreads hjoins hclear
  constructor
  · refine answered_of_keeps hrun (fun b hb => ?_) hproper
    rcases List.mem_append.mp hb with hb | hb
    · exact keeps_portableBuilders hsituated b hb
    · exact (hextras b hb).1
  · refine createsApart_of_keepsNames hrun (fun b hb => ?_) hclear.table hproper fun name hname =>
      hclear.exposed name (Option.mem_toList.mpr hname)
    rcases List.mem_append.mp hb with hb | hb
    · exact keepsNames_portableBuilders hobjects engine b hb
    · exact (hextras b hb).2

end Dispatch

section Roots

variable (engine scope) in
/-- The node is the base table under another name: its columns, and its rows at every read. -/
structure Equivalent {table : Table} (base : BaseRows V table) (name : String) (node : EqNode) :
    Prop where
  exposed : refSql node = name
  signature : (getSignature node).names = table.columnNames
  columns : (relationOf engine scope node).columns = table.columnNames
  rows : ∀ occasion, engine.rows scope node occasion = base.rows

theorem proper_rootConstraints {exposedName : Option String}
    (hname : exposedName.getD context.baseTable.name ≠ context.baseTable.getSqlName true) :
    Proper context.baseTable (rootConstraints context exposedName) :=
  ⟨by simp [rootConstraints], by simp [rootConstraints], by simpa [rootConstraints] using hname⟩

theorem refSql_of_served {name : String} {constraints : ConstraintSet} {s s' : GenerationState}
    {node : EqNode} (hexposed : constraints.exposedName = some name)
    (h : Served (factoryOf context pool) (contract engine base scope) .equivalentRelation
      constraints s node s') : refSql node = name := by
  obtain ⟨c, hc, hclass, hmeets, -⟩ := h
  have hclass : nodeClass node = c := of_decide_eq_true hclass
  cases c with
  | relation relationClass =>
      obtain ⟨i, label, inputs⟩ := node
      cases label with
      | baseTableSource table => simp [nodeClass] at hclass
      | query query =>
          obtain ⟨shape, sources⟩ := query
          cases shape <;> simp [nodeClass, queryClass] at hclass
      | relation relation =>
          have hname : meetsExposedName constraints (.mk i (.relation relation) inputs) = true :=
            (Bool.and_eq_true_iff.mp hmeets).2
          simpa [meetsExposedName, hexposed] using hname
  | _ => cases hc

theorem equivalent_of_served {name : String} {constraints : ConstraintSet}
    {s s' : GenerationState} {node : EqNode} (hplain : Plain constraints)
    (hfilter : constraints.rowFilter = none) (hexposed : constraints.exposedName = some name)
    (h : Served (factoryOf context pool) (contract engine base scope) .equivalentRelation
      constraints s node s') : Equivalent engine scope base name node := by
  obtain ⟨relation, hholds, hfits⟩ := (served_relation h).1
  rw [hplain.eq_of_fits hfits, hfilter, passing_none] at hholds
  have hrelation := hholds.relationOf_eq
  refine ⟨refSql_of_served hexposed h, hholds.signature, by rw [hrelation], ?_⟩
  intro occasion
  have hrows : (relationOf engine scope node).rows occasion = base.rows := by rw [hrelation]
  exact hrows

/-- A generation returns the root that the factory built. -/
theorem leads_root {exposedName : Option String} {s : GenerationState}
    {Q : EqNode → GenerationState → Prop}
    (h : Leads s ((factoryOf context pool).buildSubtree context.config.maxDepth
      .equivalentRelation (rootConstraints context exposedName)) Q) :
    Leads s (Generator.generate context pool exposedName) Q := by
  refine Leads.bind (Q := fun root s' => ∀ node ∈ root, Q node s') (Leads.optional ?_ ?_) ?_
  · apply h.mono
    intro root s' _ hroot node hnode
    rwa [← Option.mem_some.mp hnode]
  · exact fun _ _ _ hnode => absurd hnode (Option.not_mem_none _)
  · intro root s' _ hroot
    cases root with
    | none => exact Leads.raise _
    | some root => exact Leads.pure (hroot root rfl)

theorem leads_generate (hpool : ∀ b ∈ pool, Keeps engine base scope pool b)
    {exposedName : Option String}
    (hname : exposedName.getD context.baseTable.name ≠ context.baseTable.getSqlName true)
    (s : GenerationState) :
    Leads s (Generator.generate context pool exposedName) fun root _ =>
      Equivalent engine scope base (exposedName.getD context.baseTable.name) root := by
  have hkeeps : ∀ b ∈ (factoryOf context pool).builders, Keeps engine base scope pool b := hpool
  have hroot := answers_buildSubtree hkeeps context.config.maxDepth .equivalentRelation
    (rootConstraints context exposedName) (proper_rootConstraints hname) s
  apply leads_root
  apply hroot.mono
  intro root s' _ hserved
  exact equivalent_of_served ⟨rfl, rfl, rfl⟩ rfl rfl hserved

theorem leads_generate_named (hpool : ∀ b ∈ pool, KeepsNames context pool stems b)
    {exposedName : Option String}
    (hname : Unminted stems (exposedName.getD context.baseTable.name)) (s : GenerationState) :
    Leads s (Generator.generate context pool exposedName) fun root s' =>
      Named stems (exposedName.getD context.baseTable.name) s [root] s' := by
  have hkeeps : ∀ b ∈ (factoryOf context pool).builders, KeepsNames context pool stems b := hpool
  have hproper : (naming stems).proper (rootConstraints context exposedName) := by
    rintro name ⟨rfl⟩
    exact hname
  have hroot := answers_buildSubtree hkeeps context.config.maxDepth .equivalentRelation
    (rootConstraints context exposedName) hproper s
  apply leads_root
  apply hroot.mono
  rintro root s' - ⟨c, -, -, -, hkept⟩
  exact hkept

end Roots

section Forks

variable {settings : Settings} {table : Table} {base : BaseRows V table}

variable (engine base scope settings stems) in
/-- The builders from outside keep the contract beside the portable ones, and mint their names. -/
def ExtrasKeep : Prop :=
  ∀ seed, ∀ b ∈ settings.extraBuilders (contextFor settings table seed),
    @Keeps V engine (contextFor settings table seed) base scope
        (poolFor settings (contextFor settings table seed)) b ∧
      KeepsNames (contextFor settings table seed)
        (poolFor settings (contextFor settings table seed)) stems b

theorem situated_contextFor {seed seed' : Int}
    (h : Situated (contextFor settings table seed) base scope) :
    Situated (contextFor settings table seed') base scope :=
  ⟨h.reads, h.columns, h.joins⟩

/-- The state in which a generation of the session starts. -/
abbrev Session.start (session : Session) : GenerationState :=
  freshState session.objectCounters

variable (engine base scope stems) in
/-- What was made between two sessions: the base table under each of the names, each on its own. -/
structure Forked (names : List String) (session : Session) (forks : List GeneratedEquivalence)
    (after : Session) : Prop where
  le : Session.start session ≤ Session.start after
  equivalent : List.Forall₂ (fun name fork => Equivalent engine scope base name fork.root) names
    forks
  nodup : ((forks.map GeneratedEquivalence.root).flatMap createdNames).Nodup
  minted : ∀ name ∈ (forks.map GeneratedEquivalence.root).flatMap createdNames,
    name ∈ names ∨ Minted stems (Session.start session) (Session.start after) name

theorem Forked.nil (session : Session) : Forked engine scope stems base [] session [] session where
  le := le_refl session.objectCounters
  equivalent := .nil
  nodup := List.nodup_nil
  minted := List.forall_mem_nil _

/-- The names of one fork are not those of the forks after it. -/
theorem Forked.cons {name : String} {names : List String} {session middle after : Session}
    {fork : GeneratedEquivalence} {forks : List GeneratedEquivalence}
    (hle : Session.start session ≤ Session.start middle)
    (hequivalent : Equivalent engine scope base name fork.root)
    (hnamed : Named stems (some name) (Session.start session) [fork.root] (Session.start middle))
    (h : Forked engine scope stems base names middle forks after) (hname : name ∉ names)
    (hunminted : ∀ exposed ∈ name :: names, Unminted stems exposed) :
    Forked engine scope stems base (name :: names) session (fork :: forks) after where
  le := hle.trans h.le
  equivalent := .cons hequivalent h.equivalent
  nodup := by
    rw [List.map_cons, List.flatMap_cons]
    refine hnamed.createdNames_nodup.append h.nodup ?_
    intro other hother hlater
    obtain ⟨hunminted, hrest⟩ := List.forall_mem_cons.mp hunminted
    rcases hnamed.mem_createdNames hother with hexposed | hminted
    · obtain rfl := Option.mem_some.mp hexposed
      rcases h.minted _ hlater with hlater | hlater
      · exact hname hlater
      · exact hlater.not_unminted hunminted
    · rcases h.minted _ hlater with hlater | hlater
      · exact hminted.not_unminted (hrest other hlater)
      · exact hminted.not_minted hlater
  minted := by
    rw [List.map_cons, List.flatMap_cons]
    intro other hother
    rcases List.mem_append.mp hother with hother | hother
    · rcases hnamed.mem_createdNames hother with hexposed | hminted
      · rw [Option.mem_some.mp hexposed]
        exact .inl List.mem_cons_self
      · exact .inr (hminted.widen (le_refl session.objectCounters) h.le)
    · rcases h.minted other hother with hother | hminted
      · exact .inl (List.mem_cons_of_mem name hother)
      · exact .inr (hminted.widen hle (le_refl after.objectCounters))

variable (hstems : objectStems table ⊆ stems)
variable (hextras : ExtrasKeep engine scope stems settings base)

include hstems hextras

theorem spec_generate {seed : Int}
    (hsituated : Situated (contextFor settings table seed) base scope) {name : String}
    (hname : name ≠ table.getSqlName true) (hunminted : Unminted stems name) (session : Session) :
    (generate settings table seed name).Spec session
      (fun fork after => Session.start session ≤ Session.start after ∧
        Equivalent engine scope base name fork.root ∧
        Named stems (some name) (Session.start session) [fork.root] (Session.start after))
      (fun _ => True) fun _ _ => True := by
  have hpool : ∀ b ∈ poolFor settings (contextFor settings table seed),
      @Keeps V engine (contextFor settings table seed) base scope
        (poolFor settings (contextFor settings table seed)) b := by
    intro b hb
    rcases List.mem_append.mp hb with hb | hb
    · exact keeps_portableBuilders hsituated b hb
    · exact (hextras seed b hb).1
  have hnames : ∀ b ∈ poolFor settings (contextFor settings table seed),
      KeepsNames (contextFor settings table seed)
        (poolFor settings (contextFor settings table seed)) stems b := by
    intro b hb
    rcases List.mem_append.mp hb with hb | hb
    · exact keepsNames_portableBuilders hstems engine b hb
    · exact (hextras seed b hb).2
  have hleads := (@leads_generate V engine (contextFor settings table seed) base scope
    (poolFor settings (contextFor settings table seed)) hpool (some name) hname
    (Session.start session)).and
      (@leads_generate_named (contextFor settings table seed)
        (poolFor settings (contextFor settings table seed)) stems hnames (some name) hunminted
          (Session.start session))
  unfold Leads at hleads
  unfold Attempt.Spec at hleads ⊢
  unfold generate
  dsimp only
  cases hrun : Generator.generate (contextFor settings table seed)
      (poolFor settings (contextFor settings table seed)) (some name)
      (freshState session.objectCounters) with
  | done root s =>
      rw [hrun] at hleads
      obtain ⟨hle, hequivalent, hnamed⟩ := hleads
      exact ⟨hle, hequivalent,
        hnamed.widen (le_refl session.objectCounters) (le_refl s.objectCounters)⟩
  | declined s => trivial
  | raised error s => trivial

theorem spec_forkLoop_forked {seed : Int}
    (hsituated : Situated (contextFor settings table seed) base scope)
    (named : List (String × Nat)) (hnames : table.getSqlName true ∉ named.map Prod.fst)
    (hunminted : ∀ name ∈ named.map Prod.fst, Unminted stems name)
    (hnodup : (named.map Prod.fst).Nodup) (made : GeneratedForks) (session : Session) :
    (forkLoop settings table seed named made).Spec session
      (fun result after => ∃ forks, result.forks = made.forks ++ forks ∧
        Forked engine scope stems base (named.map Prod.fst) session forks after)
      (fun _ => True) fun _ _ => True := by
  induction named generalizing made session with
  | nil => exact ⟨[], (List.append_nil _).symm, .nil session⟩
  | cons name named ih =>
      obtain ⟨hname, hrest⟩ := List.ne_and_not_mem_of_not_mem_cons hnames
      obtain ⟨hunmintedName, hunmintedRest⟩ := List.forall_mem_cons.mp hunminted
      obtain ⟨hnew, hnodup⟩ := List.nodup_cons.mp hnodup
      rw [forkLoop, Attempt.spec_bind]
      apply Attempt.Spec.mono (spec_generate hstems hextras (situated_contextFor hsituated)
        hname.symm hunmintedName session)
      · rintro fork middle ⟨hle, hequivalent, hnamed⟩
        rw [Attempt.spec_bind]
        apply Attempt.Spec.mono (ih hrest hunmintedRest hnodup _ middle)
        · rintro result after ⟨forks, hforks, hforked⟩
          refine ⟨fork :: forks, ?_, .cons hle hequivalent hnamed hforked hnew hunminted⟩
          rw [hforks, List.append_assoc, List.singleton_append]
        · exact fun _ _ => trivial
        · exact fun _ _ _ => trivial
      · exact fun _ _ => trivial
      · exact fun _ _ _ => trivial

omit hstems hextras in
/--
Every fork is the base table under the name asked for, whatever forks were made before, and the
statements of all of them create no two objects under one name.
-/
theorem generateForks_equivalent (hstems : portableStems table ⊆ stems) (seed : Int)
    (exposedNames : List String) (session after : Session) (result : GeneratedForks)
    (hreads : scope (table.getSqlName true) = baseRelation base)
    (hjoins : ∀ option ∈ settings.config.joinTypeWeights, option.value ∈ joinTypeChoices)
    (hextras : ExtrasKeep engine scope stems settings base)
    (hclear : Clear stems table exposedNames)
    (hnames : table.getSqlName true ∉ exposedNames) (hnodup : exposedNames.Nodup)
    (hrun : generateForks settings table seed exposedNames session = .done result after) :
    List.Forall₂ (fun name fork => Equivalent engine scope base name fork.root) exposedNames
        result.forks ∧
      CreatesApart table (result.forks.map GeneratedEquivalence.root) := by
  obtain ⟨hobjects, hcolumns⟩ := List.append_subset.mp hstems
  have hsituated : Situated (contextFor settings table seed) base scope :=
    situated_of_clear hcolumns hreads hjoins hclear
  have hnamed : exposedNames.zipIdx.map Prod.fst = exposedNames := List.zipIdx_map_fst 0 exposedNames
  have hloop := spec_forkLoop_forked hobjects hextras hsituated exposedNames.zipIdx
    (by rwa [hnamed]) (by rw [hnamed]; exact hclear.exposed) (by rwa [hnamed]) ⟨[], 0, 0⟩
    { session with objectCounters := fun _ => 0 }
  rw [hnamed] at hloop
  have hspec : (generateForks settings table seed exposedNames).Spec session
      (fun result _ =>
        List.Forall₂ (fun name fork => Equivalent engine scope base name fork.root) exposedNames
            result.forks ∧
          CreatesApart table (result.forks.map GeneratedEquivalence.root))
      (fun _ => True) fun _ _ => True := by
    rw [generateForks, Attempt.spec_bind, Attempt.spec_require]
    refine ⟨fun _ => ?_, fun _ => trivial⟩
    rw [Attempt.spec_bind]
    show Attempt.Spec (forkLoop settings table seed exposedNames.zipIdx ⟨[], 0, 0⟩ >>= _) _ _ _ _
    rw [Attempt.spec_bind]
    apply Attempt.Spec.mono hloop
    · rintro made middle ⟨forks, hforks, hforked⟩
      obtain rfl : made.forks = forks := hforks
      refine ⟨hforked.equivalent, hforked.nodup, ?_⟩
      intro hbase
      rcases hforked.minted _ hbase with hexposed | hminted
      · exact hnames hexposed
      · exact hminted.not_unminted hclear.table
    · exact fun _ _ => trivial
    · exact fun _ _ _ => trivial
  unfold Attempt.Spec at hspec
  rw [hrun] at hspec
  exact hspec

end Forks

section Sample

/-- The rows of the narrow table, all with the same number. -/
noncomputable def sevens (count : Nat) : BaseRows Unit narrowTable where
  rows := Multiset.replicate count sampleRow
  supported := by
    intro row hrow name hname
    rw [Multiset.eq_of_mem_replicate hrow]
    exact if_neg (by simpa [narrowTable, Table.columnNames] using hname)

noncomputable def sevensScope (count : Nat) : Scope Unit := fun _ => baseRelation (sevens count)

theorem extrasKeep_viewsOfTables (engine : Engine Unit) (count : Nat) :
    ExtrasKeep engine (sevensScope count) (portableStems narrowTable) viewsOfTables
      (sevens count) := by
  intro seed b hb
  exact absurd hb List.not_mem_nil

/-- A generation deep enough for copies, whose first seven builders draw later places. -/
def expanding : EquivalenceContext where
  config := { viewsOfTables.config with maxDepth := 6 }
  baseTable := narrowTable
  draws n := if n < 7 then 1 else 0

/-- A filter, a tag channel on a table to write to, and a name. -/
def sampleRequests : List (RequestType × ConstraintSet) :=
  [(.queryNode, { rowFilter := some (.isNull (col "a" integerType) true) }),
    (.equivalentRelation, { tagChannel := some ⟨"tag", keep⟩, acceptsDml := true }),
    (.equivalentRelation, { exposedName := some "left" })]

theorem asked_sampleRequests : ∀ request ∈ sampleRequests,
    request.2.exposedName.toList ⊆ ["left", "right"] ∧ Proper narrowTable request.2 := by
  simp only [sampleRequests, List.forall_mem_cons]
  refine ⟨⟨by simp, by simp, by simp, by simp⟩, ⟨by simp, ?_, by simp, by simp⟩,
    ⟨by simp, by simp, by simp, by decide⟩, List.forall_mem_nil _⟩
  rintro channel ⟨rfl⟩
  exact ⟨rfl, by decide⟩

theorem buildSubtree_answered_sampleRequests : sampleRequests.Forall fun request =>
    ∃ node s', (factoryOf expanding (portableBuilders expanding ++ [])).buildSubtree 6 request.1
        request.2 (freshState fun _ => 0) = .done node s' ∧
      @Answered Unit sampleEngine expanding (sevens 2) (sevensScope 2) request.1 request.2 node ∧
      CreatesApart narrowTable [node] := by
  have hreturns : ∀ request ∈ sampleRequests,
      (ledger ((factoryOf expanding (portableBuilders expanding ++ [])).buildSubtree 6 request.1
        request.2 (freshState fun _ => 0))).isSome = true := by
    decide +kernel
  refine List.forall_iff_forall_mem.mpr fun request hrequest => ?_
  obtain ⟨node, s', hrun⟩ := returns_of_ledger _ (hreturns request hrequest)
  obtain ⟨hexposed, hproper⟩ := asked_sampleRequests request hrequest
  refine ⟨node, s', hrun, ?_⟩
  exact @buildSubtree_answered Unit sampleEngine expanding (sevens 2) (sevensScope 2) []
    (portableStems narrowTable) (List.Subset.refl _) rfl (by decide)
    (fun b hb => absurd hb List.not_mem_nil) 6 request.1 request.2
    ⟨clear_viewsOfTables.column, clear_viewsOfTables.table,
      fun name hname => clear_viewsOfTables.exposed name (hexposed hname)⟩ hproper _ s' node hrun

theorem generateForks_equivalent_pair :
    ∃ result after, generateForks viewsOfTables narrowTable 7 ["left", "right"] {} =
        .done result after ∧
      List.Forall₂ (fun name fork => Equivalent sampleEngine (sevensScope 2) (sevens 2) name
        fork.root) ["left", "right"] result.forks ∧
      CreatesApart narrowTable (result.forks.map GeneratedEquivalence.root) := by
  have hstatements : statementsOf (generateForks viewsOfTables narrowTable 7 ["left", "right"]
      {}) = some [["t_table_1", "left"], ["t_table_2", "right"]] := by
    decide +kernel
  obtain ⟨result, after, hrun, -⟩ := statements_eq hstatements
  exact ⟨result, after, hrun, generateForks_equivalent (List.Subset.refl _) 7 ["left", "right"] {}
    after result rfl (by decide) (extrasKeep_viewsOfTables sampleEngine 2) clear_viewsOfTables
    (by decide) (by decide) hrun⟩

end Sample

end EqGen.Equivalence.RowContract
