import EqGen.Dialects.Cratedb.Adapter
import EqGen.Dialects.Cratedb.Keys

/-!
Which runs read their own writes. The invariant ties the fence to the catalog: every table the
engine has is named by some key of `FenceState.tables`, so refreshing those keys refreshes all.
-/

namespace EqGen.Dialects.Cratedb.Fence

open EqGen.Lib.Machine
open EqGen.Dialects.Cratedb.Refresh
open EqGen.Dialects.Cratedb.Statement
open EqGen.Dialects.Cratedb.Forms
open EqGen.Dialects.Cratedb.Strip
open EqGen.Dialects.Cratedb.Engine
open EqGen.Dialects.Cratedb.Adapter
open EqGen.Dialects.Cratedb.Keys

variable {tables : UnicodeTables} {defaultSchema : Text}

section Known

/-- Every table has a key that names it. -/
def Known (defaultSchema : Text) (objs : Finset Obj) (keys : Finset Text) : Prop :=
  ∀ obj ∈ objs, ∃ key ∈ keys, readName defaultSchema key = some obj

variable {objs objs' : Finset Obj} {keys keys' : Finset Text} {obj : Obj} {key : Text}

theorem Known.mono (h : Known defaultSchema objs keys) (hobjs : objs' ⊆ objs)
    (hkeys : keys ⊆ keys') : Known defaultSchema objs' keys' := by
  intro obj hobj
  obtain ⟨key, hkey, hread⟩ := h obj (hobjs hobj)
  exact ⟨key, hkeys hkey, hread⟩

theorem Known.insert (h : Known defaultSchema objs keys)
    (hread : readName defaultSchema key = some obj) (hkey : key ∈ keys') (hkeys : keys ⊆ keys') :
    Known defaultSchema (insert obj objs) keys' := by
  intro other hother
  rcases Finset.mem_insert.mp hother with rfl | hother
  · exact ⟨key, hkey, hread⟩
  · exact h.mono (Finset.Subset.refl _) hkeys other hother

/-- A key may be forgotten when it names no table that stays. -/
theorem Known.forget (h : Known defaultSchema objs keys) (hobjs : objs' ⊆ objs)
    (hread : readName defaultSchema key = some obj) (hobj : obj ∉ objs') :
    Known defaultSchema objs' (keys \ {key}) := by
  intro other hother
  obtain ⟨otherKey, hmem, hotherRead⟩ := h other (hobjs hother)
  refine ⟨otherKey, ?_, hotherRead⟩
  rw [Finset.mem_sdiff, Finset.mem_singleton]
  refine ⟨hmem, ?_⟩
  rintro rfl
  rw [hread] at hotherRead
  cases hotherRead
  exact hobj hother

end Known

section Refreshing

theorem readRefresh_refreshTable (key : Text) :
    readRefresh defaultSchema (refreshTable key) = readName defaultSchema key := by
  have hlength : (refreshTable []).length = "REFRESH TABLE ".toList.length :=
    congrArg List.length (List.append_nil _)
  rw [readRefresh, hlength]
  exact congrArg (readName defaultSchema) List.drop_left

theorem refresh_tables (catalog : Catalog) (fails : Bool) (statement : Text) :
    (refresh catalog defaultSchema fails statement).2.tables = catalog.tables ∧
      (refresh catalog defaultSchema fails statement).2.views = catalog.views ∧
      (refresh catalog defaultSchema fails statement).2.pending ⊆ catalog.pending := by
  rw [refresh]
  split
  · exact ⟨rfl, rfl, Finset.Subset.refl _⟩
  · split
    · split
      · exact ⟨rfl, rfl, Finset.erase_subset _ _⟩
      · exact ⟨rfl, rfl, Finset.Subset.refl _⟩
    · exact ⟨rfl, rfl, Finset.Subset.refl _⟩

/-- A refresh that does not raise leaves no pending rows in the table it names. -/
theorem refresh_pending {catalog : Catalog} {fails : Bool} {statement : Text} {obj : Obj}
    (h : (refresh catalog defaultSchema fails statement).1 ≠ .error)
    (hread : readRefresh defaultSchema statement = some obj) :
    obj ∉ (refresh catalog defaultSchema fails statement).2.pending := by
  cases fails with
  | true => exact absurd rfl h
  | false =>
      simp only [refresh, hread, Bool.false_eq_true, if_false]
      by_cases hobj : obj ∈ catalog.tables
      · rw [if_pos hobj]
        exact Finset.notMem_erase _ _
      · rw [if_neg hobj]
        exact fun hpending => hobj (catalog.pending_subset hpending)

theorem sendRefreshes_tables {fails : Text → Bool} (statements : List Text) :
    ∀ catalog, (sendRefreshes defaultSchema fails catalog statements).2.tables =
        catalog.tables ∧
      (sendRefreshes defaultSchema fails catalog statements).2.views = catalog.views ∧
      (sendRefreshes defaultSchema fails catalog statements).2.pending ⊆ catalog.pending := by
  induction statements with
  | nil => exact fun catalog => ⟨rfl, rfl, Finset.Subset.refl _⟩
  | cons statement statements ih =>
      intro catalog
      have hfirst := @refresh_tables defaultSchema catalog (fails statement) statement
      have hrest := ih (refresh catalog defaultSchema (fails statement) statement).2
      rw [sendRefreshes]
      generalize hreply : refresh catalog defaultSchema (fails statement) statement = reply at *
      obtain ⟨reply, next⟩ := reply
      cases reply with
      | error => exact hfirst
      | done | undefinedTable =>
          exact ⟨hrest.1.trans hfirst.1, hrest.2.1.trans hfirst.2.1, hrest.2.2.trans hfirst.2.2⟩

theorem sendRefreshes_pending {fails : Text → Bool} {obj : Obj} {statement : Text}
    (hread : readRefresh defaultSchema statement = some obj) (statements : List Text) :
    ∀ catalog, statement ∈ statements →
      (sendRefreshes defaultSchema fails catalog statements).1 = true →
      obj ∉ (sendRefreshes defaultSchema fails catalog statements).2.pending := by
  induction statements with
  | nil => exact fun catalog hmem => absurd hmem List.not_mem_nil
  | cons first statements ih =>
      intro catalog hmem hok
      have hpending := @refresh_pending defaultSchema catalog (fails first) first obj
      have hrest := ih (refresh catalog defaultSchema (fails first) first).2
      have htables := @sendRefreshes_tables defaultSchema fails statements
        (refresh catalog defaultSchema (fails first) first).2
      rw [sendRefreshes] at hok ⊢
      generalize hreply : refresh catalog defaultSchema (fails first) first = reply at *
      obtain ⟨reply, next⟩ := reply
      cases reply with
      | error => cases hok
      | done | undefinedTable =>
          rcases List.mem_cons.mp hmem with rfl | hmem
          · exact fun hobj => hpending (by simp) hread (htables.2.2 hobj)
          · exact hrest hmem hok

end Refreshing

section Before

variable {fence : FenceState} {catalog : Catalog} {sql : Text}

theorem sort_map_eq_nil {keys : Finset Text} :
    (keys.sort (· ≤ ·)).map refreshTable = [] ↔ keys = ∅ := by
  rw [List.map_eq_nil_iff, ← List.length_eq_zero_iff, Finset.length_sort, Finset.card_eq_zero]

/-- Before a statement that may read, all known tables are refreshed. -/
theorem refreshes_mayRead (hdirty : fence.dirty ⊆ fence.tables)
    (h : (classify tables sql).mayRead = true) :
    @refreshes tables fence sql = fence.paranoidBefore := by
  rw [refreshes, if_pos h]
  split
  · rename_i hnil
    have hkeys : fence.tables = ∅ := sort_map_eq_nil.mp hnil
    rw [hkeys, Finset.subset_empty] at hdirty
    rw [FenceState.before, hdirty, hnil]
    simp
  · rfl

/-- After them nothing is pending. -/
theorem pending_eq_empty {fails : Text → Bool}
    (hknown : Known defaultSchema catalog.tables fence.tables)
    (hok : (sendRefreshes defaultSchema fails catalog fence.paranoidBefore).1 = true) :
    (sendRefreshes defaultSchema fails catalog fence.paranoidBefore).2.pending = ∅ := by
  rw [Finset.eq_empty_iff_forall_notMem]
  intro obj hobj
  have hpending := (sendRefreshes_tables fence.paranoidBefore catalog).2.2 hobj
  obtain ⟨key, hkey, hread⟩ := hknown obj (catalog.pending_subset hpending)
  refine sendRefreshes_pending ((readRefresh_refreshTable key).trans hread)
    fence.paranoidBefore catalog ?_ hok hobj
  exact List.mem_map_of_mem ((Finset.mem_sort _).mpr hkey)

end Before

section After

/-- The statements the fence follows. -/
def Form.Followed (tables : UnicodeTables) (defaultSchema : Text) (fence : FenceState)
    (catalog : Catalog) : Form → Prop
  | .createTable _ _ name _ | .createView _ _ _ name => Keyed tables defaultSchema name
  | .createTableAs _ _ name _ _ _ =>
      Keyed tables defaultSchema name ∧ normalize tables name.text ∉ fence.views
  | .insertSelect _ name _ _ _ _ => name.hidesValues = false
  | .rename _ name _ _ _ target =>
      Keyed tables defaultSchema name ∧ Keyed tables defaultSchema ⟨none, target⟩ ∧
        (name.obj defaultSchema ∈ catalog.tables →
          (name.obj defaultSchema).schema = defaultSchema)
  | .drop _ kind _ _ _ _ first _ =>
      Keyed tables defaultSchema first ∧
        (kind = .view → first.obj defaultSchema ∉ catalog.tables)
  | _ => True

variable {fence : FenceState} {catalog catalog' : Catalog} {rows : Bool}

theorem tables_created {ifNotExists : Bool} {obj : Obj} {action : Action}
    (haction : action = .createTable ifNotExists obj ∨ action = .createTableAs ifNotExists obj)
    (h : applyAction catalog rows action = some catalog') :
    catalog'.tables = catalog.tables ∨ catalog'.tables = insert obj catalog.tables := by
  rcases haction with rfl | rfl
  all_goals
    simp only [applyAction] at h
    split at h
    · split at h
      · exact .inl (by cases h; rfl)
      · cases h
    · split at h
      · cases h
      · exact .inr (by cases h; rfl)

theorem tables_createView {orReplace : Bool} {obj : Obj}
    (h : applyAction catalog rows (.createView orReplace obj) = some catalog') :
    catalog'.tables = catalog.tables ∧ obj ∉ catalog.tables := by
  simp only [applyAction] at h
  split at h
  · cases h
  · rename_i hobj
    split at h
    · cases h
    · exact ⟨by cases h; rfl, hobj⟩

theorem tables_write {obj : Obj}
    (h : applyAction catalog rows (.write obj) = some catalog') :
    catalog'.tables = catalog.tables := by
  simp only [applyAction] at h
  split at h
  · split at h <;> cases h <;> rfl
  · cases h

theorem tables_rename {obj : Obj} {name : Text}
    (h : applyAction catalog rows (.rename obj name) = some catalog') :
    obj ∈ catalog.tables ∧ catalog'.tables = insert ⟨obj.schema, name⟩ (catalog.tables \ {obj}) ∨
      obj ∉ catalog.tables ∧ catalog'.tables = catalog.tables := by
  simp only [applyAction] at h
  split at h
  · cases h
  · split at h
    · rename_i hobj
      split at h
      · cases h
      · exact .inl ⟨hobj, by cases h; rfl⟩
    · rename_i hobj
      split at h
      · split at h
        · cases h
        · exact .inr ⟨hobj, by cases h; rfl⟩
      · cases h

theorem tables_drop {kind : RelationKind} {ifExists : Bool} {objs : List Obj}
    (h : applyAction catalog rows (.drop kind ifExists objs) = some catalog') :
    catalog'.tables ⊆ catalog.tables ∧
      (kind = .table → ∀ obj ∈ objs, obj ∉ catalog'.tables) := by
  cases kind with
  | table =>
      simp only [applyAction] at h
      split at h
      · cases h
      · cases h
        refine ⟨Finset.sdiff_subset, fun _ obj hobj htable => ?_⟩
        exact (Finset.mem_sdiff.mp htable).2 (List.mem_toFinset.mpr hobj)
  | view =>
      simp only [applyAction] at h
      split at h
      · cases h
      · cases h
        exact ⟨Finset.Subset.refl _, fun hkind => nomatch hkind⟩

/-- A statement the fence follows keeps every table known. -/
theorem known_record {form : Form}
    (hfollowed : Form.Followed tables defaultSchema fence catalog form)
    (hknown : Known defaultSchema catalog.tables fence.tables)
    (happly : applyAction catalog rows (form.action defaultSchema) = some catalog') :
    Known defaultSchema catalog'.tables (fence.record (Form.effect tables form)).tables := by
  cases form with
  | createTable create guard name blanks =>
      rcases tables_created (.inl rfl) happly with htables | htables
      · rw [htables]
        exact hknown.mono (Finset.Subset.refl _) Finset.subset_union_left
      · rw [htables]
        refine hknown.insert hfollowed ?_ Finset.subset_union_left
        exact Finset.mem_union_right _ (Finset.mem_singleton_self _)
  | createTableAs create guard name blanks hblanks as =>
      rcases tables_created (.inr rfl) happly with htables | htables
      · rw [htables]
        exact hknown.mono (Finset.Subset.refl _) Finset.subset_union_left
      · rw [htables]
        refine hknown.insert hfollowed.1 ?_ Finset.subset_union_left
        refine Finset.mem_union_right _ (Finset.mem_sdiff.mpr ⟨?_, hfollowed.2⟩)
        exact Finset.mem_singleton_self _
  | createView create replace view name =>
      obtain ⟨htables, hobj⟩ := tables_createView happly
      rw [htables]
      exact hknown.forget (Finset.Subset.refl _) hfollowed hobj
  | insertValues | insertSelect | update | delete | copyFrom =>
      rw [tables_write happly]
      exact hknown.mono (Finset.Subset.refl _) Finset.subset_union_left
  | rename alter name blanks hblanks renameTo target =>
      obtain ⟨hname, htarget, hschema⟩ := hfollowed
      rcases tables_rename happly with ⟨hobj, htables⟩ | ⟨hobj, htables⟩
      · rw [htables, hschema hobj]
        have hforget := hknown.forget Finset.sdiff_subset hname
          (fun h => (Finset.mem_sdiff.mp h).2 (Finset.mem_singleton_self _))
        refine hforget.insert htarget ?_ Finset.subset_union_left
        exact Finset.mem_union_right _ (Option.mem_toFinset.mpr rfl)
      · rw [htables]
        exact (hknown.forget (Finset.Subset.refl _) hname hobj).mono (Finset.Subset.refl _)
          Finset.subset_union_left
  | drop head kind word blanks hblanks guard first more =>
      obtain ⟨htables, hdropped⟩ := tables_drop happly
      refine hknown.forget htables hfollowed.1 ?_
      intro hobj
      cases hkind : kind with
      | table => exact hdropped hkind _ (by simp) hobj
      | view => exact hfollowed.2 hkind (htables hobj)
  | query word h spelling =>
      cases happly
      exact hknown

theorem tables_failAction (catalog : Catalog) (rows : Bool) (action : Action) :
    (failAction catalog rows action).tables = catalog.tables := by
  rw [failAction]
  split <;> rfl

/-- No effect leaves a dirty key that is not known, when none that may read meets one. -/
theorem record_dirty {effect : Effect} (hdirty : fence.dirty ⊆ fence.tables)
    (hread : effect.mayRead = true → fence.dirty = ∅) :
    (fence.record effect).dirty ⊆ (fence.record effect).tables := by
  cases hverb : effect.verb with
  | insertValues | write =>
      rw [FenceState.record, hverb]
      exact Finset.union_subset_union_left hdirty
  | opaqueVerb =>
      rw [FenceState.record, hverb]
      exact Finset.union_subset hdirty (Finset.Subset.refl _)
  | rename | createTable | createView | drop | read =>
      rw [FenceState.record, hverb]
      have hempty : fence.dirty = ∅ := hread (by simp [Effect.mayRead, hverb])
      simp [hempty]

end After

section Runs

/-- The statements of a run are followed by the fence, each from the state it meets. -/
def Followed (tables : UnicodeTables) (defaultSchema : Text) (session : Session) :
    Stmt tables → Prop
  | .known _ form _ _ =>
      Form.Followed tables defaultSchema session.fence session.catalog form
  | .other _ _ _ => True

structure Inv (defaultSchema : Text) (session : Session) : Prop where
  known : Known defaultSchema session.catalog.tables session.fence.tables
  dirty : session.fence.dirty ⊆ session.fence.tables
  reads : session.ReadsOwnWrites

/-- A followed statement keeps every table known. -/
theorem known_after {fence : FenceState} {catalog catalog' : Catalog} {rows : Bool}
    {stmt : Stmt tables} (hfollowed : Followed tables defaultSchema ⟨fence, catalog, []⟩ stmt)
    (hknown : Known defaultSchema catalog.tables fence.tables)
    (happly : applyAction catalog rows (stmt.action defaultSchema) = some catalog') :
    Known defaultSchema catalog'.tables (fence.after tables stmt.text).tables := by
  cases stmt with
  | known noise form tail h =>
      have hvalues : Form.ValuesApart form := by
        cases form with
        | insertSelect => exact hfollowed
        | _ => trivial
      rw [FenceState.after, Stmt.text, classify_known noise form h hvalues]
      exact known_record hfollowed hknown happly
  | other text h written =>
      rw [FenceState.after, Stmt.text, h]
      have htables : catalog'.tables = catalog.tables := by
        simp only [Stmt.action, applyAction, Option.some.injEq] at happly
        rw [← happly]
        split <;> rfl
      rw [htables]
      exact hknown

/-- A followed statement that is no `INSERT` of values is known to read. -/
theorem mayRead_of_followed {session : Session} {stmt : Stmt tables}
    (hfollowed : Followed tables defaultSchema session stmt) :
    (∃ obj, stmt.action defaultSchema = .insertValues obj) ∨
      (classify tables stmt.text).mayRead = true := by
  cases stmt with
  | known noise form tail h =>
      have hvalues : Form.ValuesApart form := by
        cases form with
        | insertSelect => exact hfollowed
        | _ => trivial
      rw [Stmt.text, classify_known noise form h hvalues]
      cases form with
      | insertValues => exact .inl ⟨_, rfl⟩
      | _ => exact .inr rfl
  | other text h written =>
      rw [Stmt.text, h]
      exact .inr rfl

theorem flushed_dirty {fence : FenceState} {sql : Text} (hdirty : fence.dirty ⊆ fence.tables) :
    (if @refreshes tables fence sql = [] then fence else fence.flushed).dirty ⊆
        (if @refreshes tables fence sql = [] then fence else fence.flushed).tables ∧
      ((classify tables sql).mayRead = true →
        (if @refreshes tables fence sql = [] then fence else fence.flushed).dirty = ∅) := by
  split
  · rename_i hnil
    refine ⟨hdirty, fun hread => ?_⟩
    rw [refreshes_mayRead hdirty hread] at hnil
    have htables : fence.tables = ∅ := sort_map_eq_nil.mp hnil
    rwa [htables, Finset.subset_empty] at hdirty
  · exact ⟨Finset.empty_subset _, fun _ => rfl⟩

/-- One statement, whatever the engine answers to it and to the refreshes before it. -/
theorem inv_execute {session : Session} {call : Call tables} (h : Inv defaultSchema session)
    (hfollowed : Followed tables defaultSchema session call.stmt) :
    Inv defaultSchema (execute defaultSchema session call) := by
  have htables := @sendRefreshes_tables defaultSchema call.refreshFails
    (@refreshes tables session.fence call.stmt.text) session.catalog
  have hpending : (classify tables call.stmt.text).mayRead = true →
      (sendRefreshes defaultSchema call.refreshFails session.catalog
        (@refreshes tables session.fence call.stmt.text)).1 = true →
      (sendRefreshes defaultSchema call.refreshFails session.catalog
        (@refreshes tables session.fence call.stmt.text)).2.pending = ∅ := by
    intro hread
    rw [refreshes_mayRead h.dirty hread]
    exact pending_eq_empty h.known
  have hflushed := @flushed_dirty tables session.fence call.stmt.text h.dirty
  have hfence : ∀ (P : Prop) [Decidable P],
      (if P then session.fence else session.fence.flushed).tables = session.fence.tables ∧
      (if P then session.fence else session.fence.flushed).views = session.fence.views := by
    intro P _
    split <;> exact ⟨rfl, rfl⟩
  rw [execute]
  generalize sendRefreshes defaultSchema call.refreshFails session.catalog
    (@refreshes tables session.fence call.stmt.text) = sent at *
  obtain ⟨ok, catalog⟩ := sent
  cases ok with
  | false => exact ⟨by rw [htables.1]; exact h.known, h.dirty, h.reads⟩
  | true =>
      obtain ⟨hfenceTables, hfenceViews⟩ :=
        hfence (@refreshes tables session.fence call.stmt.text = [])
      simp only at htables hpending ⊢
      generalize (if @refreshes tables session.fence call.stmt.text = [] then session.fence
        else session.fence.flushed) = fence at *
      have hknown : Known defaultSchema catalog.tables fence.tables := by
        rw [htables.1, hfenceTables]
        exact h.known
      have hreads : ∀ entry ∈ session.sent ++ [(call.stmt.action defaultSchema, catalog)],
          (∃ obj, entry.1 = .insertValues obj) ∨ entry.2.pending = ∅ := by
        intro entry hentry
        rcases List.mem_append.mp hentry with hold | hnew
        · exact h.reads entry hold
        · rw [List.mem_singleton.mp hnew]
          exact (mayRead_of_followed hfollowed).imp_right fun hread => hpending hread trivial
      split
      · refine ⟨?_, hflushed.1, hreads⟩
        rw [tables_failAction]
        exact hknown
      · rename_i next happly
        have happly : applyAction catalog call.rows (call.stmt.action defaultSchema) =
            some next := by
          split at happly
          · cases happly
          · exact happly
        refine ⟨known_after ?_ hknown happly, record_dirty hflushed.1 hflushed.2, hreads⟩
        cases hstmt : call.stmt with
        | other => trivial
        | known noise form tail htail =>
            rw [hstmt] at hfollowed
            cases form with
            | createTableAs => exact ⟨hfollowed.1, by rw [hfenceViews]; exact hfollowed.2⟩
            | rename => exact ⟨hfollowed.1, hfollowed.2.1, by rw [htables.1]; exact hfollowed.2.2⟩
            | drop => exact ⟨hfollowed.1, by rw [htables.1]; exact hfollowed.2⟩
            | _ => exact hfollowed

instance (fence : FenceState) (catalog : Catalog) (form : Form) :
    Decidable (Form.Followed tables defaultSchema fence catalog form) := by
  unfold Form.Followed Keyed
  cases form <;> exact inferInstance

instance (session : Session) (stmt : Stmt tables) :
    Decidable (Followed tables defaultSchema session stmt) := by
  unfold Followed
  cases stmt <;> exact inferInstance

/-- Any statement. -/
def step (tables : UnicodeTables) (defaultSchema : Text) (session : Session)
    (call : Call tables) : Option Session :=
  some (execute defaultSchema session call)

/-- A statement that the fence follows. -/
def followedStep (tables : UnicodeTables) (defaultSchema : Text) (session : Session)
    (call : Call tables) : Option Session :=
  if Followed tables defaultSchema session call.stmt then
    some (execute defaultSchema session call)
  else none

theorem reachable_inv {session : Session}
    (h : Reachable (followedStep tables defaultSchema) .empty session) :
    Inv defaultSchema session := by
  refine h.invariant (Inv defaultSchema) ?_ ?_
  · refine ⟨?_, Finset.empty_subset _, ?_⟩
    · exact fun obj hobj => absurd hobj (Finset.notMem_empty obj)
    · exact fun entry hentry => absurd hentry List.not_mem_nil
  · intro session call next hinv hstep
    rw [followedStep] at hstep
    split at hstep
    · rename_i hfollowed
      rw [← Option.some.inj hstep]
      exact inv_execute hinv hfollowed
    · exact absurd hstep (by simp)

/-- In every run of followed statements each statement reads its own writes. -/
theorem followed_readsOwnWrites {session : Session}
    (h : Reachable (followedStep tables defaultSchema) .empty session) :
    session.ReadsOwnWrites ∧ session.fence.dirty ⊆ session.fence.tables :=
  ⟨(reachable_inv h).reads, (reachable_inv h).dirty⟩

/-- In every run at all the dirty keys are known. -/
theorem reachable_dirty {session : Session}
    (h : Reachable (step tables defaultSchema) .empty session) :
    session.fence.dirty ⊆ session.fence.tables := by
  refine h.invariant (fun session => session.fence.dirty ⊆ session.fence.tables)
    (Finset.empty_subset _) ?_
  intro session call next hdirty hstep
  have hflushed := @flushed_dirty tables session.fence call.stmt.text hdirty
  rw [← Option.some.inj hstep, execute]
  generalize sendRefreshes defaultSchema call.refreshFails session.catalog
    (@refreshes tables session.fence call.stmt.text) = sent
  obtain ⟨ok, catalog⟩ := sent
  cases ok with
  | false => exact hdirty
  | true =>
      simp only
      generalize (if @refreshes tables session.fence call.stmt.text = [] then session.fence
        else session.fence.flushed) = fence at *
      split
      · exact hflushed.1
      · exact record_dirty hflushed.1 hflushed.2

end Runs

section Scripts

/-- A keyword in lower case. -/
def keyword (word : String)
    (h : word.toList.map fold = word.toList ∧ word.toList.all isAscii = true) : Word word :=
  ⟨word.toList, h.1, h.2⟩

def space : Blanks := ⟨[' '], by decide⟩

def keywords : (words : List String) →
    (∀ word ∈ words, word.toList.map fold = word.toList ∧ word.toList.all isAscii = true) →
    Phrase words
  | [], _ => ⟨[], .nil⟩
  | word :: words, h =>
      let rest := keywords words fun w hw => h w (List.mem_cons_of_mem _ hw)
      ⟨_, .cons (keyword word (h word List.mem_cons_self)) space (by decide) rest.spelled⟩

def plainName (text : String) (h : bareText text.toList = true) : Name :=
  ⟨none, .bare text.toList h⟩

/-- Character tables that know ASCII only. -/
def asciiTables : UnicodeTables where
  word c := c.isAlphanum || c == '_'
  lower c := [c.toLower]
  word_ascii _ _ := rfl
  lower_ascii _ _ := rfl

/-- A form with a tail, where the engine does all it is asked and writes rows. -/
def succeeds (form : Form) (tail : String) (h : form.TailOk asciiTables tail.toList) :
    Call asciiTables :=
  ⟨.known [] form tail.toList h, fun _ => false, false, true⟩

theorem endsName_blank (tail : String) (h : tail.toList.head? = some ' ')
    (hdot : (tail.toList.dropWhile Lib.Lines.isSpace).head? ≠ some '.') : EndsName tail.toList := by
  refine ⟨fun c hc => ?_, hdot⟩
  rw [h] at hc
  cases hc
  decide

theorem endsName_nil : EndsName [] :=
  ⟨fun _ hc => (Option.not_mem_none _ hc).elim, by decide⟩

theorem endsWord_blank (tail : String) (h : tail.toList.head? = some ' ') :
    EndsWord asciiTables tail.toList := by
  intro c hc
  rw [h] at hc
  cases hc
  decide

/-- Dropping two views, the second of which then names a table. -/
def dropRun : List (Call asciiTables) :=
  [ succeeds (.createView (keywords ["create"] (by decide)) none (keywords ["view"] (by decide))
      (plainName "a" (by decide))) " AS SELECT 1" (endsName_blank _ rfl (by decide)),
    succeeds (.createView (keywords ["create"] (by decide)) none (keywords ["view"] (by decide))
      (plainName "b" (by decide))) " AS SELECT 1" (endsName_blank _ rfl (by decide)),
    succeeds (.drop (keywords ["drop"] (by decide)) .view (keyword "view" (by decide)) space
      (by decide) none (plainName "a" (by decide)) [(⟨[], rfl⟩, space, plainName "b" (by decide))]) ""
      endsName_nil,
    succeeds (.createTableAs (keywords ["create", "table"] (by decide)) none (plainName "b" (by decide)) space
      (by decide) (keyword "as" (by decide))) " SELECT 1" (endsWord_blank _ rfl),
    succeeds (.query "select" (by decide) (keyword "select" (by decide))) " * FROM b"
      (endsWord_blank _ rfl) ]

theorem dropRun_stale :
    (run (step asciiTables "s".toList) .empty dropRun).any (fun session =>
      session.sent.any fun entry => entry.1 = .query && entry.2.pending ≠ ∅) = true := by
  decide +kernel

/-- After `DROP VIEW a, b` the table created as `b` is not refreshed before it is read. -/
theorem drop_views_stale : ∃ session,
    run (step asciiTables "s".toList) .empty dropRun = some session ∧
      ¬ session.ReadsOwnWrites := by
  obtain ⟨session, hrun, hsent⟩ := (Option.any_eq_true _ _).mp dropRun_stale
  obtain ⟨entry, hentry, hstale⟩ := List.any_eq_true.mp hsent
  rw [Bool.and_eq_true, decide_eq_true_iff, decide_eq_true_iff] at hstale
  refine ⟨session, hrun, fun h => ?_⟩
  rcases h entry hentry with ⟨obj, hobj⟩ | hempty
  · rw [hstale.1] at hobj
    cases hobj
  · exact hstale.2 hempty

/-- Rows inserted into a new table, then read. -/
def insertRun : List (Call asciiTables) :=
  [ succeeds (.createTable (keywords ["create", "table"] (by decide)) none
      (plainName "t" (by decide)) space) "c INT)" trivial,
    succeeds (.insertValues (keywords ["insert", "into"] (by decide)) (plainName "t" (by decide))
      space none (.inl (by decide)) (keyword "values" (by decide))) " (1)"
      (endsWord_blank _ rfl),
    succeeds (.query "select" (by decide) (keyword "select" (by decide))) " * FROM t"
      (endsWord_blank _ rfl) ]

theorem insertRun_followed :
    (run (followedStep asciiTables "s".toList) .empty insertRun).any (fun session =>
      decide (session.sent.length = 3)) = true := by
  decide +kernel

theorem followed_readsOwnWrites_insert : ∃ session,
    run (followedStep asciiTables "s".toList) .empty insertRun = some session ∧
      session.sent.length = 3 ∧
      session.ReadsOwnWrites ∧ session.fence.dirty ⊆ session.fence.tables := by
  obtain ⟨session, hrun, hsent⟩ := (Option.any_eq_true _ _).mp insertRun_followed
  exact ⟨session, hrun, of_decide_eq_true hsent, followed_readsOwnWrites ⟨insertRun, hrun⟩⟩

end Scripts

end EqGen.Dialects.Cratedb.Fence
