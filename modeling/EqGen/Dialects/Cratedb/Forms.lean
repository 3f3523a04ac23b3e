import EqGen.Dialects.Cratedb.Classify

/-! What `classify` says of each form of statement. -/

namespace EqGen.Dialects.Cratedb.Forms

open EqGen.Lib.Lines
open EqGen.Lib.Regex
open EqGen.Dialects.Cratedb.Refresh
open EqGen.Dialects.Cratedb.Statement
open EqGen.Dialects.Cratedb.Names
open EqGen.Dialects.Cratedb.Classify

variable {tables : UnicodeTables} {text tail : Text} {first : String}

section Inserts

/-- What `classify` says of each form. -/
def Form.effect (tables : UnicodeTables) : Form → Effect
  | .createTable _ _ name _ => Effect.on tables .createTable name.text
  | .createView _ _ _ name => Effect.on tables .createView name.text
  | .insertValues _ name _ _ _ _ => Effect.on tables .insertValues name.text
  | .createTableAs _ _ name _ _ _ | .insertSelect _ name _ _ _ _ | .update _ name
  | .delete _ name | .copyFrom _ name _ _ _ => Effect.on tables .write name.text
  | .rename _ name _ _ _ target =>
      { verb := .rename
        targets := {normalize tables name.text}
        renamedTo := some (normalize tables target.text) }
  | .drop _ _ _ _ _ _ first _ => Effect.on tables .drop first.text
  | .query _ _ _ => { verb := .read }

/-- No `INSERT` of a query is into a table whose name ends like the word `values`. -/
def Form.ValuesApart : Form → Prop
  | .insertSelect _ name _ _ _ _ => name.hidesValues = false
  | _ => True

/-- The patterns that begin with other words are passed over. -/
theorem classifyStripped_of_starts (h : Starts first text) (hfirst : WordOk first)
    (halter : first ≠ "alter") (hcreate : first ≠ "create") (hdrop : first ≠ "drop") :
    classifyStripped tables text =
      match captured insertPattern text with
      | some name =>
          Effect.on tables
            (if (matchFront (insertValuesPattern tables) text).isSome then .insertValues
              else .write) name
      | none =>
      match (captured updatePattern text).or ((captured deletePattern text).or
        (captured (copyFromPattern tables) text)) with
      | some name => Effect.on tables .write name
      | none =>
          if (matchFront (readOnlyPattern tables) text).isSome then { verb := .read }
          else { verb := .opaqueVerb } := by
  have hrename : matchFront renamePattern text = none :=
    h.matchFront_none hfirst (by decide) halter.symm
  have hview : captured createViewPattern text = none :=
    h.captured_none hfirst (by decide) hcreate.symm
  have htable : captured createTablePattern text = none :=
    h.captured_none hfirst (by decide) hcreate.symm
  have hdropped : captured dropPattern text = none :=
    h.captured_none hfirst (by decide) hdrop.symm
  rw [classifyStripped, if_neg (h.ne_nil hfirst), hrename, hview, htable, hdropped]
  cases matchFront (createTableAsPattern tables) text <;> rfl

theorem insertPattern_none (h : Starts first text) (hfirst : WordOk first)
    (hne : first ≠ "insert") : captured insertPattern text = none :=
  h.captured_none hfirst (by decide) hne.symm

theorem phrase_starts {word : String} {words : List String} (head : Phrase (word :: words))
    (rest : Text) :
    Starts word (head.text ++ rest) :=
  Spelled.starts head.spelled rest

/-- The insert forms, up to the word that tells them apart. -/
theorem captured_insert (insert : Phrase ["insert", "into"]) (name : Name) {rest : Text}
    (hrest : EndsName rest) :
    captured insertPattern (insert.text ++ (name.text ++ rest)) = some name.text :=
  captured_phrase (by decide) insert.spelled name hrest

theorem matchFront_insertValues (insert : Phrase ["insert", "into"]) (name : Name) (rest : Text) :
    ∃ last, matchFront (insertValuesPattern tables) (insert.text ++ (name.text ++ rest)) =
      matchK qualified (matchK (valuesPattern tables) fun s => some s.groups)
        ⟨last, name.text ++ rest, []⟩ :=
  matchK_phrase (by decide) insert.spelled (stops_name name) refuses_qualified

theorem classifyStripped_insertValues (insert : Phrase ["insert", "into"]) (name : Name)
    (blanks : Blanks) (columns : Option Columns) (h : blanks.text ≠ [] ∨ columns.isSome)
    (values : Word "values") (htail : EndsWord tables tail) :
    classifyStripped tables
      (insert.text ++ (name.text ++ (blanks.text ++ (columnsText columns ++
        (values.text ++ tail))))) = Effect.on tables .insertValues name.text := by
  have hends := @endsName_insert tail blanks columns h "values" values_ok values
  obtain ⟨last, hlast⟩ := @matchFront_insertValues tables insert name
    (blanks.text ++ (columnsText columns ++ (values.text ++ tail)))
  have hvalues : matchK qualified (matchK (valuesPattern tables) fun s => some s.groups)
      ⟨last, name.text ++ (blanks.text ++ (columnsText columns ++ (values.text ++ tail))), []⟩ =
      some [] := by
    refine matchK_qualified_accept name hends ?_
    intro before
    exact matchK_values_accept blanks columns values htail fun _ => rfl
  rw [classifyStripped_of_starts (phrase_starts insert _) (by decide) (by decide) (by decide)
    (by decide), captured_insert insert name hends, hlast, hvalues]
  rfl

theorem QueryWord.word_spec (source : QueryWord) : ∃ (text : String) (spelling : Word text),
    WordOk text ∧ "values".toList.head? ≠ text.toList.head? ∧ spelling.text = source.text := by
  cases source with
  | select word => exact ⟨"select", word, by decide, by decide, rfl⟩
  | withClause word => exact ⟨"with", word, by decide, by decide, rfl⟩

theorem classifyStripped_insertSelect (insert : Phrase ["insert", "into"]) (name : Name)
    (blanks : Blanks) (columns : Option Columns) (h : blanks.text ≠ [] ∨ columns.isSome)
    (source : QueryWord) (hname : name.hidesValues = false) :
    classifyStripped tables
      (insert.text ++ (name.text ++ (blanks.text ++ (columnsText columns ++
        (source.text ++ tail))))) = Effect.on tables .write name.text := by
  obtain ⟨text, spelling, htext, hne, hspelling⟩ := QueryWord.word_spec source
  rw [← hspelling]
  have hends := @endsName_insert tail blanks columns h text htext spelling
  obtain ⟨last, hlast⟩ := @matchFront_insertValues tables insert name
    (blanks.text ++ (columnsText columns ++ (spelling.text ++ tail)))
  have hvalues := @matchK_values_query _ (fun s => some s.groups) last [] tail tables name hname
    blanks columns h text htext hne spelling
  rw [classifyStripped_of_starts (phrase_starts insert _) (by decide) (by decide) (by decide)
    (by decide), captured_insert insert name hends, hlast, hvalues]
  rfl

end Inserts

section Writes

theorem classifyStripped_update (head : Phrase ["update"]) (name : Name) (htail : EndsName tail) :
    classifyStripped tables (head.text ++ (name.text ++ tail)) =
      Effect.on tables .write name.text := by
  have hstarts := phrase_starts head (name.text ++ tail)
  have hupdate : captured updatePattern (head.text ++ (name.text ++ tail)) = some name.text :=
    captured_phrase (by decide) head.spelled name htail
  rw [classifyStripped_of_starts hstarts (by decide) (by decide) (by decide) (by decide),
    insertPattern_none hstarts (by decide) (by decide), hupdate]
  rfl

theorem classifyStripped_delete (head : Phrase ["delete", "from"]) (name : Name)
    (htail : EndsName tail) :
    classifyStripped tables (head.text ++ (name.text ++ tail)) =
      Effect.on tables .write name.text := by
  have hstarts := phrase_starts head (name.text ++ tail)
  have hupdate : captured updatePattern (head.text ++ (name.text ++ tail)) = none :=
    hstarts.captured_none (by decide) (by decide) (by decide)
  have hdelete : captured deletePattern (head.text ++ (name.text ++ tail)) = some name.text :=
    captured_phrase (by decide) head.spelled name htail
  rw [classifyStripped_of_starts hstarts (by decide) (by decide) (by decide) (by decide),
    insertPattern_none hstarts (by decide) (by decide), hupdate, hdelete]
  rfl

theorem captured_copy (copy : Phrase ["copy"]) (name : Name) (blanks : Blanks)
    (hblanks : blanks.text ≠ []) (source : Word "from") (htail : EndsWord tables tail) :
    captured (copyFromPattern tables)
      (copy.text ++ (name.text ++ (blanks.text ++ (source.text ++ tail)))) = some name.text := by
  have hfrom : WordOk "from" := by decide
  obtain ⟨last, hlast⟩ := @matchK_phrase _ (fun s => some s.groups) none []
    (name.text ++ (blanks.text ++ (source.text ++ tail))) ["copy"]
    (.seq (.group qualified) (.seq blanks1 (wholeWord tables "from"))) copy.text (by decide)
    copy.spelled (stops_name name) refuses_group
  have hname : matchK (.seq (.group qualified) (.seq blanks1 (wholeWord tables "from")))
      (fun s => some s.groups)
      ⟨last, name.text ++ (blanks.text ++ (source.text ++ tail)), []⟩ = some [name.text] := by
    rw [matchK]
    refine matchK_group_accept name (endsName_word blanks hblanks hfrom source) ?_
    intro before
    rw [matchK]
    refine matchK_some1_accept hblanks (blanks_run blanks) (Word.stops hfrom source) ?_
    intro before
    obtain ⟨end_, hend⟩ := @matchK_wholeWord _ (fun s => some s.groups) before
      ([] ++ [name.text]) tail tables "from" hfrom source htail
    exact hend
  rw [captured, matchFront, copyFromPattern, hlast, hname]
  rfl

theorem classifyStripped_copy (copy : Phrase ["copy"]) (name : Name) (blanks : Blanks)
    (hblanks : blanks.text ≠ []) (source : Word "from") (htail : EndsWord tables tail) :
    classifyStripped tables
      (copy.text ++ (name.text ++ (blanks.text ++ (source.text ++ tail)))) =
      Effect.on tables .write name.text := by
  have hstarts := phrase_starts copy (name.text ++ (blanks.text ++ (source.text ++ tail)))
  rw [classifyStripped_of_starts hstarts (by decide) (by decide) (by decide) (by decide),
    insertPattern_none hstarts (by decide) (by decide),
    captured_copy copy name blanks hblanks source htail]
  have hupdate : captured updatePattern
      (copy.text ++ (name.text ++ (blanks.text ++ (source.text ++ tail)))) = none :=
    hstarts.captured_none (by decide) (by decide) (by decide)
  have hdelete : captured deletePattern
      (copy.text ++ (name.text ++ (blanks.text ++ (source.text ++ tail)))) = none :=
    hstarts.captured_none (by decide) (by decide) (by decide)
  rw [hupdate, hdelete]
  rfl

end Writes

section Queries

/-- One accepted word of the list is enough. -/
theorem matchK_oneOf {β : Type} {k : Cursor → Option β} {cursor : Cursor} {r : Pattern}
    {word : String} {words : List String} (hmem : word ∈ words)
    (hword : (matchK (.seq (Refresh.word word) r) k cursor).isSome) :
    (matchK (oneOf words r) k cursor).isSome := by
  induction words with
  | nil => cases hmem
  | cons w ws ih =>
      rw [oneOf, matchK, Option.orElse_eq_or, Option.isSome_or, Bool.or_eq_true]
      rcases List.mem_cons.mp hmem with rfl | hws
      · exact .inl hword
      · exact .inr (ih hws)

theorem readOnlyWords_ok : ∀ word ∈ readOnlyWords, WordOk word := by decide

theorem stops_of_endsWord (htail : EndsWord tables tail) : Stops identPart tail :=
  fun c hc => (htail c hc).2

theorem classifyStripped_query {word : String} (h : word ∈ readOnlyWords) (spelling : Word word)
    (htail : EndsWord tables tail) :
    classifyStripped tables (spelling.text ++ tail) = { verb := .read } := by
  have hok := readOnlyWords_ok word h
  have hother : ∀ w ∈ ["alter", "create", "drop", "insert", "update", "delete", "copy"],
      w ≠ word := by
    rintro w hw rfl
    exact absurd hw ((by decide : ∀ w ∈ readOnlyWords,
      w ∉ ["alter", "create", "drop", "insert", "update", "delete", "copy"]) w h)
  have hstarts : Starts word (spelling.text ++ tail) :=
    ⟨spelling, tail, rfl, stops_of_endsWord htail⟩
  have hupdate : captured updatePattern (spelling.text ++ tail) = none :=
    hstarts.captured_none hok (by decide) (hother _ (by simp))
  have hdelete : captured deletePattern (spelling.text ++ tail) = none :=
    hstarts.captured_none hok (by decide) (hother _ (by simp))
  have hcopy : captured (copyFromPattern tables) (spelling.text ++ tail) = none :=
    hstarts.captured_none hok (by decide) (hother _ (by simp))
  have hread : (matchFront (readOnlyPattern tables) (spelling.text ++ tail)).isSome := by
    refine matchK_oneOf h ?_
    obtain ⟨last, hlast⟩ := @matchK_wholeWord _ (fun s => some s.groups) none [] tail tables
      word hok spelling htail
    rw [wholeWord] at hlast
    rw [hlast]
    rfl
  rw [classifyStripped_of_starts hstarts hok (hother _ (by simp)).symm (hother _ (by simp)).symm
    (hother _ (by simp)).symm, insertPattern_none hstarts hok (hother _ (by simp)).symm, hupdate,
    hdelete, hcopy]
  simp only [Option.or_none]
  rw [if_pos hread]

end Queries

section Schema

theorem classifyStripped_rename (alter : Phrase ["alter", "table"]) (name : Name)
    (blanks : Blanks) (hblanks : blanks.text ≠ []) (renameTo : Phrase ["rename", "to"])
    (target : Ident) (htail : EndsName tail) :
    classifyStripped tables
      (alter.text ++ (name.text ++ (blanks.text ++ (renameTo.text ++ (target.text ++ tail))))) =
      { verb := .rename
        targets := {normalize tables name.text}
        renamedTo := some (normalize tables target.text) } := by
  have hrenameTo : ∀ t ∈ ["rename", "to"], WordOk t := by decide
  have hstarts := phrase_starts alter
    (name.text ++ (blanks.text ++ (renameTo.text ++ (target.text ++ tail))))
  have hstops : Stops isSpace (renameTo.text ++ (target.text ++ tail)) :=
    Spelled.stops hrenameTo renameTo.spelled (Ident.stops target)
  have hends : EndsName (blanks.text ++ (renameTo.text ++ (target.text ++ tail))) := by
    obtain ⟨t, hspelled⟩ := renameTo
    cases hspelled with
    | cons spelling more hmore hrest =>
        simp only [List.append_assoc]
        exact endsName_word blanks hblanks (by decide) spelling
  obtain ⟨last, hlast⟩ := @matchK_phrase _ (fun s => some s.groups) none []
    (name.text ++ (blanks.text ++ (renameTo.text ++ (target.text ++ tail)))) ["alter", "table"]
    (.seq (.group qualified) (.seq blanks1 (phrase ["rename", "to"] (.group qualified))))
    alter.text (by decide) alter.spelled (stops_name name) refuses_group
  have hnames : matchK
      (.seq (.group qualified) (.seq blanks1 (phrase ["rename", "to"] (.group qualified))))
      (fun s => some s.groups)
      ⟨last, name.text ++ (blanks.text ++ (renameTo.text ++ (target.text ++ tail))), []⟩ =
      some [name.text, target.text] := by
    rw [matchK]
    refine matchK_group_accept name hends ?_
    intro before
    rw [matchK]
    refine matchK_some1_accept hblanks (blanks_run blanks) hstops ?_
    intro before
    obtain ⟨final, hfinal⟩ := @matchK_phrase _ (fun s => some s.groups) before
      ([] ++ [name.text]) (target.text ++ tail) ["rename", "to"] (.group qualified) renameTo.text
      hrenameTo renameTo.spelled (Ident.stops target) refuses_group
    exact hfinal.trans (matchK_group_accept ⟨none, target⟩ htail fun _ => rfl)
  have hrename : matchFront renamePattern
      (alter.text ++ (name.text ++ (blanks.text ++ (renameTo.text ++ (target.text ++ tail))))) =
      some [name.text, target.text] := hlast.trans hnames
  rw [classifyStripped, if_neg (hstarts.ne_nil (by decide)), hrename]

theorem rename_none {text : Text} (hstarts : Starts first text) (hfirst : WordOk first)
    (hne : first ≠ "alter") : matchFront renamePattern text = none :=
  hstarts.matchFront_none hfirst (by decide) hne.symm

theorem refuses_optPhrase {β : Type} {k : Cursor → Option β} {texts : List String} {r : Pattern}
    (h : ∀ t ∈ texts, WordOk t) (hr : Refuses isSpace (matchK r k)) :
    Refuses isSpace (matchK (.seq (opt (phrase texts .eps)) r) k) := by
  intro before c cs groups hc
  have hphrase : Refuses isSpace (matchK (phrase texts .eps) (matchK r k)) :=
    refuses_phrase h hr
  rw [matchK, opt, matchK, hphrase before c cs groups hc]
  exact hr before c cs groups hc

theorem captured_createView (create : Phrase ["create"]) (replace : Option (Phrase ["or", "replace"]))
    (view : Phrase ["view"]) (name : Name) (htail : EndsName tail) :
    captured createViewPattern
      (create.text ++ (phraseText replace ++ (view.text ++ (name.text ++ tail)))) =
      some name.text := by
  have hview : ∀ before, matchK (phrase ["view"] (.group qualified)) (fun s => some s.groups)
      ⟨before, view.text ++ (name.text ++ tail), []⟩ = some [name.text] := by
    intro before
    obtain ⟨last, hlast⟩ := @matchK_phrase _ (fun s => some s.groups) before [] (name.text ++ tail)
      ["view"] (.group qualified) view.text (by decide) view.spelled (stops_name name)
      refuses_group
    exact hlast.trans (matchK_group_accept name htail fun _ => rfl)
  have hviewStops : Stops isSpace (view.text ++ (name.text ++ tail)) :=
    Spelled.stops (by decide) view.spelled (stops_name name)
  have hrefuses : Refuses isSpace
      (matchK (phrase ["view"] (.group qualified)) fun s => some s.groups) :=
    refuses_phrase (by decide) refuses_group
  have hopt : ∀ before, matchK (.seq (opt (phrase ["or", "replace"] .eps))
      (phrase ["view"] (.group qualified))) (fun s => some s.groups)
      ⟨before, phraseText replace ++ (view.text ++ (name.text ++ tail)), []⟩ =
      some [name.text] := by
    intro before
    rw [matchK, opt, matchK]
    cases replace with
    | none =>
        obtain ⟨spelling, rest, htext, hrest⟩ := phrase_starts view (name.text ++ tail)
        simp only [phraseText, Option.map_none, Option.getD_none, List.nil_append]
        rw [htext, matchK_phrase_other (by decide) spelling.spelled
          (WordOk.letter (by decide)) (by decide) hrest, ← htext, Option.orElse_none, matchK]
        exact hview before
    | some replace =>
        simp only [phraseText, Option.map_some, Option.getD_some]
        obtain ⟨last, hlast⟩ := @matchK_phrase _
          (matchK (phrase ["view"] (.group qualified)) fun s => some s.groups) before []
          (view.text ++ (name.text ++ tail)) ["or", "replace"] .eps replace.text (by decide)
          replace.spelled hviewStops hrefuses
        rw [hlast, matchK, hview]
        rfl
  have hstops : Stops isSpace (phraseText replace ++ (view.text ++ (name.text ++ tail))) := by
    cases replace with
    | none => exact hviewStops
    | some replace => exact Spelled.stops (by decide) replace.spelled hviewStops
  have hrefusesOpt : Refuses isSpace (matchK (.seq (opt (phrase ["or", "replace"] .eps))
      (phrase ["view"] (.group qualified))) fun s => some s.groups) :=
    refuses_optPhrase (by decide) hrefuses
  obtain ⟨last, hlast⟩ := @matchK_phrase _ (fun s => some s.groups) none []
    (phraseText replace ++ (view.text ++ (name.text ++ tail))) ["create"] _ create.text
    (by decide) create.spelled hstops hrefusesOpt
  rw [captured, matchFront, createViewPattern, hlast, hopt]
  rfl

theorem classifyStripped_createView (create : Phrase ["create"])
    (replace : Option (Phrase ["or", "replace"])) (view : Phrase ["view"]) (name : Name)
    (htail : EndsName tail) :
    classifyStripped tables
      (create.text ++ (phraseText replace ++ (view.text ++ (name.text ++ tail)))) =
      Effect.on tables .createView name.text := by
  have hstarts := phrase_starts create (phraseText replace ++ (view.text ++ (name.text ++ tail)))
  rw [classifyStripped, if_neg (hstarts.ne_nil (by decide)),
    rename_none hstarts (by decide) (by decide), captured_createView create replace view name htail]

/-- No view is created where the second word is `table`. -/
theorem captured_view_none (create : Phrase ["create", "table"]) (rest : Text) :
    captured createViewPattern (create.text ++ rest) = none := by
  obtain ⟨t, hspelled⟩ := create
  rcases hspelled with _ | ⟨spelling, blanks, hblanks, hmore⟩
  obtain ⟨tableWord, after, htext, hafter⟩ := Spelled.starts hmore rest
  have hcreate : Phrase ["create"] :=
    ⟨spelling.text ++ blanks.text ++ [], .cons spelling blanks hblanks .nil⟩
  have hview : Refuses isSpace
      (matchK (phrase ["view"] (.group qualified)) fun s => some s.groups) :=
    refuses_phrase (by decide) refuses_group
  obtain ⟨last, hlast⟩ := @matchK_phrase _ (fun s => some s.groups) none []
    (tableWord.text ++ after) ["create"] _ _ (by decide) (.cons spelling blanks hblanks .nil)
    (Word.stops (by decide) tableWord) (@refuses_optPhrase _ _ ["or", "replace"] _ (by decide) hview)
  rw [List.append_nil, ← htext] at hlast
  have hother : ∀ {k : Cursor → Option (List Text)} {t : String} {ts : List String} {r : Pattern},
      WordOk t → t ≠ "table" →
      matchK (phrase (t :: ts) r) k ⟨last, tableWord.text ++ after, []⟩ = none :=
    fun ht hne => matchK_phrase_other ht tableWord.spelled (WordOk.letter (by decide)) hne hafter
  rw [captured, matchFront, createViewPattern, List.append_assoc, hlast, htext, matchK, opt, matchK,
    hother (by decide) (by decide), matchK, hother (by decide) (by decide)]
  rfl

theorem createTable_phrase {β : Type} {k : Cursor → Option β} {r : Pattern}
    (create : Phrase ["create", "table"]) (guard : Option (Phrase ["if", "not", "exists"]))
    (name : Name) (rest : Text) (hr : Refuses isSpace (matchK r k)) : ∃ last,
    matchK (phrase ["create", "table"] (.seq (opt ifNotExists) r)) k
      ⟨none, create.text ++ (phraseText guard ++ (name.text ++ rest)), []⟩ =
      matchK (.seq (opt ifNotExists) r) k
        ⟨last, phraseText guard ++ (name.text ++ rest), []⟩ := by
  have hstops : Stops isSpace (phraseText guard ++ (name.text ++ rest)) := by
    cases guard with
    | none => exact stops_name name
    | some guard => exact Spelled.stops (by decide) guard.spelled (stops_name name)
  exact matchK_phrase (by decide) create.spelled hstops (refuses_optPhrase (by decide) hr)

theorem captured_createTable (create : Phrase ["create", "table"])
    (guard : Option (Phrase ["if", "not", "exists"])) (name : Name) {rest : Text}
    (hrest : EndsName rest) :
    captured createTablePattern
      (create.text ++ (phraseText guard ++ (name.text ++ rest))) = some name.text := by
  obtain ⟨last, hlast⟩ := @createTable_phrase _ (fun s => some s.groups) (.group qualified)
    create guard name rest refuses_group
  have hname : matchK (.seq (opt ifNotExists) (.group qualified)) (fun s => some s.groups)
      ⟨last, phraseText guard ++ (name.text ++ rest), []⟩ = some [name.text] :=
    matchK_guard_accept (by decide) guard name hrest refuses_group
      fun _ => matchK_group_accept name hrest fun _ => rfl
  rw [captured, matchFront, createTablePattern, hlast, hname]
  rfl

theorem classifyStripped_createTable (create : Phrase ["create", "table"])
    (guard : Option (Phrase ["if", "not", "exists"])) (name : Name) (blanks : Blanks) :
    classifyStripped tables
      (create.text ++ (phraseText guard ++ (name.text ++ (blanks.text ++ '(' :: tail)))) =
      Effect.on tables .createTable name.text := by
  have hstarts := phrase_starts create
    (phraseText guard ++ (name.text ++ (blanks.text ++ '(' :: tail)))
  have hends : EndsName (blanks.text ++ '(' :: tail) :=
    endsName_blanks blanks (by decide) (by decide) (by decide)
  obtain ⟨last, hlast⟩ := @createTable_phrase _ (fun s => some s.groups)
    (.seq qualified (.seq blanks1 (wholeWord tables "as"))) create guard name
    (blanks.text ++ '(' :: tail) refuses_qualified
  have hquery : matchFront (createTableAsPattern tables)
      (create.text ++ (phraseText guard ++ (name.text ++ (blanks.text ++ '(' :: tail)))) = none :=
    hlast.trans (matchK_asQuery_guard_refuse guard name blanks (by decide) (by decide) (by decide))
  have hview : captured createViewPattern
      (create.text ++ (phraseText guard ++ (name.text ++ (blanks.text ++ '(' :: tail)))) = none :=
    captured_view_none create _
  rw [classifyStripped, if_neg (hstarts.ne_nil (by decide)),
    rename_none hstarts (by decide) (by decide), hview, hquery,
    captured_createTable create guard name hends]

theorem classifyStripped_createTableAs (create : Phrase ["create", "table"])
    (guard : Option (Phrase ["if", "not", "exists"])) (name : Name) (blanks : Blanks)
    (hblanks : blanks.text ≠ []) (as : Word "as") (htail : EndsWord tables tail) :
    classifyStripped tables
      (create.text ++ (phraseText guard ++ (name.text ++ (blanks.text ++ (as.text ++ tail))))) =
      Effect.on tables .write name.text := by
  have has : WordOk "as" := by decide
  have hstarts := phrase_starts create
    (phraseText guard ++ (name.text ++ (blanks.text ++ (as.text ++ tail))))
  have hends : EndsName (blanks.text ++ (as.text ++ tail)) := endsName_word blanks hblanks has as
  obtain ⟨last, hlast⟩ := @createTable_phrase _ (fun s => some s.groups)
    (.seq qualified (.seq blanks1 (wholeWord tables "as"))) create guard name
    (blanks.text ++ (as.text ++ tail)) refuses_qualified
  have hname : ∀ before, matchK (.seq qualified (.seq blanks1 (wholeWord tables "as")))
      (fun s => some s.groups) ⟨before, name.text ++ (blanks.text ++ (as.text ++ tail)), []⟩ =
      some [] := by
    intro before
    rw [matchK]
    refine matchK_qualified_accept name hends ?_
    intro before
    rw [matchK]
    refine matchK_some1_accept hblanks (blanks_run blanks) (Word.stops has as) ?_
    intro before
    obtain ⟨final, hfinal⟩ := @matchK_wholeWord _ (fun s => some s.groups) before [] tail tables
      "as" has as htail
    exact hfinal
  have hquery : matchFront (createTableAsPattern tables)
      (create.text ++ (phraseText guard ++ (name.text ++ (blanks.text ++ (as.text ++ tail))))) =
      some [] :=
    hlast.trans (matchK_guard_accept (by decide) guard name hends refuses_qualified hname)
  have hview : captured createViewPattern
      (create.text ++ (phraseText guard ++ (name.text ++ (blanks.text ++ (as.text ++ tail))))) =
      none := captured_view_none create _
  rw [classifyStripped, if_neg (hstarts.ne_nil (by decide)),
    rename_none hstarts (by decide) (by decide), hview, hquery,
    captured_createTable create guard name hends]

theorem kindWord_ok (kind : RelationKind) : WordOk kind.word := by
  cases kind <;> decide

theorem captured_drop (head : Phrase ["drop"]) (kind : RelationKind) (word : Word kind.word)
    (blanks : Blanks) (hblanks : blanks.text ≠ []) (guard : Option (Phrase ["if", "exists"]))
    (name : Name) {rest : Text} (hrest : EndsName rest) :
    captured dropPattern (head.text ++ (word.text ++ (blanks.text ++
      (phraseText guard ++ (name.text ++ rest))))) = some name.text := by
  have hkind := kindWord_ok kind
  have hguarded : ∀ before, matchK (.seq (opt (phrase ["if", "exists"] .eps)) (.group qualified))
      (fun s => some s.groups) ⟨before, phraseText guard ++ (name.text ++ rest), []⟩ =
      some [name.text] :=
    fun before => matchK_guard_accept (by decide) guard name hrest refuses_group
      fun _ => matchK_group_accept name hrest fun _ => rfl
  have hstops : Stops isSpace (phraseText guard ++ (name.text ++ rest)) := by
    cases guard with
    | none => exact stops_name name
    | some guard => exact Spelled.stops (by decide) guard.spelled (stops_name name)
  have hnamed : ∀ before, matchK (.seq blanks1 (.seq (opt (phrase ["if", "exists"] .eps))
      (.group qualified))) (fun s => some s.groups)
      ⟨before, blanks.text ++ (phraseText guard ++ (name.text ++ rest)), []⟩ =
      some [name.text] := by
    intro before
    rw [matchK]
    exact matchK_some1_accept hblanks (blanks_run blanks) hstops hguarded
  have hrefuses : Refuses isSpace (matchK (.seq (.alt (Refresh.word "table") (Refresh.word "view"))
      (.seq blanks1 (.seq (opt (phrase ["if", "exists"] .eps)) (.group qualified))))
      fun s => some s.groups) := by
    intro before c cs groups hc
    rw [matchK, matchK, refuses_word (by decide) before c cs groups hc,
      refuses_word (by decide) before c cs groups hc]
    rfl
  obtain ⟨last, hlast⟩ := @matchK_phrase _ (fun s => some s.groups) none []
    (word.text ++ (blanks.text ++ (phraseText guard ++ (name.text ++ rest)))) ["drop"] _ head.text
    (by decide) head.spelled (Word.stops hkind word) hrefuses
  have hword := @matchK_word _ (matchK (.seq blanks1 (.seq (opt (phrase ["if", "exists"] .eps))
    (.group qualified))) fun s => some s.groups) last [] kind.word
    (blanks.text ++ (phraseText guard ++ (name.text ++ rest))) word
  have hword := hword.trans (hnamed _)
  rw [captured, matchFront, dropPattern, hlast, matchK, matchK]
  cases kind with
  | table =>
      simp only [RelationKind.word] at hword
      rw [hword]
      rfl
  | view =>
      simp only [RelationKind.word] at hword
      rw [matchK_word_other (by decide) hkind (by decide) word, hword]
      rfl

theorem classifyStripped_drop (head : Phrase ["drop"]) (kind : RelationKind)
    (word : Word kind.word) (blanks : Blanks) (hblanks : blanks.text ≠ [])
    (guard : Option (Phrase ["if", "exists"])) (first : Name)
    (more : List (Blanks × Blanks × Name)) (htail : EndsName tail) :
    classifyStripped tables (head.text ++ (word.text ++ (blanks.text ++
      (phraseText guard ++ (first.text ++ (moreText more ++ tail)))))) =
      Effect.on tables .drop first.text := by
  have hcaptured := captured_drop head kind word blanks hblanks guard first
    (endsName_more htail more)
  have hstarts := phrase_starts head (word.text ++ (blanks.text ++
    (phraseText guard ++ (first.text ++ (moreText more ++ tail)))))
  have hdrop : WordOk "drop" := by decide
  have hview : captured createViewPattern _ = none :=
    hstarts.captured_none hdrop (by decide) (by decide)
  have htable : captured createTablePattern _ = none :=
    hstarts.captured_none hdrop (by decide) (by decide)
  have hquery : matchFront (createTableAsPattern tables) _ = none :=
    hstarts.matchFront_none hdrop (by decide) (by decide)
  rw [classifyStripped, if_neg (hstarts.ne_nil hdrop), rename_none hstarts hdrop (by decide),
    hview, htable, hquery, hcaptured]

end Schema

/-- Every form is classified by its verb and its first name. -/
theorem classifyStripped_form (form : Form) (hform : Form.ValuesApart form)
    (htail : form.TailOk tables tail) :
    classifyStripped tables (form.text ++ tail) = Form.effect tables form := by
  cases form with
  | createTable create guard name blanks =>
      simpa [Form.text, Form.effect] using classifyStripped_createTable create guard name blanks
  | createTableAs create guard name blanks hblanks as =>
      simpa [Form.text, Form.effect] using classifyStripped_createTableAs create guard name blanks hblanks as htail
  | createView create replace view name =>
      simpa [Form.text, Form.effect] using classifyStripped_createView create replace view name htail
  | insertValues insert name blanks columns hblanks values =>
      simpa [Form.text, Form.effect] using
        classifyStripped_insertValues insert name blanks columns hblanks values htail
  | insertSelect insert name blanks columns hblanks source =>
      simpa [Form.text, Form.effect] using
        classifyStripped_insertSelect insert name blanks columns hblanks source hform
  | update head name => simpa [Form.text, Form.effect] using classifyStripped_update head name htail
  | delete head name => simpa [Form.text, Form.effect] using classifyStripped_delete head name htail
  | copyFrom copy name blanks hblanks source =>
      simpa [Form.text, Form.effect] using classifyStripped_copy copy name blanks hblanks source htail
  | rename alter name blanks hblanks renameTo target =>
      simpa [Form.text, Form.effect] using
        classifyStripped_rename alter name blanks hblanks renameTo target htail
  | drop head kind word blanks hblanks guard first more =>
      simpa [Form.text, Form.effect] using
        classifyStripped_drop head kind word blanks hblanks guard first more htail
  | query word h spelling => exact classifyStripped_query h spelling htail

end EqGen.Dialects.Cratedb.Forms
