import EqGen.Dialects.Cratedb.Names

/-! The patterns of `classify` on every spelling of every statement. -/

namespace EqGen.Dialects.Cratedb.Classify

open EqGen.Lib.Lines
open EqGen.Lib.Regex
open EqGen.Dialects.Cratedb.Refresh
open EqGen.Dialects.Cratedb.Statement
open EqGen.Dialects.Cratedb.Names

variable {β : Type} {k : Cursor → Option β} {before : Option Char} {groups : List Text}
  {rest : Text} {tables : UnicodeTables}

section Groups

theorem refuses_qualified : Refuses isSpace (matchK qualified k) := by
  intro before c cs groups hc
  have hplain : ∀ k : Cursor → Option β, matchK ident k ⟨before, c :: cs, groups⟩ = none :=
    fun k => refuses_ident before c cs groups hc
  simp only [qualified, opt, qualifier, matchK, hplain, Option.orElse_none]

theorem refuses_group : Refuses isSpace (matchK (.group qualified) k) :=
  fun before c cs groups hc => refuses_qualified before c cs groups hc

/-- The group of a name captures the name. -/
theorem matchK_group_accept (name : Name) (hrest : EndsName rest) {x : β}
    (hk : ∀ before, k ⟨before, rest, groups ++ [name.text]⟩ = some x) :
    matchK (.group qualified) k ⟨before, name.text ++ rest, groups⟩ = some x := by
  rw [matchK]
  refine matchK_qualified_accept name hrest ?_
  intro before
  simp [hk]

/-- A phrase and a name, with anything after them. -/
theorem captured_phrase {texts : List String} {t : Text} (h : ∀ t ∈ texts, WordOk t)
    (hspelled : Spelled texts t) (name : Name) (hrest : EndsName rest) :
    captured (phrase texts (.group qualified)) (t ++ (name.text ++ rest)) = some name.text := by
  have hstops : Stops isSpace (name.text ++ rest) := by
    cases name with
    | mk schema ident =>
        cases schema with
        | none => exact Ident.stops ident
        | some schema =>
            simp only [Name.text, List.append_assoc]
            exact Ident.stops schema.1
  obtain ⟨last, hlast⟩ := @matchK_phrase _ (fun s => some s.groups) none [] (name.text ++ rest)
    texts (.group qualified) t h hspelled hstops refuses_group
  have hname : matchK (.group qualified) (fun s => some s.groups)
      ⟨last, name.text ++ rest, []⟩ = some [name.text] :=
    matchK_group_accept name hrest fun _ => rfl
  rw [captured, matchFront, hlast, hname]
  rfl

end Groups

section FirstWord

/-- The text starts with the word, in some spelling. -/
def Starts (first : String) (text : Text) : Prop :=
  ∃ (spelling : Word first) (rest : Text), text = spelling.text ++ rest ∧ Stops identPart rest

theorem Spelled.starts {first : String} {texts : List String} {t : Text}
    (hspelled : Spelled (first :: texts) t) (rest : Text) : Starts first (t ++ rest) := by
  cases hspelled with
  | cons spelling blanks hblanks hmore =>
      refine ⟨spelling, _, by rw [List.append_assoc, List.append_assoc], ?_⟩
      obtain ⟨c, cs, hcs⟩ := List.exists_cons_of_ne_nil hblanks
      rw [hcs, List.cons_append, stops_cons]
      exact identPart_of_isSpace (blanks_run blanks c (by rw [hcs]; simp))

theorem Starts.ne_nil {first : String} {text : Text} (h : Starts first text)
    (hfirst : WordOk first) : text ≠ [] := by
  obtain ⟨spelling, rest, rfl, _⟩ := h
  intro hnil
  have hspelled := spelling.spelled
  rw [(List.append_eq_nil_iff.mp hnil).1] at hspelled
  exact hfirst.1 hspelled.symm

/-- No phrase with another first word matches. -/
theorem Starts.matchFront_none {first other : String} {text : Text} {ts : List String}
    {r : Pattern} (h : Starts first text) (hfirst : WordOk first) (hother : WordOk other)
    (hne : other ≠ first) : matchFront (phrase (other :: ts) r) text = none := by
  obtain ⟨spelling, rest, rfl, hrest⟩ := h
  exact matchK_phrase_other hother spelling.spelled hfirst.letter hne hrest

theorem Starts.captured_none {first other : String} {text : Text} {ts : List String}
    {r : Pattern} (h : Starts first text) (hfirst : WordOk first) (hother : WordOk other)
    (hne : other ≠ first) : captured (phrase (other :: ts) r) text = none := by
  rw [captured, h.matchFront_none hfirst hother hne]
  rfl

end FirstWord

section Statements

theorem endsName_blanks (blanks : Blanks) {c : Char} {cs : Text} (hspace : isSpace c = false)
    (hpart : identPart c = false) (hdot : c ≠ '.') : EndsName (blanks.text ++ c :: cs) := by
  constructor
  · intro d hd
    cases hblanks : blanks.text with
    | nil =>
        rw [hblanks] at hd
        simp only [List.nil_append, List.head?_cons, Option.mem_def, Option.some.injEq] at hd
        exact hd ▸ hpart
    | cons e es =>
        rw [hblanks] at hd
        simp only [List.cons_append, List.head?_cons, Option.mem_def, Option.some.injEq] at hd
        exact identPart_of_isSpace (blanks_run blanks d (by rw [hblanks, hd]; simp))
  · rw [dropWhile_run (blanks_run blanks) (stops_cons.mpr hspace)]
    simpa using hdot

theorem endsName_word (blanks : Blanks) (h : blanks.text ≠ []) {text : String}
    (htext : WordOk text) (spelling : Word text) :
    EndsName (blanks.text ++ (spelling.text ++ rest)) := by
  have hstops := @Word.stops text rest htext spelling
  constructor
  · obtain ⟨c, cs, hcs⟩ := List.exists_cons_of_ne_nil h
    rw [hcs]
    intro d hd
    simp only [List.cons_append, List.head?_cons, Option.mem_def, Option.some.injEq] at hd
    exact identPart_of_isSpace (blanks_run blanks d (by rw [hcs, hd]; simp))
  · rw [dropWhile_run (blanks_run blanks) hstops]
    intro hdot
    cases hspelling : spelling.text with
    | nil =>
        have hspelled := spelling.spelled
        rw [hspelling] at hspelled
        exact htext.1 hspelled.symm
    | cons c cs =>
        rw [hspelling] at hdot
        simp only [List.cons_append, List.head?_cons, Option.some.injEq] at hdot
        have hmem : fold c ∈ text.toList := by
          rw [← spelling.spelled, hspelling]
          simp
        have hletter := htext.letter _ hmem
        rw [hdot] at hletter
        exact absurd hletter (by decide)

theorem endsName_more {tail : Text} (htail : EndsName tail)
    (more : List (Blanks × Blanks × Name)) : EndsName (moreText more ++ tail) := by
  cases more with
  | nil => exact htail
  | cons entry more =>
      obtain ⟨before, after, name⟩ := entry
      simp only [moreText, List.append_assoc, List.cons_append]
      exact endsName_blanks before (by decide) (by decide) (by decide)

theorem stops_name (name : Name) : Stops isSpace (name.text ++ rest) := by
  obtain ⟨schema, ident⟩ := name
  cases schema with
  | none => exact Ident.stops ident
  | some schema =>
      simp only [Name.text, List.append_assoc]
      exact Ident.stops schema.1

/-- No name reads as the words of a guard: `if` is no identifier. -/
theorem matchK_guard_name (name : Name) (hrest : EndsName rest) {ts : List String}
    {r : Pattern} : matchK (phrase ("if" :: ts) r) k ⟨before, name.text ++ rest, groups⟩ = none := by
  have hif : WordOk "if" := by decide
  have hident : ∀ (i : Ident) (rest : Text), Stops identPart rest →
      matchK (phrase ("if" :: ts) r) k ⟨before, i.text ++ rest, groups⟩ = none := by
    intro i rest hrest
    rw [phrase, matchK]
    cases i with
    | bare text h =>
        simp only [bareText, Bool.and_eq_true, bne_iff_ne, ne_eq, List.all_eq_true] at h
        refine matchK_lit_other hif.letter rfl ?_ (Ne.symm h.2) hrest refuses_blanks1
        intro c hc
        obtain ⟨d, hd, rfl⟩ := List.mem_map.mp hc
        exact h.1.1.2 d hd
    | quoted text h =>
        refine @matchK_lit_other _ fold _ _ [] _ _ _ identLetter [] hif.letter rfl (by simp)
          (by decide) ?_ refuses_blanks1
        exact stops_cons.mpr (by decide)
  obtain ⟨schema, ident⟩ := name
  cases schema with
  | none => exact hident ident rest hrest.1
  | some schema =>
      obtain ⟨schema, b1, b2⟩ := schema
      simp only [Name.text, List.append_assoc, List.cons_append]
      exact hident schema _ (stops_blanks_dot b1)

/-- A name behind an optional guard. -/
theorem matchK_guard_accept {ts : List String} (hts : ∀ t ∈ "if" :: ts, WordOk t)
    (guard : Option (Phrase ("if" :: ts))) (name : Name) (hrest : EndsName rest) {r : Pattern}
    (hr : Refuses isSpace (matchK r k)) {x : β}
    (hk : ∀ before, matchK r k ⟨before, name.text ++ rest, groups⟩ = some x) :
    matchK (.seq (opt (phrase ("if" :: ts) .eps)) r) k
      ⟨before, phraseText guard ++ (name.text ++ rest), groups⟩ = some x := by
  rw [matchK, opt, matchK]
  cases guard with
  | none =>
      simp only [phraseText, Option.map_none, Option.getD_none, List.nil_append]
      rw [matchK_guard_name name hrest]
      exact hk before
  | some guard =>
      simp only [phraseText, Option.map_some, Option.getD_some]
      obtain ⟨last, hlast⟩ := @matchK_phrase _ (matchK r k) before groups (name.text ++ rest)
        ("if" :: ts) .eps guard.text hts guard.spelled (stops_name name) hr
      rw [hlast, matchK, hk]
      rfl

end Statements

section WholeWords

theorem word_of_isLower {c : Char} (hascii : isAscii c = true) (hc : (fold c).isLower = true) :
    tables.word c = true := by
  have hcode : c.toNat < 128 := by simpa [isAscii] using hascii
  have hall : ∀ n < 128, (fold (Char.ofNat n)).isLower = true →
      ((Char.ofNat n).isAlphanum || Char.ofNat n == '_') = true := by decide +kernel
  rw [tables.word_ascii c hcode]
  have h := hall c.toNat hcode
  rw [Char.ofNat_toNat] at h
  exact h hc

/-- A whole word is read when nothing lengthens it. -/
theorem matchK_wholeWord {text : String} (h : WordOk text) (spelling : Word text)
    (hrest : EndsWord tables rest) : ∃ last,
      matchK (wholeWord tables text) k ⟨before, spelling.text ++ rest, groups⟩ =
        k ⟨last, rest, groups⟩ := by
  refine ⟨spelling.text.getLast?.or before, ?_⟩
  rw [wholeWord, matchK, matchK_word, matchK, if_pos]
  have hne : spelling.text ≠ [] := by
    intro hnil
    have hspelled := spelling.spelled
    rw [hnil] at hspelled
    exact h.1 hspelled.symm
  have hlast : tables.word (spelling.text.getLast hne) = true := by
    have hmem := List.getLast_mem hne
    refine word_of_isLower (List.all_eq_true.mp spelling.ascii _ hmem) (h.2 _ ?_)
    rw [← spelling.spelled]
    exact List.mem_map_of_mem hmem
  rw [atBoundary, List.getLast?_eq_getLast_of_ne_nil hne]
  cases rest with
  | nil => simp [hlast]
  | cons c cs => simp [hlast, (hrest c (by simp)).1]

/-- A word that starts with another character is refused. -/
theorem matchK_word_refuse {text : String} (h : WordOk text) {c : Char} {cs : Text}
    (hc : identPart c = false) : matchK (word text) k ⟨before, c :: cs, groups⟩ = none := by
  rw [word, matchK_lit, if_neg]
  obtain ⟨d, ds, hds⟩ := List.exists_cons_of_ne_nil h.1
  rw [hds, List.map_cons, List.cons_prefix_cons]
  rintro ⟨hdc, -⟩
  have hletter := h.letter d (by rw [hds]; simp)
  rw [hdc] at hletter
  exact absurd (hc.symm.trans hletter) (by decide)

theorem matchK_wholeWord_refuse {text : String} (h : WordOk text) {c : Char} {cs : Text}
    (hc : identPart c = false) :
    matchK (wholeWord tables text) k ⟨before, c :: cs, groups⟩ = none := by
  rw [wholeWord, matchK, matchK_word_refuse h hc]

/-- A word is refused where a word with another first letter is spelled. -/
theorem matchK_word_other {text other : String} (h : WordOk text) (hother : WordOk other)
    (hne : text.toList.head? ≠ other.toList.head?) (spelling : Word other) :
    matchK (word text) k ⟨before, spelling.text ++ rest, groups⟩ = none := by
  rw [word, matchK_lit, if_neg]
  simp only [List.map_append, spelling.spelled]
  obtain ⟨c, cs, hcs⟩ := List.exists_cons_of_ne_nil h.1
  obtain ⟨d, ds, hds⟩ := List.exists_cons_of_ne_nil hother.1
  rw [hcs, hds] at hne ⊢
  rw [List.cons_append, List.cons_prefix_cons]
  rintro ⟨hcd, -⟩
  exact hne (congrArg some hcd)

end WholeWords

section Refusals

/-- Blanks and a pattern are refused after a part of an identifier, and after the blanks that
follow it when the pattern is refused there. -/
theorem matchK_blanks1_refuse {r : Pattern} {more : Text} (blanks : Blanks)
    (hmore : more = [] ∨ Stops isSpace more) (hrest : Stops isSpace rest)
    (hr : Refuses isSpace (matchK r k)) (hk : ∀ before, matchK r k ⟨before, rest, groups⟩ = none) :
    matchK (.seq blanks1 r) k ⟨before, more ++ (blanks.text ++ rest), groups⟩ = none := by
  rw [matchK]
  cases more with
  | cons c cs =>
      refine matchK_some1_stops (stops_cons.mpr ?_)
      exact stops_cons.mp (hmore.resolve_left (by simp))
  | nil =>
      rw [List.nil_append]
      by_cases hblanks : blanks.text = []
      · rw [hblanks, List.nil_append]
        exact matchK_some1_stops hrest
      · obtain ⟨last, hlast⟩ := @matchK_some1_run _ isSpace (matchK r k) before blanks.text rest
          groups hblanks (blanks_run blanks) hrest hr
        exact hlast.trans (hk last)

/-- What is left of an identifier after a part of it starts with no blank. -/
theorem stops_more {u run more : Text} (hu : IdentText u) (hsplit : u = run ++ more)
    (hends : more = [] ∨ u.head? ≠ some '"') : more = [] ∨ Stops isSpace more := by
  cases more with
  | nil => exact .inl rfl
  | cons c cs =>
      refine .inr (stops_cons.mpr ?_)
      have hhead := hends.resolve_left (by simp)
      cases hu with
      | bare d ds hd hds =>
          have hmem : c ∈ d :: ds := by rw [hsplit]; simp
          rcases List.mem_cons.mp hmem with rfl | hc
          · exact isSpace_of_identPart (identPart_of_identStart hd)
          · exact isSpace_of_identPart (hds c hc)
      | quoted => exact absurd rfl hhead

theorem refuses_wholeWord {text : String} (h : WordOk text) :
    Refuses isSpace (matchK (wholeWord tables text) k) :=
  fun before c cs groups hc => refuses_word h before c cs groups hc

/-- A name that is followed by no word `as` does not create a table as a query. -/
theorem matchK_asQuery_refuse (name : Name) (blanks : Blanks) {c : Char} {cs : Text}
    (hspace : isSpace c = false) (hpart : identPart c = false) (hdot : c ≠ '.') :
    matchK (.seq qualified (.seq blanks1 (wholeWord tables "as"))) k
      ⟨before, name.text ++ (blanks.text ++ c :: cs), groups⟩ = none := by
  have has : WordOk "as" := by decide
  rw [matchK]
  refine matchK_qualified_refuse name (endsName_blanks blanks hspace hpart hdot) ?_ ?_
  · intro before run more hsplit _ hends
    refine matchK_blanks1_refuse blanks (stops_more (Ident.identText _) hsplit hends)
      (stops_cons.mpr hspace) (refuses_wholeWord has) ?_
    exact fun before => matchK_wholeWord_refuse has hpart
  · intro schema b1 b2 _ before run more hsplit _ hends
    refine matchK_blanks1_refuse b1 (stops_more (Ident.identText _) hsplit hends)
      (stops_cons.mpr (by decide)) (refuses_wholeWord has) ?_
    exact fun before => matchK_wholeWord_refuse has (by decide)

/-- Nor does one behind a guard. -/
theorem matchK_asQuery_guard_refuse (guard : Option (Phrase ["if", "not", "exists"]))
    (name : Name) (blanks : Blanks) {c : Char} {cs : Text} (hspace : isSpace c = false)
    (hpart : identPart c = false) (hdot : c ≠ '.') :
    matchK (.seq (opt ifNotExists) (.seq qualified (.seq blanks1 (wholeWord tables "as")))) k
      ⟨before, phraseText guard ++ (name.text ++ (blanks.text ++ c :: cs)), groups⟩ = none := by
  have has : WordOk "as" := by decide
  have hwords : ∀ t ∈ ["if", "not", "exists"], WordOk t := by decide
  have hname := fun before => @matchK_asQuery_refuse _ k before groups tables name blanks c cs
    hspace hpart hdot
  rw [matchK, opt, matchK]
  cases guard with
  | none =>
      simp only [phraseText, Option.map_none, Option.getD_none, List.nil_append]
      rw [ifNotExists, matchK_guard_name name (endsName_blanks blanks hspace hpart hdot)]
      exact hname before
  | some guard =>
      obtain ⟨t, hspelled⟩ := guard
      simp only [phraseText, Option.map_some, Option.getD_some]
      obtain ⟨last, hlast⟩ := @matchK_phrase _
        (matchK (.seq qualified (.seq blanks1 (wholeWord tables "as"))) k) before groups
        (name.text ++ (blanks.text ++ c :: cs)) _ .eps t hwords hspelled (stops_name name)
        refuses_qualified
      rw [ifNotExists, hlast, matchK, hname last]
      -- Left is to read the guard's first word as the name of the table.
      cases hspelled with
      | cons spelling first hfirst hmore =>
          cases hmore with
          | cons spellingNot second hsecond hmore =>
              have hif : WordOk "if" := by decide
              have hnot : WordOk "not" := by decide
              simp only [List.append_assoc, Option.orElse_none]
              rw [matchK, matchK]
              refine matchK_unqualified_refuse (Word.identText hif spelling)
                (endsName_word first hfirst hnot spellingNot) ?_
              intro before run more hsplit _ hends
              refine matchK_blanks1_refuse first
                (stops_more (Word.identText hif spelling) hsplit hends)
                (Word.stops hnot spellingNot) (refuses_wholeWord has) ?_
              intro before
              rw [wholeWord, matchK]
              exact matchK_word_other has hnot (by decide) spellingNot

end Refusals

section Values

theorem values_ok : WordOk "values" := by decide

theorem matchK_columnList_refuse {c : Char} {cs : Text} (hc : c ≠ '(') :
    matchK columnList k ⟨before, c :: cs, groups⟩ = none := by
  simp [columnList, character, matchK, hc]

theorem matchK_columnList_word {text : String} (h : WordOk text) (spelling : Word text) :
    matchK columnList k ⟨before, spelling.text ++ rest, groups⟩ = none := by
  have hstart := Word.identText h spelling
  cases hspelling : spelling.text with
  | nil =>
      rw [hspelling] at hstart
      cases hstart
  | cons c cs =>
      refine matchK_columnList_refuse ?_
      rintro rfl
      rw [hspelling] at hstart
      cases hstart with
      | bare _ _ hc _ => exact absurd hc (by decide)

theorem refuses_optColumns :
    Refuses isSpace (matchK (.seq (opt columnList) (wholeWord tables "values")) k) := by
  intro before c cs groups hc
  have hparenthesis : c ≠ '(' := by
    rintro rfl
    exact absurd hc (by decide)
  rw [matchK, opt, matchK, matchK_columnList_refuse hparenthesis]
  exact refuses_wholeWord values_ok before c cs groups hc

theorem columns_run (columns : Columns) : ∀ c ∈ columns.body, notParenthesis c = true :=
  List.all_eq_true.mp columns.plain

theorem refuses_closing {r : Pattern} :
    Refuses notParenthesis (matchK (.seq (character ')') r) k) := by
  intro before c cs groups hc
  have hne : c ≠ ')' := by
    rintro rfl
    exact absurd hc (by decide)
  simp [character, matchK, hne]

/-- After a name, columns are read and passed. -/
theorem matchK_columns (columns : Columns) (hrest : Stops isSpace rest)
    (hk : Refuses isSpace k) : ∃ last,
      matchK columnList k
        ⟨before, '(' :: (columns.body ++ ')' :: (columns.after.text ++ rest)), groups⟩ =
        k ⟨last, rest, groups⟩ := by
  obtain ⟨last, hlast⟩ := @matchK_many_run _ notParenthesis
    (matchK (.seq (character ')') blanks0) k) (some '(') columns.body
    (')' :: (columns.after.text ++ rest)) groups (columns_run columns)
    (stops_cons.mpr (by decide)) refuses_closing
  obtain ⟨final, hfinal⟩ := @matchK_many_run _ isSpace k (some ')') columns.after.text rest
    groups (blanks_run columns.after) hrest hk
  refine ⟨final, ?_⟩
  simp only [columnList, matchK, character, beq_self_eq_true, if_true]
  refine hlast.trans ?_
  simp only [matchK, character, beq_self_eq_true, if_true]
  exact hfinal

theorem stops_columns (columns : Option Columns) {text : String} (h : WordOk text)
    (spelling : Word text) : Stops isSpace (columnsText columns ++ (spelling.text ++ rest)) := by
  cases columns with
  | none => exact Word.stops h spelling
  | some columns => exact stops_cons.mpr (by decide)

/-- Values are found after a name, blanks and perhaps columns. -/
theorem matchK_values_accept (blanks : Blanks) (columns : Option Columns)
    (values : Word "values") {tail : Text} (htail : EndsWord tables tail) {x : β}
    (hk : ∀ before, k ⟨before, tail, groups⟩ = some x) :
    matchK (valuesPattern tables) k
      ⟨before, blanks.text ++ (columnsText columns ++ (values.text ++ tail)), groups⟩ =
        some x := by
  have hword : ∀ before, matchK (wholeWord tables "values") k
      ⟨before, values.text ++ tail, groups⟩ = some x := by
    intro before
    obtain ⟨last, hlast⟩ := @matchK_wholeWord _ k before groups tail tables "values" values_ok
      values htail
    exact hlast.trans (hk last)
  rw [valuesPattern, matchK]
  refine matchK_many_accept (blanks_run blanks) (stops_columns columns values_ok values) ?_
  intro before
  rw [matchK, opt, matchK]
  cases columns with
  | none =>
      simp only [columnsText, List.nil_append]
      rw [matchK_columnList_word values_ok values]
      exact hword before
  | some columns =>
      obtain ⟨last, hlast⟩ := @matchK_columns _ (matchK (wholeWord tables "values") k) before
        groups (values.text ++ tail) columns (Word.stops values_ok values)
        (refuses_wholeWord values_ok)
      simp only [columnsText, List.cons_append, List.append_assoc]
      rw [hlast, hword last]
      rfl

/-- No values are found where another word follows. -/
theorem matchK_values_other (blanks : Blanks) (columns : Option Columns) {text : String}
    (h : WordOk text) (hne : "values".toList.head? ≠ text.toList.head?) (spelling : Word text) :
    matchK (valuesPattern tables) k
      ⟨before, blanks.text ++ (columnsText columns ++ (spelling.text ++ rest)), groups⟩ =
        none := by
  have hword : ∀ before, matchK (wholeWord tables "values") k
      ⟨before, spelling.text ++ rest, groups⟩ = none := by
    intro before
    rw [wholeWord, matchK]
    exact matchK_word_other values_ok h hne spelling
  obtain ⟨last, hlast⟩ := @matchK_many_run _ isSpace
    (matchK (.seq (opt columnList) (wholeWord tables "values")) k) before blanks.text
    (columnsText columns ++ (spelling.text ++ rest)) groups (blanks_run blanks)
    (stops_columns columns h spelling) refuses_optColumns
  rw [valuesPattern, matchK]
  refine hlast.trans ?_
  rw [matchK, opt, matchK]
  cases columns with
  | none =>
      simp only [columnsText, List.nil_append]
      rw [matchK_columnList_word h spelling]
      exact hword last
  | some columns =>
      obtain ⟨final, hfinal⟩ := @matchK_columns _ (matchK (wholeWord tables "values") k) last
        groups (spelling.text ++ rest) columns (Word.stops h spelling)
        (refuses_wholeWord values_ok)
      simp only [columnsText, List.cons_append, List.append_assoc]
      rw [hfinal, hword final, Option.orElse_none, matchK]
      exact matchK_wholeWord_refuse values_ok (by decide)

/-- Nor before a character that neither the blanks, the columns nor the word can take. -/
theorem matchK_values_refuse {c : Char} {cs : Text} (blanks : Blanks) (hspace : isSpace c = false)
    (hpart : identPart c = false) (hparenthesis : c ≠ '(') :
    matchK (valuesPattern tables) k ⟨before, blanks.text ++ c :: cs, groups⟩ = none := by
  obtain ⟨last, hlast⟩ := @matchK_many_run _ isSpace
    (matchK (.seq (opt columnList) (wholeWord tables "values")) k) before blanks.text
    (c :: cs) groups (blanks_run blanks) (stops_cons.mpr hspace) refuses_optColumns
  rw [valuesPattern, matchK]
  refine hlast.trans ?_
  rw [matchK, opt, matchK, matchK_columnList_refuse hparenthesis]
  exact matchK_wholeWord_refuse values_ok hpart

theorem word_of_identPart {c : Char} (hascii : isAscii c = true) (hc : identPart c = true)
    (hdollar : c ≠ '$') : tables.word c = true := by
  have hcode : c.toNat < 128 := by simpa [isAscii] using hascii
  have hall : ∀ n < 128, identPart (Char.ofNat n) = true → Char.ofNat n ≠ '$' →
      ((Char.ofNat n).isAlphanum || Char.ofNat n == '_') = true := by decide +kernel
  rw [tables.word_ascii c hcode]
  have h := hall c.toNat hcode
  rw [Char.ofNat_toNat] at h
  exact h hc hdollar

theorem mem_tails_drop {u run more : Text} (hsplit : u = run ++ more) (hrun : run ≠ []) :
    more ∈ u.tails.drop 1 := by
  obtain ⟨c, cs, rfl⟩ := List.exists_cons_of_ne_nil hrun
  rw [hsplit, List.cons_append, List.tails_cons, List.drop_one, List.tail_cons, List.mem_tails]
  exact List.suffix_append cs more

/-- Nor inside an identifier that does not end like the word. -/
theorem matchK_values_inside {u run more : Text} (h : bareText u = true)
    (hhides : innerValues u = false) (hsplit : u = run ++ more) (hrun : run ≠ [])
    (hmore : more ≠ []) (hrest : Stops identPart rest) :
    matchK (valuesPattern tables) k ⟨before, more ++ rest, groups⟩ = none := by
  simp only [bareText, Bool.and_eq_true, bne_iff_ne, ne_eq, List.all_eq_true] at h
  obtain ⟨⟨⟨_, hpart⟩, hascii⟩, _⟩ := h
  have hmem : ∀ c ∈ more, c ∈ u := fun c hc => by rw [hsplit]; exact List.mem_append_right _ hc
  obtain ⟨c, cs, hcs⟩ := List.exists_cons_of_ne_nil hmore
  have hc : identPart c = true := hpart c (hmem c (by rw [hcs]; simp))
  have hparenthesis : c ≠ '(' := by
    rintro rfl
    exact absurd hc (by decide)
  have hvalues : matchK (wholeWord tables "values") k ⟨before, more ++ rest, groups⟩ = none := by
    rw [wholeWord, matchK, word, matchK_lit]
    split
    · rename_i hprefix
      have hlength : "values".toList.length = 6 := rfl
      rw [hlength]
      rcases Nat.lt_or_ge more.length 6 with hshort | hlong
      · -- The word would reach into the rest.
        have hnext : (rest.map fold).head?.any identLetter = true := by
          have hdrop := hprefix.drop more.length
          rw [List.map_append, List.drop_left' (List.length_map fold)] at hdrop
          obtain ⟨end_, hend⟩ := hdrop
          rw [← hend]
          have : ∀ n < 6, (("values".toList.drop n).head?.any identLetter) = true := by decide
          have h6 := this _ hshort
          cases hv : "values".toList.drop more.length with
          | nil => rw [hv] at h6; cases h6
          | cons d ds => rw [hv] at h6; exact h6
        cases rest with
        | nil => cases hnext
        | cons d ds =>
            have hstop := stops_cons.mp hrest
            have hletter : identPart d = true := hnext
            rw [hstop] at hletter
            cases hletter
      · have hfront : "values".toList <+: more.map fold := by
          refine List.prefix_of_prefix_length_le hprefix ?_ (by simpa using hlong)
          rw [List.map_append]
          exact List.prefix_append _ _
        have hnone := List.any_eq_false.mp hhides more (mem_tails_drop hsplit hrun)
        have hnext : ∃ d ds, more.drop 6 = d :: ds ∧ d ≠ '$' := by
          rw [Bool.not_eq_true, Bool.and_eq_false_iff] at hnone
          have htail := hnone.resolve_left
            (by rw [List.isPrefixOf_iff_prefix.mpr hfront]; decide)
          cases hd : more.drop 6 with
          | nil => rw [hd] at htail; cases htail
          | cons d ds =>
              rw [hd] at htail
              exact ⟨d, ds, rfl, by simpa using htail⟩
        obtain ⟨d, ds, hd, hdollar⟩ := hnext
        have hdmem : d ∈ more := List.mem_of_mem_drop (by rw [hd]; simp)
        have hdword : tables.word d = true :=
          word_of_identPart (List.all_eq_true.mp (by simpa using hascii) d (hmem d hdmem))
            (hpart d (hmem d hdmem)) hdollar
        have hlast : ∃ e, ((more ++ rest).take 6).getLast? = some e ∧ tables.word e = true := by
          have hspelled : (more.take 6).map fold = "values".toList := by
            rw [List.map_take]
            exact (List.prefix_iff_eq_take.mp hfront).symm
          have hne : more.take 6 ≠ [] := by
            intro hnil
            rw [hnil] at hspelled
            exact absurd hspelled (by decide)
          have hmemLast := List.getLast_mem hne
          refine ⟨(more.take 6).getLast hne, ?_, ?_⟩
          · rw [List.take_append_of_le_length hlong, List.getLast?_eq_getLast_of_ne_nil hne]
          · have hinMore := List.mem_of_mem_take hmemLast
            refine word_of_isLower
              (List.all_eq_true.mp (by simpa using hascii) _ (hmem _ hinMore)) ?_
            refine values_ok.2 _ ?_
            rw [← hspelled]
            exact List.mem_map_of_mem hmemLast
        obtain ⟨e, he, heword⟩ := hlast
        rw [he, List.drop_append_of_le_length hlong, hd]
        simp [matchK, atBoundary, hdword, heword]
    · rfl
  rw [valuesPattern, matchK, hcs, List.cons_append, blanks0, matchK, manyK,
    if_neg (by simp [isSpace_of_identPart hc])]
  rw [matchK, opt, matchK, matchK_columnList_refuse hparenthesis]
  rw [hcs] at hvalues
  exact hvalues

theorem endsName_insert (blanks : Blanks) (columns : Option Columns)
    (h : blanks.text ≠ [] ∨ columns.isSome) {text : String} (htext : WordOk text)
    (spelling : Word text) :
    EndsName (blanks.text ++ (columnsText columns ++ (spelling.text ++ rest))) := by
  cases columns with
  | none => exact endsName_word blanks (h.resolve_right (by simp)) htext spelling
  | some columns =>
      simp only [columnsText, List.cons_append]
      exact endsName_blanks blanks (by decide) (by decide) (by decide)

/-- An `INSERT` of a query is no `INSERT` of values when no part of its name ends like the
word. -/
theorem matchK_values_query (name : Name) (hname : name.hidesValues = false) (blanks : Blanks)
    (columns : Option Columns) (h : blanks.text ≠ [] ∨ columns.isSome) {text : String}
    (htext : WordOk text) (hne : "values".toList.head? ≠ text.toList.head?)
    (spelling : Word text) :
    matchK qualified (matchK (valuesPattern tables) k)
      ⟨before, name.text ++ (blanks.text ++ (columnsText columns ++ (spelling.text ++ rest))),
        groups⟩ = none := by
  simp only [Name.hidesValues, Bool.or_eq_false_iff] at hname
  have hends := @endsName_insert rest blanks columns h text htext spelling
  have hpart : ∀ (i : Ident) (rest : Text), i.hidesValues = false → Stops identPart rest →
      (∀ before, matchK (valuesPattern tables) k ⟨before, rest, groups⟩ = none) →
      ∀ before run more, i.text = run ++ more → run ≠ [] →
        (more = [] ∨ i.text.head? ≠ some '"') →
        matchK (valuesPattern tables) k ⟨before, more ++ rest, groups⟩ = none := by
    intro i rest hhides hrest hk before run more hsplit hrun hends
    by_cases hmore : more = []
    · rw [hmore]
      exact hk before
    · cases i with
      | bare text h => exact matchK_values_inside h hhides hsplit hrun hmore hrest
      | quoted text h => exact absurd rfl (hends.resolve_left hmore)
  refine matchK_qualified_refuse name hends ?_ ?_
  · exact hpart name.ident _ hname.1 hends.1
      fun before => matchK_values_other blanks columns htext hne spelling
  · intro schema b1 b2 hschema
    have hhides : schema.hidesValues = false := by
      have hnone := hname.2
      rw [hschema] at hnone
      simpa using hnone
    exact hpart schema _ hhides (stops_blanks_dot b1)
      fun before => matchK_values_refuse b1 (by decide) (by decide) (by decide)

end Values

end EqGen.Dialects.Cratedb.Classify
