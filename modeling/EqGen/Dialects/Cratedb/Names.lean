import EqGen.Dialects.Cratedb.Statement

/-! How the patterns read words, identifiers and qualified names in every spelling. -/

namespace EqGen.Dialects.Cratedb.Names

open EqGen.Lib.Lines
open EqGen.Lib.Regex
open EqGen.Dialects.Cratedb.Refresh
open EqGen.Dialects.Cratedb.Statement

variable {β : Type} {k : Cursor → Option β} {before : Option Char} {groups : List Text}

section Characters

theorem identPart_of_isSpace {c : Char} (hc : isSpace c = true) : identPart c = false := by
  refine @forall_isSpace (fun c => identPart c = false) ?_ c hc
  decide

theorem isSpace_of_identPart {c : Char} (hc : identPart c = true) : isSpace c = false := by
  cases h : isSpace c with
  | false => rfl
  | true =>
      rw [identPart_of_isSpace h] at hc
      cases hc

theorem fold_isSpace {c : Char} (hc : isSpace c = true) : identLetter (fold c) = false :=
  identPart_of_isSpace hc

/-- The words the patterns are made of. -/
def WordOk (text : String) : Prop :=
  text.toList ≠ [] ∧ ∀ c ∈ text.toList, c.isLower = true

instance (text : String) : Decidable (WordOk text) :=
  @instDecidableAnd _ _ _ (List.decidableBAll (fun c => c.isLower = true) text.toList)

theorem WordOk.letter {text : String} (h : WordOk text) :
    ∀ c ∈ text.toList, identLetter c = true := by
  intro c hc
  simp [identLetter, h.2 c hc]

end Characters

section Words

variable {text : String} {rest : Text}

theorem refuses_word (h : WordOk text) : Refuses isSpace (matchK (word text) k) := by
  refine refuses_lit ?_ h.1
  intro c hc d hd heq
  have hletter := h.letter c (List.mem_of_mem_head? hc)
  rw [← heq, fold_isSpace hd] at hletter
  cases hletter

theorem matchK_word (spelling : Word text) :
    matchK (word text) k ⟨before, spelling.text ++ rest, groups⟩ =
      k ⟨spelling.text.getLast?.or before, rest, groups⟩ :=
  matchK_lit_spelled spelling.spelled

theorem refuses_blanks1 : Refuses identPart (matchK blanks1 k) := by
  intro before c cs groups hc
  exact matchK_some1_stops (stops_cons.mpr (isSpace_of_identPart hc))

theorem refuses_phrase {texts : List String} {r : Pattern} (h : ∀ t ∈ texts, WordOk t)
    (hr : Refuses isSpace (matchK r k)) : Refuses isSpace (matchK (phrase texts r) k) := by
  cases texts with
  | nil => exact hr
  | cons t ts => exact refuses_word (h t List.mem_cons_self)

theorem Word.stops (h : WordOk text) (spelling : Word text) :
    Stops isSpace (spelling.text ++ rest) := by
  have hne : spelling.text ≠ [] := by
    intro hnil
    have := spelling.spelled
    rw [hnil] at this
    exact h.1 this.symm
  obtain ⟨c, cs, hcs⟩ := List.exists_cons_of_ne_nil hne
  rw [hcs, List.cons_append, stops_cons]
  apply isSpace_of_identPart
  have hmem : fold c ∈ text.toList := by
    rw [← spelling.spelled, hcs]
    simp
  exact h.letter _ hmem

theorem Spelled.stops {texts : List String} {t : Text} (h : ∀ t ∈ texts, WordOk t)
    (hspelled : Spelled texts t) (hrest : Stops isSpace rest) : Stops isSpace (t ++ rest) := by
  cases hspelled with
  | nil => exact hrest
  | cons spelling blanks hblanks hmore =>
      rw [List.append_assoc, List.append_assoc]
      exact Word.stops (h _ List.mem_cons_self) spelling

theorem blanks_run (blanks : Blanks) : ∀ c ∈ blanks.text, isSpace c = true := by
  have h := blanks.blank
  simpa [blankText] using h

/-- A phrase is read word by word. -/
theorem matchK_phrase {texts : List String} {r : Pattern} {t : Text}
    (h : ∀ t ∈ texts, WordOk t) (hspelled : Spelled texts t) (hrest : Stops isSpace rest)
    (hr : Refuses isSpace (matchK r k)) : ∃ last,
      matchK (phrase texts r) k ⟨before, t ++ rest, groups⟩ =
        matchK r k ⟨last, rest, groups⟩ := by
  induction hspelled generalizing before with
  | nil => exact ⟨before, rfl⟩
  | @cons w ws more spelling blanks hblanks hmore ih =>
      have hws : ∀ t ∈ ws, WordOk t := fun t ht => h t (List.mem_cons_of_mem _ ht)
      have hstops := Spelled.stops hws hmore hrest
      obtain ⟨last, hlast⟩ := @matchK_some1_run _ isSpace (matchK (phrase ws r) k)
        (spelling.text.getLast?.or before) blanks.text (more ++ rest) groups hblanks
        (blanks_run blanks) hstops (refuses_phrase hws hr)
      obtain ⟨final, hfinal⟩ := @ih last hws
      refine ⟨final, ?_⟩
      rw [phrase, matchK, List.append_assoc, List.append_assoc, matchK_word, matchK]
      exact hlast.trans hfinal

/-- A phrase refuses a text whose first word is another. -/
theorem matchK_phrase_other {t other : String} {ts : List String} {r : Pattern}
    {spelling : Text} (ht : WordOk t) (hspelling : spelling.map fold = other.toList)
    (hother : ∀ c ∈ other.toList, identLetter c = true) (hne : t ≠ other)
    (hrest : Stops identPart rest) :
    matchK (phrase (t :: ts) r) k ⟨before, spelling ++ rest, groups⟩ = none := by
  rw [phrase, matchK]
  refine matchK_lit_other ht.letter hspelling hother ?_ hrest ?_
  · exact fun h => hne (String.ext h)
  · exact refuses_blanks1

end Words

section Names

variable {u rest : Text}

theorem identPart_of_identStart {c : Char} (hc : identStart c = true) : identPart c = true := by
  simp only [identStart, identPart, identLetter, Bool.or_eq_true] at hc ⊢
  rcases hc with hc | hc
  · exact .inl (.inl (.inl hc))
  · exact .inl (.inr hc)

/-- The texts the identifier pattern reads whole. -/
inductive IdentText : Text → Prop
  | bare (c : Char) (cs : Text) (hc : identStart c = true) (hcs : ∀ d ∈ cs, identPart d = true) :
      IdentText (c :: cs)
  | quoted (t : Text) (hne : t ≠ []) (ht : ∀ c ∈ t, notQuote c = true) :
      IdentText ('"' :: t ++ ['"'])

theorem Ident.identText (i : Ident) : IdentText i.text := by
  cases i with
  | bare text h =>
      simp only [bareText, Bool.and_eq_true, List.all_eq_true] at h
      obtain ⟨⟨⟨hhead, hpart⟩, _⟩, _⟩ := h
      cases text with
      | nil => cases hhead
      | cons c cs =>
          exact .bare c cs (by simpa using hhead) fun d hd => hpart d (List.mem_cons_of_mem _ hd)
  | quoted text h =>
      simp only [quotedText, Bool.and_eq_true, bne_iff_ne, ne_eq, List.all_eq_true] at h
      exact .quoted text h.1 h.2

theorem quotedIdent_refuses {c : Char} {cs : Text} (hc : identPart c = true) :
    matchK quotedIdent k ⟨before, c :: cs, groups⟩ = none := by
  have hne : c ≠ '"' := by
    rintro rfl
    exact absurd hc (by decide)
  simp [quotedIdent, character, matchK, hne]

theorem bareIdent_refuses {c : Char} {cs : Text} (hc : identStart c = false) :
    matchK bareIdent k ⟨before, c :: cs, groups⟩ = none := by
  simp [bareIdent, matchK, hc]

/-- An identifier is read whole when the rest is then accepted. -/
theorem matchK_ident_accept (hu : IdentText u) (hrest : Stops identPart rest) {x : β}
    (hk : ∀ before, k ⟨before, rest, groups⟩ = some x) :
    matchK ident k ⟨before, u ++ rest, groups⟩ = some x := by
  rw [ident, matchK]
  cases hu with
  | bare c cs hc hcs =>
      rw [List.cons_append, quotedIdent_refuses (identPart_of_identStart hc)]
      simp only [bareIdent, matchK, hc, if_true, Option.orElse_none]
      exact matchK_many_accept hcs hrest hk
  | quoted t hne ht =>
      have hquoted : matchK quotedIdent k ⟨before, '"' :: t ++ ['"'] ++ rest, groups⟩ = some x := by
        simp only [quotedIdent, character, matchK, List.cons_append, List.append_assoc,
          beq_self_eq_true, if_true, List.nil_append]
        refine matchK_some1_accept hne ht (stops_cons.mpr (by decide)) ?_
        intro before
        simp [hk]
      rw [hquoted]
      rfl

/-- An identifier is refused when every way to end it is: a quoted one only at its quote, an
unquoted one after each of its characters. -/
theorem matchK_ident_refuse (hu : IdentText u) (hrest : Stops identPart rest)
    (hk : ∀ before run more, u = run ++ more → run ≠ [] →
      (more = [] ∨ u.head? ≠ some '"') → k ⟨before, more ++ rest, groups⟩ = none) :
    matchK ident k ⟨before, u ++ rest, groups⟩ = none := by
  rw [ident, matchK]
  cases hu with
  | bare c cs hc hcs =>
      have hquote : (c :: cs).head? ≠ some '"' := by
        simp only [List.head?_cons, ne_eq, Option.some.injEq]
        rintro rfl
        exact absurd hc (by decide)
      rw [List.cons_append, quotedIdent_refuses (identPart_of_identStart hc)]
      simp only [bareIdent, matchK, hc, if_true, Option.orElse_none]
      refine manyK_eq_none ?_
      intro before run left hsplit hrun
      rcases List.append_eq_append_iff.mp hsplit with ⟨more, hmore, hleft⟩ | ⟨more, hmore, hleft⟩
      · -- The run would reach into the rest.
        cases more with
        | nil =>
            rw [List.nil_append] at hleft
            rw [← hleft]
            exact hk before (c :: cs) [] (by simp) (by simp) (.inl rfl)
        | cons d ds =>
            rw [hleft, List.cons_append, stops_cons] at hrest
            rw [hrun d (by rw [hmore]; simp)] at hrest
            cases hrest
      · rw [hleft]
        exact hk before (c :: run) more (by simp [hmore]) (by simp) (.inr hquote)
  | quoted t hne ht =>
      have hquoted : matchK quotedIdent k ⟨before, '"' :: t ++ ['"'] ++ rest, groups⟩ = none := by
        simp only [quotedIdent, character, matchK, List.cons_append, List.append_assoc,
          beq_self_eq_true, if_true, List.nil_append]
        have hrefuses : Refuses notQuote (matchK (.char (· == '"')) k) := by
          intro before c cs groups hc
          have hne : c ≠ '"' := by simpa [notQuote] using hc
          simp [matchK, hne]
        obtain ⟨last, hlast⟩ := @matchK_some1_run _ notQuote (matchK (.char (· == '"')) k)
          (some '"') t ('"' :: rest) groups hne ht (stops_cons.mpr (by decide)) hrefuses
        refine hlast.trans ?_
        simpa [matchK] using hk (some '"') _ [] (List.append_nil _).symm (by simp) (.inl rfl)
      rw [hquoted]
      simp [bareIdent_refuses (show identStart '"' = false by decide)]

theorem refuses_ident : Refuses isSpace (matchK ident k) := by
  intro before c cs groups hc
  have hpart := identPart_of_isSpace hc
  have hstart : identStart c = false := by
    cases h : identStart c with
    | false => rfl
    | true =>
        rw [identPart_of_identStart h] at hpart
        cases hpart
  have hquote : c ≠ '"' := by
    rintro rfl
    exact absurd hc (by decide)
  simp [ident, quotedIdent, bareIdent, character, matchK, hstart, hquote]

theorem matchK_dot_refuse (h : (rest.dropWhile isSpace).head? ≠ some '.') :
    matchK dot k ⟨before, rest, groups⟩ = none := by
  have hrefuses : Refuses isSpace (matchK (.seq (character '.') blanks0) k) := by
    intro before c cs groups hc
    have hne : c ≠ '.' := by
      rintro rfl
      exact absurd hc (by decide)
    simp [character, matchK, hne]
  have hstops : Stops isSpace (rest.dropWhile isSpace) := by
    intro c hc
    have := List.head?_dropWhile_not isSpace rest
    simp_all
  obtain ⟨last, hlast⟩ := @matchK_many_run _ isSpace (matchK (.seq (character '.') blanks0) k)
    before (rest.takeWhile isSpace) (rest.dropWhile isSpace) groups
    (fun c hc => List.mem_takeWhile_imp hc) hstops hrefuses
  rw [List.takeWhile_append_dropWhile] at hlast
  rw [dot, matchK]
  refine hlast.trans ?_
  cases hdrop : rest.dropWhile isSpace with
  | nil => simp [character, matchK]
  | cons c cs =>
      have hne : c ≠ '.' := by
        rintro rfl
        exact h (by rw [hdrop, List.head?_cons])
      simp [character, matchK, hne]

theorem dropWhile_of_stops {p : Char → Bool} {text : Text} (h : Stops p text) :
    text.dropWhile p = text := by
  cases text with
  | nil => rfl
  | cons c cs => simp [stops_cons.mp h]

theorem dot_refuse_more {run more : Text} (hu : IdentText (run ++ more)) (hne : more ≠ [])
    (hhead : (run ++ more).head? ≠ some '"') :
    ((more ++ rest).dropWhile isSpace).head? ≠ some '.' := by
  obtain ⟨c, cs, rfl⟩ := List.exists_cons_of_ne_nil hne
  have hpart : identPart c = true := by
    generalize htext : run ++ c :: cs = text at hu hhead
    cases hu with
    | bare d ds hd hds =>
        have hmem : c ∈ d :: ds := by rw [← htext]; simp
        rcases List.mem_cons.mp hmem with rfl | hc
        · exact identPart_of_identStart hd
        · exact hds c hc
    | quoted t _ _ => exact absurd rfl hhead
  have hspace := isSpace_of_identPart hpart
  rw [List.cons_append, List.dropWhile_cons_of_neg (by simp [hspace]), List.head?_cons]
  rintro ⟨⟩
  exact absurd hpart (by decide)

/-- Without a dot after it, an identifier is no schema. -/
theorem matchK_qualifier_refuse (hu : IdentText u) (hrest : EndsName rest) :
    matchK qualifier k ⟨before, u ++ rest, groups⟩ = none := by
  rw [qualifier, matchK]
  refine matchK_ident_refuse hu hrest.1 ?_
  intro before run more hsplit _ hends
  cases more with
  | nil => exact matchK_dot_refuse hrest.2
  | cons c cs =>
      subst hsplit
      exact matchK_dot_refuse
        (dot_refuse_more hu (by simp) (hends.resolve_left (by simp)))

theorem stops_blanks_dot (blanks : Blanks) : Stops identPart (blanks.text ++ '.' :: rest) := by
  cases h : blanks.text with
  | nil => exact stops_cons.mpr (by decide)
  | cons c cs =>
      have hc := blanks_run blanks c (by rw [h]; simp)
      exact stops_cons.mpr (identPart_of_isSpace hc)

theorem Ident.stops (i : Ident) : Stops isSpace (i.text ++ rest) := by
  have hu := Ident.identText i
  cases h : i.text with
  | nil =>
      rw [h] at hu
      cases hu
  | cons c cs =>
      rw [h] at hu
      refine stops_cons.mpr ?_
      cases hu with
      | bare _ _ hc _ => exact isSpace_of_identPart (identPart_of_identStart hc)
      | quoted => decide

/-- A name is read whole when what follows it is then accepted. -/
theorem matchK_qualified_accept (name : Name) (hrest : EndsName rest) {x : β}
    (hk : ∀ before, k ⟨before, rest, groups⟩ = some x) :
    matchK qualified k ⟨before, name.text ++ rest, groups⟩ = some x := by
  have hident : ∀ before, matchK ident k ⟨before, name.ident.text ++ rest, groups⟩ = some x :=
    fun before => matchK_ident_accept (Ident.identText _) hrest.1 hk
  obtain ⟨schema, ident⟩ := name
  cases schema with
  | none =>
      rw [qualified, matchK, opt, matchK]
      simp only [Name.text]
      rw [matchK_qualifier_refuse (Ident.identText _) hrest]
      exact hident before
  | some schema =>
      obtain ⟨schema, b1, b2⟩ := schema
      have hqualifier : matchK qualifier (matchK Refresh.ident k)
          ⟨before, (Name.mk (some (schema, b1, b2)) ident).text ++ rest, groups⟩ = some x := by
        simp only [Name.text, List.append_assoc, List.cons_append]
        rw [qualifier, matchK]
        refine matchK_ident_accept (Ident.identText _) (stops_blanks_dot b1) ?_
        intro before
        rw [dot, matchK]
        refine matchK_many_accept (blanks_run b1) (stops_cons.mpr (by decide)) ?_
        intro before
        simp only [matchK, character, beq_self_eq_true, if_true]
        exact matchK_many_accept (blanks_run b2) (Ident.stops ident) hident
      rw [qualified, matchK, opt, matchK, hqualifier]
      rfl

/-- An unqualified name is refused when every way to end it is. -/
theorem matchK_unqualified_refuse (hu : IdentText u) (hrest : EndsName rest)
    (hident : ∀ before run more, u = run ++ more → run ≠ [] →
      (more = [] ∨ u.head? ≠ some '"') → k ⟨before, more ++ rest, groups⟩ = none) :
    matchK qualified k ⟨before, u ++ rest, groups⟩ = none := by
  rw [qualified, matchK, opt, matchK, matchK_qualifier_refuse hu hrest]
  exact matchK_ident_refuse hu hrest.1 hident

/-- A name is refused when every way to end it is. -/
theorem matchK_qualified_refuse (name : Name) (hrest : EndsName rest)
    (hident : ∀ before run more, name.ident.text = run ++ more → run ≠ [] →
      (more = [] ∨ name.ident.text.head? ≠ some '"') →
      k ⟨before, more ++ rest, groups⟩ = none)
    (hschema : ∀ schema b1 b2, name.schema = some (schema, b1, b2) →
      ∀ before run more, schema.text = run ++ more → run ≠ [] →
        (more = [] ∨ schema.text.head? ≠ some '"') →
        k ⟨before, more ++ (b1.text ++ '.' :: (b2.text ++ (name.ident.text ++ rest))),
          groups⟩ = none) :
    matchK qualified k ⟨before, name.text ++ rest, groups⟩ = none := by
  have hplain : ∀ before,
      matchK ident k ⟨before, name.ident.text ++ rest, groups⟩ = none :=
    fun before => matchK_ident_refuse (Ident.identText _) hrest.1 hident
  obtain ⟨schema, ident⟩ := name
  cases schema with
  | none => exact matchK_unqualified_refuse (Ident.identText _) hrest hident
  | some schema =>
      obtain ⟨schema, b1, b2⟩ := schema
      have htext : (Name.mk (some (schema, b1, b2)) ident).text ++ rest =
          schema.text ++ (b1.text ++ '.' :: (b2.text ++ (ident.text ++ rest))) := by
        simp [Name.text]
      rw [qualified, matchK, opt, matchK, htext]
      have hqualifier : matchK qualifier (matchK Refresh.ident k)
          ⟨before, schema.text ++ (b1.text ++ '.' :: (b2.text ++ (ident.text ++ rest))),
            groups⟩ = none := by
        rw [qualifier, matchK]
        refine matchK_ident_refuse (Ident.identText _) (stops_blanks_dot b1) ?_
        intro before run more hsplit _ hends
        cases more with
        | nil =>
            have hrefuses : Refuses isSpace
                (matchK (.seq (character '.') blanks0) (matchK Refresh.ident k)) := by
              intro before c cs groups hc
              have hne : c ≠ '.' := by
                rintro rfl
                exact absurd hc (by decide)
              simp [character, matchK, hne]
            obtain ⟨last, hlast⟩ := @matchK_many_run _ isSpace
              (matchK (.seq (character '.') blanks0) (matchK Refresh.ident k)) before b1.text
              ('.' :: (b2.text ++ (ident.text ++ rest))) groups (blanks_run b1)
              (stops_cons.mpr (by decide)) hrefuses
            obtain ⟨final, hfinal⟩ := @matchK_many_run _ isSpace (matchK Refresh.ident k)
              (some '.') b2.text (ident.text ++ rest) groups (blanks_run b2)
              (Ident.stops ident) refuses_ident
            refine hlast.trans ?_
            simp only [matchK, character, beq_self_eq_true, if_true]
            exact hfinal.trans (hplain final)
        | cons c cs =>
            rw [hsplit] at hends
            have hu := Ident.identText schema
            rw [hsplit] at hu
            exact matchK_dot_refuse
              (dot_refuse_more hu (by simp) (hends.resolve_left (by simp)))
      rw [hqualifier]
      exact matchK_ident_refuse (Ident.identText _) (stops_blanks_dot b1)
        (hschema schema b1 b2 rfl)

theorem Word.identText {text : String} (h : WordOk text) (spelling : Word text) :
    IdentText spelling.text := by
  have hlower : ∀ c ∈ spelling.text, (fold c).isLower = true := by
    intro c hc
    refine h.2 _ ?_
    rw [← spelling.spelled]
    exact List.mem_map_of_mem hc
  cases hspelling : spelling.text with
  | nil =>
      have hspelled := spelling.spelled
      rw [hspelling] at hspelled
      exact absurd hspelled.symm h.1
  | cons c cs =>
      rw [hspelling] at hlower
      refine .bare c cs ?_ ?_
      · simp [identStart, hlower c]
      · intro d hd
        simp [identPart, identLetter, hlower d (List.mem_cons_of_mem _ hd)]

end Names

end EqGen.Dialects.Cratedb.Names
