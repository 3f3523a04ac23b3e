import EqGen.Dialects.Cratedb.Forms

/-! What stands before and after the deciding text of a statement does not count. -/

namespace EqGen.Dialects.Cratedb.Strip

open EqGen.Lib.Lines
open EqGen.Lib.Regex
open EqGen.Dialects.Cratedb.Refresh
open EqGen.Dialects.Cratedb.Statement
open EqGen.Dialects.Cratedb.Names
open EqGen.Dialects.Cratedb.Classify
open EqGen.Dialects.Cratedb.Forms

variable {tables : UnicodeTables} {tail : Text}

section Strip

/-- Stripping a text from its end passes no character that stays. -/
theorem rdropWhile_append {p : Char → Bool} {init : Text} {c : Char} (hc : p c = false)
    (tail : Text) :
    (init ++ [c] ++ tail).rdropWhile p = init ++ [c] ++ tail.rdropWhile p := by
  induction tail using List.reverseRecOn with
  | nil => rw [List.append_nil, List.rdropWhile_concat_neg _ _ _ (by simp [hc])]; simp
  | append_singleton tail d ih =>
      rw [← List.append_assoc]
      by_cases hd : p d
      · rw [List.rdropWhile_concat_pos _ _ _ hd, List.rdropWhile_concat_pos _ _ _ hd, ih]
      · rw [List.rdropWhile_concat_neg _ _ _ hd, List.rdropWhile_concat_neg _ _ _ hd]
        simp

/-- The first and last characters of a text survive the stripping of blanks and semicolons. -/
def Framed (text : Text) : Prop :=
  (∃ c cs, text = c :: cs ∧ identPart c = true) ∧
    ∃ init c, text = init ++ [c] ∧ isSpace c = false ∧ c ≠ ';'

theorem strip_framed {text : Text} (h : Framed text) (tail : Text) :
    strip (text ++ tail) = text ++ tail.rdropWhile isSpace := by
  obtain ⟨⟨c, cs, htext, hc⟩, init, d, hinit, hd, _⟩ := h
  have hdrop : (text ++ tail).dropWhile isSpace = text ++ tail := by
    rw [htext, List.cons_append]
    exact dropWhile_of_stops (stops_cons.mpr (isSpace_of_identPart hc))
  rw [strip, hdrop, hinit]
  exact rdropWhile_append hd tail

theorem stripped_framed {text : Text} (h : Framed text) (noise tail : Text)
    (hnoise : dropNoise (noise ++ (text ++ tail)).length (noise ++ (text ++ tail)) = text ++ tail) :
    ∃ rest, rest <+: tail ∧ stripped (noise ++ (text ++ tail)) = text ++ rest := by
  refine ⟨((tail.rdropWhile isSpace).rdropWhile (· == ';')).rdropWhile isSpace, ?_, ?_⟩
  · exact ((List.rdropWhile_prefix _ _).trans (List.rdropWhile_prefix _ _)).trans
      (List.rdropWhile_prefix _ _)
  · have hsemicolon : (text ++ tail.rdropWhile isSpace).rdropWhile (· == ';') =
        text ++ (tail.rdropWhile isSpace).rdropWhile (· == ';') := by
      obtain ⟨_, init, d, hinit, _, hd⟩ := h
      rw [hinit]
      exact rdropWhile_append (by simpa using hd) _
    rw [stripped, hnoise, strip_framed h, hsemicolon, strip_framed h]

end Strip

section Noises

theorem lazyK_run {β : Type} {p : Char → Bool} {k : Option Char → Text → Option β}
    {before : Option Char} {run rest : Text} {x : β} (hrun : ∀ c ∈ run, p c = true)
    (hinside : ∀ before start more, run = start ++ more → more ≠ [] → k before (more ++ rest) = none)
    (hk : ∀ before, k before rest = some x) : lazyK p k before (run ++ rest) = some x := by
  induction run generalizing before with
  | nil =>
      cases rest with
      | nil => exact hk before
      | cons c cs =>
          rw [List.nil_append, lazyK, hk before]
          rfl
  | cons c cs ih =>
      have hstop : k before (c :: cs ++ rest) = none := hinside before [] (c :: cs) rfl (by simp)
      rw [List.cons_append] at hstop ⊢
      rw [lazyK, hstop, Option.orElse_none, if_pos (hrun c List.mem_cons_self)]
      refine ih (fun d hd => hrun d (List.mem_cons_of_mem _ hd)) ?_
      intro before start more hsplit hmore
      exact hinside before (c :: start) more (by rw [hsplit]; rfl) hmore

/-- One piece of noise is matched whole. -/
theorem restAfter_noise (noise : Noise) (rest : Text) :
    restAfter noisePattern (noise.text ++ rest) = some rest := by
  cases noise with
  | blank c h => simp [restAfter, noisePattern, matchK, Noise.text, h]
  | line body h =>
      have hspace : isSpace '-' = false := by decide
      have hline : ∀ before, matchK (.seq (.many (· != '\n')) (character '\n'))
          (fun s => some s.rest) ⟨before, body ++ '\n' :: rest, []⟩ = some rest := by
        intro before
        rw [matchK]
        refine matchK_many_accept ?_ (stops_cons.mpr (by decide)) ?_
        · intro c hc
          rw [bne_iff_ne]
          rintro rfl
          exact h hc
        · intro before
          simp [character, matchK]
      have htext : (Noise.line body h).text ++ rest = ['-', '-'] ++ (body ++ '\n' :: rest) := by
        simp [Noise.text]
      rw [restAfter, noisePattern, matchK, matchK, htext, matchK, matchK,
        matchK_lit_spelled (List.map_id _), hline]
      simp [matchK, hspace]
  | block body h =>
      have hspace : isSpace '/' = false := by decide
      have hblock : ∀ before, matchK (.seq (.lazyMany fun _ => true) (lit id ['*', '/']))
          (fun s => some s.rest) ⟨before, body ++ ('*' :: '/' :: rest), []⟩ = some rest := by
        intro before
        rw [matchK, matchK]
        refine lazyK_run (fun _ _ => rfl) ?_ ?_
        · intro before start more hsplit hmore
          rw [matchK_lit, if_neg]
          rw [List.map_id]
          intro hends
          -- The end of the comment would begin inside its body.
          obtain ⟨c, cs, rfl⟩ := List.exists_cons_of_ne_nil hmore
          cases cs with
          | nil => simp at hends
          | cons d ds =>
              apply h
              simp only [List.cons_append, List.cons_prefix_cons] at hends
              obtain ⟨rfl, rfl, _⟩ := hends
              exact ⟨start, ds, by rw [hsplit]; simp⟩
        · intro before
          rw [matchK_lit]
          simp
      have htext : (Noise.block body h).text ++ rest =
          ['/', '*'] ++ (body ++ '*' :: '/' :: rest) := by
        simp [Noise.text]
      rw [restAfter, noisePattern, matchK, matchK, htext, matchK, matchK, matchK,
        matchK_lit_spelled (List.map_id _), hblock]
      simp [matchK, lit, hspace]

theorem restAfter_noise_none {c : Char} {cs : Text} (hc : identPart c = true) :
    restAfter noisePattern (c :: cs) = none := by
  have hspace := isSpace_of_identPart hc
  have hhyphen : c ≠ '-' := by
    rintro rfl
    exact absurd hc (by decide)
  have hslash : c ≠ '/' := by
    rintro rfl
    exact absurd hc (by decide)
  simp [restAfter, noisePattern, matchK, lit, hspace, hhyphen, hslash]

theorem dropNoise_framed {text : Text} (h : ∃ c cs, text = c :: cs ∧ identPart c = true)
    (noise : List Noise) : ∀ fuel, noise.length ≤ fuel →
    dropNoise fuel (noiseText noise ++ text) = text := by
  obtain ⟨c, cs, rfl, hc⟩ := h
  induction noise with
  | nil =>
      intro fuel _
      cases fuel with
      | zero => rfl
      | succ fuel =>
          simp only [noiseText, List.flatMap_nil, List.nil_append, dropNoise,
            restAfter_noise_none hc]
  | cons item noise ih =>
      intro fuel hfuel
      obtain ⟨fuel, rfl⟩ : ∃ n, fuel = n + 1 := ⟨fuel - 1, by simp at hfuel; omega⟩
      have htext : noiseText (item :: noise) ++ c :: cs =
          item.text ++ (noiseText noise ++ c :: cs) := by
        simp [noiseText]
      rw [htext, dropNoise, restAfter_noise]
      exact ih fuel (by simpa using hfuel)

theorem Noise.text_ne_nil (noise : Noise) : noise.text ≠ [] := by
  cases noise <;> simp [Noise.text]

theorem length_noiseText (noise : List Noise) : noise.length ≤ (noiseText noise).length := by
  induction noise with
  | nil => exact Nat.le_refl 0
  | cons item noise ih =>
      have hitem : 0 < item.text.length := List.length_pos_iff.mpr (Noise.text_ne_nil item)
      simp only [noiseText, List.flatMap_cons, List.length_cons, List.length_append] at ih ⊢
      omega

end Noises

section Frames

/-- The end of a form: a parenthesis or a character of an identifier. -/
def EndsFrame (text : Text) : Prop :=
  ∃ init c, text = init ++ [c] ∧ isSpace c = false ∧ c ≠ ';'

theorem EndsFrame.append (start : Text) {text : Text} (h : EndsFrame text) :
    EndsFrame (start ++ text) := by
  obtain ⟨init, c, rfl, hc⟩ := h
  exact ⟨start ++ init, c, by simp, hc⟩

theorem endsFrame_identText {text : Text} (h : IdentText text) : EndsFrame text := by
  cases h with
  | bare c cs hc hcs =>
      have hne : c :: cs ≠ [] := by simp
      have hlast : identPart ((c :: cs).getLast hne) = true := by
        have hmem := List.getLast_mem hne
        rcases List.mem_cons.mp hmem with hc' | hcs'
        · rw [hc']
          exact identPart_of_identStart hc
        · exact hcs _ hcs'
      refine ⟨(c :: cs).dropLast, (c :: cs).getLast hne, ?_, isSpace_of_identPart hlast, ?_⟩
      · exact (List.dropLast_append_getLast hne).symm
      · intro heq
        rw [heq] at hlast
        exact absurd hlast (by decide)
  | quoted t hne ht => exact ⟨'"' :: t, '"', rfl, by decide, by decide⟩

theorem Word.endsFrame {text : String} (h : WordOk text) (spelling : Word text) :
    EndsFrame spelling.text :=
  endsFrame_identText (Word.identText h spelling)

theorem Name.endsFrame (name : Name) : EndsFrame name.text := by
  have hident := endsFrame_identText (Ident.identText name.ident)
  obtain ⟨schema, ident⟩ := name
  cases schema with
  | none => exact hident
  | some schema => exact hident.append _

theorem endsFrame_more {text : Text} (h : EndsFrame text) :
    ∀ more, EndsFrame (text ++ moreText more)
  | [] => by rwa [moreText, List.append_nil]
  | (before, after, name) :: more => by
      have hmore := endsFrame_more ((Name.endsFrame name).append
        (text ++ before.text ++ ',' :: after.text)) more
      simpa [moreText] using hmore

/-- The first character of a form: one of an identifier. -/
def StartsFrame (text : Text) : Prop :=
  ∃ c cs, text = c :: cs ∧ identPart c = true

theorem StartsFrame.append {text : Text} (h : StartsFrame text) (rest : Text) :
    StartsFrame (text ++ rest) := by
  obtain ⟨c, cs, rfl, hc⟩ := h
  exact ⟨c, cs ++ rest, rfl, hc⟩

theorem Word.startsFrame {text : String} (h : WordOk text) (spelling : Word text) :
    StartsFrame spelling.text := by
  have hident := Word.identText h spelling
  cases htext : spelling.text with
  | nil =>
      rw [htext] at hident
      cases hident
  | cons c cs =>
      rw [htext] at hident
      cases hident with
      | bare _ _ hc _ => exact ⟨c, cs, rfl, identPart_of_identStart hc⟩
      | quoted =>
          have hspelled := spelling.spelled
          rw [htext] at hspelled
          have hletter := h.letter (fold '"') (by rw [← hspelled]; simp)
          exact absurd hletter (by decide)

theorem Phrase.startsFrame {word : String} {words : List String} (h : WordOk word)
    (head : Phrase (word :: words)) : StartsFrame head.text := by
  obtain ⟨spelling, rest, htext, _⟩ := phrase_starts head []
  rw [List.append_nil] at htext
  rw [htext]
  exact (Word.startsFrame h spelling).append rest

theorem Form.startsFrame (form : Form) : StartsFrame form.text := by
  cases form <;> simp only [Form.text, List.append_assoc]
  case query word h spelling => exact Word.startsFrame (readOnlyWords_ok word h) spelling
  all_goals exact (Phrase.startsFrame (by decide) _).append _

theorem Form.endsFrame (form : Form) : EndsFrame form.text := by
  cases form with
  | createTable create guard name blanks =>
      exact ⟨_, '(', rfl, by decide, by decide⟩
  | createTableAs create guard name blanks hblanks as =>
      exact (Word.endsFrame (by decide) as).append _
  | createView create replace view name => exact (Name.endsFrame name).append _
  | insertValues insert name blanks columns hblanks values =>
      exact (Word.endsFrame (by decide) values).append _
  | insertSelect insert name blanks columns hblanks source =>
      obtain ⟨text, spelling, htext, _, hspelling⟩ := QueryWord.word_spec source
      rw [Form.text, ← hspelling]
      exact (Word.endsFrame htext spelling).append _
  | update head name => exact (Name.endsFrame name).append _
  | delete head name => exact (Name.endsFrame name).append _
  | copyFrom copy name blanks hblanks source => exact (Word.endsFrame (by decide) source).append _
  | rename alter name blanks hblanks renameTo target =>
      exact (endsFrame_identText (Ident.identText target)).append _
  | drop head kind word blanks hblanks guard first more =>
      exact endsFrame_more ((Name.endsFrame first).append _) more
  | query word h spelling => exact Word.endsFrame (readOnlyWords_ok word h) spelling

end Frames

section Stmts

theorem EndsWord.of_prefix {rest : Text} (h : rest <+: tail) (htail : EndsWord tables tail) :
    EndsWord tables rest := by
  intro c hc
  obtain ⟨more, rfl⟩ := h
  cases rest with
  | nil => cases hc
  | cons d ds => exact htail c hc

theorem EndsName.of_prefix {rest : Text} (h : rest <+: tail) (htail : EndsName tail) :
    EndsName rest := by
  obtain ⟨more, rfl⟩ := h
  constructor
  · intro c hc
    cases rest with
    | nil => cases hc
    | cons d ds => exact htail.1 c hc
  · intro hdot
    apply htail.2
    rw [List.dropWhile_append]
    cases hrest : rest.dropWhile isSpace with
    | nil =>
        rw [hrest] at hdot
        cases hdot
    | cons c cs =>
        rw [hrest] at hdot
        simpa using hdot

theorem Form.tailOk_of_prefix (form : Form) {rest : Text} (h : rest <+: tail)
    (htail : form.TailOk tables tail) : form.TailOk tables rest := by
  cases form with
  | createTable => trivial
  | createView | update | delete | rename | drop => exact EndsName.of_prefix h htail
  | createTableAs | insertValues | insertSelect | copyFrom | query =>
      exact EndsWord.of_prefix h htail

/-- Whatever stands before and after the deciding text of a statement, `classify` reads the
verb and the first name of the statement. -/
theorem classify_known (noise : List Noise) (form : Form) (htail : form.TailOk tables tail)
    (hform : Form.ValuesApart form) :
    classify tables (noiseText noise ++ form.text ++ tail) = Form.effect tables form := by
  have hframe := Form.startsFrame form
  have hlength : noise.length ≤ (noiseText noise ++ (form.text ++ tail)).length := by
    have := length_noiseText noise
    rw [List.length_append]
    omega
  obtain ⟨rest, hrest, hstripped⟩ := stripped_framed ⟨hframe, Form.endsFrame form⟩
    (noiseText noise) tail (dropNoise_framed (hframe.append tail) noise _ hlength)
  rw [classify, List.append_assoc, hstripped]
  exact classifyStripped_form form hform (Form.tailOk_of_prefix form hrest htail)

end Stmts

end EqGen.Dialects.Cratedb.Strip
