import EqGen.Dialects.Cratedb.Engine
import EqGen.Dialects.Cratedb.Strip

/-! The keys of the fence: what the engine reads in a normalised name. -/

namespace EqGen.Dialects.Cratedb.Keys

open EqGen.Lib.Lines
open EqGen.Lib.Regex
open EqGen.Dialects.Cratedb.Refresh
open EqGen.Dialects.Cratedb.Statement
open EqGen.Dialects.Cratedb.Names
open EqGen.Dialects.Cratedb.Engine
open EqGen.Dialects.Cratedb.Strip

variable {tables : UnicodeTables} {defaultSchema : Text}

/-- What the fence makes of a name denotes the relation the name denotes. -/
def Keyed (tables : UnicodeTables) (defaultSchema : Text) (name : Name) : Prop :=
  readName defaultSchema (normalize tables name.text) = some (name.obj defaultSchema)

/-- An identifier without a dot; only a quoted one can have one. -/
def Ident.Plain (i : Ident) : Prop := '.' ∉ i.text

/-- The part of a key that stands for an identifier. -/
def Ident.key : Ident → Text
  | .bare text _ => text.map Char.toLower
  | .quoted text _ => '"' :: text ++ ['"']

section Parts

theorem toLower_ascii : ∀ n < 128, identPart (Char.ofNat n) = true →
    ((Char.ofNat n).toLower.toNat < 128 ∧ identPart (Char.ofNat n).toLower = true ∧
      (Char.ofNat n).toLower.toLower = (Char.ofNat n).toLower) := by
  decide +kernel

theorem toLower_bare {text : Text} (h : bareText text = true) {c : Char} (hc : c ∈ text) :
    c.toNat < 128 ∧ identPart c.toLower = true ∧ c.toLower.toLower = c.toLower := by
  simp only [bareText, Bool.and_eq_true, List.all_eq_true] at h
  have hascii : c.toNat < 128 := by simpa [isAscii] using h.1.2 c hc
  have hlower := toLower_ascii c.toNat hascii
  rw [Char.ofNat_toNat] at hlower
  exact ⟨hascii, (hlower (h.1.1.2 c hc)).2⟩

theorem strip_eq {text : Text} (hstart : Stops isSpace text) (hend : EndsFrame text) :
    strip text = text := by
  obtain ⟨init, c, rfl, hc, _⟩ := hend
  have hdrop := @rdropWhile_append isSpace init c hc []
  rw [strip, dropWhile_of_stops hstart]
  simpa using hdrop

/-- The blanks around an identifier are stripped. -/
theorem strip_ident (i : Ident) (before after : Blanks) :
    strip (before.text ++ (i.text ++ after.text)) = i.text := by
  obtain ⟨init, c, hinit, hc, _⟩ := endsFrame_identText (Ident.identText i)
  have hafter : after.text.rdropWhile isSpace = [] := by
    rw [List.rdropWhile_eq_nil_iff]
    exact blanks_run after
  rw [strip, dropWhile_run (blanks_run before) (Ident.stops i), hinit, rdropWhile_append hc,
    hafter, List.append_nil]

theorem part_ident (i : Ident) :
    (if i.text.head? = some '"' then i.text else i.text.flatMap tables.lower) = Ident.key i := by
  cases i with
  | bare text h =>
      have hhead : (Ident.bare text h).text.head? ≠ some '"' := by
        have hbare := h
        simp only [bareText, Bool.and_eq_true] at hbare
        intro heq
        rw [Ident.text] at heq
        rw [heq] at hbare
        exact absurd hbare.1.1.1 (by decide)
      rw [if_neg hhead, Ident.text, Ident.key, List.map_eq_flatMap]
      exact List.flatMap_congr fun c hc => tables.lower_ascii c (toLower_bare h hc).1
  | quoted text h => rfl

theorem notMem_blanks (blanks : Blanks) : '.' ∉ blanks.text := by
  intro h
  exact absurd (blanks_run blanks '.' h) (by decide)

end Parts

section Reading

theorem readIdent_key (i : Ident) {rest : Text} (hrest : Stops identPart rest) :
    readIdent (Ident.key i ++ rest) = some (i.canonical, rest) := by
  cases i with
  | bare text h =>
      have hlower : ∀ c ∈ text.map Char.toLower, identPart c = true := by
        intro c hc
        obtain ⟨d, hd, rfl⟩ := List.mem_map.mp hc
        exact (toLower_bare h hd).2.1
      have htwice : (text.map Char.toLower).map Char.toLower = text.map Char.toLower := by
        rw [List.map_map]
        exact List.map_congr_left fun c hc => (toLower_bare h hc).2.2
      have hne : text.map Char.toLower ≠ [] := by
        rw [ne_eq, List.map_eq_nil_iff]
        rintro rfl
        exact absurd h (by decide)
      rw [Ident.key, Ident.canonical]
      generalize text.map Char.toLower = lower at *
      obtain ⟨c, cs, rfl⟩ := List.exists_cons_of_ne_nil hne
      have hquote : c ≠ '"' := by
        rintro rfl
        exact absurd (hlower '"' List.mem_cons_self) (by decide)
      have htake := takeWhile_run hlower hrest
      have hdrop := dropWhile_run hlower hrest
      rw [List.cons_append] at htake hdrop ⊢
      rw [readIdent, if_neg hquote, htake, hdrop, htwice]
  | quoted text h =>
      have hnotQuote : ∀ c ∈ text, notQuote c = true := by
        simp only [quotedText, Bool.and_eq_true, List.all_eq_true] at h
        exact h.2
      have hstops : Stops notQuote ('"' :: rest) := stops_cons.mpr (by decide)
      simp only [Ident.key, Ident.canonical, List.cons_append, List.append_assoc,
        List.nil_append]
      rw [readIdent, if_pos rfl, dropWhile_run hnotQuote hstops, takeWhile_run hnotQuote hstops]

theorem Ident.key_stops (i : Ident) (rest : Text) : Stops isSpace (Ident.key i ++ rest) := by
  cases i with
  | bare text h =>
      cases text with
      | nil => exact absurd h (by decide)
      | cons c cs =>
          refine stops_cons.mpr (isSpace_of_identPart ?_)
          exact (toLower_bare h List.mem_cons_self).2.1
  | quoted text h => exact stops_cons.mpr (by decide)

/-- Names without dots inside their quotes keep their meaning. -/
theorem keyed_of_plain {name : Name} (hident : Ident.Plain name.ident)
    (hschema : ∀ schema ∈ name.schema, Ident.Plain schema.1) :
    Keyed tables defaultSchema name := by
  obtain ⟨schema, ident⟩ := name
  have hempty : ∀ i : Ident, strip i.text = i.text := by
    intro i
    have h := strip_ident i ⟨[], rfl⟩ ⟨[], rfl⟩
    simpa using h
  cases schema with
  | none =>
      have hread := @readIdent_key ident [] (Stops.nil _)
      rw [List.append_nil] at hread
      rw [Keyed, Refresh.normalize, Name.text, hempty, List.splitOn_eq_singleton hident]
      simp only [List.map_cons, List.map_nil, hempty, part_ident, List.intercalate_singleton]
      rw [readName, hread]
      rfl
  | some schema =>
      obtain ⟨schema, b1, b2⟩ := schema
      have hschema : '.' ∉ schema.text ++ b1.text := by
        rw [List.mem_append, not_or]
        exact ⟨hschema _ rfl, notMem_blanks b1⟩
      have hident : '.' ∉ b2.text ++ ident.text := by
        rw [List.mem_append, not_or]
        exact ⟨notMem_blanks b2, hident⟩
      have htext : (Name.mk (some (schema, b1, b2)) ident).text =
          schema.text ++ b1.text ++ '.' :: (b2.text ++ ident.text) := by
        simp [Name.text]
      have hstrip : strip (Name.mk (some (schema, b1, b2)) ident).text =
          (Name.mk (some (schema, b1, b2)) ident).text := by
        refine strip_eq ?_ (Name.endsFrame _)
        rw [htext, List.append_assoc]
        exact Ident.stops schema
      have hfirst : strip (schema.text ++ b1.text) = schema.text := strip_ident schema ⟨[], rfl⟩ b1
      have hsecond : strip (b2.text ++ ident.text) = ident.text := by
        have h := strip_ident ident b2 ⟨[], rfl⟩
        rwa [List.append_nil] at h
      have hreadSchema := @readIdent_key schema ('.' :: Ident.key ident) (stops_cons.mpr (by decide))
      have hreadIdent := @readIdent_key ident [] (Stops.nil _)
      rw [List.append_nil] at hreadIdent
      have hstops := Ident.key_stops ident []
      rw [List.append_nil] at hstops
      rw [Keyed, Refresh.normalize, hstrip, htext, List.splitOn_append_cons_self,
        List.splitOn_eq_singleton hschema, List.splitOn_eq_singleton hident]
      simp only [List.map_cons, List.map_nil, List.cons_append, List.nil_append, hfirst, hsecond,
        part_ident, List.intercalate_cons_cons, List.intercalate_singleton, List.append_assoc]
      rw [readName, hreadSchema]
      simp only [List.dropWhile_cons_of_neg (show ¬ isSpace '.' = true by decide), if_true]
      rw [dropWhile_of_stops hstops, hreadIdent]
      rfl

end Reading

end EqGen.Dialects.Cratedb.Keys
