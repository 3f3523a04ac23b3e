import EqGen.Fuzz.JournalFile

/-!
A corpus read back from text, split at semicolons with comment lines dropped. Two files are
replayed so: the journal of a round and the cache of harvested queries.
-/

namespace EqGen.Fuzz.Corpus

open EqGen.Fuzz.Journal
open EqGen.Fuzz.JournalFile
open EqGen.Lib.Lines

/-- The next line that is not blank is a comment. -/
def beforeComment (lines : List (List Char)) : Bool :=
  match lines.dropWhile isBlank with
  | [] => false
  | line :: _ => isComment line

/--
`_COMMENT_LINE.sub("", text)` on the lines of the text. The blanks in front of the hyphens
may hold newlines, so blank lines above a comment go with it.
-/
def dropComments : List (List Char) → List (List Char)
  | [] => []
  | line :: lines =>
      if isComment line then [] :: dropComments lines
      else if isBlank line && beforeComment lines then dropComments lines
      else line :: dropComments lines

example (lines : List (List Char)) :
    dropComments ("-- a".toList :: lines) = [] :: dropComments lines := by
  rw [dropComments, if_pos (by decide)]

/-- The parts between semicolons, stripped, without empty ones. -/
def parts (text : List Char) : List (List Char) :=
  ((text.splitOn ';').map strip).filter (· ≠ [])

/-- The parts of a text given by its lines. -/
def partsOf (lines : List (List Char)) : List (List Char) :=
  parts (['\n'].intercalate (dropComments lines))

/-- `CorpusSource.from_text(text).queries`. -/
def fromText (text : List Char) : List String :=
  (partsOf (text.splitOn '\n')).map String.ofList

/-- The cache file that harvested queries are written to. -/
def cacheText (harvested : List String) : List Char :=
  (";\n".intercalate harvested ++ ";\n").toList

/-- A query without trailing blanks and semicolons, and without a blank before those. -/
def bare (sql : String) : String := rstrip (trimmed sql)

/-- A query that both readers take for one: a single statement in the splitter's sense. -/
structure Replayable (sql : String) : Prop where
  breaks : ∀ c ∈ sql.toList, isBreak c = true → c = '\n'
  starts : ∃ c text, (trimmed sql).toList = c :: text ∧ isSpace c = false
  noSemicolon : ';' ∉ (trimmed sql).toList
  noComment : NoComment (trimmed sql).toList
  noBlank : ∀ line ∈ ((trimmed sql).toList ++ [';']).splitOn '\n', isBlank line = false

/-- A remark of single-line texts. -/
def PlainRemark : Remark → Prop
  | .note message => SingleLine message.toList
  | .record title _ => SingleLine title.toList

section Strip

theorem strip_cons {c : Char} (hc : isSpace c = true) (text : List Char) :
    strip (c :: text) = strip text := by
  rw [strip, List.dropWhile_cons_of_pos hc, strip]

/-- Without a leading blank only the end is stripped. -/
theorem strip_of_head {c : Char} (hc : isSpace c = false) (text : List Char) :
    strip (c :: text) = (c :: text).rdropWhile isSpace := by
  rw [strip, List.dropWhile_cons_of_neg (by simp [hc])]

end Strip

section Parts

theorem parts_append (text rest : List Char) :
    parts (text ++ ';' :: rest) = parts text ++ parts rest := by
  simp [parts, List.splitOn_append_cons_self]

theorem parts_cons {c : Char} (hc : isSpace c = true) (text : List Char) :
    parts (c :: text) = parts text := by
  have hne : c ≠ ';' := by
    rintro rfl
    exact absurd hc (by decide)
  unfold parts
  rw [List.splitOn_cons_eq_if_modifyHead, if_neg (by simpa using hne)]
  cases hpieces : text.splitOn ';' with
  | nil => exact absurd hpieces (List.splitOn_ne_nil _ _)
  | cons piece pieces =>
      rw [List.modifyHead_cons, List.map_cons, List.map_cons, strip_cons hc]

theorem parts_nil : parts [] = [] := rfl

theorem parts_of_notMem {text : List Char} (h : ';' ∉ text) (hne : strip text ≠ []) :
    parts text = [strip text] := by
  rw [parts, List.splitOn_eq_singleton h]
  simp [hne]

end Parts

section Comments

variable {lines : List (List Char)}

theorem dropComments_eq_self (h : ∀ line ∈ lines, isComment line = false) :
    dropComments lines = lines := by
  induction lines with
  | nil => rfl
  | cons line lines ih =>
      have hrest := ih fun l hl => h l (List.mem_cons_of_mem _ hl)
      have hnone : beforeComment lines = false := by
        unfold beforeComment
        split
        · rfl
        · next l rest heq =>
            have hmem : l ∈ lines.dropWhile isBlank := heq ▸ List.mem_cons_self
            exact h l (List.mem_cons_of_mem _ ((List.dropWhile_suffix _).mem hmem))
      rw [dropComments, if_neg (by simp [h line List.mem_cons_self]), hnone, Bool.and_false,
        if_neg Bool.false_ne_true, hrest]

theorem dropComments_append {kept : List (List Char)}
    (h : ∀ line ∈ kept, isComment line = false ∧ isBlank line = false) :
    dropComments (kept ++ lines) = kept ++ dropComments lines := by
  induction kept with
  | nil => rfl
  | cons line kept ih =>
      obtain ⟨hcomment, hblank⟩ := h line List.mem_cons_self
      rw [List.cons_append, dropComments, if_neg (by simp [hcomment]), hblank, Bool.false_and,
        if_neg Bool.false_ne_true, ih fun l hl => h l (List.mem_cons_of_mem _ hl)]
      rfl

theorem partsOf_comment {line : List Char} (h : isComment line = true) :
    partsOf (line :: lines) = partsOf lines := by
  rw [partsOf, dropComments, if_pos h, partsOf]
  cases dropComments lines with
  | nil => rfl
  | cons first rest =>
      rw [List.intercalate_cons_cons, List.nil_append, List.singleton_append, parts_cons (by decide)]

theorem partsOf_comments {comments : List (List Char)} (h : ∀ line ∈ comments, isComment line = true) :
    partsOf (comments ++ lines) = partsOf lines := by
  induction comments with
  | nil => rfl
  | cons line comments ih =>
      rw [List.cons_append, partsOf_comment (h line List.mem_cons_self)]
      exact ih fun l hl => h l (List.mem_cons_of_mem _ hl)

/-- The lines of one statement make one part. -/
theorem partsOf_statement {text : List Char}
    (h : ∀ line ∈ (text ++ [';']).splitOn '\n', isComment line = false ∧ isBlank line = false) :
    partsOf ((text ++ [';']).splitOn '\n' ++ lines) = parts text ++ partsOf lines := by
  rw [partsOf, dropComments_append h, partsOf]
  cases dropComments lines with
  | nil =>
      rw [List.append_nil, List.intercalate_splitOn, parts_append, List.intercalate_nil]
  | cons first rest =>
      have hjoin : ['\n'].intercalate ((text ++ [';']).splitOn '\n' ++ first :: rest) =
          text ++ ';' :: '\n' :: ['\n'].intercalate (first :: rest) := by
        rw [intercalate_append _ (List.splitOn_ne_nil _ _) (List.cons_ne_nil _ _),
          List.intercalate_splitOn]
        simp
      rw [hjoin, parts_append, parts_cons (by decide)]

end Comments

section Journal

theorem skipped_eq_false {line : List Char} (hcomment : isComment line = false)
    (hblank : isBlank line = false) : skipped line = false := by
  rw [skipped, hblank, Bool.or_false]
  by_contra hprefix
  rw [Bool.not_eq_false, List.isPrefixOf_iff_prefix] at hprefix
  obtain ⟨rest, rfl⟩ := hprefix
  exact absurd hcomment (by simp [isComment, isSpace, spaceCodes])

/-- Lines that are no comments and do not end a statement are collected. -/
theorem foldl_readLine_open {r : Reader} {lines : List (List Char)}
    (h : ∀ line ∈ lines, skipped line = false ∧ ';' ∉ line) :
    lines.foldl readLine r = { r with pending := r.pending ++ lines } := by
  induction lines generalizing r with
  | nil => simp
  | cons line lines ih =>
      obtain ⟨hkept, hopen⟩ := h line List.mem_cons_self
      have hmark : annotationMark.toList.isPrefixOf line ≠ true := by
        intro hmark
        rw [annotation_skipped hmark] at hkept
        exact Bool.noConfusion hkept
      have hnotClosed : [';'].isSuffixOf (line.rdropWhile isSpace) ≠ true := by
        intro hclosed
        have hsuffix := List.isSuffixOf_iff_suffix.mp hclosed
        exact hopen ((List.rdropWhile_prefix _ _).mem (hsuffix.mem List.mem_cons_self))
      have hread : readLine r line = { r with pending := r.pending ++ [line] } := by
        rw [readLine, if_neg hmark, if_neg (by simp [hkept])]
        simp only
        rw [if_neg hnotClosed]
      rw [List.foldl_cons, hread, ih fun l hl => h l (List.mem_cons_of_mem _ hl)]
      simp

variable {sql : String}

/-- The lines of a replayable query in the file. -/
theorem Replayable.lines (h : Replayable sql) :
    ∀ line ∈ ((trimmed sql).toList ++ [';']).splitOn '\n',
      isComment line = false ∧ isBlank line = false := by
  intro line hline
  exact ⟨noComment_append (by decide) h.noComment line hline, h.noBlank line hline⟩

theorem trimmed_isPrefix (sql : String) : (trimmed sql).toList <+: sql.toList := by
  rw [toList_trimmed]
  exact (List.rdropWhile_prefix _ _).trans (List.rdropWhile_prefix _ _)

theorem Replayable.physical_eq (h : Replayable sql) :
    physical ((trimmed sql).toList ++ [';']) =
      ((trimmed sql).toList ++ [';']).splitOn '\n' := by
  refine physical_eq_splitOn fun c hc hbreak => ?_
  rcases List.mem_append.mp hc with hc | hc
  · exact h.breaks c ((trimmed_isPrefix sql).mem hc) hbreak
  · rw [List.mem_singleton.mp hc] at hbreak
    exact absurd hbreak (by decide)

/-- The reader of the journal takes a replayable query for one entry. -/
theorem Replayable.followed (h : Replayable sql) : Followed (.begin sql) := by
  intro r entries hr _
  obtain ⟨lines, last, hlines, hlines'⟩ :=
    splitOn_concat (trimmed sql).toList (c := ';') (by decide)
  have hkept := h.lines
  rw [hlines'] at hkept
  have hopen : ∀ line ∈ lines, skipped line = false ∧ ';' ∉ line := by
    intro line hline
    obtain ⟨hcomment, hblank⟩ := hkept line (by simp [hline])
    refine ⟨skipped_eq_false hcomment hblank, fun hmem => h.noSemicolon ?_⟩
    have hpart : line ∈ (trimmed sql).toList.splitOn '\n' := by
      rw [hlines]
      simp [hline]
    exact mem_of_mem_splitOn hpart hmem
  have hlast := hkept (last ++ [';']) (by simp)
  have hjoined : joined (lines ++ [last ++ [';']]) = trimmed sql := by
    have hsingle := joined_trimmed sql
    rw [joined_singleton] at hsingle
    rw [← hlines', joined, List.intercalate_splitOn, hsingle]
  rw [linesOf_begin, h.physical_eq, hlines', List.foldl_append, foldl_readLine_open hopen,
    List.foldl_cons, List.foldl_nil, readLine_close (skipped_eq_false hlast.1 hlast.2),
    hr.pending_eq, List.nil_append, hjoined, hr.entries_eq]
  exact ⟨rfl, rfl⟩

end Journal

section Query

variable {sql : String}

/-- Of a text of blanks and semicolons nothing is left. -/
theorem parts_eq_nil {text : List Char} (h : ∀ c ∈ text, isSpace c = true ∨ c = ';') :
    parts text = [] := by
  induction text with
  | nil => rfl
  | cons c text ih =>
      have hrest := ih fun d hd => h d (List.mem_cons_of_mem _ hd)
      rcases h c List.mem_cons_self with hspace | rfl
      · rw [parts_cons hspace, hrest]
      · rw [← List.nil_append (';' :: text), parts_append, hrest, parts_nil, List.nil_append]

/-- A query is its trimmed text, semicolons and blanks. -/
theorem exists_tail (sql : String) : ∃ semicolons blanks, sql.toList =
    (trimmed sql).toList ++ (semicolons ++ blanks) ∧ (∀ c ∈ semicolons, c = ';') ∧
      ∀ c ∈ blanks, isSpace c = true := by
  refine ⟨(sql.toList.rdropWhile isSpace).rtakeWhile (· == ';'), sql.toList.rtakeWhile isSpace,
    ?_, ?_, ?_⟩
  · rw [toList_trimmed, ← List.append_assoc, List.rdropWhile_append_rtakeWhile,
      List.rdropWhile_append_rtakeWhile]
  · intro c hc
    simpa using List.mem_rtakeWhile_imp hc
  · intro c hc
    exact List.mem_rtakeWhile_imp hc

theorem toList_bare (sql : String) : (bare sql).toList = (trimmed sql).toList.rdropWhile isSpace := by
  rw [bare, rstrip, String.toList_ofList]

theorem rdropWhile_append_blanks (text : List Char) {blanks : List Char}
    (h : ∀ c ∈ blanks, isSpace c = true) :
    (text ++ blanks).rdropWhile isSpace = text.rdropWhile isSpace := by
  induction blanks using List.reverseRecOn with
  | nil => rw [List.append_nil]
  | append_singleton blanks c ih =>
      rw [← List.append_assoc, List.rdropWhile_concat_pos _ _ _ (h c (by simp))]
      exact ih fun d hd => h d (by simp [hd])

theorem Replayable.strip_eq (h : Replayable sql) {blanks : List Char}
    (hblanks : ∀ c ∈ blanks, isSpace c = true) :
    strip ((trimmed sql).toList ++ blanks) = (bare sql).toList := by
  obtain ⟨c, text, htext, hc⟩ := h.starts
  rw [toList_bare, ← rdropWhile_append_blanks _ hblanks, htext, List.cons_append, strip_of_head hc]

theorem Replayable.bare_ne_nil (h : Replayable sql) : (bare sql).toList ≠ [] := by
  obtain ⟨c, text, htext, hc⟩ := h.starts
  rw [toList_bare, Ne, List.rdropWhile_eq_nil_iff]
  intro hall
  have := hall c (by simp [htext])
  simp [hc] at this

theorem Replayable.notMem_blanks (h : Replayable sql) {blanks : List Char}
    (hblanks : ∀ c ∈ blanks, isSpace c = true) : ';' ∉ (trimmed sql).toList ++ blanks := by
  rw [List.mem_append, not_or]
  exact ⟨h.noSemicolon, fun hmem => absurd (hblanks _ hmem) (by decide)⟩

theorem Replayable.parts_blanks (h : Replayable sql) (blanks : List Char)
    (hblanks : ∀ c ∈ blanks, isSpace c = true) :
    parts ((trimmed sql).toList ++ blanks) = [(bare sql).toList] := by
  rw [parts_of_notMem (h.notMem_blanks hblanks) (by rw [h.strip_eq hblanks]; exact h.bare_ne_nil),
    h.strip_eq hblanks]

theorem Replayable.parts_trimmed (h : Replayable sql) :
    parts (trimmed sql).toList = [(bare sql).toList] := by
  simpa using h.parts_blanks [] (by simp)

theorem Replayable.parts_sql (h : Replayable sql) : parts sql.toList = [(bare sql).toList] := by
  obtain ⟨semicolons, blanks, hsql, hsemicolons, hblanks⟩ := exists_tail sql
  rw [hsql]
  cases semicolons with
  | nil => exact h.parts_blanks blanks hblanks
  | cons c semicolons =>
      have hc := hsemicolons c List.mem_cons_self
      subst hc
      have hrest : parts (semicolons ++ blanks) = [] := by
        refine parts_eq_nil fun d hd => ?_
        rcases List.mem_append.mp hd with hd | hd
        · exact .inr (hsemicolons d (List.mem_cons_of_mem _ hd))
        · exact .inl (hblanks d hd)
      rw [List.cons_append, parts_append, h.parts_trimmed, hrest, List.append_nil]

theorem Replayable.noComment_sql (h : Replayable sql) : NoComment (sql.toList ++ [';']) := by
  obtain ⟨semicolons, blanks, hsql, hsemicolons, hblanks⟩ := exists_tail sql
  refine noComment_append (by decide) ?_
  rw [hsql]
  refine noComment_append ?_ h.noComment
  rw [List.mem_append, not_or]
  exact ⟨fun hmem => absurd (hsemicolons _ hmem) (by decide),
    fun hmem => absurd (hblanks _ hmem) (by decide)⟩

end Query

section Files

/-- The lines of texts that are each written with a newline. -/
theorem splitOn_written (texts : List String) :
    (texts.flatMap fun text => text.toList ++ ['\n']).splitOn '\n' =
      (texts.flatMap fun text => text.toList.splitOn '\n') ++ [[]] := by
  induction texts with
  | nil => rfl
  | cons text texts ih =>
      rw [List.flatMap_cons, List.append_assoc, List.singleton_append,
        List.splitOn_append_cons_self, ih, List.flatMap_cons, List.append_assoc]

/-- Every line of the text is a comment. -/
def CommentText (text : String) : Prop :=
  ∀ line ∈ text.toList.splitOn '\n', isComment line = true

theorem notMem_newline {text : List Char} (h : SingleLine text) : '\n' ∉ text :=
  fun hmem => absurd (h _ hmem) (by decide)

theorem commentText_mark {mark : String} (hsingle : SingleLine mark.toList)
    (hmark : "--".toList <+: mark.toList) {text : String} (h : SingleLine text.toList) :
    CommentText (mark ++ text) := by
  intro line hline
  have hnewline : '\n' ∉ (mark ++ text).toList := by
    rw [String.toList_append, List.mem_append, not_or]
    exact ⟨notMem_newline hsingle, notMem_newline h⟩
  rw [List.splitOn_eq_singleton hnewline, List.mem_singleton] at hline
  obtain ⟨rest, hrest⟩ := hmark
  rw [hline, String.toList_append, ← hrest]
  simp [isComment, isSpace, spaceCodes]

theorem partsOf_commentTexts {texts : List String} (h : ∀ text ∈ texts, CommentText text)
    (lines : List (List Char)) :
    partsOf ((texts.flatMap fun text => text.toList.splitOn '\n') ++ lines) = partsOf lines := by
  refine partsOf_comments fun line hline => ?_
  obtain ⟨text, htext, hmem⟩ := List.mem_flatMap.mp hline
  exact h text htext line hmem

theorem commentText_header {header : String} (h : SingleLine header.toList) :
    ∀ text ∈ writtenHeader header, CommentText text := by
  unfold writtenHeader
  split
  · simp
  · intro text htext
    rw [List.mem_singleton.mp htext]
    exact commentText_mark (by decide) (by decide) h

theorem commentText_remark {remark : Remark} (h : PlainRemark remark) :
    ∀ text ∈ written (.annotate remark), CommentText text := by
  cases remark with
  | note message =>
      intro text htext
      rw [List.mem_singleton.mp htext]
      exact commentText_mark (by decide) (by decide) h
  | record title lines =>
      intro text htext
      rcases List.mem_cons.mp htext with rfl | htext
      · rw [String.append_assoc]
        refine commentText_mark (by decide) (by decide) ?_
        rw [String.toList_append]
        exact singleLine_append h (by decide)
      · obtain ⟨piece, hpiece, rfl⟩ := List.mem_map.mp htext
        obtain ⟨line, -, hline⟩ := List.mem_flatMap.mp hpiece
        exact commentText_mark (by decide) (by decide) (singleLine_recordLines hline)

/-- The statements of a journal, between its comments. -/
theorem partsOf_answered {answered : List (String × String)}
    (h : ∀ query ∈ answered, Replayable query.1 ∧ SingleLine query.2.toList) :
    partsOf (((answered.flatMap fun query => [JournalWrite.begin query.1, .verdict query.2]).flatMap
        written).flatMap (fun text => text.toList.splitOn '\n') ++ [[]]) =
      answered.map fun query => (bare query.1).toList := by
  induction answered with
  | nil => rfl
  | cons query answered ih =>
      obtain ⟨hquery, hverdict⟩ := h query List.mem_cons_self
      have hrest := ih fun q hq => h q (List.mem_cons_of_mem _ hq)
      have hcomment : ∀ text ∈ written (.verdict query.2), CommentText text := by
        intro text htext
        rw [List.mem_singleton.mp htext]
        exact commentText_mark (by decide) (by decide) hverdict
      have hstatement : (trimmed query.1 ++ ";").toList = (trimmed query.1).toList ++ [';'] :=
        String.toList_append
      simp only [List.flatMap_cons, List.cons_append, List.nil_append, List.flatMap_append,
        List.append_assoc]
      rw [written, List.flatMap_singleton, hstatement, partsOf_statement hquery.lines,
        hquery.parts_trimmed, partsOf_commentTexts hcomment, hrest]
      rfl

theorem fromText_journal {header : String} {remarks : List Remark}
    {answered : List (String × String)} (hheader : SingleLine header.toList)
    (hremarks : ∀ remark ∈ remarks, PlainRemark remark)
    (h : ∀ query ∈ answered, Replayable query.1 ∧ SingleLine query.2.toList) :
    fromText (fileText header (roundCalls remarks answered none)) =
      answered.map fun query => bare query.1 := by
  have hremarks' : ∀ text ∈ (remarks.map JournalWrite.annotate).flatMap written,
      CommentText text := by
    intro text htext
    obtain ⟨call, hcall, hmem⟩ := List.mem_flatMap.mp htext
    obtain ⟨remark, hremark, rfl⟩ := List.mem_map.mp hcall
    exact commentText_remark (hremarks remark hremark) text hmem
  rw [fromText, fileText, splitOn_written, List.flatMap_append, List.append_assoc,
    partsOf_commentTexts (commentText_header hheader), roundCalls, Option.toList_none,
    List.map_nil, List.append_nil, List.flatMap_append, List.flatMap_append, List.append_assoc,
    partsOf_commentTexts hremarks', partsOf_answered h, List.map_map]
  simp [Function.comp_def]

theorem toList_cacheText {harvested : List String} (h : harvested ≠ []) :
    cacheText harvested = harvested.flatMap fun sql => sql.toList ++ [';', '\n'] := by
  have hsep : ";\n".toList = [';', '\n'] := rfl
  induction harvested with
  | nil => exact absurd rfl h
  | cons sql rest ih =>
      cases rest with
      | nil => simp [cacheText, hsep]
      | cons next rest =>
          have hrest := ih (List.cons_ne_nil _ _)
          simp only [cacheText, String.toList_append, String.toList_intercalate, List.map_cons,
            List.intercalate_cons_cons, hsep, List.append_assoc] at hrest ⊢
          rw [hrest, List.flatMap_cons (x := sql), List.append_assoc]

theorem fromText_of_noComment {text : List Char} (h : NoComment text) :
    fromText text = (parts text).map String.ofList := by
  rw [fromText, partsOf, dropComments_eq_self h, List.intercalate_splitOn]

theorem fromText_cache {harvested : List String} (h : ∀ sql ∈ harvested, Replayable sql) :
    fromText (cacheText harvested) = harvested.map bare := by
  have hcache : NoComment (harvested.flatMap fun sql => sql.toList ++ [';', '\n']) ∧
      parts (harvested.flatMap fun sql => sql.toList ++ [';', '\n']) =
        harvested.map fun sql => (bare sql).toList := by
    induction harvested with
    | nil => exact ⟨by simp [NoComment, isComment], rfl⟩
    | cons sql harvested ih =>
        obtain ⟨hnone, hparts⟩ := ih fun q hq => h q (List.mem_cons_of_mem _ hq)
        have hsql := h sql List.mem_cons_self
        rw [List.flatMap_cons, List.append_assoc, List.cons_append, List.singleton_append]
        constructor
        · intro line hline
          rw [List.append_cons, List.splitOn_append_cons_self] at hline
          rcases List.mem_append.mp hline with hline | hline
          · exact hsql.noComment_sql line hline
          · exact hnone line hline
        · rw [parts_append, hsql.parts_sql, parts_cons (by decide), hparts]
          rfl
  cases harvested with
  | nil => decide +kernel
  | cons sql rest =>
      rw [toList_cacheText (List.cons_ne_nil _ _), fromText_of_noComment hcache.1, hcache.2,
        List.map_map]
      simp [Function.comp_def]

/-- A text without carriage returns is read as it was written. -/
def NoReturn (text : List Char) : Prop := '\r' ∉ text

theorem noReturn_of_singleLine {text : List Char} (h : SingleLine text) : NoReturn text :=
  fun hmem => absurd (h _ hmem) (by decide)

theorem noReturn_append {text rest : List Char} (h : NoReturn text) (h' : NoReturn rest) :
    NoReturn (text ++ rest) := by
  rw [NoReturn, List.mem_append, not_or]
  exact ⟨h, h'⟩

theorem Replayable.noReturn {sql : String} (h : Replayable sql) : NoReturn sql.toList := by
  intro hmem
  exact absurd (h.breaks _ hmem (by decide)) (by decide)

theorem noReturn_mark {mark text : String} (hmark : SingleLine mark.toList)
    (h : SingleLine text.toList) : NoReturn (mark ++ text).toList := by
  rw [String.toList_append]
  exact noReturn_of_singleLine (singleLine_append hmark h)

theorem noReturn_remark {remark : Remark} (h : PlainRemark remark) :
    ∀ text ∈ written (.annotate remark), NoReturn text.toList := by
  cases remark with
  | note message =>
      intro text htext
      rw [List.mem_singleton.mp htext]
      exact noReturn_mark (by decide) h
  | record title lines =>
      intro text htext
      rcases List.mem_cons.mp htext with rfl | htext
      · rw [String.append_assoc]
        refine noReturn_mark (by decide) ?_
        rw [String.toList_append]
        exact singleLine_append h (by decide)
      · obtain ⟨piece, hpiece, rfl⟩ := List.mem_map.mp htext
        obtain ⟨line, -, hline⟩ := List.mem_flatMap.mp hpiece
        exact noReturn_mark (by decide) (singleLine_recordLines hline)

theorem noReturn_flatMap {texts : List String} (h : ∀ text ∈ texts, NoReturn text.toList) :
    NoReturn (texts.flatMap fun text => text.toList ++ ['\n']) := by
  intro hmem
  obtain ⟨text, htext, hmem⟩ := List.mem_flatMap.mp hmem
  exact noReturn_append (h text htext) (by simp [NoReturn]) hmem

variable {header : String} {remarks : List Remark} {answered : List (String × String)}

theorem noReturn_fileText (hheader : SingleLine header.toList)
    (hremarks : ∀ remark ∈ remarks, PlainRemark remark)
    (h : ∀ query ∈ answered, Replayable query.1 ∧ SingleLine query.2.toList) :
    NoReturn (fileText header (roundCalls remarks answered none)) := by
  refine noReturn_flatMap fun text htext => ?_
  rcases List.mem_append.mp htext with htext | htext
  · unfold writtenHeader at htext
    split at htext
    · simp at htext
    · rw [List.mem_singleton.mp htext]
      exact noReturn_mark (by decide) hheader
  · obtain ⟨call, hcall, hmem⟩ := List.mem_flatMap.mp htext
    simp only [roundCalls, Option.toList_none, List.map_nil, List.append_nil, List.mem_append,
      List.mem_map, List.mem_flatMap] at hcall
    rcases hcall with ⟨remark, hremark, rfl⟩ | ⟨query, hquery, hcall⟩
    · exact noReturn_remark (hremarks remark hremark) text hmem
    · obtain ⟨hsql, hverdict⟩ := h query hquery
      rcases List.mem_cons.mp hcall with rfl | hcall
      · rw [List.mem_singleton.mp hmem, String.toList_append]
        exact noReturn_append (fun hr => hsql.noReturn ((trimmed_isPrefix _).mem hr))
          (by simp [NoReturn])
      · rw [List.mem_singleton.mp hcall] at hmem
        rw [List.mem_singleton.mp hmem]
        exact noReturn_mark (by decide) hverdict

theorem noReturn_cacheText {harvested : List String} (h : ∀ sql ∈ harvested, Replayable sql) :
    NoReturn (cacheText harvested) := by
  cases harvested with
  | nil => simp [NoReturn, cacheText]
  | cons sql rest =>
      rw [toList_cacheText (List.cons_ne_nil _ _)]
      intro hmem
      obtain ⟨q, hq, hmem⟩ := List.mem_flatMap.mp hmem
      exact noReturn_append (h q hq).noReturn (by simp [NoReturn]) hmem

theorem continuesSkipped_of_singleLine {text : String} (h : SingleLine text.toList) :
    ContinuesSkipped text := by
  simp [ContinuesSkipped, physical_of_singleLine h]

/-- The reader of the journal gives back the queries of the round. -/
theorem queries_journal (hheader : SingleLine header.toList)
    (hremarks : ∀ remark ∈ remarks, PlainRemark remark)
    (h : ∀ query ∈ answered, Replayable query.1 ∧ SingleLine query.2.toList) :
    queriesFromJournal (fileText header (roundCalls remarks answered none)) =
      answered.map fun query => trimmed query.1 := by
  have hfollowed : ∀ call ∈ roundCalls remarks answered none, Followed call := by
    intro call hcall
    simp only [roundCalls, Option.toList_none, List.map_nil, List.append_nil, List.mem_append,
      List.mem_map, List.mem_flatMap] at hcall
    rcases hcall with ⟨remark, hremark, rfl⟩ | ⟨query, hquery, hcall⟩
    · have hclean : CleanCall (.annotate remark) := by
        cases remark with
        | note message => exact continuesSkipped_of_singleLine (hremarks _ hremark)
        | record title lines =>
            refine continuesSkipped_of_singleLine ?_
            rw [String.toList_append]
            exact singleLine_append (hremarks _ hremark) (by decide)
      exact fun r entries hr hallowed => (cleanCall_followed hr hallowed hclean).1
    · obtain ⟨hsql, hverdict⟩ := h query hquery
      rcases List.mem_cons.mp hcall with rfl | hcall
      · exact hsql.followed
      · rw [List.mem_singleton.mp hcall]
        exact fun r entries hr hallowed => (cleanCall_followed hr hallowed hverdict).1
  have hsynced := synced_of_followed (legal_roundCalls remarks answered none)
    (continuesSkipped_of_singleLine hheader) hfollowed _ [] (List.append_nil _).symm
  rw [queriesFromJournal, universalNewlines_of_notMem (noReturn_fileText hheader hremarks h),
    parse_of_synced hsynced, entriesOf_roundCalls]
  simp

/--
Replayable queries come back from the journal of a round, by either reader, and from the
cache; the two readers agree up to trailing blanks.
-/
theorem corpus_replays (header : String) (remarks : List Remark) (answered : List (String × String))
    (hheader : SingleLine header.toList) (hremarks : ∀ remark ∈ remarks, PlainRemark remark)
    (h : ∀ query ∈ answered, Replayable query.1 ∧ SingleLine query.2.toList) :
    let journal := fileText header (roundCalls remarks answered none)
    let cache := cacheText (answered.map Prod.fst)
    fromText (universalNewlines journal) = (answered.map fun query => bare query.1) ∧
      (queriesFromJournal journal).map rstrip = fromText (universalNewlines journal) ∧
      fromText (universalNewlines cache) = answered.map fun query => bare query.1 := by
  have hqueries : ∀ sql ∈ answered.map Prod.fst, Replayable sql := by
    intro sql hsql
    obtain ⟨query, hquery, rfl⟩ := List.mem_map.mp hsql
    exact (h query hquery).1
  have hjournal := fromText_journal hheader hremarks h
  simp only [universalNewlines_of_notMem (noReturn_fileText hheader hremarks h),
    universalNewlines_of_notMem (noReturn_cacheText hqueries), queries_journal hheader hremarks h,
    hjournal, fromText_cache hqueries, List.map_map, true_and]
  exact ⟨rfl, rfl⟩

theorem breaks_of_all {sql : String}
    (h : sql.toList.all (fun c => !isBreak c || c == '\n') = true) :
    ∀ c ∈ sql.toList, isBreak c = true → c = '\n' := by
  intro c hc hbreak
  simpa [hbreak] using List.all_eq_true.mp h c hc

theorem corpus_replays_two :
    fromText (universalNewlines (cacheText ["SELECT 1,\n  2 ;", "SELECT c FROM t"])) =
      [bare "SELECT 1,\n  2 ;", bare "SELECT c FROM t"] := by
  refine (corpus_replays "replay" [.note "builders: view 1"]
    [("SELECT 1,\n  2 ;", "PASS"), ("SELECT c FROM t", "MISMATCH: 1 distinct only in base")]
    (by decide) ?_ ?_).2.2
  · intro remark hremark
    rw [List.mem_singleton.mp hremark]
    show SingleLine _
    decide
  · intro query hquery
    rcases List.mem_cons.mp hquery with rfl | hquery
    · refine ⟨⟨breaks_of_all (by decide +kernel),
        ⟨'S', "ELECT 1,\n  2 ".toList, by decide +kernel, by decide⟩, ?_, ?_, ?_⟩, by decide +kernel⟩
      · decide +kernel
      · unfold NoComment
        decide +kernel
      · decide +kernel
    · rw [List.mem_singleton.mp hquery]
      refine ⟨⟨breaks_of_all (by decide +kernel),
        ⟨'S', "ELECT c FROM t".toList, by decide +kernel, by decide⟩, ?_, ?_, ?_⟩, by decide +kernel⟩
      · decide +kernel
      · unfold NoComment
        decide +kernel
      · decide +kernel

/-- A semicolon inside a literal ends a query for the splitter. -/
theorem corpus_splits_literal :
    fromText (universalNewlines (fileText "" (roundCalls [] [("SELECT ';'", "PASS")] none))) ≠
      [bare "SELECT ';'"] := by
  decide +kernel

end Files

end EqGen.Fuzz.Corpus
