import Mathlib.Algebra.Order.BigOperators.Group.List
import Mathlib.Algebra.Order.Ring.Nat
import EqGen.Lib.Lines
import EqGen.Fuzz.Journal

/-!
The bytes of a journal and the reader that gets the queries back. Queries, annotations and
blocks are told apart by how a line begins, so what a text holds beyond its first line
decides whether the reader still follows the writer.
-/

namespace EqGen.Fuzz.JournalFile

open EqGen.Fuzz.Journal
open EqGen.Lib.Lines

/-- Prefix marking an annotation line. -/
def annotationMark : String := "-- => "

section Writer

/-- A query as the journal holds it. -/
def trimmed (sql : String) : String := rstripChar ';' (rstrip sql)

/-- `str(line).splitlines() or [""]`. -/
def recordLines (line : String) : List String :=
  if splitlines line.toList = [] then [""] else (splitlines line.toList).map String.ofList

/-- What one call hands to `_write`, a text for each. -/
def written : JournalWrite → List String
  | .begin sql => [trimmed sql ++ ";"]
  | .verdict text => [annotationMark ++ text]
  | .annotate (.note message) => [annotationMark ++ message]
  | .annotate (.record title lines) =>
      ("-- ==== " ++ title ++ " ====") :: (lines.flatMap recordLines).map ("--   " ++ ·)

/-- The header the file is opened with. -/
def writtenHeader (header : String) : List String :=
  if header = "" then [] else ["-- " ++ header]

/-- The file after the given calls. -/
def fileText (header : String) (calls : List JournalWrite) : List Char :=
  (writtenHeader header ++ calls.flatMap written).flatMap fun text => text.toList ++ ['\n']

/-- The calls of one round: remarks while it is set up, then every query with its verdict;
the last query may be without one. -/
def roundCalls (remarks : List Remark) (answered : List (String × String))
    (last : Option String) : List JournalWrite :=
  remarks.map .annotate ++ answered.flatMap (fun query => [.begin query.1, .verdict query.2]) ++
    last.toList.map .begin

end Writer

section Reader

/-- One query from a journal, with its verdict if it got one. -/
structure JournalEntry where
  sql : String
  annotation : Option String := none
  deriving DecidableEq

/-- The entries read so far, and the lines of an entry that is not closed yet. -/
structure Reader where
  entries : List JournalEntry := []
  pending : List (List Char) := []

/-- Annotate the last entry. -/
def annotateLast (entries : List JournalEntry) (text : String) : List JournalEntry :=
  match entries.getLast? with
  | none => entries
  | some entry => entries.dropLast ++ [⟨entry.sql, some text⟩]

/-- The query that the pending lines make. -/
def joined (pending : List (List Char)) : String :=
  trimmed (String.ofList (['\n'].intercalate pending))

/-- A line that is no part of a query. -/
def skipped (line : List Char) : Bool :=
  "--".toList.isPrefixOf line || isBlank line

/-- One turn of the loop of `parse_journal`. -/
def readLine (r : Reader) (line : List Char) : Reader :=
  if annotationMark.toList.isPrefixOf line then
    if r.entries ≠ [] ∧ r.pending = [] then
      { r with entries := annotateLast r.entries (String.ofList (line.drop annotationMark.length)) }
    else r
  else if skipped line then r
  else
    let pending := r.pending ++ [line]
    if [';'].isSuffixOf (line.rdropWhile isSpace) then
      { entries := r.entries ++ [⟨joined pending, none⟩], pending := [] }
    else { r with pending := pending }

/-- What is still pending at the end makes an entry as well. -/
def finish (r : Reader) : List JournalEntry :=
  if r.pending = [] then r.entries else r.entries ++ [⟨joined r.pending, none⟩]

def parseLines (lines : List (List Char)) : List JournalEntry :=
  finish (lines.foldl readLine {})

/-- Read a log file back into entries. -/
def parseJournal (text : List Char) : List JournalEntry := parseLines (splitlines text)

/-- Every query a journal recorded. -/
def queriesFromJournal (file : List Char) : List String :=
  (parseJournal (universalNewlines file)).map (·.sql)

end Reader

section Contract

/-- One call, in terms of the entries the journal should give back. -/
def logged (entries : List JournalEntry) : JournalWrite → List JournalEntry
  | .begin sql => entries ++ [⟨trimmed sql, none⟩]
  | .verdict text => annotateLast entries text
  | .annotate _ => entries

/-- The queries begun, each with the annotation given to its end. -/
def entriesOf (calls : List JournalWrite) : List JournalEntry := calls.foldl logged []

/-- The lines that texts leave in the file. -/
def linesOf (texts : List String) : List (List Char) :=
  texts.flatMap fun text => physical text.toList

def fileLines (header : String) (calls : List JournalWrite) : List (List Char) :=
  linesOf (writtenHeader header ++ calls.flatMap written)

/--
The file gives back what was logged; cut after any of its lines it gives back what had been
logged then, the call that is cut through counting as done or as not begun.
-/
structure RoundTrips (header : String) (calls : List JournalWrite) : Prop where
  whole : parseJournal (fileText header calls) = entriesOf calls
  inHeader : ∀ n ≤ (fileLines header []).length,
    parseLines ((splitlines (fileText header calls)).take n) = []
  inCall : ∀ done next rest, calls = done ++ next :: rest →
    ∀ k ≤ (linesOf (written next)).length,
      let cut := parseLines
        ((splitlines (fileText header calls)).take ((fileLines header done).length + k))
      cut = entriesOf done ∨ 0 < k ∧ cut = entriesOf (done ++ [next])

/-- Beyond its first line, the text is skipped by the reader. -/
def ContinuesSkipped (text : String) : Prop :=
  ∀ line ∈ (physical text.toList).tail, skipped line = true

/-- What a call may be given for the reader to follow. -/
def CleanCall : JournalWrite → Prop
  | .begin sql => SingleLine (trimmed sql).toList ∧
      "--".toList.isPrefixOf (trimmed sql).toList = false
  | .verdict text => SingleLine text.toList
  | .annotate (.note message) => ContinuesSkipped message
  | .annotate (.record title _) => ContinuesSkipped (title ++ " ====")

structure Clean (header : String) (calls : List JournalWrite) : Prop where
  header : ContinuesSkipped header
  calls : ∀ call ∈ calls, CleanCall call

end Contract

example : parseJournal "-- header\nSELECT 1;\n-- => PASS\nSELECT 2;\n".toList =
    [⟨"SELECT 1", some "PASS"⟩, ⟨"SELECT 2", none⟩] := by decide +kernel

section Lines

theorem splitlines_written (texts : List String) (rest : List Char) :
    splitlines ((texts.flatMap fun text => text.toList ++ ['\n']) ++ rest) =
      linesOf texts ++ splitlines rest := by
  induction texts with
  | nil => rfl
  | cons text texts ih =>
      rw [List.flatMap_cons, List.append_assoc, List.append_assoc, List.singleton_append,
        splitlines_append_newline, ih, ← List.append_assoc]
      rfl

theorem splitlines_fileText (header : String) (calls : List JournalWrite) :
    splitlines (fileText header calls) = fileLines header calls := by
  have := splitlines_written (writtenHeader header ++ calls.flatMap written) []
  rwa [List.append_nil, splitlines, List.append_nil] at this

@[simp]
theorem linesOf_append (texts more : List String) :
    linesOf (texts ++ more) = linesOf texts ++ linesOf more :=
  List.flatMap_append

theorem fileLines_append (header : String) (done rest : List JournalWrite) :
    fileLines header (done ++ rest) = fileLines header done ++ linesOf (rest.flatMap written) := by
  simp [fileLines]

theorem fileLines_concat (header : String) (done : List JournalWrite) (next : JournalWrite) :
    fileLines header (done ++ [next]) = fileLines header done ++ linesOf (written next) := by
  simp [fileLines_append]

/-- The lines before a cut inside a call. -/
theorem take_fileLines (header : String) (done rest : List JournalWrite) (next : JournalWrite)
    {k : Nat} (hk : k ≤ (linesOf (written next)).length) :
    (fileLines header (done ++ next :: rest)).take ((fileLines header done).length + k) =
      fileLines header done ++ (linesOf (written next)).take k := by
  rw [fileLines_append, List.take_length_add_append, List.flatMap_cons, linesOf_append,
    List.take_append_of_le_length hk]

end Lines

section Reading

/-- The reader after some lines of a file that holds no open entry. -/
structure Synced (r : Reader) (entries : List JournalEntry) : Prop where
  entries_eq : r.entries = entries
  pending_eq : r.pending = []

theorem Synced.finish {r : Reader} {entries : List JournalEntry} (h : Synced r entries) :
    finish r = entries := by
  rw [JournalFile.finish, if_pos h.pending_eq, h.entries_eq]

theorem readLine_of_skipped {r : Reader} {line : List Char} (hr : r.entries = [])
    (h : skipped line = true) : readLine r line = r := by
  simp [readLine, hr, h]

theorem foldl_readLine_of_skipped {r : Reader} {lines : List (List Char)} (hr : r.entries = [])
    (h : ∀ line ∈ lines, skipped line = true) : lines.foldl readLine r = r := by
  induction lines with
  | nil => rfl
  | cons line lines ih =>
      rw [List.foldl_cons, readLine_of_skipped hr (h line List.mem_cons_self)]
      exact ih fun l hl => h l (List.mem_cons_of_mem _ hl)

theorem annotation_skipped {line : List Char} (h : annotationMark.toList.isPrefixOf line = true) :
    skipped line = true := by
  rw [List.isPrefixOf_iff_prefix] at h
  have hdash : "--".toList <+: annotationMark.toList := by decide
  rw [skipped, List.isPrefixOf_iff_prefix.mpr (hdash.trans h), Bool.true_or]

/-- A line that is not skipped is part of the last entry. -/
theorem finish_readLine {r : Reader} {line : List Char} (h : skipped line = false) :
    finish (readLine r line) = r.entries ++ [⟨joined (r.pending ++ [line]), none⟩] := by
  have hmark : annotationMark.toList.isPrefixOf line ≠ true := by
    intro hmark
    rw [annotation_skipped hmark] at h
    exact Bool.noConfusion h
  rw [readLine, if_neg hmark, if_neg (by simp [h])]
  simp only
  split
  · rfl
  · rw [finish, if_neg (by simp)]

theorem readLine_annotation {r : Reader} {entries : List JournalEntry} (h : Synced r entries)
    (hne : entries ≠ []) (text : List Char) :
    Synced (readLine r (annotationMark.toList ++ text))
      (annotateLast entries (String.ofList text)) := by
  have hmark : annotationMark.toList.isPrefixOf (annotationMark.toList ++ text) = true :=
    List.isPrefixOf_iff_prefix.mpr (List.prefix_append _ _)
  rw [readLine, if_pos hmark, if_pos ⟨h.entries_eq ▸ hne, h.pending_eq⟩]
  have htext : (annotationMark.toList ++ text).drop annotationMark.length = text :=
    List.drop_left' String.length_toList
  refine ⟨?_, h.pending_eq⟩
  rw [h.entries_eq, htext]

/-- Lines that leave the file without entries at every cut are all skipped. -/
theorem forall_skipped {r : Reader} {lines : List (List Char)} (hr : Synced r [])
    (h : ∀ k ≤ lines.length, finish ((lines.take k).foldl readLine r) = []) :
    ∀ line ∈ lines, skipped line = true := by
  induction lines with
  | nil => simp
  | cons line lines ih =>
      have hfirst : skipped line = true := by
        by_contra hkept
        have hcut := h 1 (by simp)
        rw [List.take_one, List.head?_cons, Option.toList_some, List.foldl_cons, List.foldl_nil,
          finish_readLine (by simpa using hkept)] at hcut
        simp at hcut
      have hsame := readLine_of_skipped hr.entries_eq hfirst
      intro l hl
      rcases List.mem_cons.mp hl with rfl | hl
      · exact hfirst
      · refine ih (fun k hk => ?_) l hl
        have hcut := h (k + 1) (by simpa using hk)
        rwa [List.take_succ_cons, List.foldl_cons, hsame] at hcut

end Reading

section Calls

/-- The reader after the lines of some calls. -/
def readerAt (header : String) (done : List JournalWrite) : Reader :=
  (fileLines header done).foldl readLine {}

/-- Texts behind a mark that opens a comment. -/
theorem physical_mark {mark : String} (hmark : SingleLine mark.toList) (text : String) :
    physical (mark ++ text).toList =
      (mark.toList ++ (physical text.toList).headD []) :: (physical text.toList).tail := by
  rw [String.toList_append, physical_append hmark]

theorem skipped_append {mark : List Char} (hmark : "--".toList <+: mark) (text : List Char) :
    skipped (mark ++ text) = true := by
  have h : "--".toList.isPrefixOf (mark ++ text) = true :=
    List.isPrefixOf_iff_prefix.mpr (hmark.trans (List.prefix_append _ _))
  rw [skipped, h, Bool.true_or]

/-- All lines of a marked text are skipped if those after its first one are. -/
theorem forall_skipped_mark {mark : String} (hsingle : SingleLine mark.toList)
    (hmark : "--".toList <+: mark.toList) (text : String) :
    (∀ line ∈ physical (mark ++ text).toList, skipped line = true) ↔ ContinuesSkipped text := by
  rw [physical_mark hsingle, List.forall_mem_cons, and_iff_right (skipped_append hmark _)]
  rfl

theorem singleLine_recordLines {line piece : String} (h : piece ∈ recordLines line) :
    SingleLine piece.toList := by
  unfold recordLines at h
  split at h
  · rw [List.mem_singleton.mp h]
    decide
  · obtain ⟨l, hl, rfl⟩ := List.mem_map.mp h
    rw [String.toList_ofList]
    exact singleLine_of_mem_splitlines hl

/-- The lines of a block are skipped if the title goes on in comments. -/
theorem skipped_recordLines (lines : List String) :
    ∀ line ∈ linesOf ((lines.flatMap recordLines).map ("--   " ++ ·)), skipped line = true := by
  intro line hline
  obtain ⟨text, htext, hmem⟩ := List.mem_flatMap.mp hline
  obtain ⟨piece, hpiece, rfl⟩ := List.mem_map.mp htext
  obtain ⟨source, -, hsource⟩ := List.mem_flatMap.mp hpiece
  rw [physical_mark (by decide), physical_of_singleLine (singleLine_recordLines hsource)] at hmem
  rw [List.mem_singleton.mp hmem]
  exact skipped_append (by decide) _

/-- The header is clean if and only if its lines are skipped. -/
theorem header_skipped (header : String) :
    (∀ line ∈ linesOf (writtenHeader header), skipped line = true) ↔ ContinuesSkipped header := by
  unfold writtenHeader
  split
  · next h =>
      subst h
      simp [linesOf, ContinuesSkipped, physical_nil]
  · rw [linesOf, List.flatMap_singleton, forall_skipped_mark (by decide) (by decide)]

/-- A remark is clean if and only if its lines are skipped. -/
theorem remark_skipped (remark : Remark) :
    (∀ line ∈ linesOf (written (.annotate remark)), skipped line = true) ↔
      CleanCall (.annotate remark) := by
  cases remark with
  | note message =>
      rw [written, linesOf, List.flatMap_singleton, forall_skipped_mark (by decide) (by decide)]
      rfl
  | record title lines =>
      have htitle : "-- ==== " ++ title ++ " ====" = "-- ==== " ++ (title ++ " ====") :=
        String.append_assoc
      rw [written, linesOf, List.flatMap_cons, List.forall_mem_append, htitle,
        forall_skipped_mark (by decide) (by decide)]
      exact and_iff_left (skipped_recordLines lines)

end Calls

section Begin

theorem rdropWhile_concat_semicolon (text : List Char) :
    (text ++ [';']).rdropWhile isSpace = text ++ [';'] :=
  List.rdropWhile_concat_neg _ _ _ (by decide)

theorem toList_trimmed (sql : String) :
    (trimmed sql).toList = (sql.toList.rdropWhile isSpace).rdropWhile (· == ';') := by
  simp [trimmed, rstripChar, rstrip]

/-- What the journal holds of a query is read back as it is. -/
theorem trimmed_semicolon (sql : String) : trimmed (trimmed sql ++ ";") = trimmed sql := by
  apply String.toList_injective
  have hsemicolon : ";".toList = [';'] := rfl
  rw [toList_trimmed, String.toList_append, hsemicolon, rdropWhile_concat_semicolon,
    List.rdropWhile_concat_pos _ _ _ (by decide), toList_trimmed, List.rdropWhile_idempotent]

theorem joined_singleton (line : List Char) : joined [line] = trimmed (String.ofList line) := by
  simp [joined]

theorem joined_trimmed (sql : String) :
    joined [(trimmed sql).toList ++ [';']] = trimmed sql := by
  have htext : String.ofList ((trimmed sql).toList ++ [';']) = trimmed sql ++ ";" :=
    String.toList_injective (by simp)
  rw [joined_singleton, htext, trimmed_semicolon]

theorem length_joined_le (line : List Char) : (joined [line]).toList.length ≤ line.length := by
  rw [joined_singleton, toList_trimmed, String.toList_ofList]
  exact ((List.rdropWhile_prefix _ _).trans (List.rdropWhile_prefix _ _)).length_le

theorem length_joined_concat_le (line : List Char) :
    (joined [line ++ [';']]).toList.length ≤ line.length := by
  rw [joined_singleton, toList_trimmed, String.toList_ofList, rdropWhile_concat_semicolon,
    List.rdropWhile_concat_pos _ _ _ (by decide)]
  exact (List.rdropWhile_prefix _ _).length_le

/-- A line that ends in a semicolon is skipped only if it begins as a comment. -/
theorem skipped_concat (text : List Char) :
    skipped (text ++ [';']) = "--".toList.isPrefixOf text := by
  have hblank : isBlank (text ++ [';']) = false := by
    simp only [isBlank, List.all_append]
    have : [';'].all isSpace = false := by decide
    rw [this, Bool.and_false]
  rw [skipped, hblank, Bool.or_false]
  match text with
  | [] => rfl
  | [c] => simp [List.isPrefixOf]
  | c :: d :: text => simp [List.isPrefixOf]

/-- A closed line makes an entry of it and the lines before it. -/
theorem readLine_close {r : Reader} {text : List Char} (h : skipped (text ++ [';']) = false) :
    readLine r (text ++ [';']) =
      { entries := r.entries ++ [⟨joined (r.pending ++ [text ++ [';']]), none⟩], pending := [] } := by
  have hmark : annotationMark.toList.isPrefixOf (text ++ [';']) ≠ true := by
    intro hmark
    rw [annotation_skipped hmark] at h
    exact Bool.noConfusion h
  have hclosed : [';'].isSuffixOf ((text ++ [';']).rdropWhile isSpace) = true := by
    rw [rdropWhile_concat_semicolon, List.isSuffixOf_iff_suffix]
    exact List.suffix_append _ _
  rw [readLine, if_neg hmark, if_neg (by simp [h])]
  simp only
  rw [if_pos hclosed]

theorem readLine_concat {r : Reader} {entries : List JournalEntry} (hr : Synced r entries)
    {text : List Char} (h : skipped (text ++ [';']) = false) :
    Synced (readLine r (text ++ [';'])) (entries ++ [⟨joined [text ++ [';']], none⟩]) := by
  rw [readLine_close h, hr.entries_eq, hr.pending_eq]
  exact ⟨rfl, rfl⟩

theorem linesOf_begin (sql : String) :
    linesOf (written (.begin sql)) = physical ((trimmed sql).toList ++ [';']) := by
  rw [written, linesOf, List.flatMap_singleton, String.toList_append]
  rfl

theorem length_annotateLast (entries : List JournalEntry) (text : String) :
    (annotateLast entries text).length = entries.length := by
  unfold annotateLast
  split
  · rfl
  · next entry hentry =>
      have hpos := List.length_pos_of_mem (List.mem_of_getLast? hentry)
      rw [List.length_append, List.length_dropLast, List.length_singleton]
      omega

/-- A skipped line may annotate the last entry again, and does nothing else. -/
theorem readLine_skipped {r : Reader} {entries : List JournalEntry} (hr : Synced r entries)
    {line : List Char} (h : skipped line = true) :
    ∃ entries', Synced (readLine r line) entries' ∧ entries'.length = entries.length := by
  unfold readLine
  split
  · split
    · exact ⟨_, ⟨rfl, hr.pending_eq⟩, by rw [length_annotateLast, hr.entries_eq]⟩
    · exact ⟨entries, hr, rfl⟩
  · exact ⟨entries, by simpa [h] using hr, rfl⟩

/-- Where every cut gives the entries before or one more, that one is read off a single line. -/
theorem exists_kept {r : Reader} {entries : List JournalEntry} {lines : List (List Char)}
    (entry : JournalEntry) (hr : Synced r entries)
    (hcut : ∀ k ≤ lines.length, finish ((lines.take k).foldl readLine r) = entries ∨
      finish ((lines.take k).foldl readLine r) = entries ++ [entry])
    (hall : finish (lines.foldl readLine r) = entries ++ [entry]) :
    ∃ line ∈ lines, skipped line = false ∧ joined [line] = entry.sql := by
  induction lines generalizing r with
  | nil =>
      rw [List.foldl_nil, hr.finish] at hall
      simp at hall
  | cons line lines ih =>
      have hfirst := hcut 1 (by simp)
      rw [List.take_one, List.head?_cons, Option.toList_some, List.foldl_cons,
        List.foldl_nil] at hfirst
      cases hline : skipped line with
      | true =>
          obtain ⟨entries', hr', hlength⟩ := readLine_skipped hr hline
          rw [hr'.finish] at hfirst
          have hsame : entries' = entries := by
            rcases hfirst with h | h
            · exact h
            · rw [h] at hlength
              simp at hlength
          subst hsame
          obtain ⟨l, hl, hkept⟩ := ih hr' (fun k hk => hcut (k + 1) (by simpa using hk)) hall
          exact ⟨l, List.mem_cons_of_mem _ hl, hkept⟩
      | false =>
          rw [finish_readLine hline, hr.entries_eq, hr.pending_eq] at hfirst
          rcases hfirst with h | h
          · simp at h
          · refine ⟨line, List.mem_cons_self, hline, ?_⟩
            rw [List.append_cancel_left_eq, List.singleton_inj] at h
            rw [← h]
            rfl

/-- A query is read off a single line only if it is one. -/
theorem singleLine_of_joined {sql : String} {line : List Char}
    (hmem : line ∈ physical ((trimmed sql).toList ++ [';']))
    (hjoined : joined [line] = trimmed sql) :
    SingleLine (trimmed sql).toList ∧ line = (trimmed sql).toList ++ [';'] := by
  have hlength : (joined [line]).toList.length = (trimmed sql).toList.length := by rw [hjoined]
  have hweight := length_physical_le ((trimmed sql).toList ++ [';'])
  obtain ⟨lines, last, hlines⟩ := physical_concat (trimmed sql).toList (c := ';') (by decide)
  rw [hlines] at hmem hweight
  simp only [List.map_append, List.map_cons, List.map_nil, List.sum_append, List.sum_cons,
    List.sum_nil, List.length_append, List.length_singleton] at hweight
  rcases List.mem_append.mp hmem with hmem | hmem
  · -- Another line follows, so this one is shorter than the query.
    have hle : line.length + 1 ≤ (lines.map fun l => l.length + 1).sum :=
      List.single_le_sum (fun n _ => Nat.zero_le n) _ (List.mem_map_of_mem hmem)
    have hjoin := length_joined_le line
    omega
  · rw [List.mem_singleton] at hmem
    subst hmem
    have hjoin := length_joined_concat_le last
    have hnil : lines = [] := by
      cases lines with
      | nil => rfl
      | cons first rest =>
          simp only [List.map_cons, List.sum_cons] at hweight
          omega
    subst hnil
    have hsingle := singleLine_of_physical (by decide) hlines
    refine ⟨hsingle, ?_⟩
    rw [physical_of_singleLine (singleLine_concat hsingle (by decide)), List.nil_append,
      List.singleton_inj] at hlines
    exact hlines.symm

end Begin

section Steps

/-- When a call can come, given the entries before it. -/
def Allowed (entries : List JournalEntry) : JournalWrite → Prop
  | .begin _ => True
  | .verdict _ => ∃ before sql, entries = before ++ [⟨sql, none⟩]
  | .annotate _ => entries = []

theorem annotateLast_concat (before : List JournalEntry) (sql text : String) :
    annotateLast (before ++ [⟨sql, none⟩]) text = before ++ [⟨sql, some text⟩] := by
  simp [annotateLast]

/-- The reader over one line of a cut: before it or after it. -/
theorem cut_singleton (r : Reader) (line : List Char) {k : Nat} (hk : k ≤ 1) :
    k = 0 ∧ ([line].take k).foldl readLine r = r ∨
      0 < k ∧ ([line].take k).foldl readLine r = readLine r line := by
  rcases Nat.le_one_iff_eq_zero_or_eq_one.mp hk with rfl | rfl
  · exact .inl ⟨rfl, rfl⟩
  · exact .inr ⟨Nat.one_pos, rfl⟩

/-- The reader keeps up with the writer over the call. -/
def Followed (call : JournalWrite) : Prop :=
  ∀ r entries, Synced r entries → Allowed entries call →
    Synced ((linesOf (written call)).foldl readLine r) (logged entries call)

/-- A clean call is followed: cut inside it, and after it. -/
theorem cleanCall_followed {r : Reader} {entries : List JournalEntry} {call : JournalWrite}
    (hr : Synced r entries) (hallowed : Allowed entries call) (hclean : CleanCall call) :
    Synced ((linesOf (written call)).foldl readLine r) (logged entries call) ∧
      ∀ k ≤ (linesOf (written call)).length,
        let cut := finish (((linesOf (written call)).take k).foldl readLine r)
        cut = entries ∨ 0 < k ∧ cut = logged entries call := by
  -- One line that takes the reader to the entries after the call.
  have hline {line : List Char} (hlines : linesOf (written call) = [line])
      (hafter : Synced (readLine r line) (logged entries call)) :
      Synced ((linesOf (written call)).foldl readLine r) (logged entries call) ∧
        ∀ k ≤ (linesOf (written call)).length,
          let cut := finish (((linesOf (written call)).take k).foldl readLine r)
          cut = entries ∨ 0 < k ∧ cut = logged entries call := by
    rw [hlines]
    refine ⟨hafter, fun k hk => ?_⟩
    rcases cut_singleton r line hk with ⟨-, h⟩ | ⟨hpos, h⟩
    · exact .inl (by rw [h, hr.finish])
    · exact .inr ⟨hpos, by rw [h, hafter.finish]⟩
  cases call with
  | begin sql =>
      have hlines : linesOf (written (.begin sql)) = [(trimmed sql).toList ++ [';']] := by
        rw [linesOf_begin, physical_of_singleLine (singleLine_concat hclean.1 (by decide))]
      have hafter := readLine_concat hr (by rw [skipped_concat]; exact hclean.2)
      rw [joined_trimmed] at hafter
      exact hline hlines hafter
  | verdict text =>
      obtain ⟨before, sql, rfl⟩ := hallowed
      have hlines : linesOf (written (.verdict text)) = [annotationMark.toList ++ text.toList] := by
        rw [written, linesOf, List.flatMap_singleton, physical_mark (by decide),
          physical_of_singleLine hclean]
        rfl
      have hafter := readLine_annotation hr (by simp) text.toList
      rw [String.ofList_toList] at hafter
      exact hline hlines hafter
  | annotate remark =>
      have hskipped := (remark_skipped remark).mpr hclean
      have hentries : r.entries = [] := hr.entries_eq.trans hallowed
      refine ⟨?_, fun k hk => .inl ?_⟩
      · rw [foldl_readLine_of_skipped hentries hskipped]
        exact hr
      · rw [foldl_readLine_of_skipped hentries fun line hline =>
          hskipped line (List.mem_of_mem_take hline), hr.finish]

/-- A call that is followed at every cut is clean. -/
theorem cleanCall_of_followed {r : Reader} {entries : List JournalEntry} {call : JournalWrite}
    (hr : Synced r entries) (hallowed : Allowed entries call)
    (hcut : ∀ k ≤ (linesOf (written call)).length,
      let cut := finish (((linesOf (written call)).take k).foldl readLine r)
      cut = entries ∨ 0 < k ∧ cut = logged entries call)
    (hall : finish ((linesOf (written call)).foldl readLine r) = logged entries call) :
    CleanCall call := by
  cases call with
  | begin sql =>
      obtain ⟨line, hmem, hkept, hjoined⟩ := exists_kept ⟨trimmed sql, none⟩ hr
        (fun k hk => (hcut k hk).imp_right And.right) hall
      rw [linesOf_begin] at hmem
      obtain ⟨hsingle, hline⟩ := singleLine_of_joined hmem hjoined
      rw [hline, skipped_concat] at hkept
      exact ⟨hsingle, hkept⟩
  | verdict text =>
      obtain ⟨before, sql, rfl⟩ := hallowed
      have hlines : linesOf (written (.verdict text)) =
          (annotationMark.toList ++ (physical text.toList).headD []) :: (physical text.toList).tail := by
        rw [written, linesOf, List.flatMap_singleton, physical_mark (by decide)]
      have hfirst := hcut 1 (by rw [hlines]; simp)
      have hread := readLine_annotation hr (by simp) ((physical text.toList).headD [])
      rw [annotateLast_concat] at hread
      rw [hlines, List.take_one, List.head?_cons, Option.toList_some, List.foldl_cons,
        List.foldl_nil] at hfirst
      simp only [hread.finish, logged, annotateLast_concat] at hfirst
      have htext : (physical text.toList).headD [] = text.toList := by
        rcases hfirst with h | ⟨-, h⟩
        · simp at h
        · rw [List.append_cancel_left_eq, List.singleton_inj] at h
          have := congrArg JournalEntry.annotation h
          rw [← String.toList_ofList (l := (physical text.toList).headD []),
            Option.some.inj this]
      obtain ⟨first, rest, hphysical⟩ := List.exists_cons_of_ne_nil (physical_ne_nil text.toList)
      rw [hphysical, List.headD_cons] at htext
      show SingleLine text.toList
      rw [← htext]
      have hmem : first ∈ splitlines (text.toList ++ ['\n']) := by
        rw [physical] at hphysical
        simp [hphysical]
      exact singleLine_of_mem_splitlines hmem
  | annotate remark =>
      rw [← remark_skipped]
      have hempty : entries = [] := hallowed
      subst hempty
      exact forall_skipped hr fun k hk => (hcut k hk).elim id And.right

end Steps

section Rounds

/-- Calls of which each can come after those before it. -/
def Legal : List JournalEntry → List JournalWrite → Prop
  | _, [] => True
  | entries, call :: calls => Allowed entries call ∧ Legal (logged entries call) calls

theorem legal_answered (answered : List (String × String)) (last : Option String)
    (entries : List JournalEntry) :
    Legal entries (answered.flatMap (fun query => [.begin query.1, .verdict query.2]) ++
      last.toList.map .begin) := by
  induction answered generalizing entries with
  | nil =>
      cases last with
      | none => exact trivial
      | some sql => exact ⟨trivial, trivial⟩
  | cons query answered ih => exact ⟨trivial, ⟨entries, _, rfl⟩, ih _⟩

theorem legal_roundCalls (remarks : List Remark) (answered : List (String × String))
    (last : Option String) : Legal [] (roundCalls remarks answered last) := by
  rw [roundCalls, List.append_assoc]
  induction remarks with
  | nil => exact legal_answered answered last []
  | cons remark remarks ih => exact ⟨rfl, ih⟩

/-- The queries of a round, each with its verdict. -/
theorem entriesOf_roundCalls (remarks : List Remark) (answered : List (String × String))
    (last : Option String) : entriesOf (roundCalls remarks answered last) =
      answered.map (fun query => ⟨trimmed query.1, some query.2⟩) ++
        last.toList.map fun sql => ⟨trimmed sql, none⟩ := by
  have hremarks (entries : List JournalEntry) :
      (remarks.map JournalWrite.annotate).foldl logged entries = entries := by
    induction remarks with
    | nil => rfl
    | cons remark remarks ih => exact ih
  have hanswered (entries : List JournalEntry) :
      (answered.flatMap fun query => [JournalWrite.begin query.1, .verdict query.2]).foldl logged
        entries = entries ++ answered.map fun query => ⟨trimmed query.1, some query.2⟩ := by
    induction answered generalizing entries with
    | nil => simp
    | cons query answered ih =>
        simp only [List.flatMap_cons, List.cons_append, List.nil_append, List.foldl_cons, logged,
          annotateLast_concat, ih, List.map_cons, List.append_assoc]
  rw [entriesOf, roundCalls, List.foldl_append, List.foldl_append, hremarks, hanswered]
  cases last <;> simp [logged]

theorem Legal.allowed {entries : List JournalEntry} {done rest : List JournalWrite}
    {next : JournalWrite} (h : Legal entries (done ++ next :: rest)) :
    Allowed (done.foldl logged entries) next := by
  induction done generalizing entries with
  | nil => exact h.1
  | cons call done ih => exact ih h.2

theorem entriesOf_concat (done : List JournalWrite) (next : JournalWrite) :
    entriesOf (done ++ [next]) = logged (entriesOf done) next := by
  simp [entriesOf]

theorem readerAt_concat (header : String) (done : List JournalWrite) (next : JournalWrite) :
    readerAt header (done ++ [next]) = (linesOf (written next)).foldl readLine
      (readerAt header done) := by
  rw [readerAt, fileLines_concat, List.foldl_append]
  rfl

theorem fileLines_nil (header : String) : fileLines header [] = linesOf (writtenHeader header) := by
  simp [fileLines]

/-- What is read of a file cut inside a call. -/
theorem parse_cut (header : String) (done rest : List JournalWrite) (next : JournalWrite) {k : Nat}
    (hk : k ≤ (linesOf (written next)).length) :
    parseLines ((splitlines (fileText header (done ++ next :: rest))).take
        ((fileLines header done).length + k)) =
      finish (((linesOf (written next)).take k).foldl readLine (readerAt header done)) := by
  rw [splitlines_fileText, take_fileLines header done rest next hk, parseLines, List.foldl_append]
  rfl

variable {header : String} {calls : List JournalWrite}

theorem synced_nil (h : ContinuesSkipped header) : Synced (readerAt header []) [] := by
  rw [readerAt, fileLines_nil, foldl_readLine_of_skipped rfl ((header_skipped header).mpr h)]
  exact ⟨rfl, rfl⟩

theorem synced_of_followed (hlegal : Legal [] calls) (hheader : ContinuesSkipped header)
    (h : ∀ call ∈ calls, Followed call) (done rest : List JournalWrite)
    (hcalls : calls = done ++ rest) : Synced (readerAt header done) (entriesOf done) := by
  induction done using List.reverseRecOn generalizing rest with
  | nil => exact synced_nil hheader
  | append_singleton done next ih =>
      rw [List.append_assoc] at hcalls
      rw [readerAt_concat, entriesOf_concat]
      have hnext : next ∈ calls := by simp [hcalls]
      exact h next hnext _ _ (ih _ hcalls) (hcalls ▸ hlegal).allowed

/-- The reader of a clean file keeps up with the writer. -/
theorem synced_of_clean (hlegal : Legal [] calls) (h : Clean header calls)
    (done rest : List JournalWrite) (hcalls : calls = done ++ rest) :
    Synced (readerAt header done) (entriesOf done) :=
  synced_of_followed hlegal h.header
    (fun call hcall _ _ hr hallowed => (cleanCall_followed hr hallowed (h.calls call hcall)).1)
    done rest hcalls

theorem parse_of_synced (h : Synced (readerAt header calls) (entriesOf calls)) :
    parseJournal (fileText header calls) = entriesOf calls := by
  rw [parseJournal, splitlines_fileText, parseLines]
  exact h.finish

theorem take_header (header : String) (calls : List JournalWrite) {n : Nat}
    (hn : n ≤ (fileLines header []).length) :
    (splitlines (fileText header calls)).take n = (linesOf (writtenHeader header)).take n := by
  rw [splitlines_fileText, ← List.nil_append calls, fileLines_append, fileLines_nil,
    List.take_append_of_le_length (by rwa [fileLines_nil] at hn)]

theorem roundTrips_of_clean (hlegal : Legal [] calls) (h : Clean header calls) :
    RoundTrips header calls := by
  refine ⟨?_, ?_, ?_⟩
  · exact parse_of_synced (synced_of_clean hlegal h calls [] (by simp))
  · intro n hn
    rw [take_header header calls hn, parseLines, foldl_readLine_of_skipped rfl fun line hline =>
      (header_skipped header).mpr h.header line (List.mem_of_mem_take hline)]
    rfl
  · rintro done next rest rfl k hk
    rw [parse_cut header done rest next hk, entriesOf_concat]
    exact (cleanCall_followed (synced_of_clean hlegal h done _ rfl) hlegal.allowed
      (h.calls next (by simp))).2 k hk

theorem continuesSkipped_of_roundTrips (h : RoundTrips header calls) : ContinuesSkipped header := by
  rw [← header_skipped]
  refine forall_skipped (r := {}) ⟨rfl, rfl⟩ fun k hk => ?_
  have hn : k ≤ (fileLines header []).length := by rwa [fileLines_nil]
  have hcut := h.inHeader k hn
  rwa [take_header header calls hn] at hcut

/-- Between two calls the file gives back exactly what was logged. -/
theorem finish_readerAt (h : RoundTrips header calls) (done rest : List JournalWrite)
    (hcalls : calls = done ++ rest) :
    finish (readerAt header done) = entriesOf done := by
  cases rest with
  | nil =>
      rw [List.append_nil] at hcalls
      have hwhole := h.whole
      rwa [parseJournal, splitlines_fileText, hcalls] at hwhole
  | cons next rest =>
      have hcut := h.inCall done next rest hcalls 0 (Nat.zero_le _)
      subst hcalls
      rw [parse_cut header done rest next (Nat.zero_le _), List.take_zero] at hcut
      exact hcut.elim id fun hzero => absurd hzero.1 (Nat.lt_irrefl 0)

/-- A reader that agrees at every cut keeps up with the writer, whose calls are clean. -/
theorem synced_of_roundTrips (hlegal : Legal [] calls) (h : RoundTrips header calls)
    (hheader : ContinuesSkipped header) (done rest : List JournalWrite)
    (hcalls : calls = done ++ rest) :
    Synced (readerAt header done) (entriesOf done) ∧ ∀ call ∈ done, CleanCall call := by
  induction done using List.reverseRecOn generalizing rest with
  | nil => exact ⟨synced_nil hheader, by simp⟩
  | append_singleton done next ih =>
      rw [List.append_assoc, List.singleton_append] at hcalls
      obtain ⟨hsynced, hclean⟩ := ih _ hcalls
      have hallowed : Allowed (entriesOf done) next := (hcalls ▸ hlegal).allowed
      have hcut := h.inCall done next rest hcalls
      have hall := finish_readerAt h (done ++ [next]) rest (by simp [hcalls])
      rw [readerAt_concat, entriesOf_concat] at hall
      subst hcalls
      have hnext : CleanCall next := by
        refine cleanCall_of_followed hsynced hallowed (fun k hk => ?_) hall
        have := hcut k hk
        rwa [parse_cut header done rest next hk, entriesOf_concat] at this
      rw [readerAt_concat, entriesOf_concat]
      refine ⟨(cleanCall_followed hsynced hallowed hnext).1, fun call hcall => ?_⟩
      rcases List.mem_append.mp hcall with hcall | hcall
      · exact hclean call hcall
      · rwa [List.mem_singleton.mp hcall]

/-- A round's journal gives its queries back, whole or cut, if and only if no text goes on
beyond its line but in comments, and no query begins as one. -/
theorem roundTrips_iff (header : String) (remarks : List Remark)
    (answered : List (String × String)) (last : Option String) :
    RoundTrips header (roundCalls remarks answered last) ↔
      Clean header (roundCalls remarks answered last) := by
  have hlegal := legal_roundCalls remarks answered last
  constructor
  · intro h
    have hheader := continuesSkipped_of_roundTrips h
    exact ⟨hheader, (synced_of_roundTrips hlegal h hheader _ [] (by simp)).2⟩
  · exact roundTrips_of_clean hlegal

/-- The second line of a driver's error is read back as a query. -/
theorem roundTrips_fails : ¬ RoundTrips "eqgen journal" (roundCalls []
    [("SELECT c FROM t", "ERROR (equivalent): no such column: c\nLINE 1: SELECT c FROM t"),
      ("SELECT 1", "PASS")] none) := by
  intro h
  have hwhole := h.whole
  revert hwhole
  decide +kernel

end Rounds

end EqGen.Fuzz.JournalFile
