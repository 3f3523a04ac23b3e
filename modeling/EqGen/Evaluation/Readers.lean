import Mathlib.Algebra.BigOperators.Group.Finset.Basic
import Mathlib.Algebra.Order.Ring.Nat
import Mathlib.Data.Finset.Prod
import Mathlib.Data.List.Pairwise
import EqGen.Evaluation.Lcov
import EqGen.Lib.Dict

/-!
`instrumented_by_file` and `hit_lines_from_lcov_report` of `gcov.py`, and when they agree with the
report that they read.
-/

namespace EqGen.Evaluation.Readers

open EqGen.Evaluation.Lcov
open EqGen.Lib.Dict

section Keys

/-- `str(path)` of the parts of an absolute path: the anchor and the names below it. -/
def absolute : List String → String
  | [] => "."
  | anchor :: names => anchor ++ "/".intercalate names

/-- `str(path.relative_to(root))` -/
def relativeTo (parts root : List String) : Option String :=
  if root.isPrefixOf parts then
    match parts.drop root.length with
    | [] => some "."
    | names => some ("/".intercalate names)
  else none

/--
The key of a file, and none for a name that the readers skip. `resolve` gives the parts of
`Path(name).resolve()`, which depend on the links in the file system.
-/
def fileKey (resolve : String → List String) (root rawName : String) : Option String :=
  if rawName = "" then none
  else if rawName.toList.head? = some '/' then
    some ((relativeTo (resolve rawName) (resolve root)).getD (absolute (resolve rawName)))
  else some rawName

end Keys

variable (resolve : String → List String) (root : String)

/-- `instrumented_by_file` -/
def instrumentedByFile (report : Report) : Dictionary String ℕ :=
  report.files.foldl (fun totals row =>
    match fileKey resolve root row.filename with
    | none => totals
    | some key => totals.insert key (max (getD totals key 0) row.lines.length)) ∅

/-- `hit_lines_from_lcov_report` -/
def hitLines (report : Report) : Finset (String × Int) × ℕ :=
  report.files.foldl (fun (hit, instrumented) row =>
    match fileKey resolve root row.filename with
    | none => (hit, instrumented)
    | some key =>
      (row.lines.foldl (fun hit line =>
          if line.count ≠ 0 then insert (key, line.lineNumber) hit else hit) hit,
        instrumented + row.lines.length)) (∅, 0)

/-- No file is in the text twice, and no line of a file. -/
structure DistinctRecords (files : List Source) : Prop where
  filenames : (files.map Source.filename).Nodup
  lines : ∀ file ∈ files, (file.lines.map Line.lineNumber).Nodup

/-- The readers and the report say the same. -/
structure ReadersAgree (report : Report) : Prop where
  file_covered : ∀ row ∈ report.files, row.lineCovered =
    ((hitLines resolve root report).1.filter fun entry =>
      fileKey resolve root row.filename = some entry.1).card
  line_covered : report.lineCovered = (hitLines resolve root report).1.card
  line_total : report.lineTotal = (hitLines resolve root report).2
  by_file : report.lineTotal = (values (instrumentedByFile resolve root report)).sum
  summed : report.Summed
  lines_le : report.lineCovered ≤ report.lineTotal ∧
    ∀ row ∈ report.files, row.lineCovered ≤ row.lineTotal
  branches_le : report.branchCovered ≤ report.branchTotal ∧
    ∀ row ∈ report.files, row.branchCovered ≤ row.branchTotal
  functions_le : report.functionCovered ≤ report.functionTotal ∧
    ∀ row ∈ report.files, row.functionCovered ≤ row.functionTotal

/--
No hit count is negative, a file without a name has no lines, and of two files with one key at
least one has no lines and neither has a line that was hit.
-/
structure Readable (files : List Source) : Prop where
  nonneg : ∀ file ∈ files, ∀ line ∈ file.lines, 0 ≤ line.count
  named : ∀ file ∈ files, file.filename = "" → file.lines = []
  apart : ∀ file ∈ files, ∀ file' ∈ files, file.filename ≠ file'.filename →
    fileKey resolve root file.filename = fileKey resolve root file'.filename →
      (file.lines = [] ∨ file'.lines = []) ∧ ∀ line ∈ file.lines, line.count = 0

section Sets

/-- The lines of a row that count as hit. -/
def rowHits (row : FileRow) : Finset (String × Int) :=
  match fileKey resolve root row.filename with
  | none => ∅
  | some key =>
    ((row.lines.filter fun line => line.count ≠ 0).map fun line => (key, line.lineNumber)).toFinset

variable {resolve root}

theorem mem_rowHits {row : FileRow} {entry : String × Int} :
    entry ∈ rowHits resolve root row ↔ fileKey resolve root row.filename = some entry.1 ∧
      ∃ line ∈ row.lines, line.count ≠ 0 ∧ line.lineNumber = entry.2 := by
  obtain ⟨key, number⟩ := entry
  unfold rowHits
  split
  · next hkey => simp [hkey]
  · next key' hkey =>
      simp only [List.mem_toFinset, List.mem_map, List.mem_filter, decide_eq_true_eq, hkey,
        Prod.mk.injEq, Option.some.injEq]
      constructor
      · rintro ⟨line, ⟨hline, hcount⟩, rfl, rfl⟩
        exact ⟨rfl, line, hline, hcount, rfl⟩
      · rintro ⟨rfl, line, hline, hcount, rfl⟩
        exact ⟨line, ⟨hline, hcount⟩, rfl, rfl⟩

theorem mem_foldl_lines (key : String) (lines : List Line) (hit : Finset (String × Int))
    (entry : String × Int) :
    entry ∈ lines.foldl (fun hit line =>
        if line.count ≠ 0 then insert (key, line.lineNumber) hit else hit) hit ↔
      entry ∈ hit ∨ key = entry.1 ∧ ∃ line ∈ lines, line.count ≠ 0 ∧ line.lineNumber = entry.2 := by
  obtain ⟨key', number⟩ := entry
  induction lines generalizing hit with
  | nil => simp
  | cons line lines ih =>
      rw [List.foldl_cons, ih]
      by_cases hcount : line.count = 0
      · simp [hcount]
      · simp only [hcount, ne_eq, not_false_eq_true, if_true, Finset.mem_insert, Prod.mk.injEq,
          List.exists_mem_cons_iff, true_and]
        constructor
        · rintro ((⟨rfl, rfl⟩ | h) | ⟨rfl, h⟩)
          · exact .inr ⟨rfl, .inl rfl⟩
          · exact .inl h
          · exact .inr ⟨rfl, .inr h⟩
        · rintro (h | ⟨rfl, rfl | h⟩)
          · exact .inl (.inr h)
          · exact .inl (.inl ⟨rfl, rfl⟩)
          · exact .inr ⟨rfl, h⟩

/-- The number of lines of a row that the readers count. -/
def counted (resolve : String → List String) (root : String) (row : FileRow) : ℕ :=
  if (fileKey resolve root row.filename).isSome then row.lines.length else 0

/-- One row is read. -/
def readRow (resolve : String → List String) (root : String) :
    Finset (String × Int) × ℕ → FileRow → Finset (String × Int) × ℕ
  | (hit, instrumented), row =>
    match fileKey resolve root row.filename with
    | none => (hit, instrumented)
    | some key =>
      (row.lines.foldl (fun hit line =>
          if line.count ≠ 0 then insert (key, line.lineNumber) hit else hit) hit,
        instrumented + row.lines.length)

theorem readRow_spec (read : Finset (String × Int) × ℕ) (row : FileRow) :
    (∀ entry, entry ∈ (readRow resolve root read row).1 ↔
        entry ∈ read.1 ∨ entry ∈ rowHits resolve root row) ∧
      (readRow resolve root read row).2 = read.2 + counted resolve root row := by
  unfold readRow counted
  simp only [mem_rowHits]
  cases hkey : fileKey resolve root row.filename with
  | none => simp
  | some key => simpa using mem_foldl_lines key row.lines read.1

theorem foldl_readRow_spec (rows : List FileRow) (read : Finset (String × Int) × ℕ) :
    (∀ entry, entry ∈ (rows.foldl (readRow resolve root) read).1 ↔
        entry ∈ read.1 ∨ ∃ row ∈ rows, entry ∈ rowHits resolve root row) ∧
      (rows.foldl (readRow resolve root) read).2 =
        read.2 + (rows.map (counted resolve root)).sum := by
  induction rows generalizing read with
  | nil => simp
  | cons row rows ih =>
      obtain ⟨hhit, hcount⟩ := @readRow_spec resolve root read row
      obtain ⟨ihHit, ihCount⟩ := ih (readRow resolve root read row)
      rw [List.foldl_cons, ihCount, hcount, List.map_cons, List.sum_cons, Nat.add_assoc]
      refine ⟨fun entry => ?_, rfl⟩
      rw [ihHit, hhit, List.exists_mem_cons_iff, or_assoc]

theorem hitLines_eq (report : Report) :
    hitLines resolve root report = report.files.foldl (readRow resolve root) (∅, 0) := rfl

theorem mem_hitLines {report : Report} {entry : String × Int} :
    entry ∈ (hitLines resolve root report).1 ↔
      ∃ row ∈ report.files, entry ∈ rowHits resolve root row := by
  have h := (@foldl_readRow_spec resolve root report.files (∅, 0)).1 entry
  rw [hitLines_eq, h]
  simp

theorem instrumented_hitLines (report : Report) :
    (hitLines resolve root report).2 = (report.files.map (counted resolve root)).sum := by
  rw [hitLines_eq, (@foldl_readRow_spec resolve root report.files (∅, 0)).2, Nat.zero_add]

/-- The entries that the readers take from a report. -/
def keyed (resolve : String → List String) (root : String) (rows : List FileRow) :
    List (String × ℕ) :=
  rows.filterMap fun row =>
    (fileKey resolve root row.filename).map fun key => (key, row.lines.length)

theorem instrumentedByFile_eq (report : Report) :
    instrumentedByFile resolve root report = collect (keyed resolve root report.files) := by
  rw [instrumentedByFile, keyed, collect, List.foldl_filterMap]
  congr 1
  funext totals row
  cases fileKey resolve root row.filename <;> rfl

theorem sum_keyed (rows : List FileRow) :
    ((keyed resolve root rows).map Prod.snd).sum = (rows.map (counted resolve root)).sum := by
  induction rows with
  | nil => rfl
  | cons row rows ih =>
      rw [keyed, List.filterMap_cons, List.map_cons, List.sum_cons, ← ih, counted]
      cases fileKey resolve root row.filename with
      | none => simp [keyed]
      | some key => simp [keyed]

theorem sum_counted_eq_iff (rows : List FileRow) :
    (rows.map fun row => row.lines.length).sum = (rows.map (counted resolve root)).sum ↔
      ∀ row ∈ rows, row.filename = "" → row.lines = [] := by
  have hle (row : FileRow) : counted resolve root row ≤ row.lines.length := by
    unfold counted
    split <;> omega
  have heq (row : FileRow) : row.lines.length = counted resolve root row ↔
      (row.filename = "" → row.lines = []) := by
    unfold counted fileKey
    by_cases hname : row.filename = ""
    · simp [hname]
    · by_cases hroot : row.filename.toList.head? = some '/' <;> simp [hname, hroot]
  induction rows with
  | nil => simp
  | cons row rows ih =>
      have hrows : (rows.map (counted resolve root)).sum ≤
          (rows.map fun row => row.lines.length).sum :=
        List.sum_le_sum fun row _ => hle row
      have hrow := hle row
      rw [List.map_cons, List.sum_cons, List.map_cons, List.sum_cons, List.forall_mem_cons]
      constructor
      · intro hsum
        exact ⟨(heq row).mp (by omega), ih.mp (by omega)⟩
      · rintro ⟨hname, hnames⟩
        have hfirst := (heq row).mpr hname
        have hrest := ih.mpr hnames
        omega

end Sets

section Agreement

variable {resolve root} {report : Report}

theorem sum_lineTotal (hcounted : ∀ row ∈ report.files, row.Counted) (hsummed : report.Summed) :
    report.lineTotal = (report.files.map fun row => row.lines.length).sum := by
  rw [hsummed.lineTotal]
  congr 1
  exact List.map_congr_left fun row hrow => (hcounted row hrow).lineTotal

/-- The totals agree unless lines of a nameless file or of two files with one key are counted. -/
theorem totals_agree_iff (hcounted : ∀ row ∈ report.files, row.Counted)
    (hsummed : report.Summed) :
    (report.lineTotal = (hitLines resolve root report).2 ∧
        report.lineTotal = (values (instrumentedByFile resolve root report)).sum) ↔
      (∀ row ∈ report.files, row.filename = "" → row.lines = []) ∧
        (keyed resolve root report.files).Pairwise fun entry entry' =>
          entry.1 = entry'.1 → entry.2 = 0 ∨ entry'.2 = 0 := by
  rw [sum_lineTotal hcounted hsummed, instrumented_hitLines, instrumentedByFile_eq,
    sum_counted_eq_iff, ← sum_values_collect_eq_iff, sum_keyed]
  refine and_congr_right fun hnamed => ?_
  rw [(sum_counted_eq_iff report.files).mpr hnamed]
  exact eq_comm

theorem pairwise_keyed_iff (hnames : (report.files.map FileRow.filename).Nodup) :
    ((keyed resolve root report.files).Pairwise fun entry entry' =>
        entry.1 = entry'.1 → entry.2 = 0 ∨ entry'.2 = 0) ↔
      ∀ row ∈ report.files, ∀ row' ∈ report.files, row.filename ≠ row'.filename →
        ∀ key, fileKey resolve root row.filename = some key →
          fileKey resolve root row'.filename = some key → row.lines = [] ∨ row'.lines = [] := by
  rw [keyed, List.pairwise_filterMap]
  simp only [Option.map_eq_some_iff]
  constructor
  · intro h row hrow row' hrow' hne key hkey hkey'
    have hsymm : Std.Symm fun row row' : FileRow => ∀ entry,
        (∃ key, fileKey resolve root row.filename = some key ∧ (key, row.lines.length) = entry) →
          ∀ entry', (∃ key, fileKey resolve root row'.filename = some key ∧
            (key, row'.lines.length) = entry') →
              entry.1 = entry'.1 → entry.2 = 0 ∨ entry'.2 = 0 :=
      ⟨fun row row' h entry hentry entry' hentry' heq =>
        (h entry' hentry' entry hentry heq.symm).symm⟩
    have := h.forall hrow hrow' (fun heq => hne (congrArg FileRow.filename heq))
      (key, row.lines.length) ⟨key, hkey, rfl⟩ (key, row'.lines.length) ⟨key, hkey', rfl⟩ rfl
    simpa using this
  · intro h
    refine (List.Nodup.of_map _ hnames).pairwise_of_forall_ne fun row hrow row' hrow' hne => ?_
    rintro entry ⟨key, hkey, rfl⟩ entry' ⟨key', hkey', rfl⟩ heq
    have hname : row.filename ≠ row'.filename :=
      fun hname => hne (List.inj_on_of_nodup_map hnames hrow hrow' hname)
    have hsame : key = key' := heq
    subst hsame
    simpa using h row hrow row' hrow' hname key hkey hkey'

theorem fileKey_eq_none_iff {name : String} : fileKey resolve root name = none ↔ name = "" := by
  unfold fileKey
  split
  · next h => simp [h]
  · next h => split <;> simp [h]

theorem card_rowHits {row : FileRow} (hlines : (row.lines.map Line.lineNumber).Nodup)
    (hname : row.filename ≠ "") :
    (rowHits resolve root row).card = row.lines.countP fun line => line.count ≠ 0 := by
  obtain ⟨key, hkey⟩ :=
    Option.ne_none_iff_exists'.mp fun h => hname ((@fileKey_eq_none_iff resolve root _).mp h)
  have hnodup : ((row.lines.filter fun line => line.count ≠ 0).map fun line =>
      (key, line.lineNumber)).Nodup := by
    have hfilter : ((row.lines.filter fun line => line.count ≠ 0).map Line.lineNumber).Nodup :=
      hlines.sublist (List.filter_sublist.map Line.lineNumber)
    have hpairs := hfilter.map (Prod.mk_right_injective key)
    rwa [List.map_map] at hpairs
  simp only [rowHits, hkey]
  rw [List.toFinset_card_of_nodup hnodup, List.length_map, List.countP_eq_length_filter]

/-- The entries of a file among the hit lines. -/
def fileHits (resolve : String → List String) (root : String) (report : Report) (row : FileRow) :
    Finset (String × Int) :=
  (hitLines resolve root report).1.filter fun entry =>
    fileKey resolve root row.filename = some entry.1

theorem rowHits_subset_fileHits {row : FileRow} (hrow : row ∈ report.files) :
    rowHits resolve root row ⊆ fileHits resolve root report row := by
  intro entry hentry
  exact Finset.mem_filter.mpr ⟨mem_hitLines.mpr ⟨row, hrow, hentry⟩, (mem_rowHits.mp hentry).1⟩

theorem lineCovered_eq_of_nonneg {row : FileRow} (hcounted : row.Counted)
    (hnonneg : ∀ line ∈ row.lines, 0 ≤ line.count) :
    row.lineCovered = row.lines.countP fun line => line.count ≠ 0 := by
  rw [hcounted.lineCovered]
  refine List.countP_congr fun line hline => ?_
  have := hnonneg line hline
  simp only [decide_eq_true_eq]
  omega

/-- If as many lines have a positive count as have one that is not zero, none has a negative one. -/
theorem nonneg_of_countP_le {lines : List Line}
    (h : (lines.countP fun line => line.count ≠ 0) ≤ lines.countP fun line => 0 < line.count) :
    ∀ line ∈ lines, 0 ≤ line.count := by
  have hsublist : (lines.filter fun line => 0 < line.count).Sublist
      (lines.filter fun line => line.count ≠ 0) := by
    refine List.monotone_filter_right lines fun line hline => ?_
    simp only [decide_eq_true_eq] at hline ⊢
    omega
  rw [List.countP_eq_length_filter, List.countP_eq_length_filter] at h
  have heq := hsublist.eq_of_length_le h
  intro line hline
  by_contra hneg
  have hmem : line ∈ lines.filter fun line => line.count ≠ 0 := by
    simp only [List.mem_filter, decide_eq_true_eq]
    exact ⟨hline, by omega⟩
  rw [← heq, List.mem_filter, decide_eq_true_eq] at hmem
  omega

theorem DistinctRecords.rows (h : DistinctRecords (report.files.map FileRow.source)) :
    (report.files.map FileRow.filename).Nodup := by
  have hfiles := h.filenames
  rwa [List.map_map] at hfiles

theorem Readable.rows_named (h : Readable resolve root (report.files.map FileRow.source)) :
    ∀ row ∈ report.files, row.filename = "" → row.lines = [] :=
  List.forall_mem_map.mp h.named

theorem Readable.rows_apart (h : Readable resolve root (report.files.map FileRow.source))
    {row row' : FileRow} (hrow : row ∈ report.files) (hrow' : row' ∈ report.files)
    (hne : row.filename ≠ row'.filename)
    (hkey : fileKey resolve root row.filename = fileKey resolve root row'.filename) :
    (row.lines = [] ∨ row'.lines = []) ∧ ∀ line ∈ row.lines, line.count = 0 :=
  h.apart row.source (List.mem_map_of_mem hrow) row'.source (List.mem_map_of_mem hrow') hne hkey

theorem Readable.disjoint (h : Readable resolve root (report.files.map FileRow.source)) {row row' : FileRow}
    (hrow : row ∈ report.files) (hrow' : row' ∈ report.files)
    (hne : row.filename ≠ row'.filename) :
    Disjoint (rowHits resolve root row) (rowHits resolve root row') := by
  rw [Finset.disjoint_left]
  intro entry hentry hentry'
  obtain ⟨hkey, line, hline, hcount, -⟩ := mem_rowHits.mp hentry
  obtain ⟨hkey', -⟩ := mem_rowHits.mp hentry'
  exact hcount ((h.rows_apart hrow hrow' hne (hkey.trans hkey'.symm)).2 line hline)

theorem Readable.fileHits_eq (h : Readable resolve root (report.files.map FileRow.source))
    (hnames : (report.files.map FileRow.filename).Nodup) {row : FileRow}
    (hrow : row ∈ report.files) :
    fileHits resolve root report row = rowHits resolve root row := by
  refine Finset.Subset.antisymm (fun entry hentry => ?_) (rowHits_subset_fileHits hrow)
  obtain ⟨hhit, hkey⟩ := Finset.mem_filter.mp hentry
  obtain ⟨row', hrow', hentry'⟩ := mem_hitLines.mp hhit
  obtain ⟨hkey', line, hline, hcount, -⟩ := mem_rowHits.mp hentry'
  by_cases hname : row'.filename = row.filename
  · rwa [← List.inj_on_of_nodup_map hnames hrow' hrow hname]
  · exact absurd ((h.rows_apart hrow' hrow hname (hkey'.trans hkey.symm)).2 line hline) hcount

theorem Readable.lineCovered_eq (h : Readable resolve root (report.files.map FileRow.source))
    (hdistinct : DistinctRecords (report.files.map FileRow.source)) (hcounted : ∀ row ∈ report.files, row.Counted)
    {row : FileRow} (hrow : row ∈ report.files) :
    row.lineCovered = (rowHits resolve root row).card := by
  by_cases hname : row.filename = ""
  · rw [(hcounted row hrow).lineCovered, h.rows_named row hrow hname]
    simp [rowHits, fileKey_eq_none_iff.mpr hname]
  · rw [lineCovered_eq_of_nonneg (hcounted row hrow) (h.nonneg row.source (List.mem_map_of_mem hrow)),
      card_rowHits (hdistinct.lines row.source (List.mem_map_of_mem hrow)) hname]

theorem Readable.card_hitLines (h : Readable resolve root (report.files.map FileRow.source))
    (hnames : (report.files.map FileRow.filename).Nodup) :
    (hitLines resolve root report).1.card =
      (report.files.map fun row => (rowHits resolve root row).card).sum := by
  have hunion : (hitLines resolve root report).1 =
      report.files.toFinset.biUnion (rowHits resolve root) := by
    ext entry
    rw [mem_hitLines, Finset.mem_biUnion]
    simp only [List.mem_toFinset]
  rw [hunion, Finset.card_biUnion, List.sum_toFinset _ hnames.of_map]
  intro row hrow row' hrow' hne
  rw [Finset.mem_coe, List.mem_toFinset] at hrow hrow'
  exact h.disjoint hrow hrow' fun hname => hne (List.inj_on_of_nodup_map hnames hrow hrow' hname)

theorem Readable.agree (h : Readable resolve root (report.files.map FileRow.source)) (hdistinct : DistinctRecords (report.files.map FileRow.source))
    (hcounted : ∀ row ∈ report.files, row.Counted) (hsummed : report.Summed) :
    ReadersAgree resolve root report := by
  have hcovered (row : FileRow) (hrow : row ∈ report.files) :=
    h.lineCovered_eq hdistinct hcounted hrow
  have htotals := (totals_agree_iff hcounted hsummed).mpr ⟨h.rows_named, (pairwise_keyed_iff
    hdistinct.rows).mpr fun row hrow row' hrow' hne key hkey hkey' =>
      (h.rows_apart hrow hrow' hne (hkey.trans hkey'.symm)).1⟩
  refine ⟨fun row hrow => ?_, ?_, htotals.1, htotals.2, hsummed, ?_, ?_, ?_⟩
  · rw [hcovered row hrow, ← h.fileHits_eq hdistinct.rows hrow]
    rfl
  · rw [hsummed.lineCovered, h.card_hitLines hdistinct.rows, List.map_congr_left hcovered]
  · refine ⟨?_, fun row hrow => (hcounted row hrow).line⟩
    rw [hsummed.lineCovered, hsummed.lineTotal]
    exact List.sum_le_sum fun row hrow => (hcounted row hrow).line
  · refine ⟨?_, fun row hrow => (hcounted row hrow).branch⟩
    rw [hsummed.branchCovered, hsummed.branchTotal]
    exact List.sum_le_sum fun row hrow => (hcounted row hrow).branch
  · refine ⟨?_, fun row hrow => (hcounted row hrow).function⟩
    rw [hsummed.functionCovered, hsummed.functionTotal]
    exact List.sum_le_sum fun row hrow => (hcounted row hrow).function

theorem ReadersAgree.readable (h : ReadersAgree resolve root report)
    (hdistinct : DistinctRecords (report.files.map FileRow.source))
    (hcounted : ∀ row ∈ report.files, row.Counted) (hsummed : report.Summed) :
    Readable resolve root (report.files.map FileRow.source) := by
  obtain ⟨hnamed, hpairwise⟩ := (totals_agree_iff hcounted hsummed).mp ⟨h.line_total, h.by_file⟩
  rw [pairwise_keyed_iff hdistinct.rows] at hpairwise
  have hfile (row : FileRow) (hrow : row ∈ report.files) :
      row.lineCovered = (fileHits resolve root report row).card := h.file_covered row hrow
  refine ⟨List.forall_mem_map.mpr fun row hrow => ?_, List.forall_mem_map.mpr hnamed,
    List.forall_mem_map.mpr fun row hrow => List.forall_mem_map.mpr fun row' hrow' hne hsame => ?_⟩
  · show ∀ line ∈ row.lines, 0 ≤ line.count
    by_cases hname : row.filename = ""
    · simp [hnamed row hrow hname]
    · apply nonneg_of_countP_le
      have hlines := hdistinct.lines row.source (List.mem_map_of_mem hrow)
      rw [← @card_rowHits resolve root row hlines hname, ← (hcounted row hrow).lineCovered,
        hfile row hrow]
      exact Finset.card_le_card (rowHits_subset_fileHits hrow)
  · cases hkey : fileKey resolve root row.filename with
    | none =>
        have hkey' : fileKey resolve root row'.filename = none := hsame.symm.trans hkey
        rw [fileKey_eq_none_iff] at hkey hkey'
        exact absurd (hkey.trans hkey'.symm) hne
    | some key =>
        have hkey' : fileKey resolve root row'.filename = some key := hsame.symm.trans hkey
        have hempty := hpairwise row hrow row' hrow' hne key hkey hkey'
        refine ⟨hempty, fun line hline => ?_⟩
        have hlines' : row'.lines = [] :=
          hempty.resolve_left (List.ne_nil_of_mem hline)
        have hnone : fileHits resolve root report row' = ∅ := by
          rw [← Finset.card_eq_zero, ← hfile row' hrow', (hcounted row' hrow').lineCovered, hlines']
          rfl
        by_contra hcount
        have hentry : (key, line.lineNumber) ∈ rowHits resolve root row :=
          mem_rowHits.mpr ⟨hkey, line, hline, hcount, rfl⟩
        have hhit : (key, line.lineNumber) ∈ fileHits resolve root report row' :=
          Finset.mem_filter.mpr ⟨mem_hitLines.mpr ⟨row, hrow, hentry⟩, hkey'⟩
        rw [hnone] at hhit
        exact Finset.notMem_empty _ hhit

/-- The parts of an absolute path without links. -/
def plainParts (name : String) : List String :=
  "/" :: (name.splitToList (· = '/')).filter (· ≠ "")

def sampleInfo : String :=
  "TN:\nSF:/r/a.c\nFNDA:1,f\nDA:1,1\nDA:x\nDA:2,0\nBRDA:1,0,0,-\nend_of_record\nSF:b.c\nDA:7,3"

def negativeInfo : String := "SF:a.c\nDA:1,-1\nend_of_record\n"

end Agreement

end EqGen.Evaluation.Readers
