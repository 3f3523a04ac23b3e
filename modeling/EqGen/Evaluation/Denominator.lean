import Mathlib.Algebra.Order.BigOperators.Group.List
import Mathlib.Algebra.Order.Field.Rat
import Mathlib.Algebra.Order.Monoid.Prod
import Mathlib.Data.List.Chain
import EqGen.Lib.Dict

/-!
One denominator for a whole run: `fixed_denominator` and `totals_against` of `gcov.py`, and
`_merge_denominator` of `metamorphic.py`.
-/

namespace EqGen.Evaluation.Denominator

open EqGen.Lib.Dict

/-- Counts of lines, branches and functions. -/
abbrev Counts := ℕ × ℕ × ℕ

/-- One file of a coverage report; a field may be missing or null. -/
structure Entry where
  filename : String
  lineCovered : Option ℕ := none
  lineTotal : Option ℕ := none
  branchCovered : Option ℕ := none
  branchTotal : Option ℕ := none
  functionCovered : Option ℕ := none
  functionTotal : Option ℕ := none

/-- The files of a coverage report. -/
structure Report where
  files : List Entry

/-- `int(entry.get(key, 0) or 0)` -/
def count (field : Option ℕ) : ℕ :=
  field.getD 0

def Entry.covered (entry : Entry) : Counts :=
  (count entry.lineCovered, count entry.branchCovered, count entry.functionCovered)

def Entry.total (entry : Entry) : Counts :=
  (count entry.lineTotal, count entry.branchTotal, count entry.functionTotal)

/-- `fixed_denominator` -/
def fixedDenominator (reports : List Report) : Dictionary String Counts :=
  reports.foldl (fun totals report => report.files.foldl (fun totals entry =>
    let previous := getD totals entry.filename (0, 0, 0)
    totals.insert entry.filename
      (max previous.1 (count entry.lineTotal), max previous.2.1 (count entry.branchTotal),
        max previous.2.2 (count entry.functionTotal))) totals) ∅

structure CoverageTotals where
  linesCovered : ℕ
  linesTotal : ℕ
  branchesCovered : ℕ
  branchesTotal : ℕ
  functionsCovered : ℕ
  functionsTotal : ℕ

/-- `totals_against` -/
def totalsAgainst (report : Report) (denominator : Dictionary String Counts) : CoverageTotals where
  linesCovered := (report.files.map fun entry => count entry.lineCovered).sum
  linesTotal := ((values denominator).map fun value => value.1).sum
  branchesCovered := (report.files.map fun entry => count entry.branchCovered).sum
  branchesTotal := ((values denominator).map fun value => value.2.1).sum
  functionsCovered := (report.files.map fun entry => count entry.functionCovered).sum
  functionsTotal := ((values denominator).map fun value => value.2.2).sum

/-- `_merge_denominator` -/
def mergeDenominator (totals : List (Dictionary String ℕ)) : Dictionary String ℕ :=
  totals.foldl (fun merged mapping => mapping.entries.foldl (fun merged entry =>
    if getD merged entry.1 0 < entry.2 then merged.insert entry.1 entry.2 else merged) merged) ∅

/-- The line totals of one report, by file. -/
def lineTotals (report : Report) : Dictionary String ℕ :=
  report.files.foldl (fun totals entry => totals.insert entry.filename (count entry.lineTotal)) ∅

/-- Covered counts stay below the totals. -/
structure CoverageTotals.Bounded (totals : CoverageTotals) : Prop where
  lines : totals.linesCovered ≤ totals.linesTotal
  branches : totals.branchesCovered ≤ totals.branchesTotal
  functions : totals.functionsCovered ≤ totals.functionsTotal

/-- No ratio of covered to total falls from the first to the second. -/
structure CoverageTotals.AtMost (totals later : CoverageTotals) : Prop where
  lines : (totals.linesCovered : ℚ) / totals.linesTotal ≤ later.linesCovered / later.linesTotal
  branches : (totals.branchesCovered : ℚ) / totals.branchesTotal ≤
    later.branchesCovered / later.branchesTotal
  functions : (totals.functionsCovered : ℚ) / totals.functionsTotal ≤
    later.functionsCovered / later.functionsTotal

/-- Every file of the first report is in the second one, covered at least as far. -/
def Report.Grows (report later : Report) : Prop :=
  ∀ entry ∈ report.files, ∃ entry' ∈ later.files,
    entry'.filename = entry.filename ∧ entry.covered ≤ entry'.covered

/-- The reports of one run. -/
structure Campaign (reports : List Report) : Prop where
  covered_le : ∀ report ∈ reports, ∀ entry ∈ report.files, entry.covered ≤ entry.total
  distinct : ∀ report ∈ reports, (report.files.map Entry.filename).Nodup
  grows : reports.IsChain Report.Grows

section Maxima

def Report.totals (report : Report) : List (String × Counts) :=
  report.files.map fun entry => (entry.filename, entry.total)

/-- The denominator holds the maxima of all entries. -/
theorem fixedDenominator_eq (reports : List Report) :
    fixedDenominator reports = collect (reports.flatMap Report.totals) := by
  simp only [collect, List.foldl_flatMap, Report.totals, List.foldl_map]
  rfl

/-- Reports in another order have the same denominator. -/
theorem fixedDenominator_perm {reports reports' : List Report} (h : reports'.Perm reports) :
    (fixedDenominator reports').toFinmap = (fixedDenominator reports).toFinmap := by
  rw [fixedDenominator_eq, fixedDenominator_eq]
  exact collect_congr fun entry => (h.flatMap_right _).mem_iff

theorem total_le_getD {reports : List Report} {report : Report} {entry : Entry}
    (hreport : report ∈ reports) (hentry : entry ∈ report.files) :
    entry.total ≤ getD (fixedDenominator reports) entry.filename 0 := by
  have hmem : (entry.filename, entry.total) ∈ reports.flatMap Report.totals :=
    List.mem_flatMap.mpr ⟨report, hreport, List.mem_map.mpr ⟨entry, hentry, rfl⟩⟩
  rw [fixedDenominator_eq]
  exact (le_supAt hmem).trans_eq (getD_collect _ _).symm

end Maxima

section Sums

theorem sum_counts {α : Type} (l : List α) (f : α → Counts) :
    (l.map f).sum = ((l.map fun a => (f a).1).sum, (l.map fun a => (f a).2.1).sum,
      (l.map fun a => (f a).2.2).sum) := by
  induction l with
  | nil => rfl
  | cons a l ih => rw [List.map_cons, List.sum_cons, ih]; rfl

/-- What a report covers, in all its files. -/
def Report.covered (report : Report) : Counts :=
  (report.files.map Entry.covered).sum

def CoverageTotals.covered (totals : CoverageTotals) : Counts :=
  (totals.linesCovered, totals.branchesCovered, totals.functionsCovered)

def CoverageTotals.total (totals : CoverageTotals) : Counts :=
  (totals.linesTotal, totals.branchesTotal, totals.functionsTotal)

theorem covered_totalsAgainst (report : Report) (denominator : Dictionary String Counts) :
    (totalsAgainst report denominator).covered = report.covered := by
  rw [Report.covered, sum_counts]
  rfl

theorem total_totalsAgainst (report : Report) (denominator : Dictionary String Counts) :
    (totalsAgainst report denominator).total = (values denominator).sum := by
  have h := sum_counts (values denominator) id
  rw [List.map_id] at h
  exact h.symm

theorem CoverageTotals.bounded_iff (totals : CoverageTotals) :
    totals.Bounded ↔ totals.covered ≤ totals.total :=
  ⟨fun h => ⟨h.lines, h.branches, h.functions⟩, fun h => ⟨h.1, h.2.1, h.2.2⟩⟩

theorem ratio_mono {covered covered' total : ℕ} (h : covered ≤ covered') :
    (covered : ℚ) / total ≤ covered' / total :=
  div_le_div_of_nonneg_right (Nat.cast_le.mpr h) (Nat.cast_nonneg total)

theorem atMost_of_le {report later : Report} (denominator : Dictionary String Counts)
    (h : report.covered ≤ later.covered) :
    (totalsAgainst report denominator).AtMost (totalsAgainst later denominator) := by
  rw [← covered_totalsAgainst report denominator, ← covered_totalsAgainst later denominator] at h
  exact ⟨ratio_mono h.1, ratio_mono h.2.1, ratio_mono h.2.2⟩

/-- Each file of a report adds no more to the sum than its total in the denominator. -/
theorem covered_le_denominator {reports : List Report} (h : Campaign reports) {report : Report}
    (hreport : report ∈ reports) :
    report.covered ≤ (values (fixedDenominator reports)).sum := by
  calc report.covered
      ≤ (report.files.map fun entry =>
          getD (fixedDenominator reports) entry.filename 0).sum :=
        List.sum_le_sum fun entry hentry =>
          (h.covered_le report hreport entry hentry).trans (total_le_getD hreport hentry)
    _ = ((report.files.map Entry.filename).map fun name =>
          getD (fixedDenominator reports) name 0).sum := by
        rw [List.map_map]
        rfl
    _ ≤ (values (fixedDenominator reports)).sum := sum_getD_le _ (h.distinct report hreport)

/-- What a report covers of each file, by name. -/
def Report.coverage (report : Report) : Dictionary String Counts :=
  collect (report.files.map fun entry => (entry.filename, entry.covered))

/-- A file that grows adds no less to the later report. -/
theorem covered_mono {report later : Report} (h : report.Grows later)
    (hreport : (report.files.map Entry.filename).Nodup)
    (hlater : (later.files.map Entry.filename).Nodup) : report.covered ≤ later.covered := by
  have hnames : ((later.files.map fun entry => (entry.filename, entry.covered)).map
      Prod.fst).Nodup := by
    rwa [List.map_map]
  have hentry : ∀ entry ∈ report.files, entry.covered ≤ getD later.coverage entry.filename 0 := by
    intro entry hentry
    obtain ⟨entry', hentry', hname, hle⟩ := h entry hentry
    have hmem : (entry'.filename, entry'.covered) ∈
        later.files.map fun entry => (entry.filename, entry.covered) :=
      List.mem_map.mpr ⟨entry', hentry', rfl⟩
    rw [← hname, Report.coverage]
    exact hle.trans ((le_supAt hmem).trans_eq (getD_collect _ _).symm)
  calc report.covered
      ≤ (report.files.map fun entry => getD later.coverage entry.filename 0).sum :=
        List.sum_le_sum hentry
    _ = ((report.files.map Entry.filename).map fun name => getD later.coverage name 0).sum := by
        rw [List.map_map]
        rfl
    _ ≤ (values later.coverage).sum := sum_getD_le _ hreport
    _ = later.covered := by
        rw [Report.coverage, sum_values_collect hnames, List.map_map]
        rfl

theorem covered_pairwise {reports : List Report} (h : Campaign reports) :
    reports.Pairwise fun report later => report.covered ≤ later.covered := by
  have : Trans (fun report later : Report => report.covered ≤ later.covered)
      (fun report later : Report => report.covered ≤ later.covered)
      (fun report later : Report => report.covered ≤ later.covered) := ⟨le_trans⟩
  rw [← List.isChain_iff_pairwise]
  refine h.grows.imp_of_mem_imp fun report later hreport hlater hgrows => ?_
  exact covered_mono hgrows (h.distinct report hreport) (h.distinct later hlater)

end Sums

section Merging

/--
A mapping that folding the line totals of some reports can stand at: those of a single report, or
what `_merge_denominator` makes of such mappings.
-/
inductive Part : List Report → Dictionary String ℕ → Prop
  | report (report : Report) : Part [report] (lineTotals report)
  | merge {parts : List (List Report × Dictionary String ℕ)}
      (h : ∀ part ∈ parts, Part part.1 part.2) :
      Part (parts.flatMap Prod.fst) (mergeDenominator (parts.map Prod.snd))

/-- The result of folding the line totals of the reports, grouped in some way. -/
def Folded (reports : List Report) (merged : Dictionary String ℕ) : Prop :=
  ∃ parts : List (List Report × Dictionary String ℕ), (∀ part ∈ parts, Part part.1 part.2) ∧
    parts.flatMap Prod.fst = reports ∧ mergeDenominator (parts.map Prod.snd) = merged

/-- No count of zero is merged. -/
def Positive (merged : Dictionary String ℕ) : Prop :=
  ∀ name, merged.lookup name ≠ some 0

theorem lookup_of_positive {merged : Dictionary String ℕ} (h : Positive merged) (name : String) :
    merged.lookup name = (some (getD merged name 0)).filter fun count => 0 < count := by
  have hname := h name
  rw [getD]
  cases hlookup : merged.lookup name with
  | none => rfl
  | some count =>
      rw [hlookup] at hname
      have : 0 < count := Nat.pos_of_ne_zero fun hzero => hname (hzero ▸ rfl)
      simp [Option.filter, this]

/-- One entry of a mapping is merged. -/
def mergeEntry (merged : Dictionary String ℕ) (entry : (_ : String) × ℕ) : Dictionary String ℕ :=
  if getD merged entry.1 0 < entry.2 then merged.insert entry.1 entry.2 else merged

theorem positive_mergeEntry {merged : Dictionary String ℕ} (h : Positive merged)
    (entry : (_ : String) × ℕ) : Positive (mergeEntry merged entry) := by
  intro name
  rw [mergeEntry]
  split
  · next hlt =>
      by_cases hname : name = entry.1
      · subst hname
        rw [AList.lookup_insert]
        intro hzero
        have := Option.some.inj hzero
        omega
      · rw [AList.lookup_insert_ne hname]
        exact h name
  · exact h name

theorem getD_mergeEntry_le {merged : Dictionary String ℕ} {entry : (_ : String) × ℕ}
    {name : String} {bound : ℕ} :
    getD (mergeEntry merged entry) name 0 ≤ bound ↔
      getD merged name 0 ≤ bound ∧ (entry.1 = name → entry.2 ≤ bound) := by
  rw [mergeEntry]
  split
  · next hlt =>
      by_cases hname : name = entry.1
      · subst hname
        rw [getD, AList.lookup_insert, Option.getD_some]
        constructor
        · exact fun hle => ⟨hlt.le.trans hle, fun _ => hle⟩
        · exact fun hle => hle.2 rfl
      · have hne : ¬entry.1 = name := fun h => hname h.symm
        rw [getD, AList.lookup_insert_ne hname, ← getD]
        simp [hne]
  · next hlt =>
      refine (and_iff_left_of_imp fun hle hname => ?_).symm
      subst hname
      omega

theorem positive_foldl_mergeEntry {merged : Dictionary String ℕ} (h : Positive merged)
    (entries : List ((_ : String) × ℕ)) : Positive (entries.foldl mergeEntry merged) := by
  induction entries generalizing merged with
  | nil => exact h
  | cons entry entries ih => exact ih (positive_mergeEntry h entry)

theorem getD_foldl_mergeEntry_le (entries : List ((_ : String) × ℕ))
    (merged : Dictionary String ℕ) {name : String} {bound : ℕ} :
    getD (entries.foldl mergeEntry merged) name 0 ≤ bound ↔
      getD merged name 0 ≤ bound ∧ ∀ entry ∈ entries, entry.1 = name → entry.2 ≤ bound := by
  induction entries generalizing merged with
  | nil => simp
  | cons entry entries ih =>
      rw [List.foldl_cons, ih, getD_mergeEntry_le, List.forall_mem_cons, and_assoc]

theorem mergeDenominator_eq (totals : List (Dictionary String ℕ)) :
    mergeDenominator totals = (totals.flatMap AList.entries).foldl mergeEntry ∅ := by
  rw [List.foldl_flatMap]
  rfl

theorem positive_mergeDenominator (totals : List (Dictionary String ℕ)) :
    Positive (mergeDenominator totals) := by
  rw [mergeDenominator_eq]
  exact positive_foldl_mergeEntry (fun name => by simp) _

theorem getD_le_iff (mapping : Dictionary String ℕ) {name : String} {bound : ℕ} :
    getD mapping name 0 ≤ bound ↔ ∀ entry ∈ mapping.entries, entry.1 = name → entry.2 ≤ bound := by
  rw [getD]
  cases hlookup : mapping.lookup name with
  | none =>
      refine iff_of_true (Nat.zero_le _) fun entry hentry hname => ?_
      rw [← hname, AList.mem_lookup_iff.mpr hentry] at hlookup
      cases hlookup
  | some count =>
      constructor
      · intro hle entry hentry hname
        rw [← hname, AList.mem_lookup_iff.mpr hentry] at hlookup
        exact (Option.some.inj hlookup).trans_le hle
      · exact fun h => h ⟨name, count⟩ (AList.mem_lookup_iff.mp hlookup) rfl

/-- What is merged at a name is the maximum of the mappings there. -/
theorem getD_mergeDenominator_le (totals : List (Dictionary String ℕ)) {name : String} {bound : ℕ} :
    getD (mergeDenominator totals) name 0 ≤ bound ↔
      ∀ mapping ∈ totals, getD mapping name 0 ≤ bound := by
  rw [mergeDenominator_eq, getD_foldl_mergeEntry_le]
  simp only [getD_le_iff, List.mem_flatMap]
  constructor
  · exact fun h mapping hmapping entry hentry => h.2 entry ⟨mapping, hmapping, hentry⟩
  · intro h
    refine ⟨by simp, ?_⟩
    rintro entry ⟨mapping, hmapping, hentry⟩
    exact h mapping hmapping entry hentry

/-- The line total of a file never exceeds the bound in the reports. -/
def LinesAtMost (reports : List Report) (name : String) (bound : ℕ) : Prop :=
  ∀ report ∈ reports, ∀ entry ∈ report.files, entry.filename = name →
    count entry.lineTotal ≤ bound

theorem getD_foldl_insert_le (files : List Entry) (hfiles : (files.map Entry.filename).Nodup)
    (totals : Dictionary String ℕ) {name : String} {bound : ℕ} :
    getD (files.foldl (fun totals entry =>
        totals.insert entry.filename (count entry.lineTotal)) totals) name 0 ≤ bound ↔
      (name ∉ files.map Entry.filename → getD totals name 0 ≤ bound) ∧
        ∀ entry ∈ files, entry.filename = name → count entry.lineTotal ≤ bound := by
  induction files generalizing totals with
  | nil => simp
  | cons entry files ih =>
      rw [List.map_cons, List.nodup_cons] at hfiles
      rw [List.foldl_cons, ih hfiles.2, List.forall_mem_cons, List.map_cons, List.mem_cons]
      by_cases hname : name = entry.filename
      · subst hname
        rw [getD, AList.lookup_insert, Option.getD_some]
        simp [hfiles.1]
      · have hne : ¬entry.filename = name := fun h => hname h.symm
        rw [getD, AList.lookup_insert_ne hname, ← getD]
        simp [hname, hne]

theorem getD_lineTotals_le {report : Report} (h : (report.files.map Entry.filename).Nodup)
    {name : String} {bound : ℕ} :
    getD (lineTotals report) name 0 ≤ bound ↔ LinesAtMost [report] name bound := by
  rw [lineTotals, getD_foldl_insert_le _ h, LinesAtMost, List.forall_mem_singleton]
  exact and_iff_right fun _ => by simp [getD]

/-- Whatever is folded holds at a name the maximum of the line totals of the reports. -/
theorem Part.getD_le {reports : List Report} {totals : Dictionary String ℕ}
    (h : Part reports totals)
    (hdistinct : ∀ report ∈ reports, (report.files.map Entry.filename).Nodup)
    {name : String} {bound : ℕ} :
    getD totals name 0 ≤ bound ↔ LinesAtMost reports name bound := by
  induction h with
  | report report => exact getD_lineTotals_le (hdistinct report (by simp))
  | @merge parts h ih =>
      rw [getD_mergeDenominator_le, LinesAtMost]
      simp only [List.forall_mem_map, List.forall_mem_flatMap]
      refine forall₂_congr fun part hpart => ih part hpart fun report hreport => ?_
      exact hdistinct report (List.mem_flatMap.mpr ⟨part, hpart, hreport⟩)

theorem getD_line_le (reports : List Report) {name : String} {bound : ℕ} :
    (getD (fixedDenominator reports) name 0).1 ≤ bound ↔ LinesAtMost reports name bound := by
  have hfst := map_supAt (fun value : Counts => value.1) rfl (fun _ _ => rfl)
    (reports.flatMap Report.totals) name
  have hvalue : getD (fixedDenominator reports) name 0 =
      supAt (reports.flatMap Report.totals) name := by
    rw [fixedDenominator_eq]
    exact getD_collect _ _
  rw [hvalue, hfst, supAt_le_iff]
  simp only [List.forall_mem_map, List.forall_mem_flatMap, Report.totals, LinesAtMost, Entry.total]

/-- Folding in any order and grouping gives the line component, less the files without lines. -/
theorem Folded.lookup {reports reports' : List Report} {merged : Dictionary String ℕ}
    (h : Folded reports' merged) (hperm : reports'.Perm reports)
    (hdistinct : ∀ report ∈ reports, (report.files.map Entry.filename).Nodup) (name : String) :
    merged.lookup name =
      (((fixedDenominator reports).lookup name).map fun value => value.1).filter (0 < ·) := by
  obtain ⟨parts, hparts, rfl, rfl⟩ := h
  have hvalue : getD (mergeDenominator (parts.map Prod.snd)) name 0 =
      (getD (fixedDenominator reports) name 0).1 := by
    refine eq_of_forall_ge_iff fun bound => ?_
    rw [(Part.merge hparts).getD_le fun report hreport =>
      hdistinct report (hperm.mem_iff.mp hreport), getD_line_le, LinesAtMost]
    exact forall_congr' fun report => by rw [hperm.mem_iff]
  rw [lookup_of_positive (positive_mergeDenominator _), hvalue, getD]
  cases (fixedDenominator reports).lookup name with
  | none => rfl
  | some value => rfl

end Merging

/--
Over the fixed denominator of its whole run every report covers at most the total and no ratio
falls; the denominator does not depend on the order of the reports, and folding the line totals
with `_merge_denominator` gives its line component, less the files without lines.
-/
theorem fixedDenominator_honest {reports : List Report} (h : Campaign reports) :
    (∀ report ∈ reports, (totalsAgainst report (fixedDenominator reports)).Bounded) ∧
      reports.Pairwise (fun report later =>
        (totalsAgainst report (fixedDenominator reports)).AtMost
          (totalsAgainst later (fixedDenominator reports))) ∧
      ∀ reports', reports'.Perm reports →
        (fixedDenominator reports').toFinmap = (fixedDenominator reports).toFinmap ∧
        ∀ merged, Folded reports' merged → ∀ name, merged.lookup name =
          (((fixedDenominator reports).lookup name).map fun value => value.1).filter (0 < ·) := by
  refine ⟨fun report hreport => ?_, ?_, fun reports' hperm => ⟨fixedDenominator_perm hperm, ?_⟩⟩
  · rw [CoverageTotals.bounded_iff, covered_totalsAgainst, total_totalsAgainst]
    exact covered_le_denominator h hreport
  · exact (covered_pairwise h).imp fun hle => atMost_of_le _ hle
  · exact fun merged hmerged name => hmerged.lookup hperm h.distinct name

/-- A file that joins late. -/
def lateReports : List Report :=
  [⟨[{ filename := "a.c", lineCovered := some 1, lineTotal := some 4 }]⟩,
    ⟨[{ filename := "a.c", lineCovered := some 2, lineTotal := some 4 },
      { filename := "b.c", lineCovered := some 0, lineTotal := some 9 }]⟩]

theorem fixedDenominator_honest_late :
    (∀ report ∈ lateReports, (totalsAgainst report (fixedDenominator lateReports)).Bounded) ∧
      lateReports.Pairwise (fun report later =>
        (totalsAgainst report (fixedDenominator lateReports)).AtMost
          (totalsAgainst later (fixedDenominator lateReports))) ∧
      ∀ reports', reports'.Perm lateReports →
        (fixedDenominator reports').toFinmap = (fixedDenominator lateReports).toFinmap ∧
        ∀ merged, Folded reports' merged → ∀ name, merged.lookup name =
          (((fixedDenominator lateReports).lookup name).map fun value => value.1).filter
            (0 < ·) := by
  refine fixedDenominator_honest ⟨?_, ?_, ?_⟩
  · decide
  · decide
  · simp only [lateReports, List.isChain_cons_cons, List.isChain_singleton, and_true]
    intro entry hentry
    rw [List.mem_singleton.mp hentry]
    exact ⟨_, List.mem_cons_self, rfl, by decide⟩

/-- A file without lines is in the denominator and not in what is folded. -/
def emptyFile : List Report :=
  [⟨[{ filename := "a.c", lineTotal := some 0 }]⟩]

theorem not_always_line_component :
    ¬∀ (reports : List Report) (merged : Dictionary String ℕ), Campaign reports →
      Folded reports merged → ∀ name, merged.lookup name =
        ((fixedDenominator reports).lookup name).map fun value => value.1 := by
  intro h
  have hcampaign : Campaign emptyFile := ⟨by decide, by decide, .singleton _⟩
  have hfolded : Folded emptyFile (mergeDenominator (emptyFile.map lineTotals)) :=
    ⟨emptyFile.map fun report => ([report], lineTotals report), by
      simp only [emptyFile, List.map_cons, List.map_nil, List.forall_mem_singleton]
      exact .report _, rfl, rfl⟩
  have := h emptyFile _ hcampaign hfolded "a.c"
  revert this
  decide

end EqGen.Evaluation.Denominator
