import Mathlib.Data.List.TakeWhile
import Mathlib.Data.List.Infix

/-!
Backtracking regular expressions. A pattern is matched at the front of a text and hands every
way to match, in order of preference, to a continuation; the first that the continuation
accepts is the match.
-/

namespace EqGen.Lib.Regex

inductive Pattern where
  | eps
  | char (p : Char → Bool)
  | many (p : Char → Bool)
  | lazyMany (p : Char → Bool)
  | seq (first second : Pattern)
  | alt (first second : Pattern)
  | group (body : Pattern)
  | boundary (word : Char → Bool)

/-- Where a match stands: the character before it, the text to come and the groups captured. -/
structure Cursor where
  before : Option Char
  rest : List Char
  groups : List (List Char)
  deriving DecidableEq

variable {β : Type}

/-- Greedy repetition of a character class. -/
def manyK (p : Char → Bool) (k : Option Char → List Char → Option β) :
    Option Char → List Char → Option β
  | before, [] => k before []
  | before, c :: cs =>
      if p c then (manyK p k (some c) cs).orElse fun _ => k before (c :: cs)
      else k before (c :: cs)

/-- Lazy repetition of a character class. -/
def lazyK (p : Char → Bool) (k : Option Char → List Char → Option β) :
    Option Char → List Char → Option β
  | before, [] => k before []
  | before, c :: cs =>
      (k before (c :: cs)).orElse fun _ => if p c then lazyK p k (some c) cs else none

/-- A word character on exactly one side. -/
def atBoundary (word : Char → Bool) (s : Cursor) : Bool :=
  s.before.any word != s.rest.head?.any word

def matchK : Pattern → (Cursor → Option β) → Cursor → Option β
  | .eps, k, s => k s
  | .char p, k, s =>
      match s.rest with
      | [] => none
      | c :: cs => if p c then k ⟨some c, cs, s.groups⟩ else none
  | .many p, k, s => manyK p (fun before rest => k ⟨before, rest, s.groups⟩) s.before s.rest
  | .lazyMany p, k, s => lazyK p (fun before rest => k ⟨before, rest, s.groups⟩) s.before s.rest
  | .seq first second, k, s => matchK first (matchK second k) s
  | .alt first second, k, s => (matchK first k s).orElse fun _ => matchK second k s
  | .group body, k, s =>
      matchK body (fun t =>
        k { t with groups := t.groups ++ [s.rest.take (s.rest.length - t.rest.length)] }) s
  | .boundary word, k, s => if atBoundary word s then k s else none

/-- `pattern.match(text)`: the groups of the preferred match at the front of the text. -/
def matchFront (r : Pattern) (text : List Char) : Option (List (List Char)) :=
  matchK r (fun s => some s.groups) ⟨none, text, []⟩

example : matchFront (.seq (.group (.many Char.isDigit)) (.lazyMany Char.isAlpha)) ['7', 'a'] =
    some [['7']] := by
  simp [matchFront, matchK, manyK, lazyK]

/-- The text after the preferred match at its front. -/
def restAfter (r : Pattern) (text : List Char) : Option (List Char) :=
  matchK r (fun s => some s.rest) ⟨none, text, []⟩

/-- An optional pattern, taken when it can be. -/
def opt (r : Pattern) : Pattern := .alt r .eps

/-- One or more characters of a class. -/
def some1 (p : Char → Bool) : Pattern := .seq (.char p) (.many p)

section Many

variable {p : Char → Bool} {k : Option Char → List Char → Option β} {before : Option Char}

/-- When the continuation accepts after the longest run, that is the match. -/
theorem manyK_eq_some {text : List Char} {x : β}
    (h : k ((text.takeWhile p).getLast?.or before) (text.dropWhile p) = some x) :
    manyK p k before text = some x := by
  induction text generalizing before with
  | nil => simpa [manyK] using h
  | cons c cs ih =>
      by_cases hc : p c
      · have hrest : manyK p k (some c) cs = some x := by
          apply ih
          simp only [hc, List.takeWhile_cons_of_pos, List.dropWhile_cons_of_pos,
            List.getLast?_cons] at h
          cases hlast : (cs.takeWhile p).getLast? with
          | none => simpa [hlast] using h
          | some d => simpa [hlast] using h
        simp [manyK, hc, hrest]
      · simpa [manyK, hc] using h

/-- When the continuation refuses to start inside the run, only the longest run counts. -/
theorem manyK_eq_of_refuses {text : List Char}
    (h : ∀ before c cs, p c = true → k before (c :: cs) = none) :
    manyK p k before text =
      k ((text.takeWhile p).getLast?.or before) (text.dropWhile p) := by
  induction text generalizing before with
  | nil => simp [manyK]
  | cons c cs ih =>
      by_cases hc : p c
      · simp only [manyK, hc, if_true, ih, h before c cs hc, List.takeWhile_cons_of_pos,
          List.dropWhile_cons_of_pos, List.getLast?_cons]
        cases hlast : (cs.takeWhile p).getLast? <;> simp
      · simp [manyK, hc]

/-- When the continuation refuses every end of the run, so does the repetition. -/
theorem manyK_eq_none {text : List Char}
    (h : ∀ before run rest, text = run ++ rest → (∀ c ∈ run, p c = true) →
      k before rest = none) : manyK p k before text = none := by
  induction text generalizing before with
  | nil => simpa [manyK] using h before [] [] rfl
  | cons c cs ih =>
      have hstop : k before (c :: cs) = none := h before [] (c :: cs) rfl (by simp)
      by_cases hc : p c
      · have hrest : manyK p k (some c) cs = none := by
          apply ih
          intro before' run rest hcs hrun
          exact h before' (c :: run) rest (by simp [hcs]) (by simpa [hc] using hrun)
        simp [manyK, hc, hrest, hstop]
      · simp [manyK, hc, hstop]

end Many

/-- The pattern of a word, read through a folding of characters. -/
def lit (fold : Char → Char) : List Char → Pattern
  | [] => .eps
  | c :: cs => .seq (.char fun d => fold d == c) (lit fold cs)

/-- A word matches exactly the texts that start with it up to folding. -/
theorem matchK_lit (fold : Char → Char) (word : List Char) (k : Cursor → Option β)
    (s : Cursor) :
    matchK (lit fold word) k s =
      if word <+: s.rest.map fold then
        k ⟨((s.rest.take word.length).getLast?).or s.before, s.rest.drop word.length, s.groups⟩
      else none := by
  induction word generalizing s with
  | nil => simp [lit, matchK]
  | cons c cs ih =>
      obtain ⟨before, rest, groups⟩ := s
      cases rest with
      | nil => simp [lit, matchK]
      | cons d ds =>
          simp only [lit, matchK, beq_iff_eq, ih, List.map_cons, List.cons_prefix_cons]
          by_cases hd : fold d = c
          · simp only [hd, if_true, true_and, List.length_cons, List.take_succ_cons,
              List.drop_succ_cons, List.getLast?_cons]
            cases hlast : (ds.take cs.length).getLast? <;> simp
          · simp [hd, Ne.symm hd]

/-- The next character, if any, is outside the class. -/
def Stops (p : Char → Bool) (text : List Char) : Prop :=
  ∀ c ∈ text.head?, p c = false

theorem Stops.nil (p : Char → Bool) : Stops p [] := by simp [Stops]

theorem stops_cons {p : Char → Bool} {c : Char} {cs : List Char} :
    Stops p (c :: cs) ↔ p c = false := by simp [Stops]

theorem takeWhile_run {p : Char → Bool} {run rest : List Char} (hrun : ∀ c ∈ run, p c = true)
    (hrest : Stops p rest) : (run ++ rest).takeWhile p = run := by
  rw [List.takeWhile_append_of_pos hrun]
  cases rest with
  | nil => simp
  | cons c cs => simp [stops_cons.mp hrest]

theorem dropWhile_run {p : Char → Bool} {run rest : List Char} (hrun : ∀ c ∈ run, p c = true)
    (hrest : Stops p rest) : (run ++ rest).dropWhile p = rest := by
  rw [List.dropWhile_append_of_pos hrun]
  cases rest with
  | nil => simp
  | cons c cs => simp [stops_cons.mp hrest]

/-- A continuation that gives up wherever the next character is in the class. -/
def Refuses (p : Char → Bool) (k : Cursor → Option β) : Prop :=
  ∀ before c cs groups, p c = true → k ⟨before, c :: cs, groups⟩ = none

section Runs

variable {p : Char → Bool} {k : Cursor → Option β} {before : Option Char}
  {run rest : List Char} {groups : List (List Char)}

theorem matchK_many_accept (hrun : ∀ c ∈ run, p c = true) (hrest : Stops p rest) {x : β}
    (hk : ∀ before, k ⟨before, rest, groups⟩ = some x) :
    matchK (.many p) k ⟨before, run ++ rest, groups⟩ = some x := by
  rw [matchK]
  apply manyK_eq_some
  rw [dropWhile_run hrun hrest]
  exact hk _

theorem matchK_many_run (hrun : ∀ c ∈ run, p c = true) (hrest : Stops p rest)
    (hk : Refuses p k) : ∃ last,
      matchK (.many p) k ⟨before, run ++ rest, groups⟩ = k ⟨last, rest, groups⟩ := by
  have h := @manyK_eq_of_refuses _ p (fun b rest => k ⟨b, rest, groups⟩) before (run ++ rest)
    (fun before c cs hc => hk before c cs groups hc)
  rw [dropWhile_run hrun hrest] at h
  exact ⟨_, h⟩

theorem matchK_some1_accept (hne : run ≠ []) (hrun : ∀ c ∈ run, p c = true)
    (hrest : Stops p rest) {x : β} (hk : ∀ before, k ⟨before, rest, groups⟩ = some x) :
    matchK (some1 p) k ⟨before, run ++ rest, groups⟩ = some x := by
  obtain ⟨c, cs, rfl⟩ := List.exists_cons_of_ne_nil hne
  simp only [some1, matchK, List.cons_append, hrun c List.mem_cons_self, if_true]
  exact matchK_many_accept (fun d hd => hrun d (List.mem_cons_of_mem _ hd)) hrest hk

theorem matchK_some1_run (hne : run ≠ []) (hrun : ∀ c ∈ run, p c = true)
    (hrest : Stops p rest) (hk : Refuses p k) : ∃ last,
      matchK (some1 p) k ⟨before, run ++ rest, groups⟩ = k ⟨last, rest, groups⟩ := by
  obtain ⟨c, cs, rfl⟩ := List.exists_cons_of_ne_nil hne
  simp only [some1, matchK, List.cons_append, hrun c List.mem_cons_self, if_true]
  exact matchK_many_run (fun d hd => hrun d (List.mem_cons_of_mem _ hd)) hrest hk

theorem matchK_some1_stops (hrest : Stops p rest) :
    matchK (some1 p) k ⟨before, rest, groups⟩ = none := by
  cases rest with
  | nil => simp [some1, matchK]
  | cons c cs => simp [some1, matchK, stops_cons.mp hrest]

end Runs

section Literals

variable {fold : Char → Char} {k : Cursor → Option β} {before : Option Char}
  {spelling rest : List Char} {groups : List (List Char)} {w : List Char}

theorem matchK_lit_spelled (hspelling : spelling.map fold = w) :
    matchK (lit fold w) k ⟨before, spelling ++ rest, groups⟩ =
      k ⟨spelling.getLast?.or before, rest, groups⟩ := by
  have hlength : spelling.length = w.length := by rw [← hspelling, List.length_map]
  rw [matchK_lit, if_pos]
  · simp [← hlength]
  · simp [hspelling]

/-- A word refuses every text that spells another word there, whatever comes next. -/
theorem matchK_lit_other {letter : Char → Bool} {other : List Char}
    (hw : ∀ c ∈ w, letter c = true) (hspelling : spelling.map fold = other)
    (hother : ∀ c ∈ other, letter c = true) (hne : w ≠ other)
    (hrest : Stops (fun c => letter (fold c)) rest)
    (hk : Refuses (fun c => letter (fold c)) k) :
    matchK (lit fold w) k ⟨before, spelling ++ rest, groups⟩ = none := by
  rw [matchK_lit]
  split
  · rename_i hprefix
    simp only [List.map_append, hspelling] at hprefix
    rcases List.prefix_or_prefix_of_prefix hprefix (List.prefix_append other _) with hshort | hlong
    · obtain ⟨more, hmore⟩ := hshort
      cases more with
      | nil => exact absurd (by simpa using hmore) hne
      | cons d ds =>
          have hdrop : (spelling.drop w.length).map fold = d :: ds := by
            rw [List.map_drop, hspelling, ← hmore]
            simp
          have hlength : w.length ≤ spelling.length := by
            have := congrArg List.length hmore
            rw [← hspelling] at this
            simp at this
            omega
          obtain ⟨c, cs, hcs, hc, _⟩ := List.map_eq_cons_iff.mp hdrop
          rw [List.drop_append_of_le_length hlength, hcs]
          have hletter : letter (fold c) = true := by
            rw [hc]
            exact hother d (by rw [← hmore]; simp)
          exact hk _ c _ _ hletter
    · obtain ⟨more, hmore⟩ := hlong
      cases more with
      | nil => exact absurd (by simpa using hmore.symm) hne
      | cons d ds =>
          rw [← hmore] at hprefix
          rw [List.prefix_append_right_inj] at hprefix
          cases rest with
          | nil => simp at hprefix
          | cons c cs =>
              simp only [List.map_cons, List.cons_prefix_cons] at hprefix
              have hletter := hw d (by rw [← hmore]; simp)
              have hstop := stops_cons.mp hrest
              rw [← hprefix.1, hletter] at hstop
              cases hstop
  · rfl

theorem refuses_lit {p : Char → Bool} (hw : ∀ c ∈ w.head?, ∀ d, p d = true → fold d ≠ c)
    (hne : w ≠ []) : Refuses p (matchK (lit fold w) k) := by
  intro before d ds groups hd
  obtain ⟨c, cs, rfl⟩ := List.exists_cons_of_ne_nil hne
  have h := hw c (by simp) d hd
  simp [lit, matchK, h]

end Literals

end EqGen.Lib.Regex
