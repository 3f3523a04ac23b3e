import Mathlib.Data.Nat.Basic

/-! Comparing one query, and one exposed object, on the two databases of a round. -/

namespace EqGen.Fuzz.Compare

/-- Canonical result rows: what the oracle needs of them here is their printed form, in
which string cells have their line breaks escaped. -/
class CanonicalRow (Row : Type) where
  repr : Row → String
  repr_line : ∀ row, '\n' ∉ (repr row).toList

/-- The row without cells, an empty tuple. -/
instance : CanonicalRow Unit where
  repr _ := "()"
  repr_line _ := by decide

variable {Row : Type}

/-- The outcome of running one query on the base and on the equivalent. -/
structure QueryComparison (Row : Type) where
  query : String
  equal : Bool
  onlyInBase : List (Row × Nat) := []
  onlyInEquivalent : List (Row × Nat) := []
  baseError : Option String := none
  equivalentError : Option String := none
  equivalentKnownIssue : Option String := none
  reconciled : Nat := 0

namespace QueryComparison

/-- The base failed, so the query was already invalid. -/
def isUncomparable (c : QueryComparison Row) : Bool := c.baseError.isSome

def isPass (c : QueryComparison Row) : Bool :=
  c.baseError.isNone && c.equivalentError.isNone && c.equal

def isKnownIssue (c : QueryComparison Row) : Bool :=
  c.baseError.isNone && c.equivalentKnownIssue.isSome

def isError (c : QueryComparison Row) : Bool :=
  c.baseError.isNone && c.equivalentError.isSome && c.equivalentKnownIssue.isNone

def isMismatch (c : QueryComparison Row) : Bool :=
  c.baseError.isNone && c.equivalentError.isNone && !c.equal

def isReportable (c : QueryComparison Row) : Bool := c.isError || c.isMismatch

/-- `repr` of the first differing row, or of `None`. -/
def sample [CanonicalRow Row] (rows : List (Row × Nat)) : String :=
  match rows with
  | [] => "None"
  | (row, _) :: _ => CanonicalRow.repr row

/-- `str(None)` is what an absent error prints as. -/
def optionText (text : Option String) : String := text.getD "None"

/-- A one-line label, for the journal and the round summary. -/
def verdict [CanonicalRow Row] (c : QueryComparison Row) : String :=
  if c.isMismatch then
    s!"MISMATCH: {c.onlyInBase.length} distinct only in base, " ++
      s!"{c.onlyInEquivalent.length} distinct only in equivalent" ++
      s!"; e.g. base={sample c.onlyInBase} equiv={sample c.onlyInEquivalent}"
  else if c.isError then s!"ERROR (equivalent): {optionText c.equivalentError}"
  else if c.isKnownIssue then s!"known-issue ({optionText c.equivalentKnownIssue})"
  else if c.isUncomparable then
    s!"uncomparable (base rejected it): {optionText c.baseError}"
  else if c.reconciled ≠ 0 then
    s!"PASS ({c.reconciled} row(s) reconciled by float tolerance)"
  else "PASS"

end QueryComparison

/-- The difference of two multisets of rows. -/
structure MultisetDiff (Row : Type) where
  equal : Bool
  onlyInBase : List (Row × Nat)
  onlyInOther : List (Row × Nat)
  reconciled : Nat := 0

/-- What one side did with one query: rows, or a failure. -/
structure QueryOutcome (Rows : Type) where
  rows : Option Rows := none
  error : Option String := none
  knownIssue : Option String := none

/-- What a connection does with a query: rows, an error of the driver with the label of a
known issue it may have, a cell that cannot be hashed, or bytes that cannot be decoded. -/
inductive Reaction (Rows : Type) where
  | rows (rows : Rows)
  | dbError (text : String) (label : Option String)
  | typeError (text : String)
  | decodeError (text : String)

/-- `Database.query`; a known issue is reported by its label, unless that is empty. -/
def query {Rows : Type} : Reaction Rows → QueryOutcome Rows
  | .rows rows => { rows := some rows }
  | .dbError text label =>
      let shown := if label.getD "" = "" then text else label.getD ""
      { error := some shown, knownIssue := label }
  | .typeError text => { error := some s!"unhashable query result cell: {text}" }
  | .decodeError text =>
      { error := some s!"engine returned a value that is not valid UTF-8: {text}" }

/-- Diff the outcomes of the two sides; neither failure suppresses the other's. -/
def compareOne {Rows : Type} (compareMultisets : Rows → Rows → MultisetDiff Row)
    (baseOutcome equivalentOutcome : QueryOutcome Rows) (query : String) :
    QueryComparison Row :=
  match baseOutcome.rows, equivalentOutcome.rows with
  | some baseRows, some equivalentRows =>
      let diff := compareMultisets baseRows equivalentRows
      { query := query, equal := diff.equal, onlyInBase := diff.onlyInBase
        onlyInEquivalent := diff.onlyInOther, reconciled := diff.reconciled }
  | _, _ =>
      { query := query, equal := false, baseError := baseOutcome.error
        equivalentError := equivalentOutcome.error
        equivalentKnownIssue := equivalentOutcome.knownIssue }

/-- The comparison names the query it answers. -/
@[simp]
theorem compareOne_query {Rows : Type} (compareMultisets : Rows → Rows → MultisetDiff Row)
    (baseOutcome equivalentOutcome : QueryOutcome Rows) (query : String) :
    (compareOne compareMultisets baseOutcome equivalentOutcome query).query = query := by
  unfold compareOne
  split <;> rfl

/-- Whether the equivalence itself is equivalent, checked before any query runs. -/
structure ObjectComparison (Row : Type) where
  rows : MultisetDiff Row
  baseTypes : List String
  equivalentTypes : List String

namespace ObjectComparison

def typesAgree (c : ObjectComparison Row) : Bool := c.baseTypes = c.equivalentTypes

def equal (c : ObjectComparison Row) : Bool := c.rows.equal && c.typesAgree

/-- `repr` of a tuple of type names. -/
def reprTypes (types : List String) : String :=
  let quoted := types.map fun name => "'" ++ name ++ "'"
  match quoted with
  | [single] => s!"({single},)"
  | _ => "(" ++ ", ".intercalate quoted ++ ")"

/-- A one-line label, for the journal and the round summary. -/
def verdict (c : ObjectComparison Row) : String :=
  if c.equal then
    if c.rows.reconciled ≠ 0 then
      s!"OK (rows and declared types agree; {c.rows.reconciled} row(s) " ++
        "reconciled by float tolerance)"
    else "OK (rows and declared types agree)"
  else
    let rowReasons :=
      if c.rows.equal then []
      else [s!"rows differ: {c.rows.onlyInBase.length} only in base, " ++
        s!"{c.rows.onlyInOther.length} only in equivalent"]
    let typeReasons :=
      if c.typesAgree then []
      else [s!"types differ: base {reprTypes c.baseTypes} " ++
        s!"vs equivalent {reprTypes c.equivalentTypes}"]
    "NOT EQUIVALENT -- " ++ "; ".intercalate (rowReasons ++ typeReasons)

end ObjectComparison

end EqGen.Fuzz.Compare
