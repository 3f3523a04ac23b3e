import Mathlib.Data.Finset.Sort
import Mathlib.Data.Finset.Option
import Mathlib.Data.List.DropRight
import Mathlib.Data.Char
import Mathlib.Data.List.Lex
import EqGen.Lib.Lines
import EqGen.Lib.Regex

/-! Write fence policy for CrateDB eventual consistency: `classify` and `FenceState`. -/

namespace EqGen.Dialects.Cratedb.Refresh

open EqGen.Lib.Lines
open EqGen.Lib.Regex

abbrev Text := List Char

/-- What the patterns and `str.lower` ask of Unicode beyond ASCII. -/
structure UnicodeTables where
  word : Char → Bool
  lower : Char → List Char
  word_ascii : ∀ c, c.toNat < 128 → word c = (c.isAlphanum || c == '_')
  lower_ascii : ∀ c, c.toNat < 128 → lower c = [c.toLower]

inductive Verb where
  | insertValues
  | write
  | read
  | rename
  | createTable
  | createView
  | drop
  | opaqueVerb
  deriving DecidableEq, Repr

structure Effect where
  verb : Verb
  targets : Finset Text := ∅
  renamedTo : Option Text := none
  deriving DecidableEq

def Effect.mayRead (effect : Effect) : Bool := effect.verb ≠ .insertValues

/-- How `IGNORECASE` folds a character: beside the ASCII letters, four others are letters. -/
def fold (c : Char) : Char :=
  if c.toNat = 0x130 ∨ c.toNat = 0x131 then 'i'
  else if c.toNat = 0x17f then 's'
  else if c.toNat = 0x212a then 'k'
  else c.toLower

/-- `[a-z0-9_$]` -/
def identLetter (c : Char) : Bool := c.isLower || c.isDigit || c == '_' || c == '$'

/-- `[A-Za-z_]` under `IGNORECASE` -/
def identStart (c : Char) : Bool := (fold c).isLower || fold c == '_'

/-- `[A-Za-z0-9_$]` under `IGNORECASE` -/
def identPart (c : Char) : Bool := identLetter (fold c)

def notQuote (c : Char) : Bool := c != '"'

def notParenthesis (c : Char) : Bool := c != '(' && c != ')'

def character (c : Char) : Pattern := .char (· == c)

def blanks0 : Pattern := .many isSpace

def blanks1 : Pattern := some1 isSpace

def word (text : String) : Pattern := lit fold text.toList

/-- Each word followed by blanks. -/
def phrase : List String → Pattern → Pattern
  | [], rest => rest
  | text :: texts, rest => .seq (word text) (.seq blanks1 (phrase texts rest))

def quotedIdent : Pattern := .seq (character '"') (.seq (some1 notQuote) (character '"'))

def bareIdent : Pattern := .seq (.char identStart) (.many identPart)

def ident : Pattern := .alt quotedIdent bareIdent

/-- The dot of a qualified name, with the blanks around it. -/
def dot : Pattern := .seq blanks0 (.seq (character '.') blanks0)

def qualifier : Pattern := .seq ident dot

def qualified : Pattern := .seq (opt qualifier) ident

section Patterns

variable (tables : UnicodeTables)

/-- A word that ends at a word boundary. -/
def wholeWord (text : String) : Pattern := .seq (word text) (.boundary tables.word)

def insertPattern : Pattern := phrase ["insert", "into"] (.group qualified)

def columnList : Pattern :=
  .seq (character '(') (.seq (.many notParenthesis) (.seq (character ')') blanks0))

/-- What makes an `INSERT` one of plain values, after the name of its table. -/
def valuesPattern : Pattern :=
  .seq blanks0 (.seq (opt columnList) (wholeWord tables "values"))

def insertValuesPattern : Pattern :=
  phrase ["insert", "into"] (.seq qualified (valuesPattern tables))

def updatePattern : Pattern := phrase ["update"] (.group qualified)

def deletePattern : Pattern := phrase ["delete", "from"] (.group qualified)

def copyFromPattern : Pattern :=
  phrase ["copy"] (.seq (.group qualified) (.seq blanks1 (wholeWord tables "from")))

def renamePattern : Pattern :=
  phrase ["alter", "table"]
    (.seq (.group qualified) (.seq blanks1 (phrase ["rename", "to"] (.group qualified))))

def ifNotExists : Pattern := phrase ["if", "not", "exists"] .eps

def createTablePattern : Pattern :=
  phrase ["create", "table"] (.seq (opt ifNotExists) (.group qualified))

def createViewPattern : Pattern :=
  phrase ["create"] (.seq (opt (phrase ["or", "replace"] .eps))
    (phrase ["view"] (.group qualified)))

def dropPattern : Pattern :=
  phrase ["drop"] (.seq (.alt (word "table") (word "view")) (.seq blanks1
    (.seq (opt (phrase ["if", "exists"] .eps)) (.group qualified))))

def readOnlyWords : List String :=
  ["select", "with", "show", "explain", "analyze", "refresh", "set", "reset", "begin", "commit",
    "rollback", "deallocate"]

/-- The first word of the list that leads to a match is taken. -/
def oneOf : List String → Pattern → Pattern
  | [], _ => .char fun _ => false
  | text :: texts, rest => .alt (.seq (word text) rest) (oneOf texts rest)

def readOnlyPattern : Pattern := oneOf readOnlyWords (.boundary tables.word)

def createTableAsPattern : Pattern :=
  phrase ["create", "table"] (.seq (opt ifNotExists)
    (.seq qualified (.seq blanks1 (wholeWord tables "as"))))

/-- One blank, line comment or block comment. -/
def noisePattern : Pattern :=
  .alt (.char isSpace)
    (.alt (.seq (lit id ['-', '-']) (.seq (.many (· != '\n')) (character '\n')))
      (.seq (lit id ['/', '*']) (.seq (.lazyMany fun _ => true) (lit id ['*', '/']))))

/-- Remove the leading noise; every piece of it has at least one character. -/
def dropNoise : Nat → Text → Text
  | 0, text => text
  | fuel + 1, text =>
      match restAfter noisePattern text with
      | some rest => dropNoise fuel rest
      | none => text

/-- The statement without leading noise, trailing blanks and trailing semicolons. -/
def stripped (sql : Text) : Text :=
  strip ((strip (dropNoise sql.length sql)).rdropWhile (· == ';'))

/-- A name with the blanks around its dots removed and its unquoted parts in lower case. -/
def normalize (name : Text) : Text :=
  let parts := ((strip name).splitOn '.').map strip
  ['.'].intercalate (parts.map fun part =>
    if part.head? = some '"' then part else part.flatMap tables.lower)

def Effect.on (verb : Verb) (name : Text) : Effect :=
  { verb := verb, targets := {normalize tables name} }

/-- The first group of a match, when there is one. -/
def captured (r : Pattern) (text : Text) : Option Text :=
  (matchFront r text).bind List.head?

/-- The patterns in the order `classify` tries them on a stripped statement. -/
def classifyStripped (text : Text) : Effect :=
  if text = [] then { verb := .read }
  else
    match matchFront renamePattern text with
    | some [name, renamedTo] =>
        { verb := .rename, targets := {normalize tables name}
          renamedTo := some (normalize tables renamedTo) }
    | _ =>
    match captured createViewPattern text with
    | some name => Effect.on tables .createView name
    | none =>
    match matchFront (createTableAsPattern tables) text, captured createTablePattern text with
    | some _, some name => Effect.on tables .write name
    | _, some name => Effect.on tables .createTable name
    | _, none =>
    match captured dropPattern text with
    | some name => Effect.on tables .drop name
    | none =>
    match captured insertPattern text with
    | some name =>
        Effect.on tables
          (if (matchFront (insertValuesPattern tables) text).isSome then .insertValues
            else .write) name
    | none =>
    match (captured updatePattern text).or ((captured deletePattern text).or
      (captured (copyFromPattern tables) text)) with
    | some name => Effect.on tables .write name
    | none =>
        if (matchFront (readOnlyPattern tables) text).isSome then { verb := .read }
        else { verb := .opaqueVerb }

def classify (sql : Text) : Effect := classifyStripped tables (stripped sql)

end Patterns

/-- The known tables and views, and the tables with writes that may not be visible yet. -/
structure FenceState where
  tables : Finset Text := ∅
  views : Finset Text := ∅
  dirty : Finset Text := ∅
  deriving DecidableEq

def refreshTable (name : Text) : Text := "REFRESH TABLE ".toList ++ name

namespace FenceState

variable (tables : UnicodeTables)

def before (fence : FenceState) (sql : Text) : List Text :=
  if !(classify tables sql).mayRead || fence.dirty = ∅ then []
  else (fence.dirty.sort (· ≤ ·)).map refreshTable

/-- What one effect does to the three sets. -/
def record (fence : FenceState) (effect : Effect) : FenceState :=
  match effect.verb with
  | .insertValues | .write =>
      { fence with
        tables := fence.tables ∪ (effect.targets \ fence.views)
        dirty := fence.dirty ∪ (effect.targets \ fence.views) }
  | .rename =>
      { fence with
        dirty := fence.dirty \ effect.targets
        tables := fence.tables \ effect.targets ∪ effect.renamedTo.toFinset }
  | .createTable => { fence with tables := fence.tables ∪ effect.targets }
  | .createView =>
      { fence with
        views := fence.views ∪ effect.targets
        tables := fence.tables \ effect.targets }
  | .drop =>
      { tables := fence.tables \ effect.targets
        views := fence.views \ effect.targets
        dirty := fence.dirty \ effect.targets }
  | .opaqueVerb => { fence with dirty := fence.dirty ∪ fence.tables }
  | .read => fence

def after (fence : FenceState) (sql : Text) : FenceState :=
  fence.record (classify tables sql)

def flushed (fence : FenceState) : FenceState := { fence with dirty := ∅ }

def paranoidBefore (fence : FenceState) : List Text :=
  (fence.tables.sort (· ≤ ·)).map refreshTable

end FenceState

end EqGen.Dialects.Cratedb.Refresh
