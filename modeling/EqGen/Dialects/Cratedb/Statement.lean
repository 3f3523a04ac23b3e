import EqGen.Dialects.Cratedb.Refresh

/-!
Statements as an engine reads them: what a text creates, writes, renames or drops, with every
spelling of blanks, letter case, quotes, schemas and leading comments.
-/

namespace EqGen.Dialects.Cratedb.Statement

open EqGen.Lib.Lines
open EqGen.Dialects.Cratedb.Refresh

/-- A relation of the engine. -/
structure Obj where
  schema : Text
  name : Text
  deriving DecidableEq

def isAscii (c : Char) : Bool := c.toNat < 128

/-- An unquoted identifier that is no reserved word. -/
def bareText (text : Text) : Bool :=
  text.head?.any identStart && text.all identPart && text.all isAscii &&
    text.map fold != ['i', 'f']

def quotedText (text : Text) : Bool :=
  text != [] && text.all notQuote

inductive Ident where
  | bare (text : Text) (h : bareText text = true)
  | quoted (text : Text) (h : quotedText text = true)
  deriving DecidableEq

namespace Ident

def text : Ident → Text
  | bare text _ => text
  | quoted text _ => '"' :: text ++ ['"']

/-- The name the engine knows: unquoted identifiers are folded to lower case. -/
def canonical : Ident → Text
  | bare text _ => text.map Char.toLower
  | quoted text _ => text

end Ident

/-- A proper end of an unquoted identifier reads as the word `values`: nothing or a `$`
follows the word there. -/
def innerValues (text : Text) : Bool :=
  (text.tails.drop 1).any fun more =>
    "values".toList.isPrefixOf (more.map fold) && (more.drop 6).head?.all (· == '$')

def Ident.hidesValues : Ident → Bool
  | .bare text _ => innerValues text
  | .quoted _ _ => false

def blankText (text : Text) : Bool := text.all isSpace

/-- A run of blanks, perhaps empty. -/
structure Blanks where
  text : Text
  blank : blankText text = true
  deriving DecidableEq

/-- A name, perhaps with a schema. -/
structure Name where
  schema : Option (Ident × Blanks × Blanks)
  ident : Ident
  deriving DecidableEq

namespace Name

def text (name : Name) : Text :=
  match name.schema with
  | none => name.ident.text
  | some (schema, before, after) =>
      schema.text ++ before.text ++ '.' :: after.text ++ name.ident.text

def obj (defaultSchema : Text) (name : Name) : Obj where
  schema := (name.schema.map fun s => s.1.canonical).getD defaultSchema
  name := name.ident.canonical

/-- Some part of the name ends like the word `values`. -/
def hidesValues (name : Name) : Bool :=
  name.ident.hidesValues || name.schema.any fun schema => schema.1.hidesValues

end Name

/-- A keyword in any letter case. -/
structure Word (word : String) where
  text : Text
  spelled : text.map fold = word.toList
  ascii : text.all isAscii = true

/-- Keywords, each followed by blanks. -/
inductive Spelled : List String → Text → Prop
  | nil : Spelled [] []
  | cons {text : String} {texts : List String} {rest : Text} (spelling : Word text)
      (blanks : Blanks) (h : blanks.text ≠ []) (hrest : Spelled texts rest) :
      Spelled (text :: texts) (spelling.text ++ blanks.text ++ rest)

structure Phrase (words : List String) where
  text : Text
  spelled : Spelled words text

def phraseText {words : List String} (phrase : Option (Phrase words)) : Text :=
  (phrase.map Phrase.text).getD []

/-- One piece of what may stand before a statement. -/
inductive Noise where
  | blank (c : Char) (h : isSpace c = true)
  | line (body : Text) (h : '\n' ∉ body)
  | block (body : Text) (h : ¬ ['*', '/'] <:+: body)

def Noise.text : Noise → Text
  | blank c _ => [c]
  | line body _ => '-' :: '-' :: body ++ ['\n']
  | block body _ => '/' :: '*' :: body ++ ['*', '/']

/-- The columns of an `INSERT`, in their parentheses. -/
structure Columns where
  body : Text
  plain : body.all notParenthesis = true
  after : Blanks

def columnsText (columns : Option Columns) : Text :=
  match columns with
  | none => []
  | some columns => '(' :: columns.body ++ ')' :: columns.after.text

inductive RelationKind where
  | table
  | view
  deriving DecidableEq

def RelationKind.word : RelationKind → String
  | table => "table"
  | view => "view"

/-- What an `INSERT` from a query selects with. -/
inductive QueryWord where
  | select (word : Word "select")
  | withClause (word : Word "with")

def QueryWord.text : QueryWord → Text
  | select word => word.text
  | withClause word => word.text

/-- The statements the engine admits, up to the text that decides what they are. -/
inductive Form where
  | createTable (create : Phrase ["create", "table"])
      (guard : Option (Phrase ["if", "not", "exists"])) (name : Name) (blanks : Blanks)
  | createTableAs (create : Phrase ["create", "table"])
      (guard : Option (Phrase ["if", "not", "exists"])) (name : Name) (blanks : Blanks)
      (hblanks : blanks.text ≠ []) (as : Word "as")
  | createView (create : Phrase ["create"]) (replace : Option (Phrase ["or", "replace"]))
      (view : Phrase ["view"]) (name : Name)
  | insertValues (insert : Phrase ["insert", "into"]) (name : Name) (blanks : Blanks)
      (columns : Option Columns) (hblanks : blanks.text ≠ [] ∨ columns.isSome) (values : Word "values")
  | insertSelect (insert : Phrase ["insert", "into"]) (name : Name) (blanks : Blanks)
      (columns : Option Columns) (hblanks : blanks.text ≠ [] ∨ columns.isSome) (source : QueryWord)
  | update (head : Phrase ["update"]) (name : Name)
  | delete (head : Phrase ["delete", "from"]) (name : Name)
  | copyFrom (copy : Phrase ["copy"]) (name : Name) (blanks : Blanks)
      (hblanks : blanks.text ≠ []) (source : Word "from")
  | rename (alter : Phrase ["alter", "table"]) (name : Name) (blanks : Blanks)
      (hblanks : blanks.text ≠ []) (renameTo : Phrase ["rename", "to"]) (target : Ident)
  | drop (head : Phrase ["drop"]) (kind : RelationKind) (word : Word kind.word)
      (blanks : Blanks) (hblanks : blanks.text ≠ []) (guard : Option (Phrase ["if", "exists"]))
      (first : Name) (more : List (Blanks × Blanks × Name))
  | query (word : String) (h : word ∈ readOnlyWords) (spelling : Word word)

/-- The further names of a `DROP`. -/
def moreText : List (Blanks × Blanks × Name) → Text
  | [] => []
  | (before, after, name) :: more =>
      before.text ++ ',' :: after.text ++ name.text ++ moreText more

def Form.text : Form → Text
  | createTable create guard name blanks =>
      create.text ++ phraseText guard ++ name.text ++ blanks.text ++ ['(']
  | createTableAs create guard name blanks _ as =>
      create.text ++ phraseText guard ++ name.text ++ blanks.text ++ as.text
  | createView create replace view name =>
      create.text ++ phraseText replace ++ view.text ++ name.text
  | insertValues insert name blanks columns _ values =>
      insert.text ++ name.text ++ blanks.text ++ columnsText columns ++ values.text
  | insertSelect insert name blanks columns _ source =>
      insert.text ++ name.text ++ blanks.text ++ columnsText columns ++ source.text
  | update head name => head.text ++ name.text
  | delete head name => head.text ++ name.text
  | copyFrom copy name blanks _ source =>
      copy.text ++ name.text ++ blanks.text ++ source.text
  | rename alter name blanks _ renameTo target =>
      alter.text ++ name.text ++ blanks.text ++ renameTo.text ++ target.text
  | drop head _ word blanks _ guard first more =>
      head.text ++ word.text ++ blanks.text ++ phraseText guard ++ first.text ++ moreText more
  | query _ _ spelling => spelling.text

/-- What follows a keyword: nothing, or no character of a word or an identifier. -/
def EndsWord (tables : UnicodeTables) (tail : Text) : Prop :=
  ∀ c ∈ tail.head?, tables.word c = false ∧ identPart c = false

/-- What follows a name: no character that would lengthen it and no dot. -/
def EndsName (tail : Text) : Prop :=
  (∀ c ∈ tail.head?, identPart c = false) ∧ (tail.dropWhile isSpace).head? ≠ some '.'

/-- What may follow the deciding text of a statement. -/
def Form.TailOk (tables : UnicodeTables) (tail : Text) : Form → Prop
  | createTable _ _ _ _ => True
  | createView _ _ _ _ | update _ _ | delete _ _ | rename _ _ _ _ _ _
  | drop _ _ _ _ _ _ _ _ => EndsName tail
  | _ => EndsWord tables tail

/-- What the engine does for a statement. -/
inductive Action where
  | createTable (ifNotExists : Bool) (obj : Obj)
  | createTableAs (ifNotExists : Bool) (obj : Obj)
  | createView (orReplace : Bool) (obj : Obj)
  | insertValues (obj : Obj)
  | write (obj : Obj)
  | rename (obj : Obj) (name : Text)
  | drop (kind : RelationKind) (ifExists : Bool) (objs : List Obj)
  | query
  | other (written : Finset Obj)
  deriving DecidableEq

def Form.action (defaultSchema : Text) : Form → Action
  | createTable _ guard name _ => .createTable guard.isSome (name.obj defaultSchema)
  | createTableAs _ guard name _ _ _ => .createTableAs guard.isSome (name.obj defaultSchema)
  | createView _ replace _ name => .createView replace.isSome (name.obj defaultSchema)
  | insertValues _ name _ _ _ _ => .insertValues (name.obj defaultSchema)
  | insertSelect _ name _ _ _ _ | update _ name | delete _ name | copyFrom _ name _ _ _ =>
      .write (name.obj defaultSchema)
  | rename _ name _ _ _ target => .rename (name.obj defaultSchema) target.canonical
  | drop _ kind _ _ _ guard first more =>
      .drop kind guard.isSome
        ((first :: more.map fun entry => entry.2.2).map (Name.obj defaultSchema))
  | query _ _ _ => .query

/-- A statement: one of the known forms behind its noise, or a text that `classify` does not
recognise, which may write to any tables. -/
inductive Stmt (tables : UnicodeTables) where
  | known (noise : List Noise) (form : Form) (tail : Text) (h : form.TailOk tables tail)
  | other (text : Text) (h : classify tables text = { verb := .opaqueVerb })
      (written : Finset Obj)

def noiseText (noise : List Noise) : Text := noise.flatMap Noise.text

def Stmt.text {tables : UnicodeTables} : Stmt tables → Text
  | known noise form tail _ => noiseText noise ++ form.text ++ tail
  | other text _ _ => text

def Stmt.action {tables : UnicodeTables} (defaultSchema : Text) : Stmt tables → Action
  | known _ form _ _ => form.action defaultSchema
  | other _ _ written => .other written

end EqGen.Dialects.Cratedb.Statement
