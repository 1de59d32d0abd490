import AmosBasic.Toml.Lexer
import AmosBasic.Toml.Value

namespace AmosBasic.Toml

open AmosBasic.Toml.Parser

def nestingLimit : Nat := 80

def isBare (character : Char) : Bool :=
  within 0x41 0x5A character || within 0x61 0x7A character || isDigit character || character = '-' ||
    character = '_'

def keyPart : Parser String := do
  blanks
  let part ← basicString <|> literalString <|> takeWhile1 isBare
  blanks
  return String.ofList part

def key : Parser (List String × String) := do
  let parts ← separated keyPart (char '.')
  if nestingLimit ≤ parts.length then failure
  else return (parts.dropLast, parts.getLastD "")

def pair (value : Parser Value) : Parser ((List String × String) × Value) := do
  let key ← key
  char '='
  blanks
  return (key, ← value)

def array (value : Parser Value) : Parser Value := do
  char '['
  let items? ← possible (separated (do layout; let item ← value; layout; return item) (char ','))
  if items?.isSome then
    let _ ← possible (char ',')
  layout
  char ']'
  return .array (items?.getD [])

def inlineTable (value : Parser Value) : Parser Value := do
  char '\x7b'
  let pairs? ← possible (separated (do let entry ← pair value; blanks; return entry) (char ','))
  blanks
  char '\x7d'
  let assign (entries : Entries) (entry : (List String × String) × Value) : Option Entries :=
    entries.assign entry.1.1 entry.1.2 entry.2
  match (pairs?.getD []).foldlM assign [] with
  | some entries => return .table .inline entries
  | none => failure

/-- A value with at most `depth` arrays and tables around a part of it. -/
def value : Nat → Parser Value
  | 0 => scalar
  | depth + 1 => scalar <|> array (value depth) <|> inlineTable (value depth)
where
  scalar : Parser Value :=
    Value.string <$> string <|> Value.datetime <$> datetime <|> Value.float <$> float <|>
      Value.integer <$> integer <|> Value.boolean <$> boolean

inductive Statement where
  | empty
  | table (path : List String) (key : String)
  | tables (path : List String) (key : String)
  | assign (path : List String) (key : String) (value : Value)

def header : Parser Statement :=
  (do
    text "[["
    let (path, key) ← key
    text "]]"
    return .tables path key) <|> do
    char '['
    let (path, key) ← key
    char ']'
    return .table path key

def statement : Parser Statement := do
  blanks
  let found ← header <|> (do
    let ((path, key), value) ← pair (value (nestingLimit - 1))
    return .assign path key value) <|> return .empty
  lineRest
  return found

structure Document where
  root : Entries := []
  current : List String := []

def Document.add (document : Document) : Statement → Option Document
  | .empty => some document
  | .table path key => do
    return { root := ← document.root.define path key, current := path ++ [key] }
  | .tables path key => do
    return { root := ← document.root.append path key, current := path ++ [key] }
  | .assign path key value => do
    let root ← document.root.change false (fun _ entries => entries.assign path key value) document.current
      .header
    return { document with root }

def Document.addLines (document : Document) : Nat → List Char → Option Document
  | _, [] => some document
  | 0, _ :: _ => none
  | fuel + 1, input => do
    let (found, rest) ← statement input
    let document ← document.add found
    document.addLines fuel rest

def parse? (text : String) : Option Entries :=
  let input := match text.toList with
    | '\uFEFF' :: rest => rest
    | input => input
  (Document.addLines {} input.length input).map Document.root

end AmosBasic.Toml
