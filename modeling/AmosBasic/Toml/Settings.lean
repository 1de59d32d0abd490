import AmosBasic.Settings
import AmosBasic.Toml.Document

namespace AmosBasic.Settings

open Toml

/-- The values of a group of settings, by name from a table or by place from a list. A date has
none of them. -/
def group? (names : List String) : Value → Option (List (Option Value))
  | .table _ entries => some (names.map fun name => entries.lookup name)
  | .array items => some ((List.range names.length).map (items[·]?))
  | .tables items =>
    some ((List.range names.length).map fun place => items[place]?.map (Value.table .header))
  | .datetime _ => some (names.map fun _ => none)
  | _ => none

def isEmptyValue : Value → Bool
  | .table _ entries => entries.isEmpty
  | .array items => items.isEmpty
  | .tables items => items.isEmpty
  | _ => false

/-- One of several words: as a string, or as the only key of a table with nothing below it. -/
def choice? {α : Type} (words : List (String × α)) : Value → Option α
  | .string word => words.lookup word
  | .table _ [(word, value)] => if isEmptyValue value then words.lookup word else none
  | _ => none

def boolean? : Value → Option Bool
  | .boolean value => some value
  | _ => none

def string? : Value → Option String
  | .string text => some text
  | _ => none

def orDefault {α : Type} (read? : Value → Option α) (standard : α) : Option Value → Option α
  | none => some standard
  | some value => read? value

def floatFormats : List (String × FloatFormat) :=
  [("amos", .amos), ("ieee", .ieee)]

def unknownOpcodeStyles : List (String × UnknownOpcodeStyle) :=
  [("bracketed", .bracketed), ("permissive", .permissive)]

def decoder? (value : Value) : Option DecodeOptions := do
  let given ← group? ["float_mode", "unknown_opcode"] value
  let floatFormat ← orDefault (choice? floatFormats) .amos (given[0]?.join)
  let unknownOpcode ← orDefault (choice? unknownOpcodeStyles) .bracketed (given[1]?.join)
  return { floatFormat, unknownOpcode }

def output? (value : Value) : Option OutputOptions := do
  let given ← group? ["source_only", "image_folder", "data_folder"] value
  let sourceOnly ← orDefault boolean? false (given[0]?.join)
  let imageFolder ← orDefault string? "" (given[1]?.join)
  let dataFolder ← orDefault string? "" (given[2]?.join)
  return { sourceOnly, imageFolder, dataFolder }

def ofEntries? (entries : Entries) : Option Settings := do
  let decoder ← orDefault decoder? {} (entries.lookup "decoder")
  let output ← orDefault output? {} (entries.lookup "output")
  return { decoder, output }

/-- Settings stand in a document like this one:

    [decoder]
    float_mode = "amos"          # or "ieee"
    unknown_opcode = "bracketed" # or "permissive"

    [output]
    source_only = false
    image_folder = "images"
    data_folder = "banks"

What is missing keeps its default, and what is not known is ignored. -/
def read (text : String) : Except String Settings :=
  match parse? text with
  | none => .error "not a TOML document"
  | some entries =>
    match ofEntries? entries with
    | none => .error "a setting has a value that it cannot have"
    | some settings => .ok settings

def ofToml : String → Except DecodeError Settings :=
  ofText read

end AmosBasic.Settings
