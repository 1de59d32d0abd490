namespace AmosBasic.Toml

/-- How a table came to be: by a header, on the way to the table of a header, by a dotted key, or
as a value. Each may be added to in other ways. -/
inductive Origin where
  | header
  | implied
  | dotted
  | inline
  deriving DecidableEq

inductive Value where
  | string (text : String)
  | integer (number : Int)
  | float (text : String)
  | boolean (value : Bool)
  | datetime (text : String)
  | array (items : List Value)
  | table (origin : Origin) (entries : List (String × Value))
  | tables (items : List (List (String × Value)))

abbrev Entries := List (String × Value)

namespace Entries

def replace (entries : Entries) (key : String) (value : Value) : Entries :=
  entries.map fun (old, kept) => if old = key then (old, value) else (old, kept)

/-- Changes the table at the end of a path. Missing tables on the way are made; of an array of
tables the last one is meant. A dotted path goes only through tables that no header has defined,
and no path goes through a table that was written as a value. -/
def change (dotted : Bool) (act : Origin → Entries → Option Entries) :
    List String → Origin → Entries → Option Entries
  | [], origin, entries => act origin entries
  | key :: path, _, entries =>
    match entries.lookup key with
    | none => do
      let origin := if dotted then .dotted else .implied
      let inner ← change dotted act path origin []
      return entries ++ [(key, .table origin inner)]
    | some (.table origin inner) =>
      if origin = .inline ∨ (dotted ∧ origin = .header) then none
      else do
        let inner ← change dotted act path origin inner
        return replace entries key (.table origin inner)
    | some (.tables items) => do
      let inner ← change dotted act path .header (← items.getLast?)
      return replace entries key (.tables (items.dropLast ++ [inner]))
    | some _ => none

def insert (key : String) (value : Value) (entries : Entries) : Option Entries :=
  if (entries.lookup key).isSome then none else some (entries ++ [(key, value)])

def assign (path : List String) (key : String) (value : Value) (entries : Entries) : Option Entries :=
  let act (origin : Origin) (entries : Entries) : Option Entries :=
    if path.isEmpty ∨ origin = .dotted then insert key value entries else none
  change true act path .header entries

/-- Defines the table of a header. It may be there already only as part of another path. -/
def define (path : List String) (key : String) (entries : Entries) : Option Entries :=
  let act (_ : Origin) (entries : Entries) : Option Entries :=
    match entries.lookup key with
    | none => insert key (.table .header []) entries
    | some (.table .implied inner) => some (replace entries key (.table .header inner))
    | some _ => none
  change false act path .header entries

def append (path : List String) (key : String) (entries : Entries) : Option Entries :=
  let act (_ : Origin) (entries : Entries) : Option Entries :=
    match entries.lookup key with
    | none => insert key (.tables [[]]) entries
    | some (.tables items) => some (replace entries key (.tables (items ++ [[]])))
    | some _ => none
  change false act path .header entries

end Entries

end AmosBasic.Toml
