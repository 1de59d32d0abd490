import AmosBasic.Note
import AmosBasic.Regex

namespace AmosBasic.Command

/-- A directive without a name is about every part of the program. -/
structure Directive where
  name? : Option String
  rank : Nat
  deriving DecidableEq

namespace Directive

def rankOfLevel? (word : String) : Option Nat :=
  [("off", 0), ("error", 1), ("warn", 2), ("info", 3), ("debug", 4), ("trace", 5)].lookup
    (String.ofList (word.toList.map Char.toLower))

def parse (text : String) : Except String Directive :=
  match text.splitOn "=" with
  | [word] =>
    match rankOfLevel? word with
    | some rank => .ok ⟨none, rank⟩
    | none => .ok ⟨some word, Level.trace.rank⟩
  | [name, level] =>
    let level := trim level
    if level.isEmpty then .ok ⟨some name, Level.trace.rank⟩
    else match rankOfLevel? level with
      | some rank => .ok ⟨some name, rank⟩
      | none => .error s!"invalid logging spec '{level}'"
  | _ => .error s!"invalid logging spec '{text}'"

def concerns (directive : Directive) (origin : Origin) : Bool :=
  directive.name?.all fun name => name.toList.isPrefixOf origin.name.toList

def weight (directive : Directive) : Nat :=
  (directive.name?.map String.utf8ByteSize).getD 0

def put (directive : Directive) : List Directive → List Directive
  | [] => [directive]
  | old :: rest => if old.name? = directive.name? then directive :: rest else old :: put directive rest

end Directive

structure LogFilter where
  directives : List Directive := []
  regex? : Option Regex := none

namespace LogFilter

/-- The highest rank that is shown of a part of the program. Of the directives about it the one with the
longest name decides, and of two as long as each other the later one. -/
def rankOf (filter : LogFilter) (origin : Origin) : Nat :=
  if filter.directives.isEmpty then Level.error.rank
  else
    let longer (best? : Option Directive) (next : Directive) : Option Directive :=
      match best? with
      | some best => if next.weight < best.weight then some best else some next
      | none => some next
    ((filter.directives.filter (·.concerns origin)).foldl longer none).elim 0 Directive.rank

def shows (filter : LogFilter) (note : Note) : Bool :=
  note.level.rank ≤ filter.rankOf note.origin && filter.regex?.all (·.matchesIn note.message)

def parseDirectives (text : String) : List Directive × List String :=
  let read := (((text.splitOn ",").map trim).filter (· ≠ "")).map Directive.parse
  let directives := read.filterMap fun
    | .ok directive => some directive
    | .error _ => none
  let complaints := read.filterMap fun
    | .error complaint => some complaint
    | .ok _ => none
  (directives.foldl (fun earlier directive => directive.put earlier) [], complaints)

/-- A specification is a list of directives with commas between them: a level for everything, `name=level` for what
comes from parts of the program whose name begins so, or a name alone. Behind a slash there may be a pattern that the
remarks must match. -/
def parse (specification : String) : LogFilter × List String :=
  match specification.splitOn "/" with
  | [] => ({}, [])
  | [text] =>
    let (directives, complaints) := parseDirectives text
    ({ directives }, complaints)
  | [text, pattern] =>
    let (directives, complaints) := parseDirectives text
    match Regex.ofText pattern with
    | .ok regex => ({ directives, regex? := some regex }, complaints)
    | .error error => ({ directives }, complaints ++ [s!"invalid regex filter - {error.message}"])
  | _ => ({}, [s!"invalid logging spec '{specification}' (too many '/'s)"])

end LogFilter

end AmosBasic.Command
