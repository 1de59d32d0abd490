import AmosBasic.Regex.Pattern
import AmosBasic.Text.Blank

namespace AmosBasic.Regex

/-- `spaced` tells that blanks and remarks between the parts are skipped. `names` holds the names of
the captures so far. -/
structure Progress where
  rest : List Char
  position : Position := {}
  spaced : Bool := false
  names : List (String × Span) := []

abbrev Parser := StateT Progress (Except Fault)

def Position.after (position : Position) (character : Char) : Position :=
  if character = '\n' then { line := position.line + 1, column := 1 }
  else { position with column := position.column + 1 }

namespace Parser

def fail {α : Type} (cause : Cause) (span : Span) : Parser α :=
  throw { cause, span }

def rest : Parser (List Char) := return (← get).rest

def peek : Parser (Option Char) := return (← get).rest.head?

def atEnd : Parser Bool := return (← get).rest.isEmpty

def position : Parser Position := return (← get).position

def spanFrom (start : Position) : Parser Span := return ⟨start, ← position⟩

def here : Parser Span := do
  spanFrom (← position)

def nextSpan : Parser Span := do
  let progress ← get
  return ⟨progress.position, (progress.rest.head?.map progress.position.after).getD progress.position⟩

def step : Parser Unit :=
  modify fun progress =>
    match progress.rest with
    | [] => progress
    | character :: rest => { progress with rest, position := progress.position.after character }

def steps : Nat → Parser Unit
  | 0 => return ()
  | count + 1 => do
    step
    steps count

def stepOver (text : String) : Parser Bool := do
  if text.toList.isPrefixOf (← rest) then
    steps text.length
    return true
  else return false

def pastBlanks (inRemark : Bool) (position : Position) : List Char → List Char × Position
  | [] => ([], position)
  | character :: rest =>
    if inRemark then pastBlanks (character ≠ '\n') (position.after character) rest
    else if isBlank character then pastBlanks false (position.after character) rest
    else if character = '#' then pastBlanks true (position.after character) rest
    else (character :: rest, position)

def skipBlanks : Parser Unit :=
  modify fun progress =>
    if progress.spaced then
      let (rest, position) := pastBlanks false progress.position progress.rest
      { progress with rest, position }
    else progress

def stepOn : Parser Unit := do
  step
  skipBlanks

def gather (accept : Char → Bool) (advance : Parser Unit) : Nat → Parser (List Char)
  | 0 => return []
  | fuel + 1 => do
    match ← peek with
    | none => return []
    | some character =>
      if accept character then
        advance
        return character :: (← gather accept advance fuel)
      else return []

def gatherAll (accept : Char → Bool) (advance : Parser Unit) : Parser (List Char) := do
  gather accept advance (← rest).length

end Parser

end AmosBasic.Regex
