import AmosBasic.Regex.Parser.Escape

namespace AmosBasic.Regex

def namedRuns? (name : String) : Option (List (Nat × Nat)) :=
  [("alnum", [(0x30, 0x39), (0x41, 0x5A), (0x61, 0x7A)]),
   ("alpha", [(0x41, 0x5A), (0x61, 0x7A)]),
   ("ascii", [(0x00, 0x7F)]),
   ("blank", [(0x09, 0x09), (0x20, 0x20)]),
   ("cntrl", [(0x00, 0x1F), (0x7F, 0x7F)]),
   ("digit", [(0x30, 0x39)]),
   ("graph", [(0x21, 0x7E)]),
   ("lower", [(0x61, 0x7A)]),
   ("print", [(0x20, 0x7E)]),
   ("punct", [(0x21, 0x2F), (0x3A, 0x40), (0x5B, 0x60), (0x7B, 0x7E)]),
   ("space", [(0x09, 0x0D), (0x20, 0x20)]),
   ("upper", [(0x41, 0x5A)]),
   ("word", [(0x30, 0x39), (0x41, 0x5A), (0x5F, 0x5F), (0x61, 0x7A)]),
   ("xdigit", [(0x30, 0x39), (0x41, 0x46), (0x61, 0x66)])].lookup name

structure OpenSet where
  opening : Span
  negated : Bool
  pending? : Option (SetOperation × SetPattern) := none
  span : Span
  items : List SetPattern := []

namespace OpenSet

def push (set : OpenSet) (item : SetPattern) : OpenSet :=
  let start := if set.items.isEmpty then item.span.start else set.span.start
  { set with span := ⟨start, item.span.stop⟩, items := item :: set.items }

def side (set : OpenSet) : SetPattern :=
  match set.items with
  | [] => .nothing set.span
  | [item] => item
  | items => .several set.span items.reverse

def inside (set : OpenSet) : SetPattern :=
  match set.pending? with
  | none => set.side
  | some (operation, left) =>
    .operation ⟨left.span.start, set.side.span.stop⟩ operation left set.side

def operate (set : OpenSet) (operation : SetOperation) (place : Span) : OpenSet :=
  { set with pending? := some (operation, set.inside), span := place, items := [] }

end OpenSet

namespace Parser

/-- The characters that follow the next one, with blanks and one sign of a remark skipped where they
may be. -/
def pastNext : Parser (Option Char) := do
  let progress ← get
  let after := progress.rest.tail
  if progress.spaced then
    let signed := after.dropWhile isBlank
    let unsigned := match signed with
      | '#' :: rest => rest.dropWhile isBlank
      | rest => rest
    return unsigned.head? <|> after.head?
  else return after.head?

def leadingHyphens (start : Position) (set : OpenSet) : Nat → Parser OpenSet
  | 0 => return set
  | fuel + 1 => do
    if (← peek) = some '-' then
      let set := set.push (.literal { span := ← nextSpan, character := '-' })
      stepOn
      if ← atEnd then fail .setUnclosed ⟨start, start⟩ else leadingHyphens start set fuel
    else return set

def stepInOpening (start : Position) : Parser Unit := do
  stepOn
  if ← atEnd then fail .setUnclosed (← spanFrom start)

def setOpening : Parser OpenSet := do
  let start ← position
  stepInOpening start
  let negated := (← peek) = some '^'
  if negated then stepInOpening start
  let place ← here
  let set ← leadingHyphens start { opening := place, negated, span := place } (← rest).length
  if set.items.isEmpty ∧ (← peek) = some ']' then
    let set := set.push (.literal { span := ← nextSpan, character := ']' })
    stepInOpening start
    return { set with opening := ← spanFrom start }
  else return { set with opening := ← spanFrom start }

def namedSet? : Parser (Option SetPattern) := do
  let before ← get
  let start ← position
  if ← stepOver "[:" then
    let negated ← stepOver "^"
    let name ← gatherAll (· ≠ ':') step
    if ← stepOver ":]" then
      match namedRuns? (String.ofList name) with
      | some runs => return some (.named (← spanFrom start) negated runs)
      | none =>
        set before
        return none
    else
      set before
      return none
  else return none

def setMember : Parser Pattern := do
  match ← peek with
  | some '\\' => escape
  | character? =>
    let span ← nextSpan
    step
    return .literal { span, character := character?.getD '\x00' }

def itemOf : Pattern → Parser SetPattern
  | .literal literal => return .literal literal
  | .charClass span negated kind => return .charClass span negated kind
  | .property span name => return .property span name
  | other => fail .setEscapeInvalid other.span

def boundOf : Pattern → Parser Literal
  | .literal literal => return literal
  | other => fail .setRangeLiteral other.span

/-- An item of a set: a member, or a range between two. A hyphen makes no range before the closing
bracket and before another hyphen. -/
def setItem (opening : Span) : Parser SetPattern := do
  let first ← setMember
  skipBlanks
  match ← peek with
  | none => fail .setUnclosed opening
  | some '-' =>
    let next ← pastNext
    if next = some ']' ∨ next = some '-' then itemOf first
    else
      stepOn
      if ← atEnd then fail .setUnclosed opening
      else
        let last ← setMember
        let span : Span := ⟨first.span.start, last.span.stop⟩
        let low ← boundOf first
        let high ← boundOf last
        if low.character ≤ high.character then return .range span low high
        else fail .setRangeInvalid span
  | some _ => itemOf first

def setRest : Nat → OpenSet → List OpenSet → Parser Pattern
  | 0, set, _ => fail .setUnclosed set.opening
  | fuel + 1, set, outer => do
    skipBlanks
    let operation (kind : SetOperation) : Parser Pattern := do
      steps 2
      setRest fuel (set.operate kind (← here)) outer
    match ← rest with
    | [] => fail .setUnclosed set.opening
    | '[' :: _ =>
      match ← namedSet? with
      | some item => setRest fuel (set.push item) outer
      | none => setRest fuel (← setOpening) (set :: outer)
    | ']' :: _ =>
      step
      let span ← spanFrom set.opening.start
      match outer with
      | [] => return .set span set.negated set.inside
      | parent :: outer => setRest fuel (parent.push (.nested span set.negated set.inside)) outer
    | '&' :: '&' :: _ => operation .intersection
    | '-' :: '-' :: _ => operation .difference
    | '~' :: '~' :: _ => operation .symmetricDifference
    | _ => setRest fuel (set.push (← setItem set.opening)) outer

def wholeSet : Parser Pattern := do
  let opening ← setOpening
  setRest (← rest).length opening []

end Parser

end AmosBasic.Regex
