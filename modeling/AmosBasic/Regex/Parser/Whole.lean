import AmosBasic.Regex.Parser.Group
import AmosBasic.Regex.Parser.Set

namespace AmosBasic.Regex

structure Level where
  start : Position
  alternatives : List Pattern := []
  partsStart : Position
  parts : List Pattern := []

namespace Level

def begin (start : Position) : Level := { start, partsStart := start }

def push (level : Level) (part : Pattern) : Level :=
  { level with parts := part :: level.parts }

def sequence (level : Level) (stop : Position) : Pattern :=
  match level.parts with
  | [] => .empty ⟨level.partsStart, stop⟩
  | [part] => part
  | parts => .sequence ⟨level.partsStart, stop⟩ parts.reverse

def inside (level : Level) (stop : Position) : Pattern :=
  match level.alternatives with
  | [] => level.sequence stop
  | alternatives => .alternatives ⟨level.start, stop⟩ (level.sequence stop :: alternatives).reverse

def alternate (level : Level) (stop next : Position) : Level :=
  { level with alternatives := level.sequence stop :: level.alternatives, partsStart := next, parts := [] }

end Level

structure OpenGroup where
  opening : Span
  kind : GroupKind
  spaced : Bool
  before : Level

namespace Parser

def repeated (level : Level) : Parser (Pattern × Level) := do
  match level.parts with
  | [] | .empty _ :: _ | .flags .. :: _ => fail .repetitionAlone (← nextSpan)
  | part :: before => return (part, { level with parts := before })

/-- A question mark behind an operator, which only says in which order matches are tried. -/
def lazySign : Parser Unit := do
  let _ ← stepOver "?"

def shortRepetition (level : Level) (least : Nat) (most? : Option Nat) : Parser Level := do
  let (part, before) ← repeated level
  step
  lazySign
  return before.push (.repetition (← spanFrom part.span.start) least most? part)

def maxCount : Nat := 4294967295

def decimal : Parser (Except Fault Nat) := do
  let _ ← gatherAll isBlank step
  let start ← position
  let digits ← gatherAll Char.isDigit stepOn
  let span ← spanFrom start
  let _ ← gatherAll isBlank stepOn
  let number := digits.foldl (fun number digit => 10 * number + (digit.toNat - 0x30)) 0
  if digits.isEmpty then return .error ⟨.repetitionDecimal, span⟩
  else if maxCount < number then return .error ⟨.decimalInvalid, span⟩
  else return .ok number

def upperCount (brace : Position) (least : Except Fault Nat) : Parser (Nat × Option Nat) := do
  match ← peek with
  | none => fail .repetitionUnclosed (← spanFrom brace)
  | some ',' =>
    stepOn
    match ← peek with
    | none => fail .repetitionUnclosed (← spanFrom brace)
    | some '}' => return (← least, none)
    | some _ =>
      let least ← least
      let most ← decimal
      return (least, some (← most))
  | some _ =>
    let count ← least
    return (count, some count)

def countedRepetition (level : Level) : Parser Level := do
  let (part, before) ← repeated level
  let brace ← position
  stepOn
  if ← atEnd then fail .repetitionUnclosed (← spanFrom brace)
  else
    let (least, most?) ← upperCount brace (← decimal)
    if (← peek) = some '}' then
      stepOn
      lazySign
      if most?.any (· < least) then fail .repetitionRange (← spanFrom brace)
      else return before.push (.repetition (← spanFrom part.span.start) least most? part)
    else fail .repetitionUnclosed (← spanFrom brace)

def single (character : Char) : Parser Pattern := do
  let span ← nextSpan
  if character = '\\' then escape
  else
    step
    match character with
    | '.' => return .dot span
    | '^' => return .assertion span .lineStart
    | '$' => return .assertion span .lineEnd
    | character => return .literal { span, character }

def openGroup (level : Level) (outer : List OpenGroup) : Parser (Level × List OpenGroup) := do
  let spaced := (← get).spaced
  let inside (changes : List FlagChange) : Bool := (changes.lookup .spaced).getD spaced
  match ← opening with
  | .flags span changes =>
    modify fun progress => { progress with spaced := inside changes }
    return (level.push (.flags span changes), outer)
  | .group span kind =>
    let changes := match kind with
      | .flagged changes => changes
      | .capture => []
    modify fun progress => { progress with spaced := inside changes }
    return (.begin (← position), { opening := span, kind, spaced, before := level } :: outer)

def closeGroup (level : Level) : List OpenGroup → Parser (Level × List OpenGroup)
  | [] => do fail .groupUnopened (← nextSpan)
  | group :: outer => do
    let stop ← position
    modify fun progress => { progress with spaced := group.spaced }
    step
    let span ← spanFrom group.opening.start
    return (group.before.push (.group span group.kind (level.inside stop)), outer)

def part (level : Level) (outer : List OpenGroup) (character : Char) : Parser (Level × List OpenGroup) := do
  match character with
  | '(' => openGroup level outer
  | ')' => closeGroup level outer
  | '|' =>
    let stop ← position
    step
    return (level.alternate stop (← position), outer)
  | '[' => return (level.push (← wholeSet), outer)
  | '?' => return (← shortRepetition level 0 (some 1), outer)
  | '*' => return (← shortRepetition level 0 none, outer)
  | '+' => return (← shortRepetition level 1 none, outer)
  | '{' => return (← countedRepetition level, outer)
  | character => return (level.push (← single character), outer)

def ending (level : Level) : List OpenGroup → Parser Pattern
  | [] => do return level.inside (← position)
  | group :: _ => fail .groupUnclosed group.opening

def parts : Nat → Level → List OpenGroup → Parser Pattern
  | 0, level, outer => ending level outer
  | fuel + 1, level, outer => do
    skipBlanks
    match ← peek with
    | none => ending level outer
    | some character =>
      let (level, outer) ← part level outer character
      parts fuel level outer

def whole : Parser Pattern := do
  parts (← rest).length (.begin (← position)) []

end Parser

def Pattern.ofText (text : String) : Except Fault Pattern :=
  (Parser.whole.run { rest := text.toList }).map Prod.fst

end AmosBasic.Regex
