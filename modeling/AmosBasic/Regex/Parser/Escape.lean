import AmosBasic.Regex.Parser

namespace AmosBasic.Regex.Parser

def hexValue? (digit : Char) : Option Nat :=
  let code := digit.toNat
  if 0x30 ≤ code ∧ code ≤ 0x39 then some (code - 0x30)
  else if 0x41 ≤ code ∧ code ≤ 0x46 then some (code - 0x41 + 10)
  else if 0x61 ≤ code ∧ code ≤ 0x66 then some (code - 0x61 + 10)
  else none

def isHex (character : Char) : Bool := (hexValue? character).isSome

def charOfHex? (digits : List Char) : Option Char :=
  let number := digits.foldl (fun number digit => 16 * number + (hexValue? digit).getD 0) 0
  if number.isValidChar then some (Char.ofNat number) else none

def hexDigits : Nat → Parser (List Char)
  | 0 => return []
  | count + 1 => do
    match ← peek with
    | none => fail .escapeIncomplete (← here)
    | some digit =>
      if isHex digit then
        stepOn
        return digit :: (← hexDigits count)
      else fail .hexDigitInvalid (← nextSpan)

/-- The number of a character, in braces or with as many digits as its letter wants. -/
def hexLiteral (start : Position) (digits : Nat) : Parser Pattern := do
  stepOn
  match ← peek with
  | none => fail .escapeIncomplete (← here)
  | some '{' =>
    let brace ← position
    let inside := (← nextSpan).stop
    stepOn
    let digits ← gatherAll isHex stepOn
    match ← peek with
    | none => fail .escapeIncomplete (← spanFrom brace)
    | some '}' =>
      let stop ← position
      stepOn
      if digits.isEmpty then fail .hexEmpty (← spanFrom brace)
      else match charOfHex? digits with
        | some character => return .literal { span := ← spanFrom start, character }
        | none => fail .hexInvalid ⟨inside, stop⟩
    | some _ => fail .hexDigitInvalid (← nextSpan)
  | some _ =>
    let first ← position
    let found ← hexDigits digits
    match charOfHex? found with
    | some character => return .literal { span := ← spanFrom start, character, isByte := digits = 2 }
    | none => fail .hexInvalid (← spanFrom first)

def property (start : Position) : Parser Pattern := do
  stepOn
  match ← peek with
  | none => fail .escapeIncomplete (← here)
  | some '{' =>
    stepOn
    let name ← gatherAll (· ≠ '}') stepOn
    if ← atEnd then fail .escapeIncomplete (← here)
    else
      step
      return .property (← spanFrom start) (String.ofList name)
  | some '\\' => fail .propertyInvalid (← nextSpan)
  | some letter =>
    stepOn
    return .property (← spanFrom start) letter.toString

def isMeta (character : Char) : Bool :=
  character ∈ "\\.+*?()|[]\x7b\x7d^$#&-~".toList

def isEscapable (character : Char) : Bool :=
  isMeta character ||
    character.toNat < 0x80 && !character.isAlphanum && character ≠ '<' && character ≠ '>'

def control? (letter : Char) : Option Char :=
  [('a', '\x07'), ('f', '\x0C'), ('t', '\t'), ('n', '\n'), ('r', '\r'), ('v', '\x0B')].lookup letter

def isPlaceLetter (character : Char) : Bool :=
  character.isAlpha || character = '-'

def wordPlace? (name : String) : Option WordPlace :=
  [("start", .start), ("end", .stop), ("start-half", .halfStart), ("end-half", .halfStop)].lookup name

def bracedPlace? (start : Position) : Parser (Option WordPlace) := do
  let before ← get
  stepOn
  match ← peek with
  | none => fail .wordBoundaryIncomplete (← spanFrom start)
  | some first =>
    if isPlaceLetter first then
      let inside ← position
      let name ← gatherAll isPlaceLetter stepOn
      if (← peek) = some '}' then
        let stop ← position
        step
        match wordPlace? (String.ofList name) with
        | some place => return some place
        | none => fail .wordBoundaryUnknown ⟨inside, stop⟩
      else fail .wordBoundaryUnclosed (← spanFrom before.position)
    else
      set before
      return none

def wordBoundary (start : Position) : Parser Pattern := do
  let span ← spanFrom start
  if (← peek) = some '{' then
    match ← bracedPlace? start with
    | some place => return .assertion (← spanFrom start) (.word place)
    | none => return .assertion span (.word .boundary)
  else return .assertion span (.word .boundary)

def shortEscape (start : Position) (character : Char) : Parser Pattern := do
  step
  let span ← spanFrom start
  if isEscapable character then return .literal { span, character }
  else match control? character, character with
    | some control, _ => return .literal { span, character := control }
    | none, 'A' => return .assertion span .textStart
    | none, 'z' => return .assertion span .textEnd
    | none, 'b' => wordBoundary start
    | none, 'B' => return .assertion span (.word .notBoundary)
    | none, '<' => return .assertion span (.word .start)
    | none, '>' => return .assertion span (.word .stop)
    | none, _ => fail .escapeUnknown span

def charClass (start : Position) (negated : Bool) (kind : CharClass) : Parser Pattern := do
  step
  return .charClass (← spanFrom start) negated kind

def escape : Parser Pattern := do
  let start ← position
  step
  match ← peek with
  | none => fail .escapeIncomplete (← spanFrom start)
  | some 'x' => hexLiteral start 2
  | some 'u' => hexLiteral start 4
  | some 'U' => hexLiteral start 8
  | some 'p' | some 'P' => property start
  | some 'd' => charClass start false .digit
  | some 'D' => charClass start true .digit
  | some 's' => charClass start false .space
  | some 'S' => charClass start true .space
  | some 'w' => charClass start false .word
  | some 'W' => charClass start true .word
  | some character =>
    if character.isDigit then fail .backreference ⟨start, (← nextSpan).stop⟩
    else shortEscape start character

end AmosBasic.Regex.Parser
