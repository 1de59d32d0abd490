
namespace AmosBasic.Toml

attribute [local instance(2000)] instPowNat

abbrev Parser := StateT (List Char) Option

namespace Parser

def satisfying (accept : Char → Bool) : Parser Char := fun input =>
  match input with
  | first :: rest => if accept first then some (first, rest) else none
  | [] => none

def char (expected : Char) : Parser Unit := do
  let _ ← satisfying (· = expected)

def text (expected : String) : Parser Unit :=
  expected.toList.forM char

def takeWhile (accept : Char → Bool) : Parser (List Char) := fun input =>
  some (input.takeWhile accept, input.dropWhile accept)

def takeWhile1 (accept : Char → Bool) : Parser (List Char) := do
  let taken ← takeWhile accept
  if taken.isEmpty then failure else return taken

def possible {α : Type} (parser : Parser α) : Parser (Option α) := fun input =>
  match parser input with
  | some (value, rest) => some (some value, rest)
  | none => some (none, input)

def repeated {α : Type} (parser : Parser α) : Nat → Parser (List α)
  | 0 => return []
  | fuel + 1 => do
    match ← possible parser with
    | none => return []
    | some value => return value :: (← repeated parser fuel)

def many {α : Type} (parser : Parser α) : Parser (List α) := do
  repeated parser (← get).length

def separated {α : Type} (parser : Parser α) (separator : Parser Unit) : Parser (List α) := do
  let first ← parser
  return first :: (← many (do separator; parser))

def atEnd : Parser Unit := do
  if (← get).isEmpty then return () else failure

end Parser

open AmosBasic.Toml.Parser

def within (low high : Nat) (character : Char) : Bool :=
  low ≤ character.toNat && character.toNat ≤ high

def isBeyondAscii (character : Char) : Bool :=
  0x80 ≤ character.toNat

def isBlank (character : Char) : Bool :=
  character = ' ' || character = '\t'

def isDigit (character : Char) : Bool :=
  within 0x30 0x39 character

def isHexDigit (character : Char) : Bool :=
  isDigit character || within 0x41 0x46 character || within 0x61 0x66 character

def blanks : Parser Unit := do
  let _ ← takeWhile isBlank

def newline : Parser Unit :=
  char '\n' <|> text "\r\n"

def comment : Parser Unit := do
  char '#'
  let _ ← takeWhile fun character => character = '\t' || within 0x20 0x7E character || isBeyondAscii character

def lineEnd : Parser Unit :=
  newline <|> atEnd

def lineRest : Parser Unit := do
  blanks
  let _ ← possible comment
  lineEnd

def layout : Parser Unit := do
  let _ ← many (do blanks; let _ ← possible comment; newline)
  blanks

def digitValue (digit : Char) : Nat :=
  if isDigit digit then digit.toNat - 0x30 else digit.toNat % 0x20 + 9

def numberOf (base : Nat) (digits : List Char) : Nat :=
  digits.foldl (fun number digit => base * number + digitValue digit) 0

def replicated {α : Type} (parser : Parser α) : Nat → Parser (List α)
  | 0 => return []
  | count + 1 => do return (← parser) :: (← replicated parser count)

def numbered (digits : Nat) : Parser Char := do
  let number := numberOf 16 (← replicated (satisfying isHexDigit) digits)
  if number < 0xD800 ∨ (0xDFFF < number ∧ number < 0x110000) then return Char.ofNat number else failure

def escaped : Parser Char := do
  match ← satisfying fun _ => true with
  | 'b' => return '\x08'
  | 't' => return '\t'
  | 'n' => return '\n'
  | 'f' => return '\x0c'
  | 'r' => return '\r'
  | '"' => return '"'
  | '\\' => return '\\'
  | 'u' => numbered 4
  | 'U' => numbered 8
  | _ => failure

def isBasic (character : Char) : Bool :=
  isBlank character || character = '!' || within 0x23 0x5B character || within 0x5D 0x7E character ||
    isBeyondAscii character

def isLiteral (character : Char) : Bool :=
  character = '\t' || within 0x20 0x26 character || within 0x28 0x7E character || isBeyondAscii character

def basicString : Parser (List Char) := do
  char '"'
  let body ← many (satisfying isBasic <|> (do char '\\'; escaped))
  char '"'
  return body

def literalString : Parser (List Char) := do
  char '\''
  let body ← takeWhile isLiteral
  char '\''
  return body

def joinedLines : Parser Unit := do
  char '\\'
  blanks
  newline
  let _ ← many (newline <|> (do let _ ← takeWhile1 isBlank))

def innerQuotes (quote : Char) : Parser (List Char) := fun input =>
  let quotes := input.takeWhile (· = quote)
  if quotes.isEmpty ∨ 3 ≤ quotes.length then none else some (quotes, input.dropWhile (· = quote))

/-- The closing three quotes, and up to two before them that belong to the text. -/
def closingQuotes (quote : Char) : Parser (List Char) := fun input =>
  let count := (input.takeWhile (· = quote)).length
  if count < 3 then none
  else
    let inner := min 2 (count - 3)
    some (List.replicate inner quote, input.drop (inner + 3))

def multiline (quote : Char) (piece : Parser (List Char)) : Parser (List Char) := do
  let _ ← replicated (char quote) 3
  let _ ← possible newline
  let pieces ← many (piece <|> innerQuotes quote)
  return pieces.flatten ++ (← closingQuotes quote)

def lineBreak : Parser (List Char) := do
  newline
  return ['\n']

def multilineBasic : Parser (List Char) :=
  multiline '"' <|
    takeWhile1 isBasic <|> (do joinedLines; return []) <|> (do char '\\'; return [← escaped]) <|> lineBreak

def multilineLiteral : Parser (List Char) :=
  multiline '\'' (takeWhile1 isLiteral <|> lineBreak)

def string : Parser String := do
  return String.ofList (← multilineBasic <|> basicString <|> multilineLiteral <|> literalString)

def digits (accept : Char → Bool) : Parser (List Char) := do
  let first ← satisfying accept
  let more ← many (do let _ ← possible (char '_'); satisfying accept)
  return first :: more

def sign : Parser Bool := do
  match ← possible (satisfying fun character => character = '+' || character = '-') with
  | some '-' => return true
  | _ => return false

def wholeDigits : Parser (List Char) := fun input =>
  match input with
  | '0' :: rest => some (['0'], rest)
  | _ => digits isDigit input

def inBase (mark : String) (base : Nat) (accept : Char → Bool) : Parser Int := do
  text mark
  return numberOf base (← digits accept)

def integer : Parser Int := do
  let number ← inBase "0x" 16 isHexDigit <|> inBase "0o" 8 (within 0x30 0x37) <|>
    inBase "0b" 2 (within 0x30 0x31) <|> do
      let negative ← sign
      let number := numberOf 10 (← wholeDigits)
      return if negative then -(number : Int) else number
  if Int64.minValue.toInt ≤ number ∧ number ≤ Int64.maxValue.toInt then return number
  else failure

/-- Whether `number * 10 ^ exponent` is too large for a 64-bit binary number, after rounding. -/
def overflows (number : Nat) (exponent : Int) : Bool :=
  let limit : Nat := 2 ^ (1024 : Nat) - 2 ^ (970 : Nat)
  if number = 0 then false
  else if 400 < exponent then true
  else if 0 ≤ exponent then limit ≤ number * 10 ^ exponent.toNat
  else if number.log2 < (-exponent).toNat then false
  else limit * 10 ^ (-exponent).toNat ≤ number

def fraction : Parser (List Char) := do
  char '.'
  digits isDigit

def exponent : Parser Int := do
  let _ ← satisfying fun character => character = 'e' || character = 'E'
  let negative ← sign
  let size := numberOf 10 (← digits isDigit)
  return if negative then -(size : Int) else size

/-- A number with a fraction or an exponent. One that is too large is refused unless it is
negative. -/
def finiteFloat : Parser Unit := do
  let negative ← sign
  let whole ← wholeDigits
  let part? ← possible fraction
  let exponent? ← possible exponent
  if part?.isNone ∧ exponent?.isNone then failure
  else
    let part := part?.getD []
    let number := numberOf 10 (whole ++ part)
    if !negative ∧ overflows number (exponent?.getD 0 - part.length) then failure else return ()

def specialFloat : Parser Unit := do
  let _ ← sign
  text "inf" <|> text "nan"

def matched {α : Type} (parser : Parser α) : Parser String := do
  let before ← get
  let _ ← parser
  return String.ofList (before.take (before.length - (← get).length))

def float : Parser String :=
  matched (finiteFloat <|> specialFloat)

def boolean : Parser Bool :=
  (do text "true"; return true) <|> (do text "false"; return false)

def ranged (count low high : Nat) : Parser Nat := do
  let number := numberOf 10 (← replicated (satisfying isDigit) count)
  if low ≤ number ∧ number ≤ high then return number else failure

def daysInMonth (year month : Nat) : Nat :=
  if month = 2 then if year % 4 = 0 ∧ (year % 100 ≠ 0 ∨ year % 400 = 0) then 29 else 28
  else if month = 4 ∨ month = 6 ∨ month = 9 ∨ month = 11 then 30
  else 31

def date : Parser Unit := do
  let year ← ranged 4 0 9999
  char '-'
  let month ← ranged 2 1 12
  char '-'
  let _ ← ranged 2 1 (daysInMonth year month)

def time : Parser Unit := do
  let _ ← ranged 2 0 23
  char ':'
  let _ ← ranged 2 0 59
  char ':'
  let _ ← ranged 2 0 60
  let _ ← possible (do char '.'; takeWhile1 isDigit)

def offset : Parser Unit :=
  char 'Z' <|> char 'z' <|> do
    char '+' <|> char '-'
    let _ ← ranged 2 0 23
    char ':'
    let _ ← ranged 2 0 59

def datetime : Parser String :=
  matched <| (do
    date
    let _ ← possible do
      char 'T' <|> char 't' <|> char ' '
      time
      let _ ← possible offset) <|> time

end AmosBasic.Toml
