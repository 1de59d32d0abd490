import AmosBasic.Line
import AmosBasic.Reading

namespace AmosBasic

attribute [local instance(2000)] instPowNat

open Reading

def Shape.reading (opcode : UInt16) : Shape → Reading Token
  | plain => return .plain opcode
  | control words => do return .control opcode (← skipped (2 * words))
  | name use => do
    let lead ← skipped 2
    let length ← byte
    let flags ← byte
    return .name use lead length flags (← bytes (wordAligned length.toNat))
  | quoted mark => do
    let length ← word 2
    return .quoted mark (UInt16.ofNat length) (← bytes (wordAligned length))
  | integer base => do return .integer base (UInt32.ofNat (← word 4))
  | float => do return .float (UInt32.ofNat (← word 4))
  | extension => do
    let module ← byte
    let lead ← skipped 1
    return .extension module (lead.headD 0) (UInt16.ofNat (← word 2))
  | remark mark => do
    let lead ← skipped 1
    let length ← byte
    return .remark mark (lead.headD 0) length (← bytes (wordAligned length.toNat))

def Token.check (options : DecodeOptions) : Token → Reading Unit
  | float word =>
    match options.floatFormat.read (bigEndianBytes 4 word.toNat) with
    | .ok _ => return ()
    | .error error => fail error
  | _ => return ()

/-- The place `count` bytes in front of `position`. Places are numbers of 64 bits: in front of the first one is the
last. -/
def placeBefore (position count : Nat) : Nat :=
  if count ≤ position then position - count else position + 2 ^ (64 : Nat) - count

/-- How many bytes a token that is in no table is taken to be long, its opcode word included. -/
def Token.lookback : Token → Nat
  | extension .. => 6
  | _ => 2

def Token.warning? (behind : Nat) (token : Token) : Option Note :=
  let offset := placeBefore behind token.lookback
  match token with
  | plain opcode =>
    if opcode ≠ Opcode.lineEnd ∧ keyword? opcode = none then some (.unknownOpcode opcode offset) else none
  | extension module _ command =>
    if extensionCommand? module command = none then some (.unknownCommand module command offset) else none
  | _ => none

def Record.reading (options : DecodeOptions) : Reading Record := do
  let offset ← currentPosition
  let opcode := UInt16.ofNat (← word 2)
  let token ← (Shape.ofOpcode opcode).reading opcode
  token.check options
  let behind ← currentPosition
  (token.warning? behind).toList.forM remark
  remark (.record offset opcode token.payloadWords (token.text options))
  return { offset, token }

namespace Line

/-- Reads records while words are left. Only the last one can reach past them. -/
def recordsReading (options : DecodeOptions) : Nat → List Record → Reading (List Record)
  | 0, read => return read.reverse
  | left + 1, read => do
    let record ← Record.reading options
    recordsReading options (left - record.token.payloadWords) (record :: read)
termination_by left => left

def strayEnd? (records : List Record) : Option UInt16 :=
  (records.getLast?.map Record.opcode).filter (· ≠ Opcode.lineEnd)

def closing (options : DecodeOptions) (start : Nat) (declared indent : UInt8) (records : List Record) :
    Reading Line :=
  let text := textOf options indent records
  match strayEnd? records with
  | some opcode => do corrupt (← currentPosition) (.missingLineEnd opcode text)
  | none =>
    let line : Line := { indent, declaredWords := declared.toNat, records, text }
    if line.wordsConsumed = line.declaredWords then return line
    else do corrupt (← currentPosition) (.wordCount start line.declaredWords line.wordsConsumed text)

/-- A line begins with its length in words and its indent, a byte each, which make up its first word. Records follow
until the length is used up, the last of them the end of the line. -/
def reading (options : DecodeOptions) : Reading Line := do
  let start ← currentPosition
  let declared ← byte
  let indent ← byte
  if declared = 0 then corrupt start .emptyLine
  else closing options start declared indent (← recordsReading options (declared.toNat - 1) [])

end Line

end AmosBasic
