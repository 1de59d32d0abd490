import AmosBasic.Bank.Reading
import AmosBasic.Line.Reading

namespace AmosBasic

open Reading

structure OpenFile where
  header : Header
  options : DecodeOptions

namespace OpenFile

def headerReading (magic : List UInt8) : Reading Header :=
  match HeaderVariant.ofMagic? magic with
  | none => fail (.unsupportedFormat magic)
  | some variant => do
    let header : Header := { variant, sourceLength := ← word 4 }
    remark (.opened header)
    if !variant.tested then remark (.untested header)
    return header

/-- Opens the file at the cursor of a machine. A file too short for its magic is of no supported
format, whatever it holds. -/
def openOn {σ : Type} (sink : Sink σ) (options : DecodeOptions) (machine : Machine σ) :
    Except DecodeError OpenFile × Machine σ :=
  let (drawn, drained) := machine.draw HeaderVariant.magicLength
  match drawn.outcome with
  | .ended => (.error (.unsupportedFormat drawn.bytes), drained)
  | .failed text => (.error (.io text), drained)
  | .filled =>
    let (header, opened) := (headerReading drawn.bytes).run sink drained
    (header.map ({ header := ·, options }), opened)

/-- Bytes of source read up to a position. -/
def consumedAt (position : Nat) : Nat :=
  position - Header.size

def exhaustedAt (file : OpenFile) (position : Nat) : Bool :=
  file.header.sourceLength ≤ consumedAt position

def isExhausted (file : OpenFile) : Reading Bool := do
  return file.exhaustedAt (← currentPosition)

/-- The next line. A line that ends behind the declared source is not counted. -/
def readLine (file : OpenFile) : Reading Line := do
  let start ← currentPosition
  if file.exhaustedAt start then corrupt start .noSourceLeft
  else
    let line ← Line.reading file.options
    let position ← currentPosition
    if file.header.sourceLength < consumedAt position then
      corrupt position (.lineOverrun (consumedAt position) file.header.sourceLength)
    else
      updateProgress fun progress => { progress with linesRead := progress.linesRead + 1 }
      return line

def linesReading (file : OpenFile) : Nat → List Line → Reading (List Line)
  | 0, read => return read.reverse
  | fuel + 1, read => do
    if ← file.isExhausted then return read.reverse
    else
      let line ← file.readLine
      file.linesReading fuel (line :: read)

def readSource (file : OpenFile) : Reading (List Line) :=
  file.linesReading file.header.sourceLength []

def skipSource (file : OpenFile) : Reading Unit := do
  let _ ← skipped (file.header.sourceLength - consumedAt (← currentPosition))

def readBankCount (file : OpenFile) : Reading Nat := do
  let offset ← currentPosition
  if consumedAt offset ≠ file.header.sourceLength then
    corrupt offset (.sourceUnfinished (consumedAt offset) file.header.sourceLength)
  else
    let marker ← bytes 4
    if marker ≠ bankSectionMarker then corrupt offset (.noBankSection marker)
    else
      let count ← word 2
      remark (.bankCount count)
      updateProgress fun progress => { progress with bankCount? := some count, banksRead := 0 }
      return count

end OpenFile

def Progress.banksRemaining (progress : Progress) : Nat :=
  progress.bankCount?.getD 0 - progress.banksRead

/-- The next bank. It counts as read even if it turns out to be damaged. -/
def Bank.reading : Reading Bank := do
  let progress ← currentProgress
  if progress.banksRemaining = 0 then
    corrupt (← currentPosition) (.noBankLeft (progress.bankCount?.getD 0))
  else
    updateProgress fun progress => { progress with banksRead := progress.banksRead + 1 }
    return { ordinal := progress.banksRead, content := ← BankContent.reading }

namespace OpenFile

def banksReading : Nat → List Bank → Reading (List Bank)
  | 0, read => return read.reverse
  | left + 1, read => do
    let bank ← Bank.reading
    banksReading left (bank :: read)

def readBanks (file : OpenFile) : Reading (List Bank) := do
  banksReading (← file.readBankCount) []

end OpenFile

end AmosBasic
