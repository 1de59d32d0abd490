import AmosBasic.Numeral
import AmosBasic.Text.Quoted
import AmosBasic.Text.Utf8

namespace AmosBasic

inductive Corruption where
  | emptyLine
  | missingLineEnd (opcode : UInt16) (text : String)
  | wordCount (start declared consumed : Nat) (text : String)
  | floatLiteral (fault : String)
  | noSourceLeft
  | lineOverrun (consumed declared : Nat)
  | sourceUnfinished (consumed declared : Nat)
  | noBankSection (found : List UInt8)
  | unknownBankType (tag : List UInt8)
  | shortMemoryBank (number declared : Nat)
  | bankImageDepth (depth index : Nat)
  | noBankLeft (declared : Nat)
  | imageDepth (depth : Nat)
  | shortPlanes (width height depth needed actual : Nat)
  | shortPicture (actual : Nat)
  | described (text : String)
  deriving DecidableEq

/-- Offsets after a corruption are not to be trusted. It has no offset when it was found in data
that is not part of a stream. -/
inductive DecodeError where
  | unsupportedFormat (header : List UInt8)
  | corruptStream (offset : Option Nat) (reason : Corruption)
  | incompleteRead (offset expected actual : Nat)
  | io (text : String)
  | invalidConfig (text : String)
  deriving DecidableEq

def bankSectionMarker : List UInt8 := [0x41, 0x6D, 0x42, 0x73]

/-- Bytes of the name of a memory bank, which its declared size includes. -/
def memoryBankNameSize : Nat := 8

def pictureHeaderSize : Nat := 114

def quotedBytes (bytes : List UInt8) : String :=
  Quoted.quote (Utf8.decodeLossy bytes)

def Corruption.message : Corruption → String
  | emptyLine => "line header declares a length of zero words"
  | missingLineEnd opcode text =>
    s!"line didn't end with a null opcode, but {hexadecimalFilled 4 opcode.toNat} ({text})"
  | wordCount start declared consumed text =>
    s!"line at {hexadecimal start} declares {declared} words but {consumed} were consumed ({text})"
  | floatLiteral fault => s!"float literal: {fault}"
  | noSourceLeft => "no source left to read"
  | lineOverrun consumed declared =>
    s!"line runs past the end of the source ({consumed} of {declared} bytes)"
  | sourceUnfinished consumed declared =>
    s!"bank section requested after {consumed} of {declared} source bytes"
  | noBankSection found =>
    s!"file doesn't contain a description of memory banks (expected {quotedBytes bankSectionMarker}, " ++
      s!"found {quotedBytes found})"
  | unknownBankType tag => s!"unknown memory bank type {quotedBytes tag}"
  | shortMemoryBank number declared =>
    s!"memory bank {number} declares {declared} bytes, less than its {memoryBankNameSize} byte name"
  | bankImageDepth depth index => s!"incompatible depth ({depth}) for image {index}"
  | noBankLeft declared => s!"all {declared} declared banks have been read"
  | imageDepth depth => s!"incompatible image depth ({depth})"
  | shortPlanes width height depth needed actual =>
    s!"{width}x{height}x{depth} image needs {needed} bytes of planar data, got {actual}"
  | shortPicture actual =>
    s!"packed picture bank holds {actual} bytes, header alone needs {pictureHeaderSize}"
  | described text => text

def DecodeError.message : DecodeError → String
  | unsupportedFormat header => s!"Unsupported format: unknown header {quotedBytes header}"
  | corruptStream (some offset) reason => s!"Corrupt stream at byte {hexadecimal offset}: {reason.message}"
  | corruptStream none reason => s!"Corrupt data: {reason.message}"
  | incompleteRead offset expected actual =>
    s!"Incomplete read at byte {hexadecimal offset}: expected {expected} bytes, got {actual}"
  | io text => s!"IO error: {text}"
  | invalidConfig text => s!"Invalid config: {text}"

end AmosBasic
