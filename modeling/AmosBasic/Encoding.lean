import AmosBasic.Bank.Encoding
import AmosBasic.Header
import AmosBasic.Line.Encoding

namespace AmosBasic

def encodeBankCount (count : Nat) : List UInt8 :=
  bankSectionMarker ++ bigEndianBytes 2 count

def encodeFile (magic source rest : List UInt8) : List UInt8 :=
  magic ++ bigEndianBytes 4 source.length ++ source ++ rest

end AmosBasic
