import AmosBasic.Bank
import AmosBasic.Header

namespace AmosBasic

structure Summary where
  header : Header
  lines : Nat := 0
  banks : Nat := 0
  sprites : Nat := 0
  icons : Nat := 0
  packedPictures : Nat := 0
  rawBanks : Nat := 0
  deriving DecidableEq

namespace Summary

def addLine (summary : Summary) : Summary :=
  { summary with lines := summary.lines + 1 }

def addBank (summary : Summary) (content : BankContent) : Summary :=
  let summary := { summary with banks := summary.banks + 1 }
  match content with
  | .images .sprites bank => { summary with sprites := summary.sprites + bank.images.length }
  | .images .icons bank => { summary with icons := summary.icons + bank.images.length }
  | .picture .. => { summary with packedPictures := summary.packedPictures + 1 }
  | .raw .. => { summary with rawBanks := summary.rawBanks + 1 }

def text (summary : Summary) : String :=
  s!"{summary.lines} lines, {summary.banks} banks ({summary.sprites} sprites, {summary.icons} icons, " ++
    s!"{summary.packedPictures} packed pictures, {summary.rawBanks} raw)"

end Summary

end AmosBasic
