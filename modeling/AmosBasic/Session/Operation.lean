import AmosBasic.Session

namespace AmosBasic

namespace OpenFile

inductive Operation where
  | readLine
  | readSource
  | skipSource
  | readBankCount
  | readBankType
  | readMemoryHeader
  | readImageBank
  | readBank
  | readBanks
  deriving DecidableEq

inductive Item where
  | line (line : Line)
  | lines (lines : List Line)
  | skipped
  | bankCount (count : Nat)
  | bankType (type : BankType)
  | memoryHeader (header : MemoryHeader)
  | imageBank (bank : ImageBank)
  | bank (bank : Bank)
  | banks (banks : List Bank)
  deriving DecidableEq

def Operation.reading (file : OpenFile) : Operation → Reading Item
  | readLine => return .line (← file.readLine)
  | readSource => return .lines (← file.readSource)
  | skipSource => do
    file.skipSource
    return .skipped
  | readBankCount => return .bankCount (← file.readBankCount)
  | readBankType => return .bankType (← BankType.reading)
  | readMemoryHeader => return .memoryHeader (← MemoryHeader.reading)
  | readImageBank => return .imageBank (← ImageBank.reading)
  | readBank => return .bank (← Bank.reading)
  | readBanks => return .banks (← file.readBanks)

def perform {σ : Type} (file : OpenFile) (sink : Sink σ) (machine : Machine σ) :
    List Operation → List (Except DecodeError Item) × Machine σ
  | [] => ([], machine)
  | operation :: operations =>
    let (result, next) := (operation.reading file).run sink machine
    let (results, last) := file.perform sink next operations
    (result :: results, last)

end OpenFile

end AmosBasic
