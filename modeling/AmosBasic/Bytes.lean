
namespace AmosBasic

attribute [local instance(2000)] instPowNat

def bigEndian (bytes : List UInt8) : Nat :=
  bytes.foldl (fun number byte => 256 * number + byte.toNat) 0

def bigEndianBytes : Nat → Nat → List UInt8
  | 0, _ => []
  | count + 1, number => UInt8.ofNat (number / 256 ^ count) :: bigEndianBytes count number

def wordAligned (count : Nat) : Nat :=
  count + count % 2

/-- Byte strings are stored with a NUL behind them when their length is odd. -/
def padded (bytes : List UInt8) : List UInt8 :=
  bytes ++ List.replicate (bytes.length % 2) 0

def twosComplement (width pattern : Nat) : Int :=
  Int.bmod pattern (2 ^ width)

end AmosBasic
