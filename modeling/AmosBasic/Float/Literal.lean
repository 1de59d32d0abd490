import AmosBasic.Error
import AmosBasic.FieldReader
import AmosBasic.Float.Binary64

namespace AmosBasic

/-- How the four bytes of a float literal are read. The native format has 24 bits of mantissa, a sign and seven bits of
exponent, for `(-1) ^ sign * mantissa * 2 ^ (exponent - 88)`. -/
inductive FloatFormat where
  | amos
  | ieee
  deriving DecidableEq

namespace FloatFormat

/-- What the stored exponent of the number one half exceeds zero by. -/
def exponentBias : Nat := 0x40

def mantissaScale : Float := ((1 : UInt32) <<< 24).toFloat

def amosFields (reader : FieldReader) (bytes : List UInt8) : Except String (UInt32 × Bool × UInt8) := do
  let (mantissa, state) ← reader.readWord 24 (reader.start bytes)
  let (negative, state) ← reader.readBit state
  let (exponent, _) ← reader.readByte 7 state
  return (mantissa, negative, exponent)

/-- The number of a mantissa below `2 ^ 24`, which stands for one below one, and a biased exponent. -/
def amosMagnitude (mantissa : UInt32) (exponent : UInt8) : Float :=
  mantissa.toFloat / mantissaScale * integerPower 2 ((exponent.toNat : Int) - exponentBias)

def readAmos (reader : FieldReader) (bytes : List UInt8) : Except DecodeError Binary32 :=
  match amosFields reader bytes with
  | .error text => .error (.corruptStream none (.floatLiteral text))
  | .ok (mantissa, negative, exponent) =>
    let value := Binary32.ofFloat (amosMagnitude mantissa exponent)
    .ok (if negative then value.neg else value)

def read : FloatFormat → List UInt8 → Except DecodeError Binary32
  | amos, bytes => readAmos .ofBytes bytes
  | ieee, bytes => .ok ⟨UInt32.ofNat (bigEndian bytes)⟩

def decode (format : FloatFormat) (word : UInt32) : Binary32 :=
  match format.read (bigEndianBytes 4 word.toNat) with
  | .ok number => number
  | .error _ => ⟨0⟩

end FloatFormat

end AmosBasic
