import AmosBasic.Float.Binary32

namespace AmosBasic

open Float.Model

def timesPower (start base : Float) (exponent : Nat) : Float :=
  let product := if exponent % 2 = 1 then start * base else start
  if exponent / 2 = 0 then product else timesPower product (base * base) (exponent / 2)
termination_by exponent

def integerPower (base : Float) (exponent : Int) : Float :=
  let power := timesPower 1 base exponent.natAbs
  if exponent < 0 then 1 / power else power

namespace Binary32

/-- The number nearest to one of 64 bits, and of two the one with the even significand. -/
def ofFloat (x : Float) : Binary32 :=
  let narrowed := match UnpackedFloat.unpack .binary64 x.toBits.toBitVec with
    | .finite sign mantissa exponent _ => UnpackedFloat.round .binary32 sign mantissa exponent
    | other => other
  ⟨.ofBitVec (UnpackedFloat.pack .binary32 narrowed)⟩

def neg (x : Binary32) : Binary32 :=
  ⟨x.bits ^^^ 0x80000000⟩

end Binary32

end AmosBasic
