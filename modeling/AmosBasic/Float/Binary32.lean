
namespace AmosBasic

attribute [local instance(2000)] instPowNat

structure Binary32 where
  bits : UInt32
  deriving DecidableEq

namespace Binary32

def negative (x : Binary32) : Bool :=
  2 ^ (31 : Nat) ≤ x.bits.toNat

def exponent (x : Binary32) : Nat :=
  x.bits.toNat / 2 ^ (23 : Nat) % 2 ^ (8 : Nat)

def fraction (x : Binary32) : Nat :=
  x.bits.toNat % 2 ^ (23 : Nat)

def isNaN (x : Binary32) : Bool :=
  x.exponent = 255 ∧ x.fraction ≠ 0

def isInfinite (x : Binary32) : Bool :=
  x.exponent = 255 ∧ x.fraction = 0

def isFinite (x : Binary32) : Bool :=
  x.exponent ≠ 255

def significand (x : Binary32) : Nat :=
  if x.exponent = 0 then x.fraction else 2 ^ (23 : Nat) + x.fraction

/-- The distance to the next larger magnitude, as a multiple of `2 ^ (-149)`. -/
def spacing (x : Binary32) : Nat :=
  2 ^ (x.exponent - 1)

def magnitude (x : Binary32) : Nat :=
  x.significand * x.spacing

def magnitudeBits (x : Binary32) : Nat :=
  x.bits.toNat % 2 ^ (31 : Nat)

def ofFields (negative : Bool) (exponent fraction : Nat) : Binary32 :=
  ⟨UInt32.ofNat ((if negative then 2 ^ (31 : Nat) else 0) + exponent * 2 ^ (23 : Nat) + fraction)⟩

end Binary32

end AmosBasic
