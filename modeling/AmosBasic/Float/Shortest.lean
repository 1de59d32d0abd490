import AmosBasic.Float.Binary32

namespace AmosBasic

attribute [local instance(2000)] instPowNat

structure Decimal where
  digits : Nat
  exponent : Int
  deriving DecidableEq

/-- A positive number with the reals that round to it, all as multiples of `2 ^ (-151)`. The two
ends belong to it when `closed` holds. -/
structure RoundingInterval where
  low : Nat
  value : Nat
  high : Nat
  closed : Bool

namespace RoundingInterval

/-- Half the way to either neighbour; the gap below a power of two is half as wide. An even
significand wins its ties, so it owns the ends. -/
def ofBinary32 (x : Binary32) : RoundingInterval where
  low := 4 * x.magnitude - (if x.fraction = 0 ∧ 1 < x.exponent then 1 else 2) * x.spacing
  value := 4 * x.magnitude
  high := 4 * x.magnitude + 2 * x.spacing
  closed := x.significand % 2 = 0

def gridUnit (exponent : Int) : Nat × Nat :=
  if 0 ≤ exponent then (10 ^ exponent.toNat * 2 ^ (151 : Nat), 1) else (2 ^ (151 : Nat), 10 ^ (-exponent).toNat)

def Holds (interval : RoundingInterval) (point factor : Nat) : Prop :=
  if interval.closed then interval.low * factor ≤ point ∧ point ≤ interval.high * factor
  else interval.low * factor < point ∧ point < interval.high * factor

instance (interval : RoundingInterval) (point factor : Nat) : Decidable (interval.Holds point factor) := by
  unfold Holds; infer_instance

/-- The multiple of `10 ^ exponent` in the interval that is nearest to its number. Of two at the
same distance the larger is taken. -/
def nearest? (interval : RoundingInterval) (exponent : Int) : Option Nat :=
  let (unit, factor) := gridUnit exponent
  let value := interval.value * factor
  let below := value / unit
  let above := below + 1
  if interval.Holds (below * unit) factor then
    if interval.Holds (above * unit) factor ∧ above * unit - value ≤ value - below * unit then some above
    else some below
  else if interval.Holds (above * unit) factor then some above
  else none

def coarsest (interval : RoundingInterval) : Nat → Int → Decimal
  | 0, exponent => ⟨0, exponent⟩
  | steps + 1, exponent =>
    match interval.nearest? exponent with
    | some digits => ⟨digits, exponent⟩
    | none => coarsest interval steps (exponent - 1)

end RoundingInterval

/-- No 32-bit number reaches `10 ^ 39`, and nine digits always read back: the least magnitude is
above `10 ^ (-46)`. -/
def Binary32.shortest (x : Binary32) : Decimal :=
  (RoundingInterval.ofBinary32 x).coarsest 100 39

end AmosBasic
