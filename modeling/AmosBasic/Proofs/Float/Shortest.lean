import Mathlib.Algebra.Order.Field.Power
import Mathlib.Tactic.LinearCombination
import Mathlib.Tactic.Positivity
import AmosBasic.Float.Shortest
import AmosBasic.Proofs.Float.Nearest

namespace AmosBasic

def Decimal.value (decimal : Decimal) : ℚ :=
  decimal.digits * 10 ^ decimal.exponent

namespace RoundingInterval

variable {interval : RoundingInterval} {first point last factor : Nat}

theorem Holds.convex (low : interval.Holds first factor) (high : interval.Holds last factor) (above : first ≤ point)
    (below : point ≤ last) : interval.Holds point factor := by
  unfold Holds at low high ⊢
  split at low
  · rw [if_pos ‹_›] at high ⊢
    omega
  · rw [if_neg ‹_›] at high ⊢
    omega

theorem holds_of_lt (above : interval.low * factor < point) (below : point < interval.high * factor) :
    interval.Holds point factor := by
  unfold Holds
  split <;> omega

theorem gridUnit_pos (exponent : Int) : 0 < (gridUnit exponent).1 ∧ 0 < (gridUnit exponent).2 := by
  unfold gridUnit
  split <;> constructor <;> positivity

section

variable {exponent : Int} {digits : Nat}

theorem holds_of_nearest? (found : interval.nearest? exponent = some digits) :
    interval.Holds (digits * (gridUnit exponent).1) (gridUnit exponent).2 := by
  unfold nearest? at found
  dsimp only at found
  split at found
  · split at found
    · cases found
      exact And.left ‹_›
    · cases found
      assumption
  · split at found
    · cases found
      assumption
    · cases found

theorem nearest?_of_holds (digits : Nat)
    (inside : interval.Holds (interval.value * (gridUnit exponent).2) (gridUnit exponent).2)
    (holds : interval.Holds (digits * (gridUnit exponent).1) (gridUnit exponent).2) :
    ∃ nearest, interval.nearest? exponent = some nearest := by
  obtain ⟨positive, -⟩ := gridUnit_pos exponent
  unfold nearest?
  generalize gridUnit exponent = grid at *
  obtain ⟨unit, factor⟩ := grid
  dsimp only at *
  have below : interval.value * factor / unit * unit ≤ interval.value * factor := Nat.div_mul_le_self _ _
  have above : interval.value * factor ≤ (interval.value * factor / unit + 1) * unit :=
    (Nat.lt_div_mul_add positive).le.trans_eq (Nat.succ_mul _ _).symm
  -- The interval has all that is between the multiple and its number, and so the multiple next to the number.
  rcases Nat.lt_or_ge (interval.value * factor / unit) digits with more | atMost
  · have next := inside.convex holds above (Nat.mul_le_mul_right unit more)
    by_cases here : interval.Holds (interval.value * factor / unit * unit) factor
    · rw [if_pos here]
      split <;> exact ⟨_, rfl⟩
    · rw [if_neg here, if_pos next]
      exact ⟨_, rfl⟩
  · have next := holds.convex inside (Nat.mul_le_mul_right unit atMost) below
    rw [if_pos next]
    split <;> exact ⟨_, rfl⟩

end

theorem coarsest_spec {steps : Nat} {start exponent : Int} {digits : Nat}
    (found : interval.nearest? exponent = some digits) (above : start - steps < exponent) (below : exponent ≤ start) :
    interval.nearest? (interval.coarsest steps start).exponent = some (interval.coarsest steps start).digits ∧
      ∀ coarser, (interval.coarsest steps start).exponent < coarser → coarser ≤ start →
        interval.nearest? coarser = none := by
  induction steps generalizing start with
  | zero => omega
  | succ steps ih =>
    rw [coarsest]
    cases first : interval.nearest? start with
    | some digits => exact ⟨first, fun coarser further atMost => absurd further (Int.not_lt.mpr atMost)⟩
    | none =>
      have other : exponent ≠ start := by
        rintro rfl
        rw [first] at found
        cases found
      have further : start - 1 - (steps : Int) < exponent := by omega
      obtain ⟨stopped, passed⟩ := ih further (by omega)
      refine ⟨stopped, fun coarser further atMost => ?_⟩
      rcases Int.lt_or_eq_of_le atMost with less | rfl
      · exact passed coarser further (by omega)
      · exact first

end RoundingInterval

namespace Binary32

open RoundingInterval

variable {x : Binary32}

theorem ofBinary32_eq (positive : 0 < x.magnitudeBits) : RoundingInterval.ofBinary32 x =
    ⟨2 * (magnitudeAt (x.magnitudeBits - 1) + magnitudeAt x.magnitudeBits), 4 * magnitudeAt x.magnitudeBits,
      2 * (magnitudeAt x.magnitudeBits + magnitudeAt (x.magnitudeBits + 1)), x.magnitudeBits % 2 = 0⟩ := by
  have above := magnitudeAt_succ x.magnitudeBits
  have below := magnitudeAt_succ (x.magnitudeBits - 1)
  rw [Nat.sub_add_cancel positive] at below
  -- Below a power of two the spacing is half as wide.
  have gap : (if x.fraction = 0 ∧ 1 < x.exponent then 1 else 2) * x.spacing =
      2 * 2 ^ ((x.magnitudeBits - 1) / 2 ^ 23 - 1) := by
    rw [spacing, exponent_eq, fraction_eq]
    split
    · rename_i halved
      have places : x.magnitudeBits / 2 ^ 23 - 1 = ((x.magnitudeBits - 1) / 2 ^ 23 - 1) + 1 := by omega
      rw [places, Nat.pow_succ]
      omega
    · have places : x.magnitudeBits / 2 ^ 23 - 1 = (x.magnitudeBits - 1) / 2 ^ 23 - 1 := by omega
      rw [places]
  have spacing : x.spacing = 2 ^ (x.magnitudeBits / 2 ^ 23 - 1) := by
    rw [spacing, exponent_eq]
  rw [RoundingInterval.ofBinary32, gap, spacing, magnitude_eq, significand_mod_two,
    RoundingInterval.mk.injEq]
  exact ⟨by omega, rfl, by omega, rfl⟩

theorem cast_gridUnit (exponent : Int) :
    ((gridUnit exponent).1 : ℚ) = 10 ^ exponent * 2 ^ 151 * (gridUnit exponent).2 := by
  unfold gridUnit
  split
  · have power : (10 : ℚ) ^ exponent = 10 ^ exponent.toNat := by
      rw [← zpow_natCast, Int.toNat_of_nonneg ‹_›]
    norm_num [power]
  · have power : (10 : ℚ) ^ exponent * 10 ^ (-exponent).toNat = 1 := by
      rw [← zpow_natCast, ← zpow_add₀ (by norm_num), Int.toNat_of_nonneg (by omega), add_neg_cancel, zpow_zero]
    push_cast
    linear_combination (-(2 : ℚ) ^ 151) * power

theorem holds_iff_roundsTo (finite : x.isFinite) (positive : 0 < x.magnitudeBits) (decimal : Decimal) :
    (RoundingInterval.ofBinary32 x).Holds (decimal.digits * (gridUnit decimal.exponent).1)
      (gridUnit decimal.exponent).2 ↔ RoundsTo x.negative decimal.value x := by
  have unit := cast_gridUnit decimal.exponent
  obtain ⟨-, factor⟩ := gridUnit_pos decimal.exponent
  have factor : (0 : ℚ) < (gridUnit decimal.exponent).2 := Nat.cast_pos.mpr factor
  generalize gridUnit decimal.exponent = grid at unit factor ⊢
  have scale : (0 : ℚ) < 4 * grid.2 := by positivity
  have point : ((decimal.digits * grid.1 : Nat) : ℚ) = decimal.value * 2 ^ 149 * (4 * grid.2) := by
    rw [Nat.cast_mul, unit, Decimal.value]
    ring
  have low : ((2 * (magnitudeAt (x.magnitudeBits - 1) + magnitudeAt x.magnitudeBits) * grid.2 : Nat) : ℚ) =
      halfway (x.magnitudeBits - 1) * (4 * grid.2) := by
    rw [halfway, Nat.sub_add_cancel positive]
    push_cast
    ring
  have high : ((2 * (magnitudeAt x.magnitudeBits + magnitudeAt (x.magnitudeBits + 1)) * grid.2 : Nat) : ℚ) =
      halfway x.magnitudeBits * (4 * grid.2) := by
    rw [halfway]
    push_cast
    ring
  rw [roundsTo_iff_between finite positive, and_iff_right rfl, Between, ofBinary32_eq positive, Holds]
  simp only [decide_eq_true_eq, ← Nat.cast_le (α := ℚ), ← Nat.cast_lt (α := ℚ), low, high, point,
    mul_le_mul_iff_of_pos_right scale, mul_lt_mul_iff_of_pos_right scale]

/-- Between two magnitudes that round to a number all others do so too. -/
theorem RoundsTo.convex {low magnitude high : ℚ} {negative : Bool} (first : RoundsTo negative low x)
    (last : RoundsTo negative high x) (above : low ≤ magnitude) (below : magnitude ≤ high)
    (positive : 0 < x.magnitudeBits) : RoundsTo negative magnitude x := by
  have scale : (0 : ℚ) ≤ 2 ^ 149 := by positivity
  have start := mul_le_mul_of_nonneg_right above scale
  have stop := mul_le_mul_of_nonneg_right below scale
  have lower := first.between positive
  have upper := last.between positive
  refine (roundsTo_iff_between first.finite positive).mpr ⟨first.sign, ?_⟩
  unfold Between at lower upper ⊢
  split at lower
  · rw [if_pos ‹_›] at upper ⊢
    exact ⟨lower.1.trans start, stop.trans upper.2⟩
  · rw [if_neg ‹_›] at upper ⊢
    exact ⟨lower.1.trans_le start, stop.trans_lt upper.2⟩

section Search

variable (positive : 0 < x.magnitudeBits)

include positive

theorem ends_apart : (RoundingInterval.ofBinary32 x).low < (RoundingInterval.ofBinary32 x).value ∧
    (RoundingInterval.ofBinary32 x).value + 2 ≤ (RoundingInterval.ofBinary32 x).high := by
  have below := magnitudeAt_strictMono (Nat.sub_one_lt_of_lt positive)
  have above := magnitudeAt_strictMono (Nat.lt_add_one x.magnitudeBits)
  rw [ofBinary32_eq positive]
  dsimp only
  omega

theorem holds_value (exponent : Int) : (RoundingInterval.ofBinary32 x).Holds
    ((RoundingInterval.ofBinary32 x).value * (gridUnit exponent).2) (gridUnit exponent).2 := by
  obtain ⟨-, factor⟩ := gridUnit_pos exponent
  obtain ⟨low, high⟩ := ends_apart positive
  apply holds_of_lt <;> exact Nat.mul_lt_mul_of_pos_right (by omega) factor

theorem exists_nearest? : ∃ digits, (RoundingInterval.ofBinary32 x).nearest? (-60) = some digits := by
  have inside := holds_value positive (-60)
  obtain ⟨low, high⟩ := ends_apart positive
  obtain ⟨unit, -⟩ := gridUnit_pos (-60)
  have finer : (gridUnit (-60)).1 < 2 * (gridUnit (-60)).2 := by decide
  generalize RoundingInterval.ofBinary32 x = interval at inside low high ⊢
  refine nearest?_of_holds (interval.value * (gridUnit (-60)).2 / (gridUnit (-60)).1 + 1) inside ?_
  generalize gridUnit (-60) = grid at unit finer
  have near := Nat.div_mul_le_self (interval.value * grid.2) grid.1
  have above := Nat.lt_div_mul_add (a := interval.value * grid.2) unit
  have start := Nat.mul_le_mul_right grid.2 low.le
  have stop := Nat.mul_le_mul_right grid.2 high
  rw [Nat.add_mul] at stop
  rw [Nat.succ_mul]
  apply holds_of_lt <;> omega

theorem digits_ne_zero {negative : Bool} {decimal : Decimal} (rounds : RoundsTo negative decimal.value x) :
    decimal.digits ≠ 0 := by
  intro zero
  have low := (rounds.between positive).bounds.1
  have above := lt_halfway (x.magnitudeBits - 1)
  have least : (0 : ℚ) ≤ magnitudeAt (x.magnitudeBits - 1) := Nat.cast_nonneg _
  rw [Decimal.value, zero, Nat.cast_zero, zero_mul, zero_mul] at low
  linarith

theorem exponent_le {negative : Bool} {decimal : Decimal} (rounds : RoundsTo negative decimal.value x) :
    decimal.exponent ≤ 39 := by
  by_contra large
  have digits : (1 : ℚ) ≤ decimal.digits :=
    Nat.one_le_cast.mpr (Nat.one_le_iff_ne_zero.mpr (digits_ne_zero positive rounds))
  have power : (10 : ℚ) ^ (40 : ℤ) ≤ 10 ^ decimal.exponent := zpow_le_zpow_right₀ (by norm_num) (by omega)
  have whole : (10 : ℚ) ^ (40 : ℤ) ≤ decimal.value := by
    rw [Decimal.value]
    exact power.trans (le_mul_of_one_le_left (by positivity) digits)
  have inRange := rounds.inRange
  rw [overflow] at inRange
  norm_num at whole
  linarith

variable (finite : x.isFinite)

include finite

theorem nearest?_eq_none_iff (exponent : Int) : (RoundingInterval.ofBinary32 x).nearest? exponent = none ↔
    ∀ digits, ¬ RoundsTo x.negative (Decimal.value ⟨digits, exponent⟩) x := by
  constructor
  · intro none digits rounds
    obtain ⟨nearest, some⟩ := nearest?_of_holds digits (holds_value positive exponent)
      ((holds_iff_roundsTo finite positive ⟨digits, exponent⟩).mpr rounds)
    rw [none] at some
    cases some
  · intro never
    cases found : (RoundingInterval.ofBinary32 x).nearest? exponent with
    | none => rfl
    | some digits =>
      exact absurd ((holds_iff_roundsTo finite positive ⟨digits, exponent⟩).mp (holds_of_nearest? found)) (never digits)

theorem shortest_spec : RoundsTo x.negative x.shortest.value x ∧
    ∀ decimal : Decimal, RoundsTo x.negative decimal.value x → decimal.exponent ≤ x.shortest.exponent := by
  obtain ⟨digits, found⟩ := exists_nearest? positive
  obtain ⟨stopped, passed⟩ := coarsest_spec found (show 39 - ((100 : Nat) : Int) < -60 by decide) (by decide)
  refine ⟨(holds_iff_roundsTo finite positive x.shortest).mp (holds_of_nearest? stopped), fun decimal rounds => ?_⟩
  by_contra coarser
  have none := passed decimal.exponent (Int.lt_of_not_ge coarser) (exponent_le positive rounds)
  exact (nearest?_eq_none_iff positive finite decimal.exponent).mp none decimal.digits rounds

/-- A decimal with fewer digits would be below a power of ten that the number does not reach, and that power would
round to it as well, on a coarser grid. -/
theorem shortest_fewest {decimal : Decimal} (rounds : RoundsTo x.negative decimal.value x) :
    (Nat.toDigits 10 x.shortest.digits).length ≤ (Nat.toDigits 10 decimal.digits).length := by
  obtain ⟨shortest, most⟩ := shortest_spec positive finite
  by_contra fewer
  generalize length : (Nat.toDigits 10 decimal.digits).length = count at fewer
  have some : 0 < count := length ▸ Nat.length_toDigits_pos
  have small : decimal.digits < 10 ^ count := (Nat.length_toDigits_le_iff (by decide) some).mp length.le
  have large : 10 ^ count ≤ x.shortest.digits := by
    by_contra less
    exact fewer ((Nat.length_toDigits_le_iff (by decide) some).mpr (Nat.lt_of_not_le less))
  let power : Decimal := ⟨1, x.shortest.exponent + count⟩
  have value : power.value = (10 ^ count : Nat) * 10 ^ x.shortest.exponent := by
    rw [Decimal.value, zpow_add₀ (by norm_num), zpow_natCast]
    push_cast
    ring
  have above : decimal.value ≤ power.value := by
    rw [value, Decimal.value]
    have scale := zpow_le_zpow_right₀ (show (1 : ℚ) ≤ 10 by norm_num) (most decimal rounds)
    exact mul_le_mul (Nat.cast_le.mpr small.le) scale (by positivity) (by positivity)
  have below : power.value ≤ x.shortest.value := by
    rw [value]
    exact mul_le_mul_of_nonneg_right (Nat.cast_le.mpr large) (by positivity)
  have coarser := most power (rounds.convex shortest above below positive)
  dsimp only [power] at coarser
  omega

end Search

end Binary32

end AmosBasic
