import Mathlib.Algebra.Order.Ring.Abs
import Mathlib.Tactic.Linarith
import AmosBasic.Proofs.Float.Binary32

namespace AmosBasic.Binary32

def size (x : Binary32) : ℚ :=
  |x.value|

/-- Half the way from the largest finite number to `2 ^ 128`. From there on magnitudes are rounded to infinity. -/
def overflow : ℚ :=
  2 ^ 128 - 2 ^ 103

/-- What has this sign and this magnitude is rounded to `x`: no finite number is nearer, and where another one is as
near the significand of `x` is the even one. -/
structure RoundsTo (negative : Bool) (magnitude : ℚ) (x : Binary32) : Prop where
  finite : x.isFinite
  sign : x.negative = negative
  inRange : magnitude < overflow
  nearest : ∀ y : Binary32, y.isFinite → |magnitude - x.size| ≤ |magnitude - y.size|
  even : ∀ y : Binary32, y.isFinite → y.size ≠ x.size → |magnitude - y.size| = |magnitude - x.size| →
    x.significand % 2 = 0

def magnitudeAt (bits : Nat) : Nat :=
  (if bits / 2 ^ 23 = 0 then bits % 2 ^ 23 else 2 ^ 23 + bits % 2 ^ 23) * 2 ^ (bits / 2 ^ 23 - 1)

def infinityBits : Nat := 255 * 2 ^ 23

def halfway (bits : Nat) : ℚ :=
  (magnitudeAt bits + magnitudeAt (bits + 1)) / 2

/-- Between the points half the way to either neighbour. An even number owns these points. -/
def Between (bits : Nat) (magnitude : ℚ) : Prop :=
  if bits % 2 = 0 then halfway (bits - 1) ≤ magnitude ∧ magnitude ≤ halfway bits
  else halfway (bits - 1) < magnitude ∧ magnitude < halfway bits

section Bits

variable (x : Binary32)

theorem exponent_eq : x.exponent = x.magnitudeBits / 2 ^ 23 := by
  rw [exponent, magnitudeBits]
  omega

theorem fraction_eq : x.fraction = x.magnitudeBits % 2 ^ 23 := by
  rw [fraction, magnitudeBits]
  omega

theorem magnitude_eq : x.magnitude = magnitudeAt x.magnitudeBits := by
  rw [magnitude, significand, spacing, exponent_eq, fraction_eq, magnitudeAt]

theorem significand_mod_two : x.significand % 2 = x.magnitudeBits % 2 := by
  rw [significand, fraction_eq]
  split <;> omega

theorem isFinite_iff : x.isFinite ↔ x.magnitudeBits < infinityBits := by
  have below : x.magnitudeBits < 2 ^ 31 := Nat.mod_lt _ (Nat.two_pow_pos 31)
  rw [isFinite, exponent_eq, infinityBits, decide_eq_true_eq]
  omega

theorem exists_magnitudeBits {bits : Nat} (finite : bits < infinityBits) :
    ∃ y : Binary32, y.isFinite ∧ y.magnitudeBits = bits := by
  rw [infinityBits] at finite
  have inExponent : bits / 2 ^ 23 < 2 ^ 8 := by omega
  have inFraction : bits % 2 ^ 23 < 2 ^ 23 := Nat.mod_lt _ (Nat.two_pow_pos 23)
  have same : (ofFields false (bits / 2 ^ 23) (bits % 2 ^ 23)).magnitudeBits = bits := by
    rw [magnitudeBits, toNat_ofFields false inExponent inFraction, if_neg Bool.false_ne_true]
    omega
  exact ⟨_, by rwa [isFinite_iff, same], same⟩

end Bits

theorem magnitudeAt_succ (bits : Nat) : magnitudeAt (bits + 1) = magnitudeAt bits + 2 ^ (bits / 2 ^ 23 - 1) := by
  by_cases carry : bits % 2 ^ 23 = 2 ^ 23 - 1
  · -- Behind the last fraction comes the first one of the next exponent.
    have exponent : (bits + 1) / 2 ^ 23 = bits / 2 ^ 23 + 1 := by omega
    have fraction : (bits + 1) % 2 ^ 23 = 0 := by omega
    rw [magnitudeAt, magnitudeAt, exponent, fraction, carry, if_neg (Nat.succ_ne_zero _), Nat.add_sub_cancel]
    cases bits / 2 ^ 23 with
    | zero => rfl
    | succ exponent =>
      rw [if_neg (Nat.succ_ne_zero _), Nat.add_sub_cancel, Nat.pow_succ]
      omega
  · have exponent : (bits + 1) / 2 ^ 23 = bits / 2 ^ 23 := by omega
    have fraction : (bits + 1) % 2 ^ 23 = bits % 2 ^ 23 + 1 := by omega
    rw [magnitudeAt, magnitudeAt, exponent, fraction]
    split <;> ring

theorem magnitudeAt_strictMono : StrictMono magnitudeAt := by
  refine strictMono_nat_of_lt_succ fun bits => ?_
  rw [magnitudeAt_succ]
  exact Nat.lt_add_of_pos_right (Nat.two_pow_pos _)

section Distance

variable {x y : Binary32} {magnitude : ℚ}

theorem size_eq (x : Binary32) : x.size = magnitudeAt x.magnitudeBits * 2 ^ (-149 : ℤ) := by
  have positive : (0 : ℚ) ≤ magnitudeAt x.magnitudeBits * 2 ^ (-149 : ℤ) := by positivity
  rw [size, value, magnitude_eq, abs_mul, abs_pow, abs_neg, abs_one, one_pow, one_mul, abs_of_nonneg positive]

theorem distance_eq (magnitude : ℚ) (x : Binary32) :
    |magnitude - x.size| = |magnitude * 2 ^ 149 - magnitudeAt x.magnitudeBits| * 2 ^ (-149 : ℤ) := by
  have scale : (2 : ℚ) ^ 149 * 2 ^ (-149 : ℤ) = 1 := by norm_num
  have whole : magnitude - x.size =
      (magnitude * 2 ^ 149 - magnitudeAt x.magnitudeBits) * 2 ^ (-149 : ℤ) := by
    rw [size_eq, sub_mul, mul_assoc, scale, mul_one]
  rw [whole, abs_mul, abs_of_pos (a := (2 : ℚ) ^ (-149 : ℤ)) (by positivity)]

theorem distance_le_iff : |magnitude - x.size| ≤ |magnitude - y.size| ↔
    |magnitude * 2 ^ 149 - magnitudeAt x.magnitudeBits| ≤ |magnitude * 2 ^ 149 - magnitudeAt y.magnitudeBits| := by
  rw [distance_eq, distance_eq]
  exact mul_le_mul_iff_of_pos_right (by positivity)

theorem distance_eq_iff : |magnitude - x.size| = |magnitude - y.size| ↔
    |magnitude * 2 ^ 149 - magnitudeAt x.magnitudeBits| = |magnitude * 2 ^ 149 - magnitudeAt y.magnitudeBits| := by
  rw [distance_eq, distance_eq]
  exact mul_left_inj' (by positivity)

theorem size_eq_iff : x.size = y.size ↔ x.magnitudeBits = y.magnitudeBits := by
  rw [size_eq, size_eq, mul_left_inj' (by positivity), Nat.cast_inj]
  exact magnitudeAt_strictMono.injective.eq_iff

theorem eq_of_magnitudeBits_eq (signs : x.negative = y.negative) (bits : x.magnitudeBits = y.magnitudeBits) : x = y :=
  eq_of_magnitude_eq signs (by rw [magnitude_eq, magnitude_eq, bits])

theorem abs_sub_le_iff_of_lt {low high point : ℚ} (less : low < high) :
    |point - high| ≤ |point - low| ↔ (low + high) / 2 ≤ point := by
  constructor
  · intro nearer
    by_contra below
    rw [abs_of_neg (by linarith), le_abs] at nearer
    rcases nearer <;> linarith
  · intro above
    rw [abs_of_pos (by linarith : 0 < point - low), abs_le]
    constructor <;> linarith

theorem abs_sub_le_iff_of_gt {low high point : ℚ} (less : low < high) :
    |point - low| ≤ |point - high| ↔ point ≤ (low + high) / 2 := by
  have mirrored : |-point - -low| ≤ |-point - -high| ↔ (-high + -low) / 2 ≤ -point :=
    abs_sub_le_iff_of_lt (neg_lt_neg less)
  rw [neg_sub_neg, neg_sub_neg, abs_sub_comm low, abs_sub_comm high] at mirrored
  rw [mirrored]
  constructor <;> intro <;> linarith

theorem abs_sub_eq_iff {low high point : ℚ} (less : low < high) :
    |point - low| = |point - high| ↔ point = (low + high) / 2 := by
  rw [le_antisymm_iff, le_antisymm_iff, abs_sub_le_iff_of_lt less, abs_sub_le_iff_of_gt less]

end Distance

section Between

variable {bits other : Nat} {magnitude : ℚ}

theorem cast_magnitudeAt_lt (less : bits < other) : (magnitudeAt bits : ℚ) < magnitudeAt other :=
  Nat.cast_lt.mpr (magnitudeAt_strictMono less)

theorem cast_magnitudeAt_le (atMost : bits ≤ other) : (magnitudeAt bits : ℚ) ≤ magnitudeAt other :=
  Nat.cast_le.mpr (magnitudeAt_strictMono.monotone atMost)

theorem halfway_lt (bits : Nat) : halfway bits < magnitudeAt (bits + 1) := by
  have step := cast_magnitudeAt_lt (Nat.lt_succ_self bits)
  rw [halfway]
  linarith

theorem lt_halfway (bits : Nat) : (magnitudeAt bits : ℚ) < halfway bits := by
  have step := cast_magnitudeAt_lt (Nat.lt_succ_self bits)
  rw [halfway]
  linarith

theorem Between.bounds (between : Between bits magnitude) :
    halfway (bits - 1) ≤ magnitude ∧ magnitude ≤ halfway bits := by
  rw [Between] at between
  split at between
  · exact between
  · exact ⟨between.1.le, between.2.le⟩

theorem halfway_last : halfway (infinityBits - 1) = overflow * 2 ^ 149 := by
  have last : magnitudeAt (infinityBits - 1) = (2 ^ 24 - 1) * 2 ^ 253 := rfl
  have next : magnitudeAt (infinityBits - 1 + 1) = 2 ^ 24 * 2 ^ 253 := rfl
  rw [halfway, last, next, overflow]
  norm_num

theorem Between.nearest (between : Between bits magnitude) (positive : 0 < bits) (other : Nat) :
    |magnitude - magnitudeAt bits| ≤ |magnitude - magnitudeAt other| ∧
      (other ≠ bits → |magnitude - magnitudeAt other| = |magnitude - magnitudeAt bits| → bits % 2 = 0) := by
  obtain ⟨low, high⟩ := between.bounds
  rcases Nat.lt_trichotomy other bits with less | rfl | more
  · have step := cast_magnitudeAt_lt less
    have first : ((magnitudeAt other : ℚ) + magnitudeAt bits) / 2 ≤ halfway (bits - 1) := by
      have below := cast_magnitudeAt_le (Nat.le_sub_one_of_lt less)
      rw [halfway, Nat.sub_add_cancel positive]
      linarith
    refine ⟨(abs_sub_le_iff_of_lt step).mpr (first.trans low), fun _ tie => ?_⟩
    have middle := (abs_sub_eq_iff step).mp tie
    by_contra odd
    rw [Between, if_neg odd] at between
    linarith [between.1]
  · exact ⟨le_rfl, fun different => absurd rfl different⟩
  · have step := cast_magnitudeAt_lt more
    have last : halfway bits ≤ ((magnitudeAt bits : ℚ) + magnitudeAt other) / 2 := by
      have above := cast_magnitudeAt_le (Nat.succ_le_of_lt more)
      rw [halfway]
      linarith
    refine ⟨(abs_sub_le_iff_of_gt step).mpr (high.trans last), fun _ tie => ?_⟩
    have middle := (abs_sub_eq_iff step).mp tie.symm
    by_contra odd
    rw [Between, if_neg odd] at between
    linarith [between.2]

variable {x y : Binary32} {negative : Bool}

theorem RoundsTo.of_between (finite : x.isFinite) (sign : x.negative = negative) (positive : 0 < x.magnitudeBits)
    (between : Between x.magnitudeBits (magnitude * 2 ^ 149)) : RoundsTo negative magnitude x where
  finite := finite
  sign := sign
  inRange := by
    have below := x.isFinite_iff.mp finite
    have scaled : magnitude * 2 ^ 149 < overflow * 2 ^ 149 := by
      rw [← halfway_last]
      rcases Nat.lt_or_ge (x.magnitudeBits + 1) infinityBits with inner | last
      · have further := cast_magnitudeAt_le (Nat.le_sub_one_of_lt inner)
        linarith [between.bounds.2, halfway_lt x.magnitudeBits, lt_halfway (infinityBits - 1)]
      · -- The last finite number is odd.
        have same : x.magnitudeBits = infinityBits - 1 := by omega
        rw [same, Between, if_neg (by decide)] at between
        exact between.2
    exact lt_of_mul_lt_mul_right scaled (by positivity)
  nearest y _ := distance_le_iff.mpr (between.nearest positive y.magnitudeBits).1
  even y _ different tie := by
    rw [significand_mod_two]
    rw [distance_eq_iff] at tie
    exact (between.nearest positive y.magnitudeBits).2 (fun same => different (size_eq_iff.mpr same)) tie

theorem RoundsTo.compare (rounds : RoundsTo negative magnitude x) (other : Nat) (finite : other < infinityBits) :
    |magnitude * 2 ^ 149 - magnitudeAt x.magnitudeBits| ≤ |magnitude * 2 ^ 149 - magnitudeAt other| ∧
      (other ≠ x.magnitudeBits → |magnitude * 2 ^ 149 - magnitudeAt other| =
        |magnitude * 2 ^ 149 - magnitudeAt x.magnitudeBits| → x.magnitudeBits % 2 = 0) := by
  obtain ⟨y, among, rfl⟩ := exists_magnitudeBits finite
  refine ⟨distance_le_iff.mp (rounds.nearest y among), fun different tie => ?_⟩
  rw [← significand_mod_two]
  exact rounds.even y among (fun same => different (size_eq_iff.mp same)) (distance_eq_iff.mpr tie)

theorem RoundsTo.between (rounds : RoundsTo negative magnitude x) (positive : 0 < x.magnitudeBits) :
    Between x.magnitudeBits (magnitude * 2 ^ 149) := by
  have below := x.isFinite_iff.mp rounds.finite
  have step := cast_magnitudeAt_lt (Nat.sub_one_lt_of_lt positive)
  obtain ⟨nearer, tie⟩ := rounds.compare (x.magnitudeBits - 1) (by omega)
  have low : halfway (x.magnitudeBits - 1) ≤ magnitude * 2 ^ 149 := by
    rw [halfway, Nat.sub_add_cancel positive]
    exact (abs_sub_le_iff_of_lt step).mp nearer
  have lowEven : magnitude * 2 ^ 149 = halfway (x.magnitudeBits - 1) → x.magnitudeBits % 2 = 0 := by
    intro middle
    rw [halfway, Nat.sub_add_cancel positive] at middle
    exact tie (by omega) ((abs_sub_eq_iff step).mpr middle)
  obtain ⟨high, highEven⟩ : magnitude * 2 ^ 149 ≤ halfway x.magnitudeBits ∧
      (magnitude * 2 ^ 149 = halfway x.magnitudeBits → x.magnitudeBits % 2 = 0) := by
    rcases Nat.lt_or_ge (x.magnitudeBits + 1) infinityBits with inner | last
    · have step := cast_magnitudeAt_lt (Nat.lt_succ_self x.magnitudeBits)
      obtain ⟨nearer, tie⟩ := rounds.compare _ inner
      refine ⟨(abs_sub_le_iff_of_gt step).mp nearer, fun middle => tie (by omega) ?_⟩
      exact ((abs_sub_eq_iff step).mpr middle).symm
    · -- Behind the last finite number there is no other, and the range ends instead.
      have same : x.magnitudeBits = infinityBits - 1 := by omega
      have inside := mul_lt_mul_of_pos_right rounds.inRange (show (0 : ℚ) < 2 ^ 149 by positivity)
      rw [same, halfway_last]
      exact ⟨inside.le, fun middle => absurd middle inside.ne⟩
  rw [Between]
  split
  · exact ⟨low, high⟩
  · rename_i odd
    exact ⟨low.lt_of_ne fun middle => odd (lowEven middle.symm), high.lt_of_ne fun middle => odd (highEven middle)⟩

/-- A positive number is what lies between the points half the way to its neighbours rounds to. -/
theorem roundsTo_iff_between (finite : x.isFinite) (positive : 0 < x.magnitudeBits) :
    RoundsTo negative magnitude x ↔ x.negative = negative ∧ Between x.magnitudeBits (magnitude * 2 ^ 149) :=
  ⟨fun rounds => ⟨rounds.sign, rounds.between positive⟩,
    fun ⟨sign, between⟩ => .of_between finite sign positive between⟩

theorem RoundsTo.not_lt (first : RoundsTo negative magnitude x) (second : RoundsTo negative magnitude y) :
    ¬ x.magnitudeBits < y.magnitudeBits := by
  intro less
  have below := y.isFinite_iff.mp second.finite
  obtain ⟨nearer, even⟩ := first.compare _ below
  obtain ⟨nearer', even'⟩ := second.compare _ (x.isFinite_iff.mp first.finite)
  have tie := le_antisymm nearer nearer'
  have middle := (abs_sub_eq_iff (cast_magnitudeAt_lt less)).mp tie
  have parity := even less.ne' tie.symm
  have parity' := even' less.ne tie
  -- Both are even, so that the number behind the first is nearer.
  have step := cast_magnitudeAt_lt (Nat.lt_succ_self x.magnitudeBits)
  have closer := cast_magnitudeAt_lt (show x.magnitudeBits + 1 < y.magnitudeBits by omega)
  have atMost := (abs_sub_le_iff_of_gt step).mp (first.compare (x.magnitudeBits + 1) (by omega)).1
  linarith

theorem RoundsTo.unique (first : RoundsTo negative magnitude x) (second : RoundsTo negative magnitude y) : x = y := by
  have signs := first.sign.trans second.sign.symm
  exact eq_of_magnitudeBits_eq signs
    (Nat.le_antisymm (Nat.le_of_not_lt (second.not_lt first)) (Nat.le_of_not_lt (first.not_lt second)))

theorem roundsTo_zero (zero : x.magnitudeBits = 0) : RoundsTo x.negative 0 x := by
  have size : x.size = 0 := by
    rw [size_eq, zero]
    simp [magnitudeAt]
  refine ⟨?_, rfl, ?_, fun y _ => ?_, fun y _ _ _ => ?_⟩
  · rw [isFinite_iff, zero]
    decide
  · norm_num [overflow]
  · rw [size, sub_zero, abs_zero]
    exact abs_nonneg _
  · rw [significand_mod_two, zero]

end Between

end AmosBasic.Binary32
