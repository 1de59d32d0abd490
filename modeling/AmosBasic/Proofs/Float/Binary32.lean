import Mathlib.Algebra.Order.Field.Rat
import AmosBasic.Proofs.Float.Scaled

namespace AmosBasic

namespace Binary32

def isSubnormal (x : Binary32) : Bool :=
  x.exponent = 0 ∧ x.fraction ≠ 0

def value (x : Binary32) : ℚ :=
  (-1) ^ x.negative.toNat * (x.magnitude * 2 ^ (-149 : ℤ))

theorem bits_eq (x : Binary32) :
    x.bits.toNat = (if x.negative then 2 ^ 31 else 0) + x.exponent * 2 ^ 23 + x.fraction := by
  have : x.bits.toNat < 2 ^ 32 := x.bits.toNat_lt
  simp only [negative, exponent, fraction, decide_eq_true_eq]
  split <;> omega

theorem magnitude_lt_of_exponent_lt {x y : Binary32} (less : x.exponent < y.exponent) : x.magnitude < y.magnitude := by
  have small : x.fraction < 2 ^ 23 := Nat.mod_lt _ (Nat.two_pow_pos 23)
  -- The exponents zero and one share a spacing, and then only the leading one tells them apart.
  obtain ⟨gap, apart⟩ : ∃ gap, y.exponent - 1 = (x.exponent - 1) + gap :=
    ⟨y.exponent - 1 - (x.exponent - 1), by omega⟩
  have leading : 2 ^ 23 * 2 ^ gap ≤ y.significand * 2 ^ gap := by
    refine Nat.mul_le_mul_right _ ?_
    rw [significand, if_neg (by omega)]
    exact Nat.le_add_right _ _
  have fits : x.significand < 2 ^ 23 * 2 ^ gap := by
    rw [significand]
    split
    · exact lt_of_lt_of_le small (Nat.le_mul_of_pos_right _ (Nat.two_pow_pos gap))
    · have : 2 ^ 1 ≤ 2 ^ gap := Nat.pow_le_pow_right (by decide) (by omega)
      omega
  simp only [magnitude, spacing, apart, Nat.pow_add]
  rw [Nat.mul_comm (2 ^ (x.exponent - 1)), ← Nat.mul_assoc]
  exact Nat.mul_lt_mul_of_pos_right (lt_of_lt_of_le fits leading) (Nat.two_pow_pos _)

theorem eq_of_magnitude_eq {x y : Binary32} (signs : x.negative = y.negative)
    (magnitudes : x.magnitude = y.magnitude) : x = y := by
  have exponents : x.exponent = y.exponent := by
    rcases lt_trichotomy x.exponent y.exponent with less | same | more
    · exact absurd magnitudes (magnitude_lt_of_exponent_lt less).ne
    · exact same
    · exact absurd magnitudes (magnitude_lt_of_exponent_lt more).ne'
  have significands : x.significand = y.significand := by
    rw [magnitude, magnitude, spacing, spacing, exponents] at magnitudes
    exact Nat.eq_of_mul_eq_mul_right (Nat.two_pow_pos _) magnitudes
  have fractions : x.fraction = y.fraction := by
    rw [significand, significand, exponents] at significands
    split at significands <;> omega
  obtain ⟨xBits⟩ := x
  obtain ⟨yBits⟩ := y
  refine congrArg Binary32.mk (UInt32.toNat_inj.mp ?_)
  rw [bits_eq ⟨xBits⟩, bits_eq ⟨yBits⟩, signs, exponents, fractions]

theorem value_lt_value_iff {x y : Binary32} (signs : x.negative = y.negative) :
    x.value < y.value ↔ if x.negative then y.magnitude < x.magnitude else x.magnitude < y.magnitude := by
  rw [value, value, ← signs]
  cases x.negative <;> simp

section Fields

variable (negative : Bool) {exponent fraction : Nat}

theorem toNat_ofFields (inExponent : exponent < 2 ^ 8) (inFraction : fraction < 2 ^ 23) :
    (ofFields negative exponent fraction).bits.toNat =
      (if negative then 2 ^ 31 else 0) + exponent * 2 ^ 23 + fraction := by
  refine UInt32.toNat_ofNat_of_lt' ?_
  change _ < 2 ^ 32
  split <;> omega

theorem negative_ofFields (inExponent : exponent < 2 ^ 8) (inFraction : fraction < 2 ^ 23) :
    (ofFields negative exponent fraction).negative = negative := by
  rw [Binary32.negative, toNat_ofFields _ inExponent inFraction]
  cases negative <;> simp <;> omega

theorem exponent_ofFields (inExponent : exponent < 2 ^ 8) (inFraction : fraction < 2 ^ 23) :
    (ofFields negative exponent fraction).exponent = exponent := by
  rw [Binary32.exponent, toNat_ofFields _ inExponent inFraction]
  split <;> omega

theorem fraction_ofFields (inExponent : exponent < 2 ^ 8) (inFraction : fraction < 2 ^ 23) :
    (ofFields negative exponent fraction).fraction = fraction := by
  rw [Binary32.fraction, toNat_ofFields _ inExponent inFraction]
  split <;> omega

theorem magnitude_ofFields {significand : Nat} (normal : exponent ≠ 0) (inExponent : exponent < 2 ^ 8)
    (lower : 2 ^ 23 ≤ significand) (upper : significand < 2 ^ 24) :
    (ofFields negative exponent (significand - 2 ^ 23)).magnitude = significand * 2 ^ (exponent - 1) := by
  have inFraction : significand - 2 ^ 23 < 2 ^ 23 := by omega
  rw [magnitude, Binary32.significand, spacing, exponent_ofFields _ inExponent inFraction,
    fraction_ofFields _ inExponent inFraction, if_neg normal, Nat.add_sub_cancel' lower]

theorem neg_ofFields (inExponent : exponent < 2 ^ 8) (inFraction : fraction < 2 ^ 23) :
    (ofFields false exponent fraction).neg = ofFields true exponent fraction := by
  have positive := toNat_ofFields false inExponent inFraction
  have flipped := toNat_ofFields true inExponent inFraction
  simp only [Bool.false_eq_true, if_false, if_true, Nat.zero_add] at positive flipped
  refine congrArg Binary32.mk (UInt32.toNat_inj.mp ?_)
  change (ofFields false exponent fraction).bits.toNat ^^^ 2 ^ 31 = (ofFields true exponent fraction).bits.toNat
  rw [positive, flipped, ← Nat.div_add_mod (_ ^^^ _) (2 ^ 31), Nat.xor_div_two_pow, Nat.xor_mod_two_pow,
    Nat.div_eq_of_lt (by omega), Nat.mod_eq_of_lt (by omega)]
  simp only [Nat.div_self (Nat.two_pow_pos 31), Nat.mod_self, Nat.zero_xor, Nat.xor_zero]
  omega

end Fields

open Float.Model Float.Model.UnpackedFloat

theorem packComponents_eq {exponent significand : Nat} (inExponent : exponent < 2 ^ 8)
    (lower : 2 ^ 23 ≤ significand) (upper : significand < 2 ^ 24) :
    (⟨.ofBitVec (packComponents .binary32 .positive (.ofNat _ exponent) (.ofNat _ significand))⟩ : Binary32) =
      ofFields false exponent (significand - 2 ^ 23) := by
  refine congrArg Binary32.mk (UInt32.toNat_inj.mp ?_)
  have rest : significand % 2 ^ 23 < 2 ^ 23 := Nat.mod_lt _ (Nat.two_pow_pos 23)
  have whole := toNat_ofFields false inExponent (show significand - 2 ^ 23 < 2 ^ 23 by omega)
  refine Eq.trans ?_ whole.symm
  change ((Sign.positive.toBitVec ++ BitVec.ofNat 8 exponent) ++ BitVec.ofNat 23 significand).toNat = _
  rw [BitVec.toNat_append, BitVec.toNat_append, BitVec.toNat_ofNat, BitVec.toNat_ofNat,
    ← Nat.shiftLeft_add_eq_or_of_lt rest, show Sign.positive.toBitVec.toNat = 0 from rfl, Nat.zero_shiftLeft,
    Nat.zero_or, Nat.shiftLeft_eq, Nat.mod_eq_of_lt inExponent]
  simp only [Bool.false_eq_true, if_false, Nat.zero_add]
  omega

/-- Numbers of at most 24 bits that are neither too large nor too small keep all their bits. -/
theorem ofFloat_of_scaled {x : Float} {number shift : Nat} {place : Int} (scaled : Scaled x number place)
    (lower : 2 ^ 23 ≤ number * 2 ^ shift) (upper : number * 2 ^ shift < 2 ^ 24) (least : -149 ≤ place - shift)
    (most : place - shift ≤ 104) :
    ofFloat x = ofFields false (place + 150 - shift).toNat (number * 2 ^ shift - 2 ^ 23) := by
  obtain ⟨wide, fills, same⟩ := scaled
  have narrow : Fills .binary32 (number * 2 ^ shift) (place - shift) := ⟨lower, upper, least⟩
  -- Both significands begin with the leading one of the number.
  have positive : 0 < number := Nat.pos_of_mul_pos_right fills.pos
  have wideLog : number.log2 + wide = 52 := (log2_mul_two_pow positive wide).symm.trans fills.log2_eq
  have narrowLog : number.log2 + shift = 23 := (log2_mul_two_pow positive shift).symm.trans narrow.log2_eq
  have split : number * 2 ^ wide = number * 2 ^ shift * 2 ^ 29 := by
    rw [show wide = shift + 29 by omega]
    ring
  have rounded := round_of_fills narrow .positive 29
  have bias : place - shift + 127 + 23 = ((place + 150 - shift).toNat : Int) := by omega
  have packed := pack_of_fills narrow .positive bias (by change _ < 256; omega)
  rw [← split, show place - shift - (29 : Nat) = place - wide by omega] at rounded
  rw [← packComponents_eq (by omega) lower upper, ← packed, ← rounded]
  have bits : UnpackedFloat.unpack .binary64 x.toBits.toBitVec = _ := same
  rw [ofFloat, bits]

end Binary32

end AmosBasic
