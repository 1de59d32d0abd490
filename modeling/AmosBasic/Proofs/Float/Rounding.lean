import Mathlib.Algebra.Order.Ring.Nat
import Mathlib.Tactic.Ring
import AmosBasic.Float.Binary64

namespace AmosBasic

open Float.Model Float.Model.UnpackedFloat

theorem log2_mul_two_pow {number : Nat} (positive : 0 < number) (shift : Nat) :
    (number * 2 ^ shift).log2 = number.log2 + shift := by
  obtain ⟨lower, upper⟩ := (Nat.log2_eq_iff positive.ne').mp rfl
  refine (Nat.log2_eq_iff (Nat.mul_pos positive (Nat.two_pow_pos shift)).ne').mpr ⟨?_, ?_⟩
  · rw [Nat.pow_add]
    exact Nat.mul_le_mul_right _ lower
  · rw [Nat.add_right_comm, Nat.pow_add]
    exact Nat.mul_lt_mul_of_pos_right upper (Nat.two_pow_pos shift)

theorem mantissaBits_eq (format : Format) : format.mantissaBits = 1 + format.mantissaBitsWithoutImplicit :=
  rfl

structure Fills (format : Format) (significand : Nat) (exponent : Int) : Prop where
  lower : 2 ^ format.mantissaBitsWithoutImplicit ≤ significand
  upper : significand < 2 ^ (format.mantissaBitsWithoutImplicit + 1)
  least : format.minExponent ≤ exponent

namespace Fills

variable {format : Format} {significand : Nat} {exponent : Int}

theorem pos (fills : Fills format significand exponent) : 0 < significand :=
  lt_of_lt_of_le (Nat.two_pow_pos _) fills.lower

theorem log2_eq (fills : Fills format significand exponent) :
    significand.log2 = format.mantissaBitsWithoutImplicit :=
  (Nat.log2_eq_iff fills.pos.ne').mpr ⟨fills.lower, fills.upper⟩

theorem targetExponent_shifted (fills : Fills format significand exponent) (shift : Nat) :
    format.targetExponent (totalExponent (significand * 2 ^ shift) (exponent - shift)) = exponent := by
  have least := fills.least
  simp only [Format.targetExponent, totalExponent, log2_mul_two_pow fills.pos, fills.log2_eq, mantissaBits_eq]
  omega

end Fills

theorem shiftRight_exact (significand shift : Nat) :
    ExtendedMantissa.ofMantissaAndAccuracy (significand * 2 ^ shift) .exact >>> shift =
      ExtendedMantissa.ofMantissaAndAccuracy significand .exact := by
  induction shift generalizing significand with
  | zero => exact congrArg (ExtendedMantissa.ofMantissaAndAccuracy · .exact) (Nat.mul_one significand)
  | succ shift ih =>
    have first : significand * 2 ^ (shift + 1) = significand * 2 * 2 ^ shift := by ring
    -- The last of the shifts drops the only bit of a doubled significand.
    change ExtendedMantissa.shiftRightOne (ExtendedMantissa.ofMantissaAndAccuracy _ .exact >>> shift) = _
    rw [first, ih]
    simp [ExtendedMantissa.shiftRightOne, ExtendedMantissa.ofMantissaAndAccuracy]

variable {format : Format} {significand : Nat} {exponent : Int}

theorem shiftToTargetExponent_of_fills (fills : Fills format significand exponent) (shift : Nat) :
    shiftToTargetExponent format (significand * 2 ^ shift) (exponent - shift) .exact =
      (ExtendedMantissa.ofMantissaAndAccuracy significand .exact, exponent) := by
  have amount : (exponent - (exponent - shift)).toNat = shift := by omega
  simp only [shiftToTargetExponent, fills.targetExponent_shifted, shiftToExponent, amount, shiftRight_exact,
    Int.sub_add_cancel]

theorem roundWithAccuracy_of_fills (fills : Fills format significand exponent) (sign : Sign) (shift : Nat) :
    roundWithAccuracy format sign (significand * 2 ^ shift) (exponent - shift) .exact =
      .finite sign significand exponent fills.pos := by
  have still := shiftToTargetExponent_of_fills fills 0
  simp only [Nat.pow_zero, Nat.mul_one, Int.natCast_zero, Int.sub_zero] at still
  have again : shiftToTargetExponent format
      (ExtendedMantissa.ofMantissaAndAccuracy significand .exact).roundedMantissa exponent .exact =
        (ExtendedMantissa.ofMantissaAndAccuracy significand .exact, exponent) := still
  rw [roundWithAccuracy, shiftToTargetExponent_of_fills fills]
  dsimp only
  rw [again]
  exact dif_neg fills.pos.ne'

theorem round_of_target {number : Nat} {place target : Int} (sign : Sign)
    (aims : format.targetExponent (totalExponent number place) = target) :
    UnpackedFloat.round format sign number place =
      roundWithAccuracy format sign (number * 2 ^ (place - target).toNat) (place - (place - target).toNat) .exact := by
  simp only [UnpackedFloat.round, aims, decreaseExponent, Nat.shiftLeft_eq]

/-- A number with more bits than the format, the others zero. -/
theorem round_of_fills (fills : Fills format significand exponent) (sign : Sign) (shift : Nat) :
    UnpackedFloat.round format sign (significand * 2 ^ shift) (exponent - shift) =
      .finite sign significand exponent fills.pos := by
  have amount : (exponent - shift - exponent).toNat = 0 := by omega
  rw [round_of_target sign (fills.targetExponent_shifted shift), amount, Nat.pow_zero, Nat.mul_one, Int.natCast_zero,
    Int.sub_zero]
  exact roundWithAccuracy_of_fills fills sign shift

theorem round_of_fills_shifted {shift : Nat} (fills : Fills format (significand * 2 ^ shift) (exponent - shift))
    (sign : Sign) :
    UnpackedFloat.round format sign significand exponent =
      .finite sign (significand * 2 ^ shift) (exponent - shift) fills.pos := by
  have positive : 0 < significand := Nat.pos_of_mul_pos_right fills.pos
  have target : format.targetExponent (totalExponent significand exponent) = exponent - shift := by
    have whole := fills.targetExponent_shifted 0
    have moved : totalExponent (significand * 2 ^ shift) (exponent - shift - (0 : Nat)) =
        totalExponent significand exponent := by
      simp only [totalExponent, log2_mul_two_pow positive]
      omega
    simpa only [Nat.pow_zero, Nat.mul_one, moved] using whole
  have amount : (exponent - (exponent - shift)).toNat = shift := by omega
  have still := roundWithAccuracy_of_fills fills sign 0
  rw [Nat.pow_zero, Nat.mul_one, Int.natCast_zero, Int.sub_zero] at still
  rw [round_of_target sign target, amount]
  exact still

theorem pack_of_fills (fills : Fills format significand exponent) (sign : Sign) {biased : Nat}
    (bias : exponent + format.exponentBias + format.mantissaBitsWithoutImplicit = biased)
    (most : biased + 1 < 2 ^ format.exponentBits) :
    UnpackedFloat.pack format (.finite sign significand exponent fills.pos) =
      packComponents format sign (.ofNat _ biased) (.ofNat _ significand) := by
  have full : significand.log2 + 1 = format.mantissaBits := by
    rw [fills.log2_eq, mantissaBits_eq, Nat.add_comm]
  change (if 2 ^ format.exponentBits ≤ Int.toNat _ + 1 then _ else
    if significand.log2 + 1 = format.mantissaBits then
      packComponents format sign (.ofNat _ (Int.toNat _)) (.ofNat _ significand)
    else _) = _
  rw [bias, Int.toNat_natCast, if_neg (Nat.not_le.mpr most), if_pos full]

theorem unpackSign_packed (sign : Sign) (biased : BitVec format.exponentBits)
    (fraction : BitVec format.mantissaBitsWithoutImplicit) :
    unpackSign (packComponents format sign biased fraction) = sign.toBitVec := by
  have top : unpackSign (packComponents format sign biased fraction) =
      ((sign.toBitVec ++ biased ++ fraction).extractLsb (format.mantissaBitsWithoutImplicit + format.exponentBits)
        (format.mantissaBitsWithoutImplicit + format.exponentBits)).cast (by omega) := rfl
  rw [top]
  ext i (_ | ⟨⟨⟩⟩)
  simp +arith [BitVec.getElem_append, BitVec.extractLsb]

theorem finite_congr {sign sign' : Sign} {number number' : Nat} {place place' : Int} {positive : 0 < number}
    {positive' : 0 < number'} (signs : sign = sign') (numbers : number = number') (places : place = place') :
    UnpackedFloat.finite sign number place positive = .finite sign' number' place' positive' := by
  subst signs numbers places
  rfl

theorem unpack_of_normal (bits : BitVec Format.binary64.numBits) (finite : unpackExponent bits ≠ -1#11)
    (normal : unpackExponent bits ≠ 0#11) :
    ∃ positive, UnpackedFloat.unpack .binary64 bits = .finite (.ofBitVec (unpackSign bits))
      (1#1 ++ unpackMantissa bits).toNat ((unpackExponent bits).toNat - (1023 + 52)) positive :=
  ⟨_, (if_neg finite).trans (if_neg normal)⟩

theorem unpack_pack_of_fills (fills : Fills .binary64 significand exponent) (most : exponent ≤ 971) :
    UnpackedFloat.unpack .binary64 (UnpackedFloat.pack .binary64 (.finite .positive significand exponent fills.pos)) =
      .finite .positive significand exponent fills.pos := by
  have least : -1074 ≤ exponent := fills.least
  obtain ⟨biased, bias⟩ : ∃ biased : Nat, exponent + 1023 + 52 = biased := ⟨_, (Int.toNat_of_nonneg (by omega)).symm⟩
  have small : (BitVec.ofNat 11 biased).toNat = biased := by
    rw [BitVec.toNat_ofNat]
    omega
  have finite : BitVec.ofNat 11 biased ≠ -1#11 := fun all => by
    have : biased = 2047 := by rw [← small, all]; rfl
    omega
  have normal : BitVec.ofNat 11 biased ≠ 0#11 := fun none => by
    have : biased = 0 := by rw [← small, none]; rfl
    omega
  have whole : (1#1 ++ BitVec.ofNat 52 significand).toNat = significand := by
    have lower : 2 ^ 52 ≤ significand := fills.lower
    have upper : significand < 2 ^ 53 := fills.upper
    have rest : significand % 2 ^ 52 < 2 ^ 52 := Nat.mod_lt _ (Nat.two_pow_pos 52)
    rw [BitVec.toNat_append, BitVec.toNat_ofNat, BitVec.toNat_ofNat, ← Nat.shiftLeft_add_eq_or_of_lt rest]
    simp only [Nat.shiftLeft_eq]
    omega
  have unbiased : ((BitVec.ofNat 11 biased).toNat : Int) - (1023 + 52) = exponent := by rw [small]; omega
  rw [pack_of_fills fills .positive (by exact bias) (by change biased + 1 < 2048; omega)]
  obtain ⟨positive, unpacked⟩ :=
    unpack_of_normal (packComponents .binary64 .positive (.ofNat _ biased) (.ofNat _ significand))
      (by rwa [unpackExponent_packComponents]) (by rwa [unpackExponent_packComponents])
  rw [unpacked]
  refine finite_congr ?_ ?_ ?_
  · rw [unpackSign_packed]
    rfl
  · rw [unpackMantissa_packComponents]
    exact whole
  · rw [unpackExponent_packComponents]
    exact unbiased

end AmosBasic
