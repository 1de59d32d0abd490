import AmosBasic.Proofs.Float.Binary32
import AmosBasic.Proofs.Float.Fields

namespace AmosBasic

namespace FloatFormat

theorem amosMagnitude_scaled {mantissa exponent : Nat} (positive : 0 < mantissa) (few : mantissa < 2 ^ 24)
    (small : exponent < 2 ^ 7) :
    Scaled (amosMagnitude (UInt32.ofNat mantissa) (UInt8.ofNat exponent)) mantissa (exponent - 88) := by
  have word : (UInt32.ofNat mantissa).toNat = mantissa := UInt32.toNat_ofNat_of_lt' (by change _ < 2 ^ 32; omega)
  have byte : (UInt8.ofNat exponent).toNat = exponent := UInt8.toNat_ofNat_of_lt' (by change _ < 2 ^ 8; omega)
  have whole : Scaled (UInt32.ofNat mantissa).toFloat _ 0 := Scaled.ofUInt32 (by rwa [word])
  have scale : Scaled mantissaScale 1 24 := ⟨52, ⟨by decide, by decide, by decide⟩, rfl⟩
  rw [word] at whole
  have power := Scaled.integerPower_two (exponent - 64) (by omega) (by omega)
  have product := (whole.div scale (by constructor <;> omega)).mul power (by constructor <;> omega)
  rw [show (0 : Int) - 24 + (exponent - 64) = exponent - 88 by omega] at product
  unfold amosMagnitude
  rwa [byte]

theorem zero_mul_power {power : Float} {place : Int} (scaled : Scaled power 1 place) :
    ((0 : UInt32).toFloat / mantissaScale * power).toModel = .pack (.zero .positive) := by
  obtain ⟨_, _, unpacked⟩ := scaled
  refine congrArg Float.Model.pack ?_
  have zero : ((0 : UInt32).toFloat / mantissaScale).toModel.unpack = .zero .positive := rfl
  rw [zero, unpacked]
  rfl

theorem ofFloat_amosMagnitude_zero {exponent : Nat} (small : exponent < 2 ^ 7) :
    Binary32.ofFloat (amosMagnitude 0 (UInt8.ofNat exponent)) = .ofFields false 0 0 := by
  have byte : (UInt8.ofNat exponent).toNat = exponent := UInt8.toNat_ofNat_of_lt' (by change _ < 2 ^ 8; omega)
  have power := Scaled.integerPower_two (exponent - 64) (by omega) (by omega)
  have zero : amosMagnitude 0 (UInt8.ofNat exponent) = ⟨.pack (.zero .positive)⟩ := by
    rw [amosMagnitude, byte]
    exact congrArg Float.ofModel (zero_mul_power power)
  rw [zero]
  rfl

end FloatFormat

namespace AmosPattern

def leadingZeros (pattern : AmosPattern) : Nat := 23 - pattern.mantissa.log2

/-- The number that has the mantissa, moved up to its leading one, as its significand. -/
def number (pattern : AmosPattern) : Binary32 :=
  if pattern.mantissa = 0 then .ofFields pattern.negative 0 0
  else .ofFields pattern.negative (pattern.exponent + 62 - pattern.leadingZeros)
    (pattern.mantissa * 2 ^ pattern.leadingZeros - 2 ^ 23)

theorem leading (pattern : AmosPattern) (positive : pattern.mantissa ≠ 0) :
    pattern.leadingZeros ≤ 23 ∧ 2 ^ 23 ≤ pattern.mantissa * 2 ^ pattern.leadingZeros ∧
      pattern.mantissa * 2 ^ pattern.leadingZeros < 2 ^ 24 := by
  have bits : pattern.mantissa.log2 < 24 := (Nat.log2_lt positive).mpr pattern.mantissa_lt
  have zeros : pattern.mantissa.log2 + pattern.leadingZeros = 23 := by unfold leadingZeros; omega
  have top := log2_mul_two_pow (Nat.pos_of_ne_zero positive) pattern.leadingZeros
  rw [zeros] at top
  have whole : pattern.mantissa * 2 ^ pattern.leadingZeros ≠ 0 :=
    (Nat.mul_pos (Nat.pos_of_ne_zero positive) (Nat.two_pow_pos _)).ne'
  exact ⟨by omega, (Nat.log2_eq_iff whole).mp top⟩

end AmosPattern

namespace FloatFormat

variable {reader : FieldReader} {Stands : reader.State → List UInt8 → Nat → Prop}

theorem ofFloat_amosMagnitude {pattern : AmosPattern} (positive : pattern.mantissa ≠ 0) :
    Binary32.ofFloat (amosMagnitude (UInt32.ofNat pattern.mantissa) (UInt8.ofNat pattern.exponent)) =
      .ofFields false (pattern.exponent + 62 - pattern.leadingZeros)
        (pattern.mantissa * 2 ^ pattern.leadingZeros - 2 ^ 23) := by
  have small := pattern.exponent_lt
  obtain ⟨short, lower, upper⟩ := pattern.leading positive
  have scaled := amosMagnitude_scaled (Nat.pos_of_ne_zero positive) pattern.mantissa_lt small
  have narrowed := Binary32.ofFloat_of_scaled scaled lower upper (by omega) (by omega)
  rw [narrowed, show ((pattern.exponent : Int) - 88 + 150 - pattern.leadingZeros).toNat =
    pattern.exponent + 62 - pattern.leadingZeros by omega]

theorem readAmos_of_lawful (lawful : reader.Lawful Stands) (pattern : AmosPattern) :
    readAmos reader pattern.bytes = .ok pattern.number := by
  have small := pattern.exponent_lt
  rw [readAmos, amosFields_of_lawful lawful]
  refine congrArg Except.ok ?_
  by_cases zero : pattern.mantissa = 0
  · have none : UInt32.ofNat pattern.mantissa = 0 := by rw [zero]; rfl
    rw [none, ofFloat_amosMagnitude_zero small, AmosPattern.number, if_pos zero]
    cases pattern.negative
    · rfl
    · exact Binary32.neg_ofFields (by decide) (by decide)
  · obtain ⟨short, lower, upper⟩ := pattern.leading zero
    rw [ofFloat_amosMagnitude zero, AmosPattern.number, if_neg zero]
    cases pattern.negative
    · rfl
    · exact Binary32.neg_ofFields (by omega) (by omega)

end FloatFormat

namespace AmosPattern

structure Exact (pattern : AmosPattern) (number : Binary32) : Prop where
  value : number.value =
    (-1) ^ pattern.negative.toNat * (pattern.mantissa * 2 ^ ((pattern.exponent : ℤ) - 88))
  sign : number.negative = pattern.negative
  notNaN : number.isNaN = false
  finite : number.isInfinite = false
  normal : number.isSubnormal = false
  zero : number.magnitudeBits = 0 ↔ pattern.mantissa = 0

theorem magnitude_number (pattern : AmosPattern) :
    pattern.number.magnitude = pattern.scaled * 2 ^ 61 := by
  by_cases zero : pattern.mantissa = 0
  · rw [number, if_pos zero, scaled, zero, Nat.zero_mul, Nat.zero_mul]
    cases pattern.negative <;> decide
  · obtain ⟨short, lower, upper⟩ := pattern.leading zero
    have small := pattern.exponent_lt
    rw [number, if_neg zero, Binary32.magnitude_ofFields _ (by omega) (by omega) lower upper, scaled,
      Nat.mul_assoc, ← Nat.pow_add, Nat.mul_assoc, ← Nat.pow_add]
    congr 2
    omega

theorem fields_number (pattern : AmosPattern) :
    ∃ exponent fraction, exponent < 255 ∧ fraction < 2 ^ 23 ∧ (exponent = 0 → fraction = 0) ∧
      (exponent = 0 ↔ pattern.mantissa = 0) ∧ pattern.number = .ofFields pattern.negative exponent fraction := by
  by_cases zero : pattern.mantissa = 0
  · exact ⟨0, 0, by decide, by decide, fun _ => rfl, by simp [zero], by rw [number, if_pos zero]⟩
  · obtain ⟨short, lower, upper⟩ := pattern.leading zero
    have small := pattern.exponent_lt
    refine ⟨_, _, ?_, ?_, ?_, ?_, by rw [number, if_neg zero]⟩ <;> omega

theorem negative_number (pattern : AmosPattern) : pattern.number.negative = pattern.negative := by
  obtain ⟨exponent, fraction, small, inFraction, -, -, same⟩ := pattern.fields_number
  rw [same, Binary32.negative_ofFields _ (by omega) inFraction]

theorem value_number (pattern : AmosPattern) :
    pattern.number.value =
      (-1) ^ pattern.negative.toNat * (pattern.mantissa * 2 ^ ((pattern.exponent : ℤ) - 88)) := by
  rw [Binary32.value, negative_number, magnitude_number, scaled]
  congr 1
  rw [Nat.cast_mul, Nat.cast_mul, Nat.cast_pow, Nat.cast_pow, Nat.cast_ofNat, mul_assoc, mul_assoc,
    ← zpow_natCast, ← zpow_natCast, ← zpow_add₀ two_ne_zero, ← zpow_add₀ two_ne_zero]
  congr 2

theorem exact_number (pattern : AmosPattern) : pattern.Exact pattern.number := by
  obtain ⟨exponent, fraction, small, inFraction, normal, zero, same⟩ := pattern.fields_number
  have exponents := Binary32.exponent_ofFields pattern.negative (show exponent < 2 ^ 8 by omega) inFraction
  have fractions := Binary32.fraction_ofFields pattern.negative (show exponent < 2 ^ 8 by omega) inFraction
  have bits := Binary32.toNat_ofFields pattern.negative (show exponent < 2 ^ 8 by omega) inFraction
  rw [← same] at exponents fractions bits
  refine ⟨pattern.value_number, pattern.negative_number, ?_, ?_, ?_, ?_⟩
  · simp [Binary32.isNaN, exponents, small.ne]
  · simp [Binary32.isInfinite, exponents, small.ne]
  · simpa [Binary32.isSubnormal, exponents, fractions] using normal
  · rw [← zero, Binary32.magnitudeBits, bits]
    split <;> omega

end AmosPattern

/-- For any reader that does what it documents: four bytes always have a number, so no literal is refused. It is a
normal number or a zero, with the sign of the bytes, and stands for them without loss. Under one sign, literals are
the same number just when their mantissas, each shifted by its exponent, are the same, and lie as these do: in this
order above zero, in the other below. -/
theorem amos_literal_exact {reader : FieldReader} {Stands : reader.State → List UInt8 → Nat → Prop}
    (lawful : reader.Lawful Stands) :
    ∃ number : AmosPattern → Binary32,
      (∀ pattern, FloatFormat.readAmos reader pattern.bytes = .ok (number pattern) ∧ pattern.Exact (number pattern)) ∧
      ∀ one other : AmosPattern, one.negative = other.negative →
        (number one = number other ↔ one.scaled = other.scaled) ∧
        ((number one).magnitude < (number other).magnitude ↔ one.scaled < other.scaled) ∧
        ((number one).value < (number other).value ↔
          if one.negative then other.scaled < one.scaled else one.scaled < other.scaled) := by
  refine ⟨AmosPattern.number, fun pattern => ⟨FloatFormat.readAmos_of_lawful lawful pattern, pattern.exact_number⟩,
    fun one other signs => ⟨?_, ?_, ?_⟩⟩
  · constructor
    · intro same
      have magnitudes := congrArg Binary32.magnitude same
      rw [one.magnitude_number, other.magnitude_number] at magnitudes
      exact Nat.eq_of_mul_eq_mul_right (Nat.two_pow_pos 61) magnitudes
    · intro same
      refine Binary32.eq_of_magnitude_eq ?_ ?_
      · rw [one.negative_number, other.negative_number, signs]
      · rw [one.magnitude_number, other.magnitude_number, same]
  · rw [one.magnitude_number, other.magnitude_number]
    exact Nat.mul_lt_mul_right (Nat.two_pow_pos 61)
  · have numbers : one.number.negative = other.number.negative := by
      rw [one.negative_number, other.negative_number, signs]
    rw [Binary32.value_lt_value_iff numbers, one.negative_number, one.magnitude_number, other.magnitude_number,
      Nat.mul_lt_mul_right (Nat.two_pow_pos 61), Nat.mul_lt_mul_right (Nat.two_pow_pos 61)]

theorem amos_literal_exact_negative :
    FieldReader.ofBytes.Lawful (fun state bytes place => state = (bytes, place)) ∧
      ∃ number, FloatFormat.readAmos .ofBytes [0xA0, 0x00, 0x00, 0xC2] = .ok number ∧ number.value = -5 / 2 := by
  obtain ⟨number, each, -⟩ := amos_literal_exact FieldReader.ofBytes_lawful
  obtain ⟨read, exact⟩ := each ⟨0xA0, 0x00, 0x00, 0xC2⟩
  refine ⟨FieldReader.ofBytes_lawful, _, read, ?_⟩
  rw [exact.value]
  have mantissa : AmosPattern.mantissa ⟨0xA0, 0x00, 0x00, 0xC2⟩ = 0xA00000 := rfl
  have exponent : AmosPattern.exponent ⟨0xA0, 0x00, 0x00, 0xC2⟩ = 66 := rfl
  have negative : AmosPattern.negative ⟨0xA0, 0x00, 0x00, 0xC2⟩ = true := rfl
  rw [mantissa, exponent, negative]
  norm_num

end AmosBasic
