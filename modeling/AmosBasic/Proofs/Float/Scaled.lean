import AmosBasic.Proofs.Float.Rounding

namespace AmosBasic

open Float.Model Float.Model.UnpackedFloat

/-- `x` is `number * 2 ^ exponent`, which is positive. -/
def Scaled (x : Float) (number : Nat) (exponent : Int) : Prop :=
  ∃ (shift : Nat) (fills : Fills .binary64 (number * 2 ^ shift) (exponent - shift)),
    x.toModel.unpack = .finite .positive (number * 2 ^ shift) (exponent - shift) fills.pos

def Moderate (exponent : Int) : Prop := -1000 ≤ exponent ∧ exponent ≤ 900

namespace Scaled

variable {x y : Float} {number : Nat} {exponent scale : Int}

theorem of_pack {shift : Nat} (fills : Fills .binary64 (number * 2 ^ shift) (exponent - shift))
    (most : exponent - shift ≤ 971)
    (same : x.toModel = .pack (.finite .positive (number * 2 ^ shift) (exponent - shift) fills.pos)) :
    Scaled x number exponent := by
  refine ⟨shift, fills, ?_⟩
  rw [same]
  exact unpack_pack_of_fills fills most

theorem fills {shift : Nat} (lower : 2 ^ 52 ≤ number * 2 ^ shift) (upper : number * 2 ^ shift < 2 ^ 53)
    (least : -1074 ≤ exponent - shift) : Fills .binary64 (number * 2 ^ shift) (exponent - shift) :=
  ⟨lower, upper, least⟩

theorem shift_le {shift : Nat} (positive : 0 < number) (upper : number * 2 ^ shift < 2 ^ 53) : shift ≤ 52 := by
  have : 2 ^ shift < 2 ^ 53 := lt_of_le_of_lt (Nat.le_mul_of_pos_left _ positive) upper
  have := (Nat.pow_lt_pow_iff_right (by decide)).mp this
  omega

theorem ofUInt32 {word : UInt32} (positive : 0 < word.toNat) : Scaled word.toFloat word.toNat 0 := by
  have bits : word.toNat.log2 < 32 := (Nat.log2_lt positive.ne').mpr word.toNat_lt
  obtain ⟨lower, upper⟩ := (Nat.log2_eq_iff positive.ne').mp rfl
  obtain ⟨shift, total⟩ : ∃ shift, word.toNat.log2 + shift = 52 := ⟨52 - word.toNat.log2, by omega⟩
  have filled : Fills .binary64 (word.toNat * 2 ^ shift) (0 - shift) := by
    refine Scaled.fills ?_ ?_ (by omega)
    · rw [← total, Nat.pow_add]
      exact Nat.mul_le_mul_right _ lower
    · rw [show 53 = word.toNat.log2 + 1 + shift by omega, Nat.pow_add]
      exact Nat.mul_lt_mul_of_pos_right upper (Nat.two_pow_pos shift)
  refine of_pack filled (by omega) (congrArg Float.Model.pack ?_)
  rw [← round_of_fills_shifted filled]
  have greater : compare (word.toNat : Int) 0 = .gt := by
    rw [compare_gt_iff_gt]
    omega
  simp only [UnpackedFloat.ofUInt32, UnpackedFloat.ofNat, UnpackedFloat.ofInt, UnpackedFloat.normalize, greater,
    Int.toNat_natCast]

theorem power (base : Scaled y 1 scale) :
    ∃ fills : Fills .binary64 (2 ^ 52) (scale - 52),
      y.toModel.unpack = .finite .positive (2 ^ 52) (scale - 52) fills.pos := by
  obtain ⟨shift, fills, same⟩ := base
  -- The only bit is the leading one, so the shift is known.
  have : shift = 52 := by simpa only [Nat.one_mul, Nat.log2_two_pow] using fills.log2_eq
  subst this
  exact ⟨fills, same⟩

theorem mul (first : Scaled x number exponent) (second : Scaled y 1 scale) (moderate : Moderate (exponent + scale)) :
    Scaled (x * y) number (exponent + scale) := by
  obtain ⟨shift, filled, same⟩ := first
  obtain ⟨bit, power⟩ := second.power
  have positive : 0 < number := Nat.pos_of_mul_pos_right filled.pos
  have short : shift ≤ 52 := shift_le positive filled.upper
  have product : Fills .binary64 (number * 2 ^ shift) (exponent + scale - shift) :=
    Scaled.fills filled.lower filled.upper (by unfold Moderate at moderate; omega)
  refine of_pack product (by unfold Moderate at moderate; omega) (congrArg Float.Model.pack ?_)
  rw [same, power]
  have place : exponent - shift + (scale - 52) = exponent + scale - shift - (52 : Nat) := by omega
  change roundWithAccuracy .binary64 .positive _ (exponent - shift + (scale - 52)) .exact = _
  rw [place]
  exact roundWithAccuracy_of_fills product .positive 52

theorem divCore_power {significand : Nat} {place bit : Int} (filled : Fills .binary64 significand place)
    (power : Fills .binary64 (2 ^ 52) bit) (least : -1000 ≤ place - bit) :
    divCore .binary64 significand place (2 ^ 52) bit = (significand * 2 ^ 1, place - bit - 53, .exact) := by
  have target : min (place - bit) (Format.binary64.targetExponent
      (totalExponent significand place - totalExponent (2 ^ 52) bit)) = place - bit - 53 := by
    simp only [Format.targetExponent, totalExponent, filled.log2_eq, power.log2_eq, mantissaBits_eq,
      Format.minExponent]
    omega
  have amount : (place - bit - (place - bit - 53)).toNat = 53 := by omega
  have moved : significand <<< 53 = significand * 2 ^ 1 * 2 ^ 52 := by
    rw [Nat.shiftLeft_eq]
    ring
  simp only [divCore, target, amount, moved, Nat.mul_div_cancel _ (Nat.two_pow_pos 52), Nat.mul_mod_left,
    accuracyOfFraction, if_true]

theorem div (first : Scaled x number exponent) (second : Scaled y 1 scale) (moderate : Moderate (exponent - scale)) :
    Scaled (x / y) number (exponent - scale) := by
  obtain ⟨shift, filled, same⟩ := first
  obtain ⟨bit, power⟩ := second.power
  have positive : 0 < number := Nat.pos_of_mul_pos_right filled.pos
  have short : shift ≤ 52 := shift_le positive filled.upper
  obtain ⟨least, most⟩ := moderate
  have quotient : Fills .binary64 (number * 2 ^ shift) (exponent - scale - shift) :=
    Scaled.fills filled.lower filled.upper (by omega)
  refine of_pack quotient (by omega) (congrArg Float.Model.pack ?_)
  rw [same, power]
  have place : exponent - shift - (scale - 52) - 53 = exponent - scale - shift - (1 : Nat) := by omega
  unfold UnpackedFloat.div
  dsimp only
  rw [divCore_power filled bit (by omega), place]
  exact roundWithAccuracy_of_fills quotient .positive 1

theorem timesPower {start base : Float} {place step times : Nat} (first : Scaled start number place)
    (second : Scaled base 1 step) (most : place + step * times ≤ 900) :
    Scaled (timesPower start base times) number (place + step * times : Nat) := by
  induction times using Nat.strongRecOn generalizing start base place step with
  | ind times ih =>
    obtain ⟨half, bit, isBit, rfl⟩ : ∃ half bit, bit < 2 ∧ times = 2 * half + bit :=
      ⟨times / 2, times % 2, Nat.mod_lt _ (by decide), (Nat.div_add_mod _ _).symm⟩
    have halved : (2 * half + bit) / 2 = half := by omega
    have rest : (2 * half + bit) % 2 = bit := by omega
    have total : place + step * (2 * half + bit) = place + step * bit + (step + step) * half := by ring
    rw [total] at most ⊢
    have product : Scaled (if bit = 1 then start * base else start) number (place + step * bit : Nat) := by
      split
      · subst bit
        have := first.mul second (by constructor <;> omega)
        simpa using this
      · have : bit = 0 := by omega
        simpa [this] using first
    unfold AmosBasic.timesPower
    simp only [halved, rest]
    by_cases last : half = 0
    · simpa [last] using product
    · have one : step + step ≤ (step + step) * half := Nat.le_mul_of_pos_right _ (by omega)
      rw [if_neg last]
      exact ih half (by omega) product (second.mul second (by constructor <;> omega)) most

theorem integerPower_two (power : Int) (least : -900 ≤ power) (most : power ≤ 900) :
    Scaled (integerPower 2 power) 1 power := by
  have one : Scaled 1 1 (0 : Nat) := ⟨52, ⟨by decide, by decide, by decide⟩, rfl⟩
  have two : Scaled 2 1 (1 : Nat) := ⟨52, ⟨by decide, by decide, by decide⟩, rfl⟩
  have raised : Scaled (AmosBasic.timesPower 1 2 power.natAbs) 1 _ := one.timesPower two (by omega)
  simp only [Nat.zero_add, Nat.one_mul] at raised
  unfold integerPower
  by_cases reciprocal : power < 0
  · have := one.div raised (by constructor <;> omega)
    simp only [reciprocal, if_true]
    rwa [show ((0 : Nat) : Int) - power.natAbs = power by omega] at this
  · simp only [reciprocal, if_false]
    rwa [show (power.natAbs : Int) = power by omega] at raised

end Scaled

end AmosBasic
