import AmosBasic.Float.Text
import AmosBasic.Proofs.Float.Shortest
import AmosBasic.Proofs.Text.Decimal

namespace AmosBasic

namespace DecimalNumeral

structure Shows (numeral : DecimalNumeral) (digits : List Char) (exponent : Int) : Prop where
  wellFormed : numeral.WellFormed
  magnitude : numeral.magnitude = Nat.ofDigitChars 10 digits 0 * 10 ^ exponent
  significantDigits : numeral.significantDigits ≤ digits.length

def positional (negative : Bool) (digits : List Char) (point : Int) : DecimalNumeral where
  negative := negative
  whole :=
    if point ≤ 0 then ['0'] else digits.take point.toNat ++ List.replicate (point.toNat - digits.length) '0'
  part :=
    if point ≤ 0 then List.replicate (-point).toNat '0' ++ digits
    else if (digits.drop point.toNat).isEmpty then ['0'] else digits.drop point.toNat
  exponent? := none

def exponential (negative : Bool) (digits : List Char) (point : Int) : DecimalNumeral where
  negative := negative
  whole := digits.take 1
  part := digits.drop 1
  exponent? := some (point - 1)

variable {numeral : DecimalNumeral} {digits : List Char} {point : Int}

theorem shows_of_zeros (before behind : Nat) (some : numeral.whole ≠ []) (all : ∀ character ∈ digits, character.isDigit)
    (same : numeral.whole ++ numeral.part = List.replicate before '0' ++ digits ++ List.replicate behind '0')
    {exponent : Int} (places : numeral.exponent?.getD 0 - numeral.part.length + behind = exponent) :
    numeral.Shows digits exponent where
  wellFormed := by
    refine ⟨some, fun character member => ?_⟩
    rw [same, List.mem_append, List.mem_append, List.mem_replicate, List.mem_replicate] at member
    rcases member with (⟨-, rfl⟩ | among) | ⟨-, rfl⟩
    · rfl
    · exact all character among
    · rfl
  magnitude := by rw [magnitude_of_zeros same, places]
  significantDigits := significantDigits_le same

theorem shows_positional (negative : Bool) (some : digits ≠ []) (all : ∀ character ∈ digits, character.isDigit)
    (point : Int) :
    (positional negative digits point).Shows digits (point - digits.length) := by
  by_cases small : point ≤ 0
  · refine shows_of_zeros ((-point).toNat + 1) 0 ?_ all ?_ ?_
    · simp [positional, small]
    · simp [positional, small, List.replicate_succ]
    · simp [positional, small]
      omega
  · -- The point is among the digits, or zeros fill up the place in front of it.
    by_cases among : point.toNat < digits.length
    · have behind : ¬ digits.length ≤ point.toNat := Nat.not_le.mpr among
      refine shows_of_zeros 0 0 ?_ all ?_ ?_
      · simp [positional, small, some]
      · simp [positional, small, behind, Nat.sub_eq_zero_of_le among.le]
      · simp [positional, small, behind]
        omega
    · have none := Nat.le_of_not_lt among
      refine shows_of_zeros 0 (point.toNat - digits.length + 1) ?_ all ?_ ?_
      · simp [positional, small, some]
      · simp [positional, small, none, List.take_of_length_le none, List.replicate_succ']
      · simp [positional, small, none]
        omega

theorem shows_exponential (negative : Bool) (some : digits ≠ []) (all : ∀ character ∈ digits, character.isDigit)
    (point : Int) :
    (exponential negative digits point).Shows digits (point - digits.length) := by
  have positive := List.length_pos_iff.mpr some
  refine shows_of_zeros 0 0 ?_ all ?_ ?_
  · simpa [exponential] using some
  · simp only [exponential, List.take_append_drop, List.replicate_zero, List.nil_append, List.append_nil]
  · simp only [exponential, Option.getD_some, List.length_drop]
    omega

theorem part_positional (negative : Bool) (some : digits ≠ []) (point : Int) :
    (positional negative digits point).part ≠ [] := by
  simp only [positional]
  split
  · simp [some]
  · split
    · exact List.cons_ne_nil _ _
    · rename_i rest
      exact fun none => rest (List.isEmpty_iff.mpr none)

theorem text_positional (negative : Bool) (some : digits ≠ []) (point : Int) :
    (positional negative digits point).text =
      (if negative then "-" else "") ++ Binary32.positional digits point := by
  have part := part_positional negative some point
  apply String.toList_inj.mp
  rw [text, partText, if_neg part]
  by_cases small : point ≤ 0
  · cases negative <;> simp [positional, Binary32.positional, small, exponentText]
  · cases negative <;> simp [positional, Binary32.positional, small, exponentText]

theorem text_exponential (negative : Bool) (digits : List Char) (point : Int) :
    (exponential negative digits point).text =
      (if negative then "-" else "") ++ Binary32.exponential digits point := by
  apply String.toList_inj.mp
  by_cases single : digits.tail = []
  · cases negative <;> simp [text, partText, exponential, Binary32.exponential, single, exponentText]
  · cases negative <;> simp [text, partText, exponential, Binary32.exponential, single, exponentText]

end DecimalNumeral

namespace Binary32

def shownNumeral (x : Binary32) : DecimalNumeral :=
  let digits := Nat.toDigits 10 x.shortest.digits
  let point := digits.length + x.shortest.exponent
  if x.magnitude = 0 then ⟨x.negative, ['0'], ['0'], none⟩
  else if firstPositional ≤ x.magnitudeBits ∧ x.magnitudeBits < firstExponential then
    .positional x.negative digits point
  else .exponential x.negative digits point

variable {x : Binary32}

theorem text_shownNumeral (finite : x.isFinite) : x.shownNumeral.text = x.text := by
  have exponent : ¬ x.exponent = 255 := by simpa [isFinite] using finite
  rw [text, isNaN, isInfinite, magnitudeText, shownNumeral]
  simp only [exponent, false_and, decide_false, Bool.false_eq_true, if_false]
  split
  · cases x.negative <;> rfl
  · split
    · exact DecimalNumeral.text_positional _ Nat.toDigits_ne_nil _
    · exact DecimalNumeral.text_exponential _ _ _

theorem magnitude_eq_zero_iff : x.magnitude = 0 ↔ x.magnitudeBits = 0 := by
  rw [magnitude_eq]
  exact magnitudeAt_strictMono.injective.eq_iff (b := 0)

theorem shows_shownNumeral (positive : 0 < x.magnitudeBits) :
    x.shownNumeral.Shows (Nat.toDigits 10 x.shortest.digits) x.shortest.exponent := by
  have digits : ∀ character ∈ Nat.toDigits 10 x.shortest.digits, character.isDigit := fun character member =>
    Nat.isDigit_of_mem_toDigits (by decide) (by decide) member
  have point : ((Nat.toDigits 10 x.shortest.digits).length : Int) + x.shortest.exponent -
      (Nat.toDigits 10 x.shortest.digits).length = x.shortest.exponent := by omega
  have nonzero : ¬ x.magnitude = 0 := fun zero => positive.ne' (magnitude_eq_zero_iff.mp zero)
  rw [shownNumeral, if_neg nonzero]
  split
  · have shown := DecimalNumeral.shows_positional x.negative Nat.toDigits_ne_nil digits
      ((Nat.toDigits 10 x.shortest.digits).length + x.shortest.exponent)
    rwa [point] at shown
  · have shown := DecimalNumeral.shows_exponential x.negative Nat.toDigits_ne_nil digits
      ((Nat.toDigits 10 x.shortest.digits).length + x.shortest.exponent)
    rwa [point] at shown

theorem negative_shownNumeral (x : Binary32) : x.shownNumeral.negative = x.negative := by
  rw [shownNumeral]
  split
  · rfl
  · split <;> rfl

theorem wellFormed_shownNumeral (x : Binary32) : x.shownNumeral.WellFormed := by
  rcases Nat.eq_zero_or_pos x.magnitudeBits with zero | positive
  · rw [shownNumeral, if_pos (magnitude_eq_zero_iff.mpr zero)]
    exact ⟨by simp, by simp⟩
  · exact (shows_shownNumeral positive).wellFormed

theorem roundsTo_shownNumeral (finite : x.isFinite) : RoundsTo x.negative x.shownNumeral.magnitude x := by
  rcases Nat.eq_zero_or_pos x.magnitudeBits with zero | positive
  · have none : x.shownNumeral.magnitude = 0 := by
      rw [shownNumeral, if_pos (magnitude_eq_zero_iff.mpr zero), DecimalNumeral.magnitude]
      simp [Nat.ofDigitChars]
    rw [none]
    exact roundsTo_zero zero
  · rw [(shows_shownNumeral positive).magnitude, Nat.ofDigitChars_ten_toDigits]
    exact (shortest_spec positive finite).1

theorem significantDigits_shownNumeral (finite : x.isFinite) {decimal : Decimal}
    (rounds : RoundsTo x.negative decimal.value x) :
    x.shownNumeral.significantDigits ≤ (Nat.toDigits 10 decimal.digits).length := by
  rcases Nat.eq_zero_or_pos x.magnitudeBits with zero | positive
  · have none : x.shownNumeral.significantDigits = 0 := by
      rw [shownNumeral, if_pos (magnitude_eq_zero_iff.mpr zero)]
      rfl
    rw [none]
    exact Nat.zero_le _
  · exact (shows_shownNumeral positive).significantDigits.trans (shortest_fewest positive finite rounds)

section Range

def tenThousandth : Binary32 := ⟨UInt32.ofNat firstPositional⟩

theorem size_le_size_iff {y : Binary32} : x.size ≤ y.size ↔ x.magnitudeBits ≤ y.magnitudeBits := by
  rw [size_eq, size_eq, mul_le_mul_iff_of_pos_right (by positivity), Nat.cast_le]
  exact magnitudeAt_strictMono.le_iff_le

theorem magnitudeBits_tenThousandth : tenThousandth.magnitudeBits = firstPositional := rfl

theorem roundsTo_tenThousandth : RoundsTo false (1 / 10 ^ 4) tenThousandth := by
  have holds : (RoundingInterval.ofBinary32 tenThousandth).Holds (1 * (RoundingInterval.gridUnit (-4)).1)
    (RoundingInterval.gridUnit (-4)).2 := by decide
  have rounds := (holds_iff_roundsTo (x := tenThousandth) rfl (by decide) ⟨1, -4⟩).mp holds
  have value : Decimal.value ⟨1, -4⟩ = 1 / 10 ^ 4 := by norm_num [Decimal.value]
  rwa [value] at rounds

/-- `10 ^ 16` is between the last number below `firstExponential` and the first. -/
theorem size_lt_iff : x.size < 10 ^ 16 ↔ x.magnitudeBits < firstExponential := by
  have scale : (10 : ℚ) ^ 16 = (10 ^ 16 * 2 ^ 149 : Nat) * 2 ^ (-149 : ℤ) := by norm_num
  rw [size_eq, scale, mul_lt_mul_iff_of_pos_right (by positivity), Nat.cast_lt]
  have last : magnitudeAt (firstExponential - 1) < 10 ^ 16 * 2 ^ 149 := by decide
  have first : 10 ^ 16 * 2 ^ 149 < magnitudeAt firstExponential := by decide
  constructor
  · intro less
    exact magnitudeAt_strictMono.lt_iff_lt.mp (less.trans first)
  · intro less
    exact (magnitudeAt_strictMono.monotone (Nat.le_sub_one_of_lt less)).trans_lt last

def Plain (x : Binary32) : Prop :=
  x.size = 0 ∨ tenThousandth.size ≤ x.size ∧ x.size < 10 ^ 16

theorem plain_iff : x.Plain ↔
    x.magnitude = 0 ∨ firstPositional ≤ x.magnitudeBits ∧ x.magnitudeBits < firstExponential := by
  have zero : x.size = 0 ↔ x.magnitude = 0 := by
    rw [size_eq, magnitude_eq, mul_eq_zero_iff_right (by positivity), Nat.cast_eq_zero]
  rw [Plain, zero, size_le_size_iff, size_lt_iff, magnitudeBits_tenThousandth]

theorem shownNumeral_of_plain (plain : x.Plain) : x.shownNumeral.exponent? = none ∧ x.shownNumeral.part ≠ [] := by
  rw [shownNumeral]
  split
  · exact ⟨rfl, List.cons_ne_nil _ _⟩
  · rename_i nonzero
    rw [if_pos ((plain_iff.mp plain).resolve_left nonzero)]
    exact ⟨rfl, DecimalNumeral.part_positional _ Nat.toDigits_ne_nil _⟩

theorem shownNumeral_of_not_plain (outside : ¬ x.Plain) : x.shownNumeral.exponent?.isSome := by
  rw [plain_iff, not_or] at outside
  rw [shownNumeral, if_neg outside.1, if_neg outside.2]
  rfl

end Range

/-- The numeral that a text is stands for the number, and could not be shorter. -/
structure ReadsBack (text : String) (x : Binary32) (numeral : DecimalNumeral) : Prop where
  read : DecimalNumeral.read? text = some numeral
  positional : x.Plain → numeral.exponent? = none ∧ numeral.part ≠ []
  exponential : ¬ x.Plain → numeral.exponent?.isSome
  rounds : ∀ y : Binary32, RoundsTo numeral.negative numeral.magnitude y ↔ y = x
  fewest : ∀ decimal : Decimal, RoundsTo numeral.negative decimal.value x →
    numeral.significantDigits ≤ (Nat.toDigits 10 decimal.digits).length

theorem text_reads_back (finite : x.isFinite) : ReadsBack x.text x x.shownNumeral where
  read := by
    rw [← text_shownNumeral finite]
    exact DecimalNumeral.read?_text x.wellFormed_shownNumeral
  positional := shownNumeral_of_plain
  exponential := shownNumeral_of_not_plain
  rounds y := by
    rw [negative_shownNumeral]
    have rounds := roundsTo_shownNumeral finite
    exact ⟨fun other => other.unique rounds, fun same => same ▸ rounds⟩
  fewest decimal rounds := by
    rw [negative_shownNumeral] at rounds
    exact significantDigits_shownNumeral finite rounds

example : (⟨0x3DCCCCCD⟩ : Binary32).text = "0.1" := by decide +kernel

theorem ReadsBack.unique {text : String} {x y : Binary32} {numeral other : DecimalNumeral}
    (first : ReadsBack text x numeral) (second : ReadsBack text y other) : x = y := by
  have same := second.read
  rw [first.read, Option.some.injEq] at same
  have rounds := (first.rounds x).mpr rfl
  rw [same] at rounds
  exact (second.rounds x).mp rounds

end Binary32

end AmosBasic
