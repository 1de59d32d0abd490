import AmosBasic.Float.Literal
import AmosBasic.Proofs.Bytes

namespace AmosBasic

/-- What a reader of fields does as long as there are bits for what is asked. `Stands state bytes place` says that
the state has `place` bits of the bytes behind it. -/
structure FieldReader.Lawful (reader : FieldReader) (Stands : reader.State → List UInt8 → Nat → Prop) : Prop where
  start (bytes : List UInt8) : Stands (reader.start bytes) bytes 0
  readWord {state : reader.State} {bytes : List UInt8} {place count : Nat} :
    Stands state bytes place → count ≤ 32 → place + count ≤ 8 * bytes.length →
      ∃ next, reader.readWord count state = .ok (UInt32.ofNat (field bytes place count), next) ∧
        Stands next bytes (place + count)
  readBit {state : reader.State} {bytes : List UInt8} {place : Nat} :
    Stands state bytes place → place + 1 ≤ 8 * bytes.length →
      ∃ next, reader.readBit state = .ok (field bytes place 1 = 1, next) ∧ Stands next bytes (place + 1)
  readByte {state : reader.State} {bytes : List UInt8} {place count : Nat} :
    Stands state bytes place → count ≤ 8 → place + count ≤ 8 * bytes.length →
      ∃ next, reader.readByte count state = .ok (UInt8.ofNat (field bytes place count), next) ∧
        Stands next bytes (place + count)

theorem FieldReader.advance_eq {width count : Nat} {bytes : List UInt8} {place : Nat} (fits : count ≤ width)
    (enough : place + count ≤ 8 * bytes.length) :
    advance width count bytes place = .ok (field bytes place count, bytes, place + count) := by
  unfold advance
  rw [if_neg (by omega), if_neg (by omega)]

theorem FieldReader.ofBytes_lawful : ofBytes.Lawful fun state bytes place => state = (bytes, place) where
  start _ := rfl
  readWord := by
    rintro _ bytes place count rfl fits enough
    exact ⟨_, by simp only [ofBytes, advance_eq fits enough]; rfl, rfl⟩
  readBit := by
    rintro _ bytes place rfl enough
    exact ⟨_, by simp only [ofBytes, advance_eq (Nat.le_refl 1) enough]; rfl, rfl⟩
  readByte := by
    rintro _ bytes place count rfl fits enough
    exact ⟨_, by simp only [ofBytes, advance_eq fits enough]; rfl, rfl⟩

structure AmosPattern where
  first : UInt8
  second : UInt8
  third : UInt8
  last : UInt8

namespace AmosPattern

def bytes (pattern : AmosPattern) : List UInt8 :=
  [pattern.first, pattern.second, pattern.third, pattern.last]

def mantissa (pattern : AmosPattern) : Nat := bigEndian [pattern.first, pattern.second, pattern.third]

def negative (pattern : AmosPattern) : Bool := 128 ≤ pattern.last.toNat

def exponent (pattern : AmosPattern) : Nat := pattern.last.toNat % 128

def scaled (pattern : AmosPattern) : Nat := pattern.mantissa * 2 ^ pattern.exponent

theorem mantissa_lt (pattern : AmosPattern) : pattern.mantissa < 2 ^ 24 := by
  simpa [mantissa] using bigEndian_lt [pattern.first, pattern.second, pattern.third]

theorem exponent_lt (pattern : AmosPattern) : pattern.exponent < 2 ^ 7 := Nat.mod_lt _ (by decide)

theorem bigEndian_bytes (pattern : AmosPattern) :
    bigEndian pattern.bytes = pattern.mantissa * 256 + pattern.last.toNat := by
  change 256 * pattern.mantissa + pattern.last.toNat = _
  rw [Nat.mul_comm]

theorem field_mantissa (pattern : AmosPattern) : FieldReader.field pattern.bytes 0 24 = pattern.mantissa := by
  have := pattern.mantissa_lt
  have := pattern.last.toNat_lt
  change bigEndian pattern.bytes / 2 ^ 8 % 2 ^ 24 = _
  rw [bigEndian_bytes]
  omega

theorem field_negative (pattern : AmosPattern) :
    decide (FieldReader.field pattern.bytes 24 1 = 1) = pattern.negative := by
  have := pattern.last.toNat_lt
  refine decide_eq_decide.mpr ?_
  change bigEndian pattern.bytes / 2 ^ 7 % 2 ^ 1 = 1 ↔ _
  rw [bigEndian_bytes]
  omega

theorem field_exponent (pattern : AmosPattern) : FieldReader.field pattern.bytes 25 7 = pattern.exponent := by
  change bigEndian pattern.bytes / 2 ^ 0 % 2 ^ 7 = pattern.last.toNat % 128
  rw [bigEndian_bytes]
  omega

end AmosPattern

namespace FloatFormat

variable {reader : FieldReader} {Stands : reader.State → List UInt8 → Nat → Prop}

theorem amosFields_of_lawful (lawful : reader.Lawful Stands) (pattern : AmosPattern) :
    amosFields reader pattern.bytes =
      .ok (UInt32.ofNat pattern.mantissa, pattern.negative, UInt8.ofNat pattern.exponent) := by
  have length : 8 * pattern.bytes.length = 32 := rfl
  obtain ⟨afterMantissa, mantissa, stands⟩ :=
    lawful.readWord (lawful.start pattern.bytes) (show 24 ≤ 32 by decide) (by omega)
  obtain ⟨afterSign, negative, stands⟩ := lawful.readBit stands (by omega)
  obtain ⟨_, exponent, -⟩ := lawful.readByte stands (show 7 ≤ 8 by decide) (by omega)
  rw [pattern.field_mantissa] at mantissa
  rw [pattern.field_negative] at negative
  rw [pattern.field_exponent] at exponent
  simp only [amosFields, mantissa, negative, exponent, bind, Except.bind, pure, Except.pure]

theorem read_bytes : (format : FloatFormat) → {bytes : List UInt8} → bytes.length = 4 →
    ∃ number, format.read bytes = .ok number
  | ieee, _, _ => ⟨_, rfl⟩
  | amos, [first, second, third, last], _ => by
    have fields := amosFields_of_lawful FieldReader.ofBytes_lawful ⟨first, second, third, last⟩
    rw [AmosPattern.bytes] at fields
    rw [read, readAmos, fields]
    exact ⟨_, rfl⟩

end FloatFormat

end AmosBasic
