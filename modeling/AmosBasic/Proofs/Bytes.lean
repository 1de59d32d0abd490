import Mathlib.Algebra.Order.Ring.Nat
import AmosBasic.Bytes

namespace AmosBasic

theorem foldl_bigEndian (start : Nat) (bytes : List UInt8) :
    bytes.foldl (fun number byte => 256 * number + byte.toNat) start =
      start * 256 ^ bytes.length + bigEndian bytes := by
  induction bytes generalizing start with
  | nil => simp [bigEndian]
  | cons byte bytes ih =>
    have whole : bigEndian (byte :: bytes) = byte.toNat * 256 ^ bytes.length + bigEndian bytes := by
      rw [bigEndian, List.foldl_cons, ih]
      simp
    rw [List.foldl_cons, ih, whole, List.length_cons, Nat.pow_succ', Nat.add_mul, Nat.add_assoc,
      Nat.mul_comm 256 start, Nat.mul_assoc]

theorem bigEndian_cons (byte : UInt8) (bytes : List UInt8) :
    bigEndian (byte :: bytes) = byte.toNat * 256 ^ bytes.length + bigEndian bytes := by
  rw [bigEndian, List.foldl_cons, foldl_bigEndian]
  simp

theorem bigEndian_lt (bytes : List UInt8) : bigEndian bytes < 256 ^ bytes.length := by
  induction bytes with
  | nil => decide
  | cons byte bytes ih =>
    have bound : byte.toNat + 1 ≤ 256 := byte.toNat_lt
    have scaled := Nat.mul_le_mul_right (256 ^ bytes.length) bound
    rw [Nat.add_mul, Nat.one_mul] at scaled
    rw [bigEndian_cons, List.length_cons, Nat.pow_succ']
    omega

@[simp] theorem length_bigEndianBytes (count number : Nat) :
    (bigEndianBytes count number).length = count := by
  induction count with
  | zero => rfl
  | succ count ih => simp [bigEndianBytes, ih]

theorem bigEndian_bigEndianBytes (count number : Nat) :
    bigEndian (bigEndianBytes count number) = number % 256 ^ count := by
  induction count with
  | zero => simp [bigEndianBytes, bigEndian, Nat.mod_one]
  | succ count ih =>
    rw [bigEndianBytes, bigEndian_cons, length_bigEndianBytes, ih, Nat.mod_pow_succ]
    simp only [UInt8.toNat_ofNat', Nat.reducePow]
    rw [Nat.mul_comm, Nat.add_comm]

theorem bigEndian_bigEndianBytes_of_lt {count number : Nat} (fits : number < 256 ^ count) :
    bigEndian (bigEndianBytes count number) = number := by
  rw [bigEndian_bigEndianBytes, Nat.mod_eq_of_lt fits]

@[simp] theorem bigEndian_bigEndianBytes_uint16 (word : UInt16) :
    bigEndian (bigEndianBytes 2 word.toNat) = word.toNat :=
  bigEndian_bigEndianBytes_of_lt word.toNat_lt

@[simp] theorem bigEndian_bigEndianBytes_uint32 (word : UInt32) :
    bigEndian (bigEndianBytes 4 word.toNat) = word.toNat :=
  bigEndian_bigEndianBytes_of_lt word.toNat_lt

theorem bigEndian_injective {first second : List UInt8} (lengths : first.length = second.length)
    (numbers : bigEndian first = bigEndian second) : first = second := by
  induction first generalizing second with
  | nil => exact (List.length_eq_zero_iff.mp lengths.symm).symm
  | cons byte first ih =>
    cases second with
    | nil => cases lengths
    | cons other second =>
      have tails : first.length = second.length := Nat.succ.inj lengths
      rw [bigEndian_cons, bigEndian_cons, tails] at numbers
      have low := bigEndian_lt first
      have otherLow := bigEndian_lt second
      rw [tails] at low
      have positive : 0 < 256 ^ second.length := Nat.pow_pos (by decide)
      have heads : byte.toNat = other.toNat := by
        have quotients := congrArg (· / 256 ^ second.length) numbers
        simpa only [Nat.mul_comm _ (256 ^ second.length), Nat.mul_add_div positive,
          Nat.div_eq_of_lt low, Nat.div_eq_of_lt otherLow, Nat.add_zero] using quotients
      rw [heads] at numbers
      rw [UInt8.toNat_inj.mp heads, ih tails (Nat.add_left_cancel numbers)]

theorem bigEndianBytes_bigEndian (bytes : List UInt8) :
    bigEndianBytes bytes.length (bigEndian bytes) = bytes := by
  apply bigEndian_injective (length_bigEndianBytes _ _)
  exact bigEndian_bigEndianBytes_of_lt (bigEndian_lt bytes)

theorem exists_eq_bigEndianBytes_append {count : Nat} {bytes : List UInt8} (enough : count ≤ bytes.length) :
    ∃ number rest, number < 256 ^ count ∧ bytes = bigEndianBytes count number ++ rest := by
  have filled : (bytes.take count).length = count := List.length_take_of_le enough
  have small := bigEndian_lt (bytes.take count)
  have same := bigEndianBytes_bigEndian (bytes.take count)
  rw [filled] at small same
  exact ⟨bigEndian (bytes.take count), bytes.drop count, small, by rw [same, List.take_append_drop]⟩

theorem exists_eq_bigEndianBytes_uint32 {bytes : List UInt8} (four : bytes.length = 4) :
    ∃ word : UInt32, bytes = bigEndianBytes 4 word.toNat := by
  have small := bigEndian_lt bytes
  have same := bigEndianBytes_bigEndian bytes
  rw [four] at small same
  exact ⟨UInt32.ofNat (bigEndian bytes), by rw [UInt32.toNat_ofNat_of_lt' small, same]⟩

theorem exists_eq_bigEndianBytes_uint16 {bytes : List UInt8} (two : bytes.length = 2) :
    ∃ word : UInt16, bytes = bigEndianBytes 2 word.toNat := by
  have small := bigEndian_lt bytes
  have same := bigEndianBytes_bigEndian bytes
  rw [two] at small same
  exact ⟨UInt16.ofNat (bigEndian bytes), by rw [UInt16.toNat_ofNat_of_lt' small, same]⟩

@[simp] theorem length_padded (bytes : List UInt8) : (padded bytes).length = wordAligned bytes.length := by
  simp [padded, wordAligned]

end AmosBasic
