import AmosBasic.Bytes
import AmosBasic.Text.Latin1
import Mathlib.Data.List.DropRight

namespace AmosBasic.Latin1

theorem toNat_character (byte : UInt8) : (character byte).toNat = byte.toNat := by
  have valid : byte.toNat.isValidChar := .inl (by have := byte.toNat_lt; omega)
  rw [character, Char.ofNat, dif_pos valid]
  rfl

theorem encode_decode (bytes : List UInt8) : encode (decode bytes) = bytes := by
  simp [encode, decode, Function.comp_def, toNat_character]

theorem decode_injective : Function.Injective decode :=
  Function.LeftInverse.injective encode_decode

theorem getLast?_trimPadding (bytes : List UInt8) : (trimPadding bytes).getLast? ≠ some 0 := by
  intro last
  have kept := List.head?_dropWhile_not (· == 0) bytes.reverse
  rw [trimPadding, List.getLast?_reverse] at last
  simp [last] at kept

theorem trimPadding_eq_self {bytes : List UInt8} (last : bytes.getLast? ≠ some 0) : trimPadding bytes = bytes := by
  refine List.rdropWhile_eq_self_iff.mpr fun filled ends => last ?_
  rw [List.getLast?_eq_some_getLast filled, eq_of_beq ends]

theorem exists_trimPadding_append (bytes : List UInt8) :
    ∃ nuls, bytes = trimPadding bytes ++ List.replicate nuls 0 := by
  have whole : trimPadding bytes ++ bytes.rtakeWhile (· == 0) = bytes := List.rdropWhile_append_rtakeWhile
  have nuls : bytes.rtakeWhile (· == 0) = List.replicate (bytes.rtakeWhile (· == 0)).length 0 :=
    List.eq_replicate_of_mem fun byte member => by simpa using List.mem_rtakeWhile_imp member
  rw [nuls] at whole
  exact ⟨_, whole.symm⟩

theorem trimPadding_append_replicate (bytes : List UInt8) (nuls : Nat) :
    trimPadding (bytes ++ List.replicate nuls 0) = trimPadding bytes := by
  simp [trimPadding, List.dropWhile_append_of_pos]

/-- What is in front is what is left exactly if it does not end in NUL and nothing but NULs is behind it. -/
theorem trimPadding_append {front back : List UInt8} :
    trimPadding (front ++ back) = front ↔ front.getLast? ≠ some 0 ∧ ∀ byte ∈ back, byte = 0 := by
  constructor
  · intro trimmed
    have last := getLast?_trimPadding (front ++ back)
    obtain ⟨nuls, whole⟩ := exists_trimPadding_append (front ++ back)
    rw [trimmed] at last whole
    rw [List.append_cancel_left whole]
    exact ⟨last, fun byte => List.eq_of_mem_replicate⟩
  · intro filled
    obtain ⟨last, nuls⟩ := filled
    rw [List.eq_replicate_of_mem nuls, trimPadding_append_replicate, trimPadding_eq_self last]

theorem decodePadded_padded (bytes : List UInt8) : decodePadded (padded bytes) = decodePadded bytes := by
  rw [decodePadded, padded, trimPadding_append_replicate, decodePadded]

end AmosBasic.Latin1
