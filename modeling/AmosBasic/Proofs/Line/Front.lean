import AmosBasic.Proofs.Line.Record

namespace AmosBasic

namespace Shape

theorem payloadWords_of_take {shape : Shape} {payload other : List UInt8}
    (same : other.take (2 * shape.payloadWords payload) = payload.take (2 * shape.payloadWords payload)) :
    shape.payloadWords other = shape.payloadWords payload := by
  have front : ∀ count, count ≤ 2 * shape.payloadWords payload → other.take count = payload.take count := by
    intro count within
    have shorter := congrArg (List.take count) same
    rwa [List.take_take, List.take_take, Nat.min_eq_left within] at shorter
  have byte : ∀ index, index < 2 * shape.payloadWords payload → other.getD index 0 = payload.getD index 0 := by
    intro index within
    have here : other[index]? = payload[index]? := by
      rw [← List.getElem?_take_of_lt (Nat.lt_succ_self index), front (index + 1) within,
        List.getElem?_take_of_lt (Nat.lt_succ_self index)]
    rw [List.getD_eq_getElem?_getD, here, List.getD_eq_getElem?_getD]
  cases shape with
  | plain | control | integer | float | extension => rfl
  | name use =>
    simp only [payloadWords] at byte ⊢
    rw [byte 2 (by omega)]
  | quoted mark =>
    simp only [payloadWords] at front ⊢
    rw [front 2 (by omega)]
  | remark mark =>
    simp only [payloadWords] at byte ⊢
    rw [byte 1 (by omega)]

theorem exists_payloadWords_le (shape : Shape) : ∃ most, ∀ payload, shape.payloadWords payload ≤ most := by
  have counted : ∀ byte : UInt8, StoredRecord.wordsFor byte.toNat ≤ 128 := by
    intro byte
    have small := byte.toNat_lt
    unfold StoredRecord.wordsFor
    omega
  cases shape with
  | plain => exact ⟨0, fun _ => Nat.le_refl _⟩
  | control words => exact ⟨words, fun _ => Nat.le_refl _⟩
  | integer | float | extension => exact ⟨2, fun _ => Nat.le_refl _⟩
  | name use => exact ⟨2 + 128, fun payload => Nat.add_le_add_left (counted _) 2⟩
  | remark mark => exact ⟨1 + 128, fun payload => Nat.add_le_add_left (counted _) 1⟩
  | quoted mark =>
    refine ⟨1 + 2 ^ 15, fun payload => Nat.add_le_add_left ?_ 1⟩
    have small : bigEndian (payload.take 2) < 256 ^ 2 :=
      Nat.lt_of_lt_of_le (bigEndian_lt _) (Nat.pow_le_pow_right (by decide) (List.length_take_le 2 payload))
    unfold StoredRecord.wordsFor
    omega

theorem exists_payload (shape : Shape) (bytes : List UInt8) :
    ∃ payload, payload.length = 2 * shape.payloadWords payload ∧ (payload <+: bytes ∨ bytes <+: payload) := by
  obtain ⟨most, bounded⟩ := shape.exists_payloadWords_le
  -- Behind enough padding the length no longer depends on what is missing.
  let padded := bytes ++ List.replicate (2 * most) 0
  let size := 2 * shape.payloadWords padded
  have enough : size ≤ padded.length := by
    have most := bounded padded
    simp only [padded, List.length_append, List.length_replicate]
    omega
  have words : shape.payloadWords (padded.take size) = shape.payloadWords padded :=
    payloadWords_of_take (List.take_take.trans (by rw [Nat.min_self]))
  refine ⟨padded.take size, ?_, ?_⟩
  · rw [List.length_take_of_le enough, words]
  · exact List.prefix_or_prefix_of_prefix (List.take_prefix size padded) (List.prefix_append bytes _)

end Shape

namespace StoredRecord

theorem exists_comparable (bytes : List UInt8) :
    ∃ record : StoredRecord, record.WellFormed ∧ (record.bytes <+: bytes ∨ bytes <+: record.bytes) := by
  -- The opcode word, filled up when it is not there.
  let padded := bytes ++ [0, 0]
  have two : (padded.take 2).length = 2 := List.length_take_of_le (by simp [padded])
  have fits := bigEndian_lt (padded.take 2)
  have same := bigEndianBytes_bigEndian (padded.take 2)
  rw [two] at fits same
  let opcode := UInt16.ofNat (bigEndian (padded.take 2))
  have word : bigEndianBytes 2 opcode.toNat = padded.take 2 := by
    rw [UInt16.toNat_ofNat_of_lt' fits, same]
  obtain ⟨payload, filled, comparable⟩ := (Shape.ofOpcode opcode).exists_payload (padded.drop 2)
  have wellFormed : WellFormed ⟨opcode, payload⟩ := by
    rw [WellFormed, payloadWords_eq]
    exact filled
  have whole : padded = bigEndianBytes 2 opcode.toNat ++ padded.drop 2 := by rw [word, List.take_append_drop]
  have front : bytes <+: padded := List.prefix_append bytes _
  refine ⟨_, wellFormed, ?_⟩
  rcases comparable with within | beyond
  · have record : StoredRecord.bytes ⟨opcode, payload⟩ <+: padded := by
      rw [whole]
      exact (List.prefix_append_right_inj _).mpr within
    exact List.prefix_or_prefix_of_prefix record front
  · have record : padded <+: StoredRecord.bytes ⟨opcode, payload⟩ := by
      rw [whole]
      exact (List.prefix_append_right_inj _).mpr beyond
    exact .inr (front.trans record)

def Partial (bytes : List UInt8) : Prop :=
  ∃ record : StoredRecord, record.WellFormed ∧ bytes <+: record.bytes ∧ bytes.length < record.bytes.length

theorem front_or_partial (bytes : List UInt8) :
    (∃ (record : StoredRecord) (rest : List UInt8), record.WellFormed ∧ bytes = record.bytes ++ rest) ∨
      Partial bytes := by
  obtain ⟨record, wellFormed, ⟨rest, rfl⟩ | begins⟩ := exists_comparable bytes
  · exact .inl ⟨record, rest, wellFormed, rfl⟩
  · by_cases less : bytes.length < record.bytes.length
    · exact .inr ⟨record, wellFormed, begins, less⟩
    · have same := begins.eq_of_length_le (Nat.not_lt.mp less)
      exact .inl ⟨record, [], wellFormed, by rw [same, List.append_nil]⟩

end StoredRecord

/-- Bytes begin with records that cover the words, or break off within a record that begins while words are left. -/
theorem records_front (left : Nat) (bytes : List UInt8) :
    (∃ (records : List StoredRecord) (rest : List UInt8), (∀ record ∈ records, record.WellFormed) ∧
      Covers left records ∧ bytes = records.flatMap StoredRecord.bytes ++ rest) ∨
    ∃ (records : List StoredRecord) (part : List UInt8), (∀ record ∈ records, record.WellFormed) ∧
      (records.map StoredRecord.words).sum < left ∧ StoredRecord.Partial part ∧
      bytes = records.flatMap StoredRecord.bytes ++ part := by
  induction left using Nat.strongRecOn generalizing bytes with
  | ind left ih =>
    by_cases none : left = 0
    · exact .inl ⟨[], bytes, by simp, none, rfl⟩
    · rcases StoredRecord.front_or_partial bytes with ⟨record, rest, wellFormed, rfl⟩ | within
      · have smaller : left - record.words < left := by
          unfold StoredRecord.words
          omega
        rcases ih _ smaller rest with
          ⟨records, rest, others, covers, rfl⟩ | ⟨records, part, others, begins, within, rfl⟩
        · refine .inl ⟨record :: records, rest, List.forall_mem_cons.mpr ⟨wellFormed, others⟩, ⟨none, covers⟩, ?_⟩
          rw [List.flatMap_cons, List.append_assoc]
        · refine .inr ⟨record :: records, part, List.forall_mem_cons.mpr ⟨wellFormed, others⟩, ?_, within, ?_⟩
          · rw [List.map_cons, List.sum_cons]
            omega
          · rw [List.flatMap_cons, List.append_assoc]
      · exact .inr ⟨[], bytes, by simp, Nat.pos_of_ne_zero none, within, rfl⟩

end AmosBasic
