import AmosBasic.Line
import AmosBasic.Proofs.Bytes

namespace AmosBasic

structure StoredRecord where
  opcode : UInt16
  payload : List UInt8
  deriving DecidableEq

namespace StoredRecord

def bytes (record : StoredRecord) : List UInt8 :=
  bigEndianBytes 2 record.opcode.toNat ++ record.payload

def wordsFor (length : Nat) : Nat :=
  (length + 1) / 2

theorem wordAligned_eq (length : Nat) : wordAligned length = 2 * wordsFor length := by
  unfold wordAligned wordsFor
  omega

/-- The payload words that the opcode calls for. Names, strings and remarks say in their payload how
long they are. -/
def payloadWords (record : StoredRecord) : Nat :=
  if record.opcode ∈ [Opcode.variableName, Opcode.label, Opcode.procedureCall, Opcode.labelReference] then
    2 + wordsFor (record.payload.getD 2 0).toNat
  else if record.opcode ∈ [Opcode.doubleQuoted, Opcode.singleQuoted] then
    1 + wordsFor (bigEndian (record.payload.take 2))
  else if record.opcode ∈ [Opcode.rem, Opcode.remQuote] then
    1 + wordsFor (record.payload.getD 1 0).toNat
  else if record.opcode ∈
      [Opcode.binary, Opcode.hexadecimal, Opcode.decimal, Opcode.float, Opcode.extension] then 2
  else (controlKeyword? record.opcode).elim 0 Prod.snd

def words (record : StoredRecord) : Nat :=
  1 + record.payloadWords

def WellFormed (record : StoredRecord) : Prop :=
  record.payload.length = 2 * record.payloadWords

instance (record : StoredRecord) : Decidable record.WellFormed :=
  inferInstanceAs (Decidable (_ = _))

theorem WellFormed.length_bytes {record : StoredRecord} (wellFormed : record.WellFormed) :
    record.bytes.length = 2 * record.words := by
  unfold WellFormed at wellFormed
  simp only [bytes, words, List.length_append, length_bigEndianBytes]
  omega

theorem words_lineEnd {record : StoredRecord} (ends : record.opcode = Opcode.lineEnd) : record.words = 1 := by
  unfold words payloadWords
  rw [ends]
  rfl

end StoredRecord

/-- The records fill a line of `declared` words behind its first word, and the last one ends it. -/
structure StoredLine (declared : UInt8) (records : List StoredRecord) : Prop where
  wellFormed : ∀ record ∈ records, record.WellFormed
  fills : 1 + (records.map StoredRecord.words).sum = declared.toNat
  ends : ∀ last ∈ records.getLast?, last.opcode = Opcode.lineEnd

instance (declared : UInt8) (records : List StoredRecord) : Decidable (StoredLine declared records) :=
  decidable_of_iff
    ((∀ record ∈ records, record.WellFormed) ∧ 1 + (records.map StoredRecord.words).sum = declared.toNat ∧
      ∀ last ∈ records.getLast?, last.opcode = Opcode.lineEnd)
    ⟨fun ⟨wellFormed, fills, ends⟩ => ⟨wellFormed, fills, ends⟩,
      fun line => ⟨line.wellFormed, line.fills, line.ends⟩⟩

def StoredLine.bytes (declared indent : UInt8) (records : List StoredRecord) : List UInt8 :=
  declared :: indent :: records.flatMap StoredRecord.bytes

theorem length_flatMap_bytes {records : List StoredRecord} (wellFormed : ∀ record ∈ records, record.WellFormed) :
    (records.flatMap StoredRecord.bytes).length = 2 * (records.map StoredRecord.words).sum := by
  induction records with
  | nil => rfl
  | cons record records ih =>
    have first := (wellFormed record List.mem_cons_self).length_bytes
    have rest := ih fun other member => wellFormed other (List.mem_cons_of_mem _ member)
    simp only [List.flatMap_cons, List.length_append, List.map_cons, List.sum_cons, first, rest]
    omega

theorem StoredLine.length_bytes {declared : UInt8} {records : List StoredRecord}
    (line : StoredLine declared records) (indent : UInt8) :
    (StoredLine.bytes declared indent records).length = 2 * declared.toNat := by
  have fills := line.fills
  simp only [StoredLine.bytes, List.length_cons, length_flatMap_bytes line.wellFormed]
  omega

def Covers : Nat → List StoredRecord → Prop
  | left, [] => left = 0
  | left, record :: records => left ≠ 0 ∧ Covers (left - record.words) records

/-- Only a last record can reach past the words that are left, and the end of the line does not. -/
theorem sum_words_of_covers {left : Nat} {records : List StoredRecord} (covers : Covers left records)
    (ends : ∀ last ∈ records.getLast?, last.opcode = Opcode.lineEnd) :
    (records.map StoredRecord.words).sum = left := by
  induction records generalizing left with
  | nil => exact covers.symm
  | cons record records ih =>
    obtain ⟨positive, rest⟩ := covers
    cases records with
    | nil =>
      have single := StoredRecord.words_lineEnd (ends record rfl)
      have none : left - record.words = 0 := rest
      simp only [List.map_cons, List.map_nil, List.sum_cons, List.sum_nil]
      omega
    | cons next records =>
      have sum := ih rest (by simpa using ends)
      have positive : left - record.words ≠ 0 := rest.1
      rw [List.map_cons, List.sum_cons, sum]
      omega

theorem covers_append_singleton {left : Nat} {records : List StoredRecord} {last : StoredRecord} :
    Covers left (records ++ [last]) ↔
      (records.map StoredRecord.words).sum < left ∧ left ≤ (records.map StoredRecord.words).sum + last.words := by
  induction records generalizing left with
  | nil =>
    simp only [List.nil_append, Covers, List.map_nil, List.sum_nil]
    omega
  | cons record records ih =>
    simp only [List.cons_append, Covers, ih, List.map_cons, List.sum_cons]
    omega

theorem covers_sum_words (records : List StoredRecord) :
    Covers (records.map StoredRecord.words).sum records := by
  induction records with
  | nil => rfl
  | cons record records ih =>
    refine ⟨?_, ?_⟩
    · simp [StoredRecord.words]
    · simpa using ih

theorem exists_covers {left : Nat} {records : List StoredRecord} (begins : (records.map StoredRecord.words).sum < left)
    (record : StoredRecord) :
    ∃ fill : List StoredRecord, (∀ other ∈ fill, other.WellFormed) ∧ Covers left (records ++ record :: fill) := by
  induction records generalizing left with
  | nil =>
    let fill := List.replicate (left - record.words) (⟨Opcode.lineEnd, []⟩ : StoredRecord)
    have single : StoredRecord.words ⟨Opcode.lineEnd, []⟩ = 1 := StoredRecord.words_lineEnd rfl
    have words : (fill.map StoredRecord.words).sum = left - record.words := by
      rw [List.map_replicate, List.sum_replicate_nat, single, Nat.mul_one]
    refine ⟨fill, fun other member => ?_, Nat.ne_of_gt begins, words ▸ covers_sum_words fill⟩
    obtain rfl := List.eq_of_mem_replicate member
    rfl
  | cons first records ih =>
    rw [List.map_cons, List.sum_cons] at begins
    obtain ⟨fill, wellFormed, covers⟩ := ih (show _ < left - first.words by omega)
    exact ⟨fill, wellFormed, by omega, covers⟩

end AmosBasic
