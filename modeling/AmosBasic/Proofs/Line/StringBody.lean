import AmosBasic.Proofs.Line.Acceptance
import AmosBasic.Proofs.Text.Latin1

namespace AmosBasic

def Opcode.strings : List UInt16 :=
  [variableName, label, procedureCall, labelReference, doubleQuoted, singleQuoted, rem, remQuote]

theorem Opcode.cases_of_mem_strings {opcode : UInt16} (listed : opcode ∈ strings) :
    (∃ use : NameUse, opcode = use.opcode) ∨ (∃ mark : QuoteMark, opcode = mark.opcode) ∨
      ∃ mark : RemarkMark, opcode = mark.opcode := by
  simp only [strings, List.mem_cons, List.not_mem_nil, or_false] at listed
  rcases listed with rfl | rfl | rfl | rfl | rfl | rfl | rfl | rfl
  · exact .inl ⟨.variableName, rfl⟩
  · exact .inl ⟨.label, rfl⟩
  · exact .inl ⟨.procedureCall, rfl⟩
  · exact .inl ⟨.labelReference, rfl⟩
  · exact .inr (.inl ⟨.double, rfl⟩)
  · exact .inr (.inl ⟨.single, rfl⟩)
  · exact .inr (.inr ⟨.rem, rfl⟩)
  · exact .inr (.inr ⟨.quote, rfl⟩)

/-- The record declares a string of `length` bytes and holds it in `body`. Its text goes between `lead` and `suffix`. -/
inductive StoredString : (record : StoredRecord) → (length : Nat) → (body : List UInt8) → (lead suffix : String) → Prop
  | name (use : NameUse) (first second length flags : UInt8) (body : List UInt8) :
      StoredString ⟨use.opcode, first :: second :: length :: flags :: body⟩ length.toNat body "" (use.suffix flags)
  | quoted (mark : QuoteMark) (length : UInt16) (body : List UInt8) :
      StoredString ⟨mark.opcode, bigEndianBytes 2 length.toNat ++ body⟩ length.toNat body mark.text mark.text
  | remark (mark : RemarkMark) (skipped length : UInt8) (body : List UInt8) :
      StoredString ⟨mark.opcode, skipped :: length :: body⟩ length.toNat body mark.text ""

section

variable {record : StoredRecord} {length : Nat} {body : List UInt8} {lead suffix : String}

theorem exists_storedString (wellFormed : record.WellFormed) (listed : record.opcode ∈ Opcode.strings) :
    ∃ length body lead suffix, StoredString record length body lead suffix := by
  obtain ⟨opcode, payload⟩ := record
  rw [StoredRecord.WellFormed, StoredRecord.payloadWords_eq] at wellFormed
  rcases Opcode.cases_of_mem_strings listed with ⟨use, rfl⟩ | ⟨mark, rfl⟩ | ⟨mark, rfl⟩
  · simp only [Shape.ofOpcode_name, Shape.payloadWords] at wellFormed
    rcases payload with _ | ⟨first, _ | ⟨second, _ | ⟨length, _ | ⟨flags, body⟩⟩⟩⟩ <;>
      simp only [List.length_cons, List.length_nil] at wellFormed
    iterate 4 omega
    exact ⟨_, _, _, _, .name use first second length flags body⟩
  · simp only [Shape.ofOpcode_quoted, Shape.payloadWords] at wellFormed
    obtain ⟨length, body, fits, rfl⟩ := exists_eq_bigEndianBytes_append (by omega : 2 ≤ payload.length)
    have stored := StoredString.quoted mark (UInt16.ofNat length) body
    rw [UInt16.toNat_ofNat_of_lt' fits] at stored
    exact ⟨_, _, _, _, stored⟩
  · simp only [Shape.ofOpcode_remark, Shape.payloadWords] at wellFormed
    rcases payload with _ | ⟨skipped, _ | ⟨length, body⟩⟩ <;>
      simp only [List.length_cons, List.length_nil] at wellFormed
    iterate 2 omega
    exact ⟨_, _, _, _, .remark mark skipped length body⟩

theorem StoredString.length_body (stored : StoredString record length body lead suffix)
    (wellFormed : record.WellFormed) : body.length = wordAligned length := by
  rw [StoredRecord.WellFormed, StoredRecord.payloadWords_eq] at wellFormed
  rw [StoredRecord.wordAligned_eq]
  cases stored with
  | name use first second length flags body =>
    simp only [Shape.ofOpcode_name, Shape.payloadWords, List.length_cons, List.getD_cons_succ, List.getD_cons_zero]
      at wellFormed
    omega
  | quoted mark length body =>
    simp only [Shape.ofOpcode_quoted, Shape.payloadWords, List.length_append, length_bigEndianBytes,
      List.take_left' (length_bigEndianBytes 2 length.toNat), bigEndian_bigEndianBytes_uint16] at wellFormed
    omega
  | remark mark skipped length body =>
    simp only [Shape.ofOpcode_remark, Shape.payloadWords, List.length_cons, List.getD_cons_succ, List.getD_cons_zero]
      at wellFormed
    omega

theorem StoredString.text_token (stored : StoredString record length body lead suffix) (options : DecodeOptions) :
    record.token.text options = lead ++ Latin1.decodePadded body ++ suffix := by
  cases stored with
  | name use first second length flags body =>
    simp only [StoredRecord.token, Shape.ofOpcode_name, Shape.token, Token.text, List.getD_cons_succ,
      List.getD_cons_zero, List.drop_succ_cons, List.drop_zero, String.empty_append]
  | quoted mark length body =>
    simp only [StoredRecord.token, Shape.ofOpcode_quoted, Shape.token, Token.text,
      List.drop_left' (length_bigEndianBytes 2 length.toNat)]
  | remark mark skipped length body =>
    simp only [StoredRecord.token, Shape.ofOpcode_remark, Shape.token, Token.text, List.drop_succ_cons,
      List.drop_zero, String.append_empty]

end

structure ShownString (length : Nat) (body : List UInt8) (lead suffix text : String) : Prop where
  trimmed : ∃ shown nuls, body = shown ++ List.replicate nuls 0 ∧ shown.getLast? ≠ some 0 ∧
    text = lead ++ Latin1.decode shown ++ suffix
  declared : text = lead ++ Latin1.decode (body.take length) ++ suffix ↔
    (body.take length).getLast? ≠ some 0 ∧ ∀ byte ∈ body.drop length, byte = 0

theorem shownString (length : Nat) (body : List UInt8) (lead suffix : String) :
    ShownString length body lead suffix (lead ++ Latin1.decodePadded body ++ suffix) where
  trimmed := by
    obtain ⟨nuls, whole⟩ := Latin1.exists_trimPadding_append body
    exact ⟨_, nuls, whole, Latin1.getLast?_trimPadding body, rfl⟩
  declared := by
    rw [String.append_left_inj, String.append_right_inj, Latin1.decodePadded, Latin1.decode_injective.eq_iff,
      ← Latin1.trimPadding_append, List.take_append_drop]

variable {σ : Type}

/-- Every stored line is read, and each of its strings is shown without the NULs at the end of its body. -/
theorem reading_shows_strings (sink : Sink σ) (options : DecodeOptions) (machine : Machine σ) (declared indent : UInt8)
    (records : List StoredRecord) (rest : List UInt8) (shape : StoredLine declared records)
    (unread : machine.unread = StoredLine.bytes declared indent records ++ rest) :
    ∃ line final, (Line.reading options).run sink machine = (.ok line, final) ∧
      line.text = Line.indentation indent ++ String.join (records.map fun record => record.token.text options) ∧
      ∀ record ∈ records, record.opcode ∈ Opcode.strings →
        ∃ length body lead suffix, StoredString record length body lead suffix ∧ body.length = wordAligned length ∧
          ShownString length body lead suffix (record.token.text options) := by
  obtain ⟨line, final, success, read, -⟩ := read_stored_line sink options shape unread
  refine ⟨line, final, success, read.text, fun record member listed => ?_⟩
  have wellFormed := shape.wellFormed record member
  obtain ⟨length, body, lead, suffix, stored⟩ := exists_storedString wellFormed listed
  refine ⟨length, body, lead, suffix, stored, stored.length_body wellFormed, ?_⟩
  rw [stored.text_token options]
  exact shownString length body lead suffix

theorem reading_shows_quoted_letters :
    let records : List StoredRecord := [⟨Opcode.doubleQuoted, [0, 1, 0x41, 0x42]⟩, ⟨Opcode.lineEnd, []⟩]
    ∃ line final, (Line.reading {}).run Sink.discard
        { cursor := .ofBytes (StoredLine.bytes 5 1 records ++ []), receiver := () } = (.ok line, final) ∧
      line.text = Line.indentation 1 ++ String.join (records.map fun record => record.token.text {}) ∧
      ∀ record ∈ records, record.opcode ∈ Opcode.strings →
        ∃ length body lead suffix, StoredString record length body lead suffix ∧ body.length = wordAligned length ∧
          ShownString length body lead suffix (record.token.text {}) :=
  reading_shows_strings Sink.discard {} _ 5 1 _ [] (by decide) rfl

/-- The byte behind a declared `A` is shown unless it is NUL, and a declared NUL behind it is not. -/
theorem reading_forgets_declared_lengths :
    let quoted (length filling : UInt8) : List StoredRecord :=
      [⟨Opcode.doubleQuoted, [0, length, 0x41, filling]⟩, ⟨Opcode.lineEnd, []⟩]
    let machine (records : List StoredRecord) : Machine Unit :=
      { cursor := .ofBytes (StoredLine.bytes 5 1 records), receiver := () }
    let reads (records : List StoredRecord) (text : String) : Prop :=
      ∃ line final, (Line.reading {}).run Sink.discard (machine records) = (.ok line, final) ∧ line.text = text
    reads (quoted 1 0) "\"A\"" ∧ reads (quoted 1 0x42) "\"AB\"" ∧ reads (quoted 2 0) "\"A\"" := by
  intro quoted machine reads
  have shown (records : List StoredRecord) (shape : StoredLine 5 records) :
      reads records (Line.indentation 1 ++ String.join (records.map fun record => record.token.text {})) := by
    have unread : (machine records).unread = StoredLine.bytes 5 1 records ++ [] := (List.append_nil _).symm
    obtain ⟨line, final, success, read, -⟩ := read_stored_line Sink.discard {} shape unread
    exact ⟨line, final, success, read.text⟩
  exact ⟨shown (quoted 1 0) (by decide), shown (quoted 1 0x42) (by decide), shown (quoted 2 0) (by decide)⟩

end AmosBasic
