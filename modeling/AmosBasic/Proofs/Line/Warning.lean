import Mathlib.Data.List.Basic
import AmosBasic.Proofs.Line.Acceptance
import AmosBasic.Proofs.Line.Front
import AmosBasic.Proofs.Reading.Cut
import AmosBasic.Proofs.Reading.Noting

namespace AmosBasic

open Reading

def Token.isListed : Token → Bool
  | extension module _ command => (extensionCommand? module command).isSome
  | token => Opcode.Listed token.opcode

namespace Record

def warning (record : Record) : Note :=
  match record.token with
  | .extension module _ command => .unknownCommand module command record.offset
  | token => .unknownOpcode token.opcode record.offset

def notes (options : DecodeOptions) (record : Record) : List Note :=
  (if record.token.isListed then [] else [record.warning]) ++
    [.record record.offset record.opcode record.token.payloadWords (record.token.text options)]

end Record

namespace Line

/-- The records at the front of the bytes that are there in full. Each begins while words are left, and behind them no
words are left, or the bytes break off within a record. -/
inductive InFull : Nat → List UInt8 → List StoredRecord → Prop
  | covered {bytes : List UInt8} : InFull 0 bytes []
  | broken {left : Nat} {part : List UInt8} (within : StoredRecord.Partial part) : InFull (left + 1) part []
  | record {left : Nat} {record : StoredRecord} {rest : List UInt8} {records : List StoredRecord}
      (wellFormed : record.WellFormed) (others : InFull (left + 1 - record.words) rest records) :
      InFull (left + 1) (record.bytes ++ rest) (record :: records)

inductive ReadInFull : List UInt8 → List StoredRecord → Prop
  | word {bytes : List UInt8} (short : bytes.length < 2) : ReadInFull bytes []
  | records {declared indent : UInt8} {behind : List UInt8} {records : List StoredRecord}
      (front : InFull (declared.toNat - 1) behind records) : ReadInFull (declared :: indent :: behind) records

end Line

namespace StoredRecord

theorem eq_of_prefix {first second : StoredRecord} (whole : first.WellFormed) (other : second.WellFormed)
    (front : first.bytes <+: second.bytes) : first = second := by
  obtain ⟨opcode, payload⟩ := first
  obtain ⟨code, content⟩ := second
  obtain ⟨rest, same⟩ := front
  simp only [bytes, List.append_assoc] at same
  obtain ⟨word, longer⟩ := List.append_inj same (by rw [length_bigEndianBytes, length_bigEndianBytes])
  obtain rfl : opcode = code := by
    have number := congrArg bigEndian word
    rw [bigEndian_bigEndianBytes_of_lt opcode.toNat_lt, bigEndian_bigEndianBytes_of_lt code.toNat_lt] at number
    exact UInt16.toNat_inj.mp number
  obtain rfl : payload ++ rest = content := longer
  rw [WellFormed, payloadWords_eq] at whole other
  dsimp only at whole other
  have words : (Shape.ofOpcode opcode).payloadWords (payload ++ rest) =
      (Shape.ofOpcode opcode).payloadWords payload := by
    apply Shape.payloadWords_of_take
    rw [← whole, List.take_left, List.take_length]
  rw [words, ← whole, List.length_append] at other
  obtain rfl : rest = [] := List.length_eq_zero_iff.mp (by omega)
  rw [List.append_nil]

theorem not_partial {record : StoredRecord} (whole : record.WellFormed) (rest : List UInt8) :
    ¬ Partial (record.bytes ++ rest) := by
  rintro ⟨other, wellFormed, front, less⟩
  obtain rfl := eq_of_prefix whole wellFormed ((List.prefix_append _ _).trans front)
  rw [List.length_append] at less
  omega

end StoredRecord

namespace Line

theorem InFull.unique {left : Nat} {bytes : List UInt8} {first second : List StoredRecord}
    (one : InFull left bytes first) (other : InFull left bytes second) : first = second := by
  induction one generalizing second with
  | covered => cases other; rfl
  | broken within =>
    cases other with
    | broken => rfl
    | record wellFormed => exact absurd within (StoredRecord.not_partial wellFormed _)
  | @record left record rest records wellFormed _ ih =>
    generalize bytes : record.bytes ++ rest = whole at other
    cases other with
    | broken within => exact absurd (bytes ▸ within) (StoredRecord.not_partial wellFormed _)
    | @record _ next behind later also others =>
      -- both records stand at the front of the same bytes, so one of them is the front of the other
      have same : record = next := by
        rcases List.prefix_or_prefix_of_prefix (bytes ▸ List.prefix_append _ rest) (List.prefix_append _ behind) with
          front | front
        · exact StoredRecord.eq_of_prefix wellFormed also front
        · exact (StoredRecord.eq_of_prefix also wellFormed front).symm
      subst same
      obtain rfl := List.append_cancel_left bytes
      rw [ih others]

theorem ReadInFull.unique {bytes : List UInt8} {first second : List StoredRecord}
    (one : ReadInFull bytes first) (other : ReadInFull bytes second) : first = second := by
  cases one with
  | word short =>
    cases other with
    | word => rfl
    | records => simp only [List.length_cons] at short; omega
  | records front =>
    cases other with
    | word short => simp only [List.length_cons] at short; omega
    | records other => exact front.unique other

theorem exists_inFull (left : Nat) (bytes : List UInt8) : ∃ records, InFull left bytes records := by
  induction left using Nat.strongRecOn generalizing bytes with
  | ind left ih =>
    cases left with
    | zero => exact ⟨[], .covered⟩
    | succ left =>
      rcases StoredRecord.front_or_partial bytes with ⟨record, rest, wellFormed, rfl⟩ | within
      · obtain ⟨records, others⟩ := ih (left + 1 - record.words) (by unfold StoredRecord.words; omega) rest
        exact ⟨record :: records, .record wellFormed others⟩
      · exact ⟨[], .broken within⟩

theorem exists_readInFull (bytes : List UInt8) : ∃ records, ReadInFull bytes records := by
  rcases bytes with _ | ⟨declared, _ | ⟨indent, behind⟩⟩
  · exact ⟨[], .word (by decide)⟩
  · exact ⟨[], .word (Nat.lt_succ_self 1)⟩
  · obtain ⟨records, front⟩ := exists_inFull (declared.toNat - 1) behind
    exact ⟨records, .records front⟩

theorem inFull_of_covers {left : Nat} {records : List StoredRecord} (wellFormed : ∀ record ∈ records, record.WellFormed)
    (covers : Covers left records) (rest : List UInt8) :
    InFull left (records.flatMap StoredRecord.bytes ++ rest) records := by
  induction records generalizing left with
  | nil =>
    obtain rfl : left = 0 := covers
    exact .covered
  | cons record records ih =>
    obtain ⟨first, others⟩ := List.forall_mem_cons.mp wellFormed
    obtain ⟨positive, covers⟩ := covers
    obtain ⟨left, rfl⟩ := Nat.exists_eq_succ_of_ne_zero positive
    rw [List.flatMap_cons, List.append_assoc]
    exact .record first (ih others covers)

end Line

theorem StoredLine.readInFull {declared : UInt8} {records : List StoredRecord} (line : StoredLine declared records)
    (indent : UInt8) (rest : List UInt8) :
    Line.ReadInFull (StoredLine.bytes declared indent records ++ rest) records := by
  have fills := line.fills
  have covers : Covers (declared.toNat - 1) records := by
    rw [show declared.toNat - 1 = (records.map StoredRecord.words).sum by omega]
    exact covers_sum_words records
  exact .records (Line.inFull_of_covers line.wellFormed covers rest)

theorem placeBefore_add (start count : Nat) : placeBefore (start + count) count = start := by
  rw [placeBefore, if_pos (Nat.le_add_left count start), Nat.add_sub_cancel]

namespace StoredRecord

theorem token_cases (stored : StoredRecord) :
    (Shape.ofOpcode stored.opcode = .plain ∧ stored.token = .plain stored.opcode ∧ stored.words = 1) ∨
    (∃ module skipped command, stored.token = .extension module skipped command ∧ stored.words = 3) ∨
    (stored.token.isListed = true ∧ ∀ behind, stored.token.warning? behind = none) := by
  have known := stored.opcode_token
  simp only [words, payloadWords_eq]
  unfold token at known ⊢
  cases shape : Shape.ofOpcode stored.opcode with
  | plain => exact .inl ⟨rfl, rfl, rfl⟩
  | extension => exact .inr (.inl ⟨_, _, _, rfl, rfl⟩)
  | control | name | quoted | integer | float | remark =>
    have listed : Opcode.Listed stored.opcode := Shape.listed_of_not_plain (by rw [shape]; rintro ⟨⟩)
    rw [shape] at known
    rw [← known] at listed
    exact .inr (.inr ⟨decide_eq_true listed, fun _ => rfl⟩)

theorem lookback_eq {stored : StoredRecord} (unlisted : stored.token.isListed = false) :
    stored.token.lookback = 2 * stored.words := by
  rcases stored.token_cases with ⟨-, token, words⟩ | ⟨_, _, _, token, words⟩ | ⟨listed, -⟩
  · rw [token, words]
    rfl
  · rw [token, words]
    rfl
  · rw [listed] at unlisted
    cases unlisted

theorem warning?_eq (stored : StoredRecord) (start : Nat) :
    stored.token.warning? (start + 2 * stored.words) =
      if stored.token.isListed then none else some (Record.warning ⟨start, stored.token⟩) := by
  rcases stored.token_cases with ⟨plain, token, words⟩ | ⟨module, skipped, command, token, words⟩ | ⟨listed, none⟩
  · have known : (Token.plain stored.opcode).isListed = true ↔
        ¬ (stored.opcode ≠ Opcode.lineEnd ∧ keyword? stored.opcode = none) := by
      refine (decide_eq_true_iff.trans (Shape.listed_of_plain plain)).trans ?_
      rw [not_and_or, not_not, ← ne_eq, Option.ne_none_iff_isSome]
    have warned : (Token.plain stored.opcode).warning? (start + 2 * 1) =
        if stored.opcode ≠ Opcode.lineEnd ∧ keyword? stored.opcode = none then
          some (.unknownOpcode stored.opcode (placeBefore (start + 2) 2)) else none := rfl
    simp only [token, words, warned, placeBefore_add, known, ite_not]
    rfl
  · have known : (Token.extension module skipped command).isListed = true ↔
        ¬ extensionCommand? module command = none := by
      rw [← ne_eq, Option.ne_none_iff_isSome]
      rfl
    have warned : (Token.extension module skipped command).warning? (start + 2 * 3) =
        if extensionCommand? module command = none then
          some (.unknownCommand module command (placeBefore (start + 6) 6)) else none := rfl
    simp only [token, words, warned, placeBefore_add, known, ite_not]
    rfl
  · rw [none, listed, if_pos rfl]

end StoredRecord

theorem passes_record {options : DecodeOptions} {start stop : Place} {bytes : List UInt8} {handed : List Delivery}
    {record : Record} :
    Passes (Record.reading options) start bytes handed stop record ↔
      ∃ stored : StoredRecord, bytes = stored.bytes ∧ stored.WellFormed ∧ handed = [] ∧
        stop = start.behind (2 * stored.words) ∧ record = ⟨start.position, stored.token⟩ := by
  rw [← bind_pure (Record.reading options), passes_record_bind]
  simp only [passes_pure]
  constructor
  · rintro ⟨stored, _, rfl, wellFormed, rfl, rfl, rfl, rfl⟩
    exact ⟨stored, List.append_nil _, wellFormed, rfl, rfl, rfl⟩
  · rintro ⟨stored, rfl, wellFormed, rfl, rfl, rfl⟩
    exact ⟨stored, [], (List.append_nil _).symm, wellFormed, rfl, rfl, rfl, rfl⟩

section

variable {options : DecodeOptions} {bytes rest : List UInt8} {ending : Ending} {place : Place}

/-- A record is noted when all of it has been read, and not before. -/
theorem Record.noted_reading (options : DecodeOptions) (view : View) :
    (∃ record last, (Record.reading options).outcome view = ⟨.ok record, [], last⟩ ∧
      (Record.reading options).noted view = (record.token.warning? last.place.position).toList ++
        [.record record.offset record.opcode record.token.payloadWords (record.token.text options)]) ∨
    ∃ error last, (Record.reading options).outcome view = ⟨.error error, [], last⟩ ∧
      (Record.reading options).noted view = [] := by
  rw [Record.reading_eq]
  change (∃ record last, (word 2 >>= _).outcome view = _ ∧ (word 2 >>= _).noted view = _) ∨
    ∃ error last, (word 2 >>= _).outcome view = _ ∧ (word 2 >>= _).noted view = _
  rw [outcome_word_bind, noted_word_bind]
  by_cases enough : 2 ≤ view.unread.length
  · simp only [if_pos enough]
    generalize UInt16.ofNat (bigEndian (view.unread.take 2)) = opcode
    have confined : ((Shape.ofOpcode opcode).reading opcode).Confined DecodeError.InTurn fun _ => False :=
      Shape.confined_reading opcode _
    have remarks : ((Shape.ofOpcode opcode).reading opcode).Remarks fun _ => False := Shape.remarks_reading opcode _
    have quiet := List.eq_nil_iff_forall_not_mem.mpr (remarks.noted (view.behind 2))
    rcases Outcome.cases_of_silent (confined.silent (view.behind 2)) with ⟨error, last, came⟩ | ⟨token, last, came⟩
    · exact .inr ⟨error, last, outcome_bind_of_error came, (noted_bind_of_error came).trans quiet⟩
    · obtain ⟨payload, -, -, passage⟩ := passes_of_outcome came
      obtain ⟨-, -, -, rfl⟩ := (passes_shape _ _ _ _ _ _ _).mp passage
      refine .inl ⟨⟨view.place.position, (Shape.ofOpcode opcode).token opcode payload⟩, last, ?_, ?_⟩
      · rw [outcome_bind_of_ok came]
        exact outcome_remarks_bind _ _ last
      · rw [noted_bind_of_ok came, quiet, List.nil_append]
        refine (noted_remarks_bind _ _ last).trans ?_
        rw [Record.opcode, Shape.opcode_token]
        rfl
  · simp only [if_neg enough]
    exact .inr ⟨_, _, rfl, trivial⟩

variable {stored : StoredRecord} {records : List StoredRecord}

theorem Record.noted_stored (wellFormed : stored.WellFormed) :
    (Record.reading options).noted ⟨stored.bytes ++ rest, ending, place⟩ =
      Record.notes options ⟨place.position, stored.token⟩ := by
  have passage : Passes (Record.reading options) place _ [] _ _ :=
    passes_record.mpr ⟨stored, rfl, wellFormed, rfl, rfl, rfl⟩
  have success := outcome_of_passes passage rest ending
  rcases Record.noted_reading options ⟨stored.bytes ++ rest, ending, place⟩ with
    ⟨record, last, came, noted⟩ | ⟨error, last, came, -⟩
  · rw [success] at came
    cases came
    rw [noted, Place.behind_position, stored.warning?_eq, notes]
    cases stored.token.isListed <;> rfl
  · cases success.symm.trans came

variable (options) in
theorem StoredRecord.Partial.noted (within : StoredRecord.Partial bytes) :
    (∃ error last, (Record.reading options).outcome ⟨bytes, ending, place⟩ = ⟨.error error, [], last⟩) ∧
      (Record.reading options).noted ⟨bytes, ending, place⟩ = [] := by
  obtain ⟨whole, wellFormed, front, less⟩ := within
  have passage : Passes (Record.reading options) place _ [] _ _ :=
    passes_record.mpr ⟨whole, rfl, wellFormed, rfl, rfl, rfl⟩
  obtain ⟨early, among, fails⟩ := failsAfter_cut passage front less
  obtain rfl := List.prefix_nil.mp among
  obtain ⟨error, last, failure, -⟩ := fails ending
  refine ⟨⟨error, _, failure⟩, ?_⟩
  rcases Record.noted_reading options ⟨bytes, ending, place⟩ with ⟨_, _, came, -⟩ | ⟨_, _, -, noted⟩
  · cases failure.symm.trans came
  · exact noted

namespace Line

theorem noted_recordsReading {left : Nat} (front : InFull left bytes records) (read : List Record) :
    (recordsReading options left read).noted ⟨bytes, ending, place⟩ =
      (StoredRecord.placed place.position records).flatMap (Record.notes options) := by
  induction front generalizing read place with
  | covered =>
    rw [recordsReading]
    rfl
  | broken within =>
    obtain ⟨⟨error, last, failure⟩, none⟩ := within.noted options
    rw [recordsReading, noted_bind_of_error failure, none]
    rfl
  | @record left stored rest records wellFormed _ ih =>
    have passage : Passes (Record.reading options) place _ [] _ _ :=
      passes_record.mpr ⟨stored, rfl, wellFormed, rfl, rfl, rfl⟩
    have less : left - stored.token.payloadWords = left + 1 - stored.words := by
      rw [wellFormed.payloadWords_token, StoredRecord.words, Nat.add_comm 1, Nat.add_sub_add_right]
    rw [recordsReading, noted_bind_of_ok (outcome_of_passes passage rest ending), Record.noted_stored wellFormed,
      less, ih]
    rfl

theorem noted_closing (start : Nat) (declared indent : UInt8) (records : List Record) (view : View) :
    (closing options start declared indent records).noted view = [] := by
  unfold closing
  dsimp only
  split
  · rfl
  · split <;> rfl

theorem noted_reading (full : ReadInFull bytes records) :
    (Line.reading options).noted ⟨bytes, ending, place⟩ =
      (StoredRecord.placed (place.position + 2) records).flatMap (Record.notes options) := by
  cases full with
  | word short =>
    rcases bytes with _ | ⟨declared, _ | ⟨indent, behind⟩⟩
    · rfl
    · rfl
    · simp only [List.length_cons] at short
      omega
  | @records declared indent behind records front =>
    change (byte >>= _).noted _ = _
    rw [noted_byte_bind_of_cons, noted_byte_bind_of_cons]
    split
    -- a line that declares no words has no records either
    · rename_i none
      rw [none] at front
      cases front
      rfl
    · rw [noted_bind_of_quiet _ (noted_closing _ _ _), noted_recordsReading front]
      rfl

end Line

end

def Machine.warnings {σ : Type} (machine : Machine σ) : List Note :=
  machine.notes.toList.filter fun note => note.level = .warn

theorem Record.level_warning (record : Record) : record.warning.level = .warn := by
  unfold warning
  split <;> rfl

theorem filter_flatMap_notes (options : DecodeOptions) (records : List Record) :
    (records.flatMap (Record.notes options)).filter (fun note => note.level = .warn) =
      (records.filter fun record => !record.token.isListed).map Record.warning := by
  induction records with
  | nil => rfl
  | cons record records ih =>
    have traced : (Note.record record.offset record.opcode record.token.payloadWords
      (record.token.text options)).level ≠ .warn := nofun
    rw [List.flatMap_cons, List.filter_append, ih]
    cases listed : record.token.isListed <;> simp [Record.notes, listed, record.level_warning, traced]

theorem StoredRecord.WellFormed.encode_token {stored : StoredRecord} (wellFormed : stored.WellFormed) :
    stored.token.encode = stored.bytes := by
  rw [Token.encode, stored.opcode_token, wellFormed.payload_token, StoredRecord.bytes]

theorem Line.InFull.encode_prefix {left first : Nat} {bytes : List UInt8} {records : List StoredRecord}
    (front : InFull left bytes records) {record : Record} (member : record ∈ StoredRecord.placed first records) :
    first ≤ record.offset ∧ record.token.encode <+: bytes.drop (record.offset - first) := by
  induction front generalizing first with
  | covered | broken => cases member
  | @record left stored rest records wellFormed _ ih =>
    rcases List.mem_cons.mp member with rfl | later
    · refine ⟨Nat.le_refl first, ?_⟩
      rw [Nat.sub_self, List.drop_zero, wellFormed.encode_token]
      exact List.prefix_append _ rest
    · obtain ⟨behind, stands⟩ := ih later
      refine ⟨by omega, ?_⟩
      have skip : record.offset - first = stored.bytes.length + (record.offset - (first + 2 * stored.words)) := by
        rw [wellFormed.length_bytes]
        omega
      rwa [skip, List.drop_append, List.drop_of_length_le (by omega), List.nil_append, Nat.add_sub_cancel_left]

theorem Line.ReadInFull.encode_prefix {start : Nat} {bytes : List UInt8} {records : List StoredRecord}
    (full : ReadInFull bytes records) {record : Record} (member : record ∈ StoredRecord.placed (start + 2) records) :
    start + 2 ≤ record.offset ∧ record.token.encode <+: bytes.drop (record.offset - start) := by
  cases full with
  | word => cases member
  | @records declared indent behind records front =>
    obtain ⟨further, stands⟩ := front.encode_prefix member
    refine ⟨further, ?_⟩
    rw [show record.offset - start = record.offset - (start + 2) + 2 by omega]
    exact stands

variable {σ : Type}

theorem record_run {sink : Sink σ} {options : DecodeOptions} {machine final : Machine σ} {record : Record}
    (success : (Record.reading options).run sink machine = (.ok record, final)) :
    record.offset = machine.cursor.position ∧ final.cursor.position = record.offset + 2 * record.words ∧
      (record.token.isListed = false → record.token.lookback = 2 * record.words) := by
  obtain ⟨_, _, -, passage, -⟩ := passes_of_run success
  obtain ⟨stored, -, wellFormed, -, stop, rfl⟩ := passes_record.mp passage
  have words : Record.words ⟨machine.place.position, stored.token⟩ = stored.words := by
    rw [Record.words, wellFormed.payloadWords_token, StoredRecord.words]
  rw [words]
  exact ⟨rfl, congrArg Place.position stop, fun unlisted => StoredRecord.lookback_eq unlisted⟩

/-- Whether a line is read or not, its records that are there in full are noted one after the other, each behind a
warning if it is in no table. The place in a warning is counted back from the end of the record, never past the start of
the stream. It is the place of the record, where the stream holds its opcode word. -/
theorem warnings_point_at_records (sink : Sink σ) (options : DecodeOptions) (machine : Machine σ) :
    (∀ record final, (Record.reading options).run sink machine = (.ok record, final) →
      record.offset = machine.cursor.position ∧ final.cursor.position = record.offset + 2 * record.words ∧
      (record.token.isListed = false → record.token.lookback ≤ final.cursor.position ∧
        placeBefore final.cursor.position record.token.lookback = record.offset)) ∧
    let start := machine.cursor.position
    let ran := (Line.reading options).run sink machine
    ∃ stored : List StoredRecord, (∀ other, Line.ReadInFull machine.unread other ↔ other = stored) ∧
      let records := StoredRecord.placed (start + 2) stored
      ran.2.warnings = machine.warnings ++ (records.filter fun record => !record.token.isListed).map Record.warning ∧
      (∃ short, ran.2.notes.toList = machine.notes.toList ++ (records.flatMap (Record.notes options) ++ short) ∧
        ∀ note ∈ short, note.IsShortRead) ∧
      (∀ line, ran.1 = .ok line → line.records = records) ∧
      ∀ record ∈ records, start + 2 ≤ record.offset ∧
        record.token.encode <+: machine.unread.drop (record.offset - start) := by
  refine ⟨fun record final success => ?_, ?_⟩
  · obtain ⟨offset, position, lookback⟩ := record_run success
    refine ⟨offset, position, fun unlisted => ?_⟩
    rw [lookback unlisted, position]
    exact ⟨Nat.le_add_left _ _, placeBefore_add _ _⟩
  · intro start ran
    obtain ⟨stored, full⟩ := Line.exists_readInFull machine.unread
    have confined : (Line.reading options).Confined DecodeError.InTurn fun _ => False := Line.confined_reading options
    obtain ⟨short, notes, shortReads⟩ := confined.run_notes sink machine
    have noted : (Line.reading options).noted machine.view = _ := Line.noted_reading full
    rw [noted] at notes
    refine ⟨stored, fun other => ⟨fun also => also.unique full, fun same => same ▸ full⟩, ?_,
      ⟨short, notes, shortReads⟩, fun line read => ?_, fun record member => full.encode_prefix member⟩
    · have unwarned : short.filter (fun note => note.level = .warn) = [] := by
        refine List.filter_eq_nil_iff.mpr fun note member => ?_
        obtain ⟨offset, wanted, got, rfl⟩ := shortReads note member
        exact Bool.false_ne_true
      rw [Machine.warnings, Machine.warnings, notes, List.filter_append, List.filter_append, filter_flatMap_notes,
        unwarned, List.append_nil]
      rfl
    · obtain ⟨bytes, _, unread, passage, -⟩ := passes_of_run (Prod.ext read rfl)
      obtain ⟨-, -, declared, indent, records, line, rfl, rfl⟩ := passes_line.mp passage
      obtain rfl := full.unique (unread ▸ line.readInFull indent _)
      rfl

theorem warnings_of_broken_line :
    let bytes : List UInt8 := [9, 1, 0, 2, 0, 0x4E, 9, 0, 0, 0x10, 0, 6, 0]
    let machine : Machine Unit := { cursor := { source := { bytes }, position := 5 }, receiver := () }
    let ran := (Line.reading {}).run Sink.discard machine
    ran.2.warnings.map Note.message =
      ["unknown opcode 0x0002 at 0x7", "unknown extension command 9:0x10 at 0x9"] := by
  intro bytes machine ran
  obtain ⟨-, stored, full, warned, -⟩ := warnings_point_at_records Sink.discard {} machine
  let unknown : StoredRecord := ⟨2, []⟩
  let command : StoredRecord := ⟨Opcode.extension, [9, 0, 0, 0x10]⟩
  have half : StoredRecord.Partial [0, 6, 0] :=
    ⟨⟨Opcode.variableName, [0, 0, 0, 0]⟩, by decide, by decide, by decide⟩
  have behind : Line.InFull 7 (command.bytes ++ [0, 6, 0]) [command] := .record (by decide) (.broken half)
  have front : Line.InFull 8 (unknown.bytes ++ (command.bytes ++ [0, 6, 0])) [unknown, command] :=
    .record (by decide) behind
  have whole : Line.ReadInFull (9 :: 1 :: (unknown.bytes ++ (command.bytes ++ [0, 6, 0]))) [unknown, command] :=
    .records front
  have unread : machine.unread = 9 :: 1 :: (unknown.bytes ++ (command.bytes ++ [0, 6, 0])) := by decide
  rw [unread] at full
  obtain rfl := (full _).mp whole
  rw [warned]
  decide

end AmosBasic
