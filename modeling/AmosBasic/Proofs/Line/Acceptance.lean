import AmosBasic.Proofs.Line.Record
import AmosBasic.Proofs.Reading.Replay

namespace AmosBasic

open Reading

def StoredRecord.placed : Nat → List StoredRecord → List Record
  | _, [] => []
  | start, record :: records => ⟨start, record.token⟩ :: placed (start + 2 * record.words) records

def StoredLine.line (options : DecodeOptions) (start : Nat) (declared indent : UInt8)
    (records : List StoredRecord) : Line :=
  let placed := StoredRecord.placed (start + 2) records
  { indent, declaredWords := declared.toNat, records := placed, text := Line.textOf options indent placed }

variable {options : DecodeOptions} {start stop : Place} {bytes : List UInt8} {handed : List Delivery}

theorem covers_zero {records : List StoredRecord} : Covers 0 records ↔ records = [] := by
  cases records with
  | nil => simp [Covers]
  | cons record records => simp [Covers]

theorem passes_records {left : Nat} {read records : List Record} :
    Passes (Line.recordsReading options left read) start bytes handed stop records ↔
      handed = [] ∧ stop = start.behind bytes.length ∧
        ∃ stored : List StoredRecord, (∀ record ∈ stored, record.WellFormed) ∧ Covers left stored ∧
          bytes = stored.flatMap StoredRecord.bytes ∧
          records = read.reverse ++ StoredRecord.placed start.position stored := by
  -- The reading counts the words that are left, and a record can reach past them: the induction is on them.
  induction left using Nat.strongRecOn generalizing start bytes read with
  | ind left ih =>
    cases left with
    | zero =>
      rw [Line.recordsReading, passes_pure]
      simp only [covers_zero]
      constructor
      · intro passage
        obtain ⟨rfl, rfl, rfl, rfl⟩ := passage
        exact ⟨rfl, rfl, [], by simp, rfl, rfl, by simp [StoredRecord.placed]⟩
      · intro stored
        obtain ⟨rfl, rfl, _, -, rfl, rfl, rfl⟩ := stored
        exact ⟨rfl, rfl, rfl, by simp [StoredRecord.placed]⟩
    | succ left =>
      rw [Line.recordsReading, passes_record_bind]
      constructor
      · intro passage
        obtain ⟨record, rest, rfl, wellFormed, after⟩ := passage
        obtain ⟨rfl, rfl, stored, all, covers, rfl, rfl⟩ := (ih _ (by omega)).mp after
        rw [wellFormed.payloadWords_token] at covers
        refine ⟨rfl, ?_, record :: stored, List.forall_mem_cons.mpr ⟨wellFormed, all⟩, ⟨by omega, ?_⟩, rfl, ?_⟩
        · rw [Place.behind_behind, ← wellFormed.length_bytes, List.length_append]
        · rwa [StoredRecord.words, Nat.add_comm 1, Nat.add_sub_add_right]
        · simp [StoredRecord.placed]
      · intro stored
        obtain ⟨rfl, rfl, _ | ⟨record, stored⟩, all, covers, rfl, rfl⟩ := stored
        · cases covers
        · obtain ⟨wellFormed, all⟩ := List.forall_mem_cons.mp all
          obtain ⟨-, covers⟩ := covers
          rw [StoredRecord.words, Nat.add_comm 1, Nat.add_sub_add_right] at covers
          refine ⟨record, _, rfl, wellFormed, (ih _ (by omega)).mpr ⟨rfl, ?_, stored, all, ?_, rfl, ?_⟩⟩
          · rw [Place.behind_behind, ← wellFormed.length_bytes]
            exact congrArg start.behind List.length_append
          · rwa [wellFormed.payloadWords_token]
          · simp [StoredRecord.placed]

theorem map_token_placed {α : Type} (shown : Token → α) (start : Nat) (records : List StoredRecord) :
    (StoredRecord.placed start records).map (fun record => shown record.token) =
      records.map fun record => shown record.token := by
  induction records generalizing start with
  | nil => rfl
  | cons record records ih => simp [StoredRecord.placed, ih]

theorem textOf_placed (options : DecodeOptions) (indent : UInt8) (start : Nat) (records : List StoredRecord) :
    Line.textOf options indent (StoredRecord.placed start records) =
      Line.indentation indent ++ String.join (records.map fun record => record.token.text options) := by
  rw [Line.textOf, map_token_placed (Token.text options)]

theorem opcodes_placed (start : Nat) (records : List StoredRecord) :
    (StoredRecord.placed start records).map Record.opcode = records.map StoredRecord.opcode := by
  refine (map_token_placed Token.opcode start records).trans (List.map_congr_left fun record _ => ?_)
  exact record.opcode_token

theorem strayEnd?_placed (start : Nat) (records : List StoredRecord) :
    Line.strayEnd? (StoredRecord.placed start records) = none ↔
      ∀ last ∈ records.getLast?, last.opcode = Opcode.lineEnd := by
  rw [Line.strayEnd?, ← List.getLast?_map, opcodes_placed, List.getLast?_map]
  cases records.getLast? <;> simp

theorem words_placed {records : List StoredRecord} (wellFormed : ∀ record ∈ records, record.WellFormed)
    (start : Nat) : (StoredRecord.placed start records).map Record.words = records.map StoredRecord.words := by
  refine (map_token_placed (fun token => 1 + token.payloadWords) start records).trans ?_
  refine List.map_congr_left fun record member => ?_
  rw [(wellFormed record member).payloadWords_token, StoredRecord.words]

/-- Records that cover the words of a line and end it are as many words as it declares, so only the last record
decides what becomes of them. -/
theorem closing_placed {declared : UInt8} {records : List StoredRecord} (positive : declared ≠ 0)
    (wellFormed : ∀ record ∈ records, record.WellFormed) (covers : Covers (declared.toNat - 1) records)
    (options : DecodeOptions) (start first : Nat) (indent : UInt8) :
    let placed := StoredRecord.placed first records
    let text := Line.textOf options indent placed
    Line.closing options start declared indent placed =
      match Line.strayEnd? placed with
      | some opcode => do corrupt (← currentPosition) (.missingLineEnd opcode text)
      | none => return { indent, declaredWords := declared.toNat, records := placed, text } := by
  intro placed text
  unfold Line.closing
  cases stray : Line.strayEnd? placed with
  | some opcode => rfl
  | none =>
    have ends := (strayEnd?_placed _ _).mp stray
    have : declared.toNat ≠ 0 := fun zero => positive (UInt8.toNat_inj.mp zero)
    refine if_pos ?_
    rw [Line.wordsConsumed, words_placed wellFormed, sum_words_of_covers covers ends]
    dsimp only
    omega

theorem passes_line {line : Line} :
    Passes (Line.reading options) start bytes handed stop line ↔
      handed = [] ∧ stop = start.behind bytes.length ∧
        ∃ (declared indent : UInt8) (records : List StoredRecord), StoredLine declared records ∧
          bytes = StoredLine.bytes declared indent records ∧
          line = StoredLine.line options start.position declared indent records := by
  simp only [Line.reading, passes_currentPosition_bind, passes_byte_bind, passes_ite, not_passes_corrupt,
    Place.behind_behind]
  constructor
  · intro passage
    obtain ⟨declared, _, rfl, indent, _, rfl, passage⟩ := passage
    split at passage
    · cases passage
    · rename_i positive
      obtain ⟨_, rest, _, late, middle, _, rfl, rfl, before, after⟩ := passes_bind.mp passage
      obtain ⟨rfl, rfl, records, wellFormed, covers, rfl, rfl⟩ := passes_records.mp before
      change Passes (Line.closing _ _ _ _ (StoredRecord.placed (start.position + 2) records)) _ _ _ _ _ at after
      rw [closing_placed positive wellFormed covers] at after
      cases stray : Line.strayEnd? (StoredRecord.placed (start.position + 2) records) with
      | some opcode =>
        simp only [stray, passes_currentPosition_bind, not_passes_corrupt] at after
      | none =>
        simp only [stray, passes_pure] at after
        obtain ⟨rfl, rfl, rfl, rfl⟩ := after
        have ends := (strayEnd?_placed _ _).mp stray
        -- The reading has only made sure that no words are left.
        have fills : 1 + (records.map StoredRecord.words).sum = declared.toNat := by
          rw [sum_words_of_covers covers ends]
          have : declared.toNat ≠ 0 := fun zero => positive (UInt8.toNat_inj.mp zero)
          omega
        refine ⟨rfl, ?_, declared, indent, records, ⟨wellFormed, fills, ends⟩, by simp [StoredLine.bytes], rfl⟩
        rw [Place.behind_behind, List.append_nil]
        exact congrArg start.behind (Nat.add_comm 2 _)
  · intro stored
    obtain ⟨rfl, rfl, declared, indent, records, shape, rfl, rfl⟩ := stored
    obtain ⟨wellFormed, fills, ends⟩ := shape
    have positive : ¬ declared = 0 := by
      intro zero
      rw [zero] at fills
      simp at fills
    have covers : Covers (declared.toNat - 1) records := by
      have words : declared.toNat - 1 = (records.map StoredRecord.words).sum := by omega
      rw [words]
      exact covers_sum_words records
    refine ⟨declared, _, rfl, indent, _, rfl, ?_⟩
    rw [if_neg positive]
    have before : Passes (Line.recordsReading options (declared.toNat - 1) []) (start.behind 2)
        (records.flatMap StoredRecord.bytes) [] _ (StoredRecord.placed (start.position + 2) records) :=
      passes_records.mpr ⟨rfl, rfl, records, wellFormed, covers, rfl, rfl⟩
    refine passes_bind.mpr ⟨_, [], [], [], _, _, (List.append_nil _).symm, rfl, before, ?_⟩
    have stray := (strayEnd?_placed (start.position + 2) records).mpr ends
    rw [closing_placed positive wellFormed covers]
    simp only [stray]
    refine passes_pure.mpr ⟨rfl, rfl, ?_, rfl⟩
    rw [Place.behind_behind]
    exact congrArg start.behind (Nat.add_comm _ 2)

/-- `line` is the stored line that begins at `start`. Every record knows its place, which the words before
it make up. -/
structure StoredLine.ReadAs (options : DecodeOptions) (start : Nat) (declared indent : UInt8)
    (records : List StoredRecord) (line : Line) : Prop where
  level : line.indent = indent
  declaredWords : line.declaredWords = declared.toNat
  wordsConsumed : line.wordsConsumed = declared.toNat
  opcodes : line.records.map Record.opcode = records.map StoredRecord.opcode
  words : line.records.map Record.words = records.map StoredRecord.words
  bytes : line.records.map (fun record => record.token.encode) = records.map StoredRecord.bytes
  offsets : line.records.map Record.offset = (List.range records.length).map fun index =>
    start + 2 * (1 + ((records.take index).map StoredRecord.words).sum)
  text : line.text =
    Line.indentation indent ++ String.join (records.map fun record => record.token.text options)

theorem bytes_placed {records : List StoredRecord} (wellFormed : ∀ record ∈ records, record.WellFormed)
    (start : Nat) :
    (StoredRecord.placed start records).map (fun record => record.token.encode) = records.map StoredRecord.bytes := by
  refine (map_token_placed Token.encode start records).trans (List.map_congr_left fun record member => ?_)
  rw [Token.encode, record.opcode_token, (wellFormed record member).payload_token, StoredRecord.bytes]

theorem offsets_placed (start : Nat) (records : List StoredRecord) :
    (StoredRecord.placed start records).map Record.offset = (List.range records.length).map fun index =>
      start + 2 * ((records.take index).map StoredRecord.words).sum := by
  induction records generalizing start with
  | nil => rfl
  | cons record records ih =>
    rw [StoredRecord.placed, List.map_cons, ih, List.length_cons, List.range_succ_eq_map, List.map_cons,
      List.map_map]
    congr 1
    refine List.map_congr_left fun index _ => ?_
    simp only [Function.comp_apply, List.take_succ_cons, List.map_cons, List.sum_cons]
    omega

theorem StoredLine.readAs_line {declared : UInt8} {records : List StoredRecord}
    (shape : StoredLine declared records) (options : DecodeOptions) (start : Nat) (indent : UInt8) :
    ReadAs options start declared indent records (line options start declared indent records) where
  level := rfl
  declaredWords := rfl
  wordsConsumed := by
    rw [← shape.fills, ← words_placed shape.wellFormed (start + 2)]
    rfl
  opcodes := opcodes_placed _ _
  words := words_placed shape.wellFormed _
  bytes := bytes_placed shape.wellFormed _
  offsets := by
    refine (offsets_placed _ _).trans (List.map_congr_left fun index _ => ?_)
    omega
  text := textOf_placed options indent (start + 2) records

variable {σ : Type}

theorem read_stored_line (sink : Sink σ) (options : DecodeOptions) {machine : Machine σ} {declared indent : UInt8}
    {records : List StoredRecord} {rest : List UInt8} (shape : StoredLine declared records)
    (unread : machine.unread = StoredLine.bytes declared indent records ++ rest) :
    ∃ line final, (Line.reading options).run sink machine = (.ok line, final) ∧
      StoredLine.ReadAs options machine.cursor.position declared indent records line ∧
      final.unread = rest ∧ final.cursor.position = machine.cursor.position + 2 * declared.toNat := by
  have passage : Passes (Line.reading options) machine.place _ [] _ _ :=
    passes_line.mpr ⟨rfl, rfl, declared, indent, records, shape, rfl, rfl⟩
  obtain ⟨final, success, left, place, -⟩ := run_of_passes passage rfl unread rfl
  refine ⟨_, final, success, shape.readAs_line options _ indent, left, ?_⟩
  rw [← shape.length_bytes indent]
  exact congrArg Place.position place

/-- A line is read exactly where the bytes begin with a stored line, and then it is that line. -/
theorem reading_accepts_stored_lines (sink : Sink σ) (options : DecodeOptions) (machine : Machine σ) :
    ((∃ line final, (Line.reading options).run sink machine = (.ok line, final)) ↔
      ∃ (declared indent : UInt8) (records : List StoredRecord) (rest : List UInt8),
        StoredLine declared records ∧ machine.unread = StoredLine.bytes declared indent records ++ rest) ∧
    ∀ (declared indent : UInt8) (records : List StoredRecord) (rest : List UInt8),
      StoredLine declared records → machine.unread = StoredLine.bytes declared indent records ++ rest →
      ∃ line final, (Line.reading options).run sink machine = (.ok line, final) ∧
        StoredLine.ReadAs options machine.cursor.position declared indent records line ∧
        final.unread = rest ∧ final.cursor.position = machine.cursor.position + 2 * declared.toNat := by
  constructor
  · constructor
    · intro read
      obtain ⟨line, final, success⟩ := read
      obtain ⟨bytes, handed, unread, passage, -⟩ := passes_of_run success
      obtain ⟨-, -, declared, indent, records, shape, rfl, -⟩ := passes_line.mp passage
      exact ⟨declared, indent, records, final.unread, shape, unread⟩
    · intro stored
      obtain ⟨declared, indent, records, rest, shape, unread⟩ := stored
      obtain ⟨line, final, success, -⟩ := read_stored_line sink options shape unread
      exact ⟨line, final, success⟩
  · intro declared indent records rest shape unread
    exact read_stored_line sink options shape unread

theorem reading_accepts_remark :
    let records : List StoredRecord := [⟨Opcode.rem, [0, 3, 0x48, 0x69, 0x21, 0]⟩, ⟨Opcode.lineEnd, []⟩]
    ∃ line final, (Line.reading {}).run Sink.discard
        { cursor := .ofBytes (StoredLine.bytes 6 1 records ++ [7]), receiver := () } = (.ok line, final) ∧
      StoredLine.ReadAs {} 0 6 1 records line ∧ final.unread = [7] ∧ final.cursor.position = 12 :=
  (reading_accepts_stored_lines Sink.discard {} _).2 6 1 _ [7] (by decide) rfl

end AmosBasic
