import Mathlib.Data.List.Basic
import AmosBasic.Proofs.Line.Acceptance
import AmosBasic.Proofs.Line.Front
import AmosBasic.Proofs.Reading.Confined
import AmosBasic.Proofs.Reading.Cut
import AmosBasic.Proofs.Reading.Supply

namespace AmosBasic

open Reading

namespace Line

def DeclaresNone (bytes : List UInt8) : Prop :=
  ∃ (indent : UInt8) (rest : List UInt8), bytes = 0 :: indent :: rest

inductive BreaksOff : List UInt8 → Prop
  | word {bytes : List UInt8} (short : bytes.length < 2) : BreaksOff bytes
  | record {declared : UInt8} {records : List StoredRecord} {part : List UInt8} (indent : UInt8)
      (wellFormed : ∀ record ∈ records, record.WellFormed)
      (begins : 1 + (records.map StoredRecord.words).sum < declared.toNat) (within : StoredRecord.Partial part) :
      BreaksOff (StoredLine.bytes declared indent records ++ part)

structure Reaches (bytes : List UInt8) (declared indent : UInt8) (records : List StoredRecord) (last : StoredRecord) :
    Prop where
  bytes : ∃ rest, bytes = StoredLine.bytes declared indent (records ++ [last]) ++ rest
  wellFormed : ∀ record ∈ records ++ [last], record.WellFormed
  begins : 1 + (records.map StoredRecord.words).sum < declared.toNat
  reaches : declared.toNat ≤ 1 + (records.map StoredRecord.words).sum + last.words

def Unended (bytes : List UInt8) : Prop :=
  ∃ declared indent records last, Reaches bytes declared indent records last ∧ last.opcode ≠ Opcode.lineEnd

theorem bytes_cases (bytes : List UInt8) :
    DeclaresNone bytes ∨ BreaksOff bytes ∨ (∃ indent rest, bytes = StoredLine.bytes 1 indent [] ++ rest) ∨
      ∃ declared indent records last, Reaches bytes declared indent records last := by
  rcases bytes with _ | ⟨declared, _ | ⟨indent, behind⟩⟩
  · exact .inr (.inl (.word (by decide)))
  · exact .inr (.inl (.word (Nat.lt_succ_self 1)))
  · by_cases none : declared = 0
    · exact .inl ⟨indent, behind, by rw [none]⟩
    · have positive : declared.toNat ≠ 0 := fun zero => none (UInt8.toNat_inj.mp zero)
      rcases records_front (declared.toNat - 1) behind with
        ⟨records, rest, wellFormed, covers, rfl⟩ | ⟨records, part, wellFormed, begins, within, rfl⟩
      · rcases List.eq_nil_or_concat' records with rfl | ⟨records, last, rfl⟩
        · have single : declared = 1 := by
            have words : declared.toNat - 1 = 0 := covers
            exact UInt8.toNat_inj.mp (show declared.toNat = 1 by omega)
          exact .inr (.inr (.inl ⟨indent, rest, by rw [single]; rfl⟩))
        · obtain ⟨begins, reaches⟩ := covers_append_singleton.mp covers
          exact .inr (.inr (.inr ⟨declared, indent, records, last, ⟨rest, rfl⟩, wellFormed, by omega, by omega⟩))
      · exact .inr (.inl (.record indent wellFormed (by omega) within))

variable {options : DecodeOptions} {bytes : List UInt8} {ending : Ending} {place : Place}

theorem outcome_of_declaresNone {indent : UInt8} {rest : List UInt8} :
    (Line.reading options).outcome ⟨0 :: indent :: rest, ending, place⟩ =
      ⟨.error (.corruptStream (some place.position) .emptyLine), [], ⟨rest, ending, place.behind 2⟩⟩ := by
  rw [Line.reading, outcome_currentPosition_bind, outcome_byte_bind_of_cons, outcome_byte_bind_of_cons, if_pos rfl]
  rfl

theorem outcome_of_positive {declared indent : UInt8} {rest : List UInt8} (positive : declared ≠ 0) :
    (Line.reading options).outcome ⟨declared :: indent :: rest, ending, place⟩ =
      (recordsReading options (declared.toNat - 1) [] >>= closing options place.position declared indent).outcome
        ⟨rest, ending, place.behind 2⟩ := by
  rw [Line.reading, outcome_currentPosition_bind, outcome_byte_bind_of_cons, outcome_byte_bind_of_cons,
    if_neg positive, Place.behind_behind]

theorem failsAfter_records {start : Place} {left : Nat} {records : List StoredRecord} {part : List UInt8}
    (wellFormed : ∀ record ∈ records, record.WellFormed) (begins : (records.map StoredRecord.words).sum < left)
    (within : StoredRecord.Partial part) :
    (recordsReading options left []).FailsAfter start (records.flatMap StoredRecord.bytes ++ part) [] := by
  obtain ⟨record, whole, front, less⟩ := within
  -- The record and ends of the line complete what the reading asks for.
  obtain ⟨fill, others, covers⟩ := exists_covers begins record
  have all : ∀ other ∈ records ++ record :: fill, other.WellFormed := by
    simp only [List.forall_mem_append, List.forall_mem_cons]
    exact ⟨wellFormed, whole, others⟩
  have passage : Passes (recordsReading options left []) start _ [] _ _ :=
    passes_records.mpr ⟨rfl, rfl, _, all, covers, rfl, rfl⟩
  rw [List.flatMap_append, List.flatMap_cons] at passage
  have cut : records.flatMap StoredRecord.bytes ++ part <+: _ :=
    (List.prefix_append_right_inj _).mpr (front.trans (List.prefix_append _ (fill.flatMap StoredRecord.bytes)))
  obtain ⟨early, among, fails⟩ := failsAfter_cut passage cut (by simp only [List.length_append]; omega)
  obtain rfl := List.prefix_nil.mp among
  exact fails

theorem BreaksOff.failsAfter (breaks : BreaksOff bytes) : (Line.reading options).FailsAfter place bytes [] := by
  cases breaks with
  | word short =>
    rcases bytes with _ | ⟨declared, _ | ⟨indent, rest⟩⟩
    · exact fun ending => failsAfter_byte _ ending
    · intro ending
      rw [Line.reading, outcome_currentPosition_bind, outcome_byte_bind_of_cons]
      exact failsAfter_byte _ ending
    · simp only [List.length_cons] at short
      omega
  | @record declared records part indent wellFormed begins within =>
    have positive : declared ≠ 0 := by
      rintro rfl
      simp at begins
    have fails : (recordsReading options (declared.toNat - 1) []).FailsAfter (place.behind 2)
        (records.flatMap StoredRecord.bytes ++ part) [] := failsAfter_records wellFormed (by omega) within
    intro ending
    obtain ⟨error, last, came, reported⟩ := fails.bind (closing options place.position declared indent) ending
    refine ⟨error, last, (outcome_of_positive positive).trans came, ?_⟩
    simp only [StoredLine.bytes, List.cons_append, List.length_cons]
    rwa [Place.behind_position, Nat.add_assoc, Nat.add_comm 2] at reported

theorem outcome_of_covers {declared indent : UInt8} {records : List StoredRecord} {rest : List UInt8}
    (positive : declared ≠ 0) (wellFormed : ∀ record ∈ records, record.WellFormed)
    (covers : Covers (declared.toNat - 1) records) :
    (Line.reading options).outcome ⟨StoredLine.bytes declared indent records ++ rest, ending, place⟩ =
      (closing options place.position declared indent (StoredRecord.placed (place.position + 2) records)).outcome
        ⟨rest, ending, place.behind (2 * (1 + (records.map StoredRecord.words).sum))⟩ := by
  have passage : Passes (recordsReading options (declared.toNat - 1) []) (place.behind 2) _ [] _ _ :=
    passes_records.mpr ⟨rfl, rfl, records, wellFormed, covers, rfl, rfl⟩
  have size : 2 + 2 * (records.map StoredRecord.words).sum = 2 * (1 + (records.map StoredRecord.words).sum) := by omega
  have whole : StoredLine.bytes declared indent records ++ rest =
      declared :: indent :: (records.flatMap StoredRecord.bytes ++ rest) := rfl
  rw [whole, outcome_of_positive positive, outcome_bind_of_passes passage, Place.behind_behind,
    length_flatMap_bytes wellFormed, size]
  rfl

theorem strayEnd?_append_singleton (start : Nat) (records : List StoredRecord) (last : StoredRecord) :
    strayEnd? (StoredRecord.placed start (records ++ [last])) =
      if last.opcode = Opcode.lineEnd then none else some last.opcode := by
  rw [strayEnd?, ← List.getLast?_map, opcodes_placed, List.getLast?_map, List.getLast?_concat]
  by_cases ends : last.opcode = Opcode.lineEnd <;> simp [Option.filter, ends]

theorem offset_placed_le {start : Nat} {records : List StoredRecord} {last : StoredRecord} {record : Record}
    (member : record ∈ StoredRecord.placed start (records ++ [last])) :
    record.offset ≤ start + 2 * (records.map StoredRecord.words).sum := by
  induction records generalizing start with
  | nil =>
    obtain rfl := List.mem_singleton.mp member
    exact Nat.le_refl start
  | cons first records ih =>
    rw [List.map_cons, List.sum_cons]
    rcases List.mem_cons.mp member with rfl | later
    · exact Nat.le_add_right start _
    · have := ih later
      omega

variable {declared indent : UInt8} {records : List StoredRecord} {last : StoredRecord}

def size (records : List StoredRecord) (last : StoredRecord) : Nat :=
  2 * (1 + (records.map StoredRecord.words).sum + last.words)

theorem Reaches.outcome_eq (reaches : Reaches bytes declared indent records last) :
    ∃ rest, (Line.reading options).outcome ⟨bytes, ending, place⟩ =
      ⟨if last.opcode = Opcode.lineEnd then
          .ok (StoredLine.line options place.position declared indent (records ++ [last]))
        else .error (.corruptStream (some (place.position + size records last)) (.missingLineEnd last.opcode
          (indentation indent ++ String.join ((records ++ [last]).map fun record => record.token.text options)))),
        [], ⟨rest, ending, place.behind (size records last)⟩⟩ := by
  obtain ⟨⟨rest, rfl⟩, wellFormed, begins, reaches⟩ := reaches
  have positive : declared ≠ 0 := by
    rintro rfl
    simp at begins
  have covers : Covers (declared.toNat - 1) (records ++ [last]) :=
    covers_append_singleton.mpr ⟨by omega, by omega⟩
  have whole : 2 * (1 + ((records ++ [last]).map StoredRecord.words).sum) = size records last := by
    simp only [size, List.map_append, List.map_cons, List.map_nil, List.sum_append, List.sum_cons, List.sum_nil]
    omega
  refine ⟨rest, ?_⟩
  rw [outcome_of_covers positive wellFormed covers, closing_placed positive wellFormed covers,
    strayEnd?_append_singleton, whole, textOf_placed]
  by_cases ends : last.opcode = Opcode.lineEnd
  · simp only [ends, if_true, StoredLine.line, textOf_placed]
    rfl
  · simp only [ends, if_false]
    rfl

section

variable {σ : Type} (sink : Sink σ) (options : DecodeOptions) {machine : Machine σ}

theorem run_of_outcome {result : Except DecodeError Line} {handed : List Delivery} {behind : View}
    (came : (Line.reading options).outcome machine.view = ⟨result, handed, behind⟩) :
    ((Line.reading options).run sink machine).1 = result ∧
      ((Line.reading options).run sink machine).2.cursor.position = behind.place.position := by
  have confined : (Line.reading options).Confined DecodeError.InTurn fun _ => True := confined_reading options
  obtain ⟨ended, view⟩ := confined.run_eq sink machine
  rw [came] at ended view
  exact ⟨ended, congrArg (fun view : View => view.place.position) view⟩

theorem DeclaresNone.run (none : DeclaresNone machine.unread) :
    ((Line.reading options).run sink machine).1 =
        .error (.corruptStream (some machine.cursor.position) .emptyLine) ∧
      ((Line.reading options).run sink machine).2.cursor.position = machine.cursor.position + 2 := by
  obtain ⟨indent, rest, unread⟩ := none
  have came : (Line.reading options).outcome ⟨0 :: indent :: rest, machine.ending, machine.place⟩ = _ :=
    outcome_of_declaresNone
  rw [← unread] at came
  exact run_of_outcome sink options came

theorem BreaksOff.run (breaks : BreaksOff machine.unread) (finished : machine.ending = .finished) :
    ∃ offset expected actual,
      ((Line.reading options).run sink machine).1 = .error (.incompleteRead offset expected actual) ∧
      offset + actual = machine.cursor.position + machine.unread.length ∧ actual < expected ∧
      ((Line.reading options).run sink machine).2.cursor.position =
        machine.cursor.position + machine.unread.length := by
  obtain ⟨error, last, came, offset, expected, actual, rfl, ends, fewer⟩ :=
    (breaks.failsAfter : (Line.reading options).FailsAfter machine.place machine.unread []) .finished
  rw [← finished] at came
  change (Line.reading options).outcome machine.view = _ at came
  obtain ⟨ended, position⟩ := run_of_outcome sink options came
  have balance := outcome_balance (Line.reading options) machine.view finished
  rw [came] at balance
  exact ⟨offset, expected, actual, ended, ends, fewer, position.trans balance⟩

theorem Reaches.run (reaches : Reaches machine.unread declared indent records last)
    (goesOn : last.opcode ≠ Opcode.lineEnd) :
    ((Line.reading options).run sink machine).1 =
        .error (.corruptStream (some (machine.cursor.position + size records last)) (.missingLineEnd last.opcode
          (indentation indent ++ String.join ((records ++ [last]).map fun record => record.token.text options)))) ∧
      ((Line.reading options).run sink machine).2.cursor.position =
        machine.cursor.position + size records last := by
  obtain ⟨rest, came⟩ := reaches.outcome_eq
  rw [if_neg goesOn] at came
  exact run_of_outcome sink options came

theorem Reaches.run_ok (reaches : Reaches machine.unread declared indent records last)
    (ends : last.opcode = Opcode.lineEnd) :
    ((Line.reading options).run sink machine).1 =
      .ok (StoredLine.line options machine.cursor.position declared indent (records ++ [last])) := by
  obtain ⟨rest, came⟩ := reaches.outcome_eq
  rw [if_pos ends] at came
  exact (run_of_outcome sink options came).1

theorem kind_of_run_error {error : DecodeError}
    (failed : ((Line.reading options).run sink machine).1 = .error error) :
    DeclaresNone machine.unread ∨ BreaksOff machine.unread ∨ Unended machine.unread := by
  rcases bytes_cases machine.unread with none | breaks | ⟨indent, rest, unread⟩ |
    ⟨declared, indent, records, last, reaches⟩
  · exact .inl none
  · exact .inr (.inl breaks)
  · have shape : StoredLine 1 [] := by decide
    obtain ⟨_, _, read, -⟩ := read_stored_line sink options shape unread
    cases failed.symm.trans (congrArg Prod.fst read)
  · by_cases ends : last.opcode = Opcode.lineEnd
    · cases failed.symm.trans (reaches.run_ok sink options ends)
    · exact .inr (.inr ⟨declared, indent, records, last, reaches, ends⟩)

theorem Unended.run (goesOn : Unended machine.unread) :
    ∃ offset opcode text, ((Line.reading options).run sink machine).1 =
      .error (.corruptStream (some offset) (.missingLineEnd opcode text)) := by
  obtain ⟨declared, indent, records, last, reaches, goesOn⟩ := goesOn
  exact ⟨_, _, _, (reaches.run sink options goesOn).1⟩

theorem reason_of_run_error (finished : machine.ending = .finished) {offset : Option Nat} {reason : Corruption}
    (failed : ((Line.reading options).run sink machine).1 = .error (.corruptStream offset reason)) :
    reason = .emptyLine ∨ ∃ opcode text, reason = .missingLineEnd opcode text := by
  rcases kind_of_run_error sink options failed with none | breaks | goesOn
  · cases failed.symm.trans (none.run sink options).1
    exact .inl rfl
  · obtain ⟨_, _, _, cut, -⟩ := breaks.run sink options finished
    cases failed.symm.trans cut
  · obtain ⟨_, opcode, text, stray⟩ := goesOn.run sink options
    cases failed.symm.trans stray
    exact .inr ⟨opcode, text, rfl⟩

end

end Line

variable {σ : Type}

/-- On bytes that end, the reading of a line fails in one of three ways, which the bytes tell apart. The line declares
no words; or the bytes break off in the first word or in a record that begins while words are left; or the words are
used up and the last record is no end of the line. Every record begins while words are left, and an end of the line
uses up the last of them, so a line that is overrun fails in the third way. Words that do not add up and float literals
without a number are never found. -/
theorem line_fails_in_three_ways (sink : Sink σ) (options : DecodeOptions) (machine : Machine σ)
    (finished : machine.ending = .finished) :
    let start := machine.cursor.position
    let bytes := machine.unread
    let ran := (Line.reading options).run sink machine
    (Line.DeclaresNone bytes →
      ran.1 = .error (.corruptStream (some start) .emptyLine) ∧ ran.2.cursor.position = start + 2) ∧
    (Line.BreaksOff bytes → ∃ offset expected actual, ran.1 = .error (.incompleteRead offset expected actual) ∧
      offset + actual = start + bytes.length ∧ actual < expected ∧
      ran.2.cursor.position = start + bytes.length) ∧
    (∀ declared indent records last, Line.Reaches bytes declared indent records last →
      let stop := start + Line.size records last
      let text := Line.indentation indent ++
        String.join ((records ++ [last]).map fun record => record.token.text options)
      (∀ record ∈ StoredRecord.placed (start + 2) (records ++ [last]), record.offset < start + 2 * declared.toNat) ∧
      (last.opcode = Opcode.lineEnd → stop = start + 2 * declared.toNat) ∧
      (last.opcode ≠ Opcode.lineEnd →
        ran.1 = .error (.corruptStream (some stop) (.missingLineEnd last.opcode text)) ∧
        ran.2.cursor.position = stop ∧
        (Corruption.missingLineEnd last.opcode text).message = "line didn't end with a null opcode, but " ++
          hexadecimalFilled 4 last.opcode.toNat ++ " (" ++ text ++ ")")) ∧
    (∀ error, ran.1 = .error error →
      Line.DeclaresNone bytes ∧ ¬ Line.BreaksOff bytes ∧ ¬ Line.Unended bytes ∨
      ¬ Line.DeclaresNone bytes ∧ Line.BreaksOff bytes ∧ ¬ Line.Unended bytes ∨
      ¬ Line.DeclaresNone bytes ∧ ¬ Line.BreaksOff bytes ∧ Line.Unended bytes) ∧
    ∀ offset line declared consumed text fault,
      ran.1 ≠ .error (.corruptStream offset (.wordCount line declared consumed text)) ∧
      ran.1 ≠ .error (.corruptStream offset (.floatLiteral fault)) := by
  intro start bytes ran
  -- The errors differ, so the bytes are of one kind only.
  have noneOrCut : Line.DeclaresNone bytes → ¬ Line.BreaksOff bytes := by
    intro none breaks
    obtain ⟨_, _, _, cut, -⟩ := breaks.run sink options finished
    cases (none.run sink options).1.symm.trans cut
  have noneOrUnended : Line.DeclaresNone bytes → ¬ Line.Unended bytes := by
    intro none goesOn
    obtain ⟨_, _, _, stray⟩ := goesOn.run sink options
    cases (none.run sink options).1.symm.trans stray
  have cutOrUnended : Line.BreaksOff bytes → ¬ Line.Unended bytes := by
    intro breaks goesOn
    obtain ⟨_, _, _, cut, -⟩ := breaks.run sink options finished
    obtain ⟨_, _, _, stray⟩ := goesOn.run sink options
    cases cut.symm.trans stray
  refine ⟨fun none => none.run sink options, fun breaks => breaks.run sink options finished,
    fun declared indent records last reaches => ⟨fun record member => ?_, fun ends => ?_, fun goesOn => ?_⟩,
    fun error failed => ?_, fun offset line declared consumed text fault => ⟨fun failed => ?_, fun failed => ?_⟩⟩
  · have := Line.offset_placed_le member
    have := reaches.begins
    omega
  · have single := StoredRecord.words_lineEnd ends
    have := reaches.begins
    have := reaches.reaches
    simp only [Line.size]
    omega
  · obtain ⟨stray, position⟩ := reaches.run sink options goesOn
    exact ⟨stray, position, rfl⟩
  · rcases Line.kind_of_run_error sink options failed with none | breaks | goesOn
    · exact .inl ⟨none, noneOrCut none, noneOrUnended none⟩
    · exact .inr (.inl ⟨fun none => noneOrCut none breaks, breaks, cutOrUnended breaks⟩)
    · exact .inr (.inr ⟨fun none => noneOrUnended none goesOn, fun breaks => cutOrUnended breaks goesOn, goesOn⟩)
  · rcases Line.reason_of_run_error sink options finished failed with same | ⟨_, _, same⟩ <;> cases same
  · rcases Line.reason_of_run_error sink options finished failed with same | ⟨_, _, same⟩ <;> cases same

theorem line_fails_behind_remark :
    let remark : StoredRecord := ⟨Opcode.rem, [0, 3, 0x48, 0x69, 0x21, 0]⟩
    let machine : Machine Unit := { cursor := .ofBytes (StoredLine.bytes 2 2 [remark] ++ [7]), receiver := () }
    let ran := (Line.reading {}).run Sink.discard machine
    machine.ending = .finished ∧
      ran.1 = .error (.corruptStream (some 10) (.missingLineEnd Opcode.rem " REM Hi!")) ∧
      ran.2.cursor.position = 10 := by
  intro remark machine ran
  obtain ⟨-, -, reached, -⟩ := line_fails_in_three_ways Sink.discard {} machine rfl
  have reaches : Line.Reaches machine.unread 2 2 [] remark :=
    ⟨⟨[7], rfl⟩, by decide, by decide, by decide⟩
  obtain ⟨-, -, fails⟩ := reached 2 2 [] remark reaches
  obtain ⟨stray, position, -⟩ := fails (by decide)
  have stop : machine.cursor.position + Line.size [] remark = 10 := by decide
  have text : Line.indentation 2 ++ String.join ([remark].map fun record => record.token.text {}) = " REM Hi!" := by
    decide
  rw [List.nil_append, text, stop] at stray
  exact ⟨rfl, stray, position.trans stop⟩

end AmosBasic
