import AmosBasic.Proofs.Session.History
import AmosBasic.Proofs.Session.Opening
import Mathlib.Data.List.Forall2

namespace AmosBasic

open Reading

structure Line.SameButText (first second : Line) : Prop where
  indent : first.indent = second.indent
  declaredWords : first.declaredWords = second.declaredWords
  records : first.records = second.records
  text : (∀ record ∈ first.records, record.opcode ≠ Opcode.float ∧ Opcode.Listed record.opcode) →
    first.text = second.text

inductive Delivery.SameButText : Delivery → Delivery → Prop
  | line {first second : Line} (same : first.SameButText second) : SameButText (.line first) (.line second)
  | bank (content : BankContent) : SameButText (.bank content) (.bank content)

/-- Of all errors only the one about the end of a line quotes its text. -/
inductive DecodeError.SameButText : DecodeError → DecodeError → Prop
  | same (error : DecodeError) : SameButText error error
  | lineEnd (offset : Option Nat) (opcode : UInt16) (first second : String) :
      SameButText (.corruptStream offset (.missingLineEnd opcode first))
        (.corruptStream offset (.missingLineEnd opcode second))

theorem StoredRecord.text_token {record : StoredRecord} (literal : record.opcode ≠ Opcode.float)
    (listed : Opcode.Listed record.opcode) (first second : DecodeOptions) :
    record.token.text first = record.token.text second := by
  obtain ⟨opcode, payload⟩ := record
  have known := Shape.opcode_token opcode payload
  unfold token
  dsimp only at literal listed ⊢
  cases shape : Shape.ofOpcode opcode with
  | control | name | quoted | integer | extension | remark => rfl
  | float =>
    rw [shape] at known
    exact absurd known.symm literal
  | plain =>
    change Token.plainText _ opcode = Token.plainText _ opcode
    unfold Token.plainText
    rcases (Shape.listed_of_plain shape).mp listed with ends | some
    · rw [if_pos ends, if_pos ends]
    · obtain ⟨word, found⟩ := Option.isSome_iff_exists.mp some
      rw [found]
      rfl

theorem Line.textOf_eq_textOf {start : Nat} {records : List StoredRecord} (indent : UInt8)
    (shown : ∀ record ∈ StoredRecord.placed start records,
      record.opcode ≠ Opcode.float ∧ Opcode.Listed record.opcode) (first second : DecodeOptions) :
    textOf first indent (StoredRecord.placed start records) =
      textOf second indent (StoredRecord.placed start records) := by
  have each : ∀ record ∈ records, record.opcode ≠ Opcode.float ∧ Opcode.Listed record.opcode := by
    intro record member
    have among : record.opcode ∈ (StoredRecord.placed start records).map Record.opcode := by
      rw [opcodes_placed]
      exact List.mem_map_of_mem member
    obtain ⟨placed, found, same⟩ := List.mem_map.mp among
    rw [← same]
    exact shown placed found
  rw [textOf_placed, textOf_placed]
  congr 2
  apply List.map_congr_left
  intro record member
  obtain ⟨literal, listed⟩ := each record member
  exact record.text_token literal listed first second

structure Outcome.Alike {α β : Type} (value : α → β → Prop) (first : Outcome α) (second : Outcome β) : Prop where
  result : EndAlike DecodeError.SameButText value first.result second.result
  handed : List.Forall₂ Delivery.SameButText first.handed second.handed
  view : first.view = second.view

namespace Reading

variable {α β γ δ : Type} {value : α → β → Prop} {later : γ → δ → Prop}

/-- Two readings that go on in lockstep wherever they start. -/
def Alike (value : α → β → Prop) (first : Reading α) (second : Reading β) : Prop :=
  ∀ view, (first.outcome view).Alike value (second.outcome view)

theorem alike_pure {first : α} {second : β} (related : value first second) :
    Alike value (pure first) (pure second) :=
  fun _ => ⟨.ok related, .nil, rfl⟩

theorem alike_corrupt {offset : Nat} {first second : Corruption}
    (same : DecodeError.SameButText (.corruptStream (some offset) first) (.corruptStream (some offset) second)) :
    Alike value (corrupt offset first) (corrupt offset second) :=
  fun _ => ⟨.error same, .nil, rfl⟩

theorem alike_handOver {first second : Delivery} (same : first.SameButText second) :
    Alike Eq (handOver first) (handOver second) :=
  fun _ => ⟨.ok rfl, .cons same .nil, rfl⟩

theorem alike_of_silent {first second : Reading α} (silent : first.Silent)
    (same : ∀ view, first.outcome view = second.outcome view) : Alike Eq first second := by
  intro view
  obtain ⟨nothing, -⟩ := silent view
  rw [← same view]
  exact ⟨endAlike_refl .same (fun _ => rfl) _, by rw [nothing]; exact .nil, rfl⟩

theorem alike_self {reading : Reading α} (silent : reading.Silent) : Alike Eq reading reading :=
  alike_of_silent silent fun _ => rfl

theorem alike_andThen {first : Outcome α} {second : Outcome β} {next : α → Reading γ} {other : β → Reading δ}
    (before : first.Alike value second) (after : ∀ one two, value one two → Alike later (next one) (other two)) :
    (first.andThen next).Alike later (second.andThen other) := by
  obtain ⟨result, early, middle⟩ := first
  obtain ⟨_, ahead, _⟩ := second
  obtain ⟨ends, handed, same⟩ := before
  dsimp only at ends handed same
  subst same
  cases ends with
  | ok related =>
    obtain ⟨ending, more, stop⟩ := after _ _ related middle
    exact ⟨ending, List.rel_append handed more, stop⟩
  | error kind => exact ⟨.error kind, handed, rfl⟩

theorem alike_bind {first : Reading α} {second : Reading β} {next : α → Reading γ} {other : β → Reading δ}
    (before : Alike value first second) (after : ∀ one two, value one two → Alike later (next one) (other two)) :
    Alike later (first >>= next) (second >>= other) := by
  intro view
  rw [outcome_bind, outcome_bind]
  exact alike_andThen (before view) after

theorem outcome_bind_congr {first second : Reading α} {next other : α → Reading β}
    (before : ∀ view, first.outcome view = second.outcome view)
    (after : ∀ value view, (next value).outcome view = (other value).outcome view) (view : View) :
    (first >>= next).outcome view = (second >>= other).outcome view := by
  rw [outcome_bind, outcome_bind, before, Outcome.andThen, Outcome.andThen]
  cases (second.outcome view).result with
  | ok value =>
    dsimp only
    rw [after]
  | error error => rfl

end Reading

section

variable (first second : DecodeOptions)

theorem Record.outcome_reading (view : View) :
    (Record.reading first).outcome view = (Record.reading second).outcome view := by
  rw [Record.reading_eq, Record.reading_eq]
  have congruent : ∀ {α : Type} {reading : Reading α} {next other : α → Reading Record},
      (∀ value view, (next value).outcome view = (other value).outcome view) →
      ∀ view, (reading >>= next).outcome view = (reading >>= other).outcome view :=
    fun after => outcome_bind_congr (fun _ => rfl) after
  apply congruent
  intro offset
  apply congruent
  intro opcode
  apply congruent
  intro token
  apply congruent
  intro behind
  apply congruent
  intro _ view
  rfl

theorem Line.outcome_recordsReading (left : Nat) (read : List Record) (view : View) :
    (recordsReading first left read).outcome view = (recordsReading second left read).outcome view := by
  induction left using Nat.strongRecOn generalizing read view with
  | ind left ih =>
    cases left with
    | zero => rw [recordsReading, recordsReading]
    | succ left =>
      rw [recordsReading, recordsReading]
      apply outcome_bind_congr (Record.outcome_reading first second)
      intro record view
      exact ih _ (by omega) _ view

theorem Line.alike_recordsReading (left : Nat) :
    Alike (fun one two => one = two ∧ ∃ start stored, (∀ record ∈ stored, StoredRecord.WellFormed record) ∧
        Covers left stored ∧ one = StoredRecord.placed start stored)
      (recordsReading first left []) (recordsReading second left []) := by
  intro view
  have alike := alike_of_silent (Line.keeps_recordsReading first left []).silent
    (Line.outcome_recordsReading first second left []) view
  refine ⟨?_, alike.handed, alike.view⟩
  rw [← Line.outcome_recordsReading first second left [] view]
  rcases came : (recordsReading first left []).outcome view with ⟨error | records, handed, last⟩
  · exact .error (.same error)
  · obtain ⟨bytes, -, -, passage⟩ := passes_of_outcome came
    obtain ⟨-, -, stored, wellFormed, covers, -, rfl⟩ := passes_records.mp passage
    exact .ok ⟨rfl, _, stored, wellFormed, covers, rfl⟩

theorem Line.alike_reading : Alike Line.SameButText (Line.reading first) (Line.reading second) := by
  apply alike_bind (alike_self (keeps_currentPosition forward_any))
  rintro start _ rfl
  apply alike_bind (alike_self (keeps_byte forward_any))
  rintro declared _ rfl
  apply alike_bind (alike_self (keeps_byte forward_any))
  rintro indent _ rfl
  split
  · exact alike_corrupt (.same _)
  · apply alike_bind (Line.alike_recordsReading first second _)
    rintro records _ ⟨rfl, first, stored, wellFormed, covers, rfl⟩
    rename_i positive
    rw [closing_placed positive wellFormed covers, closing_placed positive wellFormed covers]
    cases strayEnd? (StoredRecord.placed first stored) with
    | some opcode =>
      apply alike_bind (alike_self (keeps_currentPosition forward_any))
      rintro position _ rfl
      exact alike_corrupt (.lineEnd _ _ _ _)
    | none => exact alike_pure ⟨rfl, rfl, rfl, fun shown => Line.textOf_eq_textOf indent shown _ _⟩

namespace OpenFile

variable (header : Header)

theorem alike_readLine : Alike Line.SameButText (readLine ⟨header, first⟩) (readLine ⟨header, second⟩) := by
  have position : Alike Eq currentPosition currentPosition := alike_self (keeps_currentPosition forward_any)
  apply alike_bind position
  rintro start _ rfl
  have exhausted : exhaustedAt ⟨header, first⟩ start = exhaustedAt ⟨header, second⟩ start := rfl
  rw [exhausted]
  split
  · exact alike_corrupt (.same _)
  · apply alike_bind (Line.alike_reading first second)
    intro one two same
    apply alike_bind position
    rintro stop _ rfl
    dsimp only
    split
    · exact alike_corrupt (.same _)
    · have counted : Alike Eq (updateProgress fun progress => { progress with linesRead := progress.linesRead + 1 })
          (updateProgress fun progress => { progress with linesRead := progress.linesRead + 1 }) :=
        alike_self (silent_of_outcome fun _ => rfl)
      exact alike_bind counted fun _ _ _ => alike_pure same

theorem alike_deliverLines (fuel : Nat) (summary : Summary) :
    Alike Eq (deliverLines ⟨header, first⟩ fuel summary) (deliverLines ⟨header, second⟩ fuel summary) := by
  induction fuel generalizing summary with
  | zero => exact alike_pure rfl
  | succ fuel ih =>
    have exhausted : Alike Eq (isExhausted ⟨header, first⟩) (isExhausted ⟨header, second⟩) :=
      alike_self (keeps_bind forward_any (keeps_currentPosition forward_any) fun _ => keeps_pure forward_any _)
    apply alike_bind exhausted
    rintro ended _ rfl
    split
    · exact alike_pure rfl
    · apply alike_bind (alike_readLine first second header)
      intro one two same
      apply alike_bind (alike_handOver (.line same))
      intro _ _ _
      exact ih _

theorem alike_deliverBanks (fuel : Nat) (summary : Summary) :
    Alike Eq (deliverBanks fuel summary) (deliverBanks fuel summary) := by
  induction fuel generalizing summary with
  | zero => exact alike_pure rfl
  | succ fuel ih =>
    have progress : Alike Eq currentProgress currentProgress := alike_self (silent_of_outcome fun _ => rfl)
    apply alike_bind progress
    rintro state _ rfl
    split
    · exact alike_pure rfl
    · apply alike_bind (alike_self silent_bank)
      rintro bank _ rfl
      apply alike_bind (alike_handOver (.bank bank.content))
      intro _ _ _
      exact ih _

theorem alike_decoding (sourceOnly : Bool) :
    Alike Eq (decoding ⟨header, first⟩ sourceOnly) (decoding ⟨header, second⟩ sourceOnly) := by
  apply alike_bind (alike_deliverLines first second header _ _)
  rintro lines _ rfl
  have remarked : ∀ summary : Summary, Alike Eq (remark (.finished summary) >>= fun _ => pure summary)
      (remark (.finished summary) >>= fun _ => pure summary) :=
    fun summary => alike_self (silent_of_outcome fun _ => rfl)
  cases sourceOnly with
  | true => exact remarked lines
  | false =>
    apply alike_bind (alike_self (silent_readBankCount ⟨header, first⟩))
    rintro count _ rfl
    apply alike_bind (alike_deliverBanks count lines)
    rintro summary _ rfl
    exact remarked summary

theorem alike_opening (view : View) :
    (opening first view).Alike (fun one two => ∃ header, one = ⟨header, first⟩ ∧ two = ⟨header, second⟩)
      (opening second view) := by
  unfold opening
  split
  · have header := keeps_headerReading (view.unread.take HeaderVariant.magicLength)
    refine alike_bind (alike_self header.silent) ?_ (view.behind HeaderVariant.magicLength)
    rintro header _ rfl
    exact alike_pure ⟨header, rfl, rfl⟩
  · exact ⟨.error (.same _), .nil, rfl⟩

end OpenFile

theorem alike_decodeOutcome (sourceOnly : Bool) (view : View) :
    (decodeOutcome first sourceOnly view).Alike Eq (decodeOutcome second sourceOnly view) := by
  apply alike_andThen (OpenFile.alike_opening first second view)
  rintro _ _ ⟨header, rfl, rfl⟩
  exact OpenFile.alike_decoding first second header sourceOnly

end

theorem Sink.accept?_collect (received : Array Delivery) (handed : List Delivery) :
    collect.accept? received handed = some (received ++ handed.toArray) := by
  induction handed generalizing received with
  | nil => simp [accept?]
  | cons delivery handed ih => simp [accept?, collect, ih]

/-- Whatever the options, the same calls are made in the same order and the run ends in the same way. Banks and
summaries are equal, and so are lines and errors but for the text in them. -/
theorem options_change_only_text (source : Source) (sourceOnly : Bool) (first second : DecodeOptions) :
    List.Forall₂ Delivery.SameButText
        (decode Sink.collect first sourceOnly (.fresh source #[])).2.receiver.toList
        (decode Sink.collect second sourceOnly (.fresh source #[])).2.receiver.toList ∧
      EndAlike DecodeError.SameButText Eq (decode Sink.collect first sourceOnly (.fresh source #[])).1
        (decode Sink.collect second sourceOnly (.fresh source #[])).1 := by
  let view : View := (Machine.fresh source ()).view
  have collects : ∀ options : DecodeOptions, ∃ final,
      decode Sink.collect options sourceOnly (.fresh source #[]) =
        ((decodeOutcome options sourceOnly view).result, final) ∧
      final.receiver.toList = (decodeOutcome options sourceOnly view).handed := by
    intro options
    obtain ⟨final, same, -, collected⟩ :=
      decode_outcome options sourceOnly Sink.collect (.fresh source #[]) (Sink.accept?_collect #[] _)
    refine ⟨final, same, ?_⟩
    rw [collected, Array.empty_append]
    rfl
  obtain ⟨one, sameFirst, receivedFirst⟩ := collects first
  obtain ⟨two, sameSecond, receivedSecond⟩ := collects second
  obtain ⟨result, handed, -⟩ := alike_decodeOutcome first second sourceOnly view
  rw [sameFirst, sameSecond, receivedFirst, receivedSecond]
  exact ⟨handed, result⟩

end AmosBasic
