import AmosBasic.Proofs.Line.Check
import AmosBasic.Proofs.Line.Grammar
import AmosBasic.Proofs.Reading.Passage

namespace AmosBasic

open Reading

namespace Shape

def payloadWords (payload : List UInt8) : Shape → Nat
  | plain => 0
  | control words => words
  | name _ => 2 + StoredRecord.wordsFor (payload.getD 2 0).toNat
  | quoted _ => 1 + StoredRecord.wordsFor (bigEndian (payload.take 2))
  | integer _ | float | extension => 2
  | remark _ => 1 + StoredRecord.wordsFor (payload.getD 1 0).toNat

def token (opcode : UInt16) (payload : List UInt8) : Shape → Token
  | plain => .plain opcode
  | control _ => .control opcode payload
  | name use => .name use (payload.take 2) (payload.getD 2 0) (payload.getD 3 0) (payload.drop 4)
  | quoted mark => .quoted mark (UInt16.ofNat (bigEndian (payload.take 2))) (payload.drop 2)
  | integer base => .integer base (UInt32.ofNat (bigEndian payload))
  | float => .float (UInt32.ofNat (bigEndian payload))
  | extension =>
    .extension (payload.getD 0 0) (payload.getD 1 0) (UInt16.ofNat (bigEndian (payload.drop 2)))
  | remark mark => .remark mark (payload.getD 0 0) (payload.getD 1 0) (payload.drop 2)

end Shape

/-- The reading of a shape takes exactly a payload of its length, and gives its token. -/
def Shape.PassesPayloads (shape : Shape) : Prop :=
  ∀ (opcode : UInt16) (start stop : Place) (bytes : List UInt8) (handed : List Delivery) (token : Token),
    Passes (shape.reading opcode) start bytes handed stop token ↔
      handed = [] ∧ stop = start.behind bytes.length ∧ bytes.length = 2 * shape.payloadWords bytes ∧
        token = shape.token opcode bytes

theorem passes_name (use : NameUse) : (Shape.name use).PassesPayloads := by
  intro opcode start stop bytes handed token
  simp only [Shape.reading, passes_skipped_bind, passes_byte_bind, passes_bytes_pure, Shape.payloadWords,
    Shape.token, Place.behind_behind, StoredRecord.wordAligned_eq]
  constructor
  · intro passage
    obtain ⟨lead, _, rfl, two, length, _, rfl, flags, body, rfl, rfl, rfl, filled, rfl⟩ := passage
    rcases lead with _ | ⟨first, _ | ⟨second, _ | _⟩⟩ <;> simp at two
    refine ⟨rfl, congrArg start.behind ?_, ?_, rfl⟩
    · simp only [List.length_append, List.length_cons, List.length_nil]
      omega
    · change body.length + 4 = 2 * (2 + StoredRecord.wordsFor length.toNat)
      omega
  · intro described
    obtain ⟨rfl, rfl, filled, rfl⟩ := described
    rcases bytes with _ | ⟨first, _ | ⟨second, _ | ⟨length, _ | ⟨flags, body⟩⟩⟩⟩ <;>
      simp only [List.getD_cons_zero, List.getD_cons_succ, List.length_cons, List.length_nil] at filled
    iterate 4 omega
    refine ⟨[first, second], _, rfl, rfl, length, _, rfl, flags, body, rfl, rfl, congrArg start.behind ?_, ?_, rfl⟩
    · simp only [List.length_cons]
      omega
    · omega

theorem passes_quoted (mark : QuoteMark) : (Shape.quoted mark).PassesPayloads := by
  intro opcode start stop bytes handed token
  simp only [Shape.reading, passes_word_bind, passes_bytes_pure, Shape.payloadWords, Shape.token,
    Place.behind_behind, StoredRecord.wordAligned_eq]
  constructor
  · intro passage
    obtain ⟨length, body, rfl, fits, rfl, rfl, filled, rfl⟩ := passage
    rw [List.take_left' (length_bigEndianBytes 2 length), List.drop_left' (length_bigEndianBytes 2 length),
      bigEndian_bigEndianBytes_of_lt fits, List.length_append, length_bigEndianBytes]
    exact ⟨rfl, rfl, by omega, rfl⟩
  · intro described
    obtain ⟨rfl, rfl, filled, rfl⟩ := described
    have two : (bytes.take 2).length = 2 := List.length_take_of_le (by omega)
    have fits := bigEndian_lt (bytes.take 2)
    have same := bigEndianBytes_bigEndian (bytes.take 2)
    rw [two] at fits same
    refine ⟨bigEndian (bytes.take 2), bytes.drop 2, ?_, fits, rfl, congrArg start.behind ?_, ?_, rfl⟩
    · rw [same, List.take_append_drop]
    · rw [List.length_drop]
      omega
    · rw [List.length_drop]
      omega

theorem passes_extension : Shape.extension.PassesPayloads := by
  intro opcode start stop bytes handed token
  simp only [Shape.reading, passes_byte_bind, passes_skipped_bind, passes_word_pure, Shape.payloadWords,
    Shape.token, Place.behind_behind]
  constructor
  · intro passage
    obtain ⟨module, _, rfl, lead, offset, rfl, one, rfl, rfl, two, rfl⟩ := passage
    obtain ⟨skipped, rfl⟩ := List.length_eq_one_iff.mp one
    refine ⟨rfl, congrArg start.behind ?_, ?_, rfl⟩ <;>
      simp only [List.length_append, List.length_cons, List.length_nil, two]
  · intro described
    obtain ⟨rfl, rfl, filled, rfl⟩ := described
    rcases bytes with _ | ⟨module, _ | ⟨skipped, offset⟩⟩ <;>
      simp only [List.length_cons, List.length_nil] at filled
    iterate 2 omega
    refine ⟨module, _, rfl, [skipped], offset, rfl, rfl, rfl, congrArg start.behind ?_, by omega, rfl⟩
    simp only [List.length_cons]
    omega

theorem passes_remarkMark (mark : RemarkMark) : (Shape.remark mark).PassesPayloads := by
  intro opcode start stop bytes handed token
  simp only [Shape.reading, passes_skipped_bind, passes_byte_bind, passes_bytes_pure, Shape.payloadWords,
    Shape.token, Place.behind_behind, StoredRecord.wordAligned_eq]
  constructor
  · intro passage
    obtain ⟨lead, _, rfl, one, length, body, rfl, rfl, rfl, filled, rfl⟩ := passage
    obtain ⟨skipped, rfl⟩ := List.length_eq_one_iff.mp one
    refine ⟨rfl, congrArg start.behind ?_, ?_, rfl⟩
    · simp only [List.length_append, List.length_cons, List.length_nil]
      omega
    · change body.length + 2 = 2 * (1 + StoredRecord.wordsFor length.toNat)
      omega
  · intro described
    obtain ⟨rfl, rfl, filled, rfl⟩ := described
    rcases bytes with _ | ⟨skipped, _ | ⟨length, body⟩⟩ <;>
      simp only [List.getD_cons_zero, List.getD_cons_succ, List.length_cons, List.length_nil] at filled
    iterate 2 omega
    refine ⟨[skipped], _, rfl, rfl, length, body, rfl, rfl, congrArg start.behind ?_, by omega, rfl⟩
    simp only [List.length_cons]
    omega

theorem passes_shape (shape : Shape) : shape.PassesPayloads := by
  cases shape with
  | plain =>
    intro opcode start stop bytes handed token
    simp only [Shape.reading, passes_pure, Shape.payloadWords, Shape.token, Nat.mul_zero, List.length_eq_zero_iff]
    constructor
    · intro passage
      obtain ⟨rfl, rfl, rfl, rfl⟩ := passage
      exact ⟨rfl, rfl, rfl, rfl⟩
    · intro described
      obtain ⟨rfl, rfl, rfl, rfl⟩ := described
      exact ⟨rfl, rfl, rfl, rfl⟩
  | control words => exact fun _ _ _ _ _ _ => passes_skipped_pure
  | name use => exact passes_name use
  | quoted mark => exact passes_quoted mark
  | integer base => exact fun _ _ _ _ _ _ => passes_word_pure
  | float => exact fun _ _ _ _ _ _ => passes_word_pure
  | extension => exact passes_extension
  | remark mark => exact passes_remarkMark mark

theorem passes_shape_bind {α : Type} {shape : Shape} {opcode : UInt16} {next : Token → Reading α}
    {start stop : Place} {bytes : List UInt8} {handed : List Delivery} {value : α} :
    Passes (shape.reading opcode >>= next) start bytes handed stop value ↔
      ∃ payload rest, bytes = payload ++ rest ∧ payload.length = 2 * shape.payloadWords payload ∧
        Passes (next (shape.token opcode payload)) (start.behind payload.length) rest handed stop value := by
  rw [passes_bind]
  constructor
  · intro passage
    obtain ⟨payload, rest, _, late, middle, token, rfl, rfl, before, after⟩ := passage
    obtain ⟨rfl, rfl, filled, rfl⟩ := (passes_shape shape _ _ _ _ _ _).mp before
    exact ⟨payload, rest, rfl, filled, after⟩
  · intro passage
    obtain ⟨payload, rest, rfl, filled, after⟩ := passage
    have before := (passes_shape shape opcode start _ payload [] _).mpr ⟨rfl, rfl, filled, rfl⟩
    exact ⟨payload, rest, [], handed, _, _, rfl, rfl, before, after⟩

@[simp] theorem Shape.ofOpcode_name (use : NameUse) : Shape.ofOpcode use.opcode = name use := by
  cases use <;> rfl

@[simp] theorem Shape.ofOpcode_quoted (mark : QuoteMark) : Shape.ofOpcode mark.opcode = quoted mark := by
  cases mark <;> rfl

@[simp] theorem Shape.ofOpcode_integer (base : IntegerBase) : Shape.ofOpcode base.opcode = integer base := by
  cases base <;> rfl

@[simp] theorem Shape.ofOpcode_remark (mark : RemarkMark) : Shape.ofOpcode mark.opcode = remark mark := by
  cases mark <;> rfl

theorem Shape.ofOpcode_unlisted {opcode : UInt16} (unlisted : opcode ∉ Shape.shown.map Prod.fst) :
    Shape.ofOpcode opcode = (controlKeyword? opcode).elim plain fun keyword => control keyword.2 := by
  have none : Shape.shown.lookup opcode = none := by
    rw [List.lookup_eq_none_iff]
    intro entry member
    have other : opcode ≠ entry.1 := fun same => unlisted (same ▸ List.mem_map_of_mem member)
    simpa using other
  rw [Shape.ofOpcode, none]

theorem Opcode.cases_of_mem_shown {opcode : UInt16} (listed : opcode ∈ Shape.shown.map Prod.fst) :
    (∃ use : NameUse, opcode = use.opcode) ∨ (∃ mark : QuoteMark, opcode = mark.opcode) ∨
      (∃ base : IntegerBase, opcode = base.opcode) ∨ opcode = float ∨ opcode = extension ∨
      ∃ mark : RemarkMark, opcode = mark.opcode := by
  simp only [Shape.shown, List.map_cons, List.map_nil, List.mem_cons, List.not_mem_nil, or_false] at listed
  rcases listed with rfl | rfl | rfl | rfl | rfl | rfl | rfl | rfl | rfl | rfl | rfl | rfl | rfl
  · exact .inl ⟨.variableName, rfl⟩
  · exact .inl ⟨.label, rfl⟩
  · exact .inl ⟨.procedureCall, rfl⟩
  · exact .inl ⟨.labelReference, rfl⟩
  · exact .inr (.inl ⟨.double, rfl⟩)
  · exact .inr (.inl ⟨.single, rfl⟩)
  · exact .inr (.inr (.inl ⟨.binary, rfl⟩))
  · exact .inr (.inr (.inl ⟨.hexadecimal, rfl⟩))
  · exact .inr (.inr (.inl ⟨.decimal, rfl⟩))
  · exact .inr (.inr (.inr (.inl rfl)))
  · exact .inr (.inr (.inr (.inr (.inl rfl))))
  · exact .inr (.inr (.inr (.inr (.inr ⟨.rem, rfl⟩))))
  · exact .inr (.inr (.inr (.inr (.inr ⟨.quote, rfl⟩))))

theorem Shape.opcode_token (opcode : UInt16) (payload : List UInt8) :
    ((Shape.ofOpcode opcode).token opcode payload).opcode = opcode := by
  by_cases listed : opcode ∈ Shape.shown.map Prod.fst
  · rcases Opcode.cases_of_mem_shown listed with ⟨use, rfl⟩ | ⟨mark, rfl⟩ | ⟨base, rfl⟩ | rfl | rfl | ⟨mark, rfl⟩
    · rw [Shape.ofOpcode_name, Shape.token, Token.opcode]
    · rw [Shape.ofOpcode_quoted, Shape.token, Token.opcode]
    · rw [Shape.ofOpcode_integer, Shape.token, Token.opcode]
    · rfl
    · rfl
    · rw [Shape.ofOpcode_remark, Shape.token, Token.opcode]
  · rw [Shape.ofOpcode_unlisted listed]
    cases controlKeyword? opcode <;> rfl

def Opcode.Listed (opcode : UInt16) : Prop :=
  opcode = lineEnd ∨ opcode ∈ Shape.shown.map Prod.fst ∨ (controlKeyword? opcode).isSome ∨ (keyword? opcode).isSome

instance (opcode : UInt16) : Decidable (Opcode.Listed opcode) := inferInstanceAs (Decidable (_ ∨ _))

theorem Shape.listed_of_not_plain {opcode : UInt16} (shaped : Shape.ofOpcode opcode ≠ plain) :
    Opcode.Listed opcode := by
  by_cases shown : opcode ∈ Shape.shown.map Prod.fst
  · exact .inr (.inl shown)
  · rw [Shape.ofOpcode_unlisted shown] at shaped
    cases control : controlKeyword? opcode with
    | none =>
      rw [control] at shaped
      exact absurd rfl shaped
    | some keyword => exact .inr (.inr (.inl (Option.isSome_iff_exists.mpr ⟨keyword, control⟩)))

theorem Shape.listed_of_plain {opcode : UInt16} (plain : Shape.ofOpcode opcode = plain) :
    Opcode.Listed opcode ↔ opcode = Opcode.lineEnd ∨ (keyword? opcode).isSome := by
  have unshown : opcode ∉ Shape.shown.map Prod.fst := by
    intro shown
    rcases Opcode.cases_of_mem_shown shown with ⟨use, rfl⟩ | ⟨mark, rfl⟩ | ⟨base, rfl⟩ | rfl | rfl | ⟨mark, rfl⟩
    · cases (Shape.ofOpcode_name use).symm.trans plain
    · cases (Shape.ofOpcode_quoted mark).symm.trans plain
    · cases (Shape.ofOpcode_integer base).symm.trans plain
    · cases plain
    · cases plain
    · cases (Shape.ofOpcode_remark mark).symm.trans plain
  have bare : controlKeyword? opcode = none := by
    rw [Shape.ofOpcode_unlisted unshown] at plain
    cases control : controlKeyword? opcode with
    | none => rfl
    | some keyword =>
      rw [control] at plain
      cases plain
  rw [Opcode.Listed, bare]
  simp only [unshown, Option.isSome_none, Bool.false_eq_true, false_or]

theorem Shape.payload_token {shape : Shape} {payload : List UInt8} (opcode : UInt16)
    (filled : payload.length = 2 * shape.payloadWords payload) : (shape.token opcode payload).payload = payload := by
  cases shape with
  | plain => exact (List.length_eq_zero_iff.mp filled).symm
  | control words => rfl
  | name use =>
    rcases payload with _ | ⟨first, _ | ⟨second, _ | ⟨length, _ | ⟨flags, body⟩⟩⟩⟩ <;>
      simp only [Shape.payloadWords, List.length_cons, List.length_nil] at filled
    iterate 4 omega
    rfl
  | quoted mark =>
    simp only [Shape.payloadWords] at filled
    have two : (payload.take 2).length = 2 := List.length_take_of_le (by omega)
    have fits := bigEndian_lt (payload.take 2)
    have same := bigEndianBytes_bigEndian (payload.take 2)
    rw [two] at fits same
    simp only [Shape.token, Token.payload, UInt16.toNat_ofNat_of_lt' fits, same, List.take_append_drop]
  | integer base | float =>
    have fits := bigEndian_lt payload
    have same := bigEndianBytes_bigEndian payload
    simp only [Shape.payloadWords] at filled
    rw [filled] at fits same
    simpa only [Shape.token, Token.payload, UInt32.toNat_ofNat_of_lt' fits] using same
  | extension =>
    rcases payload with _ | ⟨module, _ | ⟨skipped, offset⟩⟩ <;>
      simp only [Shape.payloadWords, List.length_cons, List.length_nil] at filled
    iterate 2 omega
    have two : offset.length = 2 := by omega
    have fits := bigEndian_lt offset
    have same := bigEndianBytes_bigEndian offset
    rw [two] at fits same
    simp [Shape.token, Token.payload, UInt16.toNat_ofNat_of_lt' fits, same]
  | remark mark =>
    rcases payload with _ | ⟨skipped, _ | ⟨length, body⟩⟩ <;>
      simp only [Shape.payloadWords, List.length_cons, List.length_nil] at filled
    iterate 2 omega
    rfl

namespace StoredRecord

def token (record : StoredRecord) : Token :=
  (Shape.ofOpcode record.opcode).token record.opcode record.payload

theorem payloadWords_eq (record : StoredRecord) :
    record.payloadWords = (Shape.ofOpcode record.opcode).payloadWords record.payload := by
  obtain ⟨opcode, payload⟩ := record
  by_cases listed : opcode ∈ Shape.shown.map Prod.fst
  · rcases Opcode.cases_of_mem_shown listed with ⟨use, rfl⟩ | ⟨mark, rfl⟩ | ⟨base, rfl⟩ | rfl | rfl | ⟨mark, rfl⟩
    · cases use <;> rfl
    · cases mark <;> rfl
    · cases base <;> rfl
    · rfl
    · rfl
    · cases mark <;> rfl
  · rw [Shape.ofOpcode_unlisted listed]
    simp only [Shape.shown, List.map_cons, List.map_nil, List.mem_cons, List.not_mem_nil, or_false, not_or]
      at listed
    simp only [payloadWords, List.mem_cons, List.not_mem_nil, listed, or_self, if_false]
    cases controlKeyword? opcode <;> rfl

@[simp] theorem opcode_token (record : StoredRecord) : record.token.opcode = record.opcode :=
  Shape.opcode_token _ _

theorem WellFormed.payload_token {record : StoredRecord} (wellFormed : record.WellFormed) :
    record.token.payload = record.payload := by
  apply Shape.payload_token
  rw [← payloadWords_eq]
  exact wellFormed

theorem WellFormed.payloadWords_token {record : StoredRecord} (wellFormed : record.WellFormed) :
    record.token.payloadWords = record.payloadWords := by
  have filled : record.payload.length = 2 * record.payloadWords := wellFormed
  rw [Token.payloadWords, wellFormed.payload_token]
  omega

end StoredRecord

theorem passes_record_bind {α : Type} {options : DecodeOptions} {next : Record → Reading α} {start stop : Place}
    {bytes : List UInt8} {handed : List Delivery} {value : α} :
    Passes (Record.reading options >>= next) start bytes handed stop value ↔
      ∃ (stored : StoredRecord) (rest : List UInt8), bytes = stored.bytes ++ rest ∧ stored.WellFormed ∧
        Passes (next ⟨start.position, stored.token⟩) (start.behind (2 * stored.words)) rest handed stop value := by
  simp only [Record.reading_eq, LawfulMonad.bind_assoc, passes_currentPosition_bind, passes_word_bind,
    passes_shape_bind, passes_remarks_bind, passes_remark_bind, LawfulMonad.pure_bind, Place.behind_behind]
  constructor
  · intro passage
    obtain ⟨opcode, _, rfl, fits, payload, rest, rfl, filled, after⟩ := passage
    have number : (UInt16.ofNat opcode).toNat = opcode := UInt16.toNat_ofNat_of_lt' fits
    have wellFormed : StoredRecord.WellFormed ⟨UInt16.ofNat opcode, payload⟩ := by
      rw [StoredRecord.WellFormed, StoredRecord.payloadWords_eq]
      exact filled
    refine ⟨_, rest, ?_, wellFormed, ?_⟩
    · rw [StoredRecord.bytes, number, List.append_assoc]
    · rw [← wellFormed.length_bytes, StoredRecord.bytes, List.length_append, length_bigEndianBytes]
      exact after
  · intro stored
    obtain ⟨⟨opcode, payload⟩, rest, rfl, wellFormed, after⟩ := stored
    rw [← wellFormed.length_bytes, StoredRecord.bytes, List.length_append, length_bigEndianBytes] at after
    rw [StoredRecord.WellFormed, StoredRecord.payloadWords_eq] at wellFormed
    refine ⟨opcode.toNat, payload ++ rest, ?_, opcode.toNat_lt, payload, rest, rfl, ?_⟩
    · rw [StoredRecord.bytes, List.append_assoc]
    · rw [UInt16.ofNat_toNat]
      exact ⟨wellFormed, after⟩

end AmosBasic
