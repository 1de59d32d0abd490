import AmosBasic.Proofs.Line.Acceptance
import AmosBasic.Proofs.Line.Operation
import Mathlib.Data.List.Forall2

namespace AmosBasic

def Token.stored (token : Token) : StoredRecord :=
  ⟨token.opcode, token.payload⟩

/-- The token is what the record of its bytes means. -/
structure Token.Storable (token : Token) : Prop where
  wellFormed : token.stored.WellFormed
  same : token.stored.token = token

theorem Token.storable_of_shape {token : Token} {shape : Shape} (opcode : Shape.ofOpcode token.opcode = shape)
    (filled : token.payload.length = 2 * shape.payloadWords token.payload)
    (same : shape.token token.opcode token.payload = token) : token.Storable where
  wellFormed := by
    rw [StoredRecord.WellFormed, StoredRecord.payloadWords_eq, stored, opcode]
    exact filled
  same := by
    rw [StoredRecord.token, stored, opcode]
    exact same

theorem Token.storable_ofName {letters : List UInt8} (short : letters.length ≤ 255) (use : NameUse)
    (flags : UInt8) : (Token.ofName use letters flags).Storable := by
  have length : (UInt8.ofNat letters.length).toNat = letters.length :=
    UInt8.toNat_ofNat_of_lt' (Nat.lt_succ_of_le short)
  refine storable_of_shape (Shape.ofOpcode_name use) ?_ rfl
  simp only [ofName, payload, Shape.payloadWords, List.length_append, List.length_cons, List.length_nil, length_padded,
    StoredRecord.wordAligned_eq]
  change 2 + (2 * StoredRecord.wordsFor letters.length + 1 + 1) =
    2 * (2 + StoredRecord.wordsFor (UInt8.ofNat letters.length).toNat)
  rw [length]
  omega

theorem Token.storable_ofRemark {comment : List UInt8} (short : comment.length ≤ 255) (mark : RemarkMark) :
    (Token.ofRemark mark comment).Storable := by
  have length : (UInt8.ofNat comment.length).toNat = comment.length :=
    UInt8.toNat_ofNat_of_lt' (Nat.lt_succ_of_le short)
  refine storable_of_shape (Shape.ofOpcode_remark mark) ?_ rfl
  simp only [ofRemark, payload, Shape.payloadWords, List.length_cons, length_padded, StoredRecord.wordAligned_eq]
  change 2 * StoredRecord.wordsFor comment.length + 1 + 1 =
    2 * (1 + StoredRecord.wordsFor (UInt8.ofNat comment.length).toNat)
  rw [length]
  omega

theorem Token.storable_ofQuoted {text : List UInt8} (short : text.length < 2 ^ 16) (mark : QuoteMark) :
    (Token.ofQuoted mark text).Storable := by
  have length : (UInt16.ofNat text.length).toNat = text.length := UInt16.toNat_ofNat_of_lt' short
  have front : (bigEndianBytes 2 text.length ++ padded text).take 2 = bigEndianBytes 2 text.length :=
    List.take_left' (length_bigEndianBytes 2 _)
  have back : (bigEndianBytes 2 text.length ++ padded text).drop 2 = padded text :=
    List.drop_left' (length_bigEndianBytes 2 _)
  have number : bigEndian (bigEndianBytes 2 text.length) = text.length := bigEndian_bigEndianBytes_of_lt short
  refine storable_of_shape (Shape.ofOpcode_quoted mark) ?_ ?_
  · simp only [ofQuoted, payload, Shape.payloadWords, length, front, number, List.length_append,
      length_bigEndianBytes, length_padded, StoredRecord.wordAligned_eq]
    omega
  · simp only [ofQuoted, payload, Shape.token, length, front, back, number]

theorem Token.storable_integer (base : IntegerBase) (word : UInt32) : (Token.integer base word).Storable := by
  have opcode : Shape.ofOpcode base.opcode = .integer base := by cases base <;> rfl
  refine storable_of_shape opcode (length_bigEndianBytes 4 _) ?_
  simp only [payload, Shape.token, bigEndian_bigEndianBytes_uint32, UInt32.ofNat_toNat]

theorem Token.storable_float (word : UInt32) : (Token.float word).Storable := by
  have opcode : Shape.ofOpcode Opcode.float = .float := rfl
  refine storable_of_shape opcode (length_bigEndianBytes 4 _) ?_
  simp only [payload, Shape.token, bigEndian_bigEndianBytes_uint32, UInt32.ofNat_toNat]

theorem Token.storable_ofCommand (module : UInt8) (offset : UInt16) : (Token.ofCommand module offset).Storable := by
  have opcode : Shape.ofOpcode Opcode.extension = .extension := rfl
  refine storable_of_shape opcode ?_ ?_
  · simp [ofCommand, payload, Shape.payloadWords]
  · simp only [ofCommand, payload, Shape.token, List.getD_cons_zero, List.getD_cons_succ, List.drop_succ_cons,
      List.drop_zero, bigEndian_bigEndianBytes_uint16, UInt16.ofNat_toNat]

theorem Token.storable_plain {opcode : UInt16} (unlisted : opcode ∉ Shape.shown.map Prod.fst)
    (bare : controlKeyword? opcode = none) : (Token.plain opcode).Storable := by
  have shape : Shape.ofOpcode opcode = .plain := by rw [Shape.ofOpcode_unlisted unlisted, bare]; rfl
  exact storable_of_shape shape rfl rfl

theorem unlisted_of_controlKeyword? {opcode : UInt16} {keyword : String × Nat}
    (control : controlKeyword? opcode = some keyword) : opcode ∉ Shape.shown.map Prod.fst := by
  have apart : ∀ entry ∈ controlKeywords, entry.1 ∉ Shape.shown.map Prod.fst := by decide
  exact apart _ (mem_of_lookup control)

theorem Token.storable_ofControl {opcode : UInt16} {keyword : String × Nat}
    (control : controlKeyword? opcode = some keyword) : (Token.ofControl opcode).Storable := by
  have shape : Shape.ofOpcode opcode = .control keyword.2 := by
    rw [Shape.ofOpcode_unlisted (unlisted_of_controlKeyword? control), control]
    rfl
  refine storable_of_shape shape ?_ rfl
  simp [ofControl, payload, control, Shape.payloadWords]

/-- Every valid operation is written as a token that can be stored, if a string has no more bytes than its
length can say. -/
theorem LineOperation.storable_written {operation : LineOperation} (valid : operation.Valid)
    (short : operation.written.payload.length < 2 ^ 16) : operation.written.Storable := by
  cases operation with
  | token opcode => exact Token.storable_plain valid.1 valid.2
  | keyword opcode =>
    obtain ⟨keyword, control⟩ := Option.isSome_iff_exists.mp valid
    exact Token.storable_ofControl control
  | name use letters flags => exact Token.storable_ofName valid use flags
  | quoted mark text =>
    refine Token.storable_ofQuoted ?_ mark
    -- The padding can only make the payload longer.
    simp only [written, Token.ofQuoted, Token.payload, List.length_append, length_padded, wordAligned] at short
    omega
  | integer base word => exact Token.storable_integer base word
  | float word => exact Token.storable_float word
  | extension module offset => exact Token.storable_ofCommand module offset
  | remark mark comment => exact Token.storable_ofRemark valid mark

theorem Token.storable_lineEnd : Token.lineEnd.Storable :=
  Token.storable_plain (by decide) (by decide)

structure LineDraft where
  indent : UInt8
  operations : List LineOperation

namespace LineDraft

def tokens (draft : LineDraft) : List Token :=
  draft.operations.map LineOperation.written ++ [Token.lineEnd]

def encode (draft : LineDraft) : List UInt8 :=
  Line.encode draft.indent (draft.operations.map LineOperation.written)

structure Valid (draft : LineDraft) : Prop where
  operations : ∀ operation ∈ draft.operations, operation.Valid
  fits : draft.encode.length ≤ 2 * 255

instance (draft : LineDraft) : Decidable draft.Valid :=
  decidable_of_iff ((∀ operation ∈ draft.operations, operation.Valid) ∧ draft.encode.length ≤ 2 * 255)
    ⟨fun ⟨operations, fits⟩ => ⟨operations, fits⟩, fun ⟨operations, fits⟩ => ⟨operations, fits⟩⟩

def records (draft : LineDraft) : List StoredRecord :=
  draft.tokens.map Token.stored

def declared (draft : LineDraft) : UInt8 :=
  UInt8.ofNat (draft.encode.length / 2)

theorem flatMap_records (draft : LineDraft) :
    draft.records.flatMap StoredRecord.bytes = draft.tokens.flatMap Token.encode :=
  List.flatMap_map ..

theorem encode_eq (draft : LineDraft) :
    draft.encode = StoredLine.bytes draft.declared draft.indent draft.records := by
  have half : draft.encode.length / 2 = 1 + (draft.tokens.flatMap Token.encode).length / 2 := by
    change ((draft.tokens.flatMap Token.encode).length + 1 + 1) / 2 = _
    omega
  rw [StoredLine.bytes, flatMap_records, declared, half]
  rfl

variable {draft : LineDraft}

theorem Valid.storable (valid : draft.Valid) {token : Token} (member : token ∈ draft.tokens) : token.Storable := by
  have whole : token.encode.length ≤ (draft.tokens.flatMap Token.encode).length :=
    (List.sublist_flatten_of_mem (List.mem_map_of_mem member)).length_le
  have fits : (draft.tokens.flatMap Token.encode).length + 1 + 1 ≤ 2 * 255 := valid.fits
  have short : token.payload.length < 2 ^ 16 := by
    rw [Token.encode, List.length_append] at whole
    omega
  rcases List.mem_append.mp member with written | last
  · obtain ⟨operation, among, rfl⟩ := List.mem_map.mp written
    exact LineOperation.storable_written (valid.operations operation among) short
  · rw [List.mem_singleton.mp last]
    exact Token.storable_lineEnd

theorem Valid.wellFormed (valid : draft.Valid) : ∀ record ∈ draft.records, record.WellFormed := by
  intro record member
  obtain ⟨token, among, rfl⟩ := List.mem_map.mp member
  exact (valid.storable among).wellFormed

theorem Valid.stored (valid : draft.Valid) : StoredLine draft.declared draft.records where
  wellFormed := valid.wellFormed
  fills := by
    have length := length_flatMap_bytes valid.wellFormed
    have fits := valid.fits
    have half : draft.encode.length / 2 = 1 + (draft.records.map StoredRecord.words).sum := by
      rw [encode_eq, StoredLine.bytes, List.length_cons, List.length_cons, length]
      omega
    have small : 1 + (draft.records.map StoredRecord.words).sum < 256 := by omega
    rw [declared, half]
    exact (UInt8.toNat_ofNat_of_lt' small).symm
  ends := by
    simp only [records, tokens, List.map_append, List.map_cons, List.map_nil, List.getLast?_append,
      List.getLast?_singleton, Option.some_or, Option.mem_def, Option.some.injEq]
    intro last same
    rw [← same]
    rfl

structure ReadAs (options : DecodeOptions) (draft : LineDraft) (line : Line) : Prop where
  level : line.indent = draft.indent
  tokens : line.records.map Record.token = draft.tokens
  text : ∃ texts, List.Forall₂ (LineOperation.Lists options) draft.operations texts ∧
    line.text = String.ofList (List.replicate (draft.indent.toNat - 1) ' ') ++ String.join texts

theorem Valid.tokens_placed (valid : draft.Valid) (start : Nat) :
    (StoredRecord.placed start draft.records).map Record.token = draft.tokens := by
  refine (map_token_placed id start draft.records).trans ?_
  rw [records, List.map_map]
  refine (List.map_congr_left fun token member => ?_).trans (List.map_id _)
  exact (valid.storable member).same

theorem Valid.readAs_line (valid : draft.Valid) (options : DecodeOptions) (start : Nat) :
    ReadAs options draft (StoredLine.line options start draft.declared draft.indent draft.records) where
  level := rfl
  tokens := valid.tokens_placed _
  text := by
    let texts := (draft.operations.map LineOperation.written).map (Token.text options)
    refine ⟨texts, ?_, ?_⟩
    · rw [List.forall₂_map_right_iff, List.forall₂_map_right_iff, List.forall₂_same]
      exact fun operation member => LineOperation.lists_written options (valid.operations operation member)
    · have written := congrArg (List.map (Token.text options)) (valid.tokens_placed (start + 2))
      rw [List.map_map, LineDraft.tokens, List.map_append] at written
      -- Nothing is listed for the end of the line.
      have joined : String.join (texts ++ [""]) = String.join texts := by simp [String.join]
      rw [← joined]
      exact congrArg (Line.indentation draft.indent ++ String.join ·) written

end LineDraft

end AmosBasic
