import AmosBasic.Proofs.Float.Fields
import AmosBasic.Proofs.Float.Text
import AmosBasic.Proofs.Line.Acceptance

namespace AmosBasic

open Binary32

namespace StoredRecord

def ofFloat (word : UInt32) : StoredRecord :=
  ⟨Opcode.float, bigEndianBytes 4 word.toNat⟩

theorem token_ofFloat (word : UInt32) : (ofFloat word).token = .float word := by
  have shape : Shape.ofOpcode Opcode.float = .float := rfl
  simp only [token, ofFloat, shape, Shape.token, bigEndian_bigEndianBytes_uint32, UInt32.ofNat_toNat]

theorem WellFormed.ofFloat {record : StoredRecord} (wellFormed : record.WellFormed)
    (named : record.opcode = Opcode.float) : ∃ word, record = .ofFloat word := by
  obtain ⟨opcode, payload⟩ := record
  obtain rfl : opcode = Opcode.float := named
  obtain ⟨word, rfl⟩ := exists_eq_bigEndianBytes_uint32 wellFormed
  exact ⟨word, rfl⟩

end StoredRecord

theorem FloatFormat.exists_read (format : FloatFormat) (word : UInt32) :
    ∃ number, format.read (bigEndianBytes 4 word.toNat) = .ok number ∧ format.decode word = number := by
  obtain ⟨number, read⟩ := format.read_bytes (length_bigEndianBytes 4 word.toNat)
  refine ⟨number, read, ?_⟩
  rw [decode, read]

/-- A float literal shows a decimal numeral that rounds to its number, and to no other, and no decimal of fewer digits
does so. It has an exponent where the number is less than the one nearest to `0.0001`, unless it is zero, and from
`10 ^ 16` on. So literals of different numbers have different texts, in whatever format they are stored. The literals
of a line that is read are in its text. -/
theorem listing_keeps_floats (options : DecodeOptions) :
    let shown (options : DecodeOptions) (word : UInt32) : String := (StoredRecord.ofFloat word).token.text options
    RoundsTo false (1 / 10 ^ 4) tenThousandth ∧
    (∀ word : UInt32, ∃ number, options.floatFormat.read (bigEndianBytes 4 word.toNat) = .ok number ∧
      (number.isFinite → ∃ numeral, ReadsBack (shown options word) number numeral)) ∧
    (∀ (otherOptions : DecodeOptions) (word other : UInt32) (number otherNumber : Binary32),
      options.floatFormat.read (bigEndianBytes 4 word.toNat) = .ok number →
      otherOptions.floatFormat.read (bigEndianBytes 4 other.toNat) = .ok otherNumber →
      number.isFinite → otherNumber.isFinite → shown options word = shown otherOptions other →
      number = otherNumber) ∧
    ∀ (σ : Type) (sink : Sink σ) (machine : Machine σ) (declared indent : UInt8) (records : List StoredRecord)
      (rest : List UInt8), StoredLine declared records →
      machine.unread = StoredLine.bytes declared indent records ++ rest →
      ∃ line final, (Line.reading options).run sink machine = (.ok line, final) ∧
        line.text = Line.indentation indent ++ String.join (records.map fun record => record.token.text options) ∧
        ∀ record ∈ records, record.opcode = Opcode.float →
          ∃ word, record = .ofFloat word ∧ record.token.text options = shown options word := by
  intro shown
  have text (options : DecodeOptions) (word : UInt32) : shown options word = (options.floatFormat.decode word).text :=
    congrArg (Token.text options) (StoredRecord.token_ofFloat word)
  have readsBack {options : DecodeOptions} {word : UInt32} {number : Binary32}
      (read : options.floatFormat.read (bigEndianBytes 4 word.toNat) = .ok number) (finite : number.isFinite) :
      ReadsBack (shown options word) number number.shownNumeral := by
    obtain ⟨same, again, decoded⟩ := options.floatFormat.exists_read word
    rw [read] at again
    cases again
    rw [text, decoded]
    exact text_reads_back finite
  refine ⟨roundsTo_tenThousandth, fun word => ?_, ?_, ?_⟩
  · obtain ⟨number, read, -⟩ := options.floatFormat.exists_read word
    exact ⟨number, read, fun finite => ⟨_, readsBack read finite⟩⟩
  · intro otherOptions word other number otherNumber read otherRead finite otherFinite same
    have first := readsBack read finite
    rw [same] at first
    exact first.unique (readsBack otherRead otherFinite)
  · intro σ sink machine declared indent records rest shape unread
    obtain ⟨line, final, success, read, -⟩ := read_stored_line sink options shape unread
    refine ⟨line, final, success, read.text, fun record member named => ?_⟩
    obtain ⟨word, rfl⟩ := (shape.wellFormed record member).ofFloat named
    exact ⟨word, rfl, rfl⟩

end AmosBasic
