import AmosBasic.Line.Reading
import AmosBasic.Proofs.Float.Fields
import AmosBasic.Reading.Lemmas

namespace AmosBasic

open Reading

theorem Token.check_eq (options : DecodeOptions) (token : Token) : token.check options = pure () := by
  cases token with
  | float word =>
    obtain ⟨number, read⟩ := options.floatFormat.read_bytes (length_bigEndianBytes 4 word.toNat)
    simp only [check, read]
  | _ => rfl

theorem Record.reading_eq (options : DecodeOptions) :
    Record.reading options = do
      let offset ← currentPosition
      let opcode := UInt16.ofNat (← word 2)
      let token ← (Shape.ofOpcode opcode).reading opcode
      let behind ← currentPosition
      (token.warning? behind).toList.forM remark
      remark (.record offset opcode token.payloadWords (token.text options))
      return { offset, token } := by
  simp only [reading, Token.check_eq, pure_bind]

end AmosBasic
