import AmosBasic.Float.Literal
import AmosBasic.Numeral

namespace AmosBasic

inductive UnknownOpcodeStyle where
  | bracketed
  | permissive
  deriving DecidableEq

def UnknownOpcodeStyle.text (style : UnknownOpcodeStyle) (opcode : UInt16) : String :=
  match style with
  | bracketed => "[" ++ hexadecimal opcode.toNat ++ "]"
  | permissive => " " ++ hexadecimal opcode.toNat

structure DecodeOptions where
  floatFormat : FloatFormat := .amos
  unknownOpcode : UnknownOpcodeStyle := .bracketed
  deriving DecidableEq

end AmosBasic
