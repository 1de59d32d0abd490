import AmosBasic.Bytes
import AmosBasic.Float.Text
import AmosBasic.Keyword
import AmosBasic.Options
import AmosBasic.Text.Latin1

namespace AmosBasic

inductive NameUse where
  | variableName
  | label
  | procedureCall
  | labelReference
  deriving DecidableEq

inductive QuoteMark where
  | double
  | single
  deriving DecidableEq

inductive RemarkMark where
  | rem
  | quote
  deriving DecidableEq

inductive IntegerBase where
  | binary
  | hexadecimal
  | decimal
  deriving DecidableEq

/-- Names, strings and remarks have a declared length and a body, which is filled up to whole
words. The `skipped` bytes mean nothing to a listing. -/
inductive Token where
  | plain (opcode : UInt16)
  | control (opcode : UInt16) (skipped : List UInt8)
  | name (use : NameUse) (skipped : List UInt8) (length flags : UInt8) (body : List UInt8)
  | quoted (mark : QuoteMark) (length : UInt16) (body : List UInt8)
  | integer (base : IntegerBase) (word : UInt32)
  | float (word : UInt32)
  | extension (module : UInt8) (skipped : UInt8) (offset : UInt16)
  | remark (mark : RemarkMark) (skipped : UInt8) (length : UInt8) (body : List UInt8)
  deriving DecidableEq

inductive Shape where
  | plain
  | control (words : Nat)
  | name (use : NameUse)
  | quoted (mark : QuoteMark)
  | integer (base : IntegerBase)
  | float
  | extension
  | remark (mark : RemarkMark)
  deriving DecidableEq

def NameUse.opcode : NameUse → UInt16
  | variableName => Opcode.variableName
  | label => Opcode.label
  | procedureCall => Opcode.procedureCall
  | labelReference => Opcode.labelReference

def QuoteMark.opcode : QuoteMark → UInt16
  | double => Opcode.doubleQuoted
  | single => Opcode.singleQuoted

def QuoteMark.text : QuoteMark → String
  | double => "\""
  | single => "'"

def IntegerBase.opcode : IntegerBase → UInt16
  | binary => Opcode.binary
  | hexadecimal => Opcode.hexadecimal
  | decimal => Opcode.decimal

def RemarkMark.opcode : RemarkMark → UInt16
  | rem => Opcode.rem
  | quote => Opcode.remQuote

def RemarkMark.text : RemarkMark → String
  | rem => "REM "
  | quote => "'"

def Shape.shown : List (UInt16 × Shape) :=
  [(Opcode.variableName, name .variableName), (Opcode.label, name .label),
   (Opcode.procedureCall, name .procedureCall), (Opcode.labelReference, name .labelReference),
   (Opcode.doubleQuoted, quoted .double), (Opcode.singleQuoted, quoted .single),
   (Opcode.binary, integer .binary), (Opcode.hexadecimal, integer .hexadecimal),
   (Opcode.decimal, integer .decimal), (Opcode.float, float), (Opcode.extension, extension),
   (Opcode.rem, remark .rem), (Opcode.remQuote, remark .quote)]

/-- An opcode in no table is a word of its own. -/
def Shape.ofOpcode (opcode : UInt16) : Shape :=
  match shown.lookup opcode with
  | some shape => shape
  | none => (controlKeyword? opcode).elim plain fun keyword => control keyword.2

def IntegerBase.text (base : IntegerBase) (word : UInt32) : String :=
  match base with
  | binary => "%" ++ numeral 2 word.toNat
  | hexadecimal => "$" ++ numeral 16 word.toNat
  | decimal => toString (twosComplement 32 word.toNat)

/-- A label ends in a colon. Other names show their type: `#` for floats, `$` for strings. -/
def NameUse.suffix (use : NameUse) (flags : UInt8) : String :=
  match use with
  | label => ":"
  | _ => if flags.toNat % 2 = 1 then "#" else if flags.toNat / 2 % 2 = 1 then "$" else ""

namespace Token

def opcode : Token → UInt16
  | plain opcode | control opcode _ => opcode
  | name use .. => use.opcode
  | quoted mark .. => mark.opcode
  | integer base _ => base.opcode
  | float _ => Opcode.float
  | extension .. => Opcode.extension
  | remark mark .. => mark.opcode

def payload : Token → List UInt8
  | plain _ => []
  | control _ skipped => skipped
  | name _ skipped length flags body => skipped ++ length :: flags :: body
  | quoted _ length body => bigEndianBytes 2 length.toNat ++ body
  | integer _ word | float word => bigEndianBytes 4 word.toNat
  | extension module skipped offset => module :: skipped :: bigEndianBytes 2 offset.toNat
  | remark _ skipped length body => skipped :: length :: body

def encode (token : Token) : List UInt8 :=
  bigEndianBytes 2 token.opcode.toNat ++ token.payload

def payloadWords (token : Token) : Nat :=
  token.payload.length / 2

def unlistedCommand (module : UInt8) (offset : UInt16) : String :=
  "[ext" ++ toString module.toNat ++ "(" ++ hexadecimal offset.toNat ++ ")]"

def plainText (style : UnknownOpcodeStyle) (opcode : UInt16) : String :=
  if opcode = Opcode.lineEnd then "" else (keyword? opcode).getD (style.text opcode)

def text (options : DecodeOptions) : Token → String
  | plain opcode => plainText options.unknownOpcode opcode
  | control opcode _ => (controlKeyword? opcode).elim "" Prod.fst
  | name use _ _ flags body => Latin1.decodePadded body ++ use.suffix flags
  | quoted mark _ body => mark.text ++ Latin1.decodePadded body ++ mark.text
  | integer base word => base.text word
  | float word => (options.floatFormat.decode word).text
  | extension module _ offset => (extensionCommand? module offset).getD (unlistedCommand module offset)
  | remark mark _ _ body => mark.text ++ Latin1.decodePadded body

end Token

end AmosBasic
