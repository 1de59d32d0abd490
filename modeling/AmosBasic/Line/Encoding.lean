import AmosBasic.Line

namespace AmosBasic

namespace Token

/-- A name with its length. Only the low byte of the length fits in its field. -/
def ofName (use : NameUse) (name : List UInt8) (flags : UInt8) : Token :=
  .name use [0, 0] (UInt8.ofNat name.length) flags (padded name)

def ofQuoted (mark : QuoteMark) (text : List UInt8) : Token :=
  .quoted mark (UInt16.ofNat text.length) (padded text)

def ofRemark (mark : RemarkMark) (text : List UInt8) : Token :=
  .remark mark 0 (UInt8.ofNat text.length) (padded text)

def ofControl (opcode : UInt16) : Token :=
  .control opcode (List.replicate ((controlKeyword? opcode).elim 0 fun keyword => 2 * keyword.2) 0)

def ofCommand (module : UInt8) (offset : UInt16) : Token :=
  .extension module 0 offset

def lineEnd : Token := .plain Opcode.lineEnd

end Token

namespace Line

def encodeBody (indent : UInt8) (body : List UInt8) : List UInt8 :=
  UInt8.ofNat (1 + body.length / 2) :: indent :: body

def encode (indent : UInt8) (tokens : List Token) : List UInt8 :=
  encodeBody indent ((tokens ++ [Token.lineEnd]).flatMap Token.encode)

end Line

end AmosBasic
