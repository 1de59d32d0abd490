import AmosBasic.Token

namespace AmosBasic

attribute [local instance(2000)] Zero.ofOfNat0

structure Record where
  offset : Nat
  token : Token
  deriving DecidableEq

namespace Record

def opcode (record : Record) : UInt16 :=
  record.token.opcode

def words (record : Record) : Nat :=
  1 + record.token.payloadWords

end Record

structure Line where
  indent : UInt8
  declaredWords : Nat
  records : List Record
  text : String
  deriving DecidableEq

namespace Line

/-- Level one starts at the left margin, and so does level zero. -/
def indentation (indent : UInt8) : String :=
  String.ofList (List.replicate (indent.toNat - 1) ' ')

def textOf (options : DecodeOptions) (indent : UInt8) (records : List Record) : String :=
  indentation indent ++ String.join (records.map fun record => record.token.text options)

/-- The two bytes in front of the records count as a word. -/
def wordsConsumed (line : Line) : Nat :=
  1 + (line.records.map Record.words).sum

def lastOpcode? (line : Line) : Option UInt16 :=
  line.records.getLast?.map Record.opcode

end Line

end AmosBasic
