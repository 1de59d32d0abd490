import AmosBasic.Proofs.Line.Acceptance
import AmosBasic.Proofs.Text.Numeral
import Mathlib.Data.List.Basic

namespace AmosBasic

open Numeral

namespace IntegerBase

/-- How a signed number of 32 bits is written. Only a decimal literal shows a sign; the others show the number
modulo `2 ^ 32`. -/
inductive Writes : IntegerBase → Int → String → Prop
  | binary {value : Int} {digits : List Char} (spells : Spells 2 digits (value % 2 ^ 32).toNat) :
      Writes binary value ("%" ++ String.ofList digits)
  | hexadecimal {value : Int} {digits : List Char} (spells : Spells 16 digits (value % 2 ^ 32).toNat) :
      Writes hexadecimal value ("$" ++ String.ofList digits)
  | decimal {value : Int} {digits : List Char} (spells : Spells 10 digits value.natAbs) :
      Writes decimal value ((if value < 0 then "-" else "") ++ String.ofList digits)

def read? (base : IntegerBase) (text : String) : Option Int :=
  match base with
  | binary => do
    let number ← Numeral.read? 2 (← text.toList.dropPrefix? ['%'])
    return number
  | hexadecimal => do
    let number ← Numeral.read? 16 (← text.toList.dropPrefix? ['$'])
    return number
  | decimal => readSigned? text.toList

end IntegerBase

def UnknownOpcodeStyle.read? (style : UnknownOpcodeStyle) (text : String) : Option Nat :=
  match style with
  | bracketed => do
    let (opcode, rest) ← readFront? 16 (← text.toList.dropPrefix? ['[', '0', 'x'])
    if rest = [']'] then return opcode else none
  | permissive => do Numeral.read? 16 (← text.toList.dropPrefix? [' ', '0', 'x'])

def Token.readCommand? (text : String) : Option (Nat × Nat) := do
  let (module, rest) ← readFront? 10 (← text.toList.dropPrefix? ['[', 'e', 'x', 't'])
  let (offset, rest) ← readFront? 16 (← rest.dropPrefix? ['(', '0', 'x'])
  if rest = [')', ']'] then return (module, offset) else none

/-- In no table: neither the end of a line, nor an opcode whose payload is shown, nor a keyword. -/
def Opcode.Unlisted (opcode : UInt16) : Prop :=
  opcode ≠ lineEnd ∧ opcode ∉ Shape.shown.map Prod.fst ∧ controlKeyword? opcode = none ∧ keyword? opcode = none

theorem toList_numeral (base number : Nat) : (numeral base number).toList = Nat.toDigits base number :=
  String.toList_ofList

theorem toNat_toInt_emod {width : Nat} (pattern : BitVec width) :
    (pattern.toInt % 2 ^ width).toNat = pattern.toNat := by
  have power : (2 : Int) ^ width = (2 ^ width : Nat) := by simp
  have fits : (pattern.toNat : Int) < (2 ^ width : Nat) := Int.ofNat_lt.mpr pattern.isLt
  rw [BitVec.toInt_eq_toNat_bmod, power, Int.bmod_emod, Int.emod_eq_of_lt (Int.natCast_nonneg _) fits,
    Int.toNat_natCast]

namespace IntegerBase

variable (base : IntegerBase) (word : UInt32)

theorem writes_text : base.Writes word.toInt32.toInt (base.text word) := by
  have unsigned : (word.toInt32.toInt % 2 ^ 32).toNat = word.toNat := toNat_toInt_emod word.toBitVec
  cases base with
  | binary =>
    refine .binary ?_
    rw [unsigned]
    exact spells_toDigits (by decide) (by decide)
  | hexadecimal =>
    refine .hexadecimal ?_
    rw [unsigned]
    exact spells_toDigits (by decide) (by decide)
  | decimal =>
    have text : decimal.text word = toString word.toInt32.toInt :=
      congrArg toString (BitVec.toInt_eq_toNat_bmod _).symm
    have digits : Spells 10 (Nat.toDigits 10 word.toInt32.toInt.natAbs) word.toInt32.toInt.natAbs :=
      spells_toDigits (by decide) (by decide)
    rw [text, Int.toString_eq_repr, Int.repr_eq_if]
    convert Writes.decimal digits using 1
    split <;> rename_i sign
    · rw [if_neg (by omega), String.empty_append, Nat.repr_eq_ofList_toDigits,
        show word.toInt32.toInt.toNat = word.toInt32.toInt.natAbs by omega]
    · rw [if_pos (by omega), Nat.repr_eq_ofList_toDigits,
        show (-word.toInt32.toInt).toNat = word.toInt32.toInt.natAbs by omega]

theorem read?_text : (base.read? (base.text word)).map (Int.bmod · (2 ^ 32)) = some word.toInt32.toInt := by
  have pattern : word.toInt32.toInt = Int.bmod word.toNat (2 ^ 32) := BitVec.toInt_eq_toNat_bmod _
  cases base with
  | binary =>
    have digits : (text binary word).toList = ['%'] ++ Nat.toDigits 2 word.toNat := by
      rw [text, String.toList_append, toList_numeral]
      rfl
    rw [read?, digits, List.dropPrefix?_append_of_beq _ (beq_self_eq_true _), pattern]
    simp [read?_toDigits]
  | hexadecimal =>
    have digits : (text hexadecimal word).toList = ['$'] ++ Nat.toDigits 16 word.toNat := by
      rw [text, String.toList_append, toList_numeral]
      rfl
    rw [read?, digits, List.dropPrefix?_append_of_beq _ (beq_self_eq_true _), pattern]
    simp [read?_toDigits]
  | decimal =>
    rw [read?, text, readSigned?_toString, pattern, Option.map_some, twosComplement, Int.bmod_bmod]

end IntegerBase

section Unlisted

variable (style : UnknownOpcodeStyle) (module : UInt8) (opcode offset : UInt16)

theorem UnknownOpcodeStyle.read?_text : style.read? (style.text opcode) = some opcode.toNat := by
  cases style with
  | bracketed =>
    have digits : (text bracketed opcode).toList = ['[', '0', 'x'] ++ (Nat.toDigits 16 opcode.toNat ++ [']']) := by
      simp only [text, hexadecimal, String.toList_append, toList_numeral]
      rfl
    have front : readFront? 16 (Nat.toDigits 16 opcode.toNat ++ [']']) = some (opcode.toNat, [']']) :=
      readFront?_toDigits (by decide) (by decide) (by simp; rfl)
    rw [read?, digits, List.dropPrefix?_append_of_beq _ (beq_self_eq_true _)]
    simp [front]
  | permissive =>
    have digits : (text permissive opcode).toList = [' ', '0', 'x'] ++ Nat.toDigits 16 opcode.toNat := by
      simp only [text, hexadecimal, String.toList_append, toList_numeral]
      rfl
    rw [read?, digits, List.dropPrefix?_append_of_beq _ (beq_self_eq_true _)]
    exact read?_toDigits (by decide) (by decide)

theorem Token.readCommand?_unlistedCommand :
    readCommand? (unlistedCommand module offset) = some (module.toNat, offset.toNat) := by
  have text : (unlistedCommand module offset).toList = ['[', 'e', 'x', 't'] ++ (Nat.toDigits 10 module.toNat ++
      (['(', '0', 'x'] ++ (Nat.toDigits 16 offset.toNat ++ [')', ']']))) := by
    simp only [unlistedCommand, hexadecimal, String.toList_append, toList_numeral, Nat.toString_eq_repr,
      Nat.toList_repr, List.append_assoc]
    rfl
  have first : readFront? 10 (Nat.toDigits 10 module.toNat ++
      (['(', '0', 'x'] ++ (Nat.toDigits 16 offset.toNat ++ [')', ']']))) = some (module.toNat, _) :=
    readFront?_toDigits (by decide) (by decide) (by simp; rfl)
  have second : readFront? 16 (Nat.toDigits 16 offset.toNat ++ [')', ']']) = some (offset.toNat, _) :=
    readFront?_toDigits (by decide) (by decide) (by simp; rfl)
  rw [readCommand?, text, List.dropPrefix?_append_of_beq _ (beq_self_eq_true _)]
  simp only [Option.bind_eq_bind, Option.bind_some, first, second,
    List.dropPrefix?_append_of_beq _ (beq_self_eq_true _), if_true]
  rfl

end Unlisted

namespace StoredRecord

def ofInteger (base : IntegerBase) (word : UInt32) : StoredRecord :=
  ⟨base.opcode, bigEndianBytes 4 word.toNat⟩

def ofCommand (module skipped : UInt8) (offset : UInt16) : StoredRecord :=
  ⟨Opcode.extension, module :: skipped :: bigEndianBytes 2 offset.toNat⟩

def ofPlain (opcode : UInt16) : StoredRecord :=
  ⟨opcode, []⟩

theorem token_ofInteger (base : IntegerBase) (word : UInt32) : (ofInteger base word).token = .integer base word := by
  simp only [token, ofInteger, Shape.ofOpcode_integer, Shape.token, bigEndian_bigEndianBytes_uint32, UInt32.ofNat_toNat]

theorem token_ofCommand (module skipped : UInt8) (offset : UInt16) :
    (ofCommand module skipped offset).token = .extension module skipped offset := by
  have shape : Shape.ofOpcode Opcode.extension = .extension := rfl
  simp only [token, ofCommand, shape, Shape.token, List.getD_cons_zero, List.getD_cons_succ, List.drop_succ_cons,
    List.drop_zero, bigEndian_bigEndianBytes_uint16, UInt16.ofNat_toNat]

theorem shape_unlisted {opcode : UInt16} (unlisted : Opcode.Unlisted opcode) : Shape.ofOpcode opcode = .plain := by
  rw [Shape.ofOpcode_unlisted unlisted.2.1, unlisted.2.2.1]
  rfl

theorem text_ofPlain {opcode : UInt16} (unlisted : Opcode.Unlisted opcode) (options : DecodeOptions) :
    (ofPlain opcode).token.text options = options.unknownOpcode.text opcode := by
  simp only [token, ofPlain, shape_unlisted unlisted, Shape.token, Token.text, Token.plainText, if_neg unlisted.1,
    unlisted.2.2.2, Option.getD_none]

theorem text_ofCommand {module : UInt8} {offset : UInt16} (unlisted : extensionCommand? module offset = none)
    (skipped : UInt8) (options : DecodeOptions) :
    (ofCommand module skipped offset).token.text options = Token.unlistedCommand module offset := by
  rw [token_ofCommand, Token.text, unlisted, Option.getD_none]

variable {record : StoredRecord}

theorem WellFormed.ofInteger (wellFormed : record.WellFormed) {base : IntegerBase}
    (named : record.opcode = base.opcode) :
    ∃ word, record = .ofInteger base word := by
  obtain ⟨opcode, payload⟩ := record
  obtain rfl : opcode = base.opcode := named
  rw [WellFormed, payloadWords_eq, Shape.ofOpcode_integer] at wellFormed
  obtain ⟨word, rfl⟩ := exists_eq_bigEndianBytes_uint32 wellFormed
  exact ⟨word, rfl⟩

theorem WellFormed.ofCommand (wellFormed : record.WellFormed) (named : record.opcode = Opcode.extension) :
    ∃ module skipped offset, record = .ofCommand module skipped offset := by
  obtain ⟨opcode, payload⟩ := record
  obtain rfl : opcode = Opcode.extension := named
  have filled : payload.length = 4 := wellFormed
  obtain ⟨module, rest, rfl⟩ := List.exists_cons_of_length_eq_add_one filled
  obtain ⟨skipped, rest, rfl⟩ := List.exists_cons_of_length_eq_add_one (Nat.succ.inj filled)
  obtain ⟨offset, rfl⟩ := exists_eq_bigEndianBytes_uint16 (Nat.succ.inj (Nat.succ.inj filled))
  exact ⟨module, skipped, offset, rfl⟩

theorem WellFormed.ofPlain (wellFormed : record.WellFormed) (unlisted : Opcode.Unlisted record.opcode) :
    record = .ofPlain record.opcode := by
  rw [WellFormed, payloadWords_eq, shape_unlisted unlisted] at wellFormed
  rw [StoredRecord.ofPlain, ← List.length_eq_zero_iff.mp wellFormed]

end StoredRecord

/-- An integer literal shows its number in its base, and a command or an opcode that is in no table shows where it is
from. All of these can be read back, so that different ones have different texts. Every record of a line that is read
has one of these forms if it has such an opcode, and its text is in the line. -/
theorem listing_keeps_numbers (options : DecodeOptions) :
    let shown (record : StoredRecord) : String := record.token.text options
    (∀ (base : IntegerBase) (word : UInt32),
      base.Writes word.toInt32.toInt (shown (.ofInteger base word)) ∧
      (base.read? (shown (.ofInteger base word))).map (Int.bmod · (2 ^ 32)) = some word.toInt32.toInt) ∧
    (∀ (base : IntegerBase) (word other : UInt32),
      shown (.ofInteger base word) = shown (.ofInteger base other) → word = other) ∧
    (∀ (module skipped : UInt8) (offset : UInt16), extensionCommand? module offset = none →
      Token.readCommand? (shown (.ofCommand module skipped offset)) =
        some (module.toNat, (offset.toInt16.toInt % 2 ^ 16).toNat)) ∧
    (∀ (module skipped otherModule otherSkipped : UInt8) (offset otherOffset : UInt16),
      extensionCommand? module offset = none → extensionCommand? otherModule otherOffset = none →
      shown (.ofCommand module skipped offset) = shown (.ofCommand otherModule otherSkipped otherOffset) →
      module = otherModule ∧ offset = otherOffset) ∧
    (∀ opcode : UInt16, Opcode.Unlisted opcode →
      options.unknownOpcode.read? (shown (.ofPlain opcode)) = some opcode.toNat) ∧
    (∀ opcode other : UInt16, Opcode.Unlisted opcode → Opcode.Unlisted other →
      shown (.ofPlain opcode) = shown (.ofPlain other) → opcode = other) ∧
    ∀ (σ : Type) (sink : Sink σ) (machine : Machine σ) (declared indent : UInt8) (records : List StoredRecord)
      (rest : List UInt8), StoredLine declared records →
      machine.unread = StoredLine.bytes declared indent records ++ rest →
      ∃ line final, (Line.reading options).run sink machine = (.ok line, final) ∧
        line.text = Line.indentation indent ++ String.join (records.map shown) ∧
        ∀ record ∈ records,
          (∀ base : IntegerBase, record.opcode = base.opcode → ∃ word, record = .ofInteger base word) ∧
          (record.opcode = Opcode.extension → ∃ module skipped offset, record = .ofCommand module skipped offset) ∧
          (Opcode.Unlisted record.opcode → record = .ofPlain record.opcode) := by
  intro shown
  have integer (base : IntegerBase) (word : UInt32) : shown (.ofInteger base word) = base.text word :=
    congrArg (Token.text options) (StoredRecord.token_ofInteger base word)
  have command {module : UInt8} {offset : UInt16} (unlisted : extensionCommand? module offset = none)
      (skipped : UInt8) : Token.readCommand? (shown (.ofCommand module skipped offset)) =
        some (module.toNat, offset.toNat) := by
    rw [← Token.readCommand?_unlistedCommand]
    exact congrArg Token.readCommand? (StoredRecord.text_ofCommand unlisted skipped options)
  have plain {opcode : UInt16} (unlisted : Opcode.Unlisted opcode) :
      options.unknownOpcode.read? (shown (.ofPlain opcode)) = some opcode.toNat := by
    rw [← options.unknownOpcode.read?_text]
    exact congrArg options.unknownOpcode.read? (StoredRecord.text_ofPlain unlisted options)
  refine ⟨fun base word => ?_, fun base word other same => ?_, fun module skipped offset unlisted => ?_, ?_,
    fun opcode unlisted => plain unlisted, fun opcode other unlisted otherUnlisted same => ?_, ?_⟩
  · rw [integer]
    exact ⟨base.writes_text word, base.read?_text word⟩
  · -- Numbers of 32 bits that are the same modulo `2 ^ 32` are the same.
    have numbers := base.read?_text word
    rw [← integer, same, integer, base.read?_text] at numbers
    exact (congrArg Int32.toUInt32 (Int32.toInt_inj.mp (Option.some.inj numbers))).symm
  · have unsigned : (offset.toInt16.toInt % 2 ^ 16).toNat = offset.toNat := toNat_toInt_emod offset.toBitVec
    rw [command unlisted, unsigned]
  · intro module skipped otherModule otherSkipped offset otherOffset unlisted otherUnlisted same
    have places := command unlisted skipped
    rw [same, command otherUnlisted] at places
    obtain ⟨modules, offsets⟩ := Prod.mk.inj (Option.some.inj places)
    exact ⟨UInt8.toNat_inj.mp modules.symm, UInt16.toNat_inj.mp offsets.symm⟩
  · have numbers := plain unlisted
    rw [same, plain otherUnlisted] at numbers
    exact UInt16.toNat_inj.mp (Option.some.inj numbers).symm
  · intro σ sink machine declared indent records rest shape unread
    obtain ⟨line, final, success, read, -⟩ := read_stored_line sink options shape unread
    refine ⟨line, final, success, read.text, fun record member => ?_⟩
    have wellFormed := shape.wellFormed record member
    exact ⟨fun base => wellFormed.ofInteger, wellFormed.ofCommand, wellFormed.ofPlain⟩

end AmosBasic
