import AmosBasic.Line.Encoding
import AmosBasic.Proofs.Float.Literal
import AmosBasic.Proofs.Float.Text
import AmosBasic.Proofs.Line.Number
import AmosBasic.Proofs.Text.Latin1

namespace AmosBasic

open Numeral

inductive LineOperation where
  | token (opcode : UInt16)
  | keyword (opcode : UInt16)
  | name (use : NameUse) (letters : List UInt8) (flags : UInt8)
  | quoted (mark : QuoteMark) (text : List UInt8)
  | integer (base : IntegerBase) (word : UInt32)
  | float (word : UInt32)
  | extension (module : UInt8) (offset : UInt16)
  | remark (mark : RemarkMark) (comment : List UInt8)

/-- The text has a character for each of the bytes but the NULs at their end. -/
def Latin1.Shows (bytes : List UInt8) (text : String) : Prop :=
  ∃ nuls, bytes.map UInt8.toNat = text.toList.map Char.toNat ++ List.replicate nuls 0 ∧
    text.toList.getLast? ≠ some '\x00'

/-- Labels end in a colon, and other names in a mark of their type, which their two lowest flags tell. -/
inductive NameUse.Ends (flags : UInt8) : NameUse → String → Prop
  | label : Ends flags label ":"
  | float {use : NameUse} (other : use ≠ label) (low : flags.toNat.testBit 0 = true) : Ends flags use "#"
  | string {use : NameUse} (other : use ≠ label) (low : flags.toNat.testBit 0 = false)
      (next : flags.toNat.testBit 1 = true) : Ends flags use "$"
  | integer {use : NameUse} (other : use ≠ label) (low : flags.toNat.testBit 0 = false)
      (next : flags.toNat.testBit 1 = false) : Ends flags use ""

inductive FloatFormat.Stores : FloatFormat → UInt32 → Binary32 → Prop
  | amos {word : UInt32} {number : Binary32} (pattern : AmosPattern)
      (bytes : bigEndianBytes 4 word.toNat = pattern.bytes) (exact : pattern.Exact number) : Stores amos word number
  | ieee (word : UInt32) : Stores ieee word ⟨word⟩

inductive Binary32.Lists (number : Binary32) : String → Prop
  | finite {text : String} {numeral : DecimalNumeral} (finite : number.isFinite)
      (reads : ReadsBack text number numeral) : number.Lists text
  | infinite (infinite : number.isInfinite) : number.Lists (if number.negative then "-inf" else "inf")
  | undefined (undefined : number.isNaN) : number.Lists "NaN"

namespace LineOperation

def written : LineOperation → Token
  | token opcode => .plain opcode
  | keyword opcode => .ofControl opcode
  | name use letters flags => .ofName use letters flags
  | quoted mark text => .ofQuoted mark text
  | integer base word => .integer base word
  | float word => .float word
  | extension module offset => .ofCommand module offset
  | remark mark comment => .ofRemark mark comment

def Valid : LineOperation → Prop
  | token opcode => opcode ∉ Shape.shown.map Prod.fst ∧ controlKeyword? opcode = none
  | keyword opcode => (controlKeyword? opcode).isSome
  | name _ letters _ | remark _ letters => letters.length ≤ 255
  | quoted .. | integer .. | float _ | extension .. => True

instance : (operation : LineOperation) → Decidable operation.Valid
  | token opcode =>
    inferInstanceAs (Decidable (opcode ∉ Shape.shown.map Prod.fst ∧ controlKeyword? opcode = none))
  | keyword opcode => inferInstanceAs (Decidable ((controlKeyword? opcode).isSome = true))
  | name _ letters _ | remark _ letters => inferInstanceAs (Decidable (letters.length ≤ 255))
  | quoted .. | integer .. | float _ | extension .. => inferInstanceAs (Decidable True)

/-- What stands in a listing for an operation, told from the tables, the letters and the numbers alone. -/
inductive Lists (options : DecodeOptions) : LineOperation → String → Prop
  | lineEnd : Lists options (token Opcode.lineEnd) ""
  | word {opcode : UInt16} {word : String} (within : opcode ≠ Opcode.lineEnd) (listed : (opcode, word) ∈ keywords) :
      Lists options (token opcode) word
  | bracketed {opcode : UInt16} {digits : List Char} (style : options.unknownOpcode = .bracketed)
      (within : opcode ≠ Opcode.lineEnd) (unlisted : opcode ∉ keywords.map Prod.fst)
      (spells : Spells 16 digits opcode.toNat) : Lists options (token opcode) ("[0x" ++ String.ofList digits ++ "]")
  | permissive {opcode : UInt16} {digits : List Char} (style : options.unknownOpcode = .permissive)
      (within : opcode ≠ Opcode.lineEnd) (unlisted : opcode ∉ keywords.map Prod.fst)
      (spells : Spells 16 digits opcode.toNat) : Lists options (token opcode) (" 0x" ++ String.ofList digits)
  | control {opcode : UInt16} {word : String} {count : Nat} (listed : (opcode, word, count) ∈ controlKeywords) :
      Lists options (keyword opcode) word
  | name {use : NameUse} {letters : List UInt8} {flags : UInt8} {shown suffix : String}
      (shows : Latin1.Shows letters shown) (ends : use.Ends flags suffix) :
      Lists options (name use letters flags) (shown ++ suffix)
  | doubleQuoted {text : List UInt8} {shown : String} (shows : Latin1.Shows text shown) :
      Lists options (quoted .double text) ("\"" ++ shown ++ "\"")
  | singleQuoted {text : List UInt8} {shown : String} (shows : Latin1.Shows text shown) :
      Lists options (quoted .single text) ("'" ++ shown ++ "'")
  | integer {base : IntegerBase} {word : UInt32} {text : String} (writes : base.Writes word.toInt32.toInt text) :
      Lists options (integer base word) text
  | float {word : UInt32} {number : Binary32} {text : String} (stores : options.floatFormat.Stores word number)
      (lists : number.Lists text) : Lists options (float word) text
  | command {module : UInt8} {offset : UInt16} {text : String} (listed : ((module, offset), text) ∈ extensionCommands) :
      Lists options (extension module offset) text
  | place {module : UInt8} {offset : UInt16} {number place : List Char}
      (unlisted : (module, offset) ∉ extensionCommands.map Prod.fst) (extension : Spells 10 number module.toNat)
      (within : Spells 16 place offset.toNat) :
      Lists options (.extension module offset) ("[ext" ++ String.ofList number ++ "(0x" ++ String.ofList place ++ ")]")
  | remark {comment : List UInt8} {shown : String} (shows : Latin1.Shows comment shown) :
      Lists options (remark .rem comment) ("REM " ++ shown)
  | apostrophe {comment : List UInt8} {shown : String} (shows : Latin1.Shows comment shown) :
      Lists options (remark .quote comment) ("'" ++ shown)

end LineOperation

theorem Latin1.shows_decodePadded (bytes : List UInt8) : Shows bytes (decodePadded bytes) := by
  obtain ⟨nuls, whole⟩ := exists_trimPadding_append bytes
  have characters : (decodePadded bytes).toList = (trimPadding bytes).map character := String.toList_ofList
  refine ⟨nuls, ?_, ?_⟩
  · rw [characters, List.map_map]
    conv_lhs => rw [whole]
    simp [Function.comp_def, toNat_character]
  · rw [characters, List.getLast?_map]
    intro last
    obtain ⟨byte, found, zero⟩ := Option.map_eq_some_iff.mp last
    have nul : byte = 0 := UInt8.toNat_inj.mp (by rw [← toNat_character, zero]; rfl)
    exact getLast?_trimPadding bytes (nul ▸ found)

theorem NameUse.ends_suffix (use : NameUse) (flags : UInt8) : use.Ends flags (use.suffix flags) := by
  have low : flags.toNat.testBit 0 = decide (flags.toNat % 2 = 1) := Nat.testBit_zero _
  have next : flags.toNat.testBit 1 = decide (flags.toNat / 2 % 2 = 1) := by
    rw [Nat.testBit_succ, Nat.testBit_zero]
  by_cases label : use = .label
  · subst label
    exact .label
  · have suffix : use.suffix flags =
        if flags.toNat % 2 = 1 then "#" else if flags.toNat / 2 % 2 = 1 then "$" else "" := by
      cases use <;> first | rfl | exact absurd rfl label
    rw [suffix]
    split
    · exact .float label (by rw [low]; exact decide_eq_true ‹_›)
    · split
      · exact .string label (by rw [low]; exact decide_eq_false ‹_›) (by rw [next]; exact decide_eq_true ‹_›)
      · exact .integer label (by rw [low]; exact decide_eq_false ‹_›) (by rw [next]; exact decide_eq_false ‹_›)

theorem FloatFormat.stores_decode (format : FloatFormat) (word : UInt32) : format.Stores word (format.decode word) := by
  cases format with
  | amos =>
    obtain ⟨first, second, third, last, bytes⟩ := List.length_eq_four.mp (length_bigEndianBytes 4 word.toNat)
    let pattern : AmosPattern := ⟨first, second, third, last⟩
    have reads : amos.read [first, second, third, last] = .ok pattern.number :=
      readAmos_of_lawful FieldReader.ofBytes_lawful pattern
    have same : decode amos word = pattern.number := by rw [decode, bytes, reads]
    rw [same]
    exact .amos pattern bytes pattern.exact_number
  | ieee =>
    have same : decode ieee word = ⟨word⟩ := by
      rw [decode, FloatFormat.read]
      simp only [bigEndian_bigEndianBytes_uint32, UInt32.ofNat_toNat]
    rw [same]
    exact .ieee word

theorem Binary32.lists_text (number : Binary32) : number.Lists number.text := by
  by_cases finite : number.isFinite
  · exact .finite finite (text_reads_back finite)
  · by_cases undefined : number.isNaN
    · rw [text, if_pos undefined]
      exact .undefined undefined
    · have infinite : number.isInfinite := by
        simp [isFinite, isNaN, isInfinite] at finite undefined ⊢
        exact ⟨finite, undefined finite⟩
      have shown : number.text = if number.negative then "-inf" else "inf" := by
        rw [text, if_neg undefined, if_pos infinite]
        cases number.negative <;> rfl
      rw [shown]
      exact .infinite infinite

theorem mem_of_lookup {α β : Type} [BEq α] [LawfulBEq α] {table : List (α × β)} {key : α} {value : β}
    (found : table.lookup key = some value) : (key, value) ∈ table := by
  obtain ⟨before, after, whole, -⟩ := List.lookup_eq_some_iff.mp found
  simp [whole]

theorem notMem_of_lookup {α β : Type} [BEq α] [LawfulBEq α] {table : List (α × β)} {key : α}
    (missing : table.lookup key = none) : key ∉ table.map Prod.fst := by
  intro member
  obtain ⟨entry, among, rfl⟩ := List.mem_map.mp member
  simpa using List.lookup_eq_none_iff.mp missing entry among

namespace LineOperation

variable (options : DecodeOptions)

theorem lists_plain (opcode : UInt16) :
    (token opcode).Lists options (Token.plainText options.unknownOpcode opcode) := by
  rw [Token.plainText]
  split
  · subst opcode
    exact .lineEnd
  · have within : opcode ≠ Opcode.lineEnd := ‹_›
    have spells : Spells 16 (Nat.toDigits 16 opcode.toNat) opcode.toNat := spells_toDigits (by decide) (by decide)
    cases found : keyword? opcode with
    | some word => exact .word within (mem_of_lookup found)
    | none =>
      have unlisted := notMem_of_lookup found
      cases style : options.unknownOpcode with
      | bracketed =>
        have shown : UnknownOpcodeStyle.bracketed.text opcode =
            "[0x" ++ String.ofList (Nat.toDigits 16 opcode.toNat) ++ "]" := rfl
        rw [Option.getD_none, shown]
        exact .bracketed style within unlisted spells
      | permissive =>
        have shown : UnknownOpcodeStyle.permissive.text opcode =
            " 0x" ++ String.ofList (Nat.toDigits 16 opcode.toNat) := by
          simp only [UnknownOpcodeStyle.text, hexadecimal, numeral, ← String.append_assoc]
          rfl
        rw [Option.getD_none, shown]
        exact .permissive style within unlisted spells

theorem lists_command (module : UInt8) (offset : UInt16) :
    (extension module offset).Lists options
      ((extensionCommand? module offset).getD (Token.unlistedCommand module offset)) := by
  cases found : extensionCommand? module offset with
  | some command => exact .command (mem_of_lookup found)
  | none =>
    have shown : Token.unlistedCommand module offset = "[ext" ++ String.ofList (Nat.toDigits 10 module.toNat) ++
        "(0x" ++ String.ofList (Nat.toDigits 16 offset.toNat) ++ ")]" := by
      simp only [Token.unlistedCommand, hexadecimal, numeral, Nat.toString_eq_repr, Nat.repr_eq_ofList_toDigits,
        String.append_assoc]
      rfl
    rw [Option.getD_none, shown]
    exact .place (notMem_of_lookup found) (spells_toDigits (by decide) (by decide))
      (spells_toDigits (by decide) (by decide))

theorem lists_written {operation : LineOperation} (valid : operation.Valid) :
    operation.Lists options (operation.written.text options) := by
  cases operation with
  | token opcode => exact lists_plain options opcode
  | keyword opcode =>
    obtain ⟨⟨word, count⟩, found⟩ := Option.isSome_iff_exists.mp valid
    simp only [written, Token.ofControl, Token.text, found, Option.elim_some]
    exact .control (mem_of_lookup found)
  | name use letters flags =>
    simp only [written, Token.ofName, Token.text, Latin1.decodePadded_padded]
    exact .name (Latin1.shows_decodePadded letters) (use.ends_suffix flags)
  | quoted mark text =>
    simp only [written, Token.ofQuoted, Token.text, Latin1.decodePadded_padded]
    cases mark with
    | double => exact .doubleQuoted (Latin1.shows_decodePadded text)
    | single => exact .singleQuoted (Latin1.shows_decodePadded text)
  | integer base word => exact .integer (base.writes_text word)
  | float word => exact .float (options.floatFormat.stores_decode word) (Binary32.lists_text _)
  | extension module offset => exact lists_command options module offset
  | remark mark comment =>
    simp only [written, Token.ofRemark, Token.text, Latin1.decodePadded_padded]
    cases mark with
    | rem => exact .remark (Latin1.shows_decodePadded comment)
    | quote => exact .apostrophe (Latin1.shows_decodePadded comment)

end LineOperation

end AmosBasic
