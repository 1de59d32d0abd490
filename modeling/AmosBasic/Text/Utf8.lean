namespace AmosBasic.Utf8

def replacement : Char := '\uFFFD'

/-- What the first byte of a character promises: its own bits, the range of the byte after it,
and how many further bytes follow that one. -/
structure Lead where
  bits : Nat
  low : UInt8
  high : UInt8
  more : Nat

/-- The first byte of a character of two to four bytes. Overlong forms, surrogates and numbers
past U+10FFFF are excluded by the range of the second byte. -/
def lead? (byte : UInt8) : Option Lead :=
  let bits := byte.toNat
  if byte < 0xC2 then none
  else if byte < 0xE0 then some ⟨bits - 0xC0, 0x80, 0xBF, 0⟩
  else if byte = 0xE0 then some ⟨0, 0xA0, 0xBF, 1⟩
  else if byte = 0xED then some ⟨0xD, 0x80, 0x9F, 1⟩
  else if byte < 0xF0 then some ⟨bits - 0xE0, 0x80, 0xBF, 1⟩
  else if byte = 0xF0 then some ⟨0, 0x90, 0xBF, 2⟩
  else if byte < 0xF4 then some ⟨bits - 0xF0, 0x80, 0xBF, 2⟩
  else if byte = 0xF4 then some ⟨4, 0x80, 0x8F, 2⟩
  else none

def continuation (bits used : Nat) : Nat → UInt8 → UInt8 → List UInt8 → Char × Nat
  | more, low, high, byte :: rest =>
    if low ≤ byte ∧ byte ≤ high then
      let bits := 64 * bits + (byte.toNat - 0x80)
      match more with
      | 0 => (Char.ofNat bits, used + 1)
      | more + 1 => continuation bits (used + 1) more 0x80 0xBF rest
    else (replacement, used)
  | _, _, _, [] => (replacement, used)

def character (byte : UInt8) (rest : List UInt8) : Char × Nat :=
  if byte < 0x80 then (Char.ofNat byte.toNat, 0)
  else match lead? byte with
    | none => (replacement, 0)
    | some first => continuation first.bits 0 first.more first.low first.high rest

def decodeLossyChars : List UInt8 → List Char
  | [] => []
  | byte :: rest =>
    let (read, used) := character byte rest
    read :: decodeLossyChars (rest.drop used)
termination_by bytes => bytes.length

def decodeLossy (bytes : List UInt8) : String :=
  String.ofList (decodeLossyChars bytes)

end AmosBasic.Utf8
