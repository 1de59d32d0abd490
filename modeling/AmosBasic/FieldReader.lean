import AmosBasic.Bytes

namespace AmosBasic

attribute [local instance(2000)] instPowNat

/-- A reader of fields as data: where it begins, and what it answers to a request for a field. A failure says why
there is no such field. -/
structure FieldReader where
  State : Type
  start : List UInt8 → State
  readWord : (count : Nat) → State → Except String (UInt32 × State)
  readBit : State → Except String (Bool × State)
  readByte : (count : Nat) → State → Except String (UInt8 × State)

namespace FieldReader

def field (bytes : List UInt8) (place count : Nat) : Nat :=
  bigEndian bytes / 2 ^ (8 * bytes.length - (place + count)) % 2 ^ count

def advance (width count : Nat) (bytes : List UInt8) (place : Nat) : Except String (Nat × List UInt8 × Nat) :=
  let available := 8 * bytes.length
  if width < count then
    .error s!"Requested {count} bits while the type can only hold {width} (position {place})"
  else if available < place + count then
    .error s!"Requested {count} bits with only {available - place}/{available} bits left (position {place})"
  else .ok (field bytes place count, bytes, place + count)

/-- Keeps the bytes and the number of bits that have been read. -/
def ofBytes : FieldReader where
  State := List UInt8 × Nat
  start bytes := (bytes, 0)
  readWord count state := do
    let (number, next) ← advance 32 count state.1 state.2
    return (UInt32.ofNat number, next)
  readBit state := do
    let (number, next) ← advance 1 1 state.1 state.2
    return (number = 1, next)
  readByte count state := do
    let (number, next) ← advance 8 count state.1 state.2
    return (UInt8.ofNat number, next)

end FieldReader

end AmosBasic
