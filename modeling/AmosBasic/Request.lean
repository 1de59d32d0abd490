import AmosBasic.Reading

namespace AmosBasic

/-- Numbers are `size` bytes, most significant first. `fill` puts bytes over those of a buffer, and `array` over
those of a buffer of its own. -/
inductive Request where
  | bytes (count : Nat)
  | skip (count : Nat)
  | fill (buffer : List UInt8)
  | array (size : Nat)
  | unsigned (size : Nat)
  | signed (size : Nat)
  | float (format : FloatFormat)

inductive Reply where
  | nothing
  | bytes (bytes : List UInt8)
  | number (number : Int)
  | float (number : Binary32)
  deriving DecidableEq

namespace Machine

variable {σ : Type}

def noteShortage {α : Type} (machine : Machine σ) : Except DecodeError α → Machine σ
  | .error (.incompleteRead offset expected actual) => machine.addNote (.shortRead offset expected actual)
  | _ => machine

def collect (machine : Machine σ) (count : Nat) : Except DecodeError (Array UInt8) × Machine σ :=
  let (result, cursor) := machine.cursor.collect count
  (result, { machine with cursor }.noteShortage result)

def discard (machine : Machine σ) (count : Nat) : Except DecodeError Nat × Machine σ :=
  let (result, cursor) := machine.cursor.discard count
  (result, { machine with cursor })

end Machine

namespace Request

def size : Request → Nat
  | bytes count | skip count => count
  | fill buffer => buffer.length
  | array size | unsigned size | signed size => size
  | float _ => 4

def reply : Request → List UInt8 → Except DecodeError Reply
  | bytes _, read | array _, read => .ok (.bytes read)
  | skip _, _ | fill _, _ => .ok .nothing
  | unsigned _, read => .ok (.number (bigEndian read))
  | signed size, read => .ok (.number (twosComplement (8 * size) (bigEndian read)))
  | float format, read => (format.read read).map .float

/-- The buffer after a request. What was read before a failure is in it. -/
def bufferAfter (request : Request) (read : List UInt8) : List UInt8 :=
  match request with
  | fill buffer => read ++ buffer.drop read.length
  | _ => []

structure Response where
  result : Except DecodeError Reply
  buffer : List UInt8

/-- Bytes of any number are read to a limit, and so are those to be skipped. Only skipping too far goes without a
note. The other requests fill a buffer. -/
def perform {σ : Type} (request : Request) (machine : Machine σ) : Response × Machine σ :=
  match request with
  | bytes count =>
    let (result, drained) := machine.collect count
    (⟨result.bind fun read => request.reply read.toList, []⟩, drained)
  | skip count =>
    let (result, drained) := machine.discard count
    (⟨result.bind fun _ => request.reply [], []⟩, drained)
  | _ =>
    let (drawn, drained) := machine.draw request.size
    let result := drawn.result machine.cursor.position request.size
    (⟨result.bind request.reply, request.bufferAfter drawn.bytes⟩, drained)

def performAll {σ : Type} (machine : Machine σ) : List Request → List (Response × Nat) × Machine σ
  | [] => ([], machine)
  | request :: requests =>
    let (response, next) := request.perform machine
    let (responses, last) := performAll next requests
    ((response, next.cursor.position) :: responses, last)

end Request

end AmosBasic
