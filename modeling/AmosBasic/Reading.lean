import AmosBasic.Cursor
import AmosBasic.Delivery

namespace AmosBasic

structure Progress where
  linesRead : Nat := 0
  bankCount? : Option Nat := none
  banksRead : Nat := 0
  currentBank? : Option UInt16 := none
  deriving DecidableEq

/-- A decoder as data: which bytes it wants next, and what it does with them. `take` and `skip` fail when the stream
ends too early, and only `take` makes a note of that. -/
inductive Reading (α : Type) where
  | done (value : α)
  | fail (error : DecodeError)
  | take (count : Nat) (next : List UInt8 → Reading α)
  | skip (count : Nat) (next : List UInt8 → Reading α)
  | position (next : Nat → Reading α)
  | progress (next : Progress → Reading α)
  | setProgress (progress : Progress) (next : Reading α)
  | note (note : Note) (next : Reading α)
  | deliver (delivery : Delivery) (next : Reading α)

namespace Reading

def bind {α β : Type} : Reading α → (α → Reading β) → Reading β
  | done value, f => f value
  | fail error, _ => fail error
  | take count next, f => take count fun bytes => (next bytes).bind f
  | skip count next, f => skip count fun bytes => (next bytes).bind f
  | position next, f => position fun place => (next place).bind f
  | progress next, f => progress fun state => (next state).bind f
  | setProgress state next, f => setProgress state (next.bind f)
  | note remark next, f => note remark (next.bind f)
  | deliver delivery next, f => deliver delivery (next.bind f)

instance : Monad Reading where
  pure := done
  bind := bind

def bytes (count : Nat) : Reading (List UInt8) := take count done

/-- The next `count` bytes, of which nothing is wanted but their place. -/
def skipped (count : Nat) : Reading (List UInt8) := skip count done

def currentPosition : Reading Nat := position done

def currentProgress : Reading Progress := progress done

def updateProgress (change : Progress → Progress) : Reading Unit :=
  progress fun state => setProgress (change state) (done ())

def remark (remark : Note) : Reading Unit := note remark (done ())

def handOver (delivery : Delivery) : Reading Unit := deliver delivery (done ())

def corrupt {α : Type} (offset : Nat) (reason : Corruption) : Reading α :=
  fail (.corruptStream (some offset) reason)

def byte : Reading UInt8 := do return ((← bytes 1).headD 0)

def word (count : Nat) : Reading Nat := do return bigEndian (← bytes count)

end Reading

/-- All that a run changes: the cursor, the notes so far, the progress, and the receiver. -/
structure Machine (σ : Type) where
  cursor : Cursor
  receiver : σ
  notes : Array Note := #[]
  progress : Progress := {}

namespace Machine

variable {σ : Type}

def addNote (machine : Machine σ) (note : Note) : Machine σ :=
  { machine with notes := machine.notes.push note }

def draw (machine : Machine σ) (count : Nat) : Drawn × Machine σ :=
  let (drawn, cursor) := machine.cursor.draw count
  let drained := { machine with cursor }
  match drawn.outcome with
  | .ended => (drawn, drained.addNote (.shortRead machine.cursor.position count drawn.bytes.length))
  | _ => (drawn, drained)

def pass (machine : Machine σ) (count : Nat) : Drawn × Machine σ :=
  let (drawn, cursor) := machine.cursor.draw count
  (drawn, { machine with cursor })

def deliver (sink : Sink σ) (machine : Machine σ) (delivery : Delivery) : Option DecodeError × Machine σ :=
  let receipt := sink machine.receiver delivery
  (receipt.refusal, { machine with receiver := receipt.receiver, notes := machine.notes ++ receipt.notes })

end Machine

def Drawn.result (drawn : Drawn) (offset count : Nat) : Except DecodeError (List UInt8) :=
  match drawn.outcome with
  | .filled => .ok drawn.bytes
  | .ended => .error (.incompleteRead offset count drawn.bytes.length)
  | .failed text => .error (.io text)

def Reading.run {σ α : Type} (sink : Sink σ) : Reading α → Machine σ → Except DecodeError α × Machine σ
  | done value, machine => (.ok value, machine)
  | fail error, machine => (.error error, machine)
  | take count next, machine =>
    let (drawn, drained) := machine.draw count
    match drawn.result machine.cursor.position count with
    | .ok bytes => (next bytes).run sink drained
    | .error error => (.error error, drained)
  | skip count next, machine =>
    let (drawn, drained) := machine.pass count
    match drawn.result machine.cursor.position count with
    | .ok bytes => (next bytes).run sink drained
    | .error error => (.error error, drained)
  | position next, machine => (next machine.cursor.position).run sink machine
  | progress next, machine => (next machine.progress).run sink machine
  | setProgress state next, machine => next.run sink { machine with progress := state }
  | note remark next, machine => next.run sink (machine.addNote remark)
  | deliver delivery next, machine =>
    match machine.deliver sink delivery with
    | (none, delivered) => next.run sink delivered
    | (some error, delivered) => (.error error, delivered)

end AmosBasic
