import AmosBasic.Error
import AmosBasic.Source.Limited

namespace AmosBasic

structure Cursor where
  source : Source
  position : Nat := 0

structure Drawn where
  bytes : List UInt8
  outcome : Gathering
  deriving DecidableEq

namespace Cursor

def ofBytes (bytes : List UInt8) : Cursor :=
  { source := { bytes } }

/-- Takes `count` bytes from the source. When it fails, the bytes before the failure are gone from
the source but are not counted as consumed. -/
def draw (cursor : Cursor) (count : Nat) : Drawn × Cursor :=
  let gathered := cursor.source.gather count #[]
  let consumed := match gathered.outcome with
    | .failed _ => 0
    | _ => gathered.bytes.size
  (⟨gathered.bytes.toList, gathered.outcome⟩,
    { source := gathered.source, position := cursor.position + consumed })

def room : Nat := 0x2000

def drain {κ : Type} (put : κ → List UInt8 → κ) (size : κ → Nat) (empty : κ) (cursor : Cursor) (count : Nat) :
    Except DecodeError κ × Cursor :=
  let drained := Limited.drain room put ⟨cursor.source, count⟩ empty
  match drained.failure? with
  | some text => (.error (.io text), { cursor with source := drained.source })
  | none =>
    let got := size drained.kept
    let result := if got < count then .error (.incompleteRead cursor.position count got) else .ok drained.kept
    (result, { source := drained.source, position := cursor.position + got })

def collect : Cursor → Nat → Except DecodeError (Array UInt8) × Cursor :=
  drain (fun kept piece => kept ++ piece) Array.size #[]

def discard : Cursor → Nat → Except DecodeError Nat × Cursor :=
  drain (fun kept piece => kept + piece.length) id 0

end Cursor

end AmosBasic
