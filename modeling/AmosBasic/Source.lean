namespace AmosBasic

/-- What comes after the last byte: a normal end, or a failure that lasts. -/
inductive Ending where
  | finished
  | broken (text : String)
  deriving DecidableEq

/-- One answer of a source: how often it asks to be called again before it answers, and how many
bytes it gives at most. It always gives one if there is one. -/
structure Beat where
  interruptions : Nat := 0
  most? : Option Nat := none

def Beat.take (beat : Beat) (wanted : Nat) : Nat :=
  match beat.most? with
  | none => wanted
  | some most => min wanted (max 1 most)

structure Source where
  bytes : List UInt8
  ending : Ending := .finished
  pace : Nat → Beat := fun _ => {}
  answers : Nat := 0
  interruptions : Nat := 0

inductive Gathering where
  | filled
  | ended
  | failed (text : String)
  deriving DecidableEq

structure Gathered where
  bytes : Array UInt8
  outcome : Gathering
  source : Source

namespace Source

inductive Answer where
  | interrupted
  | bytes (bytes : List UInt8)
  | failed (text : String)

def due (source : Source) : Nat :=
  (source.pace source.answers).interruptions - source.interruptions

/-- Calls the source once for `wanted` bytes. An answer without bytes means that it has ended. -/
def read (source : Source) (wanted : Nat) : Answer × Source :=
  let beat := source.pace source.answers
  if source.due ≠ 0 then (.interrupted, { source with interruptions := source.interruptions + 1 })
  else
    let answered := { source with answers := source.answers + 1, interruptions := 0 }
    match source.bytes, source.ending with
    | [], .finished => (.bytes [], answered)
    | [], .broken text => (.failed text, answered)
    | first :: rest, _ =>
      let count := beat.take wanted
      (.bytes ((first :: rest).take count), { answered with bytes := (first :: rest).drop count })

theorem due_of_interrupted {source next : Source} {wanted : Nat}
    (h : source.read wanted = (.interrupted, next)) : next.due < source.due := by
  unfold read at h
  split at h
  · obtain ⟨-, rfl⟩ := Prod.mk.inj h
    simp only [due] at *
    omega
  · split at h <;> simp at h

def gather (source : Source) (wanted : Nat) (got : Array UInt8) : Gathered :=
  if wanted = 0 then ⟨got, .filled, source⟩
  else match _answer : source.read wanted with
    | (.interrupted, next) => next.gather wanted got
    | (.failed text, next) => ⟨got, .failed text, next⟩
    | (.bytes [], next) => ⟨got, .ended, next⟩
    | (.bytes (byte :: piece), next) =>
      next.gather (wanted - (piece.length + 1)) ((got.push byte) ++ piece)
termination_by (wanted, source.due)
decreasing_by
  · exact Prod.Lex.right _ (due_of_interrupted _answer)
  · exact Prod.Lex.left _ _ (by omega)

end Source

end AmosBasic
