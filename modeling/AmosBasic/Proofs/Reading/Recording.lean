import AmosBasic.Proofs.Reading.Replay

namespace AmosBasic

variable {σ : Type}

/-- Answers as `sink` does, and keeps what it was given in order. -/
def Sink.recorded (sink : Sink σ) : Sink (σ × List Delivery) := fun receiver delivery =>
  let receipt := sink receiver.1 delivery
  { receiver := (receipt.receiver, receiver.2 ++ [delivery]), notes := receipt.notes, refusal := receipt.refusal }

theorem Sink.accept?_recorded (sink : Sink σ) (receiver : σ) (calls handed : List Delivery) :
    sink.recorded.accept? (receiver, calls) handed =
      (sink.accept? receiver handed).map fun last => (last, calls ++ handed) := by
  induction handed generalizing receiver calls with
  | nil => simp [accept?]
  | cons delivery handed ih =>
    cases refusal : (sink receiver delivery).refusal with
    | none =>
      have rest := ih (sink receiver delivery).receiver (calls ++ [delivery])
      rw [List.append_assoc, List.singleton_append] at rest
      simp only [accept?, recorded, refusal, ← rest]
    | some error => simp only [accept?, recorded, refusal, Option.map_none]

theorem Sink.accept?_recorded_of_accept? {sink : Sink σ} {receiver last : σ} {handed : List Delivery}
    (accepted : sink.accept? receiver handed = some last) :
    sink.recorded.accept? (receiver, []) handed = some (last, handed) := by
  rw [accept?_recorded, accepted]
  rfl

theorem Sink.calls_of_accept?_recorded {sink : Sink σ} {receiver : σ} {last : σ × List Delivery}
    {handed : List Delivery} (accepted : sink.recorded.accept? (receiver, []) handed = some last) :
    last.2 = handed := by
  rw [accept?_recorded] at accepted
  obtain ⟨_, -, rfl⟩ := Option.map_eq_some_iff.mp accepted
  rfl

def Machine.recording (machine : Machine σ) (calls : List Delivery) : Machine (σ × List Delivery) :=
  { cursor := machine.cursor, receiver := (machine.receiver, calls), notes := machine.notes,
    progress := machine.progress }

theorem Machine.draw_recording (machine : Machine σ) (calls : List Delivery) (count : Nat) :
    (machine.recording calls).draw count = ((machine.draw count).1, (machine.draw count).2.recording calls) := by
  simp only [draw, recording]
  split <;> rfl

namespace Reading

theorem run_recorded {α : Type} (sink : Sink σ) (reading : Reading α) (machine : Machine σ)
    (calls : List Delivery) :
    ∃ later, reading.run sink.recorded (machine.recording calls) =
      ((reading.run sink machine).1, (reading.run sink machine).2.recording later) := by
  induction reading generalizing machine calls with
  | done value => exact ⟨calls, rfl⟩
  | fail error => exact ⟨calls, rfl⟩
  | take count next ih =>
    have same : (machine.recording calls).cursor = machine.cursor := rfl
    simp only [run, machine.draw_recording, same]
    cases (machine.draw count).1.result machine.cursor.position count with
    | ok bytes => exact ih _ _ _
    | error error => exact ⟨calls, rfl⟩
  | skip count next ih =>
    have same : (machine.recording calls).cursor = machine.cursor := rfl
    have passed : (machine.recording calls).pass count =
      ((machine.pass count).1, (machine.pass count).2.recording calls) := rfl
    simp only [run, passed, same]
    cases (machine.pass count).1.result machine.cursor.position count with
    | ok bytes => exact ih _ _ _
    | error error => exact ⟨calls, rfl⟩
  | position next ih => exact ih _ _ _
  | progress next ih => exact ih _ _ _
  | setProgress progress next ih => exact ih { machine with progress } calls
  | note remark next ih => exact ih (machine.addNote remark) calls
  | deliver delivery next ih =>
    have delivered : (machine.recording calls).deliver sink.recorded delivery =
      ((machine.deliver sink delivery).1, (machine.deliver sink delivery).2.recording (calls ++ [delivery])) := rfl
    simp only [run, delivered]
    rcases machine.deliver sink delivery with ⟨_ | error, after⟩
    · exact ih after _
    · exact ⟨_, rfl⟩

end Reading

end AmosBasic
