import AmosBasic.Export
import AmosBasic.Proofs.Decoding.Opening
import AmosBasic.Proofs.Reading.Noting

namespace AmosBasic

open Reading

variable {σ α β : Type}

namespace Receipt

variable {receipt : Receipt σ} {next : σ → Receipt σ}

theorem andThen_of_accepted (accepted : receipt.refusal = none) :
    receipt.andThen next = ⟨(next receipt.receiver).receiver, receipt.notes ++ (next receipt.receiver).notes,
      (next receipt.receiver).refusal⟩ := by
  rw [andThen, accepted]

theorem andThen_of_refused {error : DecodeError} (refused : receipt.refusal = some error) :
    receipt.andThen next = receipt := by
  rw [andThen, refused]

theorem accepted_of_andThen (accepted : (receipt.andThen next).refusal = none) : receipt.refusal = none := by
  cases answer : receipt.refusal with
  | some error => rwa [andThen_of_refused answer, answer] at accepted
  | none => rfl

theorem andThen_accept (receiver : σ) : Receipt.andThen { receiver } next = next receiver := by
  rw [andThen_of_accepted rfl]
  rfl

theorem andThen_assoc (receipt : Receipt σ) (next last : σ → Receipt σ) :
    (receipt.andThen next).andThen last = receipt.andThen fun receiver => (next receiver).andThen last := by
  cases answer : receipt.refusal with
  | some error => rw [andThen_of_refused answer, andThen_of_refused answer, andThen_of_refused answer]
  | none =>
    rw [andThen_of_accepted answer, andThen_of_accepted answer]
    cases later : (next receipt.receiver).refusal with
    | some error =>
      rw [andThen_of_refused later, later]
      exact andThen_of_refused rfl
    | none =>
      rw [andThen_of_accepted later, andThen_of_accepted rfl, List.append_assoc]

def each (step : α → σ → Receipt σ) : List α → σ → Receipt σ
  | [], receiver => { receiver }
  | item :: items, receiver => (step item receiver).andThen (each step items)

variable {step : α → σ → Receipt σ}

theorem each_append (front back : List α) (receiver : σ) :
    each step (front ++ back) receiver = (each step front receiver).andThen (each step back) := by
  induction front generalizing receiver with
  | nil => rw [List.nil_append, each, andThen_accept]
  | cons item front ih =>
    rw [List.cons_append, each, each, andThen_assoc]
    congr
    funext later
    exact ih later

theorem foldl_andThen (items : List α) (receipt : Receipt σ) :
    items.foldl (fun receipt item => receipt.andThen (step item)) receipt = receipt.andThen (each step items) := by
  induction items generalizing receipt with
  | nil =>
    cases answer : receipt.refusal with
    | some error => rw [andThen_of_refused answer, List.foldl_nil]
    | none =>
      obtain ⟨receiver, notes, refusal⟩ := receipt
      cases answer
      simp [andThen, each]
  | cons item items ih =>
    rw [List.foldl_cons, ih, andThen_assoc]
    rfl

end Receipt

def Sink.give (sink : Sink σ) (receiver : σ) (calls : List Delivery) : Receipt σ :=
  Receipt.each (fun delivery receiver => sink receiver delivery) calls receiver

theorem Sink.give_append (sink : Sink σ) (receiver : σ) (front back : List Delivery) :
    sink.give receiver (front ++ back) =
      (sink.give receiver front).andThen fun receiver => sink.give receiver back :=
  Receipt.each_append front back receiver

theorem Sink.give_concat (sink : Sink σ) (receiver : σ) (front : List Delivery) (last : Delivery) :
    sink.give receiver (front ++ [last]) = (sink.give receiver front).andThen fun receiver => sink receiver last := by
  have single : ∀ receiver, sink.give receiver [last] = sink receiver last := by
    intro receiver
    rw [give, Receipt.each]
    cases answer : (sink receiver last).refusal with
    | some error => exact Receipt.andThen_of_refused answer
    | none =>
      rw [Receipt.andThen_of_accepted answer, Receipt.each, List.append_nil, ← answer]
  simp only [give_append, single]

def Note.Foreign (note : Note) : Prop := note.origin ≠ .exporter

section

variable {sink : Sink σ} {start : σ}

structure Machine.Given (sink : Sink σ) (start : σ) (machine : Machine (σ × List Delivery)) : Prop where
  receiver : machine.receiver.1 = (sink.give start machine.receiver.2).receiver
  notes : ∀ note ∈ machine.notes, note.Foreign ∨ note ∈ (sink.give start machine.receiver.2).notes

theorem Machine.Given.addNote {machine : Machine (σ × List Delivery)} (given : machine.Given sink start) {note : Note}
    (foreign : note.Foreign) : (machine.addNote note).Given sink start := by
  refine ⟨given.receiver, fun other member => ?_⟩
  rcases Array.mem_push.mp member with member | rfl
  · exact given.notes other member
  · exact .inl foreign

theorem Machine.Given.draw {machine : Machine (σ × List Delivery)} (given : machine.Given sink start) (count : Nat) :
    (machine.draw count).2.Given sink start ∧ (machine.draw count).2.receiver = machine.receiver := by
  have drained : Machine.Given sink start { machine with cursor := (machine.cursor.draw count).2 } :=
    ⟨given.receiver, given.notes⟩
  unfold Machine.draw
  dsimp only
  split
  · exact ⟨drained.addNote (nofun : Origin.cursor ≠ .exporter), rfl⟩
  · exact ⟨drained, rfl⟩

theorem Machine.Given.deliver {machine : Machine (σ × List Delivery)} (given : machine.Given sink start)
    (accepted : (sink.give start machine.receiver.2).refusal = none) (delivery : Delivery) :
    (machine.deliver sink.recorded delivery).2.Given sink start ∧
      (sink.give start (machine.deliver sink.recorded delivery).2.receiver.2).refusal =
        (machine.deliver sink.recorded delivery).1 := by
  have longer : sink.give start (machine.receiver.2 ++ [delivery]) =
      ⟨(sink machine.receiver.1 delivery).receiver,
        (sink.give start machine.receiver.2).notes ++ (sink machine.receiver.1 delivery).notes,
        (sink machine.receiver.1 delivery).refusal⟩ := by
    rw [Sink.give_concat, Receipt.andThen_of_accepted accepted, given.receiver]
  have taken : (machine.deliver sink.recorded delivery).2.receiver.2 = machine.receiver.2 ++ [delivery] := rfl
  rw [← taken] at longer
  refine ⟨⟨?_, fun note member => ?_⟩, ?_⟩
  · rw [longer]
    rfl
  · rw [longer]
    have answered : note ∈ machine.notes ∨ note ∈ (sink machine.receiver.1 delivery).notes := by
      rw [← Array.mem_toList_iff, ← List.mem_append, ← Array.toList_appendList, Array.mem_toList_iff]
      exact member
    rcases answered with before | answer
    · exact (given.notes note before).imp_right (List.mem_append_left _)
    · exact .inr (List.mem_append_right _ answer)
  · rw [longer]
    rfl

theorem Reading.run_given {reading : Reading α} (remarks : reading.Remarks Note.Foreign)
    {machine : Machine (σ × List Delivery)} (given : machine.Given sink start)
    (accepted : (sink.give start machine.receiver.2).refusal = none) :
    (reading.run sink.recorded machine).2.Given sink start ∧
      ∀ value, (reading.run sink.recorded machine).1 = .ok value →
        (sink.give start (reading.run sink.recorded machine).2.receiver.2).refusal = none := by
  -- Only a delivery gets to the receiver, and the run goes on behind it only if it was not refused.
  induction reading generalizing machine with
  | done value => exact ⟨given, fun _ _ => accepted⟩
  | fail error => exact ⟨given, fun _ _ => accepted⟩
  | take count next ih =>
    obtain ⟨behind, kept⟩ := given.draw count
    simp only [run]
    split
    · exact ih _ (remarks _) behind (by rw [kept, accepted])
    · refine ⟨behind, fun value success => ?_⟩
      cases success
  | skip count next ih =>
    have behind : (machine.pass count).2.Given sink start := ⟨given.receiver, given.notes⟩
    simp only [run]
    split
    · exact ih _ (remarks _) behind accepted
    · refine ⟨behind, fun value success => ?_⟩
      cases success
  | position next ih | progress next ih => exact ih _ (remarks _) given accepted
  | setProgress state next ih =>
    have counted : Machine.Given sink start { machine with progress := state } := ⟨given.receiver, given.notes⟩
    exact ih remarks counted accepted
  | note remark next ih => exact ih remarks.2 (given.addNote remarks.1) accepted
  | deliver delivery next ih =>
    obtain ⟨behind, answer⟩ := given.deliver accepted delivery
    simp only [run]
    split
    · rename_i delivered same
      rw [same] at behind answer
      exact ih remarks behind answer
    · rename_i error delivered same
      rw [same] at behind
      refine ⟨behind, fun value success => ?_⟩
      cases success

end

end AmosBasic
