import AmosBasic.Proofs.Decoding.Course
import AmosBasic.Proofs.Session.Opening

namespace AmosBasic

open Reading

variable {σ : Type} {sink : Sink σ}

def Sink.Refuses (sink : Sink σ) (receiver : σ) (front : List Delivery) (delivery : Delivery) (error : DecodeError)
    (last : σ) : Prop :=
  ∃ before, sink.accept? receiver front = some before ∧ (sink before delivery).refusal = some error ∧
    (sink before delivery).receiver = last

theorem Sink.refuses_nil {receiver last : σ} {delivery : Delivery} {error : DecodeError} :
    sink.Refuses receiver [] delivery error last ↔
      (sink receiver delivery).refusal = some error ∧ (sink receiver delivery).receiver = last := by
  constructor
  · rintro ⟨before, taken, refusal, kept⟩
    cases taken
    exact ⟨refusal, kept⟩
  · rintro ⟨refusal, kept⟩
    exact ⟨receiver, rfl, refusal, kept⟩

theorem Sink.refuses_cons {receiver last : σ} {first delivery : Delivery} {front : List Delivery}
    {error : DecodeError} :
    sink.Refuses receiver (first :: front) delivery error last ↔
      (sink receiver first).refusal = none ∧
        sink.Refuses (sink receiver first).receiver front delivery error last := by
  constructor
  · rintro ⟨before, taken, refusal⟩
    cases answer : (sink receiver first).refusal with
    | none =>
      simp only [accept?, answer] at taken
      exact ⟨rfl, before, taken, refusal⟩
    | some other =>
      simp only [accept?, answer] at taken
      cases taken
  · rintro ⟨answer, before, taken, refusal⟩
    refine ⟨before, ?_, refusal⟩
    simp only [accept?, answer]
    exact taken

theorem Sink.accept?_or_refuses (sink : Sink σ) (receiver : σ) (calls : List Delivery) :
    (∃ last, sink.accept? receiver calls = some last) ∨
      ∃ front delivery back error last, calls = front ++ delivery :: back ∧
        sink.Refuses receiver front delivery error last := by
  induction calls generalizing receiver with
  | nil => exact .inl ⟨receiver, rfl⟩
  | cons first calls ih =>
    cases answer : (sink receiver first).refusal with
    | some error => exact .inr ⟨[], first, calls, error, _, rfl, Sink.refuses_nil.mpr ⟨answer, rfl⟩⟩
    | none =>
      rcases ih (sink receiver first).receiver with ⟨last, taken⟩ | ⟨front, delivery, back, error, last, rfl, refuses⟩
      · refine .inl ⟨last, ?_⟩
        simp only [accept?, answer]
        exact taken
      · exact .inr ⟨first :: front, delivery, back, error, last, rfl, Sink.refuses_cons.mpr ⟨answer, refuses⟩⟩

theorem Sink.Refuses.recorded {receiver last : σ} {front : List Delivery} {delivery : Delivery} {error : DecodeError}
    (refuses : sink.Refuses receiver front delivery error last) :
    sink.recorded.Refuses (receiver, []) front delivery error (last, front ++ [delivery]) := by
  obtain ⟨before, taken, refusal, rfl⟩ := refuses
  exact ⟨(before, front), accept?_recorded_of_accept? taken, refusal, rfl⟩

theorem Machine.Passed.view {machine later : Machine σ} {count : Nat} (passed : machine.Passed count later)
    (enough : count ≤ machine.unread.length) : later.view = machine.view.behind count := by
  have whole : machine.view.reach count = count := if_pos enough
  rw [Machine.view, passed.unread, passed.ending, passed.place enough, View.behind, whole]
  rfl

namespace Reading

variable {α : Type}

theorem Requests.answered {reading : Reading α} {count : Nat} {next : List UInt8 → Reading α}
    (request : Requests reading count next) (sink : Sink σ) {machine : Machine σ}
    (handing : ((take count next).outcome machine.view).handed ≠ []) :
    ∃ later, reading.run sink machine = (next (machine.unread.take count)).run sink later ∧
      (take count next).outcome machine.view = (next (machine.unread.take count)).outcome later.view ∧
      later.receiver = machine.receiver := by
  obtain ⟨later, passed, answer⟩ := request _ sink machine
  by_cases enough : count ≤ machine.unread.length
  · have fits : count ≤ machine.view.unread.length := enough
    rw [if_pos enough] at answer
    refine ⟨later, answer, ?_, passed.receiver⟩
    rw [outcome, if_pos fits, passed.view enough]
    rfl
  · have short : ¬ count ≤ machine.view.unread.length := enough
    rw [outcome, if_neg short] at handing
    exact absurd rfl handing

theorem run_refused (reading : Reading α) (machine : Machine σ) {front back : List Delivery} {delivery : Delivery}
    {error : DecodeError} {last : σ} (handed : (reading.outcome machine.view).handed = front ++ delivery :: back)
    (refuses : sink.Refuses machine.receiver front delivery error last) :
    ∃ final, reading.run sink machine = (.error error, final) ∧ final.receiver = last := by
  have handing : (reading.outcome machine.view).handed ≠ [] := by simp [handed]
  -- A request in front of the refused delivery has been answered, so only a delivery can end the run.
  induction reading generalizing machine front with
  | done value => exact absurd rfl handing
  | fail error => exact absurd rfl handing
  | take count next ih =>
    obtain ⟨later, same, rest, kept⟩ := (requests_take count next).answered sink handing
    rw [rest] at handed handing
    rw [← kept] at refuses
    rw [same]
    exact ih _ _ handed refuses handing
  | skip count next ih =>
    obtain ⟨later, same, rest, kept⟩ := (requests_skip count next).answered sink handing
    have rest : (skip count next).outcome machine.view = _ := rest
    rw [rest] at handed handing
    rw [← kept] at refuses
    rw [same]
    exact ih _ _ handed refuses handing
  | position next ih | progress next ih => exact ih _ machine handed refuses handing
  | setProgress progress next ih => exact ih { machine with progress } handed refuses handing
  | note remark next ih => exact ih (machine.addNote remark) handed refuses handing
  | deliver first next ih =>
    cases front with
    | nil =>
      obtain ⟨rfl, -⟩ := List.cons.inj handed
      obtain ⟨refusal, kept⟩ := Sink.refuses_nil.mp refuses
      exact ⟨_, by simp only [run, Machine.deliver, refusal]; rfl, kept⟩
    | cons front fronts =>
      have rest : (next.outcome machine.view).handed = fronts ++ delivery :: back := (List.cons.inj handed).2
      obtain ⟨rfl, -⟩ := List.cons.inj handed
      obtain ⟨taken, refuses⟩ := Sink.refuses_cons.mp refuses
      have further : (next.outcome machine.view).handed ≠ [] := by simp [rest]
      simp only [run, Machine.deliver, taken]
      exact ih _ rest refuses further

def callsTo (sink : Sink σ) (reading : Reading α) (machine : Machine σ) : List Delivery :=
  (reading.run sink.recorded (machine.recording [])).2.receiver.2

/-- A run hands over all that is due, or it is refused something and no more is handed over. -/
theorem run_cases (sink : Sink σ) (reading : Reading α) (machine : Machine σ) :
    (∃ final, reading.run sink machine = ((reading.outcome machine.view).result, final) ∧
      final.view = (reading.outcome machine.view).view ∧
      reading.callsTo sink machine = (reading.outcome machine.view).handed) ∨
    ∃ error final, reading.run sink machine = (.error error, final) ∧
      reading.callsTo sink machine <+: (reading.outcome machine.view).handed := by
  have same : (machine.recording []).view = machine.view := rfl
  rcases sink.accept?_or_refuses machine.receiver (reading.outcome machine.view).handed with
    ⟨last, taken⟩ | ⟨front, delivery, back, error, last, handed, refuses⟩
  · obtain ⟨final, ran, view, -⟩ := run_outcome reading machine taken
    obtain ⟨_, recorded, -, calls⟩ :=
      run_outcome reading (machine.recording []) (Sink.accept?_recorded_of_accept? taken)
    refine .inl ⟨final, ran, view, ?_⟩
    rw [callsTo, recorded, calls, same]
  · obtain ⟨final, ran, -⟩ := run_refused reading machine handed refuses
    obtain ⟨_, recorded, calls⟩ := run_refused reading (machine.recording []) handed refuses.recorded
    refine .inr ⟨error, final, ran, back, ?_⟩
    rw [callsTo, recorded, calls, handed, List.append_assoc]
    rfl

end Reading

variable {options : DecodeOptions} {sourceOnly : Bool} {front back : List Delivery} {delivery : Delivery}
  {error : DecodeError}

theorem decode_refused (machine : Machine σ) {last : σ}
    (handed : (decodeOutcome options sourceOnly machine.view).handed = front ++ delivery :: back)
    (refuses : sink.Refuses machine.receiver front delivery error last) :
    ∃ final, decode sink options sourceOnly machine = (.error error, final) ∧ final.receiver = last := by
  obtain ⟨opened, same, view, kept⟩ := OpenFile.openOn_outcome sink options machine
  have silent := OpenFile.opening_silent options machine.view
  unfold decodeOutcome Outcome.andThen at handed
  rw [silent] at handed
  rw [decode, same]
  cases came : (OpenFile.opening options machine.view).result with
  | error error =>
    rw [came] at handed
    simp at handed
  | ok file =>
    rw [came, ← view] at handed
    rw [← kept] at refuses
    exact run_refused _ opened handed refuses

theorem sinkCalls_refused {source : Source} {receiver last : σ}
    (handed : (decodeOutcome options sourceOnly (Machine.fresh source ()).view).handed = front ++ delivery :: back)
    (refuses : sink.Refuses receiver front delivery error last) :
    sinkCalls sink options sourceOnly (.fresh source receiver) = front ++ [delivery] := by
  have same : (Machine.fresh source (receiver, ([] : List Delivery))).view = (Machine.fresh source ()).view := rfl
  rw [← same] at handed
  obtain ⟨final, stopped, calls⟩ := decode_refused _ handed refuses.recorded
  rw [sinkCalls_fresh, stopped, calls]

theorem decode_cases (sink : Sink σ) (options : DecodeOptions) (sourceOnly : Bool) (source : Source) (receiver : σ) :
    (∃ final, sink.accept? receiver (decodeOutcome options sourceOnly (Machine.fresh source ()).view).handed =
        some final.receiver ∧
      decode sink options sourceOnly (.fresh source receiver) =
        ((decodeOutcome options sourceOnly (Machine.fresh source ()).view).result, final) ∧
      final.view = (decodeOutcome options sourceOnly (Machine.fresh source ()).view).view ∧
      sinkCalls sink options sourceOnly (.fresh source receiver) =
        (decodeOutcome options sourceOnly (Machine.fresh source ()).view).handed) ∨
    ∃ front delivery back error final,
      (decodeOutcome options sourceOnly (Machine.fresh source ()).view).handed = front ++ delivery :: back ∧
      sink.Refuses receiver front delivery error final.receiver ∧
      decode sink options sourceOnly (.fresh source receiver) = (.error error, final) ∧
      sinkCalls sink options sourceOnly (.fresh source receiver) = front ++ [delivery] := by
  rcases sink.accept?_or_refuses receiver (decodeOutcome options sourceOnly (Machine.fresh source ()).view).handed with
    ⟨last, taken⟩ | ⟨front, delivery, back, error, last, handed, refuses⟩
  · obtain ⟨final, same, view, rfl⟩ := decode_outcome options sourceOnly sink (.fresh source receiver) taken
    exact .inl ⟨final, taken, same, view, sinkCalls_accepted options sourceOnly taken⟩
  · obtain ⟨final, same, rfl⟩ := decode_refused (.fresh source receiver) handed refuses
    exact .inr ⟨front, delivery, back, error, final, handed, refuses, same, sinkCalls_refused handed refuses⟩

theorem sinkCalls_front (sink : Sink σ) (options : DecodeOptions) (sourceOnly : Bool) (source : Source) (receiver : σ) :
    sinkCalls sink options sourceOnly (.fresh source receiver) <+:
      (decodeOutcome options sourceOnly (Machine.fresh source ()).view).handed := by
  rcases decode_cases sink options sourceOnly source receiver with ⟨_, -, -, -, calls⟩ |
    ⟨front, delivery, back, _, _, handed, -, -, calls⟩
  · exact ⟨[], by rw [calls, List.append_nil]⟩
  · rw [calls, handed]
    exact ⟨back, List.append_assoc ..⟩

theorem decode_congr (sink : Sink σ) (receiver : σ) {one other : Source}
    (result : (decodeOutcome options sourceOnly (Machine.fresh one ()).view).result =
      (decodeOutcome options sourceOnly (Machine.fresh other ()).view).result)
    (handed : (decodeOutcome options sourceOnly (Machine.fresh one ()).view).handed =
      (decodeOutcome options sourceOnly (Machine.fresh other ()).view).handed) :
    (decode sink options sourceOnly (.fresh one receiver)).1 =
        (decode sink options sourceOnly (.fresh other receiver)).1 ∧
      sinkCalls sink options sourceOnly (.fresh one receiver) =
        sinkCalls sink options sourceOnly (.fresh other receiver) := by
  rcases sink.accept?_or_refuses receiver (decodeOutcome options sourceOnly (Machine.fresh one ()).view).handed with
    ⟨last, taken⟩ | ⟨front, delivery, back, error, last, split, refuses⟩
  · obtain ⟨_, same, -⟩ := decode_outcome options sourceOnly sink (.fresh one receiver) taken
    have calls := sinkCalls_accepted options sourceOnly taken
    rw [handed] at taken calls
    obtain ⟨_, again, -⟩ := decode_outcome options sourceOnly sink (.fresh other receiver) taken
    rw [same, again, calls, sinkCalls_accepted options sourceOnly taken]
    exact ⟨result, rfl⟩
  · obtain ⟨_, same, -⟩ := decode_refused (.fresh one receiver) split refuses
    have calls := sinkCalls_refused split refuses
    rw [handed] at split
    obtain ⟨_, again, -⟩ := decode_refused (.fresh other receiver) split refuses
    rw [same, again, calls, sinkCalls_refused split refuses]
    exact ⟨rfl, rfl⟩

/-- A decode run makes the calls that are due whoever receives them, but none behind the first that is refused. It
ends with the error of that one or, if none is refused, as it would before any other receiver. -/
theorem receiver_only_observes (options : DecodeOptions) (sourceOnly : Bool) (source : Source) :
    let calls := sinkCalls Sink.discard options sourceOnly (.fresh source ())
    let result := (decode Sink.discard options sourceOnly (.fresh source ())).1
    (∃ (lines : List Line) (contents : List BankContent), calls = lines.map .line ++ contents.map .bank) ∧
    ∀ (σ : Type) (sink : Sink σ) (receiver : σ),
      (∃ final, sink.accept? receiver calls = some final.receiver ∧
        decode sink options sourceOnly (.fresh source receiver) = (result, final) ∧
        sinkCalls sink options sourceOnly (.fresh source receiver) = calls) ∨
      ∃ front delivery back error final, calls = front ++ delivery :: back ∧
        sink.Refuses receiver front delivery error final.receiver ∧
        decode sink options sourceOnly (.fresh source receiver) = (.error error, final) ∧
        sinkCalls sink options sourceOnly (.fresh source receiver) = front ++ [delivery] := by
  intro calls result
  have willing : ∀ receiver delivery, (Sink.discard receiver delivery).refusal = none := fun _ _ => rfl
  obtain ⟨undisturbed, due⟩ := sinkCalls_outcome options sourceOnly willing source ()
  have due : calls = (decodeOutcome options sourceOnly (Machine.fresh source ()).view).handed := due
  have undisturbed : result = (decodeOutcome options sourceOnly (Machine.fresh source ()).view).result := undisturbed
  rw [undisturbed, due]
  constructor
  · obtain ⟨lines, banks, _, _, handed, -⟩ := decodeOutcome_handed options sourceOnly (Machine.fresh source ()).view
    exact ⟨lines, banks.map Bank.content, handed⟩
  · intro σ sink receiver
    rcases decode_cases sink options sourceOnly source receiver with ⟨final, taken, same, -, made⟩ | refused
    · exact .inl ⟨final, taken, same, made⟩
    · exact .inr refused

end AmosBasic
