import AmosBasic.Decoding
import AmosBasic.Proofs.Reading.Recording

namespace AmosBasic

open Reading

variable {σ : Type}

def Machine.fresh (source : Source) (receiver : σ) : Machine σ :=
  { cursor := { source }, receiver }

@[simp] theorem Machine.unread_fresh (source : Source) (receiver : σ) :
    (fresh source receiver).unread = source.bytes := rfl

@[simp] theorem Machine.ending_fresh (source : Source) (receiver : σ) :
    (fresh source receiver).ending = source.ending := rfl

@[simp] theorem Machine.receiver_fresh (source : Source) (receiver : σ) :
    (fresh source receiver).receiver = receiver := rfl

def fileReading (options : DecodeOptions) (sourceOnly : Bool) (magic : List UInt8) : Reading Summary := do
  let header ← OpenFile.headerReading magic
  OpenFile.decoding { header, options } sourceOnly

def Ending.magicError (ending : Ending) (found : List UInt8) : DecodeError :=
  match ending with
  | .finished => .unsupportedFormat found
  | .broken text => .io text

section

variable (sink : Sink σ) (options : DecodeOptions) (sourceOnly : Bool)

theorem decode_eq (machine : Machine σ) :
    decode sink options sourceOnly machine =
      let (drawn, drained) := machine.draw HeaderVariant.magicLength
      match drawn.outcome with
      | .ended => (.error (.unsupportedFormat drawn.bytes), drained)
      | .failed text => (.error (.io text), drained)
      | .filled => (fileReading options sourceOnly drawn.bytes).run sink drained := by
  rcases drawing : machine.draw HeaderVariant.magicLength with ⟨⟨bytes, outcome⟩, drained⟩
  cases outcome with
  | filled =>
    simp only [decode, OpenFile.openOn, drawing, fileReading, run_bind]
    rcases (OpenFile.headerReading bytes).run sink drained with ⟨_ | header, opened⟩ <;> rfl
  | ended => simp only [decode, OpenFile.openOn, drawing]
  | failed text => simp only [decode, OpenFile.openOn, drawing]

theorem decode_of_magic {machine : Machine σ} {magic rest : List UInt8} (unread : machine.unread = magic ++ rest)
    (filled : magic.length = HeaderVariant.magicLength) :
    ∃ later, decode sink options sourceOnly machine = (fileReading options sourceOnly magic).run sink later ∧
      later.unread = rest ∧ later.ending = machine.ending ∧ later.receiver = machine.receiver ∧
      later.place = machine.place.behind HeaderVariant.magicLength := by
  have passed := machine.draw_passed HeaderVariant.magicLength
  have fits : HeaderVariant.magicLength ≤ machine.unread.length := by simp [unread, filled]
  have outcome : machine.cursor.source.outcome HeaderVariant.magicLength = .filled := if_pos fits
  have first : machine.unread.take HeaderVariant.magicLength = magic := by simp [unread, ← filled]
  refine ⟨_, ?_, ?_, passed.ending, passed.receiver, passed.place fits⟩
  · rw [decode_eq]
    simp only [machine.draw_drawn, outcome, first]
  · rw [passed.unread, unread, ← filled, List.drop_left]

theorem decode_of_short {machine : Machine σ} (short : machine.unread.length < HeaderVariant.magicLength) :
    ∃ later, decode sink options sourceOnly machine = (.error (machine.ending.magicError machine.unread), later) ∧
      later.receiver = machine.receiver := by
  have passed := machine.draw_passed HeaderVariant.magicLength
  have whole : machine.unread.take HeaderVariant.magicLength = machine.unread := List.take_of_length_le (by omega)
  have unfilled : ¬ HeaderVariant.magicLength ≤ machine.cursor.source.bytes.length := Nat.not_le.mpr short
  refine ⟨_, ?_, passed.receiver⟩
  rw [decode_eq]
  simp only [machine.draw_drawn, whole, Source.outcome, unfilled, if_false, Machine.ending]
  cases machine.cursor.source.ending <;> rfl

theorem decode_recorded (machine : Machine σ) (calls : List Delivery) :
    ∃ later, decode sink.recorded options sourceOnly (machine.recording calls) =
      ((decode sink options sourceOnly machine).1, (decode sink options sourceOnly machine).2.recording later) := by
  rw [decode_eq, decode_eq, machine.draw_recording]
  rcases machine.draw HeaderVariant.magicLength with ⟨⟨bytes, outcome⟩, drained⟩
  cases outcome with
  | filled => exact run_recorded sink _ drained calls
  | ended => exact ⟨calls, rfl⟩
  | failed text => exact ⟨calls, rfl⟩

/-- The calls that a decode run makes to its receiver, in order. -/
def sinkCalls (machine : Machine σ) : List Delivery :=
  (decode sink.recorded options sourceOnly (machine.recording [])).2.receiver.2

theorem sinkCalls_fresh (source : Source) (receiver : σ) :
    sinkCalls sink options sourceOnly (.fresh source receiver) =
      (decode sink.recorded options sourceOnly (.fresh source (receiver, []))).2.receiver.2 := rfl

end

variable {sink : Sink σ} {options : DecodeOptions} {sourceOnly : Bool}

theorem passes_of_decode {source : Source} {receiver : σ} {summary : Summary} {final : Machine σ}
    (success : decode sink options sourceOnly (.fresh source receiver) = (.ok summary, final)) :
    ∃ magic bytes handed, source.bytes = magic ++ (bytes ++ final.unread) ∧
      magic.length = HeaderVariant.magicLength ∧
      Passes (fileReading options sourceOnly magic) ⟨HeaderVariant.magicLength, {}⟩ bytes handed final.place
        summary ∧
      sink.accept? receiver handed = some final.receiver := by
  by_cases short : source.bytes.length < HeaderVariant.magicLength
  · rw [← Machine.unread_fresh source receiver] at short
    obtain ⟨later, failed, -⟩ := decode_of_short sink options sourceOnly short
    rw [success] at failed
    cases failed
  · have filled : (source.bytes.take HeaderVariant.magicLength).length = HeaderVariant.magicLength :=
      List.length_take_of_le (by omega)
    have unread : (Machine.fresh source receiver).unread =
        source.bytes.take HeaderVariant.magicLength ++ source.bytes.drop HeaderVariant.magicLength :=
      (List.take_append_drop _ _).symm
    obtain ⟨later, same, left, -, kept, place⟩ := decode_of_magic sink options sourceOnly unread filled
    rw [success] at same
    obtain ⟨bytes, handed, unread, passage, accepted⟩ := passes_of_run same.symm
    rw [place] at passage
    rw [kept] at accepted
    refine ⟨_, bytes, handed, ?_, filled, passage, accepted⟩
    rw [← unread, left, List.take_append_drop]

variable {magic bytes : List UInt8} {handed : List Delivery} {stop : Place} {summary : Summary}

/-- A passage can be run again on any source that begins with its bytes. -/
theorem decode_of_passes {source : Source} {rest : List UInt8} {receiver last : σ}
    (filled : magic.length = HeaderVariant.magicLength)
    (passage : Passes (fileReading options sourceOnly magic) ⟨HeaderVariant.magicLength, {}⟩ bytes handed stop summary)
    (unread : source.bytes = magic ++ (bytes ++ rest)) (accepted : sink.accept? receiver handed = some last) :
    ∃ final, decode sink options sourceOnly (.fresh source receiver) = (.ok summary, final) ∧
      final.receiver = last ∧ final.place = stop ∧ final.unread = rest := by
  rw [← Machine.unread_fresh source receiver] at unread
  obtain ⟨later, same, left, -, kept, place⟩ := decode_of_magic sink options sourceOnly unread filled
  rw [← Machine.receiver_fresh source receiver, ← kept] at accepted
  obtain ⟨final, success, left, stopped, taken⟩ := run_of_passes passage place left accepted
  exact ⟨final, same.trans success, taken, stopped, left⟩

theorem sinkCalls_of_passes {source : Source} {rest : List UInt8} {receiver last : σ}
    (filled : magic.length = HeaderVariant.magicLength)
    (passage : Passes (fileReading options sourceOnly magic) ⟨HeaderVariant.magicLength, {}⟩ bytes handed stop summary)
    (unread : source.bytes = magic ++ (bytes ++ rest)) (accepted : sink.accept? receiver handed = some last) :
    sinkCalls sink options sourceOnly (.fresh source receiver) = handed := by
  have recorded := Sink.accept?_recorded_of_accept? accepted
  obtain ⟨final, success, taken, -⟩ := decode_of_passes filled passage unread recorded
  rw [sinkCalls_fresh, success, taken]

end AmosBasic
