import AmosBasic.Proofs.Decoding.Opening
import AmosBasic.Proofs.Reading.Draining

namespace AmosBasic

open Reading

variable {σ : Type}

structure Machine.SameButPace (one other : Machine σ) : Prop where
  view : one.view = other.view
  receiver : one.receiver = other.receiver
  notes : one.notes = other.notes

namespace Machine

variable {one other : Machine σ}

theorem position_view (machine : Machine σ) : machine.view.place.position = machine.cursor.position := rfl

theorem SameButPace.position (same : one.SameButPace other) : one.cursor.position = other.cursor.position := by
  rw [← position_view, same.view, position_view]

theorem SameButPace.addNote (same : one.SameButPace other) (note : Note) :
    (one.addNote note).SameButPace (other.addNote note) :=
  ⟨same.view, same.receiver, congrArg (·.push note) same.notes⟩

theorem SameButPace.answered {later otherLater : Machine σ} {count : Nat} {notes : List Note}
    (same : one.SameButPace other) (answered : one.Answered count notes later)
    (otherAnswered : other.Answered count notes otherLater) : later.SameButPace otherLater where
  view := by rw [answered.view, otherAnswered.view, same.view]
  receiver := by rw [answered.receiver, otherAnswered.receiver, same.receiver]
  notes := by rw [answered.notes, otherAnswered.notes, same.notes]

theorem SameButPace.outcome (same : one.SameButPace other) (count : Nat) :
    one.cursor.source.outcome count = other.cursor.source.outcome count := by
  have unread : one.cursor.source.bytes = other.cursor.source.bytes := congrArg View.unread same.view
  have ending : one.cursor.source.ending = other.cursor.source.ending := congrArg View.ending same.view
  rw [Source.outcome, unread, ending]
  rfl

theorem SameButPace.pass (same : one.SameButPace other) (count : Nat) :
    (one.pass count).1 = (other.pass count).1 ∧ (one.pass count).2.SameButPace (other.pass count).2 := by
  have unread : one.unread = other.unread := congrArg View.unread same.view
  refine ⟨?_, same.answered (one.pass_answered count).2.2 (other.pass_answered count).2.2⟩
  rw [pass_drawn, pass_drawn, unread, same.outcome]

theorem SameButPace.draw (same : one.SameButPace other) (count : Nat) :
    (one.draw count).1 = (other.draw count).1 ∧ (one.draw count).2.SameButPace (other.draw count).2 := by
  have unread : one.unread = other.unread := congrArg View.unread same.view
  have answered := (other.draw_answered count).2.2
  rw [← same.view] at answered
  refine ⟨?_, same.answered (one.draw_answered count).2.2 answered⟩
  rw [draw_drawn, draw_drawn, unread, same.outcome]

theorem SameButPace.deliver (same : one.SameButPace other) (sink : Sink σ) (delivery : Delivery) :
    (one.deliver sink delivery).1 = (other.deliver sink delivery).1 ∧
      (one.deliver sink delivery).2.SameButPace (other.deliver sink delivery).2 := by
  simp only [Machine.deliver, same.receiver, same.notes]
  exact ⟨trivial, same.view, rfl, rfl⟩

end Machine

theorem Reading.run_sameButPace {α : Type} (sink : Sink σ) (reading : Reading α) {one other : Machine σ}
    (same : one.SameButPace other) :
    (reading.run sink one).1 = (reading.run sink other).1 ∧
      (reading.run sink one).2.SameButPace (reading.run sink other).2 := by
  induction reading generalizing one other with
  | done value => exact ⟨rfl, same⟩
  | fail error => exact ⟨rfl, same⟩
  | take count next ih =>
    obtain ⟨drawn, behind⟩ := same.draw count
    simp only [run, drawn, same.position]
    split
    · exact ih _ behind
    · exact ⟨rfl, behind⟩
  | skip count next ih =>
    obtain ⟨drawn, behind⟩ := same.pass count
    simp only [run, drawn, same.position]
    split
    · exact ih _ behind
    · exact ⟨rfl, behind⟩
  | position next ih =>
    simp only [run, same.position]
    exact ih _ same
  | progress next ih =>
    have progress : one.progress = other.progress := congrArg (·.place.progress) same.view
    simp only [run, progress]
    exact ih _ same
  | setProgress state next ih =>
    have moved : { one with progress := state }.SameButPace { other with progress := state } :=
      ⟨congrArg (fun view : View => { view with place.progress := state }) same.view, same.receiver, same.notes⟩
    exact ih moved
  | note remark next ih => exact ih (same.addNote remark)
  | deliver delivery next ih =>
    have delivered := same.deliver sink delivery
    rw [run, run]
    generalize one.deliver sink delivery = first at delivered ⊢
    generalize other.deliver sink delivery = second at delivered ⊢
    obtain ⟨refusal, after⟩ := first
    obtain ⟨_, otherAfter⟩ := second
    obtain ⟨rfl, delivered⟩ := delivered
    cases refusal with
    | none => exact ih delivered
    | some error => exact ⟨rfl, delivered⟩

theorem decode_sameButPace (sink : Sink σ) (options : DecodeOptions) (sourceOnly : Bool) {one other : Machine σ}
    (same : one.SameButPace other) :
    (decode sink options sourceOnly one).1 = (decode sink options sourceOnly other).1 ∧
      (decode sink options sourceOnly one).2.SameButPace (decode sink options sourceOnly other).2 := by
  obtain ⟨drawn, behind⟩ := same.draw HeaderVariant.magicLength
  simp only [decode_eq, drawn]
  split
  · exact ⟨rfl, behind⟩
  · exact ⟨rfl, behind⟩
  · exact run_sameButPace sink _ behind

namespace Request

theorem perform_sameButPace (request : Request) {one other : Machine σ} (same : one.SameButPace other) :
    (request.perform one).1 = (request.perform other).1 ∧
      (request.perform one).2.SameButPace (request.perform other).2 := by
  obtain ⟨response, answered⟩ := request.perform_answered one
  obtain ⟨otherResponse, otherAnswered⟩ := request.perform_answered other
  have unread : one.unread = other.unread := congrArg View.unread same.view
  refine ⟨by rw [response, otherResponse, same.view, unread], ?_⟩
  rw [← same.view] at otherAnswered
  exact same.answered answered otherAnswered

theorem performAll_sameButPace (requests : List Request) {one other : Machine σ} (same : one.SameButPace other) :
    (performAll one requests).1 = (performAll other requests).1 ∧
      (performAll one requests).2.SameButPace (performAll other requests).2 := by
  induction requests generalizing one other with
  | nil => exact ⟨rfl, same⟩
  | cons request requests ih =>
    obtain ⟨response, behind⟩ := request.perform_sameButPace same
    obtain ⟨responses, last⟩ := ih behind
    simp only [performAll, response, responses, behind.position]
    exact ⟨trivial, last⟩

end Request

def Source.prompt (source : Source) : Source :=
  { bytes := source.bytes, ending := source.ending }

/-- However often a source asks to be called again, and in whatever pieces it gives its bytes: requests in any order
are answered as by the source that does neither, with the same errors and positions and the same bytes left in a
buffer. Every decode run ends alike then, behind the same calls to its receiver and the same notes. -/
theorem pace_invisible (source : Source) :
    (∀ (σ : Type) (receiver : σ) (requests : List Request),
      (Request.performAll (.fresh source receiver) requests).1 =
          (Request.performAll (.fresh source.prompt receiver) requests).1 ∧
        (Request.performAll (.fresh source receiver) requests).2.SameButPace
          (Request.performAll (.fresh source.prompt receiver) requests).2) ∧
    ∀ (σ : Type) (sink : Sink σ) (options : DecodeOptions) (sourceOnly : Bool) (receiver : σ),
      (decode sink options sourceOnly (.fresh source receiver)).1 =
          (decode sink options sourceOnly (.fresh source.prompt receiver)).1 ∧
        sinkCalls sink options sourceOnly (.fresh source receiver) =
          sinkCalls sink options sourceOnly (.fresh source.prompt receiver) ∧
        (decode sink options sourceOnly (.fresh source receiver)).2.SameButPace
          (decode sink options sourceOnly (.fresh source.prompt receiver)).2 := by
  have fresh : ∀ (σ : Type) (receiver : σ),
      (Machine.fresh source receiver).SameButPace (.fresh source.prompt receiver) := fun _ _ => ⟨rfl, rfl, rfl⟩
  refine ⟨fun σ receiver requests => Request.performAll_sameButPace requests (fresh σ receiver), ?_⟩
  intro σ sink options sourceOnly receiver
  obtain ⟨result, behind⟩ := decode_sameButPace sink options sourceOnly (fresh σ receiver)
  obtain ⟨-, recorded⟩ := decode_sameButPace sink.recorded options sourceOnly (fresh _ (receiver, []))
  refine ⟨result, ?_, behind⟩
  rw [sinkCalls_fresh, sinkCalls_fresh, recorded.receiver]

end AmosBasic
