import AmosBasic.Proofs.Decoding.Opening
import AmosBasic.Proofs.Reading.Keeping

namespace AmosBasic

open Reading

namespace OpenFile

variable {σ : Type}

theorem confined_headerReading (magic : List UInt8) {changes : (Progress → Progress) → Prop} :
    (headerReading magic).Confined DecodeError.InTurn changes := by
  unfold headerReading
  split
  · exact .fail id
  · apply confined_bind (confined_word 4)
    intro sourceLength
    apply confined_bind (confined_remark _)
    intro _
    split
    · exact confined_bind (confined_remark _) fun _ => confined_pure _
    · exact confined_pure _

theorem keeps_headerReading (magic : List UInt8) : (headerReading magic).Keeps Place.Advances :=
  (confined_headerReading magic).advances

def opening (options : DecodeOptions) (view : View) : Outcome OpenFile :=
  if HeaderVariant.magicLength ≤ view.unread.length then
    (do return { header := ← headerReading (view.unread.take HeaderVariant.magicLength), options } :
      Reading OpenFile).outcome (view.behind HeaderVariant.magicLength)
  else ⟨.error (view.ending.magicError view.unread), [], view.behind HeaderVariant.magicLength⟩

theorem opening_silent (options : DecodeOptions) (view : View) : (opening options view).handed = [] := by
  unfold opening
  split
  · rw [outcome_bind_pure]
    exact (keeps_headerReading _ _).1
  · rfl

theorem openOn_outcome (sink : Sink σ) (options : DecodeOptions) (machine : Machine σ) :
    ∃ opened, openOn sink options machine = ((opening options machine.view).result, opened) ∧
      opened.view = (opening options machine.view).view ∧ opened.receiver = machine.receiver := by
  have view := machine.draw_view HeaderVariant.magicLength
  have receiver := (machine.draw_passed HeaderVariant.magicLength).receiver
  have drawn := machine.draw_drawn HeaderVariant.magicLength
  rcases drawing : machine.draw HeaderVariant.magicLength with ⟨⟨bytes, outcome⟩, drained⟩
  rw [drawing] at view receiver drawn
  cases drawn
  by_cases enough : HeaderVariant.magicLength ≤ machine.unread.length
  · have filled : machine.cursor.source.outcome HeaderVariant.magicLength = .filled := if_pos enough
    have fits : HeaderVariant.magicLength ≤ machine.view.unread.length := enough
    have silent := (keeps_headerReading (machine.unread.take HeaderVariant.magicLength) drained.view).1
    obtain ⟨opened, same, behind, kept⟩ := run_of_silent sink drained silent
    refine ⟨opened, ?_, ?_, kept.trans receiver⟩
    · simp only [openOn, drawing, filled, same, opening, if_pos fits, outcome_bind_pure, ← view]
      rfl
    · simp only [opening, if_pos fits, outcome_bind_pure, ← view]
      exact behind
  · have short : ¬ HeaderVariant.magicLength ≤ machine.view.unread.length := enough
    have unfilled : ¬ HeaderVariant.magicLength ≤ machine.cursor.source.bytes.length := enough
    have whole : machine.unread.take HeaderVariant.magicLength = machine.unread := List.take_of_length_le (by omega)
    have refused : opening options machine.view =
        ⟨.error (machine.ending.magicError machine.unread), [], machine.view.behind HeaderVariant.magicLength⟩ :=
      if_neg short
    refine ⟨drained, ?_, by rw [refused]; exact view, receiver⟩
    simp only [openOn, drawing, refused, Source.outcome, if_neg unfilled, whole, Machine.ending]
    cases machine.cursor.source.ending <;> rfl

theorem headerReading_of_ok {magic : List UInt8} {view last : View} {handed : List Delivery} {header : Header}
    (success : (headerReading magic).outcome view = ⟨.ok header, handed, last⟩) :
    last.place = view.place.behind 4 := by
  obtain ⟨bytes, -, -, passage⟩ := passes_of_outcome success
  unfold headerReading at passage
  cases found : HeaderVariant.ofMagic? magic with
  | none =>
    rw [found] at passage
    cases passage
  | some variant =>
    simp only [found, passes_word_bind, passes_remark_bind, passes_ite, passes_pure, ite_self] at passage
    obtain ⟨sourceLength, rest, -, -, -, -, stop, -⟩ := passage
    exact stop

theorem opening_of_ok {options : DecodeOptions} {view : View} {file : OpenFile}
    (success : (opening options view).result = .ok file) :
    file.options = options ∧ (opening options view).view.place = view.place.behind Header.size := by
  unfold opening at success ⊢
  by_cases enough : HeaderVariant.magicLength ≤ view.unread.length
  · simp only [if_pos enough, outcome_bind_pure] at success ⊢
    rcases came : (headerReading (view.unread.take HeaderVariant.magicLength)).outcome
      (view.behind HeaderVariant.magicLength) with ⟨error | header, handed, last⟩
    · rw [came] at success
      cases success
    · rw [came] at success
      cases success
      refine ⟨rfl, (headerReading_of_ok came).trans ?_⟩
      rw [View.behind_place enough, Place.behind_behind]
      rfl
  · simp only [if_neg enough] at success
    cases success

theorem opening_inTurn {options : DecodeOptions} {view last : View} {handed : List Delivery} {error : DecodeError}
    (failure : opening options view = ⟨.error error, handed, last⟩) : error.InTurn := by
  unfold opening at failure
  by_cases enough : HeaderVariant.magicLength ≤ view.unread.length
  · rw [if_pos enough] at failure
    have opened : (do return { header := ← headerReading (view.unread.take HeaderVariant.magicLength), options } :
        Reading OpenFile).Confined DecodeError.InTurn fun _ => False :=
      confined_bind (confined_headerReading _) fun _ => confined_pure _
    exact opened.allows View.shortage_inTurn failure
  · rw [if_neg enough] at failure
    cases failure
    cases view.ending <;> exact id

/-- A file that has been opened from its beginning stands behind its header, and nothing has been counted. -/
theorem openOn_of_ok {sink : Sink σ} {options : DecodeOptions} {source : Source} {receiver : σ} {file : OpenFile}
    {opened : Machine σ} (opens : openOn sink options (.fresh source receiver) = (.ok file, opened)) :
    opening options (Machine.fresh source ()).view = ⟨.ok file, [], opened.view⟩ ∧
      opened.place = ⟨Header.size, {}⟩ ∧ opened.receiver = receiver := by
  obtain ⟨_, same, view, kept⟩ := openOn_outcome sink options (.fresh source receiver)
  rw [opens] at same
  obtain ⟨success, rfl⟩ := Prod.mk.inj same
  obtain ⟨-, place⟩ := opening_of_ok success.symm
  have silent := opening_silent options (Machine.fresh source receiver).view
  refine ⟨?_, (congrArg View.place view).trans place, kept⟩
  rw [success, view, ← silent]
  rfl

theorem openOn_of_header {options : DecodeOptions} {source : Source} {header : Header}
    (accepted : (opening options (Machine.fresh source ()).view).result.map (·.header) = .ok header) (sink : Sink σ)
    (receiver : σ) :
    ∃ file opened, openOn sink options (.fresh source receiver) = (.ok file, opened) ∧ file.header = header := by
  obtain ⟨opened, same, -⟩ := openOn_outcome sink options (.fresh source receiver)
  have view : (Machine.fresh source receiver).view = (Machine.fresh source ()).view := rfl
  rw [view] at same
  rcases came : (opening options (Machine.fresh source ()).view).result with error | file
  · rw [came] at accepted
    cases accepted
  · rw [came] at same accepted
    exact ⟨file, opened, same, Except.ok.inj accepted⟩

def openThen {α : Type} (sink : Sink σ) (options : DecodeOptions) (next : OpenFile → Reading α) (machine : Machine σ) :
    Except DecodeError α × Machine σ :=
  match openOn sink options machine with
  | (.error error, opened) => (.error error, opened)
  | (.ok file, opened) => (next file).run sink opened

theorem openThen_outcome {α : Type} (sink : Sink σ) (options : DecodeOptions) (next : OpenFile → Reading α)
    (machine : Machine σ) {last : σ}
    (accepted : sink.accept? machine.receiver ((opening options machine.view).andThen next).handed = some last) :
    ∃ final, openThen sink options next machine = (((opening options machine.view).andThen next).result, final) ∧
      final.view = ((opening options machine.view).andThen next).view ∧ final.receiver = last := by
  obtain ⟨opened, same, view, kept⟩ := openOn_outcome sink options machine
  have silent := opening_silent options machine.view
  unfold Outcome.andThen at accepted ⊢
  rw [silent] at accepted ⊢
  rw [openThen, same]
  cases came : (opening options machine.view).result with
  | error error =>
    rw [came] at accepted
    exact ⟨opened, rfl, view, kept.trans (Option.some.inj accepted)⟩
  | ok file =>
    rw [came, ← view, ← kept] at accepted
    rw [← view]
    exact run_outcome _ opened accepted

end OpenFile

variable {σ : Type} (options : DecodeOptions) (sourceOnly : Bool)

def decodeOutcome (view : View) : Outcome Summary :=
  (OpenFile.opening options view).andThen fun file => file.decoding sourceOnly

theorem decode_outcome (sink : Sink σ) (machine : Machine σ) {last : σ}
    (accepted : sink.accept? machine.receiver (decodeOutcome options sourceOnly machine.view).handed = some last) :
    ∃ final, decode sink options sourceOnly machine = ((decodeOutcome options sourceOnly machine.view).result, final) ∧
      final.view = (decodeOutcome options sourceOnly machine.view).view ∧ final.receiver = last :=
  OpenFile.openThen_outcome sink options (fun file => file.decoding sourceOnly) machine accepted

theorem sinkCalls_accepted {sink : Sink σ} {source : Source} {receiver last : σ}
    (taken : sink.accept? receiver (decodeOutcome options sourceOnly (Machine.fresh source ()).view).handed =
      some last) :
    sinkCalls sink options sourceOnly (.fresh source receiver) =
      (decodeOutcome options sourceOnly (Machine.fresh source ()).view).handed := by
  have recorded := Sink.accept?_recorded_of_accept? taken
  obtain ⟨final, same, -, calls⟩ :=
    decode_outcome options sourceOnly sink.recorded (.fresh source (receiver, [])) recorded
  rw [sinkCalls_fresh, same, calls]

theorem sinkCalls_outcome {sink : Sink σ} (willing : ∀ receiver delivery, (sink receiver delivery).refusal = none)
    (source : Source) (receiver : σ) :
    (decode sink options sourceOnly (.fresh source receiver)).1 =
        (decodeOutcome options sourceOnly (Machine.fresh source ()).view).result ∧
      sinkCalls sink options sourceOnly (.fresh source receiver) =
        (decodeOutcome options sourceOnly (Machine.fresh source ()).view).handed := by
  have same : (Machine.fresh source receiver).view = (Machine.fresh source ()).view := rfl
  obtain ⟨last, accepted⟩ := sink.accept?_of_willing willing receiver
    (decodeOutcome options sourceOnly (Machine.fresh source receiver).view).handed
  obtain ⟨final, result, -, -⟩ := decode_outcome options sourceOnly sink (.fresh source receiver) accepted
  rw [result, same]
  exact ⟨rfl, sinkCalls_accepted options sourceOnly accepted⟩

end AmosBasic
