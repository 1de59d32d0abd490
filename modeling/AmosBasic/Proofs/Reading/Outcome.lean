import AmosBasic.Proofs.Reading.Replay

namespace AmosBasic

/-- All of a machine that decides how a run goes on: what is left to read, and the place. -/
structure View where
  unread : List UInt8
  ending : Ending
  place : Place

namespace View

/-- How far a request for `count` bytes moves the position. A failing source does not move it. -/
def reach (view : View) (count : Nat) : Nat :=
  if count ≤ view.unread.length then count
  else match view.ending with
    | .finished => view.unread.length
    | .broken _ => 0

def behind (view : View) (count : Nat) : View :=
  { view with unread := view.unread.drop count, place := view.place.behind (view.reach count) }

def shortage (view : View) (count : Nat) : DecodeError :=
  match view.ending with
  | .finished => .incompleteRead view.place.position count view.unread.length
  | .broken text => .io text

theorem behind_append {piece rest : List UInt8} {count : Nat} (filled : piece.length = count) (ending : Ending)
    (place : Place) : behind ⟨piece ++ rest, ending, place⟩ count = ⟨rest, ending, place.behind count⟩ := by
  subst filled
  simp [behind, reach]

theorem behind_place {view : View} {count : Nat} (enough : count ≤ view.unread.length) :
    (view.behind count).place = view.place.behind count := by
  have whole : view.reach count = count := if_pos enough
  rw [behind, whole]

theorem behind_behind (view : View) {first second : Nat} (enough : first + second ≤ view.unread.length) :
    (view.behind first).behind second = view.behind (first + second) := by
  have room : second ≤ (view.behind first).unread.length := by
    simp only [behind, List.length_drop]
    omega
  have start : first ≤ view.unread.length := by omega
  have place : ((view.behind first).behind second).place = (view.behind (first + second)).place := by
    rw [behind_place room, behind_place start, behind_place enough, Place.behind_behind]
  have unread : ((view.behind first).behind second).unread = (view.behind (first + second)).unread := by
    simp only [behind, List.drop_drop]
  rw [behind, behind, mk.injEq]
  exact ⟨unread, rfl, place⟩

theorem short_of_length {one other : List UInt8} {count : Nat} (short : one.length < count)
    (length : other.length = one.length) (ending : Ending) (place : Place) :
    shortage ⟨other, ending, place⟩ count = shortage ⟨one, ending, place⟩ count ∧
      behind ⟨other, ending, place⟩ count = behind ⟨one, ending, place⟩ count := by
  have unfilled : ¬ count ≤ one.length := Nat.not_le.mpr short
  have rest : one.drop count = [] := List.drop_of_length_le (by omega)
  have otherRest : other.drop count = [] := List.drop_of_length_le (by omega)
  constructor
  · simp only [shortage, length]
  · simp only [behind, reach, unfilled, rest, otherRest, length]

end View

def Machine.view {σ : Type} (machine : Machine σ) : View := ⟨machine.unread, machine.ending, machine.place⟩

theorem Machine.pass_view {σ : Type} (machine : Machine σ) (count : Nat) :
    (machine.pass count).2.view = machine.view.behind count := by
  obtain ⟨bytes, outcome, rest, ending⟩ := machine.cursor.source.gather_eq count #[]
  have size : (machine.cursor.source.gather count #[]).bytes.size = min count machine.unread.length := by
    rw [← Array.length_toList, bytes]
    exact List.length_take
  have passed := machine.pass_passed count
  have place : (machine.pass count).2.place = machine.place.behind (machine.view.reach count) := by
    by_cases enough : count ≤ machine.unread.length
    · have whole : machine.view.reach count = count := if_pos enough
      rw [whole, passed.place enough]
    · have unfilled : ¬ count ≤ machine.cursor.source.bytes.length := enough
      have short : min count machine.unread.length = machine.unread.length := by omega
      simp only [Machine.place, pass, Cursor.draw, outcome, Source.outcome, unfilled, if_false, size, short,
        View.reach, view, enough, Place.behind, Machine.ending]
      cases machine.cursor.source.ending <;> rfl
  rw [Machine.view, passed.unread, passed.ending, place]
  rfl

theorem Machine.draw_view {σ : Type} (machine : Machine σ) (count : Nat) :
    (machine.draw count).2.view = machine.view.behind count := by
  obtain ⟨notes, same⟩ := machine.draw_eq_pass count
  rw [same]
  exact machine.pass_view count

structure Outcome (α : Type) where
  result : Except DecodeError α
  handed : List Delivery
  view : View

def Reading.outcome {α : Type} : Reading α → View → Outcome α
  | done value, view => ⟨.ok value, [], view⟩
  | fail error, view => ⟨.error error, [], view⟩
  | take count next, view | skip count next, view =>
    if count ≤ view.unread.length then (next (view.unread.take count)).outcome (view.behind count)
    else ⟨.error (view.shortage count), [], view.behind count⟩
  | position next, view => (next view.place.position).outcome view
  | progress next, view => (next view.place.progress).outcome view
  | setProgress state next, view => next.outcome { view with place.progress := state }
  | note _ next, view => next.outcome view
  | deliver delivery next, view =>
    let later := next.outcome view
    { later with handed := delivery :: later.handed }

theorem Outcome.cases_of_silent {α : Type} {outcome : Outcome α} (silent : outcome.handed = []) :
    (∃ error last, outcome = ⟨.error error, [], last⟩) ∨ ∃ value last, outcome = ⟨.ok value, [], last⟩ := by
  obtain ⟨error | value, handed, last⟩ := outcome <;> cases silent
  · exact .inl ⟨error, last, rfl⟩
  · exact .inr ⟨value, last, rfl⟩

def Outcome.andThen {α β : Type} (outcome : Outcome α) (next : α → Reading β) : Outcome β :=
  match outcome.result with
  | .ok value =>
    let later := (next value).outcome outcome.view
    { later with handed := outcome.handed ++ later.handed }
  | .error error => ⟨.error error, outcome.handed, outcome.view⟩

namespace Reading

variable {σ α β : Type} {view : View}

theorem outcome_bind (first : Reading α) (next : α → Reading β) (view : View) :
    (first >>= next).outcome view = (first.outcome view).andThen next := by
  change (first.bind next).outcome view = _
  induction first generalizing view with
  | done value => rfl
  | fail error => rfl
  | take count rest ih | skip count rest ih =>
    simp only [bind, outcome]
    by_cases enough : count ≤ view.unread.length
    · simp only [enough, if_true, ih]
    · simp only [enough, if_false, Outcome.andThen]
  | position rest ih | progress rest ih => exact ih _ _
  | setProgress progress rest ih | note remark rest ih => exact ih _
  | deliver delivery rest ih =>
    simp only [bind, outcome, ih, Outcome.andThen]
    cases (rest.outcome view).result <;> rfl

theorem outcome_bind_of_ok {first : Reading α} {next : α → Reading β} {value : α} {middle : View}
    (success : first.outcome view = ⟨.ok value, [], middle⟩) :
    (first >>= next).outcome view = (next value).outcome middle := by
  rw [outcome_bind, success]
  rfl

theorem outcome_bind_of_error {first : Reading α} {next : α → Reading β} {error : DecodeError}
    {handed : List Delivery} {last : View} (failure : first.outcome view = ⟨.error error, handed, last⟩) :
    (first >>= next).outcome view = ⟨.error error, handed, last⟩ := by
  rw [outcome_bind, failure]
  rfl

theorem outcome_bind_pure (first : Reading α) (result : α → β) :
    (first >>= fun value => pure (result value)).outcome view =
      ⟨(first.outcome view).result.map result, (first.outcome view).handed, (first.outcome view).view⟩ := by
  rw [outcome_bind, Outcome.andThen]
  cases (first.outcome view).result with
  | ok value => simp [pure, outcome, Except.map]
  | error error => rfl

theorem outcome_bytes_bind (count : Nat) (next : List UInt8 → Reading α) :
    (Reading.bytes count >>= next).outcome view =
      if count ≤ view.unread.length then (next (view.unread.take count)).outcome (view.behind count)
      else ⟨.error (view.shortage count), [], view.behind count⟩ := rfl

theorem outcome_bytes_bind_of_append {piece rest : List UInt8} {count : Nat} (filled : piece.length = count)
    {ending : Ending} {place : Place} (next : List UInt8 → Reading α) :
    (Reading.bytes count >>= next).outcome ⟨piece ++ rest, ending, place⟩ =
      (next piece).outcome ⟨rest, ending, place.behind count⟩ := by
  have enough : count ≤ (piece ++ rest).length := by simp [filled]
  have first : (piece ++ rest).take count = piece := List.take_left' filled
  rw [outcome_bytes_bind, if_pos enough, View.behind_append filled, first]

theorem outcome_word_bind (count : Nat) (next : Nat → Reading α) :
    (word count >>= next).outcome view =
      if count ≤ view.unread.length then (next (bigEndian (view.unread.take count))).outcome (view.behind count)
      else ⟨.error (view.shortage count), [], view.behind count⟩ := rfl

theorem outcome_word_bind_of_append {piece rest : List UInt8} {count : Nat} (filled : piece.length = count)
    {ending : Ending} {place : Place} (next : Nat → Reading α) :
    (word count >>= next).outcome ⟨piece ++ rest, ending, place⟩ =
      (next (bigEndian piece)).outcome ⟨rest, ending, place.behind count⟩ :=
  outcome_bytes_bind_of_append filled fun bytes => next (bigEndian bytes)

theorem outcome_byte_bind_of_cons (first : UInt8) (rest : List UInt8) {ending : Ending} {place : Place}
    (next : UInt8 → Reading α) :
    (byte >>= next).outcome ⟨first :: rest, ending, place⟩ = (next first).outcome ⟨rest, ending, place.behind 1⟩ :=
  outcome_bytes_bind_of_append (show [first].length = 1 from rfl) fun bytes => next (bytes.headD 0)

@[simp] theorem outcome_currentPosition_bind (next : Nat → Reading α) :
    (currentPosition >>= next).outcome view = (next view.place.position).outcome view := rfl

@[simp] theorem outcome_currentProgress_bind (next : Progress → Reading α) :
    (currentProgress >>= next).outcome view = (next view.place.progress).outcome view := rfl

@[simp] theorem outcome_updateProgress_bind (change : Progress → Progress) (next : Unit → Reading α) :
    (updateProgress change >>= next).outcome view =
      (next ()).outcome { view with place.progress := change view.place.progress } := rfl

@[simp] theorem outcome_remark_bind (note : Note) (next : Unit → Reading α) :
    (remark note >>= next).outcome view = (next ()).outcome view := rfl

theorem outcome_handOver_bind (delivery : Delivery) (next : Unit → Reading α) :
    (handOver delivery >>= next).outcome view =
      { (next ()).outcome view with handed := delivery :: ((next ()).outcome view).handed } := rfl

theorem outcome_ending (reading : Reading α) (view : View) : (reading.outcome view).view.ending = view.ending := by
  induction reading generalizing view with
  | done value => rfl
  | fail error => rfl
  | take count next ih | skip count next ih =>
    rw [outcome]
    split
    · exact ih _ _
    · rfl
  | position next ih | progress next ih => exact ih _ _
  | setProgress progress next ih | note remark next ih | deliver delivery next ih => exact ih _

theorem run_outcome {sink : Sink σ} (reading : Reading α) (machine : Machine σ) {last : σ}
    (accepted : sink.accept? machine.receiver (reading.outcome machine.view).handed = some last) :
    ∃ final, reading.run sink machine = ((reading.outcome machine.view).result, final) ∧
      final.view = (reading.outcome machine.view).view ∧ final.receiver = last := by
  induction reading generalizing machine with
  | done value => exact ⟨machine, rfl, rfl, Option.some.inj accepted⟩
  | fail error => exact ⟨machine, rfl, rfl, Option.some.inj accepted⟩
  | take count next ih =>
    have view := machine.draw_view count
    have receiver := (machine.draw_passed count).receiver
    simp only [outcome, run, machine.draw_drawn, machine.drawn_result] at accepted ⊢
    by_cases enough : count ≤ machine.unread.length
    · have fits : count ≤ machine.view.unread.length := enough
      simp only [fits, enough, if_true] at accepted ⊢
      rw [← view, ← receiver] at accepted
      rw [← view]
      exact ih _ _ accepted
    · have short : ¬ count ≤ machine.view.unread.length := enough
      simp only [short, enough, if_false] at accepted ⊢
      rw [← receiver] at accepted
      exact ⟨_, rfl, view, Option.some.inj accepted⟩
  | skip count next ih =>
    have view := machine.pass_view count
    have receiver := (machine.pass_passed count).receiver
    simp only [outcome, run, machine.pass_drawn, machine.drawn_result] at accepted ⊢
    by_cases enough : count ≤ machine.unread.length
    · have fits : count ≤ machine.view.unread.length := enough
      simp only [fits, enough, if_true] at accepted ⊢
      rw [← view, ← receiver] at accepted
      rw [← view]
      exact ih _ _ accepted
    · have short : ¬ count ≤ machine.view.unread.length := enough
      simp only [short, enough, if_false] at accepted ⊢
      rw [← receiver] at accepted
      exact ⟨_, rfl, view, Option.some.inj accepted⟩
  | position next ih | progress next ih => exact ih _ machine accepted
  | setProgress progress next ih => exact ih { machine with progress } accepted
  | note remark next ih => exact ih (machine.addNote remark) accepted
  | deliver delivery next ih =>
    cases refusal : (sink machine.receiver delivery).refusal <;>
      simp only [outcome, Sink.accept?, refusal] at accepted
    · simp only [run, Machine.deliver, refusal, outcome]
      exact ih _ accepted
    · cases accepted

theorem run_of_silent (sink : Sink σ) {reading : Reading α} (machine : Machine σ)
    (silent : (reading.outcome machine.view).handed = []) :
    ∃ final, reading.run sink machine = ((reading.outcome machine.view).result, final) ∧
      final.view = (reading.outcome machine.view).view ∧ final.receiver = machine.receiver := by
  apply run_outcome
  rw [silent]
  rfl

theorem outcome_of_passes {reading : Reading α} {start stop : Place} {bytes : List UInt8} {handed : List Delivery}
    {value : α} (passage : Passes reading start bytes handed stop value) (rest : List UInt8) (ending : Ending) :
    reading.outcome ⟨bytes ++ rest, ending, start⟩ = ⟨.ok value, handed, ⟨rest, ending, stop⟩⟩ := by
  induction passage with
  | done => rfl
  | take filled _ ih | skip filled _ ih =>
    rw [List.append_assoc]
    exact (outcome_bytes_bind_of_append filled _).trans ih
  | position _ ih | progress _ ih | setProgress _ ih | note _ ih => exact ih
  | deliver _ ih => rw [outcome, ih]

theorem outcome_bind_of_passes {first : Reading α} {next : α → Reading β} {start middle : Place} {piece : List UInt8}
    {value : α} (passage : Passes first start piece [] middle value) (rest : List UInt8) (ending : Ending) :
    (first >>= next).outcome ⟨piece ++ rest, ending, start⟩ = (next value).outcome ⟨rest, ending, middle⟩ :=
  outcome_bind_of_ok (outcome_of_passes passage rest ending)

theorem after_request {count : Nat} {next : List UInt8 → Reading α} {handed : List Delivery} {value : α} {last : View}
    (success : (Reading.bytes count >>= next).outcome view = ⟨.ok value, handed, last⟩)
    (after : ∀ (piece : List UInt8) {view : View} {handed : List Delivery},
      (next piece).outcome view = ⟨.ok value, handed, last⟩ →
      ∃ bytes, view.unread = bytes ++ last.unread ∧ last.ending = view.ending ∧
        Passes (next piece) view.place bytes handed last.place value) :
    ∃ piece bytes, piece.length = count ∧ view.unread = piece ++ bytes ++ last.unread ∧ last.ending = view.ending ∧
      Passes (next piece) (view.place.behind count) bytes handed last.place value := by
  rw [outcome_bytes_bind] at success
  by_cases enough : count ≤ view.unread.length
  · rw [if_pos enough] at success
    obtain ⟨bytes, unread, ending, passage⟩ := after _ success
    have rest : view.unread.drop count = bytes ++ last.unread := unread
    rw [View.behind_place enough] at passage
    refine ⟨_, bytes, List.length_take_of_le enough, ?_, ending, passage⟩
    rw [List.append_assoc, ← rest, List.take_append_drop]
  · rw [if_neg enough] at success
    cases success

theorem passes_of_outcome {reading : Reading α} {handed : List Delivery} {value : α} {last : View}
    (success : reading.outcome view = ⟨.ok value, handed, last⟩) :
    ∃ bytes, view.unread = bytes ++ last.unread ∧ last.ending = view.ending ∧
      Passes reading view.place bytes handed last.place value := by
  induction reading generalizing view handed with
  | done result =>
    cases success
    exact ⟨[], rfl, rfl, .done⟩
  | fail error => cases success
  | take count next ih =>
    obtain ⟨piece, bytes, filled, unread, ending, passage⟩ := after_request success ih
    exact ⟨piece ++ bytes, unread, ending, .take filled passage⟩
  | skip count next ih =>
    obtain ⟨piece, bytes, filled, unread, ending, passage⟩ := after_request success ih
    exact ⟨piece ++ bytes, unread, ending, .skip filled passage⟩
  | position next ih =>
    obtain ⟨bytes, unread, ending, passage⟩ := ih _ success
    exact ⟨bytes, unread, ending, .position passage⟩
  | progress next ih =>
    obtain ⟨bytes, unread, ending, passage⟩ := ih _ success
    exact ⟨bytes, unread, ending, .progress passage⟩
  | setProgress progress next ih =>
    obtain ⟨bytes, unread, ending, passage⟩ := ih success
    exact ⟨bytes, unread, ending, .setProgress passage⟩
  | note remark next ih =>
    obtain ⟨bytes, unread, ending, passage⟩ := ih success
    exact ⟨bytes, unread, ending, .note passage⟩
  | deliver delivery next ih =>
    rw [outcome] at success
    obtain ⟨ok, rfl, same⟩ := Outcome.mk.inj success
    have later : next.outcome view = ⟨.ok value, (next.outcome view).handed, last⟩ := by rw [← ok, ← same]
    obtain ⟨bytes, unread, ending, passage⟩ := ih later
    exact ⟨bytes, unread, ending, .deliver passage⟩

/-- What a reading brings depends on the bytes that it takes, and not on what is behind them. -/
theorem eq_of_same_taken {reading : Reading α} {one other oneLast otherLast : View}
    {oneHanded otherHanded : List Delivery} {value otherValue : α} (place : one.place = other.place)
    (first : reading.outcome one = ⟨.ok value, oneHanded, oneLast⟩)
    (second : reading.outcome other = ⟨.ok otherValue, otherHanded, otherLast⟩)
    (taken : one.unread.take (oneLast.place.position - one.place.position) =
      other.unread.take (otherLast.place.position - other.place.position)) : value = otherValue := by
  obtain ⟨bytes, unread, -, passage⟩ := passes_of_outcome first
  obtain ⟨otherBytes, otherUnread, -, otherPassage⟩ := passes_of_outcome second
  have size : oneLast.place.position - one.place.position = bytes.length := by
    rw [passage.stop_position]
    omega
  have otherSize : otherLast.place.position - other.place.position = otherBytes.length := by
    rw [otherPassage.stop_position]
    omega
  rw [size, otherSize, unread, otherUnread, List.take_left, List.take_left] at taken
  have again := outcome_of_passes passage otherLast.unread other.ending
  rw [taken, ← otherUnread, place] at again
  have same : Outcome.mk (.ok value) oneHanded _ = Outcome.mk (.ok otherValue) otherHanded otherLast :=
    again.symm.trans second
  exact Except.ok.inj (congrArg Outcome.result same)

inductive Repeats (reading : Reading α) : View → List α → View → Prop
  | nil {view : View} : Repeats reading view [] view
  | cons {view middle stop : View} {value : α} {values : List α}
      (first : reading.outcome view = ⟨.ok value, [], middle⟩) (rest : Repeats reading middle values stop) :
      Repeats reading view (value :: values) stop

end Reading

inductive EndAlike {α β : Type} (error : DecodeError → DecodeError → Prop) (value : α → β → Prop) :
    Except DecodeError α → Except DecodeError β → Prop
  | ok {first : α} {second : β} (related : value first second) : EndAlike error value (.ok first) (.ok second)
  | error {first second : DecodeError} (same : error first second) :
      EndAlike error value (.error first) (.error second)

section

variable {α β γ δ : Type} {error : DecodeError → DecodeError → Prop}

theorem endAlike_refl {value : α → α → Prop} (errors : ∀ one, error one one) (values : ∀ one, value one one)
    (result : Except DecodeError α) : EndAlike error value result result := by
  cases result with
  | ok one => exact .ok (values one)
  | error one => exact .error (errors one)

theorem EndAlike.map {value : α → β → Prop} {later : γ → δ → Prop} {first : Except DecodeError α}
    {second : Except DecodeError β} (alike : EndAlike error value first second) {item : α → γ} {other : β → δ}
    (mapped : ∀ one two, value one two → later (item one) (other two)) :
    EndAlike error later (first.map item) (second.map other) := by
  cases alike with
  | ok related => exact .ok (mapped _ _ related)
  | error same => exact .error same

end

end AmosBasic
