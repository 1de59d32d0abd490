import AmosBasic.Proofs.Reading.Confined

namespace AmosBasic

open Reading

namespace Reading

variable {σ α β : Type}

def Remarks (allowed : Note → Prop) : Reading α → Prop
  | done _ | fail _ => True
  | take _ next | skip _ next => ∀ bytes, (next bytes).Remarks allowed
  | position next => ∀ place, (next place).Remarks allowed
  | progress next => ∀ state, (next state).Remarks allowed
  | setProgress _ next | deliver _ next => next.Remarks allowed
  | note remark next => allowed remark ∧ next.Remarks allowed

variable {allowed : Note → Prop}

theorem remarks_bind {first : Reading α} {next : α → Reading β} (before : first.Remarks allowed)
    (after : ∀ value, (next value).Remarks allowed) : (first >>= next).Remarks allowed := by
  change (first.bind next).Remarks allowed
  induction first with
  | done value => exact after value
  | fail error => exact trivial
  | take _ _ ih | skip _ _ ih | position _ ih | progress _ ih => exact fun item => ih item (before item)
  | setProgress _ _ ih | deliver _ _ ih => exact ih before
  | note _ _ ih => exact ⟨before.1, ih before.2⟩

theorem remarks_currentPosition : currentPosition.Remarks allowed := fun _ => trivial

theorem remarks_currentProgress : currentProgress.Remarks allowed := fun _ => trivial

theorem remarks_updateProgress (change : Progress → Progress) : (updateProgress change).Remarks allowed :=
  fun _ => trivial

theorem remarks_bytes (count : Nat) : (bytes count).Remarks allowed := fun _ => trivial

theorem remarks_word (count : Nat) : (word count).Remarks allowed := fun _ => trivial

theorem remarks_forM {notes : List Note} (each : ∀ note ∈ notes, allowed note) :
    (notes.forM remark).Remarks allowed := by
  induction notes with
  | nil => exact trivial
  | cons note notes ih =>
    obtain ⟨first, others⟩ := List.forall_mem_cons.mp each
    exact ⟨first, ih others⟩

/-- The notes that a reading makes of itself, in their order. -/
def noted : Reading α → View → List Note
  | done _, _ | fail _, _ => []
  | take count next, view | skip count next, view =>
    if count ≤ view.unread.length then (next (view.unread.take count)).noted (view.behind count) else []
  | position next, view => (next view.place.position).noted view
  | progress next, view => (next view.place.progress).noted view
  | setProgress state next, view => next.noted { view with place.progress := state }
  | note remark next, view => remark :: next.noted view
  | deliver _ next, view => next.noted view

theorem noted_bind (first : Reading α) (next : α → Reading β) (view : View) :
    (first >>= next).noted view = first.noted view ++
      match (first.outcome view).result with
      | .ok value => (next value).noted (first.outcome view).view
      | .error _ => [] := by
  change (first.bind next).noted view = _
  induction first generalizing view with
  | done value => rfl
  | fail error => rfl
  | take count rest ih | skip count rest ih =>
    simp only [bind, noted, outcome]
    split
    · exact ih _ _
    · rfl
  | position rest ih | progress rest ih => exact ih _ _
  | setProgress state rest ih => exact ih _
  | note remark rest ih => exact congrArg (remark :: ·) (ih view)
  | deliver delivery rest ih => exact ih view

theorem noted_bind_of_ok {first : Reading α} {next : α → Reading β} {view middle : View} {value : α}
    {handed : List Delivery} (success : first.outcome view = ⟨.ok value, handed, middle⟩) :
    (first >>= next).noted view = first.noted view ++ (next value).noted middle := by
  rw [noted_bind, success]

theorem noted_bind_of_error {first : Reading α} {next : α → Reading β} {view last : View} {error : DecodeError}
    {handed : List Delivery} (failure : first.outcome view = ⟨.error error, handed, last⟩) :
    (first >>= next).noted view = first.noted view := by
  rw [noted_bind, failure]
  exact List.append_nil _

theorem noted_bind_of_quiet (first : Reading α) {next : α → Reading β}
    (quiet : ∀ value view, (next value).noted view = []) (view : View) :
    (first >>= next).noted view = first.noted view := by
  rw [noted_bind]
  split
  · rw [quiet, List.append_nil]
  · exact List.append_nil _

theorem noted_bytes_bind (count : Nat) (next : List UInt8 → Reading α) (view : View) :
    (Reading.bytes count >>= next).noted view =
      if count ≤ view.unread.length then (next (view.unread.take count)).noted (view.behind count) else [] := rfl

theorem noted_word_bind (count : Nat) (next : Nat → Reading α) (view : View) :
    (word count >>= next).noted view =
      if count ≤ view.unread.length then (next (bigEndian (view.unread.take count))).noted (view.behind count)
      else [] := rfl

theorem noted_byte_bind_of_cons (first : UInt8) (rest : List UInt8) {ending : Ending} {place : Place}
    (next : UInt8 → Reading α) :
    (byte >>= next).noted ⟨first :: rest, ending, place⟩ = (next first).noted ⟨rest, ending, place.behind 1⟩ := by
  have enough : 1 ≤ (first :: rest).length := Nat.le_add_left 1 _
  change (Reading.bytes 1 >>= fun bytes => next (bytes.headD 0)).noted _ = _
  rw [noted_bytes_bind, if_pos enough]
  exact congrArg (next first).noted (View.behind_append (show [first].length = 1 from rfl) ending place)

theorem outcome_remarks_bind (notes : List Note) (next : Unit → Reading α) (view : View) :
    (notes.forM remark >>= next).outcome view = (next ()).outcome view := by
  induction notes with
  | nil => rfl
  | cons note notes ih => exact ih

theorem noted_remarks_bind (notes : List Note) (next : Unit → Reading α) (view : View) :
    (notes.forM remark >>= next).noted view = notes ++ (next ()).noted view := by
  induction notes with
  | nil => rfl
  | cons note notes ih => exact congrArg (note :: ·) ih

theorem Remarks.noted {reading : Reading α} (remarks : reading.Remarks allowed) (view : View) :
    ∀ note ∈ reading.noted view, allowed note := by
  induction reading generalizing view with
  | done | fail => exact nofun
  | take count next ih | skip count next ih =>
    rw [Reading.noted]
    split
    · exact ih _ (remarks _) _
    · exact nofun
  | position next ih | progress next ih => exact ih _ (remarks _) view
  | setProgress state next ih => exact ih remarks _
  | note remark next ih => exact List.forall_mem_cons.mpr ⟨remarks.1, ih remarks.2 view⟩
  | deliver delivery next ih => exact ih remarks view

end Reading

def Note.IsShortRead (note : Note) : Prop :=
  ∃ offset wanted got, note = .shortRead offset wanted got

variable {σ α : Type}

theorem Machine.notes_draw (machine : Machine σ) (count : Nat) :
    ∃ short, (machine.draw count).2.notes.toList = machine.notes.toList ++ short ∧
      (count ≤ machine.unread.length → short = []) ∧ ∀ note ∈ short, note.IsShortRead := by
  have outcome := (machine.cursor.source.gather_eq count #[]).2.1
  by_cases enough : count ≤ machine.unread.length
  · have filled : machine.cursor.source.outcome count = .filled := if_pos enough
    refine ⟨[], ?_, fun _ => rfl, nofun⟩
    simp [draw, Cursor.draw, outcome, filled]
  · unfold draw
    dsimp only
    split
    · exact ⟨[_], Array.toList_push, fun fits => absurd fits enough, by simp [Note.IsShortRead]⟩
    · exact ⟨[], (List.append_nil _).symm, fun _ => rfl, nofun⟩

theorem Reading.Confined.run_notes {errors : DecodeError → Prop} {changes : (Progress → Progress) → Prop}
    {reading : Reading α} (confined : reading.Confined errors changes) (sink : Sink σ) (machine : Machine σ) :
    ∃ short, (reading.run sink machine).2.notes.toList =
        machine.notes.toList ++ (reading.noted machine.view ++ short) ∧ ∀ note ∈ short, note.IsShortRead := by
  induction confined generalizing machine with
  | done | fail => exact ⟨[], by simp [run, noted], nofun⟩
  | @take count next _ ih =>
    obtain ⟨short, drained, none, shortReads⟩ := machine.notes_draw count
    simp only [run, machine.draw_drawn, machine.drawn_result, noted]
    by_cases enough : count ≤ machine.unread.length
    · have fits : count ≤ machine.view.unread.length := enough
      obtain ⟨rest, behind, shortRest⟩ := ih (machine.unread.take count) (machine.draw count).2
      rw [machine.draw_view, drained, none enough, List.append_nil] at behind
      simp only [fits, enough, if_true]
      exact ⟨rest, behind, shortRest⟩
    · have unfilled : ¬ count ≤ machine.view.unread.length := enough
      simp only [unfilled, enough, if_false]
      exact ⟨short, drained, shortReads⟩
  | @skip count next _ ih =>
    simp only [run, machine.pass_drawn, machine.drawn_result, noted]
    by_cases enough : count ≤ machine.unread.length
    · have fits : count ≤ machine.view.unread.length := enough
      obtain ⟨rest, behind, shortRest⟩ := ih (machine.unread.take count) (machine.pass count).2
      rw [machine.pass_view] at behind
      simp only [fits, enough, if_true]
      exact ⟨rest, behind, shortRest⟩
    · have unfilled : ¬ count ≤ machine.view.unread.length := enough
      simp only [unfilled, enough, if_false]
      exact ⟨[], (List.append_nil _).symm, nofun⟩
  | position _ ih => exact ih _ machine
  | @change change _ _ _ ih => exact ih { machine with progress := change machine.progress }
  | @note remark _ _ ih =>
    obtain ⟨short, behind, shortReads⟩ := ih (machine.addNote remark)
    refine ⟨short, behind.trans ?_, shortReads⟩
    rw [Machine.addNote, Array.toList_push, List.append_assoc]
    rfl

theorem Shape.remarks_reading {allowed : Note → Prop} (opcode : UInt16) (shape : Shape) :
    (shape.reading opcode).Remarks allowed := by
  cases shape with
  | plain => exact trivial
  | control | integer | float => exact fun _ => trivial
  | quoted => exact fun _ _ => trivial
  | name => exact fun _ _ _ _ => trivial
  | extension | remark => exact fun _ _ _ => trivial

end AmosBasic
