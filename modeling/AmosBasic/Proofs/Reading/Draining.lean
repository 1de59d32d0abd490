import AmosBasic.Proofs.Reading.Outcome
import AmosBasic.Request

namespace AmosBasic

namespace Limited

open Source

variable {limited next : Limited} {room : Nat}

theorem interrupted_eq (h : limited.read room = (.interrupted, next)) :
    next.left = limited.left ∧ next.source.bytes = limited.source.bytes ∧
      next.source.ending = limited.source.ending := by
  unfold read at h
  split at h
  · simp at h
  · split at h <;> simp at h
    rename_i answer
    obtain ⟨rfl, rfl⟩ := h
    exact ⟨rfl, bytes_of_interrupted answer⟩

theorem failed_eq {text : String} (h : limited.read room = (.failed text, next)) :
    limited.left ≠ 0 ∧ limited.source.bytes = [] ∧ limited.source.ending = .broken text ∧
      next.source.bytes = [] ∧ next.source.ending = limited.source.ending := by
  unfold read at h
  split at h
  · simp at h
  · split at h <;> simp at h
    rename_i answer
    obtain ⟨rfl, rfl⟩ := h
    exact ⟨‹_›, bytes_of_failed answer⟩

/-- What was answered came off the source, and only a source that has ended answers without bytes short of the
limit. -/
theorem bytes_eq {piece : List UInt8} (h : limited.read room = (.bytes piece, next)) (positive : 0 < room) :
    limited.source.bytes = piece ++ next.source.bytes ∧ piece.length ≤ limited.left ∧
      next.left = limited.left - piece.length ∧ next.source.ending = limited.source.ending ∧
      (piece = [] → limited.left = 0 ∨ limited.source.bytes = [] ∧ limited.source.ending = .finished) := by
  have left := left_of_bytes h
  unfold read at h
  split at h
  · simp at h
    obtain ⟨rfl, rfl⟩ := h
    exact ⟨rfl, by simp, left, rfl, fun _ => .inl ‹_›⟩
  · split at h <;> simp at h
    · rename_i answer
      obtain ⟨rfl, rfl⟩ := h
      obtain ⟨split, fits, ending, last⟩ := bytes_of_answer answer
      exact ⟨split, by omega, left, ending, fun none => .inr (last (by omega) none)⟩
    · rename_i other _
      exact (other piece h.1).elim

theorem drain_zero {κ : Type} (room : Nat) (put : κ → List UInt8 → κ) (source : Source) (kept : κ) :
    drain room put ⟨source, 0⟩ kept = ⟨kept, none, source⟩ := by
  rw [drain]
  rfl

def failure? (limited : Limited) : Option String :=
  match limited.source.outcome limited.left with
  | .failed text => some text
  | _ => none

variable {κ : Type} {put : κ → List UInt8 → κ} {made : List UInt8 → κ}

theorem drain_eq (positive : 0 < room) (step : ∀ got piece, put (made got) piece = made (got ++ piece))
    (limited : Limited) (got : List UInt8) :
    (limited.drain room put (made got)).kept = made (got ++ limited.source.bytes.take limited.left) ∧
      (limited.drain room put (made got)).failure? = limited.failure? ∧
      (limited.drain room put (made got)).source.bytes = limited.source.bytes.drop limited.left ∧
      (limited.drain room put (made got)).source.ending = limited.source.ending := by
  generalize start : made got = kept
  -- What is kept and what is left on the source stay the same whole. Only a piece moves from one to the other.
  fun_induction drain room put limited kept generalizing got with
  | case1 limited kept next answer ih =>
    obtain ⟨left, bytes, ending⟩ := interrupted_eq answer
    have later := ih got start
    simpa only [failure?, outcome, left, bytes, ending] using later
  | case2 limited kept text next answer =>
    obtain ⟨left, bytes, ending, rest, last⟩ := failed_eq answer
    simp [failure?, outcome, bytes, ending, rest, last, left, start]
  | case3 limited kept next answer =>
    obtain ⟨split, -, -, ending, last⟩ := bytes_eq answer positive
    rcases last rfl with limit | ⟨empty, finished⟩
    · simp_all [failure?, outcome]
    · have rest : next.source.bytes = [] := split.symm.trans empty
      have ends : limited.failure? = none := by
        rw [failure?, outcome, empty, finished]
        by_cases none : limited.left ≤ ([] : List UInt8).length <;> simp only [none, if_true, if_false]
      simp [ends, empty, rest, ending, start]
  | case4 limited kept byte piece next answer ih =>
    obtain ⟨split, fits, left, ending, -⟩ := bytes_eq answer positive
    obtain ⟨kept, failure, rest, last⟩ := ih (got ++ byte :: piece) (by rw [← start, step])
    refine ⟨?_, ?_, ?_, by rw [last, ending]⟩
    · rw [kept, split, left, List.take_append, List.take_of_length_le fits, List.append_assoc]
    · rw [failure, failure?, failure?, outcome, outcome, split, ending, left, List.length_append]
      have same : limited.left - (byte :: piece).length ≤ next.source.bytes.length ↔
          limited.left ≤ (byte :: piece).length + next.source.bytes.length := by omega
      simp only [same]
    · rw [rest, split, left, List.drop_append, List.drop_of_length_le fits, List.nil_append]

end Limited

variable {σ κ : Type}

def View.answer (view : View) (count : Nat) : Except DecodeError (List UInt8) :=
  if count ≤ view.unread.length then .ok (view.unread.take count) else .error (view.shortage count)

namespace View

variable {view : View} {count : Nat}

theorem answer_of_enough (enough : count ≤ view.unread.length) :
    view.answer count = .ok (view.unread.take count) ∧ view.reach count = count :=
  ⟨if_pos enough, if_pos enough⟩

theorem answer_of_finished (short : view.unread.length < count) (finished : view.ending = .finished) :
    view.answer count = .error (.incompleteRead view.place.position count view.unread.length) ∧
      view.reach count = view.unread.length := by
  have unfilled := Nat.not_le.mpr short
  constructor
  · rw [answer, if_neg unfilled, shortage, finished]
  · rw [reach, if_neg unfilled, finished]

theorem answer_of_broken {text : String} (short : view.unread.length < count) (broken : view.ending = .broken text) :
    view.answer count = .error (.io text) ∧ view.reach count = 0 := by
  have unfilled := Nat.not_le.mpr short
  constructor
  · rw [answer, if_neg unfilled, shortage, broken]
  · rw [reach, if_neg unfilled, broken]

end View

def View.remarks (view : View) (count : Nat) : List Note :=
  match view.answer count with
  | .error (.incompleteRead offset expected actual) => [.shortRead offset expected actual]
  | _ => []

structure Machine.Answered (earlier : Machine σ) (count : Nat) (notes : List Note) (later : Machine σ) : Prop where
  view : later.view = earlier.view.behind count
  receiver : later.receiver = earlier.receiver
  notes : later.notes = earlier.notes ++ notes

theorem Machine.Answered.noteShortage {α : Type} {earlier later : Machine σ} {count : Nat}
    (answered : earlier.Answered count [] later) (made : List UInt8 → α) :
    earlier.Answered count (earlier.view.remarks count)
      (later.noteShortage ((earlier.view.answer count).map made)) := by
  obtain ⟨view, receiver, notes⟩ := answered
  have kept : later.notes = earlier.notes := by simpa using notes
  unfold Machine.noteShortage View.remarks
  rcases earlier.view.answer count with error | bytes
  · cases error with
    | incompleteRead offset expected actual =>
      exact ⟨view, receiver, by simp [Except.map, Machine.addNote, kept]⟩
    | _ => exact ⟨view, receiver, notes⟩
  · exact ⟨view, receiver, notes⟩

theorem Cursor.drain_answered {put : κ → List UInt8 → κ} {size : κ → Nat} (made : List UInt8 → κ)
    (step : ∀ got piece, put (made got) piece = made (got ++ piece)) (sized : ∀ got, size (made got) = got.length)
    (machine : Machine σ) (count : Nat) :
    (machine.cursor.drain put size (made []) count).1 = (machine.view.answer count).map made ∧
      machine.Answered count [] { machine with cursor := (machine.cursor.drain put size (made []) count).2 } := by
  obtain ⟨kept, failure, rest, ending⟩ := Limited.drain_eq (show 0 < room by decide) step
    ⟨machine.cursor.source, count⟩ []
  rw [List.nil_append] at kept
  -- The view behind the request, for the position that it moves to.
  have behind : ∀ position, position = machine.cursor.position + machine.view.reach count →
      machine.Answered count [] { machine with cursor := ⟨(Limited.drain room put ⟨machine.cursor.source, count⟩
        (made [])).source, position⟩ } := by
    rintro _ rfl
    refine ⟨?_, rfl, (Array.append_empty).symm⟩
    simp only [Machine.view, Machine.unread, Machine.ending, Machine.place, rest, ending]
    rfl
  by_cases enough : count ≤ machine.cursor.source.bytes.length
  · have whole : (machine.cursor.source.bytes.take count).length = count := List.length_take_of_le enough
    obtain ⟨answer, reach⟩ : machine.view.answer count = .ok (machine.cursor.source.bytes.take count) ∧
        machine.view.reach count = count := View.answer_of_enough enough
    simp only [drain, failure, Limited.failure?, Source.outcome, enough, if_true, kept, sized, whole, answer,
      Nat.lt_irrefl, if_false]
    exact ⟨rfl, behind _ (by rw [reach])⟩
  · have less : machine.cursor.source.bytes.length < count := Nat.not_le.mp enough
    have short : machine.cursor.source.bytes.take count = machine.cursor.source.bytes :=
      List.take_of_length_le (Nat.le_of_lt less)
    cases last : machine.cursor.source.ending with
    | finished =>
      obtain ⟨answer, reach⟩ : machine.view.answer count =
            .error (.incompleteRead machine.cursor.position count machine.cursor.source.bytes.length) ∧
          machine.view.reach count = machine.cursor.source.bytes.length := View.answer_of_finished less last
      simp only [drain, failure, Limited.failure?, Source.outcome, enough, if_false, last, kept, sized, short,
        answer, less, if_true]
      exact ⟨rfl, behind _ (by rw [reach])⟩
    | broken text =>
      obtain ⟨answer, reach⟩ : machine.view.answer count = .error (.io text) ∧ machine.view.reach count = 0 :=
        View.answer_of_broken less last
      simp only [drain, failure, Limited.failure?, Source.outcome, enough, if_false, last, answer]
      exact ⟨rfl, behind _ (by rw [reach, Nat.add_zero])⟩

namespace Machine

variable (machine : Machine σ) (count : Nat)

theorem discard_answered :
    (machine.discard count).1 = (machine.view.answer count).map List.length ∧
      machine.Answered count [] (machine.discard count).2 :=
  Cursor.drain_answered List.length (fun _ _ => List.length_append.symm) (fun _ => rfl) machine count

theorem collect_answered :
    (machine.collect count).1 = (machine.view.answer count).map List.toArray ∧
      machine.Answered count (machine.view.remarks count) (machine.collect count).2 := by
  have step : ∀ got piece : List UInt8, got.toArray ++ piece = (got ++ piece).toArray := by simp
  obtain ⟨result, answered⟩ := Cursor.drain_answered List.toArray step (fun _ => List.size_toArray) machine count
  have noted := answered.noteShortage List.toArray
  rw [← result] at noted
  exact ⟨result, noted⟩

theorem pass_answered :
    (machine.pass count).1.result machine.cursor.position count = machine.view.answer count ∧
      (machine.pass count).1.bytes = machine.unread.take count ∧
      machine.Answered count [] (machine.pass count).2 := by
  rw [pass_drawn]
  exact ⟨machine.drawn_result count, rfl, machine.pass_view count, rfl, by simp [pass]⟩

theorem draw_eq :
    machine.draw count = ((machine.pass count).1,
      (machine.pass count).2.noteShortage ((machine.pass count).1.result machine.cursor.position count)) := by
  unfold draw pass Drawn.result
  dsimp only
  cases (machine.cursor.draw count).1.outcome <;> rfl

theorem draw_answered :
    (machine.draw count).1.result machine.cursor.position count = machine.view.answer count ∧
      (machine.draw count).1.bytes = machine.unread.take count ∧
      machine.Answered count (machine.view.remarks count) (machine.draw count).2 := by
  obtain ⟨result, bytes, answered⟩ := machine.pass_answered count
  have noted := answered.noteShortage id
  rw [Except.map_id] at noted
  rw [draw_eq, result]
  exact ⟨rfl, bytes, noted⟩

theorem draw_zero : machine.draw 0 = (⟨[], .filled⟩, machine) := by
  unfold draw Cursor.draw Source.gather
  rfl

end Machine

namespace Request

def remarks (request : Request) (view : View) : List Note :=
  match request with
  | skip _ => []
  | _ => view.remarks request.size

/-- However a request reads its bytes, it is answered from the bytes that are left, and leaves those behind it. -/
theorem perform_answered (request : Request) (machine : Machine σ) :
    (request.perform machine).1 =
        ⟨(machine.view.answer request.size).bind request.reply,
          request.bufferAfter (machine.unread.take request.size)⟩ ∧
      machine.Answered request.size (request.remarks machine.view) (request.perform machine).2 := by
  cases request with
  | bytes count =>
    obtain ⟨result, answered⟩ := machine.collect_answered count
    refine ⟨?_, answered⟩
    simp only [perform, result, size, bufferAfter]
    cases machine.view.answer count <;> rfl
  | skip count =>
    obtain ⟨result, answered⟩ := machine.discard_answered count
    refine ⟨?_, answered⟩
    simp only [perform, result, size, bufferAfter]
    cases machine.view.answer count <;> rfl
  | fill | array | unsigned | signed | float =>
    obtain ⟨result, bytes, answered⟩ := machine.draw_answered _
    refine ⟨?_, answered⟩
    simp only [perform, result, bytes]

end Request

end AmosBasic
