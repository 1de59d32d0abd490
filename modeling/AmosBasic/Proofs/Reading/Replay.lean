import AmosBasic.Proofs.Reading.Passage
import AmosBasic.Source.Lemmas

namespace AmosBasic

namespace Machine

variable {σ : Type}

def unread (machine : Machine σ) : List UInt8 := machine.cursor.source.bytes

def ending (machine : Machine σ) : Ending := machine.cursor.source.ending

def place (machine : Machine σ) : Place := ⟨machine.cursor.position, machine.progress⟩

structure Passed (earlier : Machine σ) (count : Nat) (later : Machine σ) : Prop where
  unread : later.unread = earlier.unread.drop count
  ending : later.ending = earlier.ending
  receiver : later.receiver = earlier.receiver
  place : count ≤ earlier.unread.length → later.place = earlier.place.behind count

theorem pass_passed (machine : Machine σ) (count : Nat) : machine.Passed count (machine.pass count).2 := by
  obtain ⟨bytes, outcome, rest, ending⟩ := machine.cursor.source.gather_eq count #[]
  refine ⟨rest, ending, rfl, fun enough => ?_⟩
  have size : (machine.cursor.source.gather count #[]).bytes.size = count := by
    rw [← Array.length_toList, bytes]
    exact List.length_take_of_le enough
  have filled : machine.cursor.source.outcome count = .filled := if_pos enough
  simp [place, pass, Cursor.draw, outcome, filled, size, Place.behind]

theorem pass_drawn (machine : Machine σ) (count : Nat) :
    (machine.pass count).1 = ⟨machine.unread.take count, machine.cursor.source.outcome count⟩ := by
  obtain ⟨bytes, outcome, -, -⟩ := machine.cursor.source.gather_eq count #[]
  simp [pass, Cursor.draw, bytes, outcome, unread]

theorem draw_eq_pass (machine : Machine σ) (count : Nat) :
    ∃ notes, machine.draw count = ((machine.pass count).1, { (machine.pass count).2 with notes }) := by
  unfold draw pass
  dsimp only
  split <;> exact ⟨_, rfl⟩

theorem draw_passed (machine : Machine σ) (count : Nat) : machine.Passed count (machine.draw count).2 := by
  obtain ⟨notes, same⟩ := machine.draw_eq_pass count
  rw [same]
  have passed := machine.pass_passed count
  exact ⟨passed.unread, passed.ending, passed.receiver, passed.place⟩

theorem draw_drawn (machine : Machine σ) (count : Nat) :
    (machine.draw count).1 = ⟨machine.unread.take count, machine.cursor.source.outcome count⟩ := by
  obtain ⟨notes, same⟩ := machine.draw_eq_pass count
  rw [same]
  exact machine.pass_drawn count

/-- Why a request for `count` bytes fails when `got` are left. -/
def shortage (machine : Machine σ) (count : Nat) : DecodeError :=
  match machine.ending with
  | .finished => .incompleteRead machine.cursor.position count machine.unread.length
  | .broken text => .io text

theorem drawn_result (machine : Machine σ) (count : Nat) :
    Drawn.result ⟨machine.unread.take count, machine.cursor.source.outcome count⟩ machine.cursor.position count =
      if count ≤ machine.unread.length then .ok (machine.unread.take count)
      else .error (machine.shortage count) := by
  by_cases enough : count ≤ machine.unread.length
  · have filled : machine.cursor.source.outcome count = .filled := if_pos enough
    simp [Drawn.result, filled, enough]
  · have whole : machine.unread.take count = machine.unread := List.take_of_length_le (by omega)
    have unfilled : ¬ count ≤ machine.cursor.source.bytes.length := enough
    rw [whole, if_neg enough]
    simp only [Drawn.result, Source.outcome, unfilled, if_false, shortage, ending]
    cases machine.cursor.source.ending <;> rfl

end Machine

def Sink.accept? {σ : Type} (sink : Sink σ) (receiver : σ) : List Delivery → Option σ
  | [] => some receiver
  | delivery :: later =>
    match (sink receiver delivery).refusal with
    | none => sink.accept? (sink receiver delivery).receiver later
    | some _ => none

theorem Sink.accept?_of_willing {σ : Type} (sink : Sink σ)
    (willing : ∀ receiver delivery, (sink receiver delivery).refusal = none) (receiver : σ)
    (handed : List Delivery) : ∃ last, sink.accept? receiver handed = some last := by
  induction handed generalizing receiver with
  | nil => exact ⟨receiver, rfl⟩
  | cons delivery handed ih =>
    simp only [accept?, willing]
    exact ih _

theorem Sink.accept?_append {σ : Type} (sink : Sink σ) (receiver : σ) (front back : List Delivery) :
    sink.accept? receiver (front ++ back) =
      (sink.accept? receiver front).bind fun later => sink.accept? later back := by
  induction front generalizing receiver with
  | nil => rfl
  | cons delivery front ih =>
    cases answer : (sink receiver delivery).refusal with
    | some error => simp [accept?, answer]
    | none => simp [accept?, answer, ih]

theorem Sink.accept?_of_prefix {σ : Type} (sink : Sink σ) {receiver last : σ} {early handed : List Delivery}
    (among : early <+: handed) (accepted : sink.accept? receiver handed = some last) :
    ∃ middle, sink.accept? receiver early = some middle := by
  obtain ⟨late, rfl⟩ := among
  rw [accept?_append, Option.bind_eq_some_iff] at accepted
  obtain ⟨middle, taken, -⟩ := accepted
  exact ⟨middle, taken⟩

namespace Reading

variable {σ α : Type} {sink : Sink σ} {machine final : Machine σ} {value : α}

def Requests (reading : Reading α) (count : Nat) (next : List UInt8 → Reading α) : Prop :=
  ∀ (σ : Type) (sink : Sink σ) (machine : Machine σ), ∃ later, machine.Passed count later ∧
    reading.run sink machine =
      if count ≤ machine.unread.length then (next (machine.unread.take count)).run sink later
      else (.error (machine.shortage count), later)

theorem requests_take (count : Nat) (next : List UInt8 → Reading α) : Requests (take count next) count next := by
  intro σ sink machine
  refine ⟨_, machine.draw_passed count, ?_⟩
  simp only [run, machine.draw_drawn, machine.drawn_result]
  by_cases enough : count ≤ machine.unread.length <;> simp only [enough, if_true, if_false]

theorem requests_skip (count : Nat) (next : List UInt8 → Reading α) : Requests (skip count next) count next := by
  intro σ sink machine
  refine ⟨_, machine.pass_passed count, ?_⟩
  simp only [run, machine.pass_drawn, machine.drawn_result]
  by_cases enough : count ≤ machine.unread.length <;> simp only [enough, if_true, if_false]

variable {reading : Reading α} {count : Nat} {next : List UInt8 → Reading α}

theorem Requests.run_of_enough (request : Requests reading count next) (sink : Sink σ) {machine : Machine σ}
    {piece rest : List UInt8} (unread : machine.unread = piece ++ rest) (filled : piece.length = count) :
    ∃ later, reading.run sink machine = (next piece).run sink later ∧ later.unread = rest ∧
      later.place = machine.place.behind count ∧ later.receiver = machine.receiver ∧
      later.ending = machine.ending := by
  obtain ⟨later, passed, answer⟩ := request _ sink machine
  have fits : count ≤ machine.unread.length := by simp [unread, filled]
  have first : machine.unread.take count = piece := by simp [unread, ← filled]
  rw [if_pos fits, first] at answer
  exact ⟨later, answer, by simp [passed.unread, unread, ← filled], passed.place fits, passed.receiver, passed.ending⟩

theorem Requests.passes_of_success (request : Requests reading count next)
    (success : reading.run sink machine = (.ok value, final))
    (after : ∀ (piece : List UInt8) {later : Machine σ}, (next piece).run sink later = (.ok value, final) →
      ∃ bytes handed, later.unread = bytes ++ final.unread ∧
        Passes (next piece) later.place bytes handed final.place value ∧
        sink.accept? later.receiver handed = some final.receiver) :
    ∃ piece bytes handed, piece.length = count ∧ machine.unread = piece ++ bytes ++ final.unread ∧
      Passes (next piece) (machine.place.behind count) bytes handed final.place value ∧
      sink.accept? machine.receiver handed = some final.receiver := by
  obtain ⟨later, passed, answer⟩ := request _ sink machine
  by_cases fits : count ≤ machine.unread.length
  · rw [success, if_pos fits] at answer
    obtain ⟨bytes, handed, unread, passage, accepted⟩ := after _ answer.symm
    rw [passed.unread] at unread
    rw [passed.place fits] at passage
    rw [passed.receiver] at accepted
    refine ⟨_, bytes, handed, List.length_take_of_le fits, ?_, passage, accepted⟩
    rw [List.append_assoc, ← unread, List.take_append_drop]
  · rw [success, if_neg fits] at answer
    cases answer

theorem passes_of_run {reading : Reading α} (success : reading.run sink machine = (.ok value, final)) :
    ∃ bytes handed, machine.unread = bytes ++ final.unread ∧
      Passes reading machine.place bytes handed final.place value ∧
      sink.accept? machine.receiver handed = some final.receiver := by
  -- Every step of the run is a step of the passage, with the bytes that it took.
  induction reading generalizing machine with
  | done result =>
    cases success
    exact ⟨[], [], rfl, .done, rfl⟩
  | fail error => cases success
  | take count next ih =>
    obtain ⟨piece, bytes, handed, filled, unread, passage, accepted⟩ :=
      (requests_take count next).passes_of_success success ih
    exact ⟨piece ++ bytes, handed, unread, .take filled passage, accepted⟩
  | skip count next ih =>
    obtain ⟨piece, bytes, handed, filled, unread, passage, accepted⟩ :=
      (requests_skip count next).passes_of_success success ih
    exact ⟨piece ++ bytes, handed, unread, .skip filled passage, accepted⟩
  | position next ih =>
    obtain ⟨bytes, handed, unread, passage, accepted⟩ := ih _ success
    exact ⟨bytes, handed, unread, .position passage, accepted⟩
  | progress next ih =>
    obtain ⟨bytes, handed, unread, passage, accepted⟩ := ih _ success
    exact ⟨bytes, handed, unread, .progress passage, accepted⟩
  | setProgress progress next ih =>
    obtain ⟨bytes, handed, unread, passage, accepted⟩ := ih success
    exact ⟨bytes, handed, unread, .setProgress passage, accepted⟩
  | note remark next ih =>
    obtain ⟨bytes, handed, unread, passage, accepted⟩ := ih success
    exact ⟨bytes, handed, unread, .note passage, accepted⟩
  | deliver delivery next ih =>
    cases refusal : (sink machine.receiver delivery).refusal <;>
      simp only [run, Machine.deliver, refusal] at success
    · obtain ⟨bytes, handed, unread, passage, accepted⟩ := ih success
      exact ⟨bytes, delivery :: handed, unread, .deliver passage, by simpa [Sink.accept?, refusal] using accepted⟩
    · cases success

theorem run_of_passes {reading : Reading α} {start stop : Place} {bytes rest : List UInt8}
    {handed : List Delivery} {receiver : σ} (passage : Passes reading start bytes handed stop value)
    (place : machine.place = start) (unread : machine.unread = bytes ++ rest)
    (accepted : sink.accept? machine.receiver handed = some receiver) :
    ∃ final, reading.run sink machine = (.ok value, final) ∧ final.unread = rest ∧ final.place = stop ∧
      final.receiver = receiver := by
  induction passage generalizing machine with
  | done => exact ⟨machine, rfl, unread, place, Option.some.inj accepted⟩
  | @take count next start stop piece back handed value filled _ ih =>
    rw [List.append_assoc] at unread
    obtain ⟨later, same, left, further, kept, -⟩ := (requests_take count next).run_of_enough sink unread filled
    rw [place] at further
    rw [← kept] at accepted
    rw [same]
    exact ih further left accepted
  | @skip count next start stop piece back handed value filled _ ih =>
    rw [List.append_assoc] at unread
    obtain ⟨later, same, left, further, kept, -⟩ := (requests_skip count next).run_of_enough sink unread filled
    rw [place] at further
    rw [← kept] at accepted
    rw [same]
    exact ih further left accepted
  | position _ ih | progress _ ih =>
    subst place
    exact ih rfl unread accepted
  | setProgress _ ih =>
    subst place
    exact ih rfl unread accepted
  | note _ ih => exact ih place unread accepted
  | @deliver delivery next start stop bytes handed value _ ih =>
    cases refusal : (sink machine.receiver delivery).refusal <;>
      simp only [Sink.accept?, refusal] at accepted
    · simp only [run, Machine.deliver, refusal]
      exact ih place unread accepted
    · cases accepted

end Reading

end AmosBasic
