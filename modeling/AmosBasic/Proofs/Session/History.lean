import AmosBasic.Proofs.Session.Listing
import AmosBasic.Proofs.Session.Section
import AmosBasic.Session.Operation

namespace AmosBasic

open Reading

namespace OpenFile

variable {σ : Type}

structure Step (σ : Type) where
  operation : Operation
  before : Machine σ
  result : Except DecodeError Item
  after : Machine σ

def step (file : OpenFile) (sink : Sink σ) (operation : Operation) (machine : Machine σ) : Step σ :=
  let (result, after) := (operation.reading file).run sink machine
  { operation, before := machine, result, after }

def history (file : OpenFile) (sink : Sink σ) : Machine σ → List Operation → List (Step σ)
  | _, [] => []
  | machine, operation :: operations =>
    let step := file.step sink operation machine
    step :: file.history sink step.after operations

theorem forall_history {file : OpenFile} {sink : Sink σ} {invariant : Machine σ → Prop}
    (kept : ∀ operation machine, invariant machine → invariant (file.step sink operation machine).after)
    {machine : Machine σ} (start : invariant machine) {operations : List Operation} {step : Step σ}
    (member : step ∈ file.history sink machine operations) :
    invariant step.before ∧ step = file.step sink step.operation step.before := by
  induction operations generalizing machine with
  | nil => cases member
  | cons operation operations ih =>
    rcases List.mem_cons.mp member with rfl | later
    · exact ⟨start, rfl⟩
    · exact ih (kept operation machine start) later

/-- What relates the places before and after each step relates what is behind an earlier step to what is before a
later one. -/
theorem pairwise_history {file : OpenFile} {sink : Sink σ} {relation : Place → Place → Prop}
    (forward : Place.Forward relation)
    (moved : ∀ operation machine, relation machine.place (file.step sink operation machine).after.place)
    (machine : Machine σ) (operations : List Operation) :
    (∀ step ∈ file.history sink machine operations, relation machine.place step.before.place) ∧
      (file.history sink machine operations).Pairwise fun earlier later =>
        relation earlier.after.place later.before.place := by
  induction operations generalizing machine with
  | nil => exact ⟨fun step member => (List.not_mem_nil member).elim, .nil⟩
  | cons operation operations ih =>
    obtain ⟨behind, ordered⟩ := ih (file.step sink operation machine).after
    refine ⟨fun step member => ?_, .cons behind ordered⟩
    rcases List.mem_cons.mp member with rfl | later
    · exact forward.refl machine.place
    · exact forward.trans (moved operation machine) (behind step later)

theorem confined_skipSource (file : OpenFile) {errors : DecodeError → Prop} {changes : (Progress → Progress) → Prop} :
    file.skipSource.Confined errors changes := by
  apply confined_bind confined_currentPosition
  intro position
  exact confined_bind (confined_skipped _) fun _ => confined_pure _

theorem keeps_skipSource (file : OpenFile) : file.skipSource.Keeps Place.Advances := by
  have confined : file.skipSource.Confined (fun _ => True) fun _ => False := file.confined_skipSource
  exact confined.advances

theorem silent_readLine (file : OpenFile) : file.readLine.Silent :=
  silent_of_outcome file.readLine_silent

theorem silent_readBankCount (file : OpenFile) : file.readBankCount.Silent := by
  apply silent_of_outcome
  intro view
  rcases file.readBankCount_cases view with ⟨-, same⟩ | ⟨-, _, _, same, -⟩ | ⟨-, _, _, same, -⟩ <;> rw [same]

theorem silent_bank : Bank.reading.Silent := by
  apply silent_of_outcome
  intro view
  rcases Bank.reading_cases view with ⟨-, same⟩ | ⟨-, _, _, same, -⟩ <;> rw [same]

section

variable {relation : Place → Place → Prop} (forward : Place.Forward relation)

include forward

theorem keeps_linesReading {file : OpenFile} (line : file.readLine.Keeps relation) (fuel : Nat) (read : List Line) :
    (file.linesReading fuel read).Keeps relation := by
  induction fuel generalizing read with
  | zero => exact keeps_pure forward _
  | succ fuel ih =>
    apply keeps_bind forward (keeps_bind forward (keeps_currentPosition forward) fun _ => keeps_pure forward _)
    intro exhausted
    split
    · exact keeps_pure forward _
    · exact keeps_bind forward line fun _ => ih _

theorem keeps_banksReading (bank : Bank.reading.Keeps relation) (left : Nat) (read : List Bank) :
    (banksReading left read).Keeps relation := by
  induction left generalizing read with
  | zero => exact keeps_pure forward _
  | succ left ih => exact keeps_bind forward bank fun _ => ih _

theorem Operation.keeps_reading {file : OpenFile}
    (onward : ∀ earlier later : Place, earlier.Onward later → relation earlier later) (operation : Operation)
    (line : operation ∈ [readLine, readSource] → file.readLine.Keeps relation)
    (count : operation ∈ [readBankCount, readBanks] → file.readBankCount.Keeps relation)
    (bank : operation ∈ [readBank, readBanks] → Bank.reading.Keeps relation) :
    (operation.reading file).Keeps relation := by
  have advances : ∀ earlier later : Place, earlier.Advances later → relation earlier later :=
    fun _ _ further => onward _ _ further.onward
  have returned : ∀ {α : Type} {reading : Reading α}, reading.Keeps relation → ∀ item : α → Item,
      (reading >>= fun value => pure (item value)).Keeps relation :=
    fun kept _ => keeps_bind forward kept fun _ => keeps_pure forward _
  cases operation with
  | readLine => exact returned (line (by decide)) _
  | readSource => exact returned (keeps_linesReading forward (line (by decide)) _ _) _
  | skipSource => exact returned (file.keeps_skipSource.mono advances) _
  | readBankCount => exact returned (count (by decide)) _
  | readBankType => exact returned (BankType.keeps_reading.mono advances) _
  | readMemoryHeader => exact returned (MemoryHeader.keeps_reading.mono onward) _
  | readImageBank => exact returned (ImageBank.keeps_reading.mono advances) _
  | readBank => exact returned (bank (by decide)) _
  | readBanks =>
    have banks := keeps_banksReading forward (bank (by decide))
    exact returned (keeps_bind forward (count (by decide)) fun _ => banks _ _) _

end

theorem silent_readSource (file : OpenFile) : file.readSource.Silent :=
  keeps_linesReading forward_any file.silent_readLine _ _

theorem Operation.silent_reading (file : OpenFile) (operation : Operation) : (operation.reading file).Silent :=
  operation.keeps_reading forward_any (fun _ _ _ => True.intro) (fun _ => file.silent_readLine)
    (fun _ => file.silent_readBankCount) fun _ => silent_bank

theorem step_outcome (file : OpenFile) (sink : Sink σ) (operation : Operation) (machine : Machine σ) :
    (file.step sink operation machine).result = ((operation.reading file).outcome machine.view).result ∧
      (file.step sink operation machine).after.view = ((operation.reading file).outcome machine.view).view := by
  obtain ⟨silent, -⟩ := operation.silent_reading file machine.view
  obtain ⟨final, same, view, -⟩ := run_of_silent sink machine silent
  rw [step, same]
  exact ⟨rfl, view⟩

theorem step_outcome_of {α : Type} {reading : Reading α} {item : α → Item} (file : OpenFile) (sink : Sink σ)
    (operation : Operation) (machine : Machine σ)
    (wraps : operation.reading file = reading >>= fun value => pure (item value)) :
    (file.step sink operation machine).result = (reading.outcome machine.view).result.map item ∧
      (file.step sink operation machine).after.view = (reading.outcome machine.view).view := by
  obtain ⟨result, view⟩ := file.step_outcome sink operation machine
  rw [wraps, outcome_bind_pure] at result view
  exact ⟨result, view⟩

end OpenFile

end AmosBasic
