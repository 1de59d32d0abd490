import AmosBasic.Proofs.Reading.Confined

namespace AmosBasic

/-- A preorder on places in which a place is related to every one further on. -/
structure Place.Forward (relation : Place → Place → Prop) : Prop where
  refl : ∀ place, relation place place
  trans : ∀ {first second third}, relation first second → relation second third → relation first third
  behind : ∀ place count, relation place (place.behind count)

structure Place.Advances (earlier later : Place) : Prop where
  position : earlier.position ≤ later.position
  progress : later.progress = earlier.progress

structure Place.Onward (earlier later : Place) : Prop where
  position : earlier.position ≤ later.position
  progress : later.progress = { earlier.progress with currentBank? := later.progress.currentBank? }

theorem Place.forward_advances : Forward Advances where
  refl _ := ⟨Nat.le_refl _, rfl⟩
  trans first second := ⟨Nat.le_trans first.position second.position, second.progress.trans first.progress⟩
  behind _ _ := ⟨Nat.le_add_right _ _, rfl⟩

theorem Place.Advances.onward {earlier later : Place} (advances : earlier.Advances later) : earlier.Onward later :=
  ⟨advances.position, by rw [advances.progress]⟩

theorem Place.forward_onward : Forward Onward where
  refl place := (forward_advances.refl place).onward
  trans first second := by
    refine ⟨Nat.le_trans first.position second.position, ?_⟩
    have step := second.progress
    rw [first.progress] at step
    exact step
  behind place count := (forward_advances.behind place count).onward

namespace Reading

def Keeps {α : Type} (relation : Place → Place → Prop) (reading : Reading α) : Prop :=
  ∀ view : View, (reading.outcome view).handed = [] ∧ relation view.place (reading.outcome view).view.place

variable {α β : Type} {relation other : Place → Place → Prop}

theorem Keeps.mono {reading : Reading α} (keeps : reading.Keeps relation)
    (weaker : ∀ earlier later, relation earlier later → other earlier later) : reading.Keeps other :=
  fun view => ⟨(keeps view).1, weaker _ _ (keeps view).2⟩

section

variable (forward : Place.Forward relation)

include forward

theorem keeps_pure (value : α) : (pure value : Reading α).Keeps relation :=
  fun view => ⟨rfl, forward.refl view.place⟩

theorem keeps_bind {first : Reading α} {next : α → Reading β} (before : first.Keeps relation)
    (after : ∀ value, (next value).Keeps relation) : (first >>= next).Keeps relation := by
  intro view
  obtain ⟨silent, kept⟩ := before view
  rw [outcome_bind, Outcome.andThen]
  cases (first.outcome view).result with
  | ok value =>
    obtain ⟨later, further⟩ := after value (first.outcome view).view
    have nothing : [] ++ ((next value).outcome (first.outcome view).view).handed = [] := later
    rw [silent]
    exact ⟨nothing, forward.trans kept further⟩
  | error error => exact ⟨silent, kept⟩

theorem keeps_bytes (count : Nat) : (Reading.bytes count).Keeps relation := by
  intro view
  have moved := forward.behind view.place (view.reach count)
  have same : Reading.bytes count = Reading.bytes count >>= pure := (bind_pure _).symm
  rw [same, outcome_bytes_bind]
  by_cases enough : count ≤ view.unread.length
  · rw [if_pos enough]
    exact ⟨rfl, moved⟩
  · rw [if_neg enough]
    exact ⟨rfl, moved⟩

theorem keeps_byte : byte.Keeps relation :=
  keeps_bind forward (keeps_bytes forward 1) fun _ => keeps_pure forward _

theorem keeps_currentPosition : currentPosition.Keeps relation :=
  fun view => ⟨rfl, forward.refl view.place⟩

end

def Silent {α : Type} (reading : Reading α) : Prop := reading.Keeps fun _ _ => True

theorem Keeps.silent {reading : Reading α} (keeps : reading.Keeps relation) : reading.Silent :=
  keeps.mono fun _ _ _ => True.intro

theorem silent_of_outcome {reading : Reading α} (silent : ∀ view, (reading.outcome view).handed = []) :
    reading.Silent :=
  fun view => ⟨silent view, True.intro⟩

theorem forward_any : Place.Forward fun _ _ => True where
  refl _ := True.intro
  trans _ _ := True.intro
  behind _ _ := True.intro

section

variable {errors : DecodeError → Prop} {changes : (Progress → Progress) → Prop}

/-- A confined reading keeps what its requests and its changes of the progress keep. -/
theorem Confined.keeps {reading : Reading α} (confined : reading.Confined errors changes)
    (forward : Place.Forward relation)
    (changed : ∀ change, changes change → ∀ place, relation place ⟨place.position, change place.progress⟩) :
    reading.Keeps relation := by
  refine fun view => ⟨confined.silent view, ?_⟩
  induction confined generalizing view with
  | done | fail => exact forward.refl view.place
  | @take count _ _ ih | @skip count _ _ ih =>
    have moved := forward.behind view.place (view.reach count)
    rw [outcome]
    split
    · exact forward.trans moved (ih (view.unread.take count) (view.behind count))
    · exact moved
  | position _ ih => exact ih _ view
  | @change change _ allowed _ ih =>
    exact forward.trans (changed _ allowed view.place) (ih { view with place.progress := change view.place.progress })
  | note _ ih => exact ih view

theorem Confined.advances {reading : Reading α} (confined : reading.Confined errors fun _ => False) :
    reading.Keeps Place.Advances :=
  confined.keeps Place.forward_advances fun _ never => never.elim

theorem Confined.onward {reading : Reading α}
    (confined : reading.Confined errors fun change => ∃ number, change = Progress.withBank number) :
    reading.Keeps Place.Onward := by
  apply confined.keeps Place.forward_onward
  rintro _ ⟨number, rfl⟩ place
  exact ⟨Nat.le_refl _, rfl⟩

end

end Reading

open Reading

theorem Line.keeps_recordsReading (options : DecodeOptions) (left : Nat) (read : List Record) :
    (recordsReading options left read).Keeps Place.Advances :=
  (confined_recordsReading options left read).advances

theorem Line.keeps_reading (options : DecodeOptions) : (Line.reading options).Keeps Place.Advances :=
  (confined_reading options).advances

theorem BankType.keeps_reading : BankType.reading.Keeps Place.Advances := confined_reading.advances

theorem ImageBank.keeps_reading : ImageBank.reading.Keeps Place.Advances := confined_reading.advances

theorem MemoryHeader.keeps_reading : MemoryHeader.reading.Keeps Place.Onward :=
  (confined_reading fun number => ⟨number, rfl⟩).onward

theorem BankContent.keeps_reading : BankContent.reading.Keeps Place.Onward :=
  (confined_reading fun number => ⟨number, rfl⟩).onward

end AmosBasic
