import AmosBasic.Reading

namespace AmosBasic.Reading

def andThen {σ α β : Type} (sink : Sink σ) (next : α → Reading β) :
    Except DecodeError α × Machine σ → Except DecodeError β × Machine σ
  | (.ok value, machine) => (next value).run sink machine
  | (.error error, machine) => (.error error, machine)

theorem run_bind {σ α β : Type} (sink : Sink σ) (first : Reading α) (next : α → Reading β)
    (machine : Machine σ) :
    (first >>= next).run sink machine = andThen sink next (first.run sink machine) := by
  change (first.bind next).run sink machine = _
  induction first generalizing machine with
  | done value => rfl
  | fail error => rfl
  | take count rest ih | skip count rest ih =>
    simp only [bind, run]
    split
    · exact ih _ _
    · rfl
  | position rest ih | progress rest ih => exact ih _ _
  | setProgress state rest ih | note remark rest ih => exact ih _
  | deliver delivery rest ih =>
    simp only [bind, run]
    split
    · exact ih _
    · rfl

theorem bind_done {α : Type} (reading : Reading α) : reading.bind done = reading := by
  induction reading with
  | done | fail => rfl
  | take count rest ih | skip count rest ih | position rest ih | progress rest ih => simp only [bind, ih]
  | setProgress state rest ih | note remark rest ih | deliver delivery rest ih => simp only [bind, ih]

theorem bind_assoc {α β γ : Type} (reading : Reading α) (f : α → Reading β) (g : β → Reading γ) :
    (reading.bind f).bind g = reading.bind fun value => (f value).bind g := by
  induction reading with
  | done | fail => rfl
  | take count rest ih | skip count rest ih | position rest ih | progress rest ih => simp only [bind, ih]
  | setProgress state rest ih | note remark rest ih | deliver delivery rest ih => simp only [bind, ih]

instance : LawfulMonad Reading :=
  LawfulMonad.mk' Reading bind_done (fun _ _ => rfl) bind_assoc

end AmosBasic.Reading
