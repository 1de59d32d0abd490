import AmosBasic.Proofs.Bytes
import AmosBasic.Proofs.Reading.Outcome

namespace AmosBasic

namespace Reading

variable {α β : Type}

/-- Given enough bytes the reading succeeds behind `count` of them, whatever they are. -/
def Takes (count : Nat) (reading : Reading α) : Prop :=
  ∀ view : View, count ≤ view.unread.length → ∃ value, reading.outcome view = ⟨.ok value, [], view.behind count⟩

theorem takes_pure (value : α) : (pure value : Reading α).Takes 0 := by
  intro view _
  have same : view.behind 0 = view := by simp [View.behind, View.reach, Place.behind]
  exact ⟨value, by rw [same]; rfl⟩

theorem takes_bytes (count : Nat) : (Reading.bytes count).Takes count := by
  intro view enough
  have whole : (Reading.bytes count).outcome view = _ := outcome_bytes_bind count pure
  rw [if_pos enough] at whole
  exact ⟨_, whole⟩

theorem takes_bind {first : Reading α} {next : α → Reading β} {here there : Nat} (before : first.Takes here)
    (after : ∀ value, (next value).Takes there) : (first >>= next).Takes (here + there) := by
  intro view enough
  obtain ⟨value, came⟩ := before view (by omega)
  have room : there ≤ (view.behind here).unread.length := by
    simp only [View.behind, List.length_drop]
    omega
  obtain ⟨last, later⟩ := after value (view.behind here) room
  refine ⟨last, ?_⟩
  rw [outcome_bind_of_ok came, later, View.behind_behind view enough]

theorem takes_word (count : Nat) : (word count).Takes count :=
  takes_bind (takes_bytes count) fun _ => takes_pure _

theorem takes_remark (note : Note) : (remark note).Takes 0 :=
  fun view enough => takes_pure () view enough

/-- From a source that does not fail, every byte that is gone has been counted. -/
theorem outcome_balance (reading : Reading α) (view : View) (finished : view.ending = .finished) :
    (reading.outcome view).view.place.position + (reading.outcome view).view.unread.length =
      view.place.position + view.unread.length := by
  induction reading generalizing view with
  | done value => rfl
  | fail error => rfl
  | take count next ih | skip count next ih =>
    have moved : (view.behind count).place.position + (view.behind count).unread.length =
        view.place.position + view.unread.length := by
      simp only [View.behind, View.reach, finished, Place.behind_position, List.length_drop]
      split <;> omega
    rw [outcome]
    split
    · exact (ih _ (view.behind count) finished).trans moved
    · exact moved
  | position next ih | progress next ih => exact ih _ view finished
  | setProgress progress next ih => exact ih _ finished
  | note remark next ih | deliver delivery next ih => exact ih view finished

def RunsOut (reading : Reading α) (bytes : List UInt8) : Prop :=
  ∀ ending start, ∃ error last, reading.outcome ⟨bytes, ending, start⟩ = ⟨.error error, [], ⟨[], ending, last⟩⟩

section

variable {first : Reading α} {next : α → Reading β} {bytes : List UInt8}

theorem first_of_not_runsOut (goesOn : ¬ (first >>= next).RunsOut bytes) : ¬ first.RunsOut bytes := by
  intro early
  apply goesOn
  intro ending start
  obtain ⟨error, last, came⟩ := early ending start
  exact ⟨error, last, outcome_bind_of_error came⟩

theorem behind_of_not_runsOut {piece rest : List UInt8} {value : α}
    (passes : ∀ start, ∃ stop, Passes first start piece [] stop value)
    (goesOn : ¬ (first >>= next).RunsOut (piece ++ rest)) : ¬ (next value).RunsOut rest := by
  intro later
  apply goesOn
  intro ending start
  obtain ⟨stop, passage⟩ := passes start
  rw [outcome_bind_of_passes passage]
  exact later ending stop

theorem position_of_not_runsOut {next : Nat → Reading β} (goesOn : ¬ (currentPosition >>= next).RunsOut bytes) :
    ∃ position, ¬ (next position).RunsOut bytes := by
  apply Classical.byContradiction
  intro never
  apply goesOn
  intro ending start
  exact Classical.byContradiction fun left => never ⟨start.position, fun all => left (all ending start)⟩

theorem bytes_of_not_runsOut {next : List UInt8 → Reading β} {count : Nat}
    (goesOn : ¬ (Reading.bytes count >>= next).RunsOut bytes) :
    ∃ piece rest, piece.length = count ∧ bytes = piece ++ rest ∧ ¬ (next piece).RunsOut rest := by
  by_cases enough : count ≤ bytes.length
  · have filled : (bytes.take count).length = count := List.length_take_of_le enough
    have whole : bytes = bytes.take count ++ bytes.drop count := (List.take_append_drop count bytes).symm
    refine ⟨bytes.take count, bytes.drop count, filled, whole, fun later => goesOn fun ending start => ?_⟩
    rw [whole, outcome_bytes_bind_of_append filled]
    exact later ending (start.behind count)
  · refine absurd (fun ending start => ?_) goesOn
    have none : bytes.drop count = [] := List.drop_of_length_le (by omega)
    rw [outcome_bytes_bind, if_neg enough, View.behind, none]
    exact ⟨_, _, rfl⟩

theorem word_of_not_runsOut {next : Nat → Reading β} {count : Nat}
    (goesOn : ¬ (word count >>= next).RunsOut bytes) :
    ∃ number rest, number < 256 ^ count ∧ bytes = bigEndianBytes count number ++ rest ∧
      ¬ (next number).RunsOut rest := by
  have asBytes : ¬ (Reading.bytes count >>= fun piece => next (bigEndian piece)).RunsOut bytes := goesOn
  obtain ⟨piece, rest, rfl, rfl, later⟩ := bytes_of_not_runsOut asBytes
  exact ⟨bigEndian piece, rest, bigEndian_lt piece, by rw [bigEndianBytes_bigEndian], later⟩

end

end Reading

end AmosBasic
