import AmosBasic.Proofs.Reading.Outcome

namespace AmosBasic

def Begins (stream : Nat → UInt8) (bytes : List UInt8) : Prop :=
  ∀ index byte, bytes[index]? = some byte → byte = stream index

theorem Begins.take {stream : Nat → UInt8} {bytes : List UInt8} (begins : Begins stream bytes) {count : Nat}
    (enough : count ≤ bytes.length) : bytes.take count = (List.range count).map stream := by
  apply List.ext_getElem
  · rw [List.length_take_of_le enough, List.length_map, List.length_range]
  · intro index inside _
    have inBytes : index < bytes.length := by
      rw [List.length_take] at inside
      omega
    rw [List.getElem_take, List.getElem_map, List.getElem_range]
    exact begins index _ (List.getElem?_eq_getElem inBytes)

theorem Begins.drop {stream : Nat → UInt8} {bytes : List UInt8} (begins : Begins stream bytes) (count : Nat) :
    Begins (fun index => stream (count + index)) (bytes.drop count) := by
  intro index byte found
  rw [List.getElem?_drop] at found
  exact begins (count + index) byte found

namespace Reading

def Settles {α : Type} (reading : Reading α) (stream : Nat → UInt8) (place : Place) : Prop :=
  ∃ bound result handed last, ∀ bytes ending, Begins stream bytes → bound ≤ bytes.length →
    ∃ rest, reading.outcome ⟨bytes, ending, place⟩ = ⟨result, handed, ⟨rest, ending, last⟩⟩

theorem outcome_endless {α : Type} (reading : Reading α) (stream : Nat → UInt8) (place : Place) :
    reading.Settles stream place := by
  induction reading generalizing stream place with
  | done value => exact ⟨0, .ok value, [], place, fun bytes _ _ _ => ⟨bytes, rfl⟩⟩
  | fail error => exact ⟨0, .error error, [], place, fun bytes _ _ _ => ⟨bytes, rfl⟩⟩
  | take count next ih | skip count next ih =>
    -- What is asked for is the same in all beginnings that have it, and the rest is a beginning of a shifted stream.
    obtain ⟨bound, result, handed, last, same⟩ :=
      ih ((List.range count).map stream) (fun index => stream (count + index)) (place.behind count)
    refine ⟨count + bound, result, handed, last, fun bytes ending begins enough => ?_⟩
    have filled : count ≤ bytes.length := by omega
    have behind : View.behind ⟨bytes, ending, place⟩ count = ⟨bytes.drop count, ending, place.behind count⟩ := by
      rw [View.behind, View.mk.injEq]
      exact ⟨rfl, rfl, View.behind_place filled⟩
    have rest : bound ≤ (bytes.drop count).length := by
      rw [List.length_drop]
      omega
    rw [outcome, if_pos filled, begins.take filled, behind]
    exact same _ ending (begins.drop count) rest
  | position next ih => exact ih place.position stream place
  | progress next ih => exact ih place.progress stream place
  | setProgress progress next ih => exact ih stream { place with progress }
  | note remark next ih => exact ih stream place
  | deliver delivery next ih =>
    obtain ⟨bound, result, handed, last, same⟩ := ih stream place
    refine ⟨bound, result, delivery :: handed, last, fun bytes ending begins enough => ?_⟩
    obtain ⟨rest, same⟩ := same bytes ending begins enough
    exact ⟨rest, by rw [outcome, same]⟩

end Reading

end AmosBasic
