import AmosBasic.Source

namespace AmosBasic.Source

def outcome (source : Source) (wanted : Nat) : Gathering :=
  if wanted ≤ source.bytes.length then .filled
  else match source.ending with
    | .finished => .ended
    | .broken text => .failed text

theorem bytes_of_interrupted {source next : Source} {wanted : Nat}
    (h : source.read wanted = (.interrupted, next)) :
    next.bytes = source.bytes ∧ next.ending = source.ending := by
  unfold read at h
  split at h
  · obtain ⟨-, rfl⟩ := Prod.mk.inj h
    exact ⟨rfl, rfl⟩
  · split at h <;> simp at h

theorem bytes_of_failed {source next : Source} {wanted : Nat} {text : String}
    (h : source.read wanted = (.failed text, next)) :
    source.bytes = [] ∧ source.ending = .broken text ∧ next.bytes = [] ∧ next.ending = source.ending := by
  unfold read at h
  split at h
  · simp at h
  · split at h <;> simp at h
    rename_i empty broken
    obtain ⟨rfl, rfl⟩ := h
    exact ⟨empty, broken, empty, rfl⟩

theorem bytes_of_answer {source next : Source} {wanted : Nat} {piece : List UInt8}
    (h : source.read wanted = (.bytes piece, next)) :
    source.bytes = piece ++ next.bytes ∧ piece.length ≤ wanted ∧ next.ending = source.ending ∧
      (wanted ≠ 0 → piece = [] → source.bytes = [] ∧ source.ending = .finished) := by
  unfold read at h
  split at h
  · simp at h
  · split at h <;> simp at h
    · rename_i empty finished
      obtain ⟨rfl, rfl⟩ := h
      exact ⟨by simp, by simp, rfl, fun _ _ => ⟨empty, finished⟩⟩
    · rename_i first rest _ nonempty
      obtain ⟨rfl, rfl⟩ := h
      have fits : ((source.pace source.answers).take wanted) ≤ wanted := by
        unfold Beat.take
        split <;> omega
      refine ⟨by simp [nonempty], by simp; omega, rfl, fun positive none => ?_⟩
      have : (source.pace source.answers).take wanted ≠ 0 := by
        unfold Beat.take
        split <;> omega
      simp_all

theorem gather_eq (source : Source) (wanted : Nat) (got : Array UInt8) :
    (source.gather wanted got).bytes.toList = got.toList ++ source.bytes.take wanted ∧
      (source.gather wanted got).outcome = source.outcome wanted ∧
      (source.gather wanted got).source.bytes = source.bytes.drop wanted ∧
      (source.gather wanted got).source.ending = source.ending := by
  fun_induction gather source wanted got with
  | case1 => simp [outcome]
  | case2 source wanted got _ next answer ih =>
    obtain ⟨bytes, ending⟩ := bytes_of_interrupted answer
    simpa [outcome, bytes, ending] using ih
  | case3 source wanted got positive text next answer =>
    obtain ⟨empty, broken, bytes, ending⟩ := bytes_of_failed answer
    simp [outcome, empty, broken, bytes, ending, positive]
  | case4 source wanted got positive next answer =>
    obtain ⟨split, -, ending, last⟩ := bytes_of_answer answer
    obtain ⟨empty, finished⟩ := last positive rfl
    simp_all [outcome]
  | case5 source wanted got positive byte piece next answer ih =>
    obtain ⟨split, fits, ending, -⟩ := bytes_of_answer answer
    obtain ⟨bytes, outcome, rest, last⟩ := ih
    refine ⟨?_, ?_, ?_, by rw [last, ending]⟩
    · rw [bytes, split, List.take_append, List.take_of_length_le fits]
      simp
    · rw [outcome]
      simp only [Source.outcome, split, ending, List.length_append, List.length_cons]
      congr 1
      simp only [List.length_cons] at fits
      simp only [eq_iff_iff]; omega
    · rw [rest, split, List.drop_append, List.drop_of_length_le fits]
      simp

end AmosBasic.Source
