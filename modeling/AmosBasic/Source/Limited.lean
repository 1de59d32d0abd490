import AmosBasic.Source

namespace AmosBasic

structure Limited where
  source : Source
  left : Nat

structure Drained (κ : Type) where
  kept : κ
  failure? : Option String
  source : Source

namespace Limited

open Source

/-- At the limit it answers by itself, as if the source had ended. -/
def read (limited : Limited) (room : Nat) : Answer × Limited :=
  if limited.left = 0 then (.bytes [], limited)
  else match limited.source.read (min room limited.left) with
    | (.bytes piece, next) => (.bytes piece, ⟨next, limited.left - piece.length⟩)
    | (answer, next) => (answer, { limited with source := next })

theorem due_of_interrupted {limited next : Limited} {room : Nat} (h : limited.read room = (.interrupted, next)) :
    next.left = limited.left ∧ next.source.due < limited.source.due := by
  unfold read at h
  split at h
  · simp at h
  · split at h <;> simp at h
    rename_i answer
    obtain ⟨rfl, rfl⟩ := h
    exact ⟨rfl, Source.due_of_interrupted answer⟩

theorem left_of_bytes {limited next : Limited} {room : Nat} {piece : List UInt8}
    (h : limited.read room = (.bytes piece, next)) : next.left = limited.left - piece.length := by
  unfold read at h
  split at h
  · simp at h
    obtain ⟨rfl, rfl⟩ := h
    rfl
  · split at h <;> simp at h
    · obtain ⟨rfl, rfl⟩ := h
      rfl
    · rename_i other _
      exact (other piece h.1).elim

theorem left_pos_of_byte {limited next : Limited} {room : Nat} {byte : UInt8} {piece : List UInt8}
    (h : limited.read room = (.bytes (byte :: piece), next)) : 0 < limited.left := by
  unfold read at h
  split at h
  · simp at h
  · omega

def drain {κ : Type} (room : Nat) (put : κ → List UInt8 → κ) (limited : Limited) (kept : κ) : Drained κ :=
  match _answer : limited.read room with
  | (.interrupted, next) => next.drain room put kept
  | (.failed text, next) => ⟨kept, some text, next.source⟩
  | (.bytes [], next) => ⟨kept, none, next.source⟩
  | (.bytes (byte :: piece), next) => next.drain room put (put kept (byte :: piece))
termination_by (limited.left, limited.source.due)
decreasing_by
  · obtain ⟨left, due⟩ := due_of_interrupted _answer
    rw [left]
    exact Prod.Lex.right _ due
  · have left := left_of_bytes _answer
    have positive := left_pos_of_byte _answer
    simp only [List.length_cons] at left
    exact Prod.Lex.left _ _ (by omega)

end Limited

end AmosBasic
