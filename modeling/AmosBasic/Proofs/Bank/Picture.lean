import AmosBasic.Bank.Reading
import AmosBasic.Proofs.Bank.Contents
import AmosBasic.Proofs.Reading.Supply

namespace AmosBasic

open Reading

namespace PackedPicture

theorem takes_expectId (expected : Nat) (warning : Nat → Note) : (expectId expected warning).Takes 4 := by
  have each : ∀ id : Nat, (if id ≠ expected then remark (warning id) else pure ()).Takes 0 := by
    intro id
    split
    · exact takes_remark _
    · exact takes_pure ()
  exact takes_bind (takes_word 4) each

theorem takes_screenReading : screenReading.Takes 90 := by
  have fields : 90 = 4 + (2 + (2 + (2 + (2 + (2 + (2 + (4 + (2 + (2 + (2 + (64 + 0))))))))))) := rfl
  rw [fields]
  exact takes_bind (takes_expectId _ _) fun _ => takes_bind (takes_word 2) fun _ => takes_bind (takes_word 2) fun _ =>
    takes_bind (takes_word 2) fun _ => takes_bind (takes_word 2) fun _ => takes_bind (takes_word 2) fun _ =>
    takes_bind (takes_word 2) fun _ => takes_bind (takes_bytes 4) fun _ => takes_bind (takes_word 2) fun _ =>
    takes_bind (takes_word 2) fun _ => takes_bind (takes_word 2) fun _ => takes_bind (takes_bytes 64) fun _ =>
    takes_pure _

theorem takes_layoutReading : layoutReading.Takes 24 := by
  have fields : 24 = 4 + (2 + (2 + (2 + (2 + (2 + (2 + (4 + (4 + 0)))))))) := rfl
  rw [fields]
  exact takes_bind (takes_expectId _ _) fun _ => takes_bind (takes_word 2) fun _ => takes_bind (takes_word 2) fun _ =>
    takes_bind (takes_word 2) fun _ => takes_bind (takes_word 2) fun _ => takes_bind (takes_word 2) fun _ =>
    takes_bind (takes_word 2) fun _ => takes_bind (takes_word 4) fun _ => takes_bind (takes_word 4) fun _ =>
    takes_pure _

theorem takes_reading (packedData : List UInt8) : (reading packedData).Takes pictureHeaderSize := by
  have headers : pictureHeaderSize = 90 + (24 + (0 + 0)) := rfl
  rw [headers]
  exact takes_bind takes_screenReading fun _ => takes_bind takes_layoutReading fun _ =>
    takes_bind (takes_remark _) fun _ => takes_pure _

theorem parse_ok_iff {payload : List UInt8} :
    (∃ picture, (parse payload).1 = .ok picture) ↔ pictureHeaderSize ≤ payload.length := by
  constructor
  · rintro ⟨picture, parsed⟩
    by_contra short
    rw [parse, if_pos (Nat.lt_of_not_le short)] at parsed
    cases parsed
  · intro enough
    obtain ⟨picture, came⟩ := takes_reading (payload.drop pictureHeaderSize) ⟨payload, .finished, ⟨0, {}⟩⟩ enough
    let machine : Machine Unit := { cursor := .ofBytes payload, receiver := () }
    have view : machine.view = ⟨payload, .finished, ⟨0, {}⟩⟩ := rfl
    rw [← view] at came
    obtain ⟨final, same, -, -⟩ := run_of_silent Sink.discard machine (congrArg Outcome.handed came)
    rw [came] at same
    refine ⟨picture, ?_⟩
    rw [parse, if_neg (Nat.not_lt.mpr enough)]
    exact congrArg Prod.fst same

end PackedPicture

theorem MemoryKind.ofName_eq_packedPicture {name : List UInt8} :
    MemoryKind.ofName name = .packedPicture ↔ name = Latin1.encode "Pac.Pic." := by
  unfold MemoryKind.ofName
  split
  · simp_all
  · split
    · simp_all
    · split <;> simp_all

theorem MemoryHeader.content_eq (header : MemoryHeader) (payload : List UInt8) :
    (header.name = Latin1.encode "Pac.Pic." ∧ pictureHeaderSize ≤ payload.length ∧
      ∃ picture, (PackedPicture.parse payload).1 = .ok picture ∧ header.content payload = .picture header picture) ∨
    (¬ (header.name = Latin1.encode "Pac.Pic." ∧ pictureHeaderSize ≤ payload.length) ∧
      header.content payload = .raw header payload) := by
  have kind : header.kind = .packedPicture ↔ header.name = Latin1.encode "Pac.Pic." :=
    MemoryKind.ofName_eq_packedPicture
  simp only [content, kind]
  by_cases named : header.name = Latin1.encode "Pac.Pic."
  · rw [if_pos named]
    cases parsed : (PackedPicture.parse payload).1 with
    | ok picture => exact .inl ⟨named, PackedPicture.parse_ok_iff.mp ⟨picture, parsed⟩, picture, rfl, rfl⟩
    | error error =>
      refine .inr ⟨?_, rfl⟩
      rintro ⟨-, enough⟩
      obtain ⟨picture, read⟩ := PackedPicture.parse_ok_iff.mpr enough
      rw [parsed] at read
      cases read
  · rw [if_neg named]
    exact .inr ⟨fun picture => absurd picture.1 named, rfl⟩

end AmosBasic
