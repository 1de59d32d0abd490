import AmosBasic.Proofs.Bank.Damage
import AmosBasic.Proofs.Bank.Picture

namespace AmosBasic

open Reading

def StoredBank.Cut : StoredBank → Prop
  | images _ _ _ => False
  | memory number chip sizeField name payload =>
    number < 2 ^ 16 ∧ chip < 2 ^ 16 ∧ sizeField < 2 ^ 32 ∧ name.length = memoryBankNameSize ∧
      memoryBankNameSize + payload.length < sizeField % 2 ^ 28

/-- Bank after bank the same bytes, except for the payloads behind the names of memory banks. The last payload may be
cut off, and a damaged bank is one up to the damage. -/
inductive BanksApart : List UInt8 → List UInt8 → Prop
  | same (bytes : List UInt8) : BanksApart bytes bytes
  | images {kind : ImageKind} {images : List StoredImage} {palette one other : List UInt8}
      (wellFormed : (StoredBank.images kind images palette).WellFormed) (rest : BanksApart one other) :
      BanksApart ((StoredBank.images kind images palette).encode ++ one)
        ((StoredBank.images kind images palette).encode ++ other)
  | memory {number chip sizeField : Nat} {name payload otherPayload one other : List UInt8}
      (wellFormed : (StoredBank.memory number chip sizeField name payload).WellFormed)
      (length : otherPayload.length = payload.length) (rest : BanksApart one other) :
      BanksApart ((StoredBank.memory number chip sizeField name payload).encode ++ one)
        ((StoredBank.memory number chip sizeField name otherPayload).encode ++ other)
  | cut {number chip sizeField : Nat} {name payload otherPayload : List UInt8}
      (cut : (StoredBank.memory number chip sizeField name payload).Cut)
      (length : otherPayload.length = payload.length) :
      BanksApart (StoredBank.memory number chip sizeField name payload).encode
        (StoredBank.memory number chip sizeField name otherPayload).encode
  | damaged {piece one other : List UInt8} (damaged : DamagedBank piece) (rest : BanksApart one other) :
      BanksApart (piece ++ one) (piece ++ other)

inductive BankContent.SameButPayload : BankContent → BankContent → Prop
  | images (kind : ImageKind) (bank : ImageBank) : SameButPayload (.images kind bank) (.images kind bank)
  | picture (header : MemoryHeader) (one other : PackedPicture) :
      SameButPayload (.picture header one) (.picture header other)
  | raw (header : MemoryHeader) {one other : List UInt8} (length : other.length = one.length) :
      SameButPayload (.raw header one) (.raw header other)

theorem BankContent.sameButPayload_refl (content : BankContent) : content.SameButPayload content := by
  cases content with
  | images kind bank => exact .images kind bank
  | picture header picture => exact .picture header picture picture
  | raw header payload => exact .raw header rfl

theorem MemoryHeader.content_sameButPayload (header : MemoryHeader) {payload other : List UInt8}
    (length : other.length = payload.length) : (header.content payload).SameButPayload (header.content other) := by
  rcases header.content_eq payload with ⟨named, enough, picture, -, same⟩ | ⟨unfit, same⟩
  · rcases header.content_eq other with ⟨-, -, another, -, again⟩ | ⟨unfit, -⟩
    · rw [same, again]
      exact .picture header picture another
    · rw [length] at unfit
      exact absurd ⟨named, enough⟩ unfit
  · rcases header.content_eq other with ⟨named, enough, -⟩ | ⟨-, again⟩
    · rw [length] at enough
      exact absurd ⟨named, enough⟩ unfit
    · rw [same, again]
      exact .raw header length

section

variable (start : Place) (ending : Ending)

theorem outcome_content_of_cut {number chip sizeField : Nat} {name payload otherPayload : List UInt8}
    (cut : (StoredBank.memory number chip sizeField name payload).Cut)
    (length : otherPayload.length = payload.length) :
    ∃ error last, BankContent.reading.outcome
        ⟨(StoredBank.memory number chip sizeField name payload).encode, ending, start⟩ = ⟨.error error, [], last⟩ ∧
      BankContent.reading.outcome
        ⟨(StoredBank.memory number chip sizeField name otherPayload).encode, ending, start⟩ =
          ⟨.error error, [], last⟩ := by
  obtain ⟨numberFits, chipFits, sizeFits, named, short⟩ := cut
  have header := fun start => passes_memoryHeader start ⟨numberFits, chipFits, sizeFits⟩ named (by omega)
  have fields : ∀ bytes : List UInt8, (StoredBank.memory number chip sizeField name bytes).encode =
      BankType.memory.tag ++ ((bigEndianBytes 2 number ++ (bigEndianBytes 2 chip ++ (bigEndianBytes 4 sizeField ++
        name))) ++ bytes) := by
    intro bytes
    simp only [StoredBank.encode, List.append_assoc]
  have missing : payload.length < (MemoryHeader.ofFields number chip sizeField name).size := by
    simp only [MemoryHeader.ofFields]
    omega
  have unfilled : ¬ (MemoryHeader.ofFields number chip sizeField name).size ≤ payload.length := Nat.not_le.mpr missing
  have otherUnfilled : ¬ (MemoryHeader.ofFields number chip sizeField name).size ≤ otherPayload.length := by
    rw [length]
    exact unfilled
  rw [fields, fields, outcome_content_of_memory, outcome_content_of_memory, outcome_bind_of_passes (header _),
    outcome_bind_of_passes (header _), outcome_bytes_bind, outcome_bytes_bind, if_neg unfilled, if_neg otherUnfilled]
  obtain ⟨shortage, behind⟩ := View.short_of_length missing length ending
    ⟨(start.behind 4).position + 16, { (start.behind 4).progress with currentBank? := some (UInt16.ofNat number) }⟩
  exact ⟨_, _, rfl, by rw [shortage, behind]⟩

/-- A bank in one stream and its like in the other: both are read or both fail, and what is behind them differs in
payloads again. -/
theorem BanksApart.outcome_content {one other : List UInt8} (apart : BanksApart one other) :
    ∃ first second oneRest otherRest last,
      BankContent.reading.outcome ⟨one, ending, start⟩ = ⟨first, [], ⟨oneRest, ending, last⟩⟩ ∧
      BankContent.reading.outcome ⟨other, ending, start⟩ = ⟨second, [], ⟨otherRest, ending, last⟩⟩ ∧
      EndAlike Eq BankContent.SameButPayload first second ∧ BanksApart oneRest otherRest := by
  have kept : ∀ bytes, (BankContent.reading.outcome ⟨bytes, ending, start⟩).view.ending = ending :=
    fun bytes => outcome_ending BankContent.reading ⟨bytes, ending, start⟩
  cases apart with
  | same bytes =>
    have same := kept one
    rcases came : BankContent.reading.outcome ⟨one, ending, start⟩ with ⟨result, handed, rest, _, last⟩
    obtain ⟨silent, -⟩ := BankContent.keeps_reading ⟨one, ending, start⟩
    rw [came] at silent same
    cases silent
    cases same
    exact ⟨result, result, rest, rest, last, rfl, rfl,
      endAlike_refl (fun _ => rfl) BankContent.sameButPayload_refl result, .same rest⟩
  | @images kind stored palette one other wellFormed rest =>
    have passage := wellFormed.passes start
    exact ⟨_, _, one, other, _, outcome_of_passes passage one ending, outcome_of_passes passage other ending,
      .ok (BankContent.sameButPayload_refl _), rest⟩
  | @memory number chip sizeField name payload otherPayload one other wellFormed length rest =>
    have otherFormed : (StoredBank.memory number chip sizeField name otherPayload).WellFormed := by
      obtain ⟨numberFits, chipFits, sizeFits, named, filled⟩ := wellFormed
      exact ⟨numberFits, chipFits, sizeFits, named, by rw [length]; exact filled⟩
    have passage := wellFormed.passes start
    have otherPassage := otherFormed.passes start
    have behind : (StoredBank.memory number chip sizeField name otherPayload).behind start =
        (StoredBank.memory number chip sizeField name payload).behind start := by
      rw [StoredBank.behind_memory wellFormed.2.2.2.1, StoredBank.behind_memory wellFormed.2.2.2.1, length]
    rw [behind] at otherPassage
    exact ⟨_, _, one, other, _, outcome_of_passes passage one ending, outcome_of_passes otherPassage other ending,
      .ok (MemoryHeader.content_sameButPayload _ length), rest⟩
  | @cut number chip sizeField name payload otherPayload cut length =>
    obtain ⟨error, ⟨rest, stop, last⟩, came, again⟩ := outcome_content_of_cut start ending cut length
    have same := kept (StoredBank.memory number chip sizeField name payload).encode
    rw [came] at same
    cases same
    exact ⟨.error error, .error error, rest, rest, last, came, again, .error rfl, .same rest⟩
  | @damaged piece one other damaged rest =>
    obtain ⟨error, fails⟩ := damaged.outcome_content start ending
    exact ⟨_, _, one, other, _, fails one, fails other, .error rfl, rest⟩

end

end AmosBasic
