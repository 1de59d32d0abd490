import AmosBasic.Proofs.Bank.Meaning

namespace AmosBasic

inductive BankDraft where
  | images (kind : ImageKind) (stored : List StoredImage) (palette : List UInt8)
  | memory (number : UInt16) (chipMemory : Bool) (flags : Nat) (name payload : List UInt8)

namespace BankDraft

def encode : BankDraft → List UInt8
  | images kind stored palette => ImageBank.encode kind.type.tag stored palette
  | memory number chipMemory flags name payload => MemoryHeader.encode number.toNat chipMemory flags name payload

/-- The flags have four bits, and the size of a memory bank the other bits of its word. -/
def Valid : BankDraft → Prop
  | images _ stored palette =>
    stored.length ≤ 65535 ∧ (∀ image ∈ stored, image.WellFormed) ∧ palette.length = Palette.size
  | memory _ _ flags name payload =>
    flags < 16 ∧ name.length = memoryBankNameSize ∧ payload.length + memoryBankNameSize < 2 ^ 28

instance : (draft : BankDraft) → Decidable draft.Valid
  | images _ stored palette => inferInstanceAs (Decidable (stored.length ≤ 65535 ∧
      (∀ image ∈ stored, image.WellFormed) ∧ palette.length = Palette.size))
  | memory _ _ flags name payload => inferInstanceAs (Decidable (flags < 16 ∧
      name.length = memoryBankNameSize ∧ payload.length + memoryBankNameSize < 2 ^ 28))

def bank : BankDraft → StoredBank
  | images kind stored palette => .images kind stored palette
  | memory number chipMemory flags name payload =>
    .memory number.toNat (if chipMemory then 0 else 1)
      (flags % 16 * 2 ^ 28 + (payload.length + memoryBankNameSize)) name payload

theorem encode_bank (draft : BankDraft) : draft.bank.encode = draft.encode := by
  cases draft <;> rfl

theorem Valid.wellFormed {draft : BankDraft} (valid : draft.Valid) : draft.bank.WellFormed := by
  cases draft with
  | images kind stored palette =>
    obtain ⟨count, each, colors⟩ := valid
    exact ⟨Nat.lt_succ_of_le count, each, colors⟩
  | memory number chipMemory flags name payload =>
    obtain ⟨nibble, named, fits⟩ := valid
    have chip : (if chipMemory then 0 else 1) < 2 ^ 16 := by cases chipMemory <;> decide
    refine ⟨number.toNat_lt, chip, ?_, named, ?_⟩
    · omega
    · omega

theorem header_memory {flags : Nat} (nibble : flags < 16) {name payload : List UInt8}
    (fits : payload.length + memoryBankNameSize < 2 ^ 28) (number : UInt16) (chipMemory : Bool) :
    MemoryHeader.ofFields number.toNat (if chipMemory then 0 else 1)
        (flags % 16 * 2 ^ 28 + (payload.length + memoryBankNameSize)) name =
      ⟨number, chipMemory, flags, payload.length, name⟩ := by
  have high : (flags % 16 * 2 ^ 28 + (payload.length + memoryBankNameSize)) / 2 ^ 28 = flags := by omega
  have low : (flags % 16 * 2 ^ 28 + (payload.length + memoryBankNameSize)) % 2 ^ 28 - memoryBankNameSize =
      payload.length := by omega
  rw [MemoryHeader.ofFields, high, low, UInt16.ofNat_toNat]
  cases chipMemory <;> rfl

/-- A draft and its content. The header of a memory bank has the values of the draft. -/
inductive ReadAs : BankDraft → BankContent → Prop
  | images {kind : ImageKind} {stored : List StoredImage} {palette : List UInt8} {bank : ImageBank}
      (colors : bank.palette.Holds palette) (each : List.Forall₂ (StoredImage.ReadAs bank.palette) stored bank.images) :
      ReadAs (.images kind stored palette) (.images kind bank)
  | picture {number : UInt16} {chipMemory : Bool} {flags : Nat} {name : List UInt8} {picture : PackedPicture}
      (named : name = Latin1.encode "Pac.Pic.") (stored : PackedPicture.StoredPicture picture) :
      ReadAs (.memory number chipMemory flags name stored.encode)
        (.picture ⟨number, chipMemory, flags, stored.encode.length, name⟩ picture)
  | raw {number : UInt16} {chipMemory : Bool} {flags : Nat} {name payload : List UInt8}
      (other : name = Latin1.encode "Pac.Pic." → payload.length < 114) :
      ReadAs (.memory number chipMemory flags name payload)
        (.raw ⟨number, chipMemory, flags, payload.length, name⟩ payload)

theorem Valid.readAs_content {draft : BankDraft} (valid : draft.Valid) : draft.ReadAs draft.bank.content := by
  cases draft with
  | images kind stored palette =>
    refine .images (Palette.holds_decode palette) ?_
    rw [List.forall₂_map_right_iff, List.forall₂_same]
    exact fun image _ => image.readAs_colored _
  | memory number chipMemory flags name payload =>
    obtain ⟨nibble, -, fits⟩ := valid
    rw [bank, StoredBank.content, header_memory nibble fits]
    rcases MemoryHeader.content_eq ⟨number, chipMemory, flags, payload.length, name⟩ payload with
      ⟨named, -, picture, parsed, same⟩ | ⟨other, same⟩
    · rw [same]
      obtain ⟨stored, rfl⟩ := PackedPicture.parse_ok_iff_stored.mp parsed
      exact .picture named stored
    · rw [same]
      exact .raw fun named => Nat.lt_of_not_le fun enough => other ⟨named, enough⟩

end BankDraft

end AmosBasic
