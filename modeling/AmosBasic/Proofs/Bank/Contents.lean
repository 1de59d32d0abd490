import AmosBasic.Proofs.Bank.Images

namespace AmosBasic

open Reading

theorem BankType.ofTag?_eq_some_iff {tag : List UInt8} {type : BankType} :
    BankType.ofTag? tag = some type ↔ tag = type.tag := by
  constructor
  · intro found
    have same := List.find?_some found
    exact (of_decide_eq_true same).symm
  · intro same
    rw [same]
    cases type <;> rfl

def MemoryHeader.ofFields (number chip sizeField : Nat) (name : List UInt8) : MemoryHeader :=
  { number := UInt16.ofNat number, chipMemory := chip = 0, flags := sizeField / 2 ^ 28,
    size := sizeField % 2 ^ 28 - memoryBankNameSize, name }

def MemoryHeader.content (header : MemoryHeader) (payload : List UInt8) : BankContent :=
  if header.kind = .packedPicture then
    match (PackedPicture.parse payload).1 with
    | .ok picture => .picture header picture
    | .error _ => .raw header payload
  else .raw header payload

namespace StoredBank

def content : StoredBank → BankContent
  | images kind stored palette =>
    .images kind ⟨stored.map (StoredImage.colored (.decode palette)), .decode palette⟩
  | memory number chip sizeField name payload => (MemoryHeader.ofFields number chip sizeField name).content payload

def progress (bank : StoredBank) (before : Progress) : Progress :=
  match bank with
  | images .. => before
  | memory number .. => { before with currentBank? := some (UInt16.ofNat number) }

def behind (bank : StoredBank) (place : Place) : Place :=
  { position := place.position + bank.encode.length, progress := bank.progress place.progress }

end StoredBank

variable {α : Type} {start stop : Place} {bytes : List UInt8} {handed : List Delivery} {value : α}

theorem passes_bankType_bind {next : BankType → Reading α} :
    Passes (BankType.reading >>= next) start bytes handed stop value ↔
      ∃ (type : BankType) (rest : List UInt8), bytes = type.tag ++ rest ∧
        Passes (next type) (start.behind 4) rest handed stop value := by
  simp only [BankType.reading, LawfulMonad.bind_assoc, passes_currentPosition_bind, passes_bytes_bind]
  constructor
  · intro passage
    obtain ⟨tag, rest, rfl, four, passage⟩ := passage
    cases found : BankType.ofTag? tag with
    | none =>
      simp only [found] at passage
      cases passage
    | some type =>
      simp only [found, LawfulMonad.pure_bind] at passage
      exact ⟨type, rest, by rw [BankType.ofTag?_eq_some_iff.mp found], passage⟩
  · intro tagged
    obtain ⟨type, rest, rfl, passage⟩ := tagged
    refine ⟨type.tag, rest, rfl, StoredBank.length_tag type, ?_⟩
    simpa only [BankType.ofTag?_eq_some_iff.mpr rfl, LawfulMonad.pure_bind] using passage

theorem passes_memoryHeader_bind {next : MemoryHeader → Reading α} :
    Passes (MemoryHeader.reading >>= next) start bytes handed stop value ↔
      ∃ (number chip sizeField : Nat) (name rest : List UInt8),
        bytes = bigEndianBytes 2 number ++ (bigEndianBytes 2 chip ++ (bigEndianBytes 4 sizeField ++ (name ++ rest))) ∧
        number < 2 ^ 16 ∧ chip < 2 ^ 16 ∧ sizeField < 2 ^ 32 ∧ name.length = memoryBankNameSize ∧
        memoryBankNameSize ≤ sizeField % 2 ^ 28 ∧
        Passes (next (.ofFields number chip sizeField name))
          ⟨start.position + 16, { start.progress with currentBank? := some (UInt16.ofNat number) }⟩ rest handed stop
          value := by
  simp only [MemoryHeader.reading, LawfulMonad.bind_assoc, passes_currentPosition_bind, passes_word_bind]
  constructor
  · intro passage
    obtain ⟨number, _, rfl, numberFits, chip, _, rfl, chipFits, sizeField, _, rfl, sizeFits, passage⟩ := passage
    by_cases short : sizeField % 2 ^ 28 < memoryBankNameSize
    · rw [if_pos short] at passage
      cases passage
    · rw [if_neg short] at passage
      simp only [LawfulMonad.bind_assoc, passes_bytes_bind, passes_remark_bind, passes_ite_bind, LawfulMonad.pure_bind,
        passes_updateProgress_bind, ite_self] at passage
      obtain ⟨name, rest, rfl, named, passage⟩ := passage
      exact ⟨number, chip, sizeField, name, rest, rfl, numberFits, chipFits, sizeFits, named, by omega, passage⟩
  · intro stored
    obtain ⟨number, chip, sizeField, name, rest, rfl, numberFits, chipFits, sizeFits, named, long, passage⟩ := stored
    refine ⟨number, _, rfl, numberFits, chip, _, rfl, chipFits, sizeField, _, rfl, sizeFits, ?_⟩
    rw [if_neg (Nat.not_lt.mpr long)]
    simp only [LawfulMonad.bind_assoc, passes_bytes_bind, passes_remark_bind, passes_ite_bind, LawfulMonad.pure_bind,
      passes_updateProgress_bind, ite_self]
    exact ⟨name, rest, rfl, named, passage⟩

/-- A payload that is no picture is kept, so every payload is read. -/
theorem passes_ofPayload_bind {header : MemoryHeader} {payload : List UInt8} {next : BankContent → Reading α} :
    Passes (BankContent.ofPayload header payload >>= next) start bytes handed stop value ↔
      Passes (next (header.content payload)) start bytes handed stop value := by
  unfold BankContent.ofPayload MemoryHeader.content
  by_cases picture : header.kind = .packedPicture
  · simp only [picture, if_true]
    rcases PackedPicture.parse payload with ⟨_ | parsed, notes⟩ <;>
      simp only [LawfulMonad.bind_assoc, passes_remarks_bind, passes_remark_bind, LawfulMonad.pure_bind]
  · simp only [picture, if_false, LawfulMonad.pure_bind]

theorem StoredBank.behind_images {kind : ImageKind} {stored : List StoredImage} {palette : List UInt8}
    (place : Place) :
    (images kind stored palette).behind place =
      (place.behind 4).behind (2 + (stored.flatMap StoredImage.encode).length + palette.length) := by
  rw [Place.behind_behind, behind, Place.behind]
  simp only [encode, ImageBank.encode, List.length_append, length_tag, length_bigEndianBytes, progress]
  congr 1
  omega

theorem passes_images_bind {kind : ImageKind} {next : BankContent → Reading α} :
    Passes (ImageBank.reading >>= fun bank => next (.images kind bank)) (start.behind 4) bytes handed stop value ↔
      ∃ (stored : List StoredImage) (palette rest : List UInt8),
        kind.type.tag ++ bytes = (StoredBank.images kind stored palette).encode ++ rest ∧
        (StoredBank.images kind stored palette).WellFormed ∧
        Passes (next (StoredBank.images kind stored palette).content)
          ((StoredBank.images kind stored palette).behind start) rest handed stop value := by
  simp only [passes_imageBank_bind, StoredBank.encode, ImageBank.encode, StoredBank.behind_images,
    StoredBank.WellFormed, StoredBank.content, List.append_assoc, List.append_cancel_left_eq, and_assoc]

theorem StoredBank.behind_memory {number chip sizeField : Nat} {name payload : List UInt8}
    (named : name.length = memoryBankNameSize) (place : Place) :
    (memory number chip sizeField name payload).behind place =
      Place.behind ⟨place.position + 4 + 16, { place.progress with currentBank? := some (UInt16.ofNat number) }⟩
        payload.length := by
  rw [behind, Place.behind]
  simp only [encode, List.length_append, length_tag, length_bigEndianBytes, progress, named, memoryBankNameSize]
  congr 1
  omega

theorem passes_memory_bind {next : BankContent → Reading α} :
    Passes (MemoryHeader.reading >>= fun header => Reading.bytes header.size >>= fun payload =>
        BankContent.ofPayload header payload >>= next) (start.behind 4) bytes handed stop value ↔
      ∃ (number chip sizeField : Nat) (name payload rest : List UInt8),
        BankType.memory.tag ++ bytes = (StoredBank.memory number chip sizeField name payload).encode ++ rest ∧
        (StoredBank.memory number chip sizeField name payload).WellFormed ∧
        Passes (next (StoredBank.memory number chip sizeField name payload).content)
          ((StoredBank.memory number chip sizeField name payload).behind start) rest handed stop value := by
  simp only [passes_memoryHeader_bind, passes_bytes_bind, passes_ofPayload_bind]
  constructor
  · intro passage
    obtain ⟨number, chip, sizeField, name, _, rfl, numberFits, chipFits, sizeFits, named, long, payload, rest, rfl,
      filled, passage⟩ := passage
    have declared : memoryBankNameSize + payload.length = sizeField % 2 ^ 28 := by
      simp only [MemoryHeader.ofFields] at filled
      omega
    refine ⟨number, chip, sizeField, name, payload, rest, ?_, ⟨numberFits, chipFits, sizeFits, named, declared⟩, ?_⟩
    · simp only [StoredBank.encode, List.append_assoc]
    · rw [StoredBank.behind_memory named, filled]
      exact passage
  · intro stored
    obtain ⟨number, chip, sizeField, name, payload, rest, whole, wellFormed, passage⟩ := stored
    obtain ⟨numberFits, chipFits, sizeFits, named, declared⟩ := wellFormed
    simp only [StoredBank.encode, List.append_assoc, List.append_cancel_left_eq] at whole
    have filled : payload.length = (MemoryHeader.ofFields number chip sizeField name).size := by
      simp only [MemoryHeader.ofFields]
      omega
    rw [StoredBank.behind_memory named, filled] at passage
    exact ⟨number, chip, sizeField, name, _, whole, numberFits, chipFits, sizeFits, named, by omega, payload, rest, rfl,
      filled, passage⟩

/-- The content of a bank is read where its bytes are those of a well-formed bank. -/
theorem passes_content_bind {next : BankContent → Reading α} :
    Passes (BankContent.reading >>= next) start bytes handed stop value ↔
      ∃ (bank : StoredBank) (rest : List UInt8), bytes = bank.encode ++ rest ∧ bank.WellFormed ∧
        Passes (next bank.content) (bank.behind start) rest handed stop value := by
  simp only [BankContent.reading, LawfulMonad.bind_assoc, passes_bankType_bind]
  constructor
  · intro passage
    obtain ⟨type, _, rfl, passage⟩ := passage
    cases type with
    | sprite =>
      simp only [LawfulMonad.bind_assoc, LawfulMonad.pure_bind] at passage
      obtain ⟨stored, palette, rest, whole⟩ := passes_images_bind.mp passage
      exact ⟨.images .sprites stored palette, rest, whole⟩
    | icon =>
      simp only [LawfulMonad.bind_assoc, LawfulMonad.pure_bind] at passage
      obtain ⟨stored, palette, rest, whole⟩ := passes_images_bind.mp passage
      exact ⟨.images .icons stored palette, rest, whole⟩
    | memory =>
      simp only [LawfulMonad.bind_assoc] at passage
      obtain ⟨number, chip, sizeField, name, payload, rest, whole⟩ := passes_memory_bind.mp passage
      exact ⟨.memory number chip sizeField name payload, rest, whole⟩
  · intro stored
    obtain ⟨bank, rest, rfl, wellFormed, passage⟩ := stored
    cases bank with
    | images kind stored palette =>
      have tagged : (StoredBank.images kind stored palette).encode ++ rest = kind.type.tag ++
          (bigEndianBytes 2 stored.length ++ (stored.flatMap StoredImage.encode ++ (palette ++ rest))) := by
        simp only [StoredBank.encode, ImageBank.encode, List.append_assoc]
      have read := passes_images_bind.mpr ⟨stored, palette, rest, tagged.symm, wellFormed, passage⟩
      refine ⟨kind.type, _, tagged, ?_⟩
      cases kind <;> simpa only [ImageKind.type, LawfulMonad.bind_assoc, LawfulMonad.pure_bind] using read
    | memory number chip sizeField name payload =>
      have tagged : (StoredBank.memory number chip sizeField name payload).encode ++ rest = BankType.memory.tag ++
          (bigEndianBytes 2 number ++ (bigEndianBytes 2 chip ++ (bigEndianBytes 4 sizeField ++
            (name ++ (payload ++ rest))))) := by
        simp only [StoredBank.encode, List.append_assoc]
      have read := passes_memory_bind.mpr
        ⟨number, chip, sizeField, name, payload, rest, tagged.symm, wellFormed, passage⟩
      refine ⟨.memory, _, tagged, ?_⟩
      simpa only [LawfulMonad.bind_assoc] using read

end AmosBasic
