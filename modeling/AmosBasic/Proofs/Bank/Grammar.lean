import AmosBasic.Bank.Encoding
import AmosBasic.Bank.Reading
import AmosBasic.Proofs.Bytes

namespace AmosBasic

structure StoredImage.WellFormed (image : StoredImage) : Prop where
  words : ∀ word ∈ [image.widthWords, image.height, image.depth, image.hotspotX, image.hotspotY], word < 2 ^ 16
  depth : 1 ≤ image.depth ∧ image.depth ≤ Palette.maxDepth
  planes : image.planes.length = 2 * image.widthWords * image.height * image.depth

instance (image : StoredImage) : Decidable image.WellFormed :=
  decidable_of_iff
    ((∀ word ∈ [image.widthWords, image.height, image.depth, image.hotspotX, image.hotspotY], word < 2 ^ 16) ∧
      (1 ≤ image.depth ∧ image.depth ≤ Palette.maxDepth) ∧
      image.planes.length = 2 * image.widthWords * image.height * image.depth)
    ⟨fun ⟨words, depth, planes⟩ => ⟨words, depth, planes⟩, fun ⟨words, depth, planes⟩ => ⟨words, depth, planes⟩⟩

theorem StoredImage.length_encode (image : StoredImage) : image.encode.length = 10 + image.planes.length := by
  simp only [encode, wordBytes, List.flatMap_cons, List.flatMap_nil, List.length_append, List.length_nil,
    length_bigEndianBytes]

/-- A bank as it is stored. The chip word says where it was loaded, and the size field has the flags in
its high nibble. -/
inductive StoredBank where
  | images (kind : ImageKind) (images : List StoredImage) (palette : List UInt8)
  | memory (number chip sizeField : Nat) (name payload : List UInt8)

def ImageKind.type : ImageKind → BankType
  | sprites => .sprite
  | icons => .icon

namespace StoredBank

def encode : StoredBank → List UInt8
  | images kind stored palette => ImageBank.encode kind.type.tag stored palette
  | memory number chip sizeField name payload =>
    BankType.memory.tag ++ bigEndianBytes 2 number ++ bigEndianBytes 2 chip ++ bigEndianBytes 4 sizeField ++
      name ++ payload

/-- The declared size of a memory bank counts its name and its payload. -/
def WellFormed : StoredBank → Prop
  | images _ stored palette =>
    stored.length < 2 ^ 16 ∧ (∀ image ∈ stored, image.WellFormed) ∧ palette.length = Palette.size
  | memory number chip sizeField name payload =>
    number < 2 ^ 16 ∧ chip < 2 ^ 16 ∧ sizeField < 2 ^ 32 ∧ name.length = memoryBankNameSize ∧
      memoryBankNameSize + payload.length = sizeField % 2 ^ 28

instance : (bank : StoredBank) → Decidable bank.WellFormed
  | images _ stored palette => inferInstanceAs (Decidable (stored.length < 2 ^ 16 ∧
      (∀ image ∈ stored, image.WellFormed) ∧ palette.length = Palette.size))
  | memory number chip sizeField name payload => inferInstanceAs (Decidable (number < 2 ^ 16 ∧
      chip < 2 ^ 16 ∧ sizeField < 2 ^ 32 ∧ name.length = memoryBankNameSize ∧
      memoryBankNameSize + payload.length = sizeField % 2 ^ 28))

def size : StoredBank → Nat
  | images _ stored _ =>
    6 + (stored.map fun image => 10 + 2 * image.widthWords * image.height * image.depth).sum + 64
  | memory _ _ sizeField _ _ => 12 + sizeField % 2 ^ 28

theorem length_flatMap_encode {images : List StoredImage} (wellFormed : ∀ image ∈ images, image.WellFormed) :
    (images.flatMap StoredImage.encode).length =
      (images.map fun image => 10 + 2 * image.widthWords * image.height * image.depth).sum := by
  induction images with
  | nil => rfl
  | cons image images ih =>
    obtain ⟨first, rest⟩ := List.forall_mem_cons.mp wellFormed
    rw [List.flatMap_cons, List.length_append, ih rest, image.length_encode, first.planes]
    rfl

theorem length_tag (type : BankType) : type.tag.length = 4 := by
  cases type <;> rfl

theorem WellFormed.length_encode {bank : StoredBank} (wellFormed : bank.WellFormed) :
    bank.encode.length = bank.size := by
  cases bank with
  | images kind stored palette =>
    obtain ⟨-, each, colors⟩ := wellFormed
    have all := length_flatMap_encode each
    simp only [encode, ImageBank.encode, size, List.length_append, length_tag, length_bigEndianBytes, all, colors,
      Palette.size]
  | memory number chip sizeField name payload =>
    obtain ⟨-, -, -, named, filled⟩ := wellFormed
    simp only [encode, size, List.length_append, length_tag, length_bigEndianBytes, named, ← filled]
    omega

end StoredBank

structure StoredBanks (banks : List StoredBank) : Prop where
  count : banks.length < 2 ^ 16
  wellFormed : ∀ bank ∈ banks, bank.WellFormed

def StoredBanks.bytes (banks : List StoredBank) : List UInt8 :=
  bankSectionMarker ++ bigEndianBytes 2 banks.length ++ banks.flatMap StoredBank.encode

theorem StoredBanks.length_bytes {banks : List StoredBank} (wellFormed : ∀ bank ∈ banks, bank.WellFormed) :
    (StoredBanks.bytes banks).length = 6 + (banks.map StoredBank.size).sum := by
  have each : banks.map (List.length ∘ StoredBank.encode) = banks.map StoredBank.size :=
    List.map_congr_left fun bank member => (wellFormed bank member).length_encode
  simp only [bytes, List.length_append, length_bigEndianBytes, List.length_flatMap]
  rw [← each]
  rfl

end AmosBasic
