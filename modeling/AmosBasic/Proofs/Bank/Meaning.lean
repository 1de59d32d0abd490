import AmosBasic.Proofs.Bank.PictureHeader
import AmosBasic.Proofs.Raster
import Mathlib.Data.List.Forall2

namespace AmosBasic

namespace StoredImage

/-- The bit of a pixel in a plane. Rows are filled up to sixteen pixels, the leftmost in the highest bit. -/
def bit (image : StoredImage) (plane x y : Nat) : Nat :=
  let byte := plane * (2 * image.widthWords * image.height) + y * (2 * image.widthWords) + x / 8
  (image.planes.getD byte 0).toNat / 2 ^ (7 - x % 8) % 2

structure ReadAs (palette : Palette) (image : StoredImage) (read : BankImage) : Prop where
  hotspotX : read.hotspotX = image.hotspotX
  hotspotY : read.hotspotY = image.hotspotY
  width : read.raster.width = 16 * image.widthWords
  height : read.raster.height = image.height
  depth : read.raster.depth = image.depth
  palette : read.raster.palette = palette
  pixels : ∀ x y, x < 16 * image.widthWords → y < image.height → read.raster.pixel? x y =
    some (UInt8.ofNat ((List.range image.depth).map fun plane => 2 ^ plane * image.bit plane x y).sum)

theorem planeBit_eq_bit (image : StoredImage) (plane x y : Nat) :
    (Raster.planeBit (16 * image.widthWords) image.height image.planes plane x y).toNat = image.bit plane x y := by
  rw [Raster.planeBit, Nat.toNat_testBit, Raster.planarOffset_eq, Raster.planeSize, Raster.bytesPerRow_words, bit,
    Nat.add_assoc]

theorem readAs_colored (palette : Palette) (image : StoredImage) : ReadAs palette image (image.colored palette) where
  hotspotX := rfl
  hotspotY := rfl
  width := rfl
  height := rfl
  depth := rfl
  palette := rfl
  pixels := by
    intro x y inside below
    simp only [Raster.pixel?, colored, raster, inside, below, and_self, if_true]
    rw [Raster.getElem?_planarPixels inside below]
    simp only [Raster.planarPixel, planeBit_eq_bit]

end StoredImage

structure MemoryHeader.Describes (header : MemoryHeader) (number chip sizeField : Nat) (name : List UInt8) :
    Prop where
  number : header.number.toNat = number
  chipMemory : header.chipMemory = true ↔ chip = 0
  flags : header.flags = sizeField / 2 ^ 28
  size : header.size = sizeField % 2 ^ 28 - 8
  name : header.name = name

theorem MemoryHeader.describes_ofFields {number : Nat} (fits : number < 2 ^ 16) (chip sizeField : Nat)
    (name : List UInt8) : (ofFields number chip sizeField name).Describes number chip sizeField name where
  number := UInt16.toNat_ofNat_of_lt' fits
  chipMemory := decide_eq_true_iff
  flags := rfl
  size := rfl
  name := rfl

namespace StoredBank

/-- A bank and its content. A memory bank is a picture if its name says so and its payload is one. -/
inductive ReadAs : StoredBank → BankContent → Prop
  | images {kind : ImageKind} {stored : List StoredImage} {palette : List UInt8} {bank : ImageBank}
      (colors : bank.palette.Holds palette) (each : List.Forall₂ (StoredImage.ReadAs bank.palette) stored bank.images) :
      ReadAs (.images kind stored palette) (.images kind bank)
  | picture {number chip sizeField : Nat} {name : List UInt8} {header : MemoryHeader} {picture : PackedPicture}
      (described : header.Describes number chip sizeField name) (named : name = Latin1.encode "Pac.Pic.")
      (stored : PackedPicture.StoredPicture picture) :
      ReadAs (.memory number chip sizeField name stored.encode) (.picture header picture)
  | raw {number chip sizeField : Nat} {name payload : List UInt8} {header : MemoryHeader}
      (described : header.Describes number chip sizeField name)
      (other : name = Latin1.encode "Pac.Pic." → payload.length < 114) :
      ReadAs (.memory number chip sizeField name payload) (.raw header payload)

theorem WellFormed.readAs_content {bank : StoredBank} (wellFormed : bank.WellFormed) : bank.ReadAs bank.content := by
  cases bank with
  | images kind stored palette =>
    refine .images (Palette.holds_decode palette) ?_
    rw [List.forall₂_map_right_iff, List.forall₂_same]
    exact fun image _ => image.readAs_colored _
  | memory number chip sizeField name payload =>
    have described := MemoryHeader.describes_ofFields wellFormed.1 chip sizeField name
    rcases (MemoryHeader.ofFields number chip sizeField name).content_eq payload with
      ⟨named, -, picture, parsed, same⟩ | ⟨other, same⟩
    · obtain ⟨stored, rfl⟩ := PackedPicture.parse_ok_iff_stored.mp parsed
      rw [content, same]
      exact .picture described named stored
    · rw [content, same]
      exact .raw described fun named => Nat.lt_of_not_le fun enough => other ⟨named, enough⟩

end StoredBank

end AmosBasic
