import AmosBasic.Bank
import AmosBasic.Bytes

namespace AmosBasic

attribute [local instance(2000)] instPowNat

structure StoredImage where
  widthWords : Nat
  height : Nat
  depth : Nat
  hotspotX : Nat
  hotspotY : Nat
  planes : List UInt8

def wordBytes (words : List Nat) : List UInt8 :=
  words.flatMap (bigEndianBytes 2)

def StoredImage.encode (image : StoredImage) : List UInt8 :=
  wordBytes [image.widthWords, image.height, image.depth, image.hotspotX, image.hotspotY] ++ image.planes

def ImageBank.encode (tag : List UInt8) (images : List StoredImage) (palette : List UInt8) : List UInt8 :=
  tag ++ bigEndianBytes 2 images.length ++ images.flatMap StoredImage.encode ++ palette

/-- A memory bank around its payload. The flags share a word with the size. -/
def MemoryHeader.encode (number : Nat) (chipMemory : Bool) (flags : Nat) (name payload : List UInt8) :
    List UInt8 :=
  BankType.memory.tag ++ bigEndianBytes 2 number ++ bigEndianBytes 2 (if chipMemory then 0 else 1) ++
    bigEndianBytes 4 (flags % 16 * 2 ^ (28 : Nat) + (payload.length + memoryBankNameSize)) ++ name ++ payload

namespace PackedPicture

def encodeScreen (screen : Screen) (palette : List UInt8) : List UInt8 :=
  bigEndianBytes 4 screenId ++
    wordBytes [screen.width, screen.height, screen.hardwareX, screen.hardwareY, screen.hardwareWidth,
      screen.hardwareHeight, 0, 0, screen.planeControl, screen.colors, screen.planes] ++ palette

def encodeLayout (layout : PictureLayout) : List UInt8 :=
  bigEndianBytes 4 layoutId ++
    wordBytes [layout.xOffset, layout.yOffset, layout.width, layout.height, layout.linesPerLump,
      layout.planes] ++
    bigEndianBytes 4 layout.runDataOffset ++ bigEndianBytes 4 layout.pointsOffset

def encodeFullScreen (width height planes : Nat) (palette packedData : List UInt8) : List UInt8 :=
  let screen : Screen :=
    { width, height, hardwareX := 0x81, hardwareY := 0x2C, hardwareWidth := width,
      hardwareHeight := height, planeControl := 0x4200, colors := 2 ^ (planes % 16), planes,
      palette := .decode palette }
  let layout : PictureLayout :=
    { xOffset := 0, yOffset := 0, width := width / 8, height := height / 8, linesPerLump := 8, planes,
      runDataOffset := 24, pointsOffset := 24 + packedData.length / 2 }
  encodeScreen screen palette ++ encodeLayout layout ++ packedData

end PackedPicture

end AmosBasic
