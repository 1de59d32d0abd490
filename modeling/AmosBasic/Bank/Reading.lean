import AmosBasic.Reading

namespace AmosBasic

attribute [local instance(2000)] instPowNat

open Reading

def BankType.reading : Reading BankType := do
  let offset ← currentPosition
  let tag ← bytes 4
  match BankType.ofTag? tag with
  | some type => return type
  | none => corrupt offset (.unknownBankType tag)

def MemoryHeader.reading : Reading MemoryHeader := do
  let offset ← currentPosition
  let number ← word 2
  let chip ← word 2
  let sizeField ← word 4
  let declared := sizeField % 2 ^ (28 : Nat)
  if declared < memoryBankNameSize then corrupt offset (.shortMemoryBank number declared)
  else
    let name ← bytes memoryBankNameSize
    let header : MemoryHeader :=
      { number := UInt16.ofNat number, chipMemory := chip = 0, flags := sizeField / 2 ^ (28 : Nat),
        size := declared - memoryBankNameSize, name }
    remark (.memoryBank header)
    if header.kind = .generic then remark (.unknownMemoryBank header)
    updateProgress fun progress => { progress with currentBank? := some header.number }
    return header

structure PlanarImage where
  width : Nat
  height : Nat
  depth : Nat
  hotspotX : Nat
  hotspotY : Nat
  planes : List UInt8

namespace PlanarImage

def reading (index : Nat) : Reading PlanarImage := do
  let widthWords ← word 2
  let height ← word 2
  let depthOffset ← currentPosition
  let depth ← word 2
  if depth < 1 ∨ Palette.maxDepth < depth then corrupt depthOffset (.bankImageDepth depth index)
  else
    let hotspotX ← word 2
    let hotspotY ← word 2
    let planes ← bytes (2 * widthWords * height * depth)
    let width := 16 * widthWords
    remark (.image index width height depth hotspotX hotspotY)
    return { width, height, depth, hotspotX, hotspotY, planes }

def coloring (palette : Palette) (image : PlanarImage) : Reading BankImage := do
  let (converted, notes) := Raster.convert image.width image.height image.depth image.planes palette
  notes.forM remark
  match converted with
  | .ok raster => return { hotspotX := image.hotspotX, hotspotY := image.hotspotY, raster }
  | .error error => fail error

end PlanarImage

namespace ImageBank

def planarReading : Nat → Nat → List PlanarImage → Reading (List PlanarImage)
  | 0, _, read => return read.reverse
  | left + 1, index, read => do
    let image ← PlanarImage.reading index
    planarReading left (index + 1) (image :: read)

def coloring (palette : Palette) : List PlanarImage → List BankImage → Reading (List BankImage)
  | [], colored => return colored.reverse
  | image :: images, colored => do
    let image ← image.coloring palette
    coloring palette images (image :: colored)

def reading : Reading ImageBank := do
  let count ← word 2
  remark (.imageCount count)
  let planar ← planarReading count 0 []
  let palette := Palette.decode (← bytes Palette.size)
  return { images := ← coloring palette planar [], palette }

end ImageBank

namespace PackedPicture

def expectId (expected : Nat) (warning : Nat → Note) : Reading Unit := do
  let id ← word 4
  if id ≠ expected then remark (warning id)

def screenReading : Reading Screen := do
  expectId screenId .unexpectedScreenId
  let width ← word 2
  let height ← word 2
  let hardwareX ← word 2
  let hardwareY ← word 2
  let hardwareWidth ← word 2
  let hardwareHeight ← word 2
  let _ ← skipped 4
  let planeControl ← word 2
  let colors ← word 2
  let planes ← word 2
  let palette := Palette.decode (← bytes Palette.size)
  return { width, height, hardwareX, hardwareY, hardwareWidth, hardwareHeight, planeControl, colors,
           planes, palette }

def layoutReading : Reading PictureLayout := do
  expectId layoutId .unexpectedLayoutId
  let xOffset ← word 2
  let yOffset ← word 2
  let width ← word 2
  let height ← word 2
  let linesPerLump ← word 2
  let planes ← word 2
  let runDataOffset ← word 4
  let pointsOffset ← word 4
  return { xOffset, yOffset, width, height, linesPerLump, planes, runDataOffset, pointsOffset }

def reading (packedData : List UInt8) : Reading PackedPicture := do
  let screen ← screenReading
  let layout ← layoutReading
  remark (.picture screen packedData.length)
  return { screen, layout, packedData }

def parse (payload : List UInt8) : Except DecodeError PackedPicture × List Note :=
  if payload.length < pictureHeaderSize then
    (.error (.corruptStream none (.shortPicture payload.length)), [])
  else
    let machine : Machine Unit := { cursor := .ofBytes payload, receiver := () }
    let (picture, machine) := (reading (payload.drop pictureHeaderSize)).run Sink.discard machine
    (picture, machine.notes.toList)

end PackedPicture

namespace BankContent

/-- The payload of a memory bank. One that cannot be a picture is kept as it is. -/
def ofPayload (header : MemoryHeader) (payload : List UInt8) : Reading BankContent :=
  if header.kind = .packedPicture then
    let (parsed, notes) := PackedPicture.parse payload
    do
      notes.forM remark
      match parsed with
      | .ok found => return .picture header found
      | .error error => do
        remark (.keptRaw header error)
        return .raw header payload
  else return .raw header payload

def reading : Reading BankContent := do
  match ← BankType.reading with
  | .sprite => return .images .sprites (← ImageBank.reading)
  | .icon => return .images .icons (← ImageBank.reading)
  | .memory =>
    let header ← MemoryHeader.reading
    let payload ← bytes header.size
    ofPayload header payload

end BankContent

end AmosBasic
