import AmosBasic.Error
import AmosBasic.Palette

namespace AmosBasic

attribute [local instance(2000)] instPowNat

structure Raster where
  width : Nat
  height : Nat
  depth : Nat
  pixels : Array UInt8
  palette : Palette
  deriving DecidableEq

namespace Raster

def isEmpty (raster : Raster) : Bool :=
  raster.width = 0 ∨ raster.height = 0

def pixel? (raster : Raster) (x y : Nat) : Option UInt8 :=
  if x < raster.width ∧ y < raster.height then raster.pixels[y * raster.width + x]? else none

def row? (raster : Raster) (y : Nat) : Option (List UInt8) :=
  if y < raster.height then
    some (raster.pixels.extract (y * raster.width) ((y + 1) * raster.width)).toList
  else none

def rows (raster : Raster) : List (List UInt8) :=
  (List.range raster.height).filterMap raster.row?

def colorTable (raster : Raster) : List Color :=
  raster.palette.colorTable raster.depth

def withPalette (raster : Raster) (palette : Palette) : Raster :=
  { raster with palette }

def bytesPerRow (width : Nat) : Nat :=
  (width + 7) / 8

def planeSize (width height : Nat) : Nat :=
  bytesPerRow width * height

def planarSize (width height depth : Nat) : Nat :=
  planeSize width height * depth

def pieces (size : Nat) : Nat → List UInt8 → List (List UInt8)
  | 0, _ => []
  | count + 1, bytes => bytes.take size :: pieces size count (bytes.drop size)

def bits (bytes : List UInt8) : List Bool :=
  bytes.flatMap fun byte => (List.range 8).map fun place => byte.toNat.testBit (7 - place)

def addRow (mask : UInt8) (start : Nat) (row : List Bool) (pixels : Array UInt8) : Array UInt8 :=
  (row.zipIdx start).foldl
    (fun pixels (bit, place) => if bit then pixels.modify place (· ||| mask) else pixels) pixels

def addPlane (width height plane : Nat) (bytes : List UInt8) (pixels : Array UInt8) : Array UInt8 :=
  (pieces (bytesPerRow width) height bytes).zipIdx.foldl
    (fun pixels (row, y) => addRow (UInt8.ofNat (2 ^ plane)) (y * width) ((bits row).take width) pixels) pixels

/-- The pixels of an image of `depth` planes, which are stored one after the other. A plane holds the rows from top to
bottom, each filled up to whole bytes, the leftmost pixel in the highest bit, and plane `b` gives bit `b` of each
pixel. -/
def planarPixels (width height depth : Nat) (planes : List UInt8) : Array UInt8 :=
  (pieces (planeSize width height) depth planes).zipIdx.foldl
    (fun pixels (bytes, plane) => addPlane width height plane bytes pixels) (Array.replicate (width * height) 0)

/-- Converts bitplanes. Bytes behind the last plane are ignored. -/
def ofPlanar (width height depth : Nat) (planes : List UInt8) (palette : Palette) :
    Except DecodeError Raster :=
  let needed := planarSize width height depth
  if depth < 1 ∨ Palette.maxDepth < depth then .error (.corruptStream none (.imageDepth depth))
  else if planes.length < needed then
    .error (.corruptStream none (.shortPlanes width height depth needed planes.length))
  else .ok { width, height, depth, pixels := planarPixels width height depth planes, palette }

end Raster

end AmosBasic
