import AmosBasic.Raster

namespace AmosBasic.Png

attribute [local instance(2000)] instPowNat

structure Image where
  width : Nat
  height : Nat
  palette : List Color
  rows : List (List UInt8)
  deriving DecidableEq

def bitDepth : UInt8 := 8

def indexedColor : UInt8 := 3

/-- The image of a raster, whose sizes are stored in 32 bits each. -/
def ofRaster (raster : Raster) : Except DecodeError Image :=
  let width := raster.width % 2 ^ (32 : Nat)
  let height := raster.height % 2 ^ (32 : Nat)
  if width = 0 then .error (.io "Zero width not allowed")
  else if height = 0 then .error (.io "Zero height not allowed")
  else .ok { width, height, palette := raster.colorTable, rows := raster.rows }

end AmosBasic.Png
