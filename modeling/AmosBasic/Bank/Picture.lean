import AmosBasic.Raster

namespace AmosBasic

/-- The colors are 2 to 64, or 4096 when the screen holds and modifies. -/
structure Screen where
  width : Nat
  height : Nat
  hardwareX : Nat
  hardwareY : Nat
  hardwareWidth : Nat
  hardwareHeight : Nat
  planeControl : Nat
  colors : Nat
  planes : Nat
  palette : Palette
  deriving DecidableEq

/-- Offsets and width count bytes and lines, the height counts lumps of lines. The last two fields
are places relative to this description. -/
structure PictureLayout where
  xOffset : Nat
  yOffset : Nat
  width : Nat
  height : Nat
  linesPerLump : Nat
  planes : Nat
  runDataOffset : Nat
  pointsOffset : Nat
  deriving DecidableEq

structure PackedPicture where
  screen : Screen
  layout : PictureLayout
  packedData : List UInt8
  deriving DecidableEq

namespace PackedPicture

def screenId : Nat := 0x12031990

def layoutId : Nat := 0x06071963

end PackedPicture

end AmosBasic
