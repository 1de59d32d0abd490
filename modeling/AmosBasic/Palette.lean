
namespace AmosBasic

attribute [local instance(2000)] instPowNat

structure Color where
  red : UInt8
  green : UInt8
  blue : UInt8
  deriving DecidableEq, Inhabited

namespace Color

def half (color : Color) : Color :=
  ⟨color.red / 2, color.green / 2, color.blue / 2⟩

def bytes (color : Color) : List UInt8 :=
  [color.red, color.green, color.blue]

/-- A register word is `0x0RGB`. Its nibbles are the high nibbles of the channels. -/
def ofRegister (high low : UInt8) : Color :=
  ⟨high % 16 * 16, low / 16 * 16, low % 16 * 16⟩

end Color

structure Palette where
  colors : Vector Color 32
  deriving DecidableEq

namespace Palette

def size : Nat := 64

def decode (bytes : List UInt8) : Palette :=
  let stored := bytes.toArray
  ⟨Vector.ofFn fun register => .ofRegister (stored.getD (2 * register) 0) (stored.getD (2 * register + 1) 0)⟩

def grayGradient : Palette :=
  ⟨Vector.ofFn fun register => let level := UInt8.ofNat (8 * register); ⟨level, level, level⟩⟩

def get? (palette : Palette) (index : Nat) : Option Color :=
  palette.colors[index]?

def maxDepth : Nat := 6

/-- The `2 ^ depth` colors that an image of that depth can show. With six bitplanes the upper 32
are the registers at half brightness. -/
def colorTable (palette : Palette) (depth : Nat) : List Color :=
  let depth := max 1 (min depth maxDepth)
  let registers := palette.colors.toList
  if 2 ^ depth ≤ 32 then registers.take (2 ^ depth) else registers ++ registers.map Color.half

end Palette

end AmosBasic
