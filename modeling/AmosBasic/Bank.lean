import AmosBasic.Bank.Memory
import AmosBasic.Bank.Picture

namespace AmosBasic

inductive ImageKind where
  | sprites
  | icons
  deriving DecidableEq

structure BankImage where
  hotspotX : Nat
  hotspotY : Nat
  raster : Raster
  deriving DecidableEq

/-- The images of a bank share the palette that is stored after them. -/
structure ImageBank where
  images : List BankImage
  palette : Palette
  deriving DecidableEq

/-- A memory bank is `raw` unless its name and its size are those of a packed picture. -/
inductive BankContent where
  | images (kind : ImageKind) (bank : ImageBank)
  | picture (header : MemoryHeader) (picture : PackedPicture)
  | raw (header : MemoryHeader) (payload : List UInt8)
  deriving DecidableEq

structure Bank where
  ordinal : Nat
  content : BankContent
  deriving DecidableEq

end AmosBasic
