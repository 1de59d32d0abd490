import AmosBasic.Error
import AmosBasic.Text.Latin1

namespace AmosBasic

inductive BankType where
  | sprite
  | icon
  | memory
  deriving DecidableEq

namespace BankType

def tag : BankType → List UInt8
  | sprite => Latin1.encode "AmSp"
  | icon => Latin1.encode "AmIc"
  | memory => Latin1.encode "AmBk"

def ofTag? (tag : List UInt8) : Option BankType :=
  [sprite, icon, memory].find? fun type => type.tag = tag

end BankType

inductive MemoryKind where
  | packedPicture
  | tracker
  | samples
  | generic
  deriving DecidableEq

def MemoryKind.ofName (name : List UInt8) : MemoryKind :=
  if name = Latin1.encode "Pac.Pic." then packedPicture
  else if name = Latin1.encode "Tracker " then tracker
  else if name = Latin1.encode "Samples " then samples
  else generic

/-- The header of a memory bank. `size` counts the payload alone. -/
structure MemoryHeader where
  number : UInt16
  chipMemory : Bool
  flags : Nat
  size : Nat
  name : List UInt8
  deriving DecidableEq

namespace MemoryHeader

def kind (header : MemoryHeader) : MemoryKind :=
  .ofName header.name

def nameText (header : MemoryHeader) : String :=
  Latin1.decode header.name

def text (header : MemoryHeader) : String :=
  let memory := if header.chipMemory then " (chip) " else " "
  s!"Bank {header.number.toNat}: {header.nameText}{memory}{header.size} bytes"

end MemoryHeader

end AmosBasic
