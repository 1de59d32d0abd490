import AmosBasic.Numeral
import AmosBasic.Text.Latin1

namespace AmosBasic

structure HeaderVariant where
  magic : List UInt8
  tested : Bool
  origin : String
  deriving DecidableEq

namespace HeaderVariant

def magicLength : Nat := 16

def known : List HeaderVariant :=
  [⟨Latin1.encode "AMOS Pro101V\x00\x00\x00\x00", true, "AMOS Professional"⟩,
   ⟨Latin1.encode "AMOS Basic V134 ", true, "AMOS Pro, but AMOS 1.3 compatible"⟩,
   ⟨Latin1.encode "AMOS Basic V1.3 ", true, "AMOS The Creator v1.3"⟩,
   ⟨Latin1.encode "AMOS Basic V1.00", true, "AMOS The Creator v1.0 - v1.2"⟩,
   ⟨Latin1.encode "AMOS Pro101v\x00\x00\x00\x00", false, "AMOS Professional"⟩,
   ⟨Latin1.encode "AMOS Pro101v\x00\x00\x00\x03", false, "AMOS Professional"⟩,
   ⟨Latin1.encode "AMOS Basic v134 ", false, "AMOS Pro, but AMOS 1.3 compatible"⟩,
   ⟨Latin1.encode "AMOS Basic v1.3 ", false, "AMOS The Creator v1.3"⟩,
   ⟨Latin1.encode "AMOS Basic v1.00", false, "AMOS The Creator v1.0 - v1.2"⟩]

def ofMagic? (magic : List UInt8) : Option HeaderVariant :=
  known.find? fun variant => variant.magic = magic

end HeaderVariant

structure Header where
  variant : HeaderVariant
  sourceLength : Nat
  deriving DecidableEq

namespace Header

def size : Nat := HeaderVariant.magicLength + 4

/-- The white space of ISO-8859-1 that is not a control character. -/
def isBlank (character : Char) : Bool :=
  character = ' ' ∨ character = '\x85' ∨ character = '\xA0'

def label (header : Header) : String :=
  let printed := (header.variant.magic.filter (0x20 ≤ ·)).map Latin1.character
  String.ofList (printed.reverse.dropWhile isBlank).reverse

def text (header : Header) : String :=
  "\nHeader:                   " ++ header.label ++
  "\nSaved by:                 " ++ header.variant.origin ++
  "\nSanity tested:            " ++ (if header.variant.tested then "yes" else "no") ++
  "\nSource length:            " ++ hexadecimalFilled 8 header.sourceLength ++ "\n"

end Header

end AmosBasic
