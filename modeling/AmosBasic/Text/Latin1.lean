namespace AmosBasic.Latin1

def character (byte : UInt8) : Char :=
  Char.ofNat byte.toNat

def decode (bytes : List UInt8) : String :=
  String.ofList (bytes.map character)

def encode (text : String) : List UInt8 :=
  text.toList.map fun character => UInt8.ofNat character.toNat

def trimPadding (bytes : List UInt8) : List UInt8 :=
  (bytes.reverse.dropWhile (· == 0)).reverse

/-- The text of a string that was filled up with NULs. -/
def decodePadded (bytes : List UInt8) : String :=
  decode (trimPadding bytes)

end AmosBasic.Latin1
