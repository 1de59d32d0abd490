import AmosBasic.Bytes
import AmosBasic.Png

namespace AmosBasic.Png

attribute [local instance(2000)] instPowNat

def signature : List UInt8 := [0x89, 0x50, 0x4E, 0x47, 0x0D, 0x0A, 0x1A, 0x0A]

def checksumStep (remainder : UInt32) : UInt32 :=
  if remainder % 2 = 1 then (remainder / 2) ^^^ 0xEDB88320 else remainder / 2

def checksum (bytes : List UInt8) : UInt32 :=
  let step (remainder : UInt32) (byte : UInt8) : UInt32 :=
    Nat.repeat checksumStep 8 (remainder ^^^ byte.toUInt32)
  bytes.foldl step 0xFFFFFFFF ^^^ 0xFFFFFFFF

def chunk (type : String) (data : List UInt8) : List UInt8 :=
  let body := type.toList.map (fun character => UInt8.ofNat character.toNat) ++ data
  bigEndianBytes 4 data.length ++ body ++ bigEndianBytes 4 (checksum body).toNat

/-- The check at the end of compressed data: the sum of the bytes plus one, and the sum of the
sums on the way, modulo 65521. -/
def runningSums (bytes : List UInt8) : Nat :=
  let sums := bytes.foldl (fun (low, high) byte =>
    let low := (low + byte.toNat) % 65521
    (low, (high + low) % 65521)) (1, 0)
  sums.2 * 2 ^ (16 : Nat) + sums.1

def maxBlock : Nat := 65535

def storedBlocks (data : List UInt8) : List UInt8 :=
  let block := data.take maxBlock
  let size := block.length
  let head (final : UInt8) : List UInt8 :=
    let low := UInt8.ofNat size
    let high := UInt8.ofNat (size / 256)
    [final, low, high, ~~~low, ~~~high]
  if data.length ≤ maxBlock then head 1 ++ block
  else head 0 ++ block ++ storedBlocks (data.drop maxBlock)
termination_by data.length
decreasing_by
  rename_i long
  simp only [List.length_drop, maxBlock] at *
  omega

def stored (data : List UInt8) : List UInt8 :=
  [0x78, 0x01] ++ storedBlocks data ++ bigEndianBytes 4 (runningSums data)

def encode (image : Image) : List UInt8 :=
  signature ++
    chunk "IHDR" (bigEndianBytes 4 image.width ++ bigEndianBytes 4 image.height ++
      [bitDepth, indexedColor, 0, 0, 0]) ++
    chunk "PLTE" (image.palette.flatMap Color.bytes) ++
    chunk "IDAT" (stored (image.rows.flatMap (0 :: ·))) ++
    chunk "IEND" []

end AmosBasic.Png
