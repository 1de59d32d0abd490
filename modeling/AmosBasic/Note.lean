import AmosBasic.Summary

namespace AmosBasic

inductive Level where
  | error
  | warn
  | info
  | debug
  | trace
  deriving DecidableEq

namespace Level

def rank : Level → Nat
  | error => 1
  | warn => 2
  | info => 3
  | debug => 4
  | trace => 5

def text : Level → String
  | error => "ERROR"
  | warn => "WARN"
  | info => "INFO"
  | debug => "DEBUG"
  | trace => "TRACE"

end Level

inductive Origin where
  | program
  | cursor
  | lines
  | container
  | banks
  | planes
  | pictures
  | decoder
  | exporter
  deriving DecidableEq

def programName : String := "amosdecode"

def Origin.name : Origin → String
  | program => programName
  | cursor => programName ++ "::cursor"
  | lines => programName ++ "::detokenizer"
  | container => programName ++ "::container"
  | banks => programName ++ "::banks"
  | planes => programName ++ "::planar"
  | pictures => programName ++ "::pacpic"
  | decoder => programName ++ "::decoder"
  | exporter => programName ++ "::export"

inductive Note where
  | shortRead (offset wanted got : Nat)
  | record (offset : Nat) (opcode : UInt16) (payloadWords : Nat) (text : String)
  | unknownOpcode (opcode : UInt16) (offset : Nat)
  | unknownCommand (module : UInt8) (command : UInt16) (offset : Nat)
  | opened (header : Header)
  | untested (header : Header)
  | bankCount (count : Nat)
  | memoryBank (header : MemoryHeader)
  | unknownMemoryBank (header : MemoryHeader)
  | imageCount (count : Nat)
  | image (index width height depth hotspotX hotspotY : Nat)
  | planar (width height depth : Nat)
  | unexpectedScreenId (id : Nat)
  | unexpectedLayoutId (id : Nat)
  | picture (screen : Screen) (packedSize : Nat)
  | keptRaw (header : MemoryHeader) (error : DecodeError)
  | finished (summary : Summary)
  | skipped (name : String) (width height : Nat)
  | writing (path : String)
  | settings (text : String)
  | written (count : Nat)

namespace Note

def level : Note → Level
  | unknownOpcode .. | unknownCommand .. | unknownMemoryBank .. | unexpectedScreenId ..
  | unexpectedLayoutId .. | keptRaw .. | skipped .. => .warn
  | opened .. | finished .. | written .. => .info
  | untested .. | bankCount .. | memoryBank .. | imageCount .. | image .. | picture .. | writing ..
  | settings .. => .debug
  | shortRead .. | record .. | planar .. => .trace

def origin : Note → Origin
  | shortRead .. => .cursor
  | record .. | unknownOpcode .. | unknownCommand .. => .lines
  | opened .. | untested .. => .container
  | bankCount .. | memoryBank .. | unknownMemoryBank .. | imageCount .. | image .. | keptRaw .. => .banks
  | planar .. => .planes
  | unexpectedScreenId .. | unexpectedLayoutId .. | picture .. => .pictures
  | finished .. => .decoder
  | skipped .. | writing .. => .exporter
  | settings .. | written .. => .program

def message : Note → String
  | shortRead offset wanted got => s!"short read at {hexadecimal offset}: wanted {wanted}, got {got}"
  | record offset opcode payloadWords text =>
    s!"{hexadecimalFilled 6 offset}: opcode {hexadecimalFilled 4 opcode.toNat} +{payloadWords} words " ++
      Quoted.quote text
  | unknownOpcode opcode offset =>
    s!"unknown opcode {hexadecimalFilled 4 opcode.toNat} at {hexadecimal offset}"
  | unknownCommand module command offset =>
    s!"unknown extension command {module.toNat}:{hexadecimal command.toNat} at {hexadecimal offset}"
  | opened header =>
    s!"{header.label} ({header.variant.origin}), {header.sourceLength} bytes of source"
  | untested header => s!"header {Quoted.quote header.label} has not been sanity tested"
  | bankCount count => s!"decoding {count} banks"
  | memoryBank header => header.text
  | unknownMemoryBank header => s!"unknown memory bank: {Quoted.quote header.nameText}"
  | imageCount count => s!"... reading {count} images"
  | image index width height depth hotspotX hotspotY =>
    s!"img({index})={width}x{height}x{depth}, ({hotspotX}, {hotspotY})"
  | planar width height depth =>
    s!"planar decode {width}x{height}x{depth} ({Raster.bytesPerRow width} bytes per row)"
  | unexpectedScreenId id => s!"unexpected packed picture screen id {hexadecimalFilled 8 id}"
  | unexpectedLayoutId id => s!"unexpected packed picture header id {hexadecimalFilled 8 id}"
  | picture screen packedSize =>
    s!"packed picture {screen.width}x{screen.height}, {screen.colors} colors, " ++
      s!"{screen.planes} bitplanes, {packedSize} packed bytes"
  | keptRaw header error => s!"bank {header.number.toNat}: {error.message}, keeping raw bytes"
  | finished summary => summary.text
  | skipped name width height => s!"skipping {name}: image is {width}x{height}"
  | writing path => s!"writing {path}"
  | settings text => text
  | written count => s!"{count} files written"

end Note

def Raster.convert (width height depth : Nat) (planes : List UInt8) (palette : Palette) :
    Except DecodeError Raster × List Note :=
  match Raster.ofPlanar width height depth planes palette with
  | .ok raster => (.ok raster, [.planar width height depth])
  | .error error => (.error error, [])

/-- A single pixel that carries the palette. It stands in for the picture, which is not unpacked. -/
def PackedPicture.raster (picture : PackedPicture) : Except DecodeError Raster × List Note :=
  Raster.convert 1 1 1 [0] picture.screen.palette

end AmosBasic
