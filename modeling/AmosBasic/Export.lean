import AmosBasic.Delivery
import AmosBasic.FileTree

namespace AmosBasic

/-- Where the text of the lines goes. It may have a limit in bytes, and closing it may fail. -/
structure Listing where
  text : String := ""
  limit? : Option Nat := none
  flushFailure? : Option String := none

namespace Listing

def write (listing : Listing) (text : String) : Option Listing :=
  if text.isEmpty then some listing
  else
    let longer := listing.text ++ text
    match listing.limit? with
    | some limit => if limit < longer.utf8ByteSize then none else some { listing with text := longer }
    | none => some { listing with text := longer }

def flush (listing : Listing) : Except DecodeError String :=
  match listing.flushFailure? with
  | some text => .error (.io text)
  | none => .ok listing.text

end Listing

structure OutputOptions where
  sourceOnly : Bool := false
  imageFolder : String := ""
  dataFolder : String := ""
  deriving DecidableEq

def Receipt.andThen {σ : Type} (receipt : Receipt σ) (next : σ → Receipt σ) : Receipt σ :=
  match receipt.refusal with
  | some _ => receipt
  | none =>
    let later := next receipt.receiver
    { later with notes := receipt.notes ++ later.notes }

/-- The characters of a name that are safe in a file name; the others become underscores, of which
none is kept at the ends. -/
def fileSafeName (name : String) : String :=
  let safe := name.toList.map fun character => if character.isAlphanum then character else '_'
  let trimLeft (characters : List Char) := characters.dropWhile (· = '_')
  String.ofList (trimLeft (trimLeft safe).reverse).reverse

/-- The state of an export. Images are numbered by kind over all banks; the files are those made so
far, in their order. -/
structure Exporter where
  listing : Listing := {}
  options : OutputOptions := {}
  tree : FileTree := {}
  sprites : Nat := 0
  icons : Nat := 0
  files : Array String := #[]

namespace Exporter

def refuse (exporter : Exporter) (text : String) : Receipt Exporter :=
  { receiver := exporter, refusal := some (.io text) }

def accept (exporter : Exporter) : Receipt Exporter :=
  { receiver := exporter }

def writeText (text : String) (exporter : Exporter) : Receipt Exporter :=
  match exporter.listing.write text with
  | some listing => accept { exporter with listing }
  | none => exporter.refuse "listing is full"

def writeLine (text : String) (exporter : Exporter) : Receipt Exporter :=
  (exporter.writeText text).andThen (writeText "\n")

def makeFolders (folder : String) (exporter : Exporter) : Receipt Exporter :=
  match exporter.tree.makeFolders folder with
  | (.ok (), tree) => accept { exporter with tree }
  | (.error error, tree) => refuse { exporter with tree } error.message

def writeFile (path : String) (content : FileContent) (exporter : Exporter) : Receipt Exporter :=
  match exporter.tree.writeFile path content with
  | .ok tree =>
    { receiver := { exporter with tree, files := exporter.files.push path }, notes := [.writing path] }
  | .error error => { exporter.refuse error.message with notes := [.writing path] }

def create (folder name : String) (content : FileContent) (exporter : Exporter) : Receipt Exporter :=
  (exporter.makeFolders folder).andThen (writeFile (joinPath folder name) content)

/-- An image without pixels is left out. One too large for the format leaves an empty file. -/
def writeImage (folder name : String) (raster : Raster) (exporter : Exporter) : Receipt Exporter :=
  if raster.isEmpty then
    { receiver := exporter, notes := [.skipped name raster.width raster.height] }
  else match Png.ofRaster raster with
    | .ok image => exporter.create folder name (.image image)
    | .error error => (exporter.create folder name (.bytes [])).andThen fun exporter =>
      { receiver := exporter, refusal := some error }

def nextImage (kind : ImageKind) (exporter : Exporter) : String × Exporter :=
  match kind with
  | .sprites =>
    let number := exporter.sprites + 1
    ("Sprite_" ++ zeroFilled 3 (toString number) ++ ".png", { exporter with sprites := number })
  | .icons =>
    let number := exporter.icons + 1
    ("Icon_" ++ zeroFilled 3 (toString number) ++ ".png", { exporter with icons := number })

def writeBankImage (kind : ImageKind) (raster : Raster) (exporter : Exporter) : Receipt Exporter :=
  let (name, exporter) := exporter.nextImage kind
  exporter.writeImage exporter.options.imageFolder name raster

def writePicture (header : MemoryHeader) (picture : PackedPicture) (exporter : Exporter) : Receipt Exporter :=
  let (raster, notes) := picture.raster
  match raster with
  | .error error => { receiver := exporter, refusal := some error }
  | .ok raster =>
    let name := "PacPic_" ++ zeroFilled 2 (toString header.number.toNat) ++ ".png"
    Receipt.andThen { receiver := exporter, notes }
      (writeImage exporter.options.dataFolder name raster)

def rawName (header : MemoryHeader) : String :=
  "Bank_" ++ zeroFilled 2 (toString header.number.toNat) ++ "_" ++ fileSafeName header.nameText ++ ".bin"

def receive : Sink Exporter := fun exporter delivery =>
  match delivery with
  | .line line => exporter.writeLine line.text
  | .bank (.images kind bank) =>
    bank.images.foldl (fun receipt image => receipt.andThen (writeBankImage kind image.raster))
      exporter.accept
  | .bank (.picture header picture) => exporter.writePicture header picture
  | .bank (.raw header payload) =>
    exporter.create exporter.options.dataFolder (rawName header) (.bytes payload)

def finish (exporter : Exporter) : Except DecodeError String :=
  exporter.listing.flush

end Exporter

end AmosBasic
