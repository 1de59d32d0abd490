import AmosBasic.Command.Arguments
import AmosBasic.Decoding

namespace AmosBasic.Command

structure Logger where
  complaints : String
  line : Note → String

namespace Logger

def lines (logger : Logger) (notes : List Note) : String :=
  String.join (notes.map logger.line)

end Logger

/-- What the program leaves to libraries: reading settings, setting up a log for a specification, encoding images. -/
structure Libraries where
  readSettings : String → Except String Settings
  logger : String → Logger
  encodeImage : Png.Image → List UInt8

/-- What a run finds: its own name, its arguments, the specification of the log, the files, and what closing the
standard output fails with. -/
structure Invocation where
  program : String
  words : List String
  logSpecification? : Option String := none
  tree : FileTree
  flushFailure? : Option String := none

/-- What a run leaves. `written` lists the files that it made, in their order. -/
structure Outcome where
  status : Nat
  output : String := ""
  messages : String := ""
  tree : FileTree
  written : List String := []

def exportSource (invocation : Invocation) (logger : Logger) (verbose : Bool) (settings : Settings) (path : String)
    (source : Source) : Outcome :=
  let listing : Listing := { flushFailure? := invocation.flushFailure? }
  let exporter : Exporter := { listing, options := settings.output, tree := invocation.tree }
  let (result, machine) := decode Exporter.receive settings.decoder settings.output.sourceOnly
    { cursor := { source }, receiver := exporter }
  let exporter := machine.receiver
  let notes := logger.lines machine.notes.toList
  let left : Outcome :=
    { status := 0, output := exporter.listing.text, messages := notes, tree := exporter.tree,
      written := exporter.files.toList }
  match result, exporter.finish with
  | .error error, _ | .ok _, .error error =>
    { left with status := 1, messages := notes ++ s!"Error: {path}: {error.message}\n" }
  | .ok summary, .ok _ =>
    let details := if verbose then s!"{summary.header.text}\n{summary.text}\n" else ""
    { left with messages := notes ++ details ++ logger.lines [.written exporter.files.size] }

def failure (invocation : Invocation) (messages : String) : Outcome :=
  { status := 1, messages, tree := invocation.tree }

namespace Libraries

variable (libraries : Libraries)

def contentBytes : FileContent → List UInt8
  | .bytes bytes => bytes
  | .image image => libraries.encodeImage image

def loadSettings (tree : FileTree) (path : String) : Except DecodeError Settings :=
  match tree.find path with
  | .error error => .error (.io s!"{path}: {error.message}")
  | .ok (.folder _) => .error (.io s!"{path}: {FileError.isFolder.message}")
  | .ok (.file content) =>
    match String.fromUTF8? (libraries.contentBytes content).toByteArray with
    | none => .error (.io s!"{path}: stream did not contain valid UTF-8")
    | some text => Settings.ofText libraries.readSettings text

def settingsOf (tree : FileTree) (arguments : Arguments) : Except DecodeError Settings :=
  (arguments.config?.elim (.ok {}) (libraries.loadSettings tree)).map arguments.apply

/-- The source of an input file, as the file is when it is opened. A folder can be opened, but not read. -/
def openInput (tree : FileTree) (path : String) : Except String Source :=
  match tree.find path with
  | .error .notFound => .error s!"File not found: {path}"
  | .error error => .error s!"Cannot open '{path}': {error.message}"
  | .ok (.folder _) => .ok { bytes := [], ending := .broken FileError.isFolder.message }
  | .ok (.file content) => .ok { bytes := libraries.contentBytes content }

def runArguments (invocation : Invocation) (arguments : Arguments) : Outcome :=
  let standard := if arguments.verbose then "debug" else "warn"
  let logger := libraries.logger (invocation.logSpecification?.getD standard)
  match arguments.file?, arguments.help with
  | some path, false =>
    match libraries.settingsOf invocation.tree arguments with
    | .error error => failure invocation s!"{logger.complaints}Error: {error.message}\n"
    | .ok settings =>
      let before := logger.complaints ++ logger.lines [.settings settings.text]
      match libraries.openInput invocation.tree path with
      | .error message => failure invocation s!"{before}Error: {message}\n"
      | .ok source =>
        let outcome := exportSource invocation logger arguments.verbose settings path source
        { outcome with messages := before ++ outcome.messages }
  | _, _ =>
    { status := 0, output := usage invocation.program, messages := logger.complaints, tree := invocation.tree }

def run (invocation : Invocation) : Outcome :=
  match Arguments.parse invocation.words with
  | .error error =>
    { failure invocation s!"Error: {error.message}\n\n" with output := usage invocation.program }
  | .ok arguments => libraries.runArguments invocation arguments

end Libraries

end AmosBasic.Command
