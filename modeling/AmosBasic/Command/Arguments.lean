import AmosBasic.Settings

namespace AmosBasic.Command

inductive Switch where
  | verbose
  | sourceOnly
  | ieeeFloat
  | permissive
  | help
  deriving DecidableEq

inductive PathOption where
  | imageFolder
  | dataFolder
  | config
  deriving DecidableEq

def Switch.ofWord? : String → Option Switch
  | "-v" | "--verbose" => some verbose
  | "--sourceonly" => some sourceOnly
  | "--ieee-float" => some ieeeFloat
  | "--permissive" => some permissive
  | "-h" | "--help" => some help
  | _ => none

def PathOption.ofWord? : String → Option PathOption
  | "--imagefolder" => some imageFolder
  | "--datafolder" => some dataFolder
  | "--config" => some config
  | _ => none

inductive UsageError where
  | unknownOption (word : String)
  | missingPath (word : String)
  | secondFile (word : String)
  deriving DecidableEq

def UsageError.message : UsageError → String
  | unknownOption word => s!"Unknown option: {word}"
  | missingPath word => s!"{word} needs a path"
  | secondFile word => s!"Only one input file is supported, got {word}"

structure Arguments where
  verbose : Bool := false
  sourceOnly : Bool := false
  ieeeFloat : Bool := false
  permissive : Bool := false
  help : Bool := false
  imageFolder? : Option String := none
  dataFolder? : Option String := none
  config? : Option String := none
  file? : Option String := none
  deriving DecidableEq

namespace Arguments

def turnOn (arguments : Arguments) : Switch → Arguments
  | .verbose => { arguments with verbose := true }
  | .sourceOnly => { arguments with sourceOnly := true }
  | .ieeeFloat => { arguments with ieeeFloat := true }
  | .permissive => { arguments with permissive := true }
  | .help => { arguments with help := true }

def setPath (arguments : Arguments) (path : String) : PathOption → Arguments
  | .imageFolder => { arguments with imageFolder? := some path }
  | .dataFolder => { arguments with dataFolder? := some path }
  | .config => { arguments with config? := some path }

def looksLikeOption (word : String) : Bool :=
  word.toList.head? = some '-'

/-- Reads the words from left to right. Of a path option that is repeated the last one counts. -/
def addWords (arguments : Arguments) : List String → Except UsageError Arguments
  | [] => .ok arguments
  | word :: rest =>
    match Switch.ofWord? word, PathOption.ofWord? word, rest with
    | some switch, _, rest => (arguments.turnOn switch).addWords rest
    | none, some option, path :: rest => (arguments.setPath path option).addWords rest
    | none, some _, [] => .error (.missingPath word)
    | none, none, rest =>
      if looksLikeOption word then .error (.unknownOption word)
      else if arguments.file?.isSome then .error (.secondFile word)
      else { arguments with file? := some word }.addWords rest

def parse (words : List String) : Except UsageError Arguments :=
  ({} : Arguments).addWords words

def apply (arguments : Arguments) (settings : Settings) : Settings :=
  let decoder : DecodeOptions :=
    { floatFormat := if arguments.ieeeFloat then .ieee else settings.decoder.floatFormat
      unknownOpcode := if arguments.permissive then .permissive else settings.decoder.unknownOpcode }
  let output : OutputOptions :=
    { sourceOnly := arguments.sourceOnly || settings.output.sourceOnly
      imageFolder := arguments.imageFolder?.getD settings.output.imageFolder
      dataFolder := arguments.dataFolder?.getD settings.output.dataFolder }
  { decoder, output }

end Arguments

def usage (program : String) : String :=
  "amosdecode - lists AMOS BASIC source files and extracts their banks\n" ++
  "\n" ++
  s!"Usage: {program} [options] <file.AMOS>\n" ++
  "\n" ++
  "Options:\n" ++
  "  -v, --verbose         print file details and debug logging\n" ++
  "  --sourceonly          only print the listing, skip the banks\n" ++
  "  --imagefolder PATH    where sprite and icon PNG files go (default: .)\n" ++
  "  --datafolder PATH     where packed pictures and raw banks go (default: .)\n" ++
  "  --config PATH         TOML file with decoder and output settings\n" ++
  "  --ieee-float          read float literals as IEEE-754 instead of AMOS format\n" ++
  "  --permissive          render unknown opcodes as ' 0x..' instead of '[0x..]'\n" ++
  "  -h, --help            show this help\n" ++
  "\n" ++
  "Examples:\n" ++
  s!"  {program} game.AMOS > game.txt\n" ++
  s!"  {program} -v --imagefolder sprites --datafolder banks game.AMOS\n"

end AmosBasic.Command
