import AmosBasic.Export
import AmosBasic.Options

namespace AmosBasic

structure Settings where
  decoder : DecodeOptions := {}
  output : OutputOptions := {}
  deriving DecidableEq

namespace Settings

/-- The reading of a text can fail with a message. -/
def ofText (read : String → Except String Settings) (text : String) : Except DecodeError Settings :=
  (read text).mapError .invalidConfig

def floatFormatText : FloatFormat → String
  | .amos => "Amos"
  | .ieee => "Ieee"

def unknownOpcodeText : UnknownOpcodeStyle → String
  | .bracketed => "Bracketed"
  | .permissive => "Permissive"

def text (settings : Settings) : String :=
  let output := settings.output
  "Config \x7b decoder: DecodeOptions \x7b float_mode: " ++ floatFormatText settings.decoder.floatFormat ++
    ", unknown_opcode: " ++ unknownOpcodeText settings.decoder.unknownOpcode ++
    " \x7d, output: OutputOptions \x7b source_only: " ++ (if output.sourceOnly then "true" else "false") ++
    ", image_folder: " ++ Quoted.quote output.imageFolder ++
    ", data_folder: " ++ Quoted.quote output.dataFolder ++ " \x7d \x7d"

end Settings

end AmosBasic
