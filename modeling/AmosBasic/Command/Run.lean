import AmosBasic.Command.LogFilter
import AmosBasic.Command.Program
import AmosBasic.Png.Encoding
import AmosBasic.Text.ControlSequence
import AmosBasic.Toml.Settings

namespace AmosBasic.Command

def noteLine (note : Note) : String :=
  ControlSequence.strip
    (note.level.text ++ " " ++ "\n    ".intercalate (note.message.splitOn "\n") ++ "\n")

def LogFilter.logger (specification : String) : Logger :=
  let (filter, complaints) := LogFilter.parse specification
  { complaints := String.join (complaints.map fun complaint => s!"warning: {complaint}, ignoring it\n"),
    line := fun note => if filter.shows note then noteLine note else "" }

/-- Stand-ins for the libraries of the program. -/
def Libraries.standIn : Libraries where
  readSettings := Settings.read
  logger := LogFilter.logger
  encodeImage := Png.encode

def run (invocation : Invocation) : Outcome :=
  Libraries.standIn.run invocation

end AmosBasic.Command
