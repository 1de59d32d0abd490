import AmosBasic.Regex.Depth
import AmosBasic.Regex.Meaning
import AmosBasic.Regex.Parser.Whole
import AmosBasic.Regex.Size

namespace AmosBasic

inductive PatternError where
  | fault (pattern : String) (fault : Regex.Fault)
  | tooLarge
  | foreignWord
  deriving DecidableEq

def PatternError.message : PatternError → String
  | fault pattern found => found.report pattern
  | tooLarge => s!"Compiled regex exceeds size limit of {Regex.maxSize} bytes."
  | foreignWord => "error building NFA"

namespace Regex

def meaningOf (pattern : String) : Meaning Regex := do
  let parts ← Pattern.ofText pattern
  match parts.depthFault? 0 with
  | some fault => throw fault
  | none => return (← parts.meaning {}).1

def ofText (pattern : String) : Except PatternError Regex :=
  match meaningOf pattern with
  | .error fault => .error (.fault pattern fault)
  | .ok regex =>
    if maxSize < regex.size then .error .tooLarge
    else if regex.hasForeignWord then .error .foreignWord
    else .ok regex

end Regex

end AmosBasic
