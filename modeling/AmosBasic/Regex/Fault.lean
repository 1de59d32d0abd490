namespace AmosBasic.Regex

structure Position where
  line : Nat := 1
  column : Nat := 1
  deriving DecidableEq

def Position.isBefore (first second : Position) : Bool :=
  first.line < second.line || first.line = second.line && first.column < second.column

structure Span where
  start : Position
  stop : Position
  deriving DecidableEq

namespace Span

def isBefore (first second : Span) : Bool :=
  first.start.isBefore second.start || first.start = second.start && first.stop.isBefore second.stop

def isOneLine (span : Span) : Bool :=
  span.start.line = span.stop.line

end Span

def maxDepth : Nat := 250

inductive Cause where
  | setEscapeInvalid
  | setRangeInvalid
  | setRangeLiteral
  | setUnclosed
  | decimalInvalid
  | hexEmpty
  | hexInvalid
  | hexDigitInvalid
  | escapeIncomplete
  | escapeUnknown
  | flagNegationDangling
  | flagTwice (earlier : Span)
  | flagNegationTwice (earlier : Span)
  | flagMissing
  | flagUnknown
  | groupNameTwice (earlier : Span)
  | groupNameEmpty
  | groupNameInvalid
  | groupNameUnclosed
  | groupUnclosed
  | groupUnopened
  | tooDeep
  | repetitionRange
  | repetitionDecimal
  | repetitionUnclosed
  | repetitionAlone
  | wordBoundaryUnclosed
  | wordBoundaryUnknown
  | wordBoundaryIncomplete
  | propertyInvalid
  | backreference
  | lookAround
  | beyondAscii
  | brokenText
  | propertyUnknown
  | propertyValueUnknown
  | classUnavailable
  | caseUnavailable
  deriving DecidableEq

namespace Cause

def message : Cause → String
  | setEscapeInvalid => "invalid escape sequence found in character class"
  | setRangeInvalid => "invalid character class range, the start must be <= the end"
  | setRangeLiteral => "invalid range boundary, must be a literal"
  | setUnclosed => "unclosed character class"
  | decimalInvalid => "decimal literal invalid"
  | hexEmpty => "hexadecimal literal empty"
  | hexInvalid => "hexadecimal literal is not a Unicode scalar value"
  | hexDigitInvalid => "invalid hexadecimal digit"
  | escapeIncomplete => "incomplete escape sequence, reached end of pattern prematurely"
  | escapeUnknown => "unrecognized escape sequence"
  | flagNegationDangling => "dangling flag negation operator"
  | flagTwice _ => "duplicate flag"
  | flagNegationTwice _ => "flag negation operator repeated"
  | flagMissing => "expected flag but got end of regex"
  | flagUnknown => "unrecognized flag"
  | groupNameTwice _ => "duplicate capture group name"
  | groupNameEmpty => "empty capture group name"
  | groupNameInvalid => "invalid capture group character"
  | groupNameUnclosed => "unclosed capture group name"
  | groupUnclosed => "unclosed group"
  | groupUnopened => "unopened group"
  | tooDeep => s!"exceed the maximum number of nested parentheses/brackets ({maxDepth})"
  | repetitionRange => "invalid repetition count range, the start must be <= the end"
  | repetitionDecimal => "repetition quantifier expects a valid decimal"
  | repetitionUnclosed => "unclosed counted repetition"
  | repetitionAlone => "repetition operator missing expression"
  | wordBoundaryUnclosed =>
    "special word boundary assertion is either unclosed or contains an invalid character"
  | wordBoundaryUnknown =>
    "unrecognized special word boundary assertion, valid choices are: start, end, start-half or end-half"
  | wordBoundaryIncomplete =>
    "found either the beginning of a special word boundary or a bounded repetition on a \\b with an " ++
      "opening brace, but no closing brace"
  | propertyInvalid => "invalid Unicode character class"
  | backreference => "backreferences are not supported"
  | lookAround => "look-around, including look-ahead and look-behind, is not supported"
  | beyondAscii => "Unicode not allowed here"
  | brokenText => "pattern can match invalid UTF-8"
  | propertyUnknown => "Unicode property not found"
  | propertyValueUnknown => "Unicode property value not found"
  | classUnavailable =>
    "Unicode-aware Perl class not found (make sure the unicode-perl feature is enabled)"
  | caseUnavailable =>
    "Unicode-aware case insensitivity matching is not available (make sure the unicode-case feature " ++
      "is enabled)"

/-- An earlier place that has to do with it. -/
def earlier? : Cause → Option Span
  | flagTwice span | flagNegationTwice span | groupNameTwice span => some span
  | _ => none

end Cause

structure Fault where
  cause : Cause
  span : Span
  deriving DecidableEq

namespace Fault

def linesOf (pattern : String) : List String :=
  match (pattern.splitOn "\n").reverse with
  | [] => []
  | last :: ended =>
    let whole := (ended.map fun line =>
      match line.toList.reverse with
      | '\r' :: before => String.ofList before.reverse
      | _ => line).reverse
    if last = "" then whole else whole ++ [last]

def spans (fault : Fault) : List Span :=
  match fault.cause.earlier? with
  | none => [fault.span]
  | some earlier => if fault.span.isBefore earlier then [fault.span, earlier] else [earlier, fault.span]

def marks (done : Nat) : List Span → String
  | [] => ""
  | span :: rest =>
    let gap := span.start.column - 1 - done
    let width := max 1 (span.stop.column - span.start.column)
    "".pushn ' ' gap ++ "".pushn '^' width ++ marks (done + gap + width) rest

def marked (pattern : String) (spans : List Span) : String :=
  let lines := linesOf pattern
  let count := if pattern.toList.getLast? = some '\n' then lines.length + 1 else lines.length
  let width := if count ≤ 1 then 0 else (toString count).length
  let margin (line : Nat) : String :=
    if width = 0 then "    " else "".pushn ' ' (width - (toString line).length) ++ toString line ++ ": "
  String.join (lines.mapIdx fun index line =>
    let here := spans.filter fun span => span.isOneLine && span.start.line = index + 1
    let below :=
      if here.isEmpty then "" else "".pushn ' ' (if width = 0 then 4 else 2 + width) ++ marks 0 here ++ "\n"
    margin (index + 1) ++ line ++ "\n" ++ below)

def extent (span : Span) : String :=
  s!"on line {span.start.line} (column {span.start.column}) through " ++
    s!"line {span.stop.line} (column {span.stop.column - 1})"

def report (pattern : String) (fault : Fault) : String :=
  let body := marked pattern fault.spans
  let ending := "error: " ++ fault.cause.message
  if '\n' ∈ pattern.toList then
    let rule := "".pushn '~' 79 ++ "\n"
    let notes := (fault.spans.filter fun span => !span.isOneLine).map extent
    let extents := if notes.isEmpty then "" else "\n".intercalate notes ++ "\n"
    "regex parse error:\n" ++ rule ++ body ++ rule ++ extents ++ ending
  else "regex parse error:\n" ++ body ++ ending

end Fault

end AmosBasic.Regex
