import AmosBasic.Regex.Pattern

namespace AmosBasic.Regex

def deeper (depth : Nat) (span : Span) (inside : Nat → Option Fault) : Option Fault :=
  if depth < maxDepth then inside (depth + 1) else some ⟨.tooDeep, span⟩

mutual

def SetPattern.depthFault? (depth : Nat) : SetPattern → Option Fault
  | .nested span _ inside => deeper depth span fun depth => inside.depthFault? depth
  | .several span items => deeper depth span fun depth => setsDepthFault? depth items
  | .operation span _ left right =>
    deeper depth span fun depth => left.depthFault? depth <|> right.depthFault? depth
  | .nothing _ | .literal _ | .range .. | .named .. | .property .. | .charClass .. => none

def setsDepthFault? (depth : Nat) : List SetPattern → Option Fault
  | [] => none
  | first :: rest => first.depthFault? depth <|> setsDepthFault? depth rest

end

mutual

/-- The fault of a pattern that stands at some depth. -/
def Pattern.depthFault? (depth : Nat) : Pattern → Option Fault
  | .set span _ inside => deeper depth span fun depth => inside.depthFault? depth
  | .repetition span _ _ body | .group span _ body =>
    deeper depth span fun depth => body.depthFault? depth
  | .alternatives span parts | .sequence span parts =>
    deeper depth span fun depth => partsDepthFault? depth parts
  | .empty _ | .flags .. | .literal _ | .dot _ | .assertion .. | .property .. | .charClass .. => none

def partsDepthFault? (depth : Nat) : List Pattern → Option Fault
  | [] => none
  | first :: rest => first.depthFault? depth <|> partsDepthFault? depth rest

end

end AmosBasic.Regex
