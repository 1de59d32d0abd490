import AmosBasic.Regex.Matching

namespace AmosBasic.Regex

/-- Flags that have to do with the meaning of a pattern. With `unicode` text is taken as characters of
all alphabets, without it as bytes, of which only ASCII can be told apart. -/
structure Flags where
  anyCase : Bool := false
  multiLine : Bool := false
  dotMatchesLineEnd : Bool := false
  unicode : Bool := true
  carriageReturns : Bool := false

namespace Flags

def change (flags : Flags) (change : FlagChange) : Flags :=
  match change with
  | (.anyCase, value) => { flags with anyCase := value }
  | (.multiLine, value) => { flags with multiLine := value }
  | (.dotMatchesLineEnd, value) => { flags with dotMatchesLineEnd := value }
  | (.unicode, value) => { flags with unicode := value }
  | (.carriageReturns, value) => { flags with carriageReturns := value }
  | (.swapGreed, _) | (.spaced, _) => flags

def changeAll (flags : Flags) (changes : List FlagChange) : Flags :=
  changes.foldl change flags

end Flags

abbrev Meaning := Except Fault

namespace Meaning

def refuse {α : Type} (cause : Cause) (span : Span) : Meaning α :=
  .error { cause, span }

end Meaning

open Meaning

def withCase (flags : Flags) (span : Span) (set : CharSet) : Meaning CharSet :=
  if !flags.anyCase then return set
  else if !flags.unicode then return set.foldCase
  else if set.isEmpty ∨ set.caseClosed then return { set with caseClosed := true }
  else refuse .caseUnavailable span

def withSign (flags : Flags) (span : Span) (negated : Bool) (set : CharSet) : Meaning CharSet := do
  let set ← withCase flags span set
  if !negated then return set
  else if flags.unicode then return set.complement
  else refuse .brokenText span

def CharClass.runs : CharClass → List Run
  | digit => [(0x30, 0x39)]
  | space => [(0x09, 0x0D), (0x20, 0x20)]
  | word => [(0x30, 0x39), (0x41, 0x5A), (0x5F, 0x5F), (0x61, 0x7A)]

def classSet (flags : Flags) (span : Span) (negated : Bool) (kind : CharClass) : Meaning CharSet :=
  if flags.unicode then refuse .classUnavailable span
  else if negated then refuse .brokenText span
  else return .ofRuns kind.runs

/-- The name of a property as names are compared: in lower case, without `is` in front and without
blanks, hyphens and underlines. -/
def plainName (name : String) : String :=
  let shorten : List Char → List Char
    | first :: second :: rest =>
      if first.toLower = 'i' ∧ second.toLower = 's' then rest else first :: second :: rest
    | short => short
  let kept := (shorten name.toList).filter fun character =>
    character.toNat < 0x80 && character ≠ ' ' && character ≠ '_' && character ≠ '-'
  String.ofList (kept.map Char.toLower)

def propertyFault (flags : Flags) (name : String) : Cause :=
  if !flags.unicode then .beyondAscii
  else if plainName name ∈ ["cf", "sc", "lc"] then .propertyValueUnknown
  else .propertyUnknown

def checkByte (flags : Flags) (written : Literal) : Meaning Unit :=
  if !flags.unicode ∧ written.isByte ∧ 0x80 ≤ written.character.toNat then
    refuse .brokenText written.span
  else return ()

def numberInSet (flags : Flags) (written : Literal) : Meaning Nat := do
  checkByte flags written
  if !flags.unicode ∧ 0x80 ≤ written.character.toNat then refuse .beyondAscii written.span
  else return written.character.toNat

def SetOperation.apply : SetOperation → CharSet → CharSet → CharSet
  | intersection => .intersection
  | difference => .difference
  | symmetricDifference => .symmetricDifference

mutual

def SetPattern.meaning (flags : Flags) : SetPattern → Meaning CharSet
  | .nothing _ => return .empty
  | .literal written => do
    let number ← numberInSet flags written
    return .ofRuns [(number, number)]
  | .range _ first last => do
    let low ← numberInSet flags first
    let high ← numberInSet flags last
    return .ofRuns [(low, high)]
  | .named span negated runs => withSign flags span negated (.ofRuns runs)
  | .property span name => refuse (propertyFault flags name) span
  | .charClass span negated kind => classSet flags span negated kind
  | .nested span negated inside => do withSign flags span negated (← inside.meaning flags)
  | .several _ items => unionMeaning flags .empty items
  | .operation _ operation left right => do
    let first ← left.meaning flags
    let second ← right.meaning flags
    let second ← withCase flags right.span second
    let first ← withCase flags left.span first
    return operation.apply first second

def unionMeaning (flags : Flags) (set : CharSet) : List SetPattern → Meaning CharSet
  | [] => return set
  | first :: rest => do unionMeaning flags (set.union (← first.meaning flags)) rest

end

def literalMeaning (flags : Flags) (written : Literal) : Meaning Regex := do
  checkByte flags written
  if flags.anyCase ∧ flags.unicode then refuse .caseUnavailable written.span
  else if flags.anyCase then return .one (CharSet.single written.character).foldCase
  else return .one (.single written.character)

def dotMeaning (flags : Flags) (span : Span) : Meaning Regex :=
  let lineEnds : List Run :=
    if flags.dotMatchesLineEnd then []
    else if flags.carriageReturns then [(0x0A, 0x0A), (0x0D, 0x0D)]
    else [(0x0A, 0x0A)]
  if flags.unicode then return .one (CharSet.ofRuns lineEnds).complement else refuse .brokenText span

def assertionMeaning (flags : Flags) : Assertion → Regex
  | .lineStart => .look (if flags.multiLine then .lineStart flags.carriageReturns else .textStart)
  | .lineEnd => .look (if flags.multiLine then .lineEnd flags.carriageReturns else .textEnd)
  | .textStart => .look .textStart
  | .textEnd => .look .textEnd
  | .word place => if flags.unicode then .foreignWord else .look (.word place)

mutual

def Pattern.meaning (flags : Flags) : Pattern → Meaning (Regex × Flags)
  | .empty _ => return (.empty, flags)
  | .flags _ changes => return (.empty, flags.changeAll changes)
  | .literal written => return (← literalMeaning flags written, flags)
  | .dot span => return (← dotMeaning flags span, flags)
  | .assertion _ assertion => return (assertionMeaning flags assertion, flags)
  | .property span name => refuse (propertyFault flags name) span
  | .charClass span negated kind => return (.one (← classSet flags span negated kind), flags)
  | .set span negated inside => do
    return (.one (← withSign flags span negated (← inside.meaning flags)), flags)
  | .repetition _ least most? body => do
    let (regex, flags) ← body.meaning flags
    return (repeated least most? regex, flags)
  | .group _ .capture body => do
    return (.capture (← body.meaning flags).1, flags)
  | .group _ (.flagged changes) body => do
    return ((← body.meaning (flags.changeAll changes)).1, flags)
  | .alternatives _ parts => choiceMeaning flags parts
  | .sequence _ parts => sequenceMeaning flags parts

def sequenceMeaning (flags : Flags) : List Pattern → Meaning (Regex × Flags)
  | [] => return (.empty, flags)
  | [last] => last.meaning flags
  | first :: rest => do
    let (first, flags) ← first.meaning flags
    let (rest, flags) ← sequenceMeaning flags rest
    return (.sequence first rest, flags)

def choiceMeaning (flags : Flags) : List Pattern → Meaning (Regex × Flags)
  | [] => return (.empty, flags)
  | [last] => last.meaning flags
  | first :: rest => do
    let (first, flags) ← first.meaning flags
    let (rest, flags) ← choiceMeaning flags rest
    return (.choice first rest, flags)

end

end AmosBasic.Regex
