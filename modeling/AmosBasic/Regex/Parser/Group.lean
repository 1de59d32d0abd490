import AmosBasic.Regex.Parser
import AmosBasic.Text.Letter

namespace AmosBasic.Regex

def Flag.ofLetter? (letter : Char) : Option Flag :=
  [('i', anyCase), ('m', multiLine), ('s', dotMatchesLineEnd), ('U', swapGreed), ('u', unicode),
   ('R', carriageReturns), ('x', spaced)].lookup letter

structure FlagItem where
  span : Span
  flag? : Option Flag

def flagChanges (value : Bool) : List FlagItem → List FlagChange
  | [] => []
  | ⟨_, none⟩ :: rest => flagChanges false rest
  | ⟨_, some flag⟩ :: rest => (flag, value) :: flagChanges value rest

namespace Parser

def flagItem (earlier : List FlagItem) (letter : Char) : Parser FlagItem := do
  let span ← nextSpan
  if letter = '-' then
    match earlier.find? fun item => item.flag?.isNone with
    | some item => fail (.flagNegationTwice item.span) span
    | none => return ⟨span, none⟩
  else match Flag.ofLetter? letter with
    | none => fail .flagUnknown span
    | some flag =>
      match earlier.find? fun item => item.flag? = some flag with
      | some item => fail (.flagTwice item.span) span
      | none => return ⟨span, some flag⟩

def flagItems (earlier : List FlagItem) : Nat → Parser (List FlagItem)
  | 0 => return earlier
  | fuel + 1 => do
    match ← peek with
    | none => fail .flagMissing (← here)
    | some letter =>
      if letter = ':' ∨ letter = ')' then
        match earlier.getLast? with
        | some ⟨span, none⟩ => fail .flagNegationDangling span
        | _ => return earlier
      else
        let item ← flagItem earlier letter
        step
        flagItems (earlier ++ [item]) fuel

def isNameStart (character : Char) : Bool :=
  character = '_' || isLetter character

def isNamePart (character : Char) : Bool :=
  character = '_' || character = '.' || character = '[' || character = ']' || isLetter character ||
    isNumber character

def captureName : Parser Unit := do
  let start ← position
  if (← peek).any isNameStart then
    let name ← gatherAll isNamePart step
    let span ← spanFrom start
    match ← peek with
    | none => fail .groupNameUnclosed (← here)
    | some '>' =>
      step
      let name := String.ofList name
      let progress ← get
      match progress.names.lookup name with
      | some earlier => fail (.groupNameTwice earlier) span
      | none => set { progress with names := (name, span) :: progress.names }
    | some _ => fail .groupNameInvalid (← nextSpan)
  else match ← peek with
    | none => fail .groupNameUnclosed (← here)
    | some '>' => fail .groupNameEmpty (← here)
    | some _ => fail .groupNameInvalid (← nextSpan)

inductive Opening where
  | group (span : Span) (kind : GroupKind)
  | flags (span : Span) (changes : List FlagChange)

def flagOpening (opening question : Span) : Parser Opening := do
  if ← atEnd then fail .groupUnclosed opening
  else
    let items ← flagItems [] ((← rest).length + 1)
    let changes := flagChanges true items
    let closes := (← peek) = some ')'
    step
    if !closes then return .group opening (.flagged changes)
    else if items.isEmpty then fail .repetitionAlone question
    else return .flags (← spanFrom opening.start) changes

def lookAroundSigns : List String := ["?=", "?!", "?<=", "?<!"]

def opening : Parser Opening := do
  let span ← nextSpan
  stepOn
  let ahead ← rest
  match lookAroundSigns.find? fun sign => sign.toList.isPrefixOf ahead with
  | some sign =>
    steps sign.length
    fail .lookAround (← spanFrom span.start)
  | none =>
    let question ← here
    if ← stepOver "?P<" then
      captureName
      return .group span .capture
    else if ← stepOver "?<" then
      captureName
      return .group span .capture
    else if ← stepOver "?" then flagOpening span question
    else return .group span .capture

end Parser

end AmosBasic.Regex
