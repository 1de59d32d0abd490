namespace AmosBasic.ControlSequence

inductive State where
  | ground
  | escape
  | escapeIntermediate
  | entry
  | parameter
  | intermediate
  | ignored
  | deviceEntry
  | deviceParameter
  | deviceIntermediate
  | deviceIgnored
  | deviceText
  | command
  | message
  deriving DecidableEq

namespace State

def isOpaque : State → Bool
  | deviceIgnored | deviceText | message => true
  | _ => false

def obeysControls : State → Bool
  | ground | escape | escapeIntermediate | entry | parameter | intermediate | ignored => true
  | _ => false

def introduced (code : Nat) : State :=
  if code = 0x50 then deviceEntry
  else if code = 0x5B then entry
  else if code = 0x5D then command
  else if code = 0x58 ∨ code = 0x5E ∨ code = 0x5F then message
  else ground

inductive Role where
  | middle
  | parameter
  | marker
  | closing
  deriving DecidableEq

def Role.of? (code : Nat) : Option Role :=
  if code < 0x20 then none
  else if code < 0x30 then some .middle
  else if code < 0x3C then some .parameter
  else if code < 0x40 then some .marker
  else if code < 0x7F then some .closing
  else none

def inSequence (state : State) (code : Nat) (role : Role) : State :=
  match state, role with
  | escape, .middle => escapeIntermediate
  | escape, _ => introduced code
  | escapeIntermediate, .middle => escapeIntermediate
  | escapeIntermediate, _ => ground
  | entry, .middle | parameter, .middle | intermediate, .middle => intermediate
  | entry, .parameter | entry, .marker | parameter, .parameter => parameter
  | parameter, .marker | intermediate, .parameter | intermediate, .marker => ignored
  | entry, .closing | parameter, .closing | intermediate, .closing | ignored, .closing => ground
  | deviceEntry, .middle | deviceParameter, .middle | deviceIntermediate, .middle => deviceIntermediate
  | deviceEntry, .parameter | deviceEntry, .marker | deviceParameter, .parameter => deviceParameter
  | deviceParameter, .marker | deviceIntermediate, .parameter | deviceIntermediate, .marker => deviceIgnored
  | deviceEntry, .closing | deviceParameter, .closing | deviceIntermediate, .closing => deviceText
  | state, _ => state

/-- The state after a code below 0x80. Cancel and substitute end everything, an escape begins anew. -/
def next (state : State) (code : Nat) : State :=
  if code = 0x18 ∨ code = 0x1A then ground
  else if code = 0x1B then escape
  else if state = command ∧ code = 0x07 then ground
  else match Role.of? code with
    | some role => state.inSequence code role
    | none => state

end State

def isLayout (code : Nat) : Bool :=
  code = 0x09 || code = 0x0A || code = 0x0C || code = 0x0D

def isVisible (code : Nat) : Bool :=
  0x20 ≤ code && code < 0x7F

/-- While text is `shown`, the state is the one that the text before it left behind: a tab or a line
end in the midst of a sequence is shown with the text behind it, and at the next control that is
not shown the sequence goes on. -/
structure Progress where
  shown : Bool := false
  state : State := .ground

def holdsTerminator (character : Char) : Bool :=
  character.toString.toUTF8.toList.contains 0x9C

namespace Progress

def search (state : State) (code : Nat) : Bool × Progress :=
  let next := state.next code
  let found := if isVisible code then state = .ground else isLayout code && state.obeysControls
  (found, ⟨found, next⟩)

def take (progress : Progress) (character : Char) : Bool × Progress :=
  let code := character.toNat
  let state := progress.state
  if 0x80 ≤ code then
    if progress.shown ∨ state = .ground then (true, ⟨true, .ground⟩)
    else if state.isOpaque ∧ holdsTerminator character then (false, ⟨false, .ground⟩)
    else (false, ⟨false, state⟩)
  else if progress.shown then
    if isVisible code ∨ isLayout code then (true, progress)
    else search (if code = 0x18 ∨ code = 0x1A then .ground else if code = 0x1B then .escape else state) code
  else search state code

end Progress

def stripFrom (progress : Progress) : List Char → List Char
  | [] => []
  | character :: rest =>
    let (shown, progress) := progress.take character
    if shown then character :: stripFrom progress rest else stripFrom progress rest

/-- The text as it shows where there is no terminal. -/
def strip (text : String) : String :=
  String.ofList (stripFrom {} text.toList)

end AmosBasic.ControlSequence
