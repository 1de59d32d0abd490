import AmosBasic.Regex.Fault

namespace AmosBasic.Regex

structure Literal where
  span : Span
  character : Char
  isByte : Bool := false

inductive Flag where
  | anyCase
  | multiLine
  | dotMatchesLineEnd
  | swapGreed
  | unicode
  | carriageReturns
  | spaced
  deriving DecidableEq

abbrev FlagChange := Flag × Bool

inductive WordPlace where
  | boundary
  | notBoundary
  | start
  | stop
  | halfStart
  | halfStop
  deriving DecidableEq

inductive Assertion where
  | lineStart
  | lineEnd
  | textStart
  | textEnd
  | word (place : WordPlace)
  deriving DecidableEq

inductive CharClass where
  | digit
  | space
  | word
  deriving DecidableEq

inductive SetOperation where
  | intersection
  | difference
  | symmetricDifference
  deriving DecidableEq

inductive SetPattern where
  | nothing (span : Span)
  | literal (literal : Literal)
  | range (span : Span) (first last : Literal)
  | named (span : Span) (negated : Bool) (runs : List (Nat × Nat))
  | property (span : Span) (name : String)
  | charClass (span : Span) (negated : Bool) (kind : CharClass)
  | nested (span : Span) (negated : Bool) (inside : SetPattern)
  | several (span : Span) (items : List SetPattern)
  | operation (span : Span) (operation : SetOperation) (left right : SetPattern)

def SetPattern.span : SetPattern → Span
  | literal written => written.span
  | nothing span | range span .. | named span .. | property span _ | charClass span .. | nested span ..
  | several span _ | operation span .. => span

inductive GroupKind where
  | capture
  | flagged (changes : List FlagChange)

/-- A repetition has a least number and, unless it is unbounded, a largest one. -/
inductive Pattern where
  | empty (span : Span)
  | flags (span : Span) (changes : List FlagChange)
  | literal (literal : Literal)
  | dot (span : Span)
  | assertion (span : Span) (assertion : Assertion)
  | property (span : Span) (name : String)
  | charClass (span : Span) (negated : Bool) (kind : CharClass)
  | set (span : Span) (negated : Bool) (inside : SetPattern)
  | repetition (span : Span) (least : Nat) (most? : Option Nat) (body : Pattern)
  | group (span : Span) (kind : GroupKind) (body : Pattern)
  | alternatives (span : Span) (parts : List Pattern)
  | sequence (span : Span) (parts : List Pattern)

def Pattern.span : Pattern → Span
  | literal written => written.span
  | empty span | flags span _ | dot span | assertion span _ | property span _ | charClass span ..
  | set span .. | repetition span .. | group span .. | alternatives span _ | sequence span _ => span

end AmosBasic.Regex
