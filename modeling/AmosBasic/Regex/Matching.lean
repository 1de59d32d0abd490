import AmosBasic.Regex.CharSet
import AmosBasic.Regex.Pattern

namespace AmosBasic

namespace Regex

inductive Look where
  | textStart
  | textEnd
  | lineStart (carriageReturns : Bool)
  | lineEnd (carriageReturns : Bool)
  | word (place : WordPlace)
  deriving DecidableEq

end Regex

/-- `foreignWord` is a condition on the words of all alphabets. There are no tables for it, and it
holds nowhere. -/
inductive Regex where
  | empty
  | one (set : Regex.CharSet)
  | look (condition : Regex.Look)
  | foreignWord
  | sequence (first second : Regex)
  | choice (first second : Regex)
  | repetition (least : Nat) (most? : Option Nat) (body : Regex)
  | capture (body : Regex)

namespace Regex

def isWordPart (character : Char) : Bool :=
  character.isAlphanum || character = '_'

def WordPlace.holds (place : WordPlace) (before after : Bool) : Bool :=
  match place with
  | .boundary => before != after
  | .notBoundary => before == after
  | .start => !before && after
  | .stop => before && !after
  | .halfStart => !before
  | .halfStop => !after

namespace Look

/-- Whether the condition holds between two characters. A line does not end, and none begins, between a
carriage return and a line feed when both end lines. -/
def holds (look : Look) (before? after? : Option Char) : Bool :=
  match look with
  | textStart => before?.isNone
  | textEnd => after?.isNone
  | lineStart carriageReturns =>
    before?.isNone || before? = some '\n' ||
      carriageReturns && before? = some '\r' && after? ≠ some '\n'
  | lineEnd carriageReturns =>
    after?.isNone || carriageReturns && after? = some '\r' ||
      after? = some '\n' && !(carriageReturns && before? = some '\r')
  | word place => place.holds (before?.any isWordPart) (after?.any isWordPart)

end Look

abbrev Places := List Bool

namespace Places

def union (first second : Places) : Places :=
  List.zipWith (· || ·) first second

def behind (set : CharSet) (text : List Char) (places : Places) : Places :=
  false :: List.zipWith (fun place character => place && set.contains character) places text

def whereHolds (condition : Look) (before? : Option Char) : List Char → Places → Places
  | _, [] => []
  | [], place :: _ => [place && condition.holds before? none]
  | character :: text, place :: places =>
    (place && condition.holds before? (some character)) ::
      whereHolds condition (some character) text places

def iterate (advance : Places → Places) : Nat → Places → Places
  | 0, places => places
  | count + 1, places =>
    let next := advance places
    if next = places then places else iterate advance count next

def spread (advance : Places → Places) : Nat → Places → Places :=
  iterate fun places => places.union (advance places)

end Places

/-- The places that matches from some places lead to. A text of `n` characters leaves no more than `n`
repetitions that matter beyond the least number of them. -/
def advance (text : List Char) : Regex → Places → Places
  | empty, places => places
  | one set, places => places.behind set text
  | look condition, places => places.whereHolds condition none text
  | foreignWord, places => places.map fun _ => false
  | sequence first second, places => second.advance text (first.advance text places)
  | choice first second, places => (first.advance text places).union (second.advance text places)
  | repetition least most? body, places =>
    let reached := Places.iterate (body.advance text) least places
    Places.spread (body.advance text) ((most?.map (· - least)).getD text.length) reached
  | capture body, places => body.advance text places

def matchesIn (regex : Regex) (text : String) : Bool :=
  (regex.advance text.toList (true :: text.toList.map fun _ => true)).any id

def neverAdvances : Regex → Bool
  | empty | look _ | foreignWord => true
  | one _ => false
  | sequence first second | choice first second => first.neverAdvances && second.neverAdvances
  | repetition _ most? body => most? = some 0 || body.neverAdvances
  | capture body => body.neverAdvances

def repeated (least : Nat) (most? : Option Nat) (body : Regex) : Regex :=
  let (least, most?) :=
    if body.neverAdvances then (min least 1, some ((most?.map (min · 1)).getD 1)) else (least, most?)
  if most? = some 0 then empty
  else if least = 1 ∧ most? = some 1 then body
  else repetition least most? body

def hasForeignWord : Regex → Bool
  | foreignWord => true
  | empty | one _ | look _ => false
  | sequence first second | choice first second => first.hasForeignWord || second.hasForeignWord
  | repetition _ _ body | capture body => body.hasForeignWord

end Regex

end AmosBasic
