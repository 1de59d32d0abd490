namespace AmosBasic.Regex

abbrev Run := Nat × Nat

/-- The characters of all the runs, which may overlap. A set is `caseClosed` when it is known to hold,
with each letter, the other case of the letter too. -/
structure CharSet where
  runs : List Run
  caseClosed : Bool
  deriving DecidableEq

def Run.without (taken run : Run) : List Run :=
  (if run.1 < taken.1 then [(run.1, min run.2 (taken.1 - 1))] else []) ++
    (if taken.2 < run.2 then [(max run.1 (taken.2 + 1), run.2)] else [])

def Run.common (first second : Run) : Option Run :=
  let shared := (max first.1 second.1, min first.2 second.2)
  if shared.1 ≤ shared.2 then some shared else none

namespace CharSet

def empty : CharSet := ⟨[], true⟩

def all : CharSet := ⟨[(0, 0x10FFFF)], true⟩

def ofRuns (runs : List Run) : CharSet := ⟨runs, runs.isEmpty⟩

def single (character : Char) : CharSet := ofRuns [(character.toNat, character.toNat)]

def isEmpty (set : CharSet) : Bool := set.runs.isEmpty

def contains (set : CharSet) (character : Char) : Bool :=
  set.runs.any fun run => run.1 ≤ character.toNat && character.toNat ≤ run.2

def union (first second : CharSet) : CharSet :=
  if second.isEmpty then first
  else ⟨first.runs ++ second.runs, first.caseClosed && second.caseClosed⟩

def intersection (first second : CharSet) : CharSet :=
  if first.isEmpty ∨ second.isEmpty then empty
  else
    ⟨first.runs.flatMap fun run => second.runs.filterMap run.common,
      first.caseClosed && second.caseClosed⟩

def difference (first second : CharSet) : CharSet :=
  if first.isEmpty ∨ second.isEmpty then first
  else
    ⟨second.runs.foldl (fun left taken => left.flatMap (Run.without taken)) first.runs,
      first.caseClosed && second.caseClosed⟩

def symmetricDifference (first second : CharSet) : CharSet :=
  (first.union second).difference (first.intersection second)

def complement (set : CharSet) : CharSet :=
  { all.difference set with caseClosed := set.caseClosed }

def foldCase (set : CharSet) : CharSet :=
  let shifted (low high : Nat) (shift : Nat → Nat) : List Run :=
    set.runs.filterMap fun run =>
      (run.common (low, high)).map fun letters => (shift letters.1, shift letters.2)
  ⟨set.runs ++ shifted 0x41 0x5A (· + 0x20) ++ shifted 0x61 0x7A (· - 0x20), true⟩

end CharSet

end AmosBasic.Regex
