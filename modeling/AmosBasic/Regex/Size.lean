import AmosBasic.Regex.Matching

namespace AmosBasic.Regex

def stateSize : Nat := 32

/-- The states for a character of a set. Beyond ASCII a character is several bytes, and the bytes of all
alphabets together take nine states. -/
def CharSet.size (set : CharSet) : Nat :=
  match set.runs with
  | [(first, last)] =>
    if first = last then stateSize * (Char.ofNat first).utf8Size
    else if last < 0x80 then 2 * stateSize + 8
    else 9 * stateSize + 136
  | runs =>
    if runs.all fun run => run.2 < 0x80 then 2 * stateSize + 8 * runs.length
    else 9 * stateSize + 8 * runs.length + 128

def size : Regex → Nat
  | empty | look _ | foreignWord => stateSize
  | one set => set.size
  | sequence first second => first.size + second.size
  | choice first second => first.size + second.size + 2 * stateSize
  | repetition least none body => max least 1 * body.size + stateSize
  | repetition least (some most) body => most * body.size + (most - least + 1) * stateSize
  | capture body => body.size + 2 * stateSize

def maxSize : Nat := 10485760

end AmosBasic.Regex
